import Vetting.Script.Tree

/-! The first illegal construct of a script. Where the tree had to be repaired, that is the first
node that is in error or missing; otherwise the first construct of the predecessor language. -/

namespace Vetting.Script

/-- What is wrong at a node. -/
inductive Fault where
  | unreadable
  | missing (kind : String)
  | printStatement
  | execStatement
  | bareExceptionTypes
  | longInteger
  | leadingZeros
  deriving DecidableEq, Repr

/-- The wording of a fault. -/
def Fault.message : Fault → String
  | unreadable => "invalid syntax"
  | missing kind => "missing '" ++ kind ++ "'"
  | printStatement => "Missing parentheses in call to 'print'. Did you mean print(...)?"
  | execStatement => "Missing parentheses in call to 'exec'"
  | bareExceptionTypes => "multiple exception types must be parenthesized"
  | longInteger => "invalid decimal literal"
  | leadingZeros => "leading zeros in decimal integer literals are not permitted"

/-- Whether a number ends in the letter of long integers. -/
def endsLong (literal : List Char) : Bool :=
  match literal.getLast? with
  | some c => c == 'l' || c == 'L'
  | none => false

/-- Whether a number is zero-padded: it starts with a zero and consists of digits and underscores,
one of them a digit other than zero. -/
def isPadded (literal : List Char) : Bool :=
  match literal with
  | '0' :: rest =>
      rest.all (fun c => c.isDigit || c == '_') && rest.any (fun c => c.isDigit && c != '0')
  | _ => false

/-- What is wrong with a node that only the predecessor language accepts. -/
def SyntaxTree.legacy? (t : SyntaxTree) : Option Fault :=
  match t.kind with
  | "print_statement" => some .printStatement
  | "exec_statement" => some .execStatement
  | "comparison_operator" => if t.hasChild "<>" then some .unreadable else none
  | "except_clause" => if t.hasChild "," then some .bareExceptionTypes else none
  | "integer" =>
      let literal := t.text.toList
      if endsLong literal then some .longInteger
      else if isPadded literal then some .leadingZeros
      else none
  | _ => none

/-- Where a script is illegal, and why. -/
structure Illegality where
  row : Nat
  fault : Fault

/-- The wording of an illegality; lines count from one. -/
def Illegality.message (i : Illegality) : String :=
  "SyntaxError line " ++ toString (i.row + 1) ++ ": " ++ i.fault.message

/-- The first illegal construct of a script. -/
def Parsed.illegality? (p : Parsed) : Option Illegality :=
  let nodes := p.tree.nodes
  if p.hasError then
    let bad := (nodes.find? fun n => n.isError || n.isMissing).getD p.tree
    some ⟨bad.row, if bad.isMissing then .missing bad.kind else .unreadable⟩
  else
    nodes.findSome? fun n => n.legacy?.map fun fault => ⟨n.row, fault⟩

end Vetting.Script
