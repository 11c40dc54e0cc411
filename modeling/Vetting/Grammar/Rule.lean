/-! Grammar rules. A rule describes the sequences of tokens that a construct may consist of, with
precedences that decide between two readings, new names that rename a part in the tree, and labels
that tell the parts of a construct apart. -/

namespace Vetting.Grammar

/-- Which of two equal operators binds first. -/
inductive Assoc where
  | left
  | right
  deriving DecidableEq, Repr, Hashable

/-- What a construct may consist of. -/
inductive Rule where
  | blank
  | token (name : String)
  | ref (name : String)
  | seq (parts : List Rule)
  | choice (options : List Rule)
  | many1 (body : Rule)
  | prec (level : Int) (assoc : Option Assoc) (body : Rule)
  | dynamic (level : Int) (body : Rule)
  | renamed (name : String) (body : Rule)
  | label (name : String) (body : Rule)
  deriving Inhabited

namespace Rule

/-- A rule that may be left out. -/
def optional (body : Rule) : Rule :=
  .choice [body, .blank]

/-- Any number of repetitions. -/
def many (body : Rule) : Rule :=
  .choice [.many1 body, .blank]

/-- Repetitions with a separator between them. -/
def sepBy1 (sep : String) (body : Rule) : Rule :=
  .seq [body, many (.seq [.token sep, body])]

/-- Repetitions with commas between them. -/
def commaSep1 (body : Rule) : Rule :=
  sepBy1 "," body

mutual

/-- A text that is the same for two rules only when they are the same rule. -/
def key : Rule → String
  | .blank => "_"
  | .token name => "'" ++ name ++ "'"
  | .ref name => name
  | .seq parts => "(" ++ keys parts ++ ")"
  | .choice options => "[" ++ keys options ++ "]"
  | .many1 body => "+" ++ body.key
  | .prec level assoc body =>
      "^" ++ toString level ++
        (match assoc with | none => "." | some .left => "<" | some .right => ">") ++ body.key
  | .dynamic level body => "~" ++ toString level ++ "." ++ body.key
  | .renamed name body => "@" ++ name ++ "." ++ body.key
  | .label name body => "#" ++ name ++ "." ++ body.key

/-- The keys of several rules. -/
def keys : List Rule → String
  | [] => ""
  | rule :: rest => rule.key ++ " " ++ keys rest

end

mutual

/-- The rules without choices that a rule stands for, in the order of its choices. -/
def alternatives : Rule → List Rule
  | .seq parts => (sequences parts).map .seq
  | .choice options => alternativesOf options
  | .prec level assoc body => body.alternatives.map (.prec level assoc)
  | .dynamic level body => body.alternatives.map (.dynamic level)
  | .renamed name body => body.alternatives.map (.renamed name)
  | .label name body => body.alternatives.map (.label name)
  | rule => [rule]

/-- The alternatives of several options. -/
def alternativesOf : List Rule → List Rule
  | [] => []
  | option :: rest => option.alternatives ++ alternativesOf rest

/-- The sequences of alternatives of the parts. -/
def sequences : List Rule → List (List Rule)
  | [] => [[]]
  | part :: rest =>
      let tails := sequences rest
      part.alternatives.flatMap fun head => tails.map (head :: ·)

end

end Rule

/-- A grammar: its rules, the first of which describes a whole document, and what is special about
some of their names. Rules in `inlined` are replaced by what they stand for; rules in `hidden`
leave no node of their own; tokens in `extras` may stand anywhere, and tokens in `layout` are
numbered after all others. -/
structure RuleBook where
  rules : List (String × Rule)
  inlined : List String
  hidden : List String
  layout : List String
  extras : List String
  deriving Inhabited

end Vetting.Grammar
