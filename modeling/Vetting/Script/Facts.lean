import Vetting.Script.Legality

/-! Facts about a legal script: its classes, functions, imports, decorators and annotated
assignments. Names form a set; the decorators keep their order. -/

namespace Vetting.Script

/-- What the checks need to know about a script. -/
structure Facts where
  classes : List String
  functions : List String
  asyncFunctions : Nat
  imports : List String
  decorators : List String
  annotated : Nat
  deriving DecidableEq, Repr

/-- Adds a name to a sorted list of different names. -/
def insertName (name : String) : List String → List String
  | [] => [name]
  | other :: rest =>
      if name < other then name :: other :: rest
      else if name = other then other :: rest
      else other :: insertName name rest

namespace Facts

/-- Nothing is known. -/
def none : Facts := ⟨[], [], 0, [], [], 0⟩

/-- The imported name: a name with an alias counts as the name. -/
def importedName (t : SyntaxTree) : String :=
  if t.kind == "aliased_import" then ((t.part? "name").getD t).text else t.text

/-- Adds what a node says. -/
def add (facts : Facts) (t : SyntaxTree) : Facts :=
  match t.kind with
  | "class_definition" =>
      match t.part? "name" with
      | some name => { facts with classes := insertName name.text facts.classes }
      | Option.none => facts
  | "function_definition" =>
      let facts := match t.part? "name" with
        | some name => { facts with functions := insertName name.text facts.functions }
        | Option.none => facts
      if (t.children.head?.map SyntaxTree.kind) == some "async" then
        { facts with asyncFunctions := facts.asyncFunctions + 1 }
      else facts
  | "import_statement" =>
      { facts with
        imports := (t.parts "name").foldl (fun names n => insertName (importedName n) names)
          facts.imports }
  | "import_from_statement" =>
      match t.part? "module_name" with
      | some name => { facts with imports := insertName name.text facts.imports }
      | Option.none => facts
  | "decorator" => { facts with decorators := facts.decorators ++ [t.text] }
  | "assignment" =>
      if (t.part? "type").isSome then { facts with annotated := facts.annotated + 1 } else facts
  | _ => facts

end Facts

/-- The facts of a script. -/
def Parsed.facts (p : Parsed) : Facts :=
  p.tree.nodes.foldl Facts.add Facts.none

end Vetting.Script
