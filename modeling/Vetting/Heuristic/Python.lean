import Vetting.Heuristic.Assessment
import Vetting.Script.Facts
import Vetting.Text.Letters

/-! Python scripts: a legal script has some credit, and more for what its kind calls for. A script
that is not legal is refused with its first illegal construct. -/

namespace Vetting.Script

open Vetting.Text

/-- The label of the check for a kind. -/
def toolLabel (kind : ArtifactKind) : String :=
  "tree-sitter-python[" ++ kind.tag ++ "]"

/-- Whether a module with a word in its name is imported, in any letter case. -/
def Facts.importsLike (facts : Facts) (word : String) : Bool :=
  facts.imports.any fun name => has (lower name.toList) word

/-- Whether some decorator names a request method. -/
def Facts.hasRoute (facts : Facts) : Bool :=
  facts.decorators.any fun d => containsAny d.toList ["get", "post", "put", "delete"]

/-- What a server with a REST interface calls for. -/
def backendFindings (facts : Facts) : List Finding :=
  Finding.check (facts.importsLike "fastapi") 20 "Missing FastAPI import"
    ++ Finding.check (0 < facts.asyncFunctions) 20 "No async def endpoints found"
    ++ Finding.check facts.hasRoute 20 "No route decorator (@app.get/post) found"

/-- What data models call for. -/
def modelFindings (code : List Char) (facts : Facts) : List Finding :=
  Finding.check (facts.importsLike "pydantic" || has code "BaseModel") 20
      "Missing Pydantic import"
    ++ Finding.check (!facts.classes.isEmpty) 20 "No class definitions found"
    ++ Finding.check (0 < facts.annotated) 20 "No type-annotated fields found"

/-- What a simulator calls for. -/
def simulatorFindings (code : List Char) (facts : Facts) : List Finding :=
  Finding.bonus (!facts.classes.isEmpty) 15
    ++ Finding.check (0 < facts.asyncFunctions || facts.imports.contains "asyncio") 20
      "No asyncio usage; a simulator should be async"
    ++ Finding.check (["start", "stop", "run", "generate"].any facts.functions.contains) 20
      "Missing start()/stop()/run() method"
    ++ Finding.bonus (has code "random") 5

/-- What a kind calls for; kinds that are no scripts call for nothing but a legal script. -/
def findings (kind : ArtifactKind) (code : List Char) (facts : Facts) : List Finding :=
  match kind with
  | .backend => backendFindings facts
  | .backendModel => modelFindings code facts
  | .simulator => simulatorFindings code facts
  | _ => []

/-- Assesses a parsed script as an artifact of a kind. -/
def Parsed.assess (parsed : Parsed) (kind : ArtifactKind) (code : List Char) : Assessment :=
  match parsed.illegality? with
  | some illegality => .refused 10 illegality.message
  | none =>
      let facts := parsed.facts
      .graded (.credit 40 1 :: findings kind code facts)
        ("classes=" ++ toString facts.classes.length ++ ", async_fns="
          ++ toString facts.asyncFunctions)

/-- Assesses a script as an artifact of a kind. -/
def assess (kind : ArtifactKind) (code : List Char) : Assessment :=
  match parse? code with
  | none => .refused 0 "parser produced no tree"
  | some parsed => parsed.assess kind code

end Vetting.Script
