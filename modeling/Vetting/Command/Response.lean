import Vetting.Command.Usage
import Vetting.Validation.Availability

/-! What a command puts out. -/

namespace Vetting

/-- How a command ends. -/
inductive ExitStatus where
  | accepted
  | rejected
  /-- The command could not be carried out. -/
  | failed
  deriving DecidableEq, Repr

namespace ExitStatus

/-- The code of a status. -/
def code : ExitStatus → Nat
  | accepted => 0
  | rejected => 1
  | failed => 2

/-- The status that a judgement has. -/
def ofJudgement (ok : Bool) : ExitStatus :=
  if ok then accepted else rejected

end ExitStatus

/-- What a command puts out, and how it ends. -/
structure Response where
  status : ExitStatus
  output : String
  errors : String
  deriving DecidableEq, Repr

namespace Response

/-- The response to what cannot be carried out. -/
def failure (message : String) : Response :=
  ⟨.failed, "", "error: " ++ message ++ "\n"⟩

/-- The response to a command line that calls no command. -/
def ofStop : UsageStop → Response
  | .fault fault => failure fault.message
  | .help scope => ⟨.accepted, scope.helpText, ""⟩
  | .version => ⟨.accepted, programName ++ " " ++ programVersion ++ "\n", ""⟩
  | .nothing => ⟨.failed, "", CommandScope.root.helpText⟩

end Response

/-- A text that is filled up with spaces to a width. -/
def padded (width : Nat) (text : String) : String :=
  text ++ String.ofList (List.replicate (width - text.length) ' ')

namespace Availability

/-- A line of a table. -/
def line (kind tool status fallback : String) : String :=
  padded 16 kind ++ " " ++ padded 24 tool ++ " " ++ padded 10 status ++ " " ++ fallback ++ "\n"

/-- The line for a kind. -/
def row (a : Availability) : String :=
  line a.kind.tag a.tool (if a.available then "available" else "missing") (a.fallback.getD "-")

/-- The table of all kinds, and how many of those that a tool can check have one. -/
def table (report : List Availability) : String :=
  let native := report.filter fun a => a.fallback.isSome
  let available := native.filter fun a => a.available
  line "TYPE" "TOOL" "STATUS" "FALLBACK" ++ String.join (report.map row) ++ "\n"
    ++ toString available.length ++ "/" ++ toString native.length
    ++ " native validators available\n"

end Availability

end Vetting
