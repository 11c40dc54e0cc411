import Vetting.Validation.Execution

/-! Rehearsing validations with commands of known behaviour in the place of tools. -/

namespace Vetting

/-- A command that stands in for a tool. -/
structure StandIn where
  stdout : Bytes
  stderr : Bytes
  /-- Whether the source that is checked is put out as errors too. -/
  echoesSource : Bool
  /-- The exit status, none when a signal ends the command. -/
  status : Option UInt8
  /-- The milliseconds that it takes. -/
  elapsed : Nat
  deriving DecidableEq, Repr

/-- What stands in the place of a tool. -/
inductive Installation where
  | standIn (command : StandIn)
  | notExecutable
  /-- The tool is thought to be where nothing is. -/
  | missing
  deriving DecidableEq, Repr

namespace Installation

/-- Where a tool is thought to be. -/
def path (tool : Tool) : Installation → String
  | missing => "/nonexistent/" ++ tool.name
  | _ => "tools/" ++ tool.name

/-- Runs what stands in the place of a tool on a source. -/
def execute (source : List Char) : Installation → Execution
  | missing => .refused .missing
  | notExecutable => .refused .denied
  | standIn command =>
      .ended command.status command.stdout
        (command.stderr ++ if command.echoesSource then Text.encode source else [])
        command.elapsed

end Installation

/-- A host on which validations are rehearsed. -/
structure Rehearsal where
  installed : Tool → Option Installation
  /-- The limit of a run in milliseconds. -/
  limit : Nat
  /-- Whether sources can be written. -/
  hasScratch : Bool

namespace Rehearsal

/-- Where the tools are thought to be. -/
def tools (rehearsal : Rehearsal) : Toolbox :=
  fun tool => (rehearsal.installed tool).map (Installation.path tool)

/-- What stands at a path. -/
def installation? (rehearsal : Rehearsal) (path : String) : Option Installation :=
  (Tool.all.find? fun tool => rehearsal.tools tool == some path).bind rehearsal.installed

/-- What becomes of a run of a program on a source. -/
def run (rehearsal : Rehearsal) (program : Program) (source : List Char) : ToolOutcome :=
  if rehearsal.hasScratch then
    (((rehearsal.installation? program.path).map (Installation.execute source)).getD
      (.refused .missing)).outcome (min rehearsal.limit Execution.longestLimit) program
  else .noSource FileFault.missing.message

/-- The validator of a rehearsal. -/
def validator {R : Type} [Scale R] (rehearsal : Rehearsal) (thresholds : ArtifactKind → R) :
    Validator R :=
  { Validator.withoutTools thresholds with
    tools := rehearsal.tools
    run := fun _ program source => rehearsal.run program source }

end Rehearsal

end Vetting
