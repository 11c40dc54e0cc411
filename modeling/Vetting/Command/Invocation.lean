import Vetting.Command.Arguments
import Vetting.Files.Path
import Vetting.Settings.Configuration
import Vetting.Settings.LogLevel

/-! What the program is asked to do. What is said behind a command counts more than what is said in
front of it, and a variable counts only where nothing is said. -/

namespace Vetting

/-- A command with all that it is given. -/
inductive Command where
  /-- Tells which tools are there. -/
  | tools
  | validate (kind : ArtifactKind) (file : Path)
  | score (kind : ArtifactKind) (file : Path) (expected : List String) (listing : Option Path)
  | promote (draftRoot : Option Path) (outputRoot : Path) (rules : Option Path)
  deriving DecidableEq, Repr

/-- What the program is asked to do, and how. -/
structure Invocation where
  command : Command
  configuration : Option Path
  /-- The layer of the configuration that is given by flags. -/
  flags : Overrides
  logLevel : LogLevel
  /-- Whether what is logged is written as documents. -/
  jsonLog : Bool
  deriving DecidableEq, Repr

namespace CommandLine.Reading

/-- The value that holds for a parameter. -/
def value? (r : Reading) (environment : String → Option String) (parameter : Parameter) :
    Option String :=
  ((r.behind.value? parameter).or (r.before.value? parameter)).or
    (parameter.setting?.bind environment)

/-- The number that holds for a parameter. -/
def number? (r : Reading) (environment : String → Option String) (parameter : Parameter) :
    Option Nat :=
  (r.value? environment parameter).bind fun value => (WholeNumber.read value.toList).toOption

/-- The path that holds for a parameter. -/
def path? (r : Reading) (environment : String → Option String) (parameter : Parameter) :
    Option Path :=
  (r.value? environment parameter).map Path.ofString

/-- How often a parameter is said where it is said last. -/
def count (r : Reading) (parameter : Parameter) : Nat :=
  match r.behind.values parameter with
  | [] => (r.before.values parameter).length
  | said => said.length

/-- The kind and the file of an artifact. -/
def artifact (r : Reading) (environment : String → Option String) :
    Except UsageFault (ArtifactKind × Path) :=
  match r.value? environment .kind, r.path? environment .file with
  | some tag, some file =>
      match ArtifactKind.parse? tag with
      | some kind => .ok (kind, file)
      | none => .error (.valueInvalid .kind tag .unknownKind)
  | none, some _ => .error (.parametersMissing [.kind])
  | some _, none => .error (.parametersMissing [.file])
  | none, none => .error (.parametersMissing [.kind, .file])

/-- The command that is called. -/
def command (r : Reading) (environment : String → Option String) : Except UsageFault Command :=
  match r.scope with
  | .root => .error .commandMissing
  | .tools => .ok .tools
  | .validate => do
      let (kind, file) ← r.artifact environment
      return .validate kind file
  | .score => do
      let (kind, file) ← r.artifact environment
      return .score kind file (r.behind.values .expect) (r.path? environment .properties)
  | .promote =>
      .ok (.promote (r.path? environment .draftRoot)
        ((r.path? environment .outputRoot).getD (Path.ofString "."))
        (r.path? environment .rules))

end CommandLine.Reading

/-- What a command line asks for. -/
def Invocation.ofWords (environment : String → Option String) (words : List String) :
    Except UsageStop Invocation := do
  let r ← CommandLine.read environment words
  return {
    command := ← CommandLine.orStop (r.command environment)
    configuration := r.path? environment .config
    flags := ⟨r.number? environment .toolTimeout, r.number? environment .maxConcurrency⟩
    logLevel := .ofVerbosity (r.count .verbose)
    jsonLog := r.count .json != 0 }

end Vetting
