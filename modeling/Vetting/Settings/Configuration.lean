import Vetting.Artifact.Kind
import Vetting.Decimal.Shortest
import Vetting.Files.Resolve
import Vetting.Json.Value
import Vetting.Score.Scale
import Vetting.Settings.Number
import Vetting.Toml.Document

/-! The configuration of the program, and in it the credit from which on artifacts of each kind are
accepted. Its layers are a file, the environment and the flags of the
command line; each may override fields of those before it, and the configuration is checked after
every layer. -/

namespace Vetting

/-- The thresholds of all kinds. -/
abbrev Thresholds (R : Type) := ArtifactKind → R

namespace Thresholds

/-- The threshold of a kind in hundredths, unless it is set. -/
def defaultHundredths : ArtifactKind → Nat
  | .aidl | .cpp | .selinux | .build => 70
  | .puml => 80
  | _ => 75

/-- The thresholds that hold unless they are set. -/
def default {R : Type} [Scale R] : Thresholds R :=
  fun kind => Scale.hundredths (defaultHundredths kind)

/-- Sets the threshold of a kind. -/
def set {R : Type} (thresholds : Thresholds R) (kind : ArtifactKind) (value : R) : Thresholds R :=
  fun other => if other = kind then value else thresholds other

/-- The first kind whose threshold is not a number between zero and one, and that threshold. -/
def firstInvalid? {R : Type} [Scale R] (thresholds : Thresholds R) : Option (ArtifactKind × R) :=
  (ArtifactKind.all.find? fun kind =>
    !(Scale.atMost (Scale.whole 0) (thresholds kind)
      && Scale.atMost (thresholds kind) (Scale.whole 1))).map
    fun kind => (kind, thresholds kind)

end Thresholds

/-- The configuration. -/
structure Configuration where
  /-- The most seconds that a run of a tool may take. -/
  toolTimeout : Nat
  /-- The number of artifacts that are validated at a time. -/
  maxConcurrency : Option Nat
  thresholds : Thresholds Float
  /-- Where the program that checks diagrams may be. -/
  jarPaths : List Path

/-- What is wrong with a configuration. -/
inductive ConfigurationFault where
  /-- The file cannot be read. -/
  | unreadable (fault : FileFault)
  /-- The file is no document of a configuration. -/
  | malformed
  | zeroTimeout
  | zeroConcurrency
  | threshold (kind : ArtifactKind) (value : Float)
  | notANumber (name written : String)
  deriving Repr

namespace ConfigurationFault

/-- How the messages on values start. -/
def invalid (message : String) : String :=
  "invalid configuration: " ++ message

/-- The wording of a fault. -/
def message : ConfigurationFault → String
  | unreadable fault => "io error: " ++ fault.message
  | malformed => "config parse error: TOML parse error"
  | zeroTimeout => invalid "tool_timeout_secs must be greater than zero"
  | zeroConcurrency => invalid "max_concurrency must be greater than zero"
  | threshold kind value =>
      invalid ("threshold for '" ++ kind.tag ++ "' must be within [0, 1], got " ++
        Decimal.text value)
  | notANumber name written => invalid (name ++ ": not a number: " ++ written)

/-- The wording of a fault with its cause, where it has one. -/
def trace : ConfigurationFault → String
  | unreadable fault => (unreadable fault).message ++ ": " ++ fault.message
  | fault => fault.message

end ConfigurationFault

/-- Values that a layer gives to fields. -/
structure Overrides where
  toolTimeout : Option Nat
  maxConcurrency : Option Nat
  deriving DecidableEq, Repr

namespace Configuration

/-- The most seconds that are ever waited for a tool. -/
def timeoutLimit : Nat := 60

/-- The name of the file that is read when none is named. -/
def defaultFile : String := "halgate.toml"

/-- The variable for the seconds that a tool may take. -/
def timeoutVariable : String := "HALGATE_TOOL_TIMEOUT_SECS"

/-- The variable for the number of artifacts that are validated at a time. -/
def concurrencyVariable : String := "HALGATE_MAX_CONCURRENCY"

/-- Where the program that checks diagrams may be, unless it is set. -/
def defaultJarPaths (home : Option Path) : List Path :=
  [Path.ofString "/usr/share/plantuml/plantuml.jar",
    Path.ofString "/usr/local/bin/plantuml.jar"] ++
    (home.map fun directory => directory.join (Path.bytesOf "plantuml.jar")).toList

/-- The configuration that holds unless something is set. -/
def default (home : Option Path) : Configuration where
  toolTimeout := timeoutLimit
  maxConcurrency := none
  thresholds := Thresholds.default
  jarPaths := defaultJarPaths home

/-- The seconds that are waited for a tool. -/
def effectiveTimeout (c : Configuration) : Nat :=
  min c.toolTimeout timeoutLimit

/-- What is wrong with a configuration. -/
def fault? (c : Configuration) : Option ConfigurationFault :=
  if c.toolTimeout = 0 then some .zeroTimeout
  else if c.maxConcurrency = some 0 then some .zeroConcurrency
  else c.thresholds.firstInvalid?.map fun (kind, value) => .threshold kind value

/-- Checks a configuration. -/
def check (c : Configuration) : Except ConfigurationFault Configuration :=
  match c.fault? with
  | some fault => .error fault
  | none => .ok c

/-- Reads thresholds; those that are missing keep their defaults. -/
def thresholdsOf? (doc : Json) : Option (Thresholds Float) := do
  let values ← Toml.record? (ArtifactKind.all.map ArtifactKind.tag) doc
  (ArtifactKind.all.zip values).foldlM (fun thresholds (kind, value) =>
    match value with
    | none => some thresholds
    | some value => value.number?.map fun x => thresholds.set kind x) Thresholds.default

/-- Reads the document of a configuration; fields that are missing keep their defaults. -/
def ofJson? (home : Option Path) (doc : Json) : Option Configuration := do
  let [timeout, concurrency, thresholds, jars] ←
    Toml.record? ["tool_timeout_secs", "max_concurrency", "thresholds", "plantuml_jar_paths"] doc
    | none
  let start := default home
  return {
    toolTimeout := ← orElse timeout Json.nat? start.toolTimeout
    maxConcurrency := ← Json.optional? Json.nat? concurrency
    thresholds := ← orElse thresholds thresholdsOf? start.thresholds
    jarPaths := ← orElse jars (fun list => list.strings?.map fun l => l.map Path.ofString)
      start.jarPaths }
where
  /-- The value of a field, or its default when it is missing. -/
  orElse {α : Type} (value : Option Json) (decode : Json → Option α) (fallback : α) : Option α :=
    match value with
    | none => some fallback
    | some doc => decode doc

/-- Reads the text of a configuration and checks it. -/
def ofText (home : Option Path) (text : List Char) : Except ConfigurationFault Configuration :=
  match (Toml.parse? text).bind (ofJson? home) with
  | some c => c.check
  | none => .error .malformed

/-- Overrides the fields to which a layer gives values. -/
def override (c : Configuration) (layer : Overrides) : Configuration :=
  { c with
    toolTimeout := layer.toolTimeout.getD c.toolTimeout
    maxConcurrency := (layer.maxConcurrency.map some).getD c.maxConcurrency }

/-- The value that a variable gives to a field. -/
def ofVariable (environment : String → Option String) (name : String) :
    Except ConfigurationFault (Option Nat) :=
  match environment name with
  | none => .ok none
  | some written =>
      match WholeNumber.read (Text.trimString written).toList with
      | .ok n => .ok (some n)
      | .error _ => .error (.notANumber name written)

/-- The layer of the environment. -/
def overridesOf (environment : String → Option String) :
    Except ConfigurationFault Overrides := do
  return ⟨← ofVariable environment timeoutVariable, ← ofVariable environment concurrencyVariable⟩

/-- The layer of the file: one that is named, else the default one where it is a file. -/
def ofFile (tree : FileTree) (home : Option Path) (path : Option Path) :
    Except ConfigurationFault Configuration :=
  let read (path : Path) := do
    ofText home (← (tree.readText path).mapError .unreadable)
  match path with
  | some path => read path
  | none =>
      let path := Path.ofString defaultFile
      if tree.isFile path then read path else .ok (default home)

/-- The configuration of the file and the environment. -/
def load (tree : FileTree) (home : Option Path) (path : Option Path)
    (environment : String → Option String) : Except ConfigurationFault Configuration := do
  let c ← ofFile tree home path
  (c.override (← overridesOf environment)).check

end Configuration

end Vetting
