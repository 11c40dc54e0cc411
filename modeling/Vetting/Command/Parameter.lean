import Vetting.Artifact.Kind
import Vetting.Settings.Number

/-! What may be said on the command line: the commands, and the parameters that each of them has. A
parameter that is given as an option has a long name, and some have a letter as well. -/

namespace Vetting

/-- Something that may be said besides the name of a command. -/
inductive Parameter where
  | help
  | version
  | verbose
  | json
  | config
  | toolTimeout
  | maxConcurrency
  | kind
  | file
  | expect
  | properties
  | draftRoot
  | outputRoot
  | rules
  deriving DecidableEq, Repr

/-- What the value of a parameter has to be. -/
inductive ValueSort where
  | text
  /-- A path, which is not empty. -/
  | path
  | number
  | kind
  deriving DecidableEq, Repr

/-- How a parameter is given. -/
inductive ParameterForm where
  /-- Its name says it all. -/
  | flag (name : String)
  /-- A value follows its name. -/
  | named (name value : String) (sort : ValueSort)
  /-- It has no name but its place. -/
  | operand (value : String) (sort : ValueSort)
  deriving DecidableEq, Repr

namespace Parameter

/-- How a parameter is given. -/
def form : Parameter → ParameterForm
  | help => .flag "help"
  | version => .flag "version"
  | verbose => .flag "verbose"
  | json => .flag "json"
  | config => .named "config" "CONFIG" .path
  | toolTimeout => .named "tool-timeout-secs" "TOOL_TIMEOUT_SECS" .number
  | maxConcurrency => .named "max-concurrency" "MAX_CONCURRENCY" .number
  | kind => .named "type" "ARTIFACT_TYPE" .kind
  | file => .operand "FILE" .path
  | expect => .named "expect" "NAME" .text
  | properties => .named "properties" "PROPERTIES" .path
  | draftRoot => .named "draft-root" "DRAFT_ROOT" .path
  | outputRoot => .named "output-root" "OUTPUT_ROOT" .path
  | rules => .named "rules" "RULES" .path

/-- The letter of a parameter. -/
def letter? : Parameter → Option Char
  | help => some 'h'
  | version => some 'V'
  | verbose => some 'v'
  | kind => some 't'
  | _ => none

/-- The long name of a parameter. -/
def name? (parameter : Parameter) : Option String :=
  match parameter.form with
  | .flag name => some name
  | .named name _ _ => some name
  | .operand _ _ => none

/-- The parameters that may be given more than once. -/
def repeats : Parameter → Bool
  | verbose | expect => true
  | _ => false

/-- The variable that gives a value to a parameter that is not on the command line. -/
def setting? : Parameter → Option String
  | config => some "HALGATE_CONFIG"
  | draftRoot => some "DRAFT_ROOT"
  | _ => none

/-- How messages show a parameter. -/
def shown (parameter : Parameter) : String :=
  match parameter.form with
  | .flag name => "--" ++ name ++ if parameter.repeats then "..." else ""
  | .named name value _ => "--" ++ name ++ " <" ++ value ++ ">"
  | .operand value _ => "<" ++ value ++ ">"

end Parameter

/-- The name of the program. -/
def programName : String := "halgate"

/-- A command, or none yet. -/
inductive CommandScope where
  | root
  | tools
  | validate
  | score
  | promote
  deriving DecidableEq, Repr

namespace CommandScope

/-- The commands and their names. -/
def commands : List (String × CommandScope) :=
  [("tools", tools), ("validate", validate), ("score", score), ("promote", promote)]

/-- The parameters that may be given before a command and behind it. -/
def common : List Parameter :=
  [.verbose, .json, .config, .toolTimeout, .maxConcurrency]

/-- The parameters that only one command has. -/
def own : CommandScope → List Parameter
  | root | tools => []
  | validate => [.kind, .file]
  | score => [.kind, .file, .expect, .properties]
  | promote => [.draftRoot, .outputRoot, .rules]

/-- The parameters that may be given in a scope. -/
def parameters (scope : CommandScope) : List Parameter :=
  scope.own ++ common ++ [.help] ++ if scope = root then [.version] else []

/-- The parameters that have to be given. -/
def required : CommandScope → List Parameter
  | validate | score => [.kind, .file]
  | _ => []

/-- The parameter with a long name. -/
def named? (scope : CommandScope) (name : String) : Option Parameter :=
  scope.parameters.find? fun parameter => parameter.name? == some name

/-- The parameter with a letter. -/
def lettered? (scope : CommandScope) (letter : Char) : Option Parameter :=
  scope.parameters.find? fun parameter => parameter.letter? == some letter

/-- The parameter that is given by its place. -/
def operand? (scope : CommandScope) : Option Parameter :=
  scope.parameters.find? fun parameter => parameter.name?.isNone

end CommandScope

end Vetting
