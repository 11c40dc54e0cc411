import Vetting.Command.Parameter

/-! What is wrong with a command line. -/

namespace Vetting

/-- Why a value does not fit a parameter. -/
inductive ValueFault where
  | number (fault : NumberFault)
  /-- The value is the tag of no kind. -/
  | unknownKind
  deriving DecidableEq, Repr

/-- What is wrong with a command line. -/
inductive UsageFault where
  /-- Nothing with this name, or at this place, is known. -/
  | unexpectedArgument (word : String)
  | unknownCommand (word : String)
  /-- A parameter stands without the value that it needs. -/
  | valueMissing (parameter : Parameter)
  /-- A value is given to a flag. -/
  | valueUnwanted (parameter : Parameter) (value : String)
  | valueInvalid (parameter : Parameter) (value : String) (fault : ValueFault)
  | repeated (parameter : Parameter)
  | parametersMissing (parameters : List Parameter)
  | commandMissing
  deriving DecidableEq, Repr

/-- The wording of what is wrong with a value. -/
def ValueFault.message (value : String) : ValueFault → String
  | number fault => fault.message
  | unknownKind => ArtifactKind.unknownMessage value

/-- The wording of a fault. -/
def UsageFault.message : UsageFault → String
  | unexpectedArgument word => "unexpected argument '" ++ word ++ "' found"
  | unknownCommand word => "unrecognized subcommand '" ++ word ++ "'"
  | valueMissing parameter =>
      "a value is required for '" ++ parameter.shown ++ "' but none was supplied"
  | valueUnwanted parameter value =>
      "unexpected value '" ++ value ++ "' for '" ++ parameter.shown
        ++ "' found; no more were expected"
  | valueInvalid parameter value fault =>
      "invalid value '" ++ value ++ "' for '" ++ parameter.shown ++ "': " ++ fault.message value
  | repeated parameter =>
      "the argument '" ++ parameter.shown ++ "' cannot be used multiple times"
  | parametersMissing parameters =>
      "the following required arguments were not provided:" ++
        String.join (parameters.map fun parameter => "\n  " ++ parameter.shown)
  | commandMissing =>
      "'" ++ programName ++ "' requires a subcommand but one was not provided"

/-- What ends the reading of a command line before a command is run. -/
inductive UsageStop where
  | fault (fault : UsageFault)
  /-- It is asked what may be said. -/
  | help (scope : CommandScope)
  | version
  /-- Nothing is said at all. -/
  | nothing
  deriving DecidableEq, Repr

namespace CommandScope

/-- The words that call a command. -/
def calledBy (scope : CommandScope) : String :=
  match commands.find? fun entry => entry.2 = scope with
  | some (name, _) => programName ++ " " ++ name ++ " [OPTIONS]"
  | none => programName ++ " [OPTIONS] <COMMAND>"

/-- A line for each entry of a list, below a heading. -/
def paragraph (heading : String) (entries : List String) : String :=
  if entries.isEmpty then ""
  else "\n" ++ heading ++ ":\n" ++ String.join (entries.map fun entry => "  " ++ entry ++ "\n")

/-- What may be said in a scope. -/
def helpText (scope : CommandScope) : String :=
  let named := scope.parameters.filter fun parameter => parameter.name?.isSome
  let places := scope.parameters.filter fun parameter => parameter.name?.isNone
  "Usage: " ++ calledBy scope ++ "\n"
    ++ paragraph "Commands" (if scope = root then commands.map Prod.fst else [])
    ++ paragraph "Arguments" (places.map Parameter.shown)
    ++ paragraph "Options" (named.map Parameter.shown)

end CommandScope

end Vetting
