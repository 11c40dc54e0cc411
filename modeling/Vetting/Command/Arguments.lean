import Vetting.Command.Usage
import Vetting.Text.Search

/-! Reading the words of a command line. A parameter whose value is still to come, or has just come,
is open; it is settled, and then checked, when the next known parameter follows or the words end.
What is unknown is refused at once, even where something is open. -/

namespace Vetting

/-- What has been said in one scope. -/
structure Said where
  /-- The parameters that are settled, with their values. -/
  settled : List (Parameter × String)
  /-- A parameter that is open, with its value once that has come. -/
  opened : Option (Parameter × Option String)
  deriving DecidableEq, Repr

namespace Said

/-- Nothing has been said. -/
def nothing : Said := ⟨[], none⟩

/-- The first value that a parameter has been given. -/
def value? (said : Said) (parameter : Parameter) : Option String :=
  said.settled.lookup parameter

/-- All values that a parameter has been given. -/
def values (said : Said) (parameter : Parameter) : List String :=
  said.settled.filterMap fun entry => if entry.1 = parameter then some entry.2 else none

end Said

/-- What is wrong with the value of a parameter. -/
def Parameter.valueFault? (parameter : Parameter) (value : String) : Option UsageFault :=
  let sort : ValueSort := match parameter.form with
    | .flag _ => .text
    | .named _ _ sort => sort
    | .operand _ sort => sort
  match sort with
  | .text => none
  | .path => if value.isEmpty then some (.valueMissing parameter) else none
  | .number =>
      match WholeNumber.read value.toList with
      | .ok _ => none
      | .error fault => some (.valueInvalid parameter value (.number fault))
  | .kind =>
      match ArtifactKind.parse? value with
      | some _ => none
      | none => some (.valueInvalid parameter value .unknownKind)

namespace Said

/-- Adds a parameter with its value. -/
def add (said : Said) (parameter : Parameter) (value : String) : Except UsageFault Said :=
  if !parameter.repeats && (said.value? parameter).isSome then .error (.repeated parameter)
  else
    match parameter.valueFault? value with
    | some fault => .error fault
    | none => .ok { said with settled := said.settled ++ [(parameter, value)] }

/-- Settles the parameter that is open. -/
def settle (said : Said) : Except UsageFault Said :=
  match said.opened with
  | none => .ok said
  | some (parameter, none) => .error (.valueMissing parameter)
  | some (parameter, some value) => { said with opened := none }.add parameter value

/-- The parameter whose value is to come. -/
def awaits? (said : Said) : Option Parameter :=
  match said.opened with
  | some (parameter, none) => some parameter
  | _ => none

/-- Opens a parameter. -/
def start (said : Said) (parameter : Parameter) (value : Option String) :
    Except UsageFault Said := do
  return { ← said.settle with opened := some (parameter, value) }

/-- Adds a parameter with a value that is attached to its name. -/
def attach (said : Said) (parameter : Parameter) (value : String) : Except UsageFault Said := do
  (← said.settle).add parameter value

end Said

namespace CommandLine

/-- Turns what is wrong into the end of the reading. -/
def orStop {α : Type} (result : Except UsageFault α) : Except UsageStop α :=
  result.mapError .fault

/-- Takes a flag. -/
def takeFlag (scope : CommandScope) (said : Said) (parameter : Parameter) :
    Except UsageStop Said := do
  let settled ← orStop said.settle
  match parameter with
  | .help => throw (.help scope)
  | .version => throw .version
  | parameter => orStop (settled.add parameter "")

/-- Reads the letters behind a dash. -/
def readLetters (scope : CommandScope) : List Char → Said → Except UsageStop Said
  | [], said => .ok said
  | c :: rest, said =>
      match scope.lettered? c with
      | none => .error (.fault (.unexpectedArgument (String.ofList ['-', c])))
      | some parameter =>
          match parameter.form, rest with
          | .flag _, rest => do readLetters scope rest (← takeFlag scope said parameter)
          | _, [] => orStop (said.start parameter none)
          | _, '=' :: value => orStop (said.attach parameter (String.ofList value))
          | _, value => orStop (said.attach parameter (String.ofList value))

/-- Reads a long name, with the value that is attached to it. -/
def readName (scope : CommandScope) (said : Said) (name : String) (value : Option String) :
    Except UsageStop Said :=
  match scope.named? name with
  | none => .error (.fault (.unexpectedArgument ("--" ++ name)))
  | some parameter =>
      match parameter.form, value with
      | .flag _, none => takeFlag scope said parameter
      | .flag _, some value => .error (.fault (.valueUnwanted parameter value))
      | _, some value => orStop (said.attach parameter value)
      | _, none => orStop (said.start parameter none)

/-- The word that asks what may be said. -/
def helpWord : String := "help"

/-- Whether a word calls a command. -/
def isCommandWord (word : String) : Bool :=
  word == helpWord || (CommandScope.commands.lookup word).isSome

/-- Reads a word that is no option: the value of an open parameter, or what stands at a place. -/
def readPlain (scope : CommandScope) (said : Said) (afterDashes : Bool) (word : String) :
    Except UsageStop Said :=
  match said.awaits?, afterDashes with
  | some parameter, false => .ok { said with opened := some (parameter, some word) }
  | _, _ =>
      match scope.operand? with
      | some operand =>
          let taken := (said.value? operand).isSome
            || (said.opened.map Prod.fst) == some operand
          if taken then .error (.fault (.unexpectedArgument word))
          else orStop (said.start operand (some word))
      | none =>
          if scope = .root && !(afterDashes && isCommandWord word) then
            .error (.fault (.unknownCommand word))
          else .error (.fault (.unexpectedArgument word))

/-- Splits a word at its first equals sign. -/
def splitValue (word : List Char) : String × Option String :=
  match Text.splitOnce? ['='] word with
  | some (name, value) => (String.ofList name, some (String.ofList value))
  | none => (String.ofList word, none)

/-- Reads the words up to the name of a command, and gives the words behind it. -/
def readWords (scope : CommandScope) (afterDashes : Bool) :
    List String → Said → Except UsageStop (Said × Option (String × List String))
  | [], said => .ok (said, none)
  | word :: rest, said =>
      if afterDashes then do
        readWords scope true rest (← readPlain scope said true word)
      else if scope = .root && said.awaits?.isNone
          && isCommandWord word then
        .ok (said, some (word, rest))
      else
        match word.toList with
        | ['-', '-'] => readWords scope true rest said
        | '-' :: '-' :: name => do
            let (name, value) := splitValue name
            readWords scope false rest (← readName scope said name value)
        | '-' :: c :: letters => do
            readWords scope false rest (← readLetters scope (c :: letters) said)
        | _ => do readWords scope false rest (← readPlain scope said false word)

/-- The values that variables give to parameters which have not been given. -/
def settingsFault? (scope : CommandScope) (said : Said) (environment : String → Option String) :
    Option UsageFault :=
  scope.parameters.findSome? fun parameter =>
    if (said.value? parameter).isSome then none
    else
      match parameter.setting?.bind environment with
      | none => none
      | some value => parameter.valueFault? value

/-- Settles what is open when the words have ended, and checks the variables. -/
def close (scope : CommandScope) (said : Said) (environment : String → Option String) :
    Except UsageStop Said := do
  let said ← orStop said.settle
  match settingsFault? scope said environment with
  | some fault => throw (.fault fault)
  | none =>
      match scope.required.filter fun parameter => (said.value? parameter).isNone with
      | [] => return said
      | missing => throw (.fault (.parametersMissing missing))

/-- The end of the reading when it is asked what may be said, with a command or without one. -/
def readHelp (scope : CommandScope) : List String → UsageStop
  | [] => .help scope
  | word :: rest =>
      if scope ≠ .root then .fault (.unknownCommand word)
      else if word == helpWord then readHelp .root rest
      else
        match CommandScope.commands.lookup word with
        | some scope => readHelp scope rest
        | none => .fault (.unknownCommand word)

/-- What is said before a command and behind it. -/
structure Reading where
  before : Said
  scope : CommandScope
  behind : Said
  deriving DecidableEq, Repr

/-- Whether anything is said, or a variable gives a value. -/
def isSaid (said : Said) (environment : String → Option String) : Bool :=
  !said.settled.isEmpty || CommandScope.common.any fun parameter =>
    (parameter.setting?.bind environment).isSome

/-- Reads a command line. What is behind the command is checked before what is in front of it. -/
def read (environment : String → Option String) (words : List String) :
    Except UsageStop Reading := do
  match ← readWords .root false words .nothing with
  | (before, none) =>
      let before ← close .root before environment
      if isSaid before environment then throw (.fault .commandMissing) else throw .nothing
  | (before, some (word, rest)) =>
      match CommandScope.commands.lookup word with
      | none => throw (readHelp .root rest)
      | some scope =>
          let (behind, _) ← readWords scope false rest .nothing
          let behind ← close scope behind environment
          return ⟨← close .root before environment, scope, behind⟩

end CommandLine

end Vetting
