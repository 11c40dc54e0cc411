import Vetting.Host.ShellWord
import Vetting.Validation.Execution

/-! Scripts of a small shell language: instructions one after another, some of which depend on how
the one before them ended. They print, and they end with a status. -/

namespace Vetting.Shell

/-- Where a stream goes. -/
inductive Sink where
  | output
  | errors
  | nowhere
  deriving DecidableEq, Repr

/-- An instruction of a script. -/
structure Instruction where
  condition : Condition
  words : List Word
  output : Sink
  errors : Sink
  line : Nat
  deriving DecidableEq, Repr

namespace Instruction

/-- An instruction without words. -/
def empty (condition : Condition) (line : Nat) : Instruction :=
  ⟨condition, [], .output, .errors, line⟩

/-- The sink of a stream. -/
def sink (i : Instruction) (stream : Char) : Sink :=
  if stream == '1' then i.output else if stream == '2' then i.errors else .nowhere

/-- An instruction with another sink for a stream. -/
def withSink (i : Instruction) (stream : Char) (sink : Sink) : Instruction :=
  if stream == '1' then { i with output := sink }
  else if stream == '2' then { i with errors := sink } else i

/-- Groups tokens into instructions. -/
def group (current : Instruction) : List Token → List Instruction
  | [] => [current]
  | .word word :: rest => group { current with words := current.words ++ [word] } rest
  | .next condition :: rest => current :: group (empty condition current.line) rest
  | .lineEnd :: rest =>
      if current.words.isEmpty then group { current with line := current.line + 1 } rest
      else current :: group (empty .always (current.line + 1)) rest
  | .joinStreams source target :: rest =>
      group (current.withSink source (current.sink target)) rest
  | .toFile source :: .word _ :: rest => group (current.withSink source .nowhere) rest
  | .toFile source :: rest => group (current.withSink source .nowhere) rest
  | .other c :: rest => group { current with words := current.words ++ [[.text c]] } rest

end Instruction

/-- The instructions of a script. -/
def instructions (script : List Char) : List Instruction :=
  (Instruction.group (.empty .always 1) (tokens (script.length + 1) script)).filter fun i =>
    !i.words.isEmpty

/-- What a script is given. -/
structure Call where
  /-- The name by which it is called. -/
  name : String
  arguments : List String
  environment : String → Option String

/-- What a script has done so far. -/
structure Progress where
  stdout : List Char
  stderr : List Char
  /-- How the last instruction ended. -/
  status : UInt8
  /-- Milliseconds that have passed. -/
  elapsed : Nat
  /-- Values that have been set. -/
  values : List (String × String)

/-- How a script ends: by itself or by a signal. -/
inductive Ending where
  | exit (status : UInt8)
  | signal

/-- The number by which a script calls itself. -/
def ownNumber : String := "1"

/-- The value of a name. -/
def Call.value (call : Call) (progress : Progress) (name : List Char) : String :=
  match name with
  | ['$'] => ownNumber
  | ['?'] => toString progress.status
  | ['#'] => toString call.arguments.length
  | ['@'] | ['*'] => Text.joinWith " " call.arguments
  | ['0'] => call.name
  | [c] =>
      if c.isDigit then (call.arguments[c.toNat - '1'.toNat]?).getD ""
      else named (String.ofList name)
  | name => named (String.ofList name)
where
  /-- The value of a variable. -/
  named (name : String) : String :=
    ((progress.values.lookup name).or (call.environment name)).getD ""

/-- What a word says. -/
def Call.expand (call : Call) (progress : Progress) (word : Word) : String :=
  String.join (word.map fun piece =>
    match piece with
    | .text c => c.toString
    | .value name => call.value progress name)

/-- The value of up to three octal digits, and the text behind them. -/
def octal : Nat → Nat → List Char → Nat × List Char
  | 0, value, rest => (value, rest)
  | _ + 1, value, [] => (value, [])
  | count + 1, value, c :: rest =>
      if '0' ≤ c && c ≤ '7' then octal count (value * 8 + (c.toNat - '0'.toNat)) rest
      else (value, c :: rest)

/-- The character that a letter behind a backslash stands for. -/
def escaped? (c : Char) : Option Char :=
  match c with
  | 'n' => some '\n'
  | 't' => some '\t'
  | 'r' => some '\r'
  | '\\' => some '\\'
  | 'a' => some '\x07'
  | 'b' => some '\x08'
  | 'f' => some '\x0c'
  | 'v' => some '\x0b'
  | _ => none

/-- A text with its escapes replaced, and whether it goes on behind them. -/
def unescape : Nat → List Char → List Char × Bool
  | 0, text => (text, true)
  | _ + 1, [] => ([], true)
  | _ + 1, '\\' :: 'c' :: _ => ([], false)
  | fuel + 1, '\\' :: '0' :: rest =>
      let (code, behind) := octal 3 0 rest
      let (tail, goesOn) := unescape fuel behind
      (Char.ofNat (code % 256) :: tail, goesOn)
  | fuel + 1, '\\' :: c :: rest =>
      let (tail, goesOn) := unescape fuel rest
      ((match escaped? c with
        | some d => d :: tail
        | none => '\\' :: c :: tail), goesOn)
  | fuel + 1, c :: rest =>
      let (tail, goesOn) := unescape fuel rest
      (c :: tail, goesOn)

/-- What the words of a line print. -/
def echo (words : List String) : List Char :=
  let (words, ending) := match words with
    | "-n" :: rest => (rest, [])
    | words => (words, ['\n'])
  let text := (Text.joinWith " " words).toList
  let (shown, goesOn) := unescape (text.length + 1) text
  if goesOn then shown ++ ending else shown

/-- What a format prints once, and the words that are left. -/
def fill : Nat → List Char → List String → List Char × List String
  | 0, _, words => ([], words)
  | _ + 1, [], words => ([], words)
  | fuel + 1, '%' :: '%' :: rest, words =>
      let (tail, left) := fill fuel rest words
      ('%' :: tail, left)
  | fuel + 1, '%' :: _ :: rest, words =>
      let (tail, left) := fill fuel rest (words.drop 1)
      ((words.head?.getD "").toList ++ tail, left)
  | fuel + 1, c :: rest, words =>
      let (tail, left) := fill fuel rest words
      (c :: tail, left)

/-- What a format prints for all words. -/
def format : Nat → List Char → List String → List Char
  | 0, _, _ => []
  | rounds + 1, text, words =>
      let (shown, left) := fill (text.length + 1) text words
      if left.isEmpty || left.length == words.length then shown
      else shown ++ format rounds text left

/-- Prints to a sink. -/
def Progress.print (progress : Progress) (sink : Sink) (text : List Char) : Progress :=
  match sink with
  | .output => { progress with stdout := progress.stdout ++ text }
  | .errors => { progress with stderr := progress.stderr ++ text }
  | .nowhere => progress

/-- A number of decimal digits. -/
def number? (text : String) : Option Nat :=
  if text.isEmpty || !text.toList.all Char.isDigit then none
  else some (text.toList.foldl (fun n d => n * 10 + (d.toNat - '0'.toNat)) 0)

/-- The name and the value that a word sets. -/
def assignment? (word : String) : Option (String × String) :=
  match Text.splitOnce? ['='] word.toList with
  | some (name, value) =>
      if !name.isEmpty && name.all (fun c => c.isAlphanum || c == '_')
          && !(name.head?.map Char.isDigit).getD false then
        some (String.ofList name, String.ofList value)
      else none
  | none => none

/-- Directories in which a program that waits is found. -/
def systemDirectories : List String := ["/bin", "/usr/bin"]

/-- Whether a name calls the program that waits. -/
def Call.canSleep (call : Call) (name : String) : Bool :=
  if name == "sleep" then
    (Text.splitChar ':' ((call.environment "PATH").getD "").toList).any fun directory =>
      systemDirectories.contains (String.ofList directory)
  else systemDirectories.any fun directory => name == directory ++ "/sleep"

/-- Waits for so many seconds as a word says. -/
def Progress.wait (progress : Progress) (words : List String) : Progress :=
  { progress with elapsed := progress.elapsed + 1000 * (words.head?.bind number?).getD 0 }

/-- Does what the words of an instruction say. -/
def Call.perform (call : Call) (i : Instruction) (progress : Progress) :
    List String → Progress × Option Ending
  | [] => (progress, none)
  | name :: words =>
      let ok := { progress with status := 0 }
      let complain (message : String) (status : UInt8) : Progress :=
        { progress with status := status }.print i.errors
          (call.name ++ ": " ++ toString i.line ++ ": " ++ message ++ "\n").toList
      match name with
      | "echo" => (ok.print i.output (echo words), none)
      | "printf" =>
          match words with
          | [] => (complain "printf: usage: printf format [arg ...]" 2, none)
          | text :: words =>
              let text := (unescape (text.length + 1) text.toList).1
              (ok.print i.output (format (words.length + 1) text words), none)
      | ":" | "true" | "set" | "export" | "umask" | "trap" => (ok, none)
      | "false" => ({ progress with status := 1 }, none)
      | "exit" =>
          match words with
          | [] => (progress, some (.exit progress.status))
          | word :: _ =>
              match number? word with
              | some n => (progress, some (.exit (n % 256).toUInt8))
              | none => (complain ("exit: Illegal number: " ++ word) 2, some (.exit 2))
      | "exec" =>
          match words with
          | [] => (ok, none)
          | name :: words =>
              if call.canSleep name then (ok.wait words, some (.exit 0))
              else (complain ("exec: " ++ name ++ ": not found") 127, some (.exit 127))
      | "kill" => if words.getLast? == some ownNumber then (progress, some .signal) else (ok, none)
      | name =>
          match assignment? name, words with
          | some entry, [] => ({ ok with values := entry :: ok.values }, none)
          | _, _ =>
              if call.canSleep name then (ok.wait words, none)
              else (complain (name ++ ": not found") 127, none)

/-- Whether an instruction is carried out. -/
def Condition.holds (condition : Condition) (status : UInt8) : Bool :=
  match condition with
  | always => true
  | afterSuccess => status == 0
  | afterFailure => status != 0

/-- Carries out instructions one after another. -/
def Call.runAll (call : Call) : List Instruction → Progress → Progress × Option Ending
  | [], progress => (progress, none)
  | i :: rest, progress =>
      if i.condition.holds progress.status then
        match call.perform i progress (i.words.map (call.expand progress)) with
        | (after, some ending) => (after, some ending)
        | (after, none) => call.runAll rest after
      else call.runAll rest progress

/-- Runs a script. -/
def Call.run (call : Call) (script : List Char) : Execution :=
  let (progress, ending) := call.runAll (instructions script) ⟨[], [], 0, 0, []⟩
  let status : Option UInt8 := match ending with
    | none => some progress.status
    | some (.exit status) => some status
    | some .signal => none
  .ended status (Text.encode progress.stdout) (Text.encode progress.stderr) progress.elapsed

end Vetting.Shell
