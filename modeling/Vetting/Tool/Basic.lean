/-! The tools of a host that can check artifacts, and what a run of one puts out. -/

namespace Vetting

/-- A tool that may be installed on a host. -/
inductive Tool where
  | clangPlusPlus
  | clang
  | checkpolicy
  | java
  | plantUmlJar
  | kotlinc
  deriving DecidableEq, Repr, Inhabited

namespace Tool

/-- All tools. -/
def all : List Tool :=
  [clangPlusPlus, clang, checkpolicy, java, plantUmlJar, kotlinc]

/-- The name under which a tool is looked for. -/
def name : Tool → String
  | clangPlusPlus => "clang++"
  | clang => "clang"
  | checkpolicy => "checkpolicy"
  | java => "java"
  | plantUmlJar => "plantuml.jar"
  | kotlinc => "kotlinc"

/-- The tool with a name. -/
def ofName? (name : String) : Option Tool :=
  all.find? fun tool => tool.name == name

theorem ofName?_name (tool : Tool) : ofName? tool.name = some tool := by
  cases tool <;> rfl

end Tool

/-- Where the tools of a host are, as far as they are there. -/
abbrev Toolbox := Tool → Option String

/-- A host without tools. -/
def Toolbox.none : Toolbox := fun _ => Option.none

/-- What is run: a program, and a second file that it needs. -/
structure Program where
  path : String
  extra : Option String
  deriving DecidableEq, Repr

/-- What a run put out; a run that was ended by a signal has exit code -1. -/
structure ToolOutput where
  exitCode : Int
  stdout : List Char
  stderr : List Char
  deriving DecidableEq, Repr

/-- Whether a run ended well. -/
def ToolOutput.succeeded (output : ToolOutput) : Bool :=
  output.exitCode == 0

/-- Standard output and then standard error. -/
def ToolOutput.combined (output : ToolOutput) : List Char :=
  output.stdout ++ output.stderr

end Vetting
