import Vetting.Files.Resolve
import Vetting.Host.ShellScript

/-! Starting a file of a tree as a program. A file is started by its first line, which names a
shell; nothing else can be run here. -/

namespace Vetting.FileTree

/-- The shells that a host has. -/
def shells : List String :=
  ["/bin/sh", "/usr/bin/sh", "/bin/dash", "/usr/bin/dash", "/bin/bash", "/usr/bin/bash"]

/-- The program that the first line of a script names. -/
def interpreter? (text : List Char) : Option String :=
  match text with
  | '#' :: '!' :: rest =>
      let blank (c : Char) := c == ' ' || c == '\t'
      let line := (rest.takeWhile (· != '\n')).dropWhile blank
      if line.isEmpty then none else some (String.ofList (line.takeWhile fun c => !blank c))
  | _ => none

/-- Starts a file of a tree. -/
def start (tree : FileTree) (environment : String → Option String) (path : String)
    (arguments : List String) : Execution :=
  match tree.lookup true (Path.ofString path) with
  | .error fault => .refused fault
  | .ok (_, entry) =>
      if !entry.isExecutable then .refused .denied
      else
        match entry with
        | .file content _ =>
            let text := Text.decodeLossy content
            match interpreter? text with
            | none => .refused .notProgram
            | some program =>
                if shells.contains program then
                  (Shell.Call.mk path arguments environment).run text
                else
                  match tree.lookup true (Path.ofString program) with
                  | .error fault => .refused fault
                  | .ok (_, found) =>
                      .refused (if found.isExecutable then .notProgram else .denied)
        | _ => .refused .denied

end Vetting.FileTree
