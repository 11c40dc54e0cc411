import Std.Time.DateTime.Timestamp
import Vetting.Command.Run
import Vetting.Files.Edit

/-! The program on a host. The files from which it reads are taken into a tree first; what it does to
files is then done operation by operation. It starts no other programs, so no tools are found. -/

namespace Vetting.Host

/-- The fault that an error of the host stands for. -/
def faultOf : IO.Error → FileFault
  | .noFileOrDirectory _ _ _ => .missing
  | .alreadyExists _ _ _ => .occupied
  | .permissionDenied _ _ _ => .denied
  | .unsatisfiedConstraints _ _ => .notEmpty
  | .inappropriateType _ _ _ => .notDirectory
  | _ => .invalid

/-- Tries something. -/
def attempt {α : Type} (action : IO α) : IO (Except FileFault α) := do
  try
    return .ok (← action)
  catch fault =>
    return .error (faultOf fault)

/-- Tries names that start with some bytes until one of them is free. -/
def withFreshName (directory : Path) (start : Bytes) (make : String → IO Unit) :
    Nat → IO (Except FileFault Path)
  | 0 => return .error .occupied
  | count + 1 => do
      let path := directory.join (start ++ Path.bytesOf (toString count))
      match ← attempt (make path.text) with
      | .ok () => return .ok path
      | .error .occupied => withFreshName directory start make count
      | .error fault => return .error fault

/-- The number of names that are tried. -/
def freshNames : Nat := 1000

/-- Writes a file that is not there yet. -/
def writeNew (path : String) (content : Bytes) : IO Unit := do
  let file ← IO.FS.Handle.mk path .writeNew
  file.write ⟨content.toArray⟩

/-- Performs an operation on the files of the host. -/
def perform : (op : Operation) → IO (Except FileFault op.Answer)
  | .createDirectories path => attempt (IO.FS.createDirAll path.text)
  | .createScratch directory start =>
      withFreshName directory start (fun path => IO.FS.createDir path) freshNames
  | .writeScratch directory start content =>
      withFreshName directory start (fun path => writeNew path content) freshNames
  | .find path => attempt do
      let _ ← (System.mkFilePath [path.text]).symlinkMetadata
  | .readFile path => attempt do return (← IO.FS.readBinFile path.text).toList
  | .copyFile source target => attempt do
      IO.FS.writeBinFile target.text (← IO.FS.readBinFile source.text)
  | .rename source target => attempt (IO.FS.rename source.text target.text)
  | .removeFile path => attempt (IO.FS.removeFile path.text)
  | .removeDirectory path => attempt (IO.FS.removeDirAll path.text)

/-- Runs a program on the files of the host. -/
def run {α : Type} : FileProgram α → IO α
  | .done value => return value
  | .perform op next => do run (next (← perform op))

/-- Takes what is at a path into a tree; what cannot be read is left out. -/
partial def take (tree : FileTree) (path : Path) (follow : Bool) : IO FileTree := do
  let file := System.mkFilePath [path.text]
  let edit (e : Edit) := match e.apply tree with
    | .ok next => next
    | .error _ => tree
  match ← attempt (if follow then file.metadata else file.symlinkMetadata) with
  | .error _ => return tree
  | .ok found =>
      match found.type with
      | .file =>
          match ← attempt (IO.FS.readBinFile file) with
          | .ok content => return edit (.write path content.toList none)
          | .error _ => return tree
      | .symlink => return edit (.makeLink path (Path.ofString "."))
      | .other => return edit (.makeSpecial path)
      | .dir =>
          match ← attempt file.readDir with
          | .ok entries =>
              entries.foldlM (fun tree entry =>
                take tree (path.join (Path.bytesOf entry.fileName)) false)
                (edit (.makeDirectory path none))
          | .error _ => return tree

/-- The time on the clock of the host. -/
def now : IO Timestamp := do
  let time := (← Std.Time.Timestamp.now).val
  return .ofClock time.second.val.toNat time.nano.val.toNat

/-- What surrounds the program when it is called with some words. -/
def surroundings (words : List String) : IO Surroundings := do
  let values ← Surroundings.variables.mapM fun name => do return (name, ← IO.getEnv name)
  let environment (name : String) : Option String := (values.lookup name).join
  let paths := match Invocation.ofWords environment words with
    | .ok invocation => invocation.reads
    | .error _ => []
  let tree ← paths.foldlM (fun tree path => take tree path true) FileTree.empty
  let input ← if paths.any Path.isInput then (← IO.getStdin).readBinToEnd else pure .empty
  return {
    tree, environment
    input := input.toList
    now := ← now
    execute := fun _ _ => .refused .missing }

end Vetting.Host

open Vetting

/-- Runs the program. -/
def main (words : List String) : IO UInt32 := do
  let response ← Host.run ((← Host.surroundings words).program words)
  (← IO.getStdout).putStr response.output
  (← IO.getStderr).putStr response.errors
  return response.status.code.toUInt32
