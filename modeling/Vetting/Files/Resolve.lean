import Vetting.Files.Fault
import Vetting.Files.Tree

/-! The places to which paths lead. Links on the way are followed, as is one at the end where that
is asked for; the last name of a path need not stand there yet. -/

namespace Vetting.FileTree

/-- The most links that are followed along a path. -/
def linkLimit : Nat := 40

/-- The longest name. -/
def nameLimit : Nat := 255

/-- The length from which on a path is too long. -/
def pathLimit : Nat := 4096

/-- Walks from a place along names. Where the way turns off at a link, the rest of it is walked by
`beyond`. -/
def walkTo (tree : FileTree) (follow : Bool) (beyond : Place → List Bytes → Except FileFault Place)
    (place : Place) : List Bytes → Except FileFault Place
  | [] => .ok place
  | name :: rest =>
      match tree.get? place with
      | none => .error .missing
      | some (.directory _) =>
          if nameLimit < name.length then .error .nameTooLong
          else
            match tree.get? (step place name) with
            | some (.link target) =>
                if rest.isEmpty && !follow then .ok (step place name)
                else beyond (target.start place) (target.names ++ rest)
            | some _ => walkTo tree follow beyond (step place name) rest
            | none => if rest.isEmpty then .ok (step place name) else .error .missing
      | some _ => .error .notDirectory

/-- Walks from a place along names, with a number of links that may still be followed. -/
def walk (tree : FileTree) (follow : Bool) : Nat → Place → List Bytes → Except FileFault Place
  | 0 => tree.walkTo follow fun _ _ => .error .tooManyLinks
  | links + 1 => tree.walkTo follow (tree.walk follow links)

/-- The place to which a path leads. -/
def resolve (tree : FileTree) (follow : Bool) (path : Path) : Except FileFault Place :=
  if path.bytes.contains 0 then .error .zeroByte
  else if path.isEmpty then .error .missing
  else if pathLimit ≤ path.bytes.length then .error .nameTooLong
  else tree.walk follow linkLimit (path.start tree.here) path.names

/-- What stands where a path leads. -/
def lookup (tree : FileTree) (follow : Bool) (path : Path) : Except FileFault (Place × Entry) := do
  let place ← tree.resolve follow path
  match tree.get? place with
  | some entry => return (place, entry)
  | none => throw .missing

/-- Whether a path leads to a directory. -/
def isDirectory (tree : FileTree) (path : Path) : Bool :=
  match tree.lookup true path with
  | .ok (_, entry) => entry.isDirectory
  | .error _ => false

/-- Whether a path leads to a regular file. -/
def isFile (tree : FileTree) (path : Path) : Bool :=
  match tree.lookup true path with
  | .ok (_, entry) => entry.isFile
  | .error _ => false

/-- Whether something stands where a path leads, be it a link. -/
def exists? (tree : FileTree) (path : Path) : Bool :=
  match tree.lookup false path with
  | .ok _ => true
  | .error _ => false

/-- The bytes of a file. -/
def readFile (tree : FileTree) (path : Path) : Except FileFault Bytes := do
  match ← tree.lookup true path with
  | (_, .file content _) => return content
  | (_, .directory _) => throw .isDirectory
  | _ => throw .noDevice

/-- The text of a file. -/
def readText (tree : FileTree) (path : Path) : Except FileFault (List Char) := do
  match Text.decode? (← tree.readFile path) with
  | some text => return text
  | none => throw .notText

end Vetting.FileTree
