import Vetting.Digest.Sha256
import Vetting.Files.Resolve

/-! A line for everything below a directory: directories end with a slash, links show where they
lead, and files show the digests of their contents. -/

namespace Vetting.FileTree

/-- The line for an entry. -/
def manifestLine (path : String) : Entry → String
  | .directory _ => path ++ "/"
  | .link target => path ++ " -> " ++ target.text
  | .file content _ => path ++ " " ++ Sha256.hexDigest content
  | .special => path ++ " " ++ Sha256.hexDigest []

/-- The place below a directory to which names lead, as it is displayed. -/
def shownPlace (names : Place) : String :=
  Path.textOf ([Path.slash].intercalate names)

/-- The names that lead from a directory to a place strictly below it. -/
def relative? (directory place : Place) : Option Place :=
  if directory.isPrefixOf place && directory.length < place.length then
    some (place.drop directory.length)
  else none

/-- The sorted lines for what is below a directory, but for some names in it; a path that leads to
no directory has none. -/
def manifest (tree : FileTree) (root : Path) (omitted : List Bytes) : List String :=
  match tree.lookup true root with
  | .ok (directory, .directory _) =>
      (tree.entries.filterMap fun e =>
        match relative? directory e.1 with
        | none => none
        | some names =>
            if (names.head?.map omitted.contains).getD false then none
            else some (manifestLine (shownPlace names) e.2)).mergeSort fun a b => a ≤ b
  | _ => []

end Vetting.FileTree
