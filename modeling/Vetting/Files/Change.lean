import Vetting.Files.Resolve

/-! Changes of a tree. A change that fails leaves the tree as it is, except that directories made
on the way to one that cannot be made remain. -/

namespace Vetting.FileTree

/-- Puts an entry where a path leads, if nothing stands there. -/
def create (tree : FileTree) (path : Path) (entry : Entry) : Except FileFault FileTree := do
  let place ← tree.resolve false path
  match tree.get? place with
  | some _ => throw .occupied
  | none => return tree.put place entry

/-- A path without the slashes at its end. -/
def closed (path : Path) : Path :=
  match path.bytes.reverse.dropWhile (· == Path.slash) with
  | [] => path
  | back => ⟨back.reverse⟩

/-- Makes a directory. -/
def createDirectory (tree : FileTree) (path : Path) : Except FileFault FileTree :=
  tree.create (closed path) (.directory Entry.directoryMode)

/-- Makes the first of some directories, each of which lies in the one after it, and those after it
that are missing. -/
def createChain (tree : FileTree) : List Path → Except FileFault Unit × FileTree
  | [] => (.error .noRoot, tree)
  | path :: outer =>
      if path.isEmpty then (.ok (), tree)
      else
        let settle (tree : FileTree) (fault : FileFault) :=
          if tree.isDirectory path then (.ok (), tree) else (.error fault, tree)
        match tree.createDirectory path with
        | .ok made => (.ok (), made)
        | .error .missing =>
            match createChain tree outer with
            | (.error fault, above) => (.error fault, above)
            | (.ok (), above) =>
                match above.createDirectory path with
                | .ok made => (.ok (), made)
                | .error fault => settle above fault
        | .error fault => settle tree fault

/-- Makes a directory and those above it that are missing. -/
def createDirectories (tree : FileTree) (path : Path) : Except FileFault Unit × FileTree :=
  tree.createChain path.ancestors

/-- Writes a file, which is made when it is missing. -/
def writeFile (tree : FileTree) (path : Path) (content : Bytes) : Except FileFault FileTree := do
  let place ← tree.resolve true path
  match tree.get? place with
  | some (.directory _) => throw .isDirectory
  | some (.file _ mode) => return tree.put place (.file content mode)
  | some _ => throw .noDevice
  | none => return tree.put place (.file content Entry.fileMode)

/-- Copies a file with its permissions. -/
def copyFile (tree : FileTree) (source target : Path) : Except FileFault FileTree := do
  match ← tree.lookup true source with
  | (_, .file content mode) =>
      let written ← tree.writeFile target content
      let place ← written.resolve true target
      return written.put place (.file content mode)
  | _ => throw .invalid

/-- Sets permissions. -/
def setMode (tree : FileTree) (path : Path) (mode : Nat) : Except FileFault FileTree := do
  let (place, entry) ← tree.lookup true path
  return tree.put place (entry.withMode mode)

/-- Removes an entry that is not a directory. -/
def removeFile (tree : FileTree) (path : Path) : Except FileFault FileTree := do
  match ← tree.lookup false path with
  | (_, .directory _) => throw .isDirectory
  | (place, _) => return tree.drop place

/-- Removes a directory and everything in it. -/
def removeDirectory (tree : FileTree) (path : Path) : Except FileFault FileTree := do
  match ← tree.lookup false path with
  | (place, .directory _) => return tree.drop place
  | _ => throw .notDirectory

/-- Removes whatever stands where a path leads. -/
def remove (tree : FileTree) (path : Path) : Except FileFault FileTree := do
  let (place, _) ← tree.lookup false path
  return tree.drop place

/-- Moves an entry, and what is in it, to another path. A file replaces what is no directory there,
and a directory an empty directory. -/
def rename (tree : FileTree) (source target : Path) : Except FileFault FileTree := do
  let (place, entry) ← tree.lookup false source
  let goal ← tree.resolve false target
  if place == goal then return tree
  if place.isPrefixOf goal then throw .invalid
  if goal.isPrefixOf place then throw .notEmpty
  match tree.get? goal with
  | none => return tree.move place goal
  | some old =>
      if entry.isDirectory && !old.isDirectory then throw .notDirectory
      if !entry.isDirectory && old.isDirectory then throw .isDirectory
      if !(tree.children goal).isEmpty then throw .notEmpty
      return (tree.drop goal).move place goal

/-- A name that starts with some bytes and occurs nowhere in a tree. -/
def freshName (tree : FileTree) (start : Bytes) : Bytes :=
  let name (n : Nat) := start ++ Path.bytesOf (toString n)
  match (List.range (tree.names.length + 1)).find? fun n => !tree.names.contains (name n) with
  | some n => name n
  | none => start

/-- Makes an empty directory with a fresh name in a directory, and tells its path. -/
def createScratch (tree : FileTree) (directory : Path) (start : Bytes) :
    Except FileFault (Path × FileTree) := do
  let path := directory.join (tree.freshName start)
  return (path, ← tree.createDirectory path)

/-- Writes a new file with a fresh name in a directory, and tells its path. -/
def writeScratch (tree : FileTree) (directory : Path) (start content : Bytes) :
    Except FileFault (Path × FileTree) := do
  let path := directory.join (tree.freshName start)
  return (path, ← tree.create path (.file content Entry.fileMode))

end Vetting.FileTree
