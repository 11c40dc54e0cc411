import Vetting.Files.Path

/-! Trees of files. A place in a tree is the list of names that lead to it from the root; the
entries of a tree are listed with their places, in the order in which directories give their
entries. The root is always a directory. -/

namespace Vetting

/-- The names that lead to an entry from the root. -/
abbrev Place := List Bytes

/-- The place from which a path leads when it is followed in a directory. -/
def Path.start (path : Path) (directory : Place) : Place :=
  if path.isAbsolute then [] else directory

/-- What stands at a place. The permissions of an entry are the bits of a number. -/
inductive Entry where
  | directory (mode : Nat)
  | file (content : Bytes) (mode : Nat)
  | link (target : Path)
  /-- Neither a file, a directory nor a link. -/
  | special
  deriving DecidableEq, Repr

namespace Entry

/-- Whether an entry is a directory. -/
def isDirectory : Entry → Bool
  | directory _ => true
  | _ => false

/-- Whether an entry is a regular file. -/
def isFile : Entry → Bool
  | file _ _ => true
  | _ => false

/-- The permissions of new directories. -/
def directoryMode : Nat := 0o755

/-- The permissions of new files. -/
def fileMode : Nat := 0o644

/-- Whether somebody may run an entry. -/
def isExecutable : Entry → Bool
  | file _ mode => mode &&& 0o111 != 0
  | _ => false

/-- The names along the path of a link. -/
def linkNames : Entry → List Bytes
  | link target => target.names
  | _ => []

/-- An entry with other permissions. -/
def withMode (mode : Nat) : Entry → Entry
  | directory _ => directory mode
  | file content _ => file content mode
  | other => other

end Entry

/-- A tree of files, and the place from which paths start. -/
structure FileTree where
  entries : List (Place × Entry)
  here : Place
  deriving DecidableEq, Repr

namespace FileTree

/-- A tree with a working directory and nothing else. -/
def empty : FileTree where
  entries := [([Path.bytesOf "work"], .directory Entry.directoryMode)]
  here := [Path.bytesOf "work"]

/-- What stands at a place. -/
def get? (tree : FileTree) (place : Place) : Option Entry :=
  if place.isEmpty then some (.directory Entry.directoryMode)
  else (tree.entries.find? fun e => e.1 == place).map Prod.snd

/-- Puts an entry at a place, instead of one that stands there. -/
def put (tree : FileTree) (place : Place) (entry : Entry) : FileTree :=
  if (tree.get? place).isSome then
    { tree with
      entries := tree.entries.map fun e => if e.1 == place then (place, entry) else e }
  else { tree with entries := tree.entries ++ [(place, entry)] }

/-- The names that occur in a tree, those along the paths of links included. -/
def names (tree : FileTree) : List Bytes :=
  tree.entries.flatMap fun e => e.1 ++ e.2.linkNames

/-- Drops a place and everything below it. -/
def drop (tree : FileTree) (place : Place) : FileTree :=
  { tree with entries := tree.entries.filter fun e => !place.isPrefixOf e.1 }

/-- Moves a place and everything below it to another place, which has to be free. -/
def move (tree : FileTree) (source target : Place) : FileTree :=
  { tree with
    entries := tree.entries.map fun e =>
      if source.isPrefixOf e.1 then (target ++ e.1.drop source.length, e.2) else e }

/-- The name of a place in a directory, when it stands there. -/
def nameIn? (directory place : Place) : Option Bytes :=
  if directory.isPrefixOf place then
    match place.drop directory.length with
    | [name] => some name
    | _ => none
  else none

/-- What stands in a directory, with its names. -/
def children (tree : FileTree) (directory : Place) : List (Bytes × Entry) :=
  tree.entries.filterMap fun e => (nameIn? directory e.1).map fun name => (name, e.2)

/-- The place to which a name leads from a directory. -/
def step (directory : Place) (name : Bytes) : Place :=
  if name == Path.dot then directory
  else if name == Path.dotDot then directory.dropLast
  else directory ++ [name]

end FileTree

end Vetting
