import Vetting.Files.Change

/-! Edits that set a tree up. The directories that an edit needs are made first. -/

namespace Vetting

/-- An edit of a tree. -/
inductive Edit where
  | write (path : Path) (content : Bytes) (mode : Option Nat)
  | makeDirectory (path : Path) (mode : Option Nat)
  | makeLink (path : Path) (target : Path)
  | makeSpecial (path : Path)
  | remove (path : Path)
  | setMode (path : Path) (mode : Nat)
  deriving DecidableEq, Repr

namespace Edit

/-- Makes a directory and those above it. -/
def makeDirectories (tree : FileTree) (path : Path) : Except FileFault FileTree :=
  match tree.createDirectories path with
  | (.ok (), made) => .ok made
  | (.error fault, _) => .error fault

/-- Makes the directories above a path. -/
def makeParents (tree : FileTree) (path : Path) : Except FileFault FileTree :=
  match path.parent? with
  | some parent => makeDirectories tree parent
  | none => .ok tree

/-- Sets permissions where some are asked for. -/
def setMode? (tree : FileTree) (path : Path) (mode : Option Nat) : Except FileFault FileTree :=
  match mode with
  | some mode => tree.setMode path mode
  | none => .ok tree

/-- Applies an edit to a tree. -/
def apply (tree : FileTree) : Edit → Except FileFault FileTree
  | write path content mode => do
      setMode? (← (← makeParents tree path).writeFile path content) path mode
  | makeDirectory path mode => do setMode? (← makeDirectories tree path) path mode
  | makeLink path target => do (← makeParents tree path).create path (.link target)
  | makeSpecial path => do (← makeParents tree path).create path .special
  | remove path => tree.remove path
  | setMode path mode => tree.setMode path mode

/-- Applies edits one after another. -/
def applyAll (tree : FileTree) (edits : List Edit) : Except FileFault FileTree :=
  edits.foldlM apply tree

end Edit

end Vetting
