import Vetting.Files.Change

/-! Programs that work on a tree of files by single operations. What a program does next depends on
the answers to its operations alone, so a program can be run on a tree, or operation by operation
among others. -/

namespace Vetting

/-- One operation on a tree of files. -/
inductive Operation where
  | createDirectories (path : Path)
  /-- Makes an empty directory with a fresh name. -/
  | createScratch (directory : Path) (start : Bytes)
  /-- Writes a new file with a fresh name. -/
  | writeScratch (directory : Path) (start content : Bytes)
  /-- Asks whether something stands there, be it a link. -/
  | find (path : Path)
  | readFile (path : Path)
  | copyFile (source target : Path)
  | rename (source target : Path)
  | removeFile (path : Path)
  | removeDirectory (path : Path)
  deriving DecidableEq, Repr

namespace Operation

/-- What an operation answers. -/
@[reducible] def Answer : Operation → Type
  | createScratch _ _ => Path
  | writeScratch _ _ _ => Path
  | readFile _ => Bytes
  | _ => Unit

/-- The answer and the tree after a change; a change that fails changes nothing. -/
def changed (tree : FileTree) : Except FileFault FileTree → Except FileFault Unit × FileTree
  | .ok next => (.ok (), next)
  | .error fault => (.error fault, tree)

/-- The answer and the tree after a change that tells something. -/
def told {α : Type} (tree : FileTree) :
    Except FileFault (α × FileTree) → Except FileFault α × FileTree
  | .ok (answer, next) => (.ok answer, next)
  | .error fault => (.error fault, tree)

/-- Performs an operation. -/
def perform (tree : FileTree) : (op : Operation) → Except FileFault op.Answer × FileTree
  | createDirectories path => tree.createDirectories path
  | createScratch directory start => told tree (tree.createScratch directory start)
  | writeScratch directory start content => told tree (tree.writeScratch directory start content)
  | find path => ((tree.lookup false path).map fun _ => (), tree)
  | readFile path => (tree.readFile path, tree)
  | copyFile source target => changed tree (tree.copyFile source target)
  | rename source target => changed tree (tree.rename source target)
  | removeFile path => changed tree (tree.removeFile path)
  | removeDirectory path => changed tree (tree.removeDirectory path)

end Operation

/-- A program. -/
inductive FileProgram (α : Type) where
  | done (value : α)
  | perform (op : Operation) (next : Except FileFault op.Answer → FileProgram α)

namespace FileProgram

variable {α β : Type}

/-- Goes on with another program. -/
def bind : FileProgram α → (α → FileProgram β) → FileProgram β
  | done value, rest => rest value
  | perform op next, rest => perform op fun answer => (next answer).bind rest

instance : Monad FileProgram where
  pure := done
  bind := bind

/-- The program of one operation. -/
def request (op : Operation) : FileProgram (Except FileFault op.Answer) :=
  perform op done

/-- Runs a program on a tree. -/
def run : FileProgram α → FileTree → α × FileTree
  | done value, tree => (value, tree)
  | perform op next, tree =>
      let (answer, after) := op.perform tree
      (next answer).run after

end FileProgram

end Vetting
