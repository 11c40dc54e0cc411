import Vetting.Files.Resolve
import Vetting.Tool.Basic

/-! Looking for tools on a host. A probe looks for a tool when it is first asked about it and keeps
the answer, so what it says of a tool does not change with the files. -/

namespace Vetting

/-- Where tools are looked for. -/
structure SearchPlaces where
  /-- Directories with colons between them; an empty one is the working directory. -/
  searchPath : Option Bytes
  /-- Where the archive for diagrams may be. -/
  jars : List Path
  deriving DecidableEq, Repr

namespace SearchPlaces

/-- The byte between directories. -/
def colon : UInt8 := 0x3A

/-- The directories of a search path. -/
def directories (places : SearchPlaces) : List Path :=
  match places.searchPath with
  | none => []
  | some bytes => (Path.pieces colon bytes).map Path.mk

/-- Whether a path leads to a file that somebody may run. -/
def isExecutable (tree : FileTree) (path : Path) : Bool :=
  match tree.lookup true path with
  | .ok (_, entry) => entry.isExecutable
  | .error _ => false

/-- The first path at which a tool is found in a tree. -/
def find (places : SearchPlaces) (tree : FileTree) : Tool → Option Path
  | .plantUmlJar => places.jars.find? tree.isFile
  | tool =>
      (places.directories.map fun directory => directory.join (Path.bytesOf tool.name)).find?
        (isExecutable tree)

end SearchPlaces

/-- A probe: where it looks, and what it has found out. -/
structure Probe where
  places : SearchPlaces
  /-- The tools that it has been asked about, with what it found. -/
  known : List (Tool × Option Path)
  deriving DecidableEq, Repr

namespace Probe

/-- A probe that has not been asked yet. -/
def fresh (places : SearchPlaces) : Probe :=
  ⟨places, []⟩

/-- Looks for a tool: what was found when it was first asked for. -/
def locate (probe : Probe) (tree : FileTree) (tool : Tool) : Option Path × Probe :=
  match probe.known.lookup tool with
  | some found => (found, probe)
  | none =>
      let found := probe.places.find tree tool
      (found, { probe with known := (tool, found) :: probe.known })

/-- Whether a tool is there. -/
def isAvailable (probe : Probe) (tree : FileTree) (tool : Tool) : Bool × Probe :=
  let (found, next) := probe.locate tree tool
  (found.isSome, next)

/-- Looks for several tools. -/
def locateAll (probe : Probe) (tree : FileTree) :
    List Tool → List (Tool × Option Path) × Probe
  | [] => ([], probe)
  | tool :: rest =>
      let (found, next) := probe.locate tree tool
      let (others, last) := next.locateAll tree rest
      ((tool, found) :: others, last)

/-- Whether each tool is there. -/
def availability (probe : Probe) (tree : FileTree) : List (Tool × Bool) × Probe :=
  let (found, next) := probe.locateAll tree Tool.all
  (found.map fun entry => (entry.1, entry.2.isSome), next)

end Probe

end Vetting
