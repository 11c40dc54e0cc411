import Vetting.Proofs.Promotion.GateRun
import Vetting.Proofs.Promotion.Inspecting

/-! The names of directories for copies. A name that occurs nowhere is not in the way of a promotion,
and the directory that a run makes for copies has such a name.
-/

namespace Vetting

open FileTree PromotionGround

namespace PromotionGate

variable {gate : PromotionGate} {tree after : FileTree} {name : Bytes}

/-- A name of a directory for copies that occurs neither in the tree nor along the paths of a
promotion.
-/
structure Fresh (gate : PromotionGate) (tree : FileTree) (name : Bytes) : Prop where
  starts : ∃ rest, Path.slash ∉ rest ∧ name = PromotionRoute.stagingStart ++ rest
  unused : name ∉ tree.names
  start : name ∉ gate.outputRoot.start tree.here
  output : name ∉ gate.outputRoot.written
  required : ∀ path ∈ gate.rules.requiredFiles, name ∉ SafePath.names path

/-- No required path leads to where things are set aside. -/
def Unparked (gate : PromotionGate) : Prop :=
  ∀ path ∈ gate.rules.requiredFiles,
    ∀ index, (SafePath.names path).head? ≠ some (PromotionSite.parkingName index)

/-- What is set aside has a name that starts with a dot. -/
theorem unparked_of_heads
    (heads
      : ∀ path ∈ gate.rules.requiredFiles,
          (SafePath.names path).head?.bind List.head? ≠ (Path.bytesOf ".").head?)
    : gate.Unparked := by
  intro path required index same
  refine heads path required ?_
  rw [same, PromotionSite.parkingName, Path.bytesOf_append]
  rfl

/-- The ways to the output directory and to the directories in which required files belong. -/
def ways (gate : PromotionGate) : List (List Bytes) :=
  gate.outputRoot.written
  :: gate.rules.requiredFiles.map fun path =>
      gate.outputRoot.written ++ (SafePath.names path).dropLast

theorem isName_staging {rest : Bytes} (noSlash : Path.slash ∉ rest)
    : Path.IsName (PromotionRoute.stagingStart ++ rest) := by
  refine Path.isName_of_length ?_ ?_
  · rw [List.length_append]
    exact Nat.lt_of_lt_of_le (by decide) (Nat.le_add_right _ _)
  · rw [List.mem_append, not_or]
    exact ⟨by decide, noSlash⟩

theorem Fresh.isName (fresh : gate.Fresh tree name) : Path.IsName name := by
  obtain ⟨rest, noSlash, rfl⟩ := fresh.starts
  exact isName_staging noSlash

theorem Fresh.ne_report (fresh : gate.Fresh tree name) : name ≠ PromotionReport.name := by
  obtain ⟨rest, _, rfl⟩ := fresh.starts
  intro same
  have heads := congrArg List.head? same
  rw [List.head?_append_of_ne_nil _ (by decide)] at heads
  exact absurd heads (by decide)

/-- The ground on which a gate puts files into place. -/
def Fresh.ground (fresh : gate.Fresh tree name) (wf : tree.WellFormed) : PromotionGround where
  base := tree
  outputRoot := gate.outputRoot
  name := name
  ways := gate.ways
  proper := fresh.isName
  wellFormed := wf
  unused := fresh.unused
  startClear := fresh.start
  outputClear := fresh.output
  waysClear := by
    intro way member
    rcases List.mem_cons.mp member with rfl | member
    · exact fresh.output
    · obtain ⟨path, required, rfl⟩ := List.mem_map.mp member
      rw [List.mem_append, not_or]
      exact ⟨fresh.output, fun inside =>
        fresh.required path required (List.dropLast_subset _ inside)⟩

/-- A fresh name is on the way to nothing that stands in the tree. -/
theorem Fresh.clear_of_get? (fresh : gate.Fresh tree name) (wf : tree.WellFormed) {place : Place}
    {entry : Entry} (found : tree.get? place = some entry)
    : name ∉ place := by
  have ground : (fresh.ground wf).base.get? place = some entry := found
  exact baseClear ground

/-- Names without a fresh one do not lead to a place with it. -/
theorem Fresh.clear_of_leads (fresh : gate.Fresh tree name) (wf : tree.WellFormed)
    {start place : Place} {names : List Bytes} (leads : tree.Leads start names place)
    (startClear : name ∉ start) (namesClear : name ∉ names)
    : name ∉ place := by
  have ground : (fresh.ground wf).base.Leads start names place := leads
  exact PromotionGround.clear_of_leads ground startClear namesClear

/-- The ground of a promotion is the tree before it, with the paths of the gate. -/
theorem Fresh.ground_eq {fresh : gate.Fresh tree name} {wf : tree.WellFormed} {site : PromotionSite}
    (same : site.toPromotionGround = fresh.ground wf)
    : site.base = tree
      ∧ site.outputRoot = gate.outputRoot
      ∧ site.ways = gate.ways
      ∧ site.name = name := by
  rw [same]
  exact ⟨rfl, rfl, rfl, rfl⟩

/-- The required files may be put into place. -/
theorem Fresh.admits (fresh : gate.Fresh tree name) (wf : tree.WellFormed)
    (unparked : gate.Unparked) {site : PromotionSite}
    (same : site.toPromotionGround = fresh.ground wf)
    : ∀ path ∈ gate.rules.requiredFiles,
        SafePath.names path ≠ [] → site.Admits (SafePath.names path) := by
  intro path required nonempty
  refine ⟨nonempty, fun _ => SafePath.isName_of_mem_names, ?_, unparked path required, ?_⟩
  · rw [same]
    exact fresh.required path required
  · rw [same]
    exact List.mem_cons_of_mem _ (List.mem_map.mpr ⟨path, required, rfl⟩)

-----------------------------------------------------------------------------------------
-- The name that a run uses
-----------------------------------------------------------------------------------------

/-- A directory for copies has a fresh name: the names on the way to it and those of required files
that can be read are known, and it has none of these.
-/
theorem fresh_of_scratched (wf : tree.WellFormed) {first second : FileTree}
    (made : (Operation.createDirectories gate.outputRoot).Ends tree (.ok ()) first) {rest : Bytes}
    (noSlash : Path.slash ∉ rest) (unused : PromotionRoute.stagingStart ++ rest ∉ first.names)
    (scratched
      : first.createDirectory (gate.outputRoot.join (PromotionRoute.stagingStart ++ rest))
        = .ok second)
    (readable
      : ∀ path ∈ gate.rules.requiredFiles,
          ∃ source content,
            SafePath.resolve gate.draftRoot path = .ok source
            ∧ tree.readFile source = .ok content)
    : gate.Fresh tree (PromotionRoute.stagingStart ++ rest) := by
  have wfFirst := made.wellFormed wf
  have grows := made.grows wf
  have proper := isName_staging noSlash
  have unknown : ¬ first.Known (PromotionRoute.stagingStart ++ rest) := by
    rintro (same | same | member)
    · exact proper.notDot same
    · exact proper.notDotDot same
    · exact unused member
  have unusedBefore : PromotionRoute.stagingStart ++ rest ∉ tree.names := by
    intro member
    obtain ⟨place, entry, below, found, inside⟩ := wf.mem_names.mp member
    exact unused (wfFirst.mem_names.mpr
      ⟨place, entry, below, grows.keeps place entry (clear_of_nothing _) found, inside⟩)
  obtain ⟨place, resolved⟩ := PromotionReport.resolve_of_made wfFirst proper scratched
  obtain ⟨_, left, root, course, directory, _⟩ := (PromotionReport.resolve_join proper).mp resolved
  refine ⟨⟨rest, noSlash, rfl⟩, unusedBefore, ?_, ?_, ?_⟩
  · obtain ⟨mode, start⟩ := course.directory directory
    rw [grows.here] at start
    intro inside
    exact unused (wfFirst.mem_names.mpr ⟨_, _, List.ne_nil_of_mem inside, start, Or.inl inside⟩)
  · exact fun inside => unknown (course.known _ inside)
  · intro path required inside
    obtain ⟨source, content, resolved, read⟩ := readable path required
    obtain ⟨some, rfl⟩ := SafePath.resolve_eq_ok.mp resolved
    have names := Path.names_below gate.draftRoot some fun _ => SafePath.isName_of_mem_names
    have known := known_of_readFile read _ (names ▸ List.mem_append_right _ inside)
    rcases known with same | same | member
    · exact proper.notDot same
    · exact proper.notDotDot same
    · exact unusedBefore member

end PromotionGate

end Vetting
