import Vetting.Proofs.Promotion.Coherence
import Vetting.Proofs.Promotion.DraftFiles

/-! When a required file counts as one that a draft has: when it stands in the draft, and when another
file of the draft is told by its path, since a backslash in a name stands for a slash there.
-/

namespace Vetting.PromotionGate

open FileTree

variable {gate : PromotionGate} {tree after : FileTree} {listing : DraftListing} {path : String}

/-- The segments of a path lead from the draft to a regular file. -/
def Denotes (gate : PromotionGate) (tree : FileTree) (path : String) : Prop :=
  ∃ place mode content permissions,
    tree.lookup true gate.draftRoot = .ok (place, .directory mode)
    ∧ tree.get? (place ++ SafePath.names path) = some (.file content permissions)

/-- A regular file of the draft is told by a path with slashes for the backslashes in its names. -/
def Respells (gate : PromotionGate) (tree : FileTree) (path : String) : Prop :=
  ∃ place mode way,
    tree.lookup true gate.draftRoot = .ok (place, .directory mode)
    ∧ DraftListing.Tells tree place way path
    ∧ ∃ name ∈ way, SafePath.backslash ∈ name

/-- A draft that is listed has a place, which is a directory. -/
theorem Discovered.stands (found : gate.Discovered tree listing)
    : ∃ place mode, tree.lookup true gate.draftRoot = .ok (place, .directory mode) := by
  have collected := found.collected
  unfold DraftListing.collect at collected
  split at collected
  · exact ⟨_, _, ‹_›⟩
  · exact absurd collected (by simp)
  · exact absurd collected (by simp)

/-- Without backslashes, a file is told by the path along which it stands. -/
theorem names_of_tells (named : tree.Named) {place : Place} {way : List Bytes}
    (tells : DraftListing.Tells tree place way path)
    (absent : ∀ name ∈ way, SafePath.backslash ∉ name)
    : SafePath.names path = way := by
  obtain ⟨nonempty, ⟨content, mode, found⟩, written, told, normal⟩ := tells
  have proper := fun name member => named.get? found name (List.mem_append_right _ member)
  obtain ⟨parts, rfl, rfl⟩ := (DraftListing.pathOf?_eq_some nonempty fun name member =>
    (proper name member).noSlash).mp told
  have unmarked : ∀ part ∈ parts, '\\' ∉ part.toList := fun part member inside =>
    absent _ (List.mem_map_of_mem member) (Text.mem_encode_of_mem (by decide) inside)
  rw [SafePath.withSlashes_of_not_mem (SafePath.backslash_not_mem_of_parts unmarked),
    String.ofList_toList] at normal
  refine SafePath.names_of_parts (by simpa using nonempty) ?_ unmarked normal
  exact fun part member => proper _ (List.mem_map_of_mem member)

/-- A path is listed when it leads to a file of the draft, and when it is the path by which a file with
a backslash in its names is told.
-/
theorem mem_files_iff_denotes (wf : tree.WellFormed) (named : tree.Named)
    (found : gate.Discovered tree listing) (normal : SafePath.normalize path = .ok path)
    : path ∈ listing.files ↔ gate.Denotes tree path ∨ gate.Respells tree path := by
  obtain ⟨place, mode, stands⟩ := found.stands
  rw [DraftListing.mem_files_iff wf named stands found.collected]
  constructor
  · rintro ⟨way, tells⟩
    -- Only a backslash makes the path of a file spell other names than those on the way to it.
    by_cases marked : ∃ name ∈ way, SafePath.backslash ∈ name
    · exact Or.inr ⟨place, mode, way, stands, tells, marked⟩
    · have same := names_of_tells named tells fun name member inside => marked ⟨name, member, inside⟩
      obtain ⟨_, ⟨content, permissions, found⟩, _⟩ := tells
      exact Or.inl ⟨place, mode, content, permissions, stands, same ▸ found⟩
  · rintro (⟨other, _, content, permissions, again, file⟩ | ⟨other, _, way, again, tells, _⟩)
    · obtain ⟨rfl, _⟩ := Prod.mk.inj (Except.ok.inj (stands.symm.trans again))
      obtain ⟨parts, parsed, names⟩ := SafePath.names_of_normal normal
      have nonempty : SafePath.names path ≠ [] := by
        simpa [names] using (SafePath.isName_of_parse parsed).1
      exact ⟨_, nonempty, ⟨content, permissions, file⟩, path, SafePath.pathOf?_names normal, normal⟩
    · obtain ⟨rfl, _⟩ := Prod.mk.inj (Except.ok.inj (stands.symm.trans again))
      exact ⟨way, tells⟩

/-- A required file is missing when its path leads to no file of the draft and no file of the draft is
told by it instead.
-/
theorem allPresent_iff (wf : tree.WellFormed) (named : tree.Named) (valid : gate.rules.Valid)
    (found : gate.Discovered tree listing)
    : gate.AllPresent listing
      ↔ ∀ path ∈ gate.rules.requiredFiles, gate.Denotes tree path ∨ gate.Respells tree path := by
  refine forall₂_congr fun path required => ?_
  exact mem_files_iff_denotes wf named found (valid.acceptable path required).normal

/-- Where no name has a backslash, no file is told by another path. -/
theorem not_respells (unmarked : ∀ e ∈ tree.entries, ∀ name ∈ e.1, SafePath.backslash ∉ name)
    : ¬ gate.Respells tree path := by
  rintro ⟨place, _, way, _, ⟨nonempty, ⟨_, _, found⟩, _⟩, name, member, inside⟩
  have listed := mem_of_get? (by simp [nonempty]) found
  exact unmarked _ listed name (List.mem_append_right _ member) inside

/-- A draft in which all is allowed is rejected for its required files exactly when the path of one of
them leads to no file of the draft and no file with a backslash in its names is told by that path
instead; all of these are named. Without backslashes it is rejected for those that it does not have.
-/
theorem missing_files_rejected {now : Timestamp} {outcome : Outcome} {report : PromotionReport}
    (wf : tree.WellFormed) (named : tree.Named) (valid : gate.rules.validate = .ok ())
    (found : gate.Discovered tree listing) (allowed : gate.AllAllowed listing)
    (run : (gate.program now (gate.inspect tree)).Yields .any tree outcome after)
    (returned : outcome.report = .ok report)
    : (report.failedStage = some .requiredFiles
        ↔ ∃ path ∈ gate.rules.requiredFiles,
            ¬ gate.Denotes tree path ∧ ¬ gate.Respells tree path)
      ∧ (∀ path ∈ gate.rules.requiredFiles,
          ¬ gate.Denotes tree path
          → ¬ gate.Respells tree path
          → ∃ error ∈ report.errors, path.toList <:+: error.toList)
      ∧ ((∀ e ∈ tree.entries, ∀ name ∈ e.1, SafePath.backslash ∉ name)
          → (report.failedStage = some .requiredFiles
            ↔ ∃ path ∈ gate.rules.requiredFiles, ¬ gate.Denotes tree path)) := by
  have valid := RuleSet.validate_eq_ok.mp valid
  obtain ⟨_, _, _, decided, _⟩ := returned_yields Conduct.lawful_any wf run returned
  have order := decided.stageOrder
  have stage : report.failedStage = some .requiredFiles
      ↔ ∃ path ∈ gate.rules.requiredFiles,
          ¬ gate.Denotes tree path ∧ ¬ gate.Respells tree path := by
    rw [order.requiredFiles listing found allowed, allPresent_iff wf named valid found]
    simp only [not_forall, not_or, exists_prop]
  refine ⟨stage, ?_, ?_⟩
  · intro path required noFile notRespelled
    refine order.absent listing found allowed path required fun listed => ?_
    have normal := (valid.acceptable path required).normal
    exact ((mem_files_iff_denotes wf named found normal).mp listed).elim noFile notRespelled
  · intro unmarked
    rw [stage]
    exact exists_congr fun path => and_congr_right fun _ => and_iff_left (not_respells unmarked)

/-- A gate for some required files of a draft in which paths start with one letter. -/
def letterGate (required : List String) : PromotionGate where
  outputRoot := .ofString "out"
  draftRoot := .ofString "draft"
  rules := ⟨["a"], required, [], []⟩

/-- A draft with one file, in whose name there is a backslash. -/
def respellingEdits : List Edit :=
  [.write (.ofString "draft/a\\b") (Path.bytesOf "new") none]

/-- The tree that this edit makes. -/
@[irreducible] def respelledTree : FileTree :=
  (Edit.applyAll .empty respellingEdits).toOption.getD .empty

theorem respelledTree_made : Edit.applyAll .empty respellingEdits = .ok respelledTree := by
  decide +kernel

theorem stands_respelledTree (required : List String)
    : respelledTree.lookup true (letterGate required).draftRoot
      = .ok ([Path.bytesOf "work", Path.bytesOf "draft"], .directory Entry.directoryMode) := by
  change respelledTree.lookup true (.ofString "draft") = _
  decide +kernel

/-- The file is listed with a slash in its path. -/
theorem discovered_respelledTree (required : List String)
    : (letterGate required).Discovered respelledTree ⟨["a/b"], []⟩ := by
  have stands := stands_respelledTree required
  refine ⟨by simp [isDirectory, stands, Entry.isDirectory], ?_, Or.inl (by simp)⟩
  exact collect_of_sorted stands (by decide +kernel) (by simp)

theorem allAllowed_respelledTree (required : List String)
    : (letterGate required).AllAllowed ⟨["a/b"], []⟩ := by
  refine ⟨rfl, fun file member => ?_⟩
  rw [List.mem_singleton.mp member]
  change (["a"].any fun start => Text.startsWith "a/b".toList start) = true
  decide

/-- Of two required files, the one is told for the file with a backslash, and the other is missing. -/
theorem missing_files_rejected_respelled
    : ∃ report,
        ((letterGate ["a/b", "a/c"]).run default respelledTree).1.report = .ok report
        ∧ report.failedStage = some .requiredFiles
        ∧ ∃ path ∈ ["a/b", "a/c"],
            ¬ (letterGate ["a/b", "a/c"]).Denotes respelledTree path
            ∧ ¬ (letterGate ["a/b", "a/c"]).Respells respelledTree path := by
  have wf := Edit.wellFormed_applyAll wellFormed_empty respelledTree_made
  have named := Edit.named_applyAll named_empty respelledTree_made
  have found := discovered_respelledTree ["a/b", "a/c"]
  have allowed := allAllowed_respelledTree ["a/b", "a/c"]
  have inspected : (letterGate ["a/b", "a/c"]).inspect respelledTree
      = .reject .requiredFiles "Missing required draft files: a/c" := by
    have absent : (letterGate ["a/b", "a/c"]).missing ⟨["a/b"], []⟩ = ["a/c"] := by decide +kernel
    simp [inspect, found.directory, found.collected, inspectListing, DraftListing.isEmpty,
      disallowed_eq_nil.mpr allowed, absent, Text.joinWith]
  have decided
      : (((letterGate ["a/b", "a/c"]).program default
            (.reject .requiredFiles "Missing required draft files: a/c")).run
          respelledTree).1.report.toOption.map PromotionReport.failedStage
        = some (some .requiredFiles) := by
    decide +kernel
  rw [← inspected] at decided
  have run := FileProgram.yields_run ((letterGate ["a/b", "a/c"]).program default
    ((letterGate ["a/b", "a/c"]).inspect respelledTree)) wf
  unfold PromotionGate.run
  obtain ⟨report, returned, stage⟩ := Except.toOption_map_eq_some.mp decided
  obtain ⟨told, _⟩ := missing_files_rejected wf named (by decide +kernel) found allowed run returned
  exact ⟨report, returned, stage, told.mp stage⟩

/-- A required file whose path leads to no file of the draft is not missing when another file is told
by that path.
-/
theorem not_missing_when_respelled
    : ∃ report,
        ((letterGate ["a/b"]).run default respelledTree).1.report = .ok report
        ∧ ¬ (letterGate ["a/b"]).Denotes respelledTree "a/b"
        ∧ report.failedStage ≠ some .requiredFiles := by
  have found := discovered_respelledTree ["a/b"]
  have allowed := allAllowed_respelledTree ["a/b"]
  have inspected : (letterGate ["a/b"]).inspect respelledTree
      = (letterGate ["a/b"]).inspectContents respelledTree := by
    have present : (letterGate ["a/b"]).missing ⟨["a/b"], []⟩ = [] := by decide +kernel
    simp [inspect, found.directory, found.collected, inspectListing, DraftListing.isEmpty,
      disallowed_eq_nil.mpr allowed, present]
  have decided
      : (((letterGate ["a/b"]).program default
            ((letterGate ["a/b"]).inspectContents respelledTree)).run
          respelledTree).1.report.toOption.map PromotionReport.failedStage
        = some (some .invariants) := by
    decide +kernel
  rw [← inspected] at decided
  unfold PromotionGate.run
  obtain ⟨report, returned, stage⟩ := Except.toOption_map_eq_some.mp decided
  refine ⟨report, returned, ?_, by simp [stage]⟩
  rintro ⟨place, mode, content, permissions, stands, file⟩
  obtain ⟨rfl, _⟩ := Prod.mk.inj (Except.ok.inj ((stands_respelledTree _).symm.trans stands))
  have absent
      : respelledTree.get?
          ([Path.bytesOf "work", Path.bytesOf "draft"] ++ SafePath.names "a/b") = none := by
    decide +kernel
  exact absurd (absent.symm.trans file) (by simp)

end Vetting.PromotionGate
