import Vetting.Promotion.Gate
import Vetting.Proofs.Results

/-! What the stages of a promotion that only read find in a draft. Each of them rejects a draft that
has passed the stages before it, and the reasons of the rejection are those that the stage has found.
-/

namespace Vetting.PromotionGate

-----------------------------------------------------------------------------------------
-- What the stages ask of a draft
-----------------------------------------------------------------------------------------

/-- There is a draft, it can be listed, and it holds something. -/
structure Discovered (gate : PromotionGate) (tree : FileTree) (listing : DraftListing) : Prop where
  directory : tree.isDirectory gate.draftRoot = true
  collected : DraftListing.collect tree gate.draftRoot = .ok listing
  holds : listing.files ≠ [] ∨ listing.refused ≠ []

/-- Nothing in a draft is refused, and all of its files start as they may. -/
structure AllAllowed (gate : PromotionGate) (listing : DraftListing) : Prop where
  refused : listing.refused = []
  files : ∀ file ∈ listing.files, gate.rules.allows file = true

/-- A draft has all required files. -/
def AllPresent (gate : PromotionGate) (listing : DraftListing) : Prop :=
  ∀ path ∈ gate.rules.requiredFiles, path ∈ listing.files

/-- The checks can be made, and nothing stands against a promotion. -/
def ChecksPass (gate : PromotionGate) (tree : FileTree) : Prop :=
  ∃ findings, gate.rules.findings tree gate.draftRoot = .ok findings ∧ findings.errors = []

variable {gate : PromotionGate} {tree : FileTree} {listing other : DraftListing}

theorem Discovered.unique (one : gate.Discovered tree listing) (two : gate.Discovered tree other)
    : listing = other :=
  Except.ok.inj (one.collected.symm.trans two.collected)

/-- A draft in which nothing is refused is listed with its files in their order. -/
theorem collect_of_sorted {root : Path} {place : Place} {mode : Nat} {files : List String}
    (stands : tree.lookup true root = .ok (place, .directory mode))
    (walked
      : DraftListing.walk tree tree.entries.length place [] = files.map DraftListing.Found.file)
    (sorted : files.Pairwise (· ≤ ·))
    : DraftListing.collect tree root = .ok ⟨files, []⟩ := by
  have ordered : files.mergeSort (fun a b => a ≤ b) = files :=
    List.mergeSort_of_pairwise (sorted.imp decide_eq_true)
  have nothing : files.filterMap (fun _ => (none : Option (String × Refusal))) = [] :=
    List.filterMap_eq_nil_iff.mpr fun _ _ => rfl
  simp [DraftListing.collect, stands, walked, DraftListing.ofFound, List.filterMap_map, ordered,
    nothing]

-----------------------------------------------------------------------------------------
-- What is not allowed and what is missing
-----------------------------------------------------------------------------------------

/-- The paths that are not allowed are those of refused entries and of files that start otherwise. -/
theorem disallowed_perm (gate : PromotionGate) (listing : DraftListing)
    : (gate.disallowed listing).Perm
        (listing.refused.map Prod.fst
        ++ listing.files.filter fun path => !gate.rules.allows path) :=
  List.mergeSort_perm _ _

/-- The paths that are not allowed are sorted. -/
theorem disallowed_sorted (gate : PromotionGate) (listing : DraftListing)
    : (gate.disallowed listing).Pairwise (· ≤ ·) := by
  have transitive (a b c : String) (one : (a ≤ b : Bool)) (two : (b ≤ c : Bool))
      : (a ≤ c : Bool) := by
    simp only [decide_eq_true_eq] at one two ⊢
    exact String.le_trans one two
  have total (a b : String) : (a ≤ b : Bool) || (b ≤ a : Bool) := by
    simpa using String.le_total a b
  exact (List.pairwise_mergeSort transitive total _).imp of_decide_eq_true

theorem disallowed_eq_nil : gate.disallowed listing = [] ↔ gate.AllAllowed listing := by
  have perm := gate.disallowed_perm listing
  rw [← List.perm_nil]
  constructor
  · intro none
    have nothing := List.perm_nil.mp (perm.symm.trans none)
    rw [List.append_eq_nil_iff, List.map_eq_nil_iff, List.filter_eq_nil_iff] at nothing
    exact ⟨nothing.1, fun file member => by simpa using nothing.2 file member⟩
  · intro allowed
    refine perm.trans (List.perm_nil.mpr ?_)
    rw [List.append_eq_nil_iff, List.map_eq_nil_iff, List.filter_eq_nil_iff]
    exact ⟨allowed.refused, fun file member => by simpa using allowed.files file member⟩

theorem mem_missing {path : String}
    : path ∈ gate.missing listing
      ↔ path ∈ gate.rules.requiredFiles ∧ path ∉ listing.files := by
  simp [missing]

theorem missing_eq_nil : gate.missing listing = [] ↔ gate.AllPresent listing := by
  simp [missing, AllPresent]

/-- When the checks can be made, all required files can be read, and all errors in them are told. -/
theorem told_of_findings {rules : RuleSet} {draft : Path} {findings : Findings}
    (checked : rules.findings tree draft = .ok findings)
    : ∀ path ∈ rules.requiredFiles,
        ∃ source content,
          SafePath.resolve draft path = .ok source
          ∧ tree.readFile source = .ok content
          ∧ (rules.findingsIn path (Text.decodeLossy content)).errors ⊆ findings.errors := by
  obtain ⟨found, each, finish⟩ := Except.bind_eq_ok.mp checked
  obtain rfl := Except.ok.inj finish
  intro path member
  obtain ⟨one, listed, computed⟩ := (Except.mapM_eq_ok.mp each).partner_right path member
  obtain ⟨source, resolved, computed⟩ := Except.bind_eq_ok.mp computed
  obtain ⟨content, read, computed⟩ := Except.bind_eq_ok.mp computed
  obtain rfl := Except.ok.inj computed
  exact ⟨source, content, resolved, Except.mapError_eq_ok.mp read,
    fun line told => List.mem_flatMap.mpr ⟨_, listed, told⟩⟩

/-- Required files can be read when the checks can be made. -/
theorem readable_of_findings {rules : RuleSet} {draft : Path} {findings : Findings}
    (checked : rules.findings tree draft = .ok findings)
    : ∀ path ∈ rules.requiredFiles,
        ∃ source content,
          SafePath.resolve draft path = .ok source ∧ tree.readFile source = .ok content := by
  intro path member
  obtain ⟨source, content, resolved, read, _⟩ := told_of_findings checked path member
  exact ⟨source, content, resolved, read⟩

-----------------------------------------------------------------------------------------
-- Inspections
-----------------------------------------------------------------------------------------

/-- What an inspection says, for each stage that rejects a draft and for a draft that passes. -/
inductive Inspected (gate : PromotionGate) (tree : FileTree) : Inspection → Prop
  | undiscovered {error} (none : ¬ ∃ listing, gate.Discovered tree listing)
    : Inspected gate tree (.reject .discovery error)
  | disallowed {listing : DraftListing} (found : gate.Discovered tree listing)
    (outside : ¬ gate.AllAllowed listing)
    : Inspected gate tree (rejectDisallowed listing (gate.disallowed listing))
  | missing {listing : DraftListing} (found : gate.Discovered tree listing)
    (allowed : gate.AllAllowed listing)
    (absent : ¬ gate.AllPresent listing)
    : Inspected gate tree
        (.reject .requiredFiles
          ("Missing required draft files: " ++ Text.joinWith ", " (gate.missing listing)))
  | unchecked {listing : DraftListing} {fault} (found : gate.Discovered tree listing)
    (allowed : gate.AllAllowed listing) (present : gate.AllPresent listing)
    (stopped : gate.rules.findings tree gate.draftRoot = .error fault)
    : Inspected gate tree
        (.reject .invariants ("Invariant check failed: " ++ PromotionFault.message fault))
  | faulty {listing : DraftListing} {findings} (found : gate.Discovered tree listing)
    (allowed : gate.AllAllowed listing) (present : gate.AllPresent listing)
    (checked : gate.rules.findings tree gate.draftRoot = .ok findings)
    (bad : findings.errors ≠ [])
    : Inspected gate tree ⟨[], findings.errors, findings.warnings, some .invariants⟩
  | passed {listing : DraftListing} {findings} (found : gate.Discovered tree listing)
    (allowed : gate.AllAllowed listing) (present : gate.AllPresent listing)
    (checked : gate.rules.findings tree gate.draftRoot = .ok findings)
    (good : findings.errors = [])
    : Inspected gate tree ⟨[], [], findings.warnings, none⟩

/-- The checks decide on a draft whose files may stand there and that has all required ones. -/
theorem inspected_contents {gate : PromotionGate} {listing : DraftListing}
    (found : gate.Discovered tree listing) (allowed : gate.AllAllowed listing)
    (present : gate.AllPresent listing)
    : gate.Inspected tree (gate.inspectContents tree) := by
  unfold inspectContents
  split
  · rename_i stopped
    exact .unchecked found allowed present stopped
  · rename_i findings checked
    cases errors : findings.errors with
    | nil =>
        simp only [Findings.passed, errors, List.isEmpty_nil, if_true]
        exact .passed found allowed present checked errors
    | cons error rest =>
        simp only [Findings.passed, errors, List.isEmpty_cons, Bool.false_eq_true, if_false]
        rw [← errors]
        exact .faulty found allowed present checked (by simp [errors])

/-- What is said of a draft that has been listed. -/
theorem inspected_listing {gate : PromotionGate} {listing : DraftListing}
    (directory : tree.isDirectory gate.draftRoot = true)
    (collected : DraftListing.collect tree gate.draftRoot = .ok listing)
    : gate.Inspected tree (gate.inspectListing tree listing) := by
  unfold inspectListing
  split
  · rename_i empty
    refine .undiscovered fun ⟨other, found⟩ => ?_
    obtain rfl := Except.ok.inj (found.collected.symm.trans collected)
    have holds := found.holds
    simp [DraftListing.isEmpty] at empty
    simp [empty] at holds
  rename_i filled
  have found : gate.Discovered tree listing := by
    refine ⟨directory, collected, ?_⟩
    by_cases none : listing.files = []
    · exact Or.inr (by simpa [DraftListing.isEmpty, none] using filled)
    · exact Or.inl none
  split
  · rename_i path paths outside
    rw [← outside]
    refine .disallowed found fun allowed => ?_
    simp [disallowed_eq_nil.mpr allowed] at outside
  rename_i inside
  have allowed := disallowed_eq_nil.mp inside
  split
  · rename_i path paths absent
    rw [← absent]
    refine .missing found allowed fun present => ?_
    simp [missing_eq_nil.mpr present] at absent
  · rename_i complete
    exact inspected_contents found allowed (missing_eq_nil.mp complete)

/-- Each stage is passed only by a draft that has what the stage asks for. -/
theorem inspected (gate : PromotionGate) (tree : FileTree)
    : gate.Inspected tree (gate.inspect tree) := by
  unfold inspect
  split
  · rename_i noDirectory
    refine .undiscovered fun ⟨listing, found⟩ => ?_
    simp [found.directory] at noDirectory
  rename_i directory
  cases collected : DraftListing.collect tree gate.draftRoot with
  | error fault =>
      refine .undiscovered fun ⟨listing, found⟩ => ?_
      simp [found.collected] at collected
  | ok listing => exact inspected_listing (by simpa using directory) collected

/-- A draft that is not rejected has passed all stages. -/
theorem passed_of_inspect (passed : (gate.inspect tree).failedStage = none)
    : ∃ listing findings,
        gate.Discovered tree listing
        ∧ gate.AllAllowed listing
        ∧ gate.AllPresent listing
        ∧ gate.rules.findings tree gate.draftRoot = .ok findings
        ∧ findings.errors = []
        ∧ gate.inspect tree = ⟨[], [], findings.warnings, none⟩ := by
  have seen := gate.inspected tree
  generalize gate.inspect tree = found at passed seen
  cases seen with
  | passed found allowed present checked good =>
      exact ⟨_, _, found, allowed, present, checked, good, rfl⟩
  | undiscovered _ => exact absurd passed (by simp [Inspection.reject])
  | disallowed _ _ => exact absurd passed (by simp [rejectDisallowed])
  | missing _ _ _ => exact absurd passed (by simp [Inspection.reject])
  | unchecked _ _ _ _ => exact absurd passed (by simp [Inspection.reject])
  | faulty _ _ _ _ _ => exact absurd passed (by simp)

/-- A draft that passes all stages is not rejected. -/
theorem inspect_of_passed (found : gate.Discovered tree listing)
    (allowed : gate.AllAllowed listing) (present : gate.AllPresent listing) {findings : Findings}
    (checked : gate.rules.findings tree gate.draftRoot = .ok findings)
    (good : findings.errors = [])
    : gate.inspect tree = ⟨[], [], findings.warnings, none⟩ := by
  have nonempty : listing.isEmpty = false := by
    simpa [DraftListing.isEmpty, allowed.refused] using found.holds
  simp [inspect, found.directory, found.collected, inspectListing, nonempty,
    disallowed_eq_nil.mpr allowed, missing_eq_nil.mpr present, inspectContents, checked,
    Findings.passed, good]

/-- A draft that is walked in the order of its paths passes all stages when these are allowed, the
required ones are among them, and nothing is found in their files.
-/
theorem inspect_of_walked {place : Place} {mode : Nat} {files : List String}
    (stands : tree.lookup true gate.draftRoot = .ok (place, .directory mode))
    (walked
      : DraftListing.walk tree tree.entries.length place [] = files.map DraftListing.Found.file)
    (sorted : files.Pairwise (· ≤ ·)) (some : files ≠ [])
    (allowed : ∀ path ∈ files, gate.rules.allows path = true)
    (present : gate.rules.requiredFiles ⊆ files)
    (checked : gate.rules.findings tree gate.draftRoot = .ok .none)
    : gate.inspect tree = ⟨[], [], [], none⟩ := by
  have found : gate.Discovered tree ⟨files, []⟩ :=
    ⟨by simp [FileTree.isDirectory, stands, Entry.isDirectory], collect_of_sorted stands walked sorted,
      Or.inl some⟩
  exact inspect_of_passed found ⟨rfl, allowed⟩ (fun _ required => present required) checked rfl

/-- A gate for two files, one of which belongs in a directory. -/
def nestedGate : PromotionGate where
  outputRoot := .ofString "out"
  draftRoot := .ofString "draft"
  rules := ⟨["a", "b"], ["a", "b/c"], [], []⟩

/-- A draft with the two files, of which both can be read, passes all stages. -/
theorem inspect_nested {place : Place} {mode : Nat}
    (stands : tree.lookup true nestedGate.draftRoot = .ok (place, .directory mode))
    (walked
      : DraftListing.walk tree tree.entries.length place []
        = ["a", "b/c"].map DraftListing.Found.file)
    (checked : nestedGate.rules.findings tree nestedGate.draftRoot = .ok .none)
    : nestedGate.inspect tree = ⟨[], [], [], none⟩ := by
  exact inspect_of_walked stands walked (by decide) (by simp) (by decide +kernel)
    (List.Subset.refl _) checked

end Vetting.PromotionGate
