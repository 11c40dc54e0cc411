import Vetting.Proofs.Files.Alike
import Vetting.Proofs.Files.Relocation
import Vetting.Proofs.Files.Setup
import Vetting.Proofs.Promotion.DraftEntries

/-! Walks through a draft with a work list. The directories that are still to be read are kept in a list,
and each of them gives its entries in an order of its own. Whatever these orders are, all that is
reached has been seen when the list is empty, and each entry once.
-/

namespace Vetting.DraftListing

open FileTree

-----------------------------------------------------------------------------------------
-- Reading directories
-----------------------------------------------------------------------------------------

/-- What a walk knows: the ways to the directories that are still to be read, the next one first, and
what it has found.
-/
structure Progress where
  pending : List (List Bytes)
  found : List Found

/-- An entry of a directory is noted, as one to be read or with what is told of it. -/
def Progress.note (above : List Bytes) (progress : Progress) (child : Bytes × Entry) : Progress :=
  match foundAt? (above ++ [child.1]) child.2 with
  | none => { progress with pending := (above ++ [child.1]) :: progress.pending }
  | some found => { progress with found := progress.found ++ [found] }

/-- A walk has read directories one after another, each of which gave its entries in some order. -/
inductive Reads (tree : FileTree) (place : Place) : List (List Bytes) → Progress → Prop
  | start : Reads tree place [] ⟨[[]], []⟩
  | next {read above pending found} {children : List (Bytes × Entry)}
    (earlier : Reads tree place read ⟨above :: pending, found⟩)
    (given : children.Perm (tree.children (place ++ above)))
    : Reads tree place (read ++ [above])
        (children.foldl (Progress.note above) ⟨pending, found⟩)

/-- An entry of a directory with the way to it. -/
def arrival (above : List Bytes) (child : Bytes × Entry) : List Bytes × Entry :=
  (above ++ [child.1], child.2)

/-- Whether an entry is a directory to be read. -/
def isEntered (arrived : List Bytes × Entry) : Bool :=
  (foundAt? arrived.1 arrived.2).isNone

variable {tree other : FileTree} {place : Place} {way above : List Bytes} {entry : Entry}
  {read : List (List Bytes)} {progress : Progress} {seen : List (List Bytes × Entry)}

/-- The entries of a directory are noted one after another, by induction on them. -/
theorem foldl_note (children : List (Bytes × Entry))
    : children.foldl (Progress.note above) progress
      = ⟨(((children.map (arrival above)).filter isEntered).map Prod.fst).reverse
          ++ progress.pending,
        progress.found
          ++ (children.map (arrival above)).filterMap fun arrived =>
              foundAt? arrived.1 arrived.2⟩ := by
  induction children generalizing progress with
  | nil => simp
  | cons child rest ih =>
      rw [List.foldl_cons, ih, List.map_cons, List.filter_cons, List.filterMap_cons]
      unfold Progress.note
      cases told : foundAt? (above ++ [child.1]) child.2 <;> simp [arrival, isEntered, told]

-----------------------------------------------------------------------------------------
-- What is still to be seen
-----------------------------------------------------------------------------------------

/-- What is still to be seen when a directory is to be read. -/
def outstanding (tree : FileTree) (place : Place) (above : List Bytes)
    : List (List Bytes × Entry) :=
  survey tree place (tree.entries.length - above.length) above

/-- When a directory is read, what is still to be seen are its entries and what is to be seen in those
that are entered.
-/
theorem outstanding_eq (wf : tree.WellFormed) (above : List Bytes)
    : outstanding tree place above
      = (tree.children (place ++ above)).flatMap fun child =>
          arrival above child
          :: if isEntered (arrival above child) then outstanding tree place (above ++ [child.1])
            else [] := by
  unfold outstanding
  cases left : tree.entries.length - above.length with
  | zero =>
      -- A place that is as deep as the tree has entries has none below it.
      have none : tree.children (place ++ above) = [] := by
        apply List.eq_nil_iff_forall_not_mem.mpr
        rintro ⟨name, entry⟩ listed
        have found := wf.mem_children.mp listed
        rw [List.append_assoc] at found
        have long := length_le_of_get? wf found
        rw [List.length_append, List.length_singleton] at long
        omega
      rw [none]
      rfl
  | succ depth =>
      have deeper (name : Bytes) : tree.entries.length - (above ++ [name]).length = depth := by
        rw [List.length_append, List.length_singleton]
        omega
      simp only [deeper]
      rfl

/-- The frontier of a walk: what it has seen and what it would still see make up all entries that are
reached, and the directories that are read or to be read are those that have been seen.
-/
structure Frontier (tree : FileTree) (place : Place) (read : List (List Bytes))
    (progress : Progress) (seen : List (List Bytes × Entry))
    : Prop where
  complete
    : (seen ++ progress.pending.flatMap (outstanding tree place)).Perm
        (survey tree place tree.entries.length [])
  told : progress.found = seen.filterMap fun arrived => foundAt? arrived.1 arrived.2
  directories : (read ++ progress.pending).Perm ([] :: (seen.filter isEntered).map Prod.fst)

/-- Before a walk, all is still to be seen. -/
theorem frontier_start : Frontier tree place [] ⟨[[]], []⟩ [] where
  complete := by simp [outstanding]
  told := rfl
  directories := .refl _

/-- A walk that reads a directory goes on to have seen its entries. -/
theorem Frontier.next (wf : tree.WellFormed) {pending : List (List Bytes)} {found : List Found}
    {children : List (Bytes × Entry)}
    (frontier : Frontier tree place read ⟨above :: pending, found⟩ seen)
    (given : children.Perm (tree.children (place ++ above)))
    : Frontier tree place (read ++ [above])
        (children.foldl (Progress.note above) ⟨pending, found⟩)
        (seen ++ children.map (arrival above)) := by
  rw [foldl_note]
  let entered := ((children.map (arrival above)).filter isEntered).map Prod.fst
  have onward
      : (children.map (arrival above) ++ entered.reverse.flatMap (outstanding tree place)).Perm
          (outstanding tree place above) := by
    have inside
        : entered.flatMap (outstanding tree place)
          = children.flatMap fun child =>
              if isEntered (arrival above child) then outstanding tree place (above ++ [child.1])
              else [] := by
      simp only [entered, List.flatMap_map, List.flatMap_filter]
      rfl
    rw [outstanding_eq wf]
    refine ((List.reverse_perm entered).flatMap_right _).append_left _ |>.trans ?_
    rw [inside]
    exact (List.map_append_flatMap_perm children _ _).trans (given.flatMap_right _)
  constructor
  · refine List.Perm.trans ?_ frontier.complete
    rw [List.append_assoc, List.flatMap_append, List.flatMap_cons]
    refine List.Perm.append_left seen ?_
    rw [← List.append_assoc]
    exact onward.append_right _
  · rw [List.filterMap_append, ← frontier.told]
  · rw [List.filter_append, List.map_append]
    change (read ++ [above] ++ (entered.reverse ++ pending)).Perm (_ :: (_ ++ entered))
    have before := frontier.directories.append_right entered
    refine List.Perm.trans ?_ before
    simp only [List.append_assoc]
    refine List.Perm.append_left read (List.Perm.append_left [above] ?_)
    exact List.perm_append_comm.trans (List.Perm.append_left pending (List.reverse_perm entered))

/-- Every walk has a frontier, by induction on the directories that it has read. -/
theorem Reads.frontier (wf : tree.WellFormed) (walk : Reads tree place read progress)
    : ∃ seen, Frontier tree place read progress seen := by
  induction walk with
  | start => exact ⟨[], frontier_start⟩
  | next _ given ih =>
      obtain ⟨seen, frontier⟩ := ih
      exact ⟨_, frontier.next wf given⟩

-----------------------------------------------------------------------------------------
-- Walks from start to end
-----------------------------------------------------------------------------------------

/-- A walk comes to as many entries as a tree has at most. -/
theorem length_survey_le (wf : tree.WellFormed)
    : (survey tree place tree.entries.length []).length ≤ tree.entries.length := by
  let ways := (survey tree place tree.entries.length []).map Prod.fst
  have distinct : (ways.map (place ++ ·)).Nodup :=
    (nodup_survey wf).map (List.append_right_injective place)
  have listed : ways.map (place ++ ·) ⊆ tree.entries.map Prod.fst := by
    intro _ member
    obtain ⟨_, inside, rfl⟩ := List.mem_map.mp member
    obtain ⟨⟨way, entry⟩, arrived, rfl⟩ := List.mem_map.mp inside
    obtain ⟨_, rfl, nonempty, _, found, _⟩ := (mem_survey wf).mp arrived
    exact List.mem_map.mpr ⟨_, mem_of_get? (by simp [nonempty]) found, rfl⟩
  simpa [ways] using (List.subperm_of_subset distinct listed).length_le

/-- What a walk has seen it comes to, and once. -/
theorem Frontier.seen_subperm (frontier : Frontier tree place read progress seen)
    : seen.Subperm (survey tree place tree.entries.length []) :=
  (List.sublist_append_left _ _).subperm.trans frontier.complete.subperm

/-- A walk reads no directory twice. -/
theorem Frontier.nodup (wf : tree.WellFormed) (frontier : Frontier tree place read progress seen)
    : (read ++ progress.pending).Nodup := by
  rw [frontier.directories.nodup_iff, List.nodup_cons]
  constructor
  · intro member
    obtain ⟨⟨_, entry⟩, chosen, rfl⟩ := List.mem_map.mp member
    have inside := frontier.seen_subperm.subset (List.mem_filter.mp chosen).1
    obtain ⟨_, rfl, nonempty, _⟩ := (mem_survey wf).mp inside
    exact nonempty rfl
  · obtain ⟨_, same, part⟩ := frontier.seen_subperm
    have ways := (same.map Prod.fst).nodup_iff.mp ((nodup_survey wf).sublist (part.map _))
    exact ways.sublist (List.filter_sublist.map _)

/-- What a walk has read or is to read are the draft itself and the directories that it has seen and
enters.
-/
theorem Frontier.mem_directories (frontier : Frontier tree place read progress seen)
    : way ∈ read ++ progress.pending
      ↔ way = [] ∨ ∃ entry, (way, entry) ∈ seen ∧ foundAt? way entry = none := by
  rw [frontier.directories.mem_iff]
  simp [isEntered]

/-- A walk enters the directories that it reaches and whose names are texts. -/
theorem Reached.entered_iff (named : tree.Named) (reached : Reached tree place way entry)
    : foundAt? way entry = none
      ↔ (∀ name ∈ way, Legible name) ∧ ∃ mode, entry = .directory mode := by
  rw [foundAt?_eq_none, isSome_pathOf?_iff reached.below]
  intro name member
  exact (named.get? reached.stands name (List.mem_append_right _ member)).noSlash

/-- A walk that leads to a listing: it reads no directory twice, so that it comes to an end, and all that
is left to be read are directories; in the end it has read those that are to be entered, and has found
what is listed.
-/
structure Approaches (tree : FileTree) (place : Place) (read : List (List Bytes))
    (progress : Progress) (listing : DraftListing)
    : Prop where
  once : read.Nodup
  bounded : read.length ≤ tree.entries.length + 1
  readable : ∀ way ∈ progress.pending, ∃ mode, tree.get? (place ++ way) = some (.directory mode)
  entered
    : progress.pending = []
      → ∀ way,
          way ∈ read
          ↔ way = []
            ∨ ∃ mode, Reached tree place way (.directory mode) ∧ ∀ name ∈ way, Legible name
  listed : progress.pending = [] → ofFound progress.found = listing

/-- Every walk leads to the listing of all that is reached. -/
theorem Reads.approaches (wf : tree.WellFormed) (named : tree.Named) {mode : Nat}
    (directory : tree.get? place = some (.directory mode))
    (walk : Reads tree place read progress)
    : Approaches tree place read progress
        (ofFound (DraftListing.walk tree tree.entries.length place [])) := by
  obtain ⟨seen, frontier⟩ := walk.frontier wf
  have reached {way entry} (member : (way, entry) ∈ seen) : Reached tree place way entry :=
    (mem_survey_iff_reached wf named).mp (frontier.seen_subperm.subset member)
  constructor
  · exact frontier.nodup wf |>.sublist (List.sublist_append_left _ _)
  · have directories := frontier.directories.length_eq
    have chosen := List.length_filter_le isEntered seen
    have all := frontier.seen_subperm.length_le.trans (length_survey_le wf)
    simp only [List.length_append, List.length_cons, List.length_map] at directories
    omega
  · intro way member
    rcases frontier.mem_directories.mp (List.mem_append_right _ member) with
      rfl | ⟨entry, inside, enters⟩
    · exact ⟨mode, by simpa using directory⟩
    · obtain ⟨_, mode, rfl⟩ := (reached inside).entered_iff named |>.mp enters
      exact ⟨mode, (reached inside).stands⟩
  · intro finished way
    have complete := frontier.complete
    rw [finished, List.flatMap_nil, List.append_nil] at complete
    rw [← List.append_nil read, ← finished, frontier.mem_directories]
    refine or_congr_right ⟨?_, ?_⟩
    · intro ⟨entry, inside, enters⟩
      obtain ⟨legible, mode, rfl⟩ := (reached inside).entered_iff named |>.mp enters
      exact ⟨mode, reached inside, legible⟩
    · intro ⟨mode, reached, legible⟩
      refine ⟨_, complete.mem_iff.mpr ((mem_survey_iff_reached wf named).mpr reached), ?_⟩
      exact (reached.entered_iff named).mpr ⟨legible, mode, rfl⟩
  · intro finished
    have complete := frontier.complete
    rw [finished, List.flatMap_nil, List.append_nil] at complete
    have found := complete.filterMap fun arrived => foundAt? arrived.1 arrived.2
    rw [← frontier.told, ← walk_draft] at found
    exact ofFound_perm found fun one member => isSpelled_walk one (found.mem_iff.mp member)

/-- Every walk can be brought to its end, by induction on how many directories may still be read. -/
theorem Reads.finishes (wf : tree.WellFormed) (named : tree.Named) {mode : Nat}
    (directory : tree.get? place = some (.directory mode))
    (walk : Reads tree place read progress)
    : ∃ further finish,
        Reads tree place (read ++ further) finish ∧ finish.pending = [] := by
  have bounded := (walk.approaches wf named directory).bounded
  obtain ⟨left, budget⟩ := Nat.exists_eq_add_of_le bounded
  obtain ⟨pending, found⟩ := progress
  induction left generalizing read pending found with
  | zero =>
      cases pending with
      | nil => exact ⟨[], _, by simpa using walk, rfl⟩
      | cons above rest =>
          have further := (walk.next (.refl _)).approaches wf named directory |>.bounded
          rw [List.length_append, List.length_singleton] at further
          omega
  | succ left ih =>
      cases pending with
      | nil => exact ⟨[], _, by simpa using walk, rfl⟩
      | cons above rest =>
          have onward := walk.next (.refl _)
          have further := (onward.approaches wf named directory).bounded
          have budget : tree.entries.length + 1 = (read ++ [above]).length + left := by
            rw [List.length_append, List.length_singleton]
            omega
          obtain ⟨others, finish, reads, finished⟩ := ih further budget _ _ onward
          exact ⟨above :: others, finish, by simpa using reads, finished⟩

/-- A listing accounts for the entries below a place: each entry that is reached gives what is told of
it, and the listing tells nothing else.
-/
def Accounts (listing : DraftListing) (tree : FileTree) (place : Place) : Prop :=
  ∃ (reached : List (List Bytes × Entry)) (given : List (Option Found)),
    (reached.map Prod.fst).Nodup
    ∧ (∀ way entry, (way, entry) ∈ reached ↔ Reached tree place way entry)
    ∧ List.Forall₂ (fun arrived told => Gives arrived.1 arrived.2 told) reached given
    ∧ listing.files.Perm (given.filterMap fun told => told.bind Found.path?)
    ∧ listing.refused.Perm (given.filterMap fun told => told.bind Found.refusal?)

/-- The listing of a walk through a whole draft accounts for what is reached. -/
theorem accounts_walk (wf : tree.WellFormed) (named : tree.Named)
    : (ofFound (walk tree tree.entries.length place [])).Accounts tree place := by
  let reached := survey tree place tree.entries.length []
  refine ⟨reached, reached.map fun arrived => foundAt? arrived.1 arrived.2, nodup_survey wf,
    fun way entry => mem_survey_iff_reached wf named, ?_, ?_, ?_⟩
  · rw [List.forall₂_map_right_iff, List.forall₂_same]
    rintro ⟨way, entry⟩ member
    have reached := (mem_survey_iff_reached wf named).mp member
    refine gives_foundAt? reached.below fun name inside => ?_
    exact (named.get? reached.stands name (List.mem_append_right _ inside)).noSlash
  · rw [walk_draft]
    refine (files_ofFound _).trans (.of_eq ?_)
    rw [List.filterMap_filterMap, List.filterMap_map]
    rfl
  · rw [walk_draft]
    refine (refused_ofFound _).trans (.of_eq ?_)
    rw [List.filterMap_filterMap, List.filterMap_map]
    rfl

/-- The listing of a draft is sorted and accounts for all that is reached below its place. It does not
depend on the order in which the entries of the tree are listed, and every walk with a work list, in
whatever order directories give their entries, leads to it.
-/
theorem collect_accounts (wf : tree.WellFormed) (named : tree.Named) {root : Path} {mode : Nat}
    (stands : tree.lookup true root = .ok (place, .directory mode))
    : ∃ listing,
        collect tree root = .ok listing
        ∧ listing.Sorted
        ∧ listing.Accounts tree place
        ∧ (∀ other : FileTree,
            other.here = tree.here
            → other.entries.Perm tree.entries
            → collect other root = .ok listing)
        ∧ ∀ read progress,
            Reads tree place read progress
            → Approaches tree place read progress listing
              ∧ ∃ further finish, Reads tree place (read ++ further) finish ∧ finish.pending = [] := by
  have collected : collect tree root = .ok (ofFound (walk tree tree.entries.length place [])) := by
    simp only [collect, stands]
  refine ⟨_, collected, sorted_ofFound _, accounts_walk wf named, ?_, ?_⟩
  · intro other here same
    have found
        : (walk other other.entries.length place []).Perm
            (walk tree tree.entries.length place []) := by
      rw [walk_draft, walk_draft, same.length_eq]
      exact (survey_perm same).filterMap _
    simp only [collect, wf.lookup_of_perm same here, stands, ofFound_perm found isSpelled_walk]
  · intro read progress reads
    have directory := (lookup_eq_ok.mp stands).2
    exact ⟨reads.approaches wf named directory, reads.finishes wf named directory⟩

/-- A draft with a file in a directory, a file at a home, a link to the directory, an entry that is no
file, and a file in a directory whose name is no text.
-/
def mixedEdits : List Edit :=
  [.write (.ofString "draft/a/b") (Path.bytesOf "new") none,
    .write (.ofString "draft/~") (Path.bytesOf "home") none,
    .makeLink (.ofString "draft/c") (.ofString "a"),
    .makeSpecial (.ofString "draft/d"),
    .write ⟨Path.bytesOf "draft/" ++ [0xFF] ++ Path.bytesOf "/e"⟩ (Path.bytesOf "lost") none]

/-- The tree that these edits make. -/
@[irreducible] def mixedTree : FileTree :=
  (Edit.applyAll .empty mixedEdits).toOption.getD .empty

theorem mixedTree_made : Edit.applyAll .empty mixedEdits = .ok mixedTree := by
  decide +kernel

/-- The file in the directory is listed, and the other entries are refused, each for its reason. -/
theorem collect_accounts_mixed
    : ∃ listing,
        collect mixedTree (.ofString "draft") = .ok listing
        ∧ listing.files = ["a/b"]
        ∧ listing.refused.Perm
            [("~", .unsafePath ⟨"~", .homeRelative⟩), ("c", .link), ("d", .notRegular),
              ("\uFFFD", .notText)]
        ∧ listing.Sorted
        ∧ ∃ read finish,
            Reads mixedTree [Path.bytesOf "work", Path.bytesOf "draft"] read finish
            ∧ finish.pending = []
            ∧ ofFound finish.found = listing := by
  have wf := Edit.wellFormed_applyAll wellFormed_empty mixedTree_made
  have named := Edit.named_applyAll named_empty mixedTree_made
  have stands
      : mixedTree.lookup true (.ofString "draft")
        = .ok ([Path.bytesOf "work", Path.bytesOf "draft"], .directory Entry.directoryMode) := by
    decide +kernel
  have walked
      : walk mixedTree mixedTree.entries.length [Path.bytesOf "work", Path.bytesOf "draft"] []
        = [.file "a/b", .refused "~" (.unsafePath ⟨"~", .homeRelative⟩), .refused "c" .link,
            .refused "d" .notRegular, .refused "\uFFFD" .notText] := by
    decide +kernel
  obtain ⟨listing, collected, sorted, _, _, ends⟩ := collect_accounts wf named stands
  obtain ⟨_, read, finish, reads, finished⟩ := ends _ _ .start
  have same := collected
  simp only [collect, stands, walked, Except.ok.injEq] at same
  refine ⟨listing, collected, ?_, ?_, sorted, _, finish, reads, finished,
    (ends _ _ reads).1.listed finished⟩
  · exact List.perm_singleton.mp (same ▸ files_ofFound _)
  · exact same ▸ refused_ofFound _

end Vetting.DraftListing
