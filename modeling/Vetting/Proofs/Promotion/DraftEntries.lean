import Mathlib.Data.List.Sort
import Mathlib.Data.Prod.Lex
import Mathlib.Data.String.Basic
import Vetting.Proofs.Promotion.DraftFiles

/-! The entries of a draft and what is told of each of them. A walk through a draft comes to every entry
that is reached through directories whose names are texts, and comes to it once. It tells one thing of
it, unless it is a directory that the walk enters.
-/

namespace Vetting.DraftListing

open FileTree

-----------------------------------------------------------------------------------------
-- Entries and what is told of them
-----------------------------------------------------------------------------------------

/-- A name is a text. -/
def Legible (name : Bytes) : Prop :=
  ∃ text : String, name = Path.bytesOf text

/-- An entry below a place is reached along a way through directories whose names are texts. -/
structure Reached (tree : FileTree) (place : Place) (way : List Bytes) (entry : Entry) : Prop where
  below : way ≠ []
  stands : tree.get? (place ++ way) = some entry
  through
    : ∀ front, front <+: way.dropLast → ∃ mode, tree.get? (place ++ front) = some (.directory mode)
  legible : ∀ name ∈ way.dropLast, Legible name

/-- The path of an entry whose names are texts: slashes stand between these, and for the backslashes in
them.
-/
def spelling (parts : List String) : String :=
  String.ofList (SafePath.withSlashes (Text.joinWith "/" parts).toList)

/-- What is told of an entry, if anything. -/
inductive Gives : List Bytes → Entry → Option Found → Prop
  /-- A name is no text, be it that of a directory. -/
  | illegible {way entry} (unread : ∃ name ∈ way, ¬ Legible name)
    : Gives way entry (some (.refused (Path.textOf (joined way)) .notText))
  | directory {parts : List String} {mode}
    : Gives (parts.map Path.bytesOf) (.directory mode) none
  | link {parts : List String} {target}
    : Gives (parts.map Path.bytesOf) (.link target) (some (.refused (spelling parts) .link))
  | special {parts : List String}
    : Gives (parts.map Path.bytesOf) .special (some (.refused (spelling parts) .notRegular))
  | file {parts : List String} {content mode normal}
    (safe : SafePath.normalize (spelling parts) = .ok normal)
    : Gives (parts.map Path.bytesOf) (.file content mode) (some (.file normal))
  | unsafeFile {parts : List String} {content mode flawed}
    (flaw : SafePath.normalize (spelling parts) = .error flawed)
    : Gives (parts.map Path.bytesOf) (.file content mode)
        (some (.refused (spelling parts) (.unsafePath flawed)))

/-- What a walk tells of an entry, if anything. -/
def foundAt? (way : List Bytes) (entry : Entry) : Option Found :=
  match pathOf? way with
  | none => some (.refused (Path.textOf (joined way)) .notText)
  | some path => if entry.isDirectory then none else some (inspect path entry)

variable {tree other : FileTree} {place : Place} {depth : Nat} {way above : List Bytes}
  {entry : Entry}

/-- All names of a way are texts when it is made of texts, by induction on it. -/
theorem legible_iff
    : (∀ name ∈ way, Legible name) ↔ ∃ parts : List String, way = parts.map Path.bytesOf := by
  constructor
  · intro legible
    induction way with
    | nil => exact ⟨[], rfl⟩
    | cons name rest ih =>
        obtain ⟨⟨text, rfl⟩, others⟩ := List.forall_mem_cons.mp legible
        obtain ⟨parts, rfl⟩ := ih others
        exact ⟨text :: parts, rfl⟩
  · rintro ⟨parts, rfl⟩ name member
    obtain ⟨text, _, rfl⟩ := List.mem_map.mp member
    exact ⟨text, rfl⟩

/-- A way has a path when its names are texts. -/
theorem isSome_pathOf?_iff (below : way ≠ []) (noSlash : ∀ name ∈ way, Path.slash ∉ name)
    : (pathOf? way).isSome = true ↔ ∀ name ∈ way, Legible name := by
  rw [legible_iff, Option.isSome_iff_exists]
  simp only [pathOf?_eq_some below noSlash]
  constructor
  · intro ⟨_, parts, same, _⟩
    exact ⟨parts, same⟩
  · intro ⟨parts, same⟩
    exact ⟨_, parts, same, rfl⟩

/-- A walk tells of an entry what is to be told of it. -/
theorem gives_foundAt? (below : way ≠ []) (noSlash : ∀ name ∈ way, Path.slash ∉ name)
    : Gives way entry (foundAt? way entry) := by
  by_cases legible : ∀ name ∈ way, Legible name
  · obtain ⟨parts, rfl⟩ := legible_iff.mp legible
    unfold foundAt?
    rw [pathOf?_texts]
    cases entry with
    | directory mode => exact .directory
    | link target => exact .link
    | special => exact .special
    | file content mode =>
        simp only [inspect, Entry.isDirectory]
        cases normal : SafePath.normalize (spelling parts) with
        | ok path =>
            rw [spelling] at normal
            rw [normal]
            exact .file normal
        | error flawed =>
            rw [spelling] at normal
            rw [normal]
            exact .unsafeFile normal
  · have absent : pathOf? way = none := by
      rw [← Option.not_isSome_iff_eq_none, isSome_pathOf?_iff below noSlash]
      exact legible
    unfold foundAt?
    rw [absent]
    exact .illegible (by simpa using legible)

-----------------------------------------------------------------------------------------
-- Surveys
-----------------------------------------------------------------------------------------

/-- The entries that a walk comes to, at most to a depth, with the ways to them. -/
def survey (tree : FileTree) (place : Place) : Nat → List Bytes → List (List Bytes × Entry)
  | 0, _ => []
  | depth + 1, above =>
      (tree.children (place ++ above)).flatMap fun (name, entry) =>
        (above ++ [name], entry)
        :: if (foundAt? (above ++ [name]) entry).isNone then
            survey tree place depth (above ++ [name])
          else []

/-- A walk enters an entry when this is a directory whose names are texts. -/
theorem foundAt?_eq_none
    : foundAt? way entry = none
      ↔ (pathOf? way).isSome = true ∧ ∃ mode, entry = .directory mode := by
  unfold foundAt?
  cases pathOf? way <;> cases entry <;> simp [Entry.isDirectory]

/-- A walk tells what is to be told of the entries that it comes to, by induction on the depth. -/
theorem walk_eq_survey
    : walk tree depth (place ++ above) above
      = (survey tree place depth above).filterMap fun arrived => foundAt? arrived.1 arrived.2 := by
  induction depth generalizing above with
  | zero => rfl
  | succ depth ih =>
      rw [walk, survey, List.filterMap_flatMap]
      congr 1
      funext child
      obtain ⟨name, entry⟩ := child
      simp only [List.append_assoc, ih, List.filterMap_cons]
      cases told : foundAt? (above ++ [name]) entry with
      | none =>
          obtain ⟨named, mode, rfl⟩ := foundAt?_eq_none.mp told
          obtain ⟨path, named⟩ := Option.isSome_iff_exists.mp named
          simp [named]
      | some found =>
          unfold foundAt? at told
          cases named : pathOf? (above ++ [name]) with
          | none => simpa [named] using told
          | some path =>
              rw [named] at told
              cases entry <;> simp_all [Entry.isDirectory]

/-- A walk through a draft tells what is to be told of the entries that it comes to. -/
theorem walk_draft (tree : FileTree) (depth : Nat) (place : Place)
    : walk tree depth place []
      = (survey tree place depth []).filterMap fun arrived => foundAt? arrived.1 arrived.2 := by
  rw [← walk_eq_survey, List.append_nil]

/-- A walk comes to the entries that stand below a directory, not too deep and behind directories whose
names are texts, by induction on the depth.
-/
theorem mem_survey (wf : tree.WellFormed)
    : (way, entry) ∈ survey tree place depth above
      ↔ ∃ tail,
          way = above ++ tail
          ∧ tail ≠ []
          ∧ tail.length ≤ depth
          ∧ tree.get? (place ++ way) = some entry
          ∧ ∀ front, front ≠ [] → front <+: tail.dropLast → (pathOf? (above ++ front)).isSome := by
  induction depth generalizing above with
  | zero =>
      simp only [survey, List.not_mem_nil, false_iff]
      rintro ⟨tail, _, nonempty, short, _⟩
      exact nonempty (List.length_eq_zero_iff.mp (Nat.le_zero.mp short))
  | succ depth ih =>
      simp only [survey, List.mem_flatMap, Prod.exists, wf.mem_children]
      constructor
      · rintro ⟨name, child, stands, listed⟩
        rcases List.mem_cons.mp listed with same | inside
        · obtain ⟨rfl, rfl⟩ := Prod.mk.inj same
          refine ⟨[name], rfl, by simp, by simp, by simpa using stands, ?_⟩
          exact fun front some isFront => absurd (List.prefix_nil.mp isFront) some
        · obtain ⟨entered, inside⟩ := List.mem_ite_nil_right.mp inside
          obtain ⟨tail, rfl, nonempty, short, found, named⟩ := ih.mp inside
          have entered := foundAt?_eq_none.mp (Option.isNone_iff_eq_none.mp entered)
          refine ⟨name :: tail, by simp, by simp, by simpa using short, found, ?_⟩
          intro front some isFront
          rw [List.dropLast_cons_of_ne_nil nonempty] at isFront
          cases front with
          | nil => exact absurd rfl some
          | cons first rest =>
              obtain ⟨rfl, further⟩ := List.cons_prefix_cons.mp isFront
              by_cases last : rest = []
              · rw [last]
                exact entered.1
              · simpa using named rest last further
      · rintro ⟨tail, rfl, nonempty, short, found, named⟩
        cases tail with
        | nil => exact absurd rfl nonempty
        | cons name rest =>
            by_cases last : rest = []
            · subst last
              exact ⟨name, entry, by simpa using found, List.mem_cons_self⟩
            · have split : place ++ (above ++ name :: rest)
                  = (place ++ (above ++ [name])) ++ rest := by simp
              obtain ⟨mode, directory⟩ := wf.above last (split ▸ found)
              rw [List.dropLast_cons_of_ne_nil last] at named
              have told : foundAt? (above ++ [name]) (.directory mode) = none :=
                foundAt?_eq_none.mpr ⟨named [name] (by simp) (by simp), mode, rfl⟩
              refine ⟨name, .directory mode, by simpa using directory, List.mem_cons_of_mem _ ?_⟩
              rw [told]
              apply ih.mpr
              refine ⟨rest, by simp, last, by simpa using short, found, ?_⟩
              intro front some isFront
              simpa using named (name :: front) (by simp) (by simpa using isFront)

/-- What stands in a directory has different names. -/
theorem nodup_children (wf : tree.WellFormed) (place : Place)
    : ((tree.children place).map Prod.fst).Nodup := by
  have names : (tree.children place).map Prod.fst
      = (tree.entries.map Prod.fst).filterMap (nameIn? place) := by
    rw [children, List.map_filterMap, List.filterMap_map]
    congr 1
    funext e
    simp [Function.comp_def]
  rw [names]
  apply List.Nodup.filterMap _ wf.unique
  intro one two name first second
  rw [nameIn?_eq_some.mp first, nameIn?_eq_some.mp second]

/-- A walk comes to no entry twice, by induction on the depth. -/
theorem nodup_survey (wf : tree.WellFormed)
    : ((survey tree place depth above).map Prod.fst).Nodup := by
  induction depth generalizing above with
  | zero => simp [survey]
  | succ depth ih =>
      rw [survey, List.map_flatMap, List.nodup_flatMap]
      constructor
      · rintro ⟨name, entry⟩ _
        refine List.nodup_cons.mpr ⟨?_, ?_⟩
        · intro again
          obtain ⟨⟨_, other⟩, listed, rfl⟩ := List.mem_map.mp again
          obtain ⟨_, inside⟩ := List.mem_ite_nil_right.mp listed
          obtain ⟨tail, same, nonempty, _⟩ := (mem_survey wf).mp inside
          exact nonempty (List.self_eq_append_right.mp same)
        · split
          · exact ih
          · exact List.nodup_nil
      · -- What stands in a directory and what is reached through it start with different names.
        have starts {child : Bytes × Entry} {way : List Bytes}
            (listed : way ∈ ((above ++ [child.1], child.2)
              :: if (foundAt? (above ++ [child.1]) child.2).isNone then
                  survey tree place depth (above ++ [child.1])
                else []).map Prod.fst)
            : above ++ [child.1] <+: way := by
          obtain ⟨⟨_, other⟩, member, rfl⟩ := List.mem_map.mp listed
          rcases List.mem_cons.mp member with same | inside
          · obtain ⟨rfl, _⟩ := Prod.mk.inj same
            exact List.prefix_rfl
          · obtain ⟨_, inside⟩ := List.mem_ite_nil_right.mp inside
            obtain ⟨tail, rfl, _⟩ := (mem_survey wf).mp inside
            exact List.prefix_append _ _
        refine (List.pairwise_map.mp (nodup_children wf (place ++ above))).imp ?_
        intro one two different way first second
        apply different
        have same := List.prefix_of_prefix_length_le (starts first) (starts second) (by simp)
        simpa using List.append_cancel_left (same.eq_of_length (by simp))

/-- A walk comes to the same entries whatever the order is in which a tree lists them, by induction on
the depth.
-/
theorem survey_perm (same : other.entries.Perm tree.entries)
    : (survey other place depth above).Perm (survey tree place depth above) := by
  induction depth generalizing above with
  | zero => exact .refl _
  | succ depth ih =>
      unfold survey
      refine List.Perm.flatMap (same.filterMap _) ?_
      rintro ⟨name, entry⟩ _
      refine List.Perm.cons _ ?_
      split
      · exact ih
      · exact .refl _

/-- A walk through a whole draft comes to the entries that are reached. -/
theorem mem_survey_iff_reached (wf : tree.WellFormed) (named : tree.Named)
    : (way, entry) ∈ survey tree place tree.entries.length [] ↔ Reached tree place way entry := by
  rw [mem_survey wf]
  constructor
  · rintro ⟨_, rfl, nonempty, _, found, entered⟩
    have proper name (member : name ∈ way) :=
      named.get? found name (List.mem_append_right _ member)
    refine ⟨nonempty, found, ?_, ?_⟩
    · intro front isFront
      obtain ⟨rest, rfl⟩ := isFront.trans (List.dropLast_prefix way)
      have further : rest ≠ [] := by
        rintro rfl
        have short := isFront.length_le
        have long := List.length_pos_of_ne_nil nonempty
        simp only [List.append_nil, List.length_dropLast] at short long
        omega
      rw [← List.append_assoc] at found
      exact wf.above further found
    · intro name member
      have some := List.ne_nil_of_mem member
      refine (isSome_pathOf?_iff some fun name inside => ?_).mp (entered _ some List.prefix_rfl)
        name member
      exact (proper name (List.dropLast_subset way inside)).noSlash
  · rintro ⟨nonempty, stands, _, legible⟩
    refine ⟨way, rfl, nonempty, length_le_of_get? wf stands, stands, ?_⟩
    intro front some isFront
    have inside := isFront.subset
    refine (isSome_pathOf?_iff some fun name member => ?_).mpr fun name member =>
      legible name (inside member)
    exact (named.get? stands name (List.mem_append_right _
      (List.dropLast_subset way (inside member)))).noSlash

-----------------------------------------------------------------------------------------
-- Listings of what is found
-----------------------------------------------------------------------------------------

/-- The path that is listed for a file. -/
def Found.path? : Found → Option String
  | .file path => some path
  | .refused _ _ => none

/-- The path that is listed with its refusal. -/
def Found.refusal? : Found → Option (String × Refusal)
  | .file _ => none
  | .refused path refusal => some (path, refusal)

/-- What refusals are sorted by: their paths and, for one path, their wordings. -/
def sortKey (refused : String × Refusal) : String ×ₗ String :=
  toLex (refused.1, refused.2.reason)

/-- The files and the refusals of a listing are sorted. -/
structure Sorted (listing : DraftListing) : Prop where
  files : listing.files.Pairwise (· ≤ ·)
  refused : listing.refused.Pairwise fun one two => sortKey one ≤ sortKey two

/-- A refusal for an unsafe path tells the path that is listed with it. -/
def Found.IsSpelled (found : Found) : Prop :=
  ∀ path unsafePath, found = .refused path (.unsafePath unsafePath) → unsafePath.written = path

/-- What a walk tells of an entry is spelled as the entry is. -/
theorem isSpelled_foundAt? {found : Found} (told : foundAt? way entry = some found)
    : found.IsSpelled := by
  rintro path unsafePath rfl
  unfold foundAt? at told
  split at told
  · simp at told
  · cases entry with
    | file content mode =>
        simp only [Entry.isDirectory, inspect, Bool.false_eq_true, if_false, Option.some.injEq] at told
        split at told
        · simp at told
        · rename_i refused
          obtain ⟨rfl, same⟩ := Found.refused.inj told
          rw [← Refusal.unsafePath.inj same]
          exact SafePath.written_of_normalize refused
    | directory | link | special => simp [Entry.isDirectory, inspect] at told

/-- What a walk finds is spelled as the entries are. -/
theorem isSpelled_walk (found : Found) (member : found ∈ walk tree depth place [])
    : found.IsSpelled := by
  rw [walk_draft] at member
  obtain ⟨_, _, told⟩ := List.mem_filterMap.mp member
  exact isSpelled_foundAt? told

/-- Different flaws are worded differently. -/
theorem eq_of_reason_flaw : ∀ one two : PathFlaw, one.reason = two.reason → one = two := by
  intro one two
  cases one <;> cases two <;> decide

/-- Refusals with one path and one wording are the same. -/
theorem Found.IsSpelled.eq_of_reason {path : String} {one two : Refusal}
    (first : IsSpelled (.refused path one)) (second : IsSpelled (.refused path two))
    (same : one.reason = two.reason)
    : one = two := by
  have unsafeStart (unsafePath : UnsafePath)
      : (Refusal.unsafePath unsafePath).reason.toList.head? = some 'u' := by
    simp [Refusal.reason, UnsafePath.message]
  have start := congrArg (fun reason => reason.toList.head?) same
  cases one with
  | unsafePath flawed =>
      simp only [unsafeStart] at start
      cases two with
      | unsafePath other =>
          obtain ⟨written, flaw⟩ := flawed
          obtain ⟨written', flaw'⟩ := other
          obtain rfl : written = path := first _ _ rfl
          obtain rfl : written' = written := second _ _ rfl
          simp only [Refusal.reason, UnsafePath.message, String.append_right_inj] at same
          rw [eq_of_reason_flaw _ _ same]
      | notText | link | notRegular => exact absurd start (by decide)
  | notText | link | notRegular =>
      cases two with
      | unsafePath other => exact absurd start (by rw [unsafeStart]; decide)
      | notText | link | notRegular =>
          first
          | rfl
          | exact absurd same (by decide)

/-- Refusals are compared by their paths and then by their wording. -/
theorem compared_iff {one two : String × Refusal}
    : (if one.1 == two.1 then decide (one.2.reason ≤ two.2.reason) else decide (one.1 ≤ two.1)) = true
      ↔ sortKey one ≤ sortKey two := by
  rw [sortKey, sortKey, Prod.Lex.toLex_le_toLex]
  by_cases same : one.1 = two.1
  · simp [same]
  · simp [same, lt_iff_le_and_ne]

/-- The files that are found are listed. -/
theorem files_ofFound (found : List Found)
    : (ofFound found).files.Perm (found.filterMap Found.path?) := by
  refine (List.mergeSort_perm _ _).trans (.of_eq ?_)
  congr 1

theorem refused_ofFound (found : List Found)
    : (ofFound found).refused.Perm (found.filterMap Found.refusal?) := by
  refine (List.mergeSort_perm _ _).trans (.of_eq ?_)
  congr 1

theorem sorted_ofFound (found : List Found) : (ofFound found).Sorted := by
  constructor
  · exact List.pairwise_mergeSort' (· ≤ ·) _
  · refine (List.pairwise_mergeSort ?_ ?_ _).imp compared_iff.mp
    · intro one two three
      simp only [compared_iff]
      exact le_trans
    · intro one two
      rw [Bool.or_eq_true, compared_iff, compared_iff]
      exact le_total _ _

theorem mem_refused_ofFound {found : List Found} {path : String} {refusal : Refusal}
    : (path, refusal) ∈ (ofFound found).refused ↔ .refused path refusal ∈ found := by
  rw [(refused_ofFound found).mem_iff, List.mem_filterMap]
  constructor
  · rintro ⟨one, member, listed⟩
    cases one with
    | file _ => exact absurd listed (by simp [Found.refusal?])
    | refused =>
        obtain ⟨rfl, rfl⟩ := Prod.mk.inj (Option.some.inj listed)
        exact member
  · exact fun member => ⟨_, member, rfl⟩

/-- The listing does not depend on the order in which entries are found. -/
theorem ofFound_perm {found other : List Found} (same : found.Perm other)
    (spelled : ∀ one ∈ found, one.IsSpelled)
    : ofFound found = ofFound other := by
  have files : (ofFound found).files = (ofFound other).files := by
    apply List.Perm.eq_of_pairwise _ (sorted_ofFound found).files (sorted_ofFound other).files
    · exact (files_ofFound found).trans ((same.filterMap _).trans (files_ofFound other).symm)
    · exact fun one two _ _ => le_antisymm
  have refused : (ofFound found).refused = (ofFound other).refused := by
    apply List.Perm.eq_of_pairwise _ (sorted_ofFound found).refused (sorted_ofFound other).refused
    · exact (refused_ofFound found).trans ((same.filterMap _).trans (refused_ofFound other).symm)
    · rintro ⟨path, one⟩ ⟨path', two⟩ first second before after
      obtain ⟨rfl, reason⟩ := Prod.mk.inj (toLex.injective (le_antisymm before after))
      have member := same.mem_iff.mpr (mem_refused_ofFound.mp second)
      rw [Found.IsSpelled.eq_of_reason (spelled _ (mem_refused_ofFound.mp first))
        (spelled _ member) reason]
  cases one : ofFound found
  cases two : ofFound other
  simp_all

end Vetting.DraftListing
