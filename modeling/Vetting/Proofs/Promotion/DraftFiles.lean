import Mathlib.Data.List.Perm.Subperm
import Vetting.Promotion.Listing
import Vetting.Proofs.Files.Naming
import Vetting.Proofs.Promotion.Validation
import Vetting.Proofs.Text.Pieces

/-! The files that the listing of a draft tells. Each of them is a regular file below the place of the
draft, told by the normal form of its names; every such file whose names are a text is told or
refused. Names have the path that they are written with, unless there are backslashes in them.
-/

namespace Vetting

open FileTree

-----------------------------------------------------------------------------------------
-- Texts with slashes
-----------------------------------------------------------------------------------------

namespace Text

theorem mem_encode_of_mem {text : List Char} {c : Char} (small : c.val.toNat < 0x80)
    (member : c ∈ text)
    : UInt8.ofNat c.val.toNat ∈ encode text := by
  refine List.mem_flatMap.mpr ⟨c, member, ?_⟩
  unfold String.utf8EncodeChar
  simp only
  rw [if_pos (by omega)]
  exact List.mem_singleton_self _

end Text

namespace DraftListing

theorem bytesOf_joinWith (parts : List String)
    : Path.bytesOf (Text.joinWith "/" parts) = joined (parts.map Path.bytesOf) := by
  rw [Path.bytesOf, Text.toList_joinWith, joined]
  change Text.encode (['/'].intercalate _) = _
  induction parts with
  | nil => rfl
  | cons part rest ih =>
      cases rest with
      | nil => simp [Path.bytesOf]
      | cons next more =>
          rw [List.map_cons, List.map_cons, List.intercalate_cons_cons, Text.encode_append,
            Text.encode_append, ← List.map_cons, ih]
          exact List.intercalate_cons_cons.symm

/-- Names that are texts have a path. -/
theorem pathOf?_texts (parts : List String)
    : pathOf? (parts.map Path.bytesOf)
      = some (String.ofList (SafePath.withSlashes (Text.joinWith "/" parts).toList)) := by
  rw [pathOf?, ← bytesOf_joinWith, Path.bytesOf, Text.decode?_encode]
  rfl

/-- The names of an entry have a path when each of them is a text. -/
theorem pathOf?_eq_some {way : List Bytes} {path : String} (nonempty : way ≠ [])
    (noSlash : ∀ name ∈ way, Path.slash ∉ name)
    : pathOf? way = some path
      ↔ ∃ parts : List String,
          way = parts.map Path.bytesOf
          ∧ path = String.ofList (SafePath.withSlashes (Text.joinWith "/" parts).toList) := by
  constructor
  · intro told
    obtain ⟨text, decoded, rfl⟩ := Option.map_eq_some_iff.mp told
    have parts : (Text.joinWith "/" ((text.splitOn '/').map String.ofList)).toList = text := by
      rw [Text.toList_joinWith, List.map_map]
      change ['/'].intercalate _ = _
      simp
    refine ⟨(text.splitOn '/').map String.ofList, ?_, by rw [parts]⟩
    have bytes := bytesOf_joinWith ((text.splitOn '/').map String.ofList)
    rw [Path.bytesOf, parts, Text.encode_of_decode? decoded, joined, joined] at bytes
    have split := congrArg (List.splitOn Path.slash) bytes
    rw [List.splitOn_intercalate _ noSlash nonempty, List.splitOn_intercalate] at split
    · exact split
    · simp only [List.map_map, List.mem_map]
      rintro _ ⟨piece, member, rfl⟩
      rw [← Text.splitChar_eq] at member
      exact Path.slash_not_mem_bytesOf (by simpa using Text.not_mem_of_mem_splitChar member)
    · simp
  · rintro ⟨parts, rfl, rfl⟩
    exact pathOf?_texts parts

end DraftListing

namespace SafePath

/-- The backslash, which stands for a slash in paths. -/
def backslash : UInt8 := 0x5C

theorem withSlashes_of_not_mem {path : List Char} (absent : '\\' ∉ path)
    : withSlashes path = path := by
  refine (List.map_congr_left fun c member => ?_).trans (List.map_id path)
  rw [if_neg, id]
  rintro same
  exact absent (by simpa using (beq_iff_eq.mp same) ▸ member)

theorem backslash_not_mem_withSlashes (path : List Char) : '\\' ∉ withSlashes path := by
  intro member
  obtain ⟨c, _, same⟩ := List.mem_map.mp member
  split at same
  · exact absurd same (by decide)
  · rename_i other
    exact other (by simp [same])

theorem backslash_not_mem_of_parts {parts : List String}
    (absent : ∀ part ∈ parts, '\\' ∉ part.toList)
    : '\\' ∉ (Text.joinWith "/" parts).toList := by
  rw [Text.toList_joinWith]
  intro inside
  rcases Text.mem_intercalate inside with between | ⟨_, listed, inside⟩
  · exact absurd between (by decide)
  · obtain ⟨part, member, rfl⟩ := List.mem_map.mp listed
    exact absent part member inside

/-- Proper names without backslashes are the segments of what they are written as. -/
theorem segments_joinWith {parts : List String} {kept : List (List Char)} (some : parts ≠ [])
    (proper : ∀ part ∈ parts, Path.IsName (Path.bytesOf part))
    (absent : ∀ part ∈ parts, '\\' ∉ part.toList)
    (segmented : segments (Text.joinWith "/" parts).toList = .ok kept)
    : kept = parts.map String.toList := by
  have noSlash : ∀ piece ∈ parts.map String.toList, '/' ∉ piece := by
    intro piece member
    obtain ⟨part, listed, rfl⟩ := List.mem_map.mp member
    exact fun inside => (proper part listed).noSlash (Text.mem_encode_of_mem (by decide) inside)
  have busy : ∀ piece ∈ parts.map String.toList, !isIdle piece := by
    intro piece member
    obtain ⟨part, listed, rfl⟩ := List.mem_map.mp member
    have name := proper part listed
    simp only [isIdle, Bool.not_eq_true', Bool.or_eq_false_iff, beq_eq_false_iff_ne]
    constructor
    · intro same
      exact name.nonempty (by rw [Path.bytesOf, same]; rfl)
    · intro same
      exact name.notDot (by rw [Path.bytesOf, same]; rfl)
  have split : ("/".toList.intercalate (parts.map String.toList)).splitOn '/'
      = parts.map String.toList :=
    List.splitOn_intercalate '/' noSlash (by simpa using some)
  rw [(segments_eq_ok segmented).2.2,
    withSlashes_of_not_mem (backslash_not_mem_of_parts absent), Text.splitChar_eq,
    Text.toList_joinWith, split, List.filter_eq_self.mpr busy]

/-- Proper names without backslashes are the names along the normal form of their path. -/
theorem names_of_parts {parts : List String} {path : String} (some : parts ≠ [])
    (proper : ∀ part ∈ parts, Path.IsName (Path.bytesOf part))
    (absent : ∀ part ∈ parts, '\\' ∉ part.toList)
    (normal : normalize (Text.joinWith "/" parts) = .ok path)
    : names path = parts.map Path.bytesOf := by
  obtain ⟨kept, parsed, joined⟩ := Except.map_eq_ok.mp normal
  obtain ⟨pieces, segmented, rfl⟩ := parse_eq_ok parsed
  obtain rfl := segments_joinWith some proper absent segmented
  have same : (parts.map String.toList).map String.ofList = parts := by simp
  rw [same] at parsed joined
  simp [names, ← joined, parsed]

/-- The segments of a path have no backslashes. -/
theorem backslash_not_mem_segments {path : List Char} {kept : List (List Char)}
    (segmented : segments path = .ok kept)
    : ∀ segment ∈ kept, '\\' ∉ segment := by
  rw [(segments_eq_ok segmented).2.2, Text.splitChar_eq]
  intro segment member inside
  have whole : ['/'].intercalate ((withSlashes path).splitOn '/') = withSlashes path :=
    List.intercalate_splitOn '/'
  refine backslash_not_mem_withSlashes path ?_
  rw [← whole]
  exact (Text.infix_intercalate (List.mem_filter.mp member).1).subset inside

/-- A path in normal form is the one that its names have. -/
theorem pathOf?_names {path : String} (normal : normalize path = .ok path)
    : DraftListing.pathOf? (names path) = some path := by
  obtain ⟨parts, parsed, names⟩ := names_of_normal normal
  obtain ⟨kept, segmented, rfl⟩ := parse_eq_ok parsed
  have absent : ∀ part ∈ kept.map String.ofList, '\\' ∉ part.toList := by
    intro part member
    obtain ⟨segment, listed, rfl⟩ := List.mem_map.mp member
    simpa using backslash_not_mem_segments segmented segment listed
  rw [names, DraftListing.pathOf?_texts,
    withSlashes_of_not_mem (backslash_not_mem_of_parts absent), String.ofList_toList,
    ← eq_of_normalize normal parsed]

end SafePath

-----------------------------------------------------------------------------------------
-- Walks
-----------------------------------------------------------------------------------------

namespace DraftListing

variable {tree : FileTree} {depth : Nat} {directory : Place} {above way : List Bytes}
  {path : String}

/-- A file below a place is told as a path: its names have a path with this normal form. -/
def Tells (tree : FileTree) (place : Place) (way : List Bytes) (path : String) : Prop :=
  way ≠ []
  ∧ (∃ content mode, tree.get? (place ++ way) = some (.file content mode))
  ∧ ∃ written, pathOf? way = some written ∧ SafePath.normalize written = .ok path

/-- Only a regular file is told as a file, by the normal form of its path. -/
theorem inspect_eq_file {written : String} {entry : Entry}
    (told : inspect written entry = .file path)
    : (∃ content mode, entry = .file content mode) ∧ SafePath.normalize written = .ok path := by
  cases entry with
  | file content mode =>
      simp only [inspect] at told
      split at told
      · rename_i normal
        exact ⟨⟨content, mode, rfl⟩, Found.file.inj told ▸ normal⟩
      · exact absurd told (by simp)
  | directory | link | special => simp [inspect] at told

/-- What a walk tells as a file is a file below the directory, by induction on the depth. -/
theorem exists_of_mem_walk (wf : tree.WellFormed)
    (told : .file path ∈ walk tree depth directory above)
    : ∃ way,
        way ≠ []
        ∧ (∃ content mode, tree.get? (directory ++ way) = some (.file content mode))
        ∧ ∃ written,
            pathOf? (above ++ way) = some written ∧ SafePath.normalize written = .ok path := by
  induction depth generalizing directory above with
  | zero => simp [walk] at told
  | succ depth ih =>
      rw [walk, List.mem_flatMap] at told
      obtain ⟨⟨name, entry⟩, child, told⟩ := told
      have found := wf.mem_children.mp child
      simp only at told
      split at told
      · simp at told
      · obtain ⟨way, _, stands, written⟩ := ih told
        rw [List.append_assoc] at stands written
        exact ⟨name :: way, by simp, stands, written⟩
      · rename_i written named _
        obtain ⟨⟨content, mode, rfl⟩, normal⟩ := inspect_eq_file (List.mem_singleton.mp told).symm
        exact ⟨[name], by simp, ⟨content, mode, found⟩, written, named, normal⟩

/-- A file is told by a walk that is deep enough when the names on the way to it have paths, by
induction on these names.
-/
theorem mem_walk (wf : tree.WellFormed) (nonempty : way ≠ []) (deep : way.length ≤ depth)
    {content : Bytes} {mode : Nat}
    (found : tree.get? (directory ++ way) = some (.file content mode))
    (named : ∀ front, front ≠ [] → front <+: way → ∃ written, pathOf? (above ++ front) = some written)
    {written : String} (told : pathOf? (above ++ way) = some written)
    (normal : SafePath.normalize written = .ok path)
    : .file path ∈ walk tree depth directory above := by
  induction way generalizing depth directory above with
  | nil => exact absurd rfl nonempty
  | cons name rest ih =>
      cases depth with
      | zero => simp at deep
      | succ depth =>
          obtain ⟨first, here⟩ := named [name] (by simp) (by simp)
          rw [walk, List.mem_flatMap]
          cases rest with
          | nil =>
              refine ⟨(name, .file content mode), wf.mem_children.mpr found, ?_⟩
              simp [told, inspect, normal]
          | cons next others =>
              have split : directory ++ name :: next :: others
                  = (directory ++ [name]) ++ next :: others := by simp
              rw [split] at found
              obtain ⟨permissions, stands⟩ := wf.above (by simp) found
              refine ⟨(name, .directory permissions), wf.mem_children.mpr stands, ?_⟩
              simp only [here]
              refine ih (by simp) (by simpa using deep) found ?_ (by simpa using told)
              intro front some isFront
              obtain ⟨written, named⟩ := named (name :: front) (by simp) (by simpa using isFront)
              exact ⟨written, by simpa using named⟩

/-- A place is at most as deep as a tree has entries: all that stands on the way is listed. -/
theorem length_le_of_get? (wf : tree.WellFormed) {entry : Entry}
    (found : tree.get? (directory ++ way) = some entry)
    : way.length ≤ tree.entries.length := by
  let fronts := (List.range way.length).map fun n => directory ++ way.take (n + 1)
  have distinct : fronts.Nodup := by
    refine List.Nodup.map_on (fun one first two second same => ?_) List.nodup_range
    have lengths := congrArg List.length (List.append_cancel_left same)
    simp only [List.length_take, List.mem_range] at lengths first second
    omega
  have listed : fronts ⊆ tree.entries.map Prod.fst := by
    intro place member
    obtain ⟨n, short, rfl⟩ := List.mem_map.mp member
    have nonempty : directory ++ way.take (n + 1) ≠ [] := by
      have := List.mem_range.mp short
      simp [List.ne_nil_of_length_pos (show 0 < way.length by omega)]
    have stands : ∃ entry, tree.get? (directory ++ way.take (n + 1)) = some entry := by
      rw [← List.take_append_drop (n + 1) way, ← List.append_assoc] at found
      by_cases last : way.drop (n + 1) = []
      · exact ⟨entry, by simpa [last] using found⟩
      · obtain ⟨mode, stands⟩ := wf.above last found
        exact ⟨_, stands⟩
    obtain ⟨entry, stands⟩ := stands
    exact List.mem_map.mpr ⟨_, mem_of_get? nonempty stands, rfl⟩
  simpa [fronts] using (List.subperm_of_subset distinct listed).length_le

/-- A listing tells the files below the place of a draft, each by the normal form of its names. -/
theorem mem_files_iff (wf : tree.WellFormed) (named : tree.Named) {root : Path} {place : Place}
    {mode : Nat} (stands : tree.lookup true root = .ok (place, .directory mode))
    {listing : DraftListing} (collected : collect tree root = .ok listing)
    : path ∈ listing.files ↔ ∃ way, Tells tree place way path := by
  have files : path ∈ listing.files ↔ .file path ∈ walk tree tree.entries.length place [] := by
    simp only [collect, stands, Except.ok.injEq] at collected
    rw [← collected]
    simp only [ofFound, List.mem_mergeSort, List.mem_filterMap]
    constructor
    · rintro ⟨found, member, same⟩
      cases found with
      | file other => exact Option.some.inj same ▸ member
      | refused _ _ => exact absurd same (by simp)
    · exact fun member => ⟨_, member, rfl⟩
  rw [files]
  constructor
  · exact exists_of_mem_walk wf
  · rintro ⟨way, nonempty, ⟨content, mode, found⟩, written, told, normal⟩
    have proper := fun name member => named.get? found name (List.mem_append_right _ member)
    obtain ⟨parts, rfl, _⟩ := (pathOf?_eq_some nonempty fun name member =>
      (proper name member).noSlash).mp told
    refine mem_walk wf nonempty (length_le_of_get? wf found) found ?_ told normal
    intro front _ isFront
    rw [List.prefix_iff_eq_take.mp isFront, ← List.map_take]
    exact ⟨_, pathOf?_texts _⟩

end DraftListing

end Vetting
