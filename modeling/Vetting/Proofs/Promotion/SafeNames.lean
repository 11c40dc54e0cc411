import Vetting.Promotion.Fault
import Vetting.Promotion.RuleSet
import Vetting.Proofs.Files.PathNames
import Vetting.Proofs.Text.Utf8

/-! The segments of safe paths. Each of them is a name that leads from a directory to what stands in
it, so a safe path stays below the directory in which it is followed.
-/

namespace Vetting

namespace Text

theorem not_mem_of_mem_splitChar {separator : Char} {text piece : List Char}
    (member : piece ∈ splitChar separator text)
    : separator ∉ piece := by
  induction text generalizing piece with
  | nil => simp_all [splitChar]
  | cons c rest ih =>
      unfold splitChar at member
      split at member
      · rcases List.mem_cons.mp member with rfl | member
        · simp
        · exact ih member
      · rename_i other
        have other : separator ≠ c := fun same => other (by simp [same])
        split at member
        · simpa [List.mem_singleton.mp member] using other
        · rename_i first others split
          rw [split] at ih
          rcases List.mem_cons.mp member with rfl | member
          · simpa [other] using ih List.mem_cons_self
          · exact ih (List.mem_cons_of_mem _ member)

end Text

namespace SafePath

variable {path : List Char} {kept : List (List Char)}

/-- What the segments of a path are: no steps that stay or go up, without slashes and zeros. -/
structure IsSegment (segment : List Char) : Prop where
  notIdle : isIdle segment = false
  notUp : segment ≠ ['.', '.']
  noSlash : '/' ∉ segment
  noZero : '\x00' ∉ segment

theorem segments_eq_ok (segmented : segments path = .ok kept)
    : kept ≠ []
      ∧ flaw? (withSlashes path) = none
      ∧ kept = (Text.splitChar '/' (withSlashes path)).filter fun segment => !isIdle segment := by
  unfold segments at segmented
  simp only at segmented
  split at segmented
  · exact absurd segmented (by simp)
  split at segmented
  · exact absurd segmented (by simp)
  split at segmented
  · exact absurd segmented (by simp)
  · rename_i _ sound _ _ _ some
    obtain rfl := Except.ok.inj segmented
    exact ⟨fun empty => some empty, sound, rfl⟩

theorem isSegment_of_segments (segmented : segments path = .ok kept)
    : ∀ segment ∈ kept, IsSegment segment := by
  unfold segments at segmented
  simp only at segmented
  split at segmented
  · exact absurd segmented (by simp)
  split at segmented
  · exact absurd segmented (by simp)
  rename_i noFlaw
  split at segmented
  · exact absurd segmented (by simp)
  obtain rfl := Except.ok.inj segmented
  intro segment member
  obtain ⟨listed, busy⟩ := List.mem_filter.mp member
  have sound := List.findSome?_eq_none_iff.mp noFlaw segment listed
  unfold segmentFlaw? at sound
  split at sound
  · exact absurd sound (by simp)
  rename_i notUp
  split at sound
  · exact absurd sound (by simp)
  rename_i noZero
  exact ⟨by simpa using busy, by simpa using notUp, Text.not_mem_of_mem_splitChar listed,
    by simpa using noZero⟩

/-- A segment is a name in a directory. -/
theorem IsSegment.isName {segment : List Char} (proper : IsSegment segment)
    : Path.IsName (Path.bytesOf (String.ofList segment)) := by
  have same : ∀ text : String,
      Path.bytesOf (String.ofList segment) = Path.bytesOf text → segment = text.toList := by
    intro text eq
    simpa using congrArg String.toList (Path.bytesOf_injective eq)
  have notIdle := proper.notIdle
  simp only [isIdle, Bool.or_eq_false_iff, beq_eq_false_iff_ne] at notIdle
  refine ⟨?_, ?_, ?_, ?_⟩
  · exact fun eq => notIdle.1 (same "" eq)
  · exact Path.slash_not_mem_bytesOf (by simpa using proper.noSlash)
  · exact fun eq => notIdle.2 (same "." eq)
  · exact fun eq => proper.notUp (same ".." eq)

variable {written : String}

/-- A path that is refused is told as it was written. -/
theorem written_of_normalize {flawed : UnsafePath} (refused : normalize written = .error flawed)
    : flawed.written = written := by
  unfold normalize parse at refused
  split at refused
  · exact absurd refused (by simp [Except.map])
  · rw [← Except.error.inj refused]

theorem parse_eq_ok {parts : List String} (parsed : parse written = .ok parts)
    : ∃ kept, segments written.toList = .ok kept ∧ parts = kept.map String.ofList := by
  unfold parse at parsed
  split at parsed
  · rename_i kept segmented
    exact ⟨kept, segmented, (Except.ok.inj parsed).symm⟩
  · exact absurd parsed (by simp)

/-- A safe path has segments, and their bytes are names. -/
theorem isName_of_parse {parts : List String} (parsed : parse written = .ok parts)
    : parts ≠ [] ∧ ∀ name ∈ parts.map Path.bytesOf, Path.IsName name := by
  obtain ⟨kept, segmented, rfl⟩ := parse_eq_ok parsed
  refine ⟨by simpa using (segments_eq_ok segmented).1, ?_⟩
  simp only [List.map_map, List.mem_map]
  rintro _ ⟨segment, member, rfl⟩
  exact (isSegment_of_segments segmented segment member).isName

/-- A path in normal form is joined from its segments. -/
theorem eq_of_normalize {parts : List String} (normal : normalize written = .ok written)
    (parsed : parse written = .ok parts)
    : written = Text.joinWith "/" parts := by
  simpa [normalize, parsed, Except.map] using normal.symm

/-- The names along a safe path; an unsafe path has none. -/
def names (written : String) : List Bytes :=
  match parse written with
  | .ok names => names.map Path.bytesOf
  | .error _ => []

theorem isName_of_mem_names {name : Bytes} (member : name ∈ names written) : Path.IsName name := by
  unfold names at member
  split at member
  · rename_i parsed
    exact (isName_of_parse parsed).2 name member
  · simp at member

theorem resolve_eq_ok {root path : Path}
    : resolve root written = .ok path ↔ names written ≠ [] ∧ path = root.below (names written) := by
  unfold resolve names
  cases parsed : parse written with
  | ok segments =>
      have nonempty := (isName_of_parse parsed).1
      simp [nonempty, eq_comm]
  | error unsafePath => simp

end SafePath

end Vetting
