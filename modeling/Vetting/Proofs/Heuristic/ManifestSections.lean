import Vetting.Heuristic.Kinds
import Vetting.Proofs.Text.Pieces

/-! The two parts of a manifest with its init script. An artifact is split at the first copy of the
marker, wherever in a line that stands, so both parts come out as they were put together exactly when
the marker does not stand in the manifest. A copy in a comment cuts the manifest off there.
-/

namespace Vetting.Vintf

open Text

/-- An artifact of a manifest, a line with the marker, and an init script. -/
def joined (manifest script : List Char) : List Char :=
  manifest ++ '\n' :: (initMarker.toList ++ '\n' :: script)

variable {manifest front back : List Char}

-----------------------------------------------------------------------------------------
-- The first marker
-----------------------------------------------------------------------------------------

theorem initMarker_unbordered : Unbordered initMarker.toList := by
  decide +kernel

theorem initMarker_ne_nil : initMarker.toList ≠ [] := by
  simp [initMarker]

theorem ofText_of_first (fresh : ¬ initMarker.toList <:+: front) (back : List Char)
    : Sections.ofText (front ++ (initMarker.toList ++ back)) = ⟨trim front, trim back⟩ := by
  rw [Sections.ofText, initMarker_unbordered.splitOnce?_eq initMarker_ne_nil fresh]

theorem ofText_of_unmarked (unmarked : ¬ initMarker.toList <:+: manifest)
    : Sections.ofText manifest = ⟨trim manifest, []⟩ := by
  rw [Sections.ofText, splitOnce?_none initMarker_ne_nil unmarked]

/-- The marker has no line end, so it does not begin in the manifest and end behind it. -/
theorem ofText_joined (unmarked : ¬ initMarker.toList <:+: manifest) (script : List Char)
    : Sections.ofText (joined manifest script) = ⟨trim manifest, trim script⟩ := by
  have fresh : ¬ initMarker.toList <:+: manifest ++ ['\n'] := by
    intro stands
    rcases infix_of_not_mem (by simp [initMarker]) stands with inside | beyond
    · exact unmarked inside
    · exact initMarker_ne_nil (List.infix_nil.mp beyond)
  have split := ofText_of_first fresh ('\n' :: script)
  rwa [trim_concat (by decide), trim_cons (by decide), List.append_assoc] at split

/-- What stands before a marker is not all that there is, for the marker has more than blanks. -/
theorem trim_ne (front back : List Char)
    : trim front ≠ trim (front ++ (initMarker.toList ++ back)) := by
  intro same
  have kept := congrArg (List.filter (!isBlank ·)) same
  rw [filter_trim, filter_trim, List.filter_append, List.filter_append] at kept
  have empty := List.append_eq_nil_iff.mp (List.self_eq_append_right.mp kept)
  exact absurd empty.1 (by simp [initMarker, isBlank])

theorem ofText_ne (marked : initMarker.toList <:+: manifest) (more script : List Char)
    : Sections.ofText (manifest ++ more) ≠ ⟨trim manifest, script⟩ := by
  obtain ⟨front, back, rfl, fresh⟩ := exists_first_copy initMarker_ne_nil marked
  intro same
  rw [List.append_assoc, List.append_assoc, ofText_of_first fresh] at same
  exact trim_ne front back (congrArg Sections.manifest same)

-----------------------------------------------------------------------------------------
-- Both parts
-----------------------------------------------------------------------------------------

/-- An artifact that is put together from a manifest and an init script is split into both, and a
manifest alone is one without a script, exactly when the marker does not stand in the manifest; then
what is assessed is that manifest and that script. Otherwise the manifest ends before the first copy of
the marker, and all that stands behind it is the script.
-/
theorem sections_at_first_marker (manifest script : List Char)
    : (Sections.ofText (joined manifest script) = ⟨trim manifest, trim script⟩
        ↔ ¬ initMarker.toList <:+: manifest)
      ∧ (Sections.ofText manifest = ⟨trim manifest, []⟩ ↔ ¬ initMarker.toList <:+: manifest)
      ∧ (¬ initMarker.toList <:+: manifest
        → ArtifactKind.vintf.assess (joined manifest script)
            = Sections.assess ⟨trim manifest, trim script⟩
          ∧ ArtifactKind.vintf.assess manifest = Sections.assess ⟨trim manifest, []⟩)
      ∧ ∀ front back,
          manifest = front ++ (initMarker.toList ++ back)
          → ¬ initMarker.toList <:+: front
          → ∀ more,
              Sections.ofText (manifest ++ more) = ⟨trim front, trim (back ++ more)⟩
              ∧ ArtifactKind.vintf.assess (manifest ++ more)
                = Sections.assess ⟨trim front, trim (back ++ more)⟩ := by
  refine ⟨⟨fun same marked => ?_, fun unmarked => ofText_joined unmarked script⟩,
    ⟨fun same marked => ?_, ofText_of_unmarked⟩, fun unmarked => ?_, ?_⟩
  · exact ofText_ne marked _ _ same
  · exact ofText_ne marked [] [] (by rwa [List.append_nil])
  · constructor
    · exact congrArg Sections.assess (ofText_joined unmarked script)
    · exact congrArg Sections.assess (ofText_of_unmarked unmarked)
  · rintro front back rfl fresh more
    have split := ofText_of_first fresh (back ++ more)
    rw [← List.append_assoc, ← List.append_assoc, List.append_assoc front] at split
    exact ⟨split, congrArg Sections.assess split⟩

/-- The init script of a service. -/
def plainScript : List Char := "service x /bin/x\n    class hal\n".toList

/-- A manifest that says `marker` in a comment. -/
def commented (marker : String) : List Char :=
  ("<manifest><!-- keep " ++ marker ++ " last --><hal><name>x</name><transport>hwbinder</transport>"
    ++ "</hal></manifest>").toList

/-- Without the marker in it, a manifest is assessed with its script. -/
theorem sections_at_first_marker_plain
    : ¬ initMarker.toList <:+: commented "it"
      ∧ ArtifactKind.vintf.assess (joined (commented "it") plainScript)
        = Sections.assess ⟨trim (commented "it"), trim plainScript⟩ := by
  have unmarked : ¬ initMarker.toList <:+: commented "it" := by decide +kernel
  exact ⟨unmarked, ((sections_at_first_marker _ plainScript).2.2.1 unmarked).1⟩

/-- No line of the manifest is the marker, yet the manifest is cut off in the comment that mentions it,
and what is left of it is no document any more.
-/
theorem marker_in_comment_splits
    : (∀ line ∈ lines (commented initMarker), trim line ≠ initMarker.toList)
      ∧ Sections.ofText (joined (commented initMarker) plainScript)
        ≠ ⟨trim (commented initMarker), trim plainScript⟩
      ∧ (Sections.ofText (joined (commented initMarker) plainScript)).manifest
        = "<manifest><!-- keep".toList
      ∧ ArtifactKind.vintf.assess (joined (commented initMarker) plainScript)
        = .refused 10 ("XML parse error: syntax error: comment not closed: "
          ++ "`-->` not found before end of input (at byte 19)")
      ∧ Sections.assess ⟨trim (commented initMarker), trim plainScript⟩
        = .graded [.credit 35 1, .credit 20 1, .credit 15 1, .credit 10 1, .credit 20 1]
          "hal entries=1, init.rc=present" := by
  refine ⟨?_, ?_, ?_, ?_, ?_⟩ <;> decide +kernel

end Vetting.Vintf
