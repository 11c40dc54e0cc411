import Mathlib.Data.List.Nodup
import Vetting.Proofs.Promotion.SafeNames
import Vetting.Proofs.Results

/-! What is known of a rule set that is valid: its required files are in normal form and listed once,
so different ones have different names, and every check is about a required file.
-/

namespace Vetting

-----------------------------------------------------------------------------------------
-- Normal forms
-----------------------------------------------------------------------------------------

namespace SafePath

/-- A path in normal form is joined from its segments, which give its names. -/
theorem names_of_normal {path : String} (normal : normalize path = .ok path)
    : ∃ parts, parse path = .ok parts ∧ names path = parts.map Path.bytesOf := by
  obtain ⟨parts, parsed, _⟩ := Except.map_eq_ok.mp normal
  exact ⟨parts, parsed, by simp [names, parsed]⟩

/-- Paths in normal form are told apart by their names. -/
theorem eq_of_names {path other : String} (normal : normalize path = .ok path)
    (normal' : normalize other = .ok other) (same : names path = names other)
    : path = other := by
  obtain ⟨parts, parsed, names⟩ := names_of_normal normal
  obtain ⟨parts', parsed', names'⟩ := names_of_normal normal'
  rw [names, names'] at same
  have parts_eq := List.map_injective_iff.mpr Path.bytesOf_injective same
  rw [eq_of_normalize normal parsed, eq_of_normalize normal' parsed', parts_eq]

/-- A path in normal form with one name is that name. -/
theorem eq_of_names_singleton {path name : String} (normal : normalize path = .ok path)
    (single : names path = [Path.bytesOf name])
    : path = name := by
  obtain ⟨parts, parsed, names⟩ := names_of_normal normal
  rw [names] at single
  obtain ⟨part, rfl, same⟩ := List.map_eq_singleton_iff.mp single
  rw [eq_of_normalize normal parsed, Path.bytesOf_injective same]
  simp [Text.joinWith]

end SafePath

-----------------------------------------------------------------------------------------
-- Valid rule sets
-----------------------------------------------------------------------------------------

namespace RuleSet

variable {rules : RuleSet}

theorem checkSafe_eq_ok {path normal : String}
    : checkSafe path = .ok normal ↔ SafePath.normalize path = .ok normal :=
  Except.mapError_eq_ok

/-- What a required file has to be by itself. -/
structure Acceptable (rules : RuleSet) (path : String) : Prop where
  normal : SafePath.normalize path = .ok path
  allowed : rules.allows path = true

/-- Required files pass the check when each of them is acceptable and none is listed twice, by
induction on them.
-/
theorem checkFiles_eq_ok {seen files : List String}
    : rules.checkFiles seen files = .ok ()
      ↔ (∀ path ∈ files, rules.Acceptable path ∧ path ∉ seen) ∧ files.Nodup := by
  induction files generalizing seen with
  | nil => simp [checkFiles]
  | cons path rest ih =>
      have once
          : rules.checkFiles seen (path :: rest) = .ok ()
            ↔ rules.Acceptable path ∧ path ∉ seen ∧ rules.checkFiles (path :: seen) rest = .ok () := by
        rw [checkFiles, Except.bind_eq_ok]
        simp only [Except.unless_eq_ok, checkSafe_eq_ok]
        constructor
        · intro ⟨normal, safe, same, allowed, new, onward⟩
          rw [Decidable.not_not.mp same] at safe
          exact ⟨⟨safe, by simpa using allowed⟩, by simpa using new, onward⟩
        · intro ⟨acceptable, new, onward⟩
          exact ⟨path, acceptable.normal, by simp, by simp [acceptable.allowed], by simpa using new,
            onward⟩
      rw [once, ih, List.nodup_cons, List.forall_mem_cons]
      constructor
      · intro ⟨acceptable, new, others, distinct⟩
        refine ⟨⟨⟨acceptable, new⟩, fun other member => ?_⟩, fun member => ?_, distinct⟩
        · obtain ⟨sound, absent⟩ := others other member
          exact ⟨sound, fun seen => absent (List.mem_cons_of_mem _ seen)⟩
        · exact (others path member).2 List.mem_cons_self
      · intro ⟨⟨⟨acceptable, new⟩, others⟩, absent, distinct⟩
        refine ⟨acceptable, new, fun other member => ?_, distinct⟩
        refine ⟨(others other member).1, ?_⟩
        rw [List.mem_cons, not_or]
        refine ⟨?_, (others other member).2⟩
        rintro rfl
        exact absent member

/-- A rule set that can be used for promotions. -/
structure Valid (rules : RuleSet) : Prop where
  starts : rules.allowedStarts ≠ []
  required : rules.requiredFiles ≠ []
  safeStarts : ∀ start ∈ rules.allowedStarts, ∃ normal, SafePath.normalize start = .ok normal
  acceptable : ∀ path ∈ rules.requiredFiles, rules.Acceptable path
  distinct : rules.requiredFiles.Nodup
  checks : ∀ check ∈ rules.checks, rules.checkCheck check = .ok ()

/-- A rule set passes its check exactly when it can be used. -/
theorem validate_eq_ok : rules.validate = .ok () ↔ rules.Valid := by
  simp only [validate, Except.unless_eq_ok, Except.bind_eq_ok]
  constructor
  · intro ⟨starts, required, _, safe, _, files, checks⟩
    obtain ⟨acceptable, distinct⟩ := checkFiles_eq_ok.mp files
    refine ⟨by simpa using starts, by simpa using required, fun start member => ?_,
      fun path member => (acceptable path member).1, distinct, Except.forM_eq_ok.mp checks⟩
    obtain ⟨normal, sound, _⟩ := Except.bind_eq_ok.mp (Except.forM_eq_ok.mp safe start member)
    exact ⟨normal, checkSafe_eq_ok.mp sound⟩
  · intro valid
    refine ⟨by simpa using valid.starts, by simpa using valid.required, (), ?_, (), ?_, ?_⟩
    · refine Except.forM_eq_ok.mpr fun start member => ?_
      obtain ⟨normal, sound⟩ := valid.safeStarts start member
      exact Except.bind_eq_ok.mpr ⟨normal, checkSafe_eq_ok.mpr sound, rfl⟩
    · exact checkFiles_eq_ok.mpr
        ⟨fun path member => ⟨valid.acceptable path member, by simp⟩, valid.distinct⟩
    · exact Except.forM_eq_ok.mpr valid.checks

/-- Required files of a valid rule set are told apart by their names. -/
theorem Valid.distinctNames (valid : rules.Valid)
    : (rules.requiredFiles.map SafePath.names).Nodup := by
  refine List.Nodup.map_on (fun path member other member' same => ?_) valid.distinct
  exact SafePath.eq_of_names (valid.acceptable path member).normal
    (valid.acceptable other member').normal same

end RuleSet

end Vetting
