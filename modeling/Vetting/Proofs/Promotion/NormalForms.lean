import Vetting.Proofs.Promotion.SafePaths

/-! Normal forms that are brought to normal form again. How a path starts is checked before its idle
segments are dropped, so that dropping them may uncover a home, a drive, or blanks and nothing else.
Every other normal form is its own normal form.
-/

namespace Vetting.SafePath

open Text

/-- The flaws that come to light when the idle segments of a path are dropped. -/
inductive Uncovers (path : List Char) : PathFlaw → Prop
  /-- One segment is left, which is blank. -/
  | blank {step} (only : steps path = [step]) (hidden : allBlank step.toList = true)
    : Uncovers path .empty
  | home {step rest} (idle : ['.', '/'] <+: path) (first : steps path = step :: rest)
    (starts : ['~'] <+: step.toList)
    : Uncovers path .homeRelative
  | drive {step rest letter} (idle : ['.', '/'] <+: path) (first : steps path = step :: rest)
    (starts : [letter, ':'] <+: step.toList) (alpha : letter.isAlpha = true)
    : Uncovers path .driveQualified

variable {path : List Char} {written normal step : String} {rest : List String} {flaw : PathFlaw}

-----------------------------------------------------------------------------------------
-- How paths start
-----------------------------------------------------------------------------------------

/-- The check of a path that does not start with a slash. -/
theorem flaw?_cons {c : Char} {cs : List Char} (relative : c ≠ '/')
    : flaw? (c :: cs)
      = if allBlank (c :: cs) then some .empty
        else if c = '~' then some .homeRelative
        else if c.isAlpha ∧ [':'] <+: cs then some .driveQualified
        else none := by
  unfold flaw?
  split
  · rfl
  by_cases home : c = '~'
  · simp [home]
  rw [if_neg home]
  cases cs with
  | nil => simp [relative, home]
  | cons d ds =>
      by_cases colon : d = ':'
      · subst colon
        by_cases alpha : c.isAlpha <;> simp [alpha]
      · simp [relative, home, colon, Ne.symm colon]

/-- A path that is safe starts with its first segment that leads somewhere, unless an idle one comes
before it.
-/
theorem IsSafe.starts (safe : IsSafe path) (first : steps path = step :: rest)
    : ['.', '/'] <+: path ∨ step.toList <+: path := by
  have whole : ['/'].intercalate (path.splitOn '/') = path := List.intercalate_splitOn '/'
  unfold steps at first
  cases pieces : path.splitOn '/' with
  | nil => exact absurd pieces (List.splitOn_ne_nil _ _)
  | cons piece others =>
      rw [pieces] at whole first
      by_cases leads : piece ≠ [] ∧ piece ≠ ['.']
      · right
        rw [List.filter_cons_of_pos (by simpa using leads), List.map_cons] at first
        obtain ⟨rfl, _⟩ := List.cons.inj first
        rw [String.toList_ofList, ← whole]
        cases others with
        | nil => simp
        | cons next more =>
            rw [List.intercalate_cons_cons, List.append_assoc]
            exact List.prefix_append _ _
      · left
        rw [List.filter_cons_of_neg (by simpa using leads)] at first
        cases others with
        | nil => simp at first
        | cons next more =>
            rw [List.intercalate_cons_cons] at whole
            have notEmpty : piece ≠ [] := by
              rintro rfl
              exact safe.notAbsolute (by simp [← whole])
            have idle : piece = ['.'] := by
              by_contra other
              exact leads ⟨notEmpty, other⟩
            exact ⟨_, by rw [← whole, idle]; rfl⟩

theorem isBlank_of_isAlpha {c : Char} (alpha : c.isAlpha = true) : isBlank c = false := by
  have letter : 65 ≤ c.toNat ∧ c.toNat ≤ 90 ∨ 97 ≤ c.toNat ∧ c.toNat ≤ 122 := by
    rcases Bool.or_eq_true_iff.mp alpha with upper | lower
    · exact Or.inl (of_decide_eq_true upper)
    · obtain ⟨least, most⟩ := Bool.and_eq_true_iff.mp lower
      exact Or.inr ⟨of_decide_eq_true least, of_decide_eq_true most⟩
  simp only [isBlank, Bool.or_eq_false_iff, Bool.and_eq_false_iff, decide_eq_false_iff_not,
    beq_eq_false_iff_ne]
  omega

/-- Segments that are joined start with the first of them, after which nothing comes or a slash. -/
theorem toList_joinWith_cons (step : String) (rest : List String)
    : ∃ tail,
        (joinWith "/" (step :: rest)).toList = step.toList ++ tail
        ∧ (rest = [] ∧ tail = [] ∨ rest ≠ [] ∧ ∃ more, tail = '/' :: more) := by
  rw [toList_joinWith]
  cases rest with
  | nil => exact ⟨[], by simp⟩
  | cons next others =>
      refine ⟨'/' :: ['/'].intercalate ((next :: others).map String.toList), ?_, by simp⟩
      rw [List.map_cons, List.map_cons, List.intercalate_cons_cons, List.append_assoc]
      rfl

/-- The check of segments that are joined looks at the first of them, and for blanks at whether it is
the only one.
-/
theorem flaw?_joinWith (components : ∀ part ∈ step :: rest, IsComponent part)
    : flaw? (joinWith "/" (step :: rest)).toList = some flaw
      ↔ rest = [] ∧ allBlank step.toList = true ∧ flaw = .empty
        ∨ ['~'] <+: step.toList ∧ flaw = .homeRelative
        ∨ (∃ letter, [letter, ':'] <+: step.toList ∧ letter.isAlpha = true)
          ∧ flaw = .driveQualified := by
  have proper := components step List.mem_cons_self
  obtain ⟨tail, joined, ends⟩ := toList_joinWith_cons step rest
  cases shown : step.toList with
  | nil => exact absurd (by simpa using shown) proper.nonempty
  | cons c cs =>
      have relative : c ≠ '/' := fun same => proper.noSlash (by simp [shown, same])
      have blank : allBlank (c :: (cs ++ tail)) = true ↔ rest = [] ∧ allBlank (c :: cs) = true := by
        rcases ends with ⟨rfl, rfl⟩ | ⟨others, more, rfl⟩
        · simp
        · simp [allBlank, others, isBlank]
      have colon : [':'] <+: cs ++ tail ↔ [':'] <+: cs := by
        cases cs with
        | nil => rcases ends with ⟨_, rfl⟩ | ⟨_, more, rfl⟩ <;> simp
        | cons d ds => simp
      rw [joined, shown, List.cons_append, flaw?_cons relative]
      have drive
          : (∃ letter, [letter, ':'] <+: c :: cs ∧ letter.isAlpha = true)
            ↔ c.isAlpha = true ∧ [':'] <+: cs := by
        simp [List.cons_prefix_cons, and_comm]
      have home : ['~'] <+: c :: cs ↔ c = '~' := by simp [List.cons_prefix_cons, eq_comm]
      simp only [blank, colon, drive, home]
      -- The first character is at most one of these: blank, the mark of a home, a letter.
      split
      · rename_i hidden
        have isBlank : isBlank c = true := List.all_eq_true.mp hidden.2 c List.mem_cons_self
        have notHome : c ≠ '~' := fun same => absurd (same ▸ isBlank) (by decide)
        have notAlpha : c.isAlpha = false := by
          by_contra alpha
          rw [isBlank_of_isAlpha (by simpa using alpha)] at isBlank
          exact absurd isBlank (by simp)
        simp [hidden, notHome, notAlpha, eq_comm]
      rename_i shows
      rw [← and_assoc, or_iff_right (fun hidden => shows hidden.1)]
      split
      · rename_i same
        subst same
        simp [eq_comm]
      rename_i notHome
      rw [or_iff_right (fun home => notHome home.1)]
      split
      · rename_i drive
        simp [drive, eq_comm]
      · rename_i noDrive
        simp [noDrive]

-----------------------------------------------------------------------------------------
-- Normal forms
-----------------------------------------------------------------------------------------

/-- A path with a flaw in its start is refused for it. -/
theorem normalize_of_flaw? (flawed : flaw? (withSlashes written.toList) = some flaw)
    : normalize written = .error ⟨written, flaw⟩ := by
  simp [normalize, parse, segments, flawed, Except.map]

/-- Segments that lead somewhere are split as they have been joined. -/
theorem splitOn_joinWith {parts : List String} (some : parts ≠ [])
    (components : ∀ part ∈ parts, IsComponent part)
    : (joinWith "/" parts).toList.splitOn '/' = parts.map String.toList := by
  have noSlash : ∀ piece ∈ parts.map String.toList, '/' ∉ piece := by
    intro piece member
    obtain ⟨part, listed, rfl⟩ := List.mem_map.mp member
    exact (components part listed).noSlash
  rw [toList_joinWith]
  exact List.splitOn_intercalate '/' noSlash (by simpa using some)

/-- A segment that leads somewhere has no flaw and is not dropped. -/
theorem IsComponent.kept {part : String} (proper : IsComponent part)
    : segmentFlaw? part.toList = none ∧ part.toList ≠ [] ∧ part.toList ≠ ['.'] := by
  have other {text : String} (different : part ≠ text) : part.toList ≠ text.toList :=
    fun same => different (String.toList_inj.mp same)
  exact ⟨segmentFlaw?_eq_none.mpr ⟨other proper.notDotDot, proper.noZero⟩, other proper.nonempty,
    other proper.notDot⟩

/-- Segments that lead somewhere and are joined are their own normal form, unless the path that they
make up has a flaw in its start.
-/
theorem normalize_joinWith {parts : List String} (some : parts ≠ [])
    (components : ∀ part ∈ parts, IsComponent part)
    : normalize (joinWith "/" parts)
      = match flaw? (joinWith "/" parts).toList with
        | none => .ok (joinWith "/" parts)
        | .some flaw => .error ⟨joinWith "/" parts, flaw⟩ := by
  have unmarked : withSlashes (joinWith "/" parts).toList = (joinWith "/" parts).toList :=
    withSlashes_of_not_mem
      (backslash_not_mem_of_parts fun part member => (components part member).noBackslash)
  have split := splitOn_joinWith some components
  cases flawed : flaw? (joinWith "/" parts).toList with
  | some flaw => exact normalize_of_flaw? (unmarked.symm ▸ flawed)
  | none =>
      have kept : steps (joinWith "/" parts).toList = parts := by
        rw [steps, split, List.filter_eq_self.mpr]
        · simp
        · intro piece member
          obtain ⟨part, listed, rfl⟩ := List.mem_map.mp member
          simpa using (components part listed).kept.2
      have safe : IsSafe (joinWith "/" parts).toList := by
        apply isSafe_iff.mpr
        refine ⟨flawed, ?_, by rwa [kept]⟩
        rw [split, List.findSome?_eq_none_iff]
        intro piece member
        obtain ⟨part, listed, rfl⟩ := List.mem_map.mp member
        exact (components part listed).kept.1
      have parsed : parse (joinWith "/" parts) = .ok parts := by
        apply parse_eq_ok_iff.mpr
        rw [unmarked]
        exact ⟨safe, kept.symm⟩
      simp [normalize, parsed, Except.map]

/-- The start of joined segments has a flaw exactly when idle segments of a safe path have hidden it. -/
theorem flaw?_joinWith_iff_uncovers (safe : IsSafe path) (first : steps path = step :: rest)
    (components : ∀ part ∈ step :: rest, IsComponent part)
    : flaw? (joinWith "/" (step :: rest)).toList = some flaw ↔ Uncovers path flaw := by
  rw [flaw?_joinWith components]
  constructor
  · intro found
    rcases found with ⟨rfl, hidden, rfl⟩ | ⟨home, rfl⟩ | ⟨⟨letter, drive, alpha⟩, rfl⟩
    · exact .blank first hidden
    · rcases safe.starts first with idle | starts
      · exact .home idle first home
      · obtain ⟨more, rfl⟩ := home.trans starts
        exact absurd rfl safe.notHome
    · rcases safe.starts first with idle | starts
      · exact .drive idle first drive alpha
      · obtain ⟨more, rfl⟩ := drive.trans starts
        rw [safe.noDrive letter more rfl] at alpha
        exact absurd alpha (by simp)
  · intro uncovers
    cases uncovers with
    | blank only hidden =>
        obtain ⟨rfl, rfl⟩ := List.cons.inj (first.symm.trans only)
        exact Or.inl ⟨rfl, hidden, rfl⟩
    | home _ again home =>
        obtain ⟨rfl, _⟩ := List.cons.inj (first.symm.trans again)
        exact Or.inr (Or.inl ⟨home, rfl⟩)
    | drive _ again drive alpha =>
        obtain ⟨rfl, _⟩ := List.cons.inj (first.symm.trans again)
        exact Or.inr (Or.inr ⟨⟨_, drive, alpha⟩, rfl⟩)

/-- A normal form is its own normal form exactly when dropping the idle segments of a path has uncovered
no flaw, and it is refused for one that has been uncovered: for blanks, a home or a drive. It never
starts with a slash.
-/
theorem normalize_normal_iff (accepted : normalize written = .ok normal)
    : normal.toList.head? ≠ some '/'
      ∧ (normalize normal = .ok normal ↔ ∀ flaw, ¬ Uncovers (withSlashes written.toList) flaw)
      ∧ ∀ flaw,
          normalize normal = .error ⟨normal, flaw⟩ ↔ Uncovers (withSlashes written.toList) flaw := by
  obtain ⟨parts, parsed, rfl⟩ := Except.map_eq_ok.mp accepted
  have components := isComponent_of_parse parsed
  obtain ⟨safe, rfl⟩ := parse_eq_ok_iff.mp parsed
  cases first : steps (withSlashes written.toList) with
  | nil => exact absurd first (isSafe_iff.mp safe).2.2
  | cons step rest =>
      rw [first] at components
      have uncovers (flaw : PathFlaw)
          : flaw? (joinWith "/" (step :: rest)).toList = some flaw
            ↔ Uncovers (withSlashes written.toList) flaw :=
        flaw?_joinWith_iff_uncovers safe first components
      rw [normalize_joinWith (by simp) components]
      simp only [← uncovers]
      refine ⟨?_, ?_⟩
      · obtain ⟨tail, joined, _⟩ := toList_joinWith_cons step rest
        have proper := components step List.mem_cons_self
        rw [joined, List.head?_append_of_ne_nil _ proper.kept.2.1]
        exact fun slash => proper.noSlash (List.mem_of_mem_head? slash)
      · cases flaw? (joinWith "/" (step :: rest)).toList <;> simp

/-- A path whose normal form starts at a home, which an idle segment has hidden. -/
def homeBehindDot : String := "./~/notes"

theorem normalize_normal_iff_home
    : normalize homeBehindDot = .ok "~/notes"
      ∧ Uncovers (withSlashes homeBehindDot.toList) .homeRelative
      ∧ normalize "~/notes" = .error ⟨"~/notes", .homeRelative⟩ := by
  have accepted : normalize homeBehindDot = .ok "~/notes" := by decide +kernel
  have uncovered : Uncovers (withSlashes homeBehindDot.toList) .homeRelative :=
    .home (by decide +kernel) (show steps _ = ["~", "notes"] by decide +kernel) (by decide +kernel)
  exact ⟨accepted, uncovered, ((normalize_normal_iff accepted).2.2 _).mpr uncovered⟩

/-- Not every normal form is safe. -/
theorem home_uncovered
    : ¬ ∀ written normal, normalize written = .ok normal → normalize normal = .ok normal := by
  intro fixed
  have again := fixed "./~/notes" "~/notes" (by decide +kernel)
  exact absurd again (by decide +kernel)

end Vetting.SafePath
