import Vetting.Proofs.Promotion.DraftFiles

/-! Which paths are safe. A path has a normal form exactly when it names something and cannot lead
out of the directory in which it is followed: it does not start at a root, at a home or at a drive,
no segment of it goes up, and it has no zero. The normal form is made of the segments that lead
somewhere, and the path to which it resolves is that of the directory with these segments added.
-/

namespace Vetting.SafePath

open Text

/-- What makes a path with slashes safe. -/
structure IsSafe (path : List Char) : Prop where
  visible : ∃ c ∈ path, isBlank c = false
  notAbsolute : path.head? ≠ some '/'
  notHome : path.head? ≠ some '~'
  /-- It does not start with a letter of ASCII and a colon. -/
  noDrive : ∀ drive rest, path = drive :: ':' :: rest → drive.isAlpha = false
  neverUp : ['.', '.'] ∉ path.splitOn '/'
  noZero : '\x00' ∉ path
  leads : ∃ segment ∈ path.splitOn '/', segment ≠ [] ∧ segment ≠ ['.']

/-- The segments of a path with slashes that lead somewhere, in their order. -/
def steps (path : List Char) : List String :=
  ((path.splitOn '/').filter fun segment => segment ≠ [] ∧ segment ≠ ['.']).map String.ofList

/-- What a path may be extended by to stay below where it leads. -/
structure IsComponent (component : String) : Prop where
  nonempty : component ≠ ""
  notDot : component ≠ "."
  notDotDot : component ≠ ".."
  noSlash : '/' ∉ component.toList
  noBackslash : '\\' ∉ component.toList
  noZero : '\x00' ∉ component.toList

variable {path : List Char}

-----------------------------------------------------------------------------------------
-- The checks one by one
-----------------------------------------------------------------------------------------

/-- A path passes the check of its start when it shows something and starts nowhere else. -/
theorem flaw?_eq_none
    : flaw? path = none
      ↔ (∃ c ∈ path, isBlank c = false)
        ∧ path.head? ≠ some '/'
        ∧ path.head? ≠ some '~'
        ∧ ∀ drive rest, path = drive :: ':' :: rest → drive.isAlpha = false := by
  have blank : allBlank path = true ↔ ¬ ∃ c ∈ path, isBlank c = false := by simp [allBlank]
  unfold flaw?
  by_cases shows : ∃ c ∈ path, isBlank c = false
  · rw [if_neg (by rwa [blank, not_not])]
    simp only [shows, true_and]
    split
    · simp
    · simp
    · rename_i drive rest _ _
      cases letter : drive.isAlpha <;> simp_all
    · simp_all [List.head?_eq_some_iff]
  · rw [if_pos (blank.mpr shows)]
    simp [shows]

theorem segmentFlaw?_eq_none {segment : List Char}
    : segmentFlaw? segment = none ↔ segment ≠ ['.', '.'] ∧ '\x00' ∉ segment := by
  unfold segmentFlaw?
  by_cases up : segment = ['.', '.'] <;> simp [up]

/-- A character but the slash stands in a path when it stands in a segment of it. -/
theorem mem_iff_mem_segment {c : Char} (other : c ≠ '/')
    : c ∈ path ↔ ∃ segment ∈ path.splitOn '/', c ∈ segment := by
  have whole : ['/'].intercalate (path.splitOn '/') = path := List.intercalate_splitOn '/'
  constructor
  · intro member
    rw [← whole] at member
    exact (mem_intercalate member).resolve_left (by simpa using other)
  · rintro ⟨segment, listed, inside⟩
    rw [← whole]
    exact (infix_intercalate listed).subset inside

-----------------------------------------------------------------------------------------
-- The segments of a safe path
-----------------------------------------------------------------------------------------

theorem steps_ne_nil_iff
    : steps path ≠ [] ↔ ∃ segment ∈ path.splitOn '/', segment ≠ [] ∧ segment ≠ ['.'] := by
  simp [steps, List.filter_eq_nil_iff]

theorem steps_eq (path : List Char)
    : steps path
      = ((path.splitOn '/').filter fun segment => !isIdle segment).map String.ofList := by
  refine congrArg _ (List.filter_congr fun segment _ => ?_)
  by_cases empty : segment = [] <;> by_cases dot : segment = ['.'] <;> simp [isIdle, empty, dot]

/-- A path is safe exactly when no check of it or of a segment finds a flaw and a part is left. -/
theorem isSafe_iff
    : IsSafe path
      ↔ flaw? path = none ∧ (path.splitOn '/').findSome? segmentFlaw? = none ∧ steps path ≠ [] := by
  rw [flaw?_eq_none, List.findSome?_eq_none_iff, steps_ne_nil_iff]
  simp only [segmentFlaw?_eq_none]
  constructor
  · intro safe
    refine ⟨⟨safe.visible, safe.notAbsolute, safe.notHome, safe.noDrive⟩, ?_, safe.leads⟩
    exact fun segment listed => ⟨fun up => safe.neverUp (up ▸ listed),
      fun zero => safe.noZero ((mem_iff_mem_segment (by decide)).mpr ⟨segment, listed, zero⟩)⟩
  · intro ⟨⟨visible, notAbsolute, notHome, noDrive⟩, proper, leads⟩
    refine ⟨visible, notAbsolute, notHome, noDrive, ?_, ?_, leads⟩
    · exact fun up => (proper _ up).1 rfl
    · intro zero
      obtain ⟨segment, listed, inside⟩ := (mem_iff_mem_segment (by decide)).mp zero
      exact (proper segment listed).2 inside

/-- The segments of a path are read exactly when it is safe. -/
theorem parse_eq_ok_iff {written : String} {parts : List String}
    : parse written = .ok parts
      ↔ IsSafe (withSlashes written.toList) ∧ parts = steps (withSlashes written.toList) := by
  rw [isSafe_iff, steps_eq]
  unfold parse segments
  simp only [splitChar_eq]
  cases flaw? (withSlashes written.toList) with
  | some flaw => simp
  | none =>
      cases ((withSlashes written.toList).splitOn '/').findSome? segmentFlaw? with
      | some flaw => simp
      | none =>
          cases ((withSlashes written.toList).splitOn '/').filter fun part => !isIdle part with
          | nil => simp
          | cons first rest => simpa using eq_comm

/-- The segments that are read of a path lead to what stands in a directory. -/
theorem isComponent_of_parse {written : String} {parts : List String}
    (parsed : parse written = .ok parts)
    : ∀ part ∈ parts, IsComponent part := by
  obtain ⟨kept, segmented, rfl⟩ := parse_eq_ok parsed
  simp only [List.mem_map]
  rintro _ ⟨segment, listed, rfl⟩
  have proper := isSegment_of_segments segmented segment listed
  have noBackslash := backslash_not_mem_segments segmented segment listed
  have notIdle := proper.notIdle
  simp only [isIdle, Bool.or_eq_false_iff, beq_eq_false_iff_ne] at notIdle
  have other {text : String} (different : segment ≠ text.toList) : String.ofList segment ≠ text :=
    fun same => different (by simpa using congrArg String.toList same)
  exact ⟨other notIdle.1, other notIdle.2, other proper.notUp, by simpa using proper.noSlash,
    by simpa using noBackslash, by simpa using proper.noZero⟩

/-- A path has a normal form, and resolves below a directory, exactly when it is safe. The normal
form joins the segments that lead somewhere; resolving adds them to the path of the directory, one
or more, and each of them is the name of something in the directory above it.
-/
theorem normalize_eq_ok_iff (written : String) (root : Path)
    : (∀ normal, normalize written = .ok normal
        ↔ IsSafe (withSlashes written.toList)
          ∧ normal = joinWith "/" (steps (withSlashes written.toList)))
      ∧ (∀ path, resolve root written = .ok path
        ↔ IsSafe (withSlashes written.toList)
          ∧ path = root.below ((steps (withSlashes written.toList)).map Path.bytesOf))
      ∧ ∀ path, resolve root written = .ok path
        → ∃ components : List String,
            components ≠ []
            ∧ (∀ component ∈ components, IsComponent component)
            ∧ path = root.below (components.map Path.bytesOf)
            ∧ path.names = root.written ++ components.map Path.bytesOf := by
  have resolved (path : Path)
      : resolve root written = .ok path
        ↔ IsSafe (withSlashes written.toList)
          ∧ path = root.below ((steps (withSlashes written.toList)).map Path.bytesOf) := by
    unfold resolve
    cases parsed : parse written with
    | ok parts =>
        obtain ⟨safe, rfl⟩ := parse_eq_ok_iff.mp parsed
        simp [safe, eq_comm]
    | error flawed =>
        have unsafePath : ¬ IsSafe (withSlashes written.toList) := fun safe => by
          have accepted := parse_eq_ok_iff.mpr ⟨safe, rfl⟩
          rw [parsed] at accepted
          exact nomatch accepted
        simp [unsafePath]
  refine ⟨fun normal => ?_, resolved, ?_⟩
  · rw [normalize, Except.map_eq_ok]
    simp only [parse_eq_ok_iff]
    constructor
    · rintro ⟨_, ⟨safe, rfl⟩, rfl⟩
      exact ⟨safe, rfl⟩
    · rintro ⟨safe, rfl⟩
      exact ⟨_, ⟨safe, rfl⟩, rfl⟩
  · intro path stands
    obtain ⟨safe, rfl⟩ := (resolved path).mp stands
    have parsed := parse_eq_ok_iff.mpr ⟨safe, rfl⟩
    obtain ⟨some, named⟩ := isName_of_parse parsed
    exact ⟨_, some, isComponent_of_parse parsed, rfl,
      Path.names_below root (by simpa using some) named⟩

/-- A path with a letter that is not of ASCII before a colon, a blank segment and idle ones. -/
def respelled : String := "é:\\ //./x"

theorem normalize_eq_ok_iff_respelled
    : normalize respelled = .ok "é:/ /x"
      ∧ IsSafe (withSlashes respelled.toList)
      ∧ ∃ components : List String,
          components ≠ []
          ∧ (∀ component ∈ components, IsComponent component)
          ∧ Path.ofString "out/é:/ /x" = (Path.ofString "out").below (components.map Path.bytesOf)
          ∧ (Path.ofString "out/é:/ /x").names
            = (Path.ofString "out").written ++ components.map Path.bytesOf := by
  have normal : normalize respelled = .ok "é:/ /x" := by decide +kernel
  have resolved : resolve (.ofString "out") respelled = .ok (.ofString "out/é:/ /x") := by
    decide +kernel
  obtain ⟨normalized, _, extended⟩ := normalize_eq_ok_iff respelled (.ofString "out")
  exact ⟨normal, ((normalized _).mp normal).1, extended _ resolved⟩

end Vetting.SafePath
