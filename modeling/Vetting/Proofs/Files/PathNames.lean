import Mathlib.Data.List.Basic
import Mathlib.Data.List.TakeWhile
import Vetting.Files.Change
import Vetting.Proofs.Results

/-! The names along paths. Joining a name to a path adds it at the end, slashes at the end of a path
add none, and the directory above a path has the first of its names.
-/

namespace Vetting.Path

/-- A name that leads from a directory to what stands in it. -/
structure IsName (name : Bytes) : Prop where
  nonempty : name ≠ []
  noSlash : slash ∉ name
  notDot : name ≠ dot
  notDotDot : name ≠ dotDot

/-- Without slashes, bytes that are longer than a step that stays or goes up are a name. -/
theorem isName_of_length {name : Bytes} (long : 2 < name.length) (noSlash : slash ∉ name)
    : IsName name := by
  refine ⟨?_, noSlash, ?_, ?_⟩ <;>
  · intro same
    rw [same] at long
    exact absurd long (by decide)

/-- The names written between the slashes of a path. -/
def written (path : Path) : List Bytes :=
  (pieces slash path.bytes).filter fun name => !name.isEmpty

theorem names_eq (path : Path)
    : path.names
      = if path.endsOpen && !path.written.isEmpty then path.written ++ [dot]
        else path.written := rfl

-----------------------------------------------------------------------------------------
-- The pieces between slashes
-----------------------------------------------------------------------------------------

/-- The pieces are those between which the separators stand, by induction on the bytes. -/
theorem pieces_eq_splitOn (separator : UInt8) (bytes : Bytes)
    : pieces separator bytes = bytes.splitOn separator := by
  induction bytes with
  | nil => rfl
  | cons b rest ih =>
      rw [pieces, ih, List.splitOn_cons_eq]
      cases rest.splitOn separator <;> rfl

theorem pieces_ne_nil (separator : UInt8) (bytes : Bytes) : pieces separator bytes ≠ [] := by
  rw [pieces_eq_splitOn]
  exact List.splitOn_ne_nil _ _

theorem pieces_append (separator : UInt8) (front back : Bytes)
    : pieces separator (front ++ separator :: back)
      = pieces separator front ++ pieces separator back := by
  induction front with
  | nil => simp [pieces]
  | cons b rest ih =>
      by_cases sep : b = separator
      · simp [pieces, sep, ih]
      · simp only [List.cons_append, pieces, beq_iff_eq, sep, if_false, ih]
        cases split : pieces separator rest with
        | nil => exact absurd split (pieces_ne_nil separator rest)
        | cons piece others => rfl

theorem pieces_of_not_mem {separator : UInt8} {bytes : Bytes} (absent : separator ∉ bytes)
    : pieces separator bytes = [bytes] := by
  induction bytes with
  | nil => rfl
  | cons b rest ih =>
      simp only [List.mem_cons, not_or] at absent
      simp [pieces, Ne.symm absent.1, ih absent.2]

theorem not_mem_of_mem_pieces {separator : UInt8} {bytes piece : Bytes}
    (member : piece ∈ pieces separator bytes)
    : separator ∉ piece := by
  induction bytes generalizing piece with
  | nil => simp_all [pieces]
  | cons b rest ih =>
      unfold pieces at member
      split at member
      · rcases List.mem_cons.mp member with rfl | member
        · simp
        · exact ih member
      · rename_i other
        have other : separator ≠ b := fun same => other (by simp [same])
        split at member
        · simpa [List.mem_singleton.mp member] using other
        · rename_i first others split
          rw [split] at ih
          rcases List.mem_cons.mp member with rfl | member
          · simpa [other] using ih List.mem_cons_self
          · exact ih (List.mem_cons_of_mem _ member)

-----------------------------------------------------------------------------------------
-- Written names
-----------------------------------------------------------------------------------------

theorem written_append (front back : Bytes)
    : written ⟨front ++ slash :: back⟩ = written ⟨front⟩ ++ written ⟨back⟩ := by
  simp only [written, pieces_append, List.filter_append]

@[simp] theorem written_nil : written ⟨[]⟩ = [] := rfl

@[simp] theorem written_slash (front : Bytes) : written ⟨front ++ [slash]⟩ = written ⟨front⟩ := by
  rw [written_append, written_nil, List.append_nil]

theorem written_of_not_mem {name : Bytes} (nonempty : name ≠ []) (noSlash : slash ∉ name)
    : written ⟨name⟩ = [name] := by
  simp [written, pieces_of_not_mem noSlash, nonempty]

/-- A path without names is made of slashes, so it starts at the root. -/
theorem isAbsolute_of_names_nil {path : Path} (nonempty : path.isEmpty = false)
    (noNames : path.names = [])
    : path.isAbsolute = true := by
  obtain ⟨bytes⟩ := path
  cases bytes with
  | nil => simp [isEmpty] at nonempty
  | cons b rest =>
      by_cases same : b = slash
      · simp [isAbsolute, same]
      · have some : written ⟨b :: rest⟩ ≠ [] := by
          unfold written
          simp only [pieces, beq_iff_eq, same, if_false]
          cases pieces slash rest <;> simp
        rw [names_eq] at noNames
        split at noNames
        · simp at noNames
        · exact absurd noNames some

/-- A path that ends with a slash has the names of the path without it. -/
theorem written_of_endsOpen {path : Path} (opens : path.endsOpen = true)
    : ∃ front, path = ⟨front ++ [slash]⟩ ∧ path.written = written ⟨front⟩ := by
  have last : path.bytes.getLast? = some slash := by simpa [endsOpen] using opens
  obtain ⟨front, eq⟩ := List.getLast?_eq_some_iff.mp last
  have same : path = ⟨front ++ [slash]⟩ := by rw [← eq]
  exact ⟨front, same, by rw [same, written_slash]⟩

-----------------------------------------------------------------------------------------
-- Joining names
-----------------------------------------------------------------------------------------

variable {directory : Path} {name : Bytes}

/-- A slash stands before a joined name, unless the path is empty. -/
theorem join_eq (directory : Path) (noSlash : slash ∉ name)
    : directory.bytes = [] ∧ directory.join name = ⟨name⟩
      ∨ ∃ front,
          directory.bytes ≠ []
          ∧ directory.join name = ⟨front ++ slash :: name⟩
          ∧ directory.written = written ⟨front⟩
          ∧ directory.isAbsolute = isAbsolute ⟨front ++ [slash]⟩ := by
  have noHead : (name.head? == some slash) = false := by
    cases name with
    | nil => rfl
    | cons b rest => simpa using fun same => noSlash (by simp [same])
  unfold join
  by_cases empty : directory.bytes = []
  · exact Or.inl ⟨empty, by simp [isEmpty, empty]⟩
  refine Or.inr ?_
  by_cases opens : directory.endsOpen = true
  · obtain ⟨front, eq, names⟩ := written_of_endsOpen opens
    refine ⟨front, empty, ?_, names, by rw [eq]⟩
    rw [if_neg (by simp [isEmpty, empty, noHead]), if_pos opens, eq, List.append_assoc,
      List.singleton_append]
  · refine ⟨directory.bytes, empty, by simp [isEmpty, empty, noHead, opens], rfl, ?_⟩
    cases bytes : directory.bytes with
    | nil => exact absurd bytes empty
    | cons b rest => simp [isAbsolute, bytes]

/-- Joining a name adds it to the names of a path. -/
theorem written_join (proper : IsName name)
    : (directory.join name).written = directory.written ++ [name] := by
  have single := written_of_not_mem proper.nonempty proper.noSlash
  rcases join_eq directory proper.noSlash with ⟨empty, eq⟩ | ⟨front, _, eq, names, _⟩
  · rw [eq, single, show directory.written = [] by simp [written, empty, pieces], List.nil_append]
  · rw [eq, written_append, single, names]

theorem endsOpen_join (proper : IsName name) : (directory.join name).endsOpen = false := by
  have last : ∀ front, (front ++ name).getLast? ≠ some slash := by
    intro front last
    rw [List.getLast?_append, Option.or_eq_some_iff] at last
    rcases last with last | ⟨none, _⟩
    · exact proper.noSlash (List.mem_of_getLast? last)
    · exact proper.nonempty (List.getLast?_eq_none_iff.mp none)
  rcases join_eq directory proper.noSlash with ⟨_, eq⟩ | ⟨front, _, eq, _⟩
  · simpa [endsOpen, eq] using last []
  · have := last (front ++ [slash])
    rw [List.append_assoc, List.singleton_append] at this
    simpa [endsOpen, eq] using this

theorem names_join (proper : IsName name)
    : (directory.join name).names = directory.written ++ [name] := by
  simp [names_eq, endsOpen_join proper, written_join proper]

theorem isAbsolute_join (directory : Path) (proper : IsName name)
    : (directory.join name).isAbsolute = directory.isAbsolute := by
  rcases join_eq directory proper.noSlash with ⟨empty, eq⟩ | ⟨front, _, eq, _, same⟩
  · have noHead : name.head? ≠ some slash :=
      fun head => proper.noSlash (List.mem_of_mem_head? head)
    simp [isAbsolute, eq, empty, noHead]
  · rw [same, eq]
    cases front <;> simp [isAbsolute]

/-- A joined name that is the first part of another one makes the first part of a path. -/
theorem prefix_join (directory : Path) {name : Bytes} (nonempty : name ≠ []) (rest : Bytes)
    : (directory.join name).bytes <+: (directory.join (name ++ rest)).bytes := by
  unfold join
  rw [List.head?_append_of_ne_nil _ nonempty]
  split
  · exact List.prefix_append _ _
  split
  · rw [← List.append_assoc]
    exact List.prefix_append _ _
  · rw [← List.cons_append, ← List.append_assoc]
    exact List.prefix_append _ _

/-- Joining names adds them to the names of a path, by induction on them. -/
theorem written_below (directory : Path) {names : List Bytes} (proper : ∀ name ∈ names, IsName name)
    : (directory.below names).written = directory.written ++ names := by
  induction names generalizing directory with
  | nil => simp [below]
  | cons name rest ih =>
      simp only [List.mem_cons, forall_eq_or_imp] at proper
      have := ih (directory.join name) proper.2
      rw [written_join proper.1, List.append_assoc, List.singleton_append] at this
      simpa [below] using this

theorem isAbsolute_below (directory : Path) {names : List Bytes}
    (proper : ∀ name ∈ names, IsName name)
    : (directory.below names).isAbsolute = directory.isAbsolute := by
  induction names generalizing directory with
  | nil => rfl
  | cons name rest ih =>
      simp only [List.mem_cons, forall_eq_or_imp] at proper
      rw [← isAbsolute_join directory proper.1]
      exact ih (directory.join name) proper.2

theorem below_concat (directory : Path) (names : List Bytes) (last : Bytes)
    : directory.below (names ++ [last]) = (directory.below names).join last := by
  simp [below]

/-- A path with a last name that has been joined to it has the written names. -/
theorem names_below (directory : Path) {names : List Bytes} (some : names ≠ [])
    (proper : ∀ name ∈ names, IsName name)
    : (directory.below names).names = directory.written ++ names := by
  have split := List.dropLast_concat_getLast some
  have last : IsName (names.getLast some) := proper _ (List.getLast_mem some)
  have front : ∀ name ∈ names.dropLast, IsName name :=
    fun name member => proper name (List.dropLast_subset _ member)
  rw [← split, below_concat, names_join last, written_below directory front, List.append_assoc]

-----------------------------------------------------------------------------------------
-- Paths of directories above
-----------------------------------------------------------------------------------------

/-- Bytes from their end on: dropping what leads nowhere leaves the first of the names. -/
theorem written_trimBack (back : Bytes)
    : written ⟨(trimBack back).reverse⟩ <+: written ⟨back.reverse⟩ := by
  fun_induction trimBack back with
  | case1 b c rest open_ ih =>
      rw [List.reverse_cons, beq_iff_eq.mp open_, written_slash]
      exact ih
  | case2 b c rest _ idle ih =>
      refine ih.trans ?_
      simp only [Bool.and_eq_true, beq_iff_eq] at idle
      have shape : (b :: c :: rest).reverse = rest.reverse ++ slash :: [0x2E] := by
        simp [idle.1, idle.2]
      rw [shape, written_append, List.reverse_cons, idle.2, written_slash]
      exact List.prefix_append _ _
  | case3 b c rest => exact List.prefix_refl _
  | case4 back => exact List.prefix_refl _

/-- The directory above a path has the first of its names. -/
theorem written_parent {path parent : Path} (above : path.parent? = some parent)
    : parent.written <+: path.written := by
  have trimmed := written_trimBack path.bytes.reverse
  simp only [parent?] at above
  generalize trimBack path.bytes.reverse = back at above trimmed
  split at above
  · exact absurd above (by simp)
  obtain rfl := Option.some.inj above
  refine (written_trimBack _).trans ?_
  rw [List.reverse_reverse] at trimmed
  refine List.IsPrefix.trans ?_ trimmed
  have split := List.takeWhile_append_dropWhile (p := (· != slash)) (l := back)
  cases rest : back.dropWhile (· != slash) with
  | nil => simp
  | cons b others =>
      have same : b = slash := by
        simpa [rest] using List.head?_dropWhile_not (· != slash) back
      have shape
          : back.reverse = others.reverse ++ slash :: (back.takeWhile (· != slash)).reverse := by
        rw [rest, same] at split
        simpa using (congrArg List.reverse split).symm
      rw [shape, written_append, List.reverse_cons, same, written_slash]
      exact List.prefix_append _ _

/-- What holds of a path, and of the directory above a path of which it holds, holds of all
directories above the path, by induction on the way up.
-/
theorem ancestors_induction {holds : Path → Prop} {path : Path} (start : holds path)
    (up : ∀ path parent, holds path → path.parent? = some parent → holds parent)
    : ∀ ancestor ∈ path.ancestors, holds ancestor := by
  intro ancestor member
  have climb : ∀ count (path : Path), holds path → ancestor ∈ ancestors.go count path →
      holds ancestor := by
    intro count
    induction count with
    | zero =>
        intro path start member
        exact List.mem_singleton.mp member ▸ start
    | succ count ih =>
        intro path start member
        unfold ancestors.go at member
        split at member
        · exact List.mem_singleton.mp member ▸ start
        · rename_i parent above
          rcases List.mem_cons.mp member with rfl | member
          · exact start
          · exact ih parent (up path parent start above) member
  exact climb _ path start member

/-- Every directory above a path has the first of its names. -/
theorem written_ancestor {path ancestor : Path} (member : ancestor ∈ path.ancestors)
    : ancestor.written <+: path.written :=
  ancestors_induction (List.prefix_refl _)
    (fun _ _ first above => (written_parent above).trans first) _ member

/-- Dropping from the end of a path leaves its beginning. -/
theorem trimBack_suffix (back : Bytes) : trimBack back <:+ back := by
  fun_induction trimBack back with
  | case1 b c rest _ ih => exact ih.trans (List.suffix_cons b _)
  | case2 b c rest _ _ ih => exact ih.trans (List.suffix_cons b _)
  | case3 b c rest => exact List.suffix_refl _
  | case4 back => exact List.suffix_refl _

theorem bytes_parent {path parent : Path} (above : path.parent? = some parent)
    : parent.bytes <+: path.bytes := by
  simp only [parent?] at above
  split at above
  · exact absurd above (by simp)
  obtain rfl := Option.some.inj above
  have upper := trimBack_suffix path.bytes.reverse
  have lower := (trimBack_suffix ((trimBack path.bytes.reverse).dropWhile (· != slash))).trans
    (List.dropWhile_suffix _)
  simpa using List.reverse_prefix.mpr (lower.trans upper)

/-- A directory above a path has a path that starts as it does. -/
theorem bytes_ancestor {path ancestor : Path} (member : ancestor ∈ path.ancestors)
    : ancestor.bytes <+: path.bytes :=
  ancestors_induction (List.prefix_refl _)
    (fun _ _ first above => (bytes_parent above).trans first) _ member

/-- The beginning of a path starts where the path does. -/
theorem isAbsolute_of_front {front path : Path} (isFront : front.bytes <+: path.bytes)
    (nonempty : front.isEmpty = false)
    : path.isEmpty = false ∧ front.isAbsolute = path.isAbsolute := by
  obtain ⟨rest, same⟩ := isFront
  cases bytes : front.bytes with
  | nil => simp [isEmpty, bytes] at nonempty
  | cons b others => simp [isAbsolute, isEmpty, bytes, ← same]

/-- A proper name at the end of a path stays there. -/
theorem trimBack_name {name : Bytes} (proper : IsName name) (back : Bytes)
    : trimBack (name.reverse ++ back) = name.reverse ++ back := by
  have noSlash : slash ∉ name.reverse := by simpa using proper.noSlash
  have notDot : name.reverse ≠ [0x2E] := by
    intro same
    exact proper.notDot (by rw [← List.reverse_reverse name, same]; rfl)
  cases last : name.reverse with
  | nil => exact absurd (List.reverse_eq_nil_iff.mp last) proper.nonempty
  | cons b rest =>
      rw [last] at noSlash notDot
      simp only [List.mem_cons, not_or] at noSlash
      have first : (b == slash) = false := by simpa using Ne.symm noSlash.1
      cases both : rest ++ back with
      | nil =>
          simp only [List.cons_append, both]
          rfl
      | cons c others =>
          have second : (b == 0x2E && c == slash) = false := by
            cases rest with
            | nil =>
                simp only [Bool.and_eq_false_iff, beq_eq_false_iff_ne]
                exact Or.inl fun same => notDot (by rw [same])
            | cons d more =>
                have same : d = c := by simpa using congrArg List.head? both
                simp only [List.mem_cons, not_or] at noSlash
                simp [← same, Ne.symm noSlash.2.1]
          rw [List.cons_append, both, trimBack, first, second]
          rfl

/-- The directory above a joined name has the first of the names of the path to which it is joined.
-/
theorem written_parent_join {directory parent : Path} {name : Bytes} (proper : IsName name)
    (above : (directory.join name).parent? = some parent)
    : parent.written <+: directory.written := by
  have pure : ∀ b ∈ name.reverse, (b != slash) = true := by
    intro b member
    have inName := List.mem_reverse.mp member
    simpa using ne_of_mem_of_not_mem inName proper.noSlash
  rcases join_eq directory proper.noSlash with ⟨empty, eq⟩ | ⟨front, _, eq, same, _⟩
  · have trimmed := trimBack_name proper []
    rw [List.append_nil] at trimmed
    simp only [parent?, eq, trimmed] at above
    split at above
    · exact absurd above (by simp)
    · obtain rfl := Option.some.inj above
      rw [List.dropWhile_eq_nil_iff.mpr pure]
      exact List.nil_prefix
  · have back : (front ++ slash :: name).reverse = name.reverse ++ slash :: front.reverse := by
      simp
    simp only [parent?, eq, back, trimBack_name proper] at above
    split at above
    · exact absurd above (by simp)
    · obtain rfl := Option.some.inj above
      rw [List.dropWhile_append_of_pos pure, List.dropWhile_cons_of_neg (by simp), same]
      have := written_trimBack (slash :: front.reverse)
      rwa [List.reverse_cons, List.reverse_reverse, written_slash] at this

/-- The directory above a path that has been joined from names has the first of its names, and starts
where the directory below which they lead does.
-/
theorem parent_below {directory parent : Path} {names : List Bytes} (some : names ≠ [])
    (proper : ∀ name ∈ names, IsName name) (above : (directory.below names).parent? = .some parent)
    : parent.written <+: directory.written ++ names.dropLast
      ∧ (parent.isEmpty = false → parent.isAbsolute = directory.isAbsolute) := by
  have split := List.dropLast_concat_getLast some
  have others : ∀ name ∈ names.dropLast, IsName name :=
    fun name member => proper name (List.dropLast_subset _ member)
  constructor
  · rw [← split, below_concat] at above
    have shorter := written_parent_join (proper _ (List.getLast_mem some)) above
    rwa [written_below _ others] at shorter
  · intro nonempty
    rw [(isAbsolute_of_front (bytes_parent above) nonempty).2, isAbsolute_below _ proper]

-----------------------------------------------------------------------------------------
-- Paths without the slashes at their end
-----------------------------------------------------------------------------------------

theorem written_dropSlashes (back : Bytes)
    : written ⟨(back.dropWhile (· == slash)).reverse⟩ = written ⟨back.reverse⟩ := by
  induction back with
  | nil => rfl
  | cons b rest ih =>
      by_cases same : b = slash
      · rw [List.dropWhile_cons_of_pos (by simp [same]), ih, List.reverse_cons, same, written_slash]
      · rw [List.dropWhile_cons_of_neg (by simp [same])]

/-- A closed path has just the written names, and starts where the path does. -/
theorem names_closed (path : Path)
    : (FileTree.closed path).names = path.written
      ∧ (FileTree.closed path).isAbsolute = path.isAbsolute := by
  have same := written_dropSlashes path.bytes.reverse
  have split := List.takeWhile_append_dropWhile (p := (· == slash)) (l := path.bytes.reverse)
  have first := List.head?_dropWhile_not (· == slash) path.bytes.reverse
  rw [List.reverse_reverse] at same
  unfold FileTree.closed
  cases back : path.bytes.reverse.dropWhile (· == slash) with
  | nil =>
      rw [back] at same
      have none : path.written = [] := same.symm
      exact ⟨by simp [names_eq, none], rfl⟩
  | cons b rest =>
      rw [back] at same first split
      have noSlash : b ≠ slash := by simpa using first
      refine ⟨?_, ?_⟩
      · rw [names_eq, if_neg (by simp [endsOpen, noSlash])]
        exact same
      · have bytes := congrArg List.reverse split
        rw [List.reverse_reverse, List.reverse_append] at bytes
        change isAbsolute ⟨(b :: rest).reverse⟩ = path.isAbsolute
        unfold isAbsolute
        rw [← bytes, List.reverse_cons, List.append_assoc]
        cases rest.reverse <;> rfl

/-- The path of a name joined to a directory has no slashes at its end. -/
theorem closed_join (directory : Path) (proper : IsName name)
    : FileTree.closed (directory.join name) = directory.join name := by
  have last : name.reverse.dropWhile (· == slash) = name.reverse := by
    refine List.dropWhile_eq_self_iff.mpr fun nonempty => ?_
    have member := List.mem_reverse.mp (List.getElem_mem nonempty)
    have other : name.reverse[0] ≠ slash := fun same => proper.noSlash (same ▸ member)
    simpa using other
  obtain ⟨front, eq⟩ : ∃ front, (directory.join name).bytes = front ++ name := by
    obtain ⟨_, eq⟩ | ⟨front, _, eq, _⟩ := join_eq directory proper.noSlash
    · exact ⟨[], by simp [eq]⟩
    · exact ⟨front ++ [slash], by simp [eq]⟩
  have kept : (front ++ name).reverse.dropWhile (· == slash) = (front ++ name).reverse := by
    rw [List.reverse_append, List.dropWhile_append, last, if_neg (by simpa using proper.nonempty)]
  unfold FileTree.closed
  split
  · rfl
  · rw [eq, kept, List.reverse_reverse, ← eq]

end Vetting.Path
