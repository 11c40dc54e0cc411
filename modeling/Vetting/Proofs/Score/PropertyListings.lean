import Mathlib.Data.List.Forall2
import Vetting.Command.Run
import Vetting.Proofs.Pattern.Search
import Vetting.Proofs.Text.Categories
import Vetting.Proofs.Text.Pieces

/-! Names in a listing of properties, line by line. The word behind a mark is taken whole and then
given back up to its last underscore, so what is read is what the word has behind that. A mark is
looked for from where the last word ended, and none can begin in one line and end in the next.
-/

namespace Vetting.PropertyListing

open Text Pattern

/-- What stands before the name of a property. -/
def mark : List Char := "Name:".toList

/-- What a line of a listing names. A line without a mark names nothing. A line with one names what
the word behind the mark has behind its last underscore.
-/
inductive Tells : List Char → Option String → Prop where
  | nothing {line : List Char} (unmarked : ¬ mark <:+: line) : Tells line none
  | property {lead blanks stem last rest : List Char} (leads : ¬ mark <:+: lead)
      (trails : ¬ mark <:+: rest) (blank : ∀ c ∈ blanks, isBlank c = true)
      (word : ∀ c ∈ stem ++ '_' :: last, isWordChar c = true) (inner : stem ≠ [] ∧ last ≠ [])
      (final : '_' ∉ last) (ends : ∀ c ∈ rest.head?, isBlank c = true)
      : Tells (lead ++ (mark ++ (blanks ++ (stem ++ '_' :: last ++ rest)))) (some (String.ofList last))

variable {front line left text : List Char} {before : Option Char}

-----------------------------------------------------------------------------------------
-- A property
-----------------------------------------------------------------------------------------

/-- Behind the last underscore of a word there is no other one, up to the blank that ends it. -/
theorem head?_ne_underscore {last : List Char} (within : left <:+ last) (final : '_' ∉ last)
    (ends : ∀ c ∈ text.head?, isBlank c = true)
    : (left ++ text).head? ≠ some '_' := by
  intro first
  cases left with
  | nil => exact absurd (ends '_' first) (by decide)
  | cons c more =>
      obtain rfl := Option.some.inj first
      exact final (within.subset List.mem_cons_self)

/-- Behind a mark, the last part of the word is read: what is not blank is taken up to the end of the
word, and behind the last underscore nothing can go on, for there is no other one.
-/
theorem matchAt?_property {blanks stem last : List Char} (blank : ∀ c ∈ blanks, isBlank c = true)
    (word : ∀ c ∈ stem ++ '_' :: last, isWordChar c = true) (inner : stem ≠ [] ∧ last ≠ [])
    (final : '_' ∉ last) (ends : ∀ c ∈ text.head?, isBlank c = true) (before : Option Char)
    : matchAt? namePattern before (mark ++ (blanks ++ (stem ++ '_' :: last ++ text)))
      = some ⟨last.getLast?.or (some '_'), text, [(1, last)]⟩ := by
  have solid : ∀ c ∈ stem ++ '_' :: last, (!isBlank c) = true := by
    intro c inside
    rw [not_blank_of_word (word c inside)]
    rfl
  have begins : ∃ c ∈ stem.head?, isWordChar c = true := by
    obtain ⟨c, more, rfl⟩ := List.exists_cons_of_ne_nil inner.1
    exact ⟨c, rfl, word c (by simp)⟩
  have stops : ∀ c ∈ text.head?, (!isBlank c) = false := by
    intro c first
    rw [ends c first]
    rfl
  have parted : ∀ c ∈ text.head?, isWordChar c = false :=
    fun c first => isWordChar_of_isBlank (ends c first)
  obtain ⟨solidStem, solidLast⟩ := List.forall_mem_append.mp solid
  obtain ⟨-, wordLast⟩ := List.forall_mem_append.mp word
  rw [matchAt?, namePattern, run_sequence_cons, List.append_assoc]
  refine run_word_of_next ?_
  rw [run_sequence_cons]
  refine run_zeroOrMore_of_next blank (head_not_blank begins) ?_
  rw [run_sequence_cons]
  refine run_oneOrMore_gives_back inner.1 solidStem solidLast stops ?_ ?_
  · intro left within other before
    rw [run_sequence_cons]
    refine run_char_none (head?_ne_underscore ?_ final ends)
    exact (List.suffix_cons_iff.mp within).resolve_left other
  · rw [run_sequence_cons, run_char_eq_some]
    refine ⟨last ++ text, rfl, ?_⟩
    exact run_group_oneOrMore_of_next inner.2 (List.forall_mem_cons.mp wordLast).2 parted rfl

-----------------------------------------------------------------------------------------
-- Texts without a mark
-----------------------------------------------------------------------------------------

theorem mark_unbordered : Unbordered mark := by
  decide +kernel

theorem matchAt?_none (other : ¬ mark <+: text) : matchAt? namePattern before text = none := by
  rw [Option.eq_none_iff_forall_ne_some]
  intro found starts
  rw [matchAt?, namePattern, run_sequence_cons, run_word_eq_some] at starts
  obtain ⟨rest, split, _⟩ := starts
  exact other ⟨rest, split.symm⟩

theorem search?_unmarked (unmarked : ¬ mark <:+: text) (before : Option Char)
    : search? namePattern before text = none :=
  search?_none (fun _ ends _ =>
    matchAt?_none fun starts => unmarked (starts.isInfix.trans ends.isInfix)) before

/-- Behind a text without a mark, the leftmost mark is the one that follows. -/
theorem search?_mark (unmarked : ¬ mark <:+: front) (rest : List Char) (before : Option Char)
    : ∃ last,
        search? namePattern before (front ++ (mark ++ rest))
          = search? namePattern last (mark ++ rest) :=
  search?_append (fun _ some ends _ =>
    matchAt?_none (mark_unbordered.not_prefix some
      (fun stands => unmarked (stands.trans ends.isInfix)) rest)) before

/-- No mark begins in a text and ends in a line behind it. -/
def Apart (front : List Char) : Prop :=
  ∀ line, ¬ mark <:+: line → ¬ mark <:+: front ++ line

theorem apart_nil : Apart [] :=
  fun _ unmarked => unmarked

theorem apart_concat (unmarked : ¬ mark <:+: front) : Apart (front ++ ['\n']) := by
  intro line alone stands
  rw [List.append_assoc] at stands
  rcases infix_of_not_mem (by decide) stands with inFront | inLine
  · exact unmarked inFront
  · exact alone inLine

-----------------------------------------------------------------------------------------
-- Line by line
-----------------------------------------------------------------------------------------

/-- What some matches have read. -/
def named (found : List Pattern.Progress) : List String :=
  found.map fun progress => String.ofList (progress.text 1)

/-- The search reads what a line tells, and goes on with a rest of it that has no mark. -/
theorem Tells.searchAll_eq {told : Option String} (tells : Tells line told) (apart : Apart front)
    {more : List Char} (ends : ∀ c ∈ more.head?, isBlank c = true)
    : ∃ left,
        ¬ mark <:+: left
        ∧ ∀ steps before,
            (front ++ (line ++ more)).length < steps
            → ∃ fewer later,
                (left ++ more).length < fewer
                ∧ named (searchAll namePattern steps before (front ++ (line ++ more)))
                  = told.toList ++ named (searchAll namePattern fewer later (left ++ more)) := by
  cases tells with
  | nothing unmarked =>
      refine ⟨front ++ line, apart line unmarked, fun steps before enough => ?_⟩
      rw [← List.append_assoc] at enough ⊢
      exact ⟨steps, before, enough, rfl⟩
  | @property lead blanks stem last rest leads trails blank word inner final closes =>
      refine ⟨rest, trails, fun steps before enough => ?_⟩
      have parted : ∀ c ∈ (rest ++ more).head?, isBlank c = true := by
        cases rest with
        | nil => exact ends
        | cons c others => exact closes
      have split : front ++ (lead ++ (mark ++ (blanks ++ (stem ++ '_' :: last ++ rest))) ++ more)
          = (front ++ lead) ++ (mark ++ (blanks ++ (stem ++ '_' :: last ++ (rest ++ more)))) := by
        simp only [List.append_assoc, List.cons_append]
      rw [split] at enough ⊢
      obtain ⟨_, onward⟩ := search?_mark (apart lead leads) _ before
      have found := onward.trans
        (search?_of_matchAt? (matchAt?_property blank word inner final parted _))
      have shorter : (rest ++ more).length
          < (front ++ lead ++ (mark ++ (blanks ++ (stem ++ '_' :: last ++ (rest ++ more))))).length := by
        simp only [List.length_append, List.length_cons]
        omega
      cases steps with
      | zero => cases enough
      | succ steps =>
          refine ⟨steps, last.getLast?.or (some '_'),
            Nat.lt_of_lt_of_le shorter (Nat.le_of_lt_succ enough), ?_⟩
          rw [searchAll_some found shorter]
          rfl

theorem head_flatMap_blank (lines : List (List Char))
    : ∀ c ∈ (lines.flatMap ('\n' :: ·)).head?, isBlank c = true := by
  cases lines with
  | nil => exact nofun
  | cons =>
      rintro _ ⟨⟩
      rfl

/-- The search reads what the lines tell, in their order, by induction on them. -/
theorem searchAll_lines {lines : List (List Char)} {told : List (Option String)}
    (tell : List.Forall₂ Tells lines told) (unmarked : ¬ mark <:+: left) {steps : Nat}
    (enough : (left ++ lines.flatMap ('\n' :: ·)).length < steps) (before : Option Char)
    : named (searchAll namePattern steps before (left ++ lines.flatMap ('\n' :: ·)))
      = told.filterMap id := by
  induction tell generalizing left steps before with
  | nil =>
      rw [List.flatMap_nil, List.append_nil, searchAll_none (search?_unmarked unmarked before)]
      rfl
  | @cons line first lines told tells _ ih =>
      have split : left ++ (line :: lines).flatMap ('\n' :: ·)
          = (left ++ ['\n']) ++ (line ++ lines.flatMap ('\n' :: ·)) := by
        simp only [List.flatMap_cons, List.append_assoc, List.cons_append, List.nil_append]
      obtain ⟨rest, alone, onward⟩ :=
        tells.searchAll_eq (apart_concat unmarked) (head_flatMap_blank lines)
      rw [split] at enough ⊢
      obtain ⟨fewer, later, enough, read⟩ := onward steps before enough
      rw [read, ih alone enough later]
      cases first <;> rfl

/-- The entities of a listing are what its lines tell, in their order. -/
theorem entities_eq {listing : List Char} {told : List (Option String)}
    (tell : List.Forall₂ Tells (splitChar '\n' listing) told)
    : entities listing = told.filterMap id := by
  obtain ⟨line, lines, pieces, split⟩ := exists_splitChar_eq '\n' listing
  rw [pieces] at tell
  obtain ⟨first, others, tells, later, rfl⟩ := List.forall₂_cons_left_iff.mp tell
  obtain ⟨rest, unmarked, onward⟩ := tells.searchAll_eq apart_nil (head_flatMap_blank lines)
  rw [List.nil_append, ← split] at onward
  obtain ⟨fewer, place, enough, read⟩ := onward _ none (Nat.lt_succ_self _)
  change named (searchAll namePattern (listing.length + 1) none listing) = _
  rw [read, searchAll_lines later unmarked enough place]
  cases first <;> rfl

-----------------------------------------------------------------------------------------
-- Expected names
-----------------------------------------------------------------------------------------

/-- Each name is kept at its first place, by induction on the names. -/
theorem distinct_eq (names : List String) : distinct names = names.eraseDups := by
  have onward : ∀ kept : List String,
      (names.foldl (fun (kept : List String) name =>
          if kept.contains name then kept else name :: kept) kept).reverse
        = List.eraseDupsBy.loop (· == ·) names kept := by
    induction names with
    | nil => exact fun _ => rfl
    | cons name rest ih =>
        intro kept
        rw [List.foldl_cons, ih, List.eraseDupsBy.loop, List.contains_eq_any_beq]
        cases kept.any (name == ·) <;> rfl
  exact onward []

/-- What is expected of some names: each at its first place, and nothing when there are none. -/
def expectation (names : List String) : Option (List String) :=
  if names = [] then none else some names.eraseDups

theorem expected?_eq (given : List String) (listing : List Char)
    : expected? given (some listing) = expectation (given ++ entities listing) := by
  simp only [expected?, Option.map_some, Option.getD_some, distinct_eq, expectation]
  cases given ++ entities listing with
  | nil => rfl
  | cons name rest => simp [List.eraseDups_cons]

/-- A listing whose lines name properties yields what they name, in their order. The names that an
artifact is expected to mention are those that are given and then these, each at its first place, and
nothing is expected without any; it is no matter whether the listing is at hand or is read from a file.
-/
theorem expected_of_listing {listing : List Char} {told : List (Option String)}
    (tell : List.Forall₂ Tells (splitChar '\n' listing) told)
    : entities listing = told.filterMap id
      ∧ ∀ given,
          expected? given (some listing) = expectation (given ++ told.filterMap id)
          ∧ ∀ (s : Surroundings) (path : Path),
              s.tree.readText path = .ok listing
              → s.expectedNames given (some path)
                = .ok (expectation (given ++ told.filterMap id)) := by
  have read := entities_eq tell
  refine ⟨read, fun given => ?_⟩
  have expected := expected?_eq given listing
  rw [read] at expected
  refine ⟨expected, fun s path text => ?_⟩
  rw [Surroundings.expectedNames, text, ← expected]
  rfl

/-- A listing of two properties with other lines between them and blanks of several kinds. -/
def mixedListing : List Char :=
  "Name: VEHICLE_ADAS_ABS_ISENABLED\r\nType: BOOLEAN (no Name)\n\tx Name:\tA__B unit Name\n".toList

/-- A directory with the listing in it. -/
def listingSurroundings : Surroundings where
  tree := ⟨[([Path.bytesOf "work"], .directory Entry.directoryMode),
    ([Path.bytesOf "work", Path.bytesOf "props"],
      .file (Text.encode mixedListing) Entry.fileMode)], [Path.bytesOf "work"]⟩
  environment := fun _ => none
  input := []
  now := default
  execute := fun _ _ => .refused .missing

theorem expected_of_listing_mixed
    : List.Forall₂ Tells (splitChar '\n' mixedListing) [some "ISENABLED", none, some "B", none]
      ∧ entities mixedListing = ["ISENABLED", "B"]
      ∧ expected? ["B", "X"] (some mixedListing) = some ["B", "X", "ISENABLED"]
      ∧ listingSurroundings.tree.readText (Path.ofString "props") = .ok mixedListing
      ∧ listingSurroundings.expectedNames ["B", "X"] (some (Path.ofString "props"))
        = .ok (some ["B", "X", "ISENABLED"]) := by
  have first : Tells "Name: VEHICLE_ADAS_ABS_ISENABLED\r".toList (some "ISENABLED") :=
    @Tells.property [] [' '] "VEHICLE_ADAS_ABS".toList "ISENABLED".toList ['\r'] (by decide +kernel)
      (by decide +kernel) (List.all_eq_true.mp rfl) (List.all_eq_true.mp (by decide +kernel))
      (by decide +kernel) (by decide +kernel) (by rintro _ ⟨⟩; rfl)
  have third : Tells "\tx Name:\tA__B unit Name".toList (some "B") :=
    @Tells.property "\tx ".toList ['\t'] ['A', '_'] ['B'] (' ' :: "unit Name".toList)
      (by decide +kernel) (by decide +kernel) (List.all_eq_true.mp rfl)
      (List.all_eq_true.mp (by decide +kernel)) (by decide +kernel) (by decide +kernel)
      (by rintro _ ⟨⟩; rfl)
  have pieces : splitChar '\n' mixedListing
      = ["Name: VEHICLE_ADAS_ABS_ISENABLED\r".toList, "Type: BOOLEAN (no Name)".toList,
        "\tx Name:\tA__B unit Name".toList, []] := by
    decide +kernel
  have tell : List.Forall₂ Tells (splitChar '\n' mixedListing)
      [some "ISENABLED", none, some "B", none] := by
    rw [pieces]
    exact .cons first (.cons (.nothing (by decide +kernel)) (.cons third
      (.cons (.nothing (by decide +kernel)) .nil)))
  have text : listingSurroundings.tree.readText (Path.ofString "props") = .ok mixedListing := by
    decide +kernel
  have expected : expectation ["B", "X", "ISENABLED", "B"] = some ["B", "X", "ISENABLED"] := by
    decide +kernel
  obtain ⟨read, names⟩ := expected_of_listing tell
  obtain ⟨atHand, fromFile⟩ := names ["B", "X"]
  exact ⟨tell, read, atHand.trans expected, text,
    (fromFile listingSurroundings _ text).trans (congrArg Except.ok expected)⟩

end Vetting.PropertyListing
