import Vetting.Pattern.Search

/-! Searching for patterns. A repetition takes a whole run of characters when one can go on behind it,
or when one can go on nowhere before its end. A search passes over the places at which no match starts.
-/

namespace Vetting.Pattern

variable {β : Type} {member : Char → Bool} {next : Continuation β} {taken rest : List Char}
  {groups : List (Nat × List Char)}

/-- The last of a run of characters, or else what came before it. -/
theorem getLast?_cons_or (c : Char) (taken : List Char) (before : Option Char)
    : (c :: taken).getLast?.or before = taken.getLast?.or (some c) := by
  cases taken <;> simp [List.getLast?_cons]

/-- A class fails where no member of it comes next. -/
theorem run_one_none {p : Progress} (ends : ∀ c ∈ p.rest.head?, member c = false)
    : run (one member) next p = none := by
  unfold run
  cases text : p.rest with
  | nil => rfl
  | cons c rest =>
      have other := ends c (by simp [text])
      simp [other]

/-- A class that has a member next goes on behind it. -/
theorem run_one_some {c : Char} (listed : member c = true) (before : Option Char)
    : run (one member) next ⟨before, c :: rest, groups⟩ = next ⟨some c, rest, groups⟩ := by
  simp [run, listed]

/-- A class goes on behind a member of it. -/
theorem run_one_eq_some {p : Progress} {answer : β}
    : run (one member) next p = some answer
      ↔ ∃ c rest,
          p.rest = c :: rest ∧ member c = true ∧ next ⟨some c, rest, p.groups⟩ = some answer := by
  obtain ⟨before, text, groups⟩ := p
  cases text with
  | nil => simp [run]
  | cons first rest =>
      simp only [run, Option.ite_none_right_eq_some, List.cons.injEq]
      constructor
      · rintro ⟨listed, onward⟩
        exact ⟨first, rest, ⟨rfl, rfl⟩, listed, onward⟩
      · rintro ⟨_, _, ⟨rfl, rfl⟩, listed, onward⟩
        exact ⟨listed, onward⟩

theorem run_char_none {c : Char} {p : Progress} (other : p.rest.head? ≠ some c)
    : run (char c) next p = none := by
  refine run_one_none fun d first => beq_eq_false_iff_ne.mpr ?_
  rintro rfl
  exact other first

/-- A character goes on behind itself. -/
theorem run_char_eq_some {c : Char} {p : Progress} {answer : β}
    : run (char c) next p = some answer
      ↔ ∃ rest, p.rest = c :: rest ∧ next ⟨some c, rest, p.groups⟩ = some answer := by
  rw [char, run_one_eq_some]
  constructor
  · rintro ⟨_, rest, here, same, onward⟩
    obtain rfl := beq_iff_eq.mp same
    exact ⟨rest, here, onward⟩
  · rintro ⟨rest, here, onward⟩
    exact ⟨c, rest, here, beq_self_eq_true c, onward⟩

/-- Rounds of a class take a whole run of its members when no member may come next behind them, by
induction on the run.
-/
theorem moreRounds_whole (all : ∀ c ∈ taken, member c = true)
    (ends : ∀ c ∈ rest.head?, member c = false)
    (stays : ∀ p : Progress, (∃ c ∈ p.rest.head?, member c = true) → next p = none) {n : Nat}
    (fits : taken.length ≤ n) (before : Option Char)
    : moreRounds (run (one member)) true n next ⟨before, taken ++ rest, groups⟩
      = next ⟨taken.getLast?.or before, rest, groups⟩ := by
  induction taken generalizing n before with
  | nil =>
      cases n with
      | zero => rfl
      | succ n =>
          unfold moreRounds
          simp only [if_true, either]
          rw [run_one_none (by simpa using ends)]
          rfl
  | cons c more ih =>
      obtain ⟨here, others⟩ := List.forall_mem_cons.mp all
      cases n with
      | zero => simp at fits
      | succ n =>
          have onward := ih others (Nat.le_of_succ_le_succ fits) (some c)
          have stopped : next ⟨before, c :: (more ++ rest), groups⟩ = none :=
            stays _ ⟨c, rfl, here⟩
          unfold moreRounds
          simp only [List.cons_append, if_true, either, stopped, getLast?_cons_or]
          rw [run_one_some here]
          simp only [List.length_cons, Nat.lt_succ_self, if_true, onward]
          cases next ⟨more.getLast?.or (some c), rest, groups⟩ <;> rfl

/-- At least one round of a class takes a whole run of its members in the same way. -/
theorem run_oneOrMore_whole (some : taken ≠ []) (all : ∀ c ∈ taken, member c = true)
    (ends : ∀ c ∈ rest.head?, member c = false)
    (stays : ∀ p : Progress, (∃ c ∈ p.rest.head?, member c = true) → next p = none)
    (before : Option Char)
    : run (oneOrMore (one member)) next ⟨before, taken ++ rest, groups⟩
      = next ⟨taken.getLast?, rest, groups⟩ := by
  cases taken with
  | nil => exact absurd rfl some
  | cons c more =>
      obtain ⟨here, others⟩ := List.forall_mem_cons.mp all
      rw [← Option.or_none (o := (c :: more).getLast?), getLast?_cons_or]
      exact (run_one_some here before).trans
        (moreRounds_whole others ends stays (by simp) (.some c))

/-- At least one round of a class fails where no member of it comes next. -/
theorem run_oneOrMore_none {p : Progress} (ends : ∀ c ∈ p.rest.head?, member c = false)
    : run (oneOrMore (one member)) next p = none := by
  change run (one member) (fun q => moreRounds (run (one member)) true q.rest.length next q) p = none
  exact run_one_none ends

/-- Rounds of a class take a run of its members when one can go on behind it, and no round is left there
or no member comes next, by induction on the run.
-/
theorem moreRounds_of_next {n : Nat} {before : Option Char} {answer : β}
    (all : ∀ c ∈ taken, member c = true) (fits : taken.length ≤ n)
    (ends : taken.length < n → ∀ c ∈ rest.head?, member c = false)
    (onward : next ⟨taken.getLast?.or before, rest, groups⟩ = some answer)
    : moreRounds (run (one member)) true n next ⟨before, taken ++ rest, groups⟩ = some answer := by
  induction taken generalizing n before with
  | nil =>
      cases n with
      | zero => exact onward
      | succ n =>
          unfold moreRounds
          simp only [if_true, either]
          rw [run_one_none (ends (Nat.succ_pos n))]
          exact onward
  | cons c more ih =>
      obtain ⟨here, others⟩ := List.forall_mem_cons.mp all
      cases n with
      | zero => simp at fits
      | succ n =>
          rw [getLast?_cons_or] at onward
          have later := ih others (Nat.le_of_succ_le_succ fits)
            (fun less => ends (Nat.succ_lt_succ less)) onward
          unfold moreRounds
          simp only [List.cons_append, if_true, either]
          rw [run_one_some here]
          simp only [List.length_cons, Nat.lt_succ_self, if_true, later]

theorem run_zeroOrMore_of_next {before : Option Char} {answer : β}
    (all : ∀ c ∈ taken, member c = true) (ends : ∀ c ∈ rest.head?, member c = false)
    (onward : next ⟨taken.getLast?.or before, rest, groups⟩ = some answer)
    : run (zeroOrMore (one member)) next ⟨before, taken ++ rest, groups⟩ = some answer :=
  moreRounds_of_next all (by simp) (fun _ => ends) onward

theorem run_oneOrMore_of_next {before : Option Char} {answer : β} (some : taken ≠ [])
    (all : ∀ c ∈ taken, member c = true) (ends : ∀ c ∈ rest.head?, member c = false)
    (onward : next ⟨taken.getLast?.or before, rest, groups⟩ = .some answer)
    : run (oneOrMore (one member)) next ⟨before, taken ++ rest, groups⟩ = .some answer := by
  cases taken with
  | nil => exact absurd rfl some
  | cons c more =>
      obtain ⟨here, others⟩ := List.forall_mem_cons.mp all
      rw [getLast?_cons_or] at onward
      exact (run_one_some here before).trans
        (moreRounds_of_next others (by simp) (fun _ => ends) onward)

/-- A step that fails is not repeated. -/
theorem moreRounds_of_none {body : Continuation β → Continuation β} {p : Progress}
    (fails : ∀ onward, body onward p = none) (n : Nat)
    : moreRounds body true n next p = next p := by
  cases n with
  | zero => rfl
  | succ n =>
      unfold moreRounds
      simp only [if_true, either]
      rw [fails]

/-- What may be missing is passed over where it is. -/
theorem run_optional_none {body : Pattern} {p : Progress}
    (fails : ∀ onward : Continuation β, run body onward p = none)
    : run (optional body) next p = next p :=
  moreRounds_of_none fails 1

theorem run_zeroOrMore_of_none {body : Pattern} {p : Progress}
    (fails : ∀ onward : Continuation β, run body onward p = none)
    : run (zeroOrMore body) next p = next p :=
  moreRounds_of_none fails _

/-- Rounds of a class take nothing where no member of it comes next. -/
theorem run_zeroOrMore_none {p : Progress} (ends : ∀ c ∈ p.rest.head?, member c = false)
    : run (zeroOrMore (one member)) next p = next p :=
  run_zeroOrMore_of_none fun _ => run_one_none ends

/-- A step is repeated where one can go on behind a round of it. -/
theorem moreRounds_some {body : Continuation β → Continuation β} {p : Progress} {n : Nat}
    {answer : β}
    (onward
      : body (fun q =>
            if q.rest.length < p.rest.length then moreRounds body true n next q else none) p
          = some answer)
    : moreRounds body true (n + 1) next p = some answer := by
  unfold moreRounds
  simp only [if_true, either, onward]

/-- What may be missing is taken where one can go on behind it. -/
theorem run_optional_some {body : Pattern} {p : Progress} {answer : β}
    (onward
      : run body (fun q => if q.rest.length < p.rest.length then next q else none) p = some answer)
    : run (optional body) next p = some answer :=
  moreRounds_some onward

/-- Rounds of a class go on nowhere when one can go on at no place up to the end of the run of its
members, by induction on the run.
-/
theorem moreRounds_none {n : Nat} {before : Option Char} (all : ∀ c ∈ taken, member c = true)
    (ends : ∀ c ∈ rest.head?, member c = false)
    (fails : ∀ left, left <:+ taken → ∀ before, next ⟨before, left ++ rest, groups⟩ = none)
    : moreRounds (run (one member)) true n next ⟨before, taken ++ rest, groups⟩ = none := by
  have here := fails taken (List.suffix_refl _) before
  induction taken generalizing n before with
  | nil =>
      rw [moreRounds_of_none fun _ => run_one_none (by simpa using ends)]
      exact here
  | cons c more ih =>
      cases n with
      | zero => exact here
      | succ n =>
          obtain ⟨listed, others⟩ := List.forall_mem_cons.mp all
          have later : ∀ left, left <:+ more → ∀ before, next ⟨before, left ++ rest, groups⟩ = none :=
            fun left ends => fails left (ends.trans (List.suffix_cons _ _))
          have onward := ih others later (later more (List.suffix_refl _) (some c)) (n := n)
          unfold moreRounds
          simp only [List.cons_append, if_true, either]
          rw [run_one_some listed]
          simp only [List.length_cons, Nat.lt_succ_self, if_true, onward]
          exact here

/-- Rounds of a class give back the end of the run of its members when one can go on before that and
nowhere within it, by induction on what they keep.
-/
theorem moreRounds_gives_back {extra : List Char} {n : Nat} {before : Option Char} {answer : β}
    (all : ∀ c ∈ taken, member c = true) (more : ∀ c ∈ extra, member c = true)
    (ends : ∀ c ∈ rest.head?, member c = false) (fits : taken.length ≤ n)
    (fails
      : ∀ left,
          left <:+ extra
          → left ≠ extra
          → ∀ before, next ⟨before, left ++ rest, groups⟩ = none)
    (onward : next ⟨taken.getLast?.or before, extra ++ rest, groups⟩ = some answer)
    : moreRounds (run (one member)) true n next ⟨before, taken ++ (extra ++ rest), groups⟩
      = some answer := by
  induction taken generalizing n before with
  | nil =>
      cases n with
      | zero => exact onward
      | succ n =>
          unfold moreRounds
          simp only [if_true, either, List.nil_append]
          cases extra with
          | nil =>
              rw [run_one_none (by simpa using ends)]
              exact onward
          | cons c others =>
              obtain ⟨listed, later⟩ := List.forall_mem_cons.mp more
              have none : moreRounds (run (one member)) true n next ⟨some c, others ++ rest, groups⟩
                  = none := by
                refine moreRounds_none later ends fun left ends => fails left ?_ ?_
                · exact ends.trans (List.suffix_cons _ _)
                · rintro rfl
                  exact absurd ends.length_le (by simp)
              rw [List.cons_append, run_one_some listed]
              simp only [List.length_cons, Nat.lt_succ_self, if_true, none]
              exact onward
  | cons c kept ih =>
      obtain ⟨listed, others⟩ := List.forall_mem_cons.mp all
      cases n with
      | zero => simp at fits
      | succ n =>
          rw [getLast?_cons_or] at onward
          have later := ih others (Nat.le_of_succ_le_succ fits) onward
          unfold moreRounds
          simp only [List.cons_append, if_true, either]
          rw [run_one_some listed]
          simp only [List.length_cons, Nat.lt_succ_self, if_true, later]

/-- At least one round of a class gives it back in the same way. -/
theorem run_oneOrMore_gives_back {extra : List Char} {before : Option Char} {answer : β}
    (some : taken ≠ []) (all : ∀ c ∈ taken, member c = true) (more : ∀ c ∈ extra, member c = true)
    (ends : ∀ c ∈ rest.head?, member c = false)
    (fails
      : ∀ left,
          left <:+ extra
          → left ≠ extra
          → ∀ before, next ⟨before, left ++ rest, groups⟩ = none)
    (onward : next ⟨taken.getLast?.or before, extra ++ rest, groups⟩ = .some answer)
    : run (oneOrMore (one member)) next ⟨before, taken ++ (extra ++ rest), groups⟩
      = .some answer := by
  cases taken with
  | nil => exact absurd rfl some
  | cons c kept =>
      obtain ⟨here, others⟩ := List.forall_mem_cons.mp all
      rw [getLast?_cons_or] at onward
      exact (run_one_some here before).trans
        (moreRounds_gives_back others more ends (by simp) fails onward)

/-- A character that may be missing is taken where it stands. -/
theorem run_optional_of_next {c : Char} {before : Option Char} {answer : β}
    (once : taken = [] ∨ taken = [c]) (ends : taken = [] → rest.head? ≠ some c)
    (onward : next ⟨taken.getLast?.or before, rest, groups⟩ = some answer)
    : run (optional (char c)) next ⟨before, taken ++ rest, groups⟩ = some answer := by
  refine moreRounds_of_next ?_ ?_ ?_ onward
  · rcases once with rfl | rfl <;> simp
  · rcases once with rfl | rfl <;> simp
  · intro less d first
    rcases once with rfl | rfl
    · rw [beq_eq_false_iff_ne]
      rintro rfl
      exact ends rfl first
    · simp at less

/-- The start of a text is the start of a line. -/
theorem run_lineStart
    : run lineStart next ⟨none, rest, groups⟩ = next ⟨none, rest, groups⟩ :=
  rfl

theorem run_seq (first second : Pattern)
    : run (seq first second) next = run first (run second next) :=
  rfl

/-- A sequence goes on with its other parts behind the first one. -/
theorem run_sequence_cons (first : Pattern) (others : List Pattern)
    : run (sequence (first :: others)) next = run first (run (sequence others) next) := by
  cases others <;> rfl

/-- A word is matched by itself, by induction on its characters. -/
theorem run_word_eq_some {word : String} {p : Progress} {answer : β}
    : run (.word word) next p = some answer
      ↔ ∃ rest,
          p.rest = word.toList ++ rest
          ∧ next ⟨word.toList.getLast?.or p.before, rest, p.groups⟩ = some answer := by
  rw [Pattern.word]
  induction word.toList generalizing p with
  | nil => simp [sequence, run]
  | cons c more ih =>
      rw [List.map_cons, run_sequence_cons, run_char_eq_some]
      simp only [ih, getLast?_cons_or]
      constructor
      · rintro ⟨_, here, rest, rfl, onward⟩
        exact ⟨rest, here, onward⟩
      · rintro ⟨rest, here, onward⟩
        exact ⟨more ++ rest, here, rest, rfl, onward⟩

theorem run_word_of_next {word : String} {before : Option Char} {answer : β}
    (onward : next ⟨word.toList.getLast?.or before, rest, groups⟩ = some answer)
    : run (.word word) next ⟨before, word.toList ++ rest, groups⟩ = some answer :=
  run_word_eq_some.mpr ⟨rest, rfl, onward⟩

/-- A group remembers what is taken between its start and the place behind it. -/
theorem take_between (taken rest : List Char)
    : (taken ++ rest).take ((taken ++ rest).length - rest.length) = taken := by
  rw [List.length_append, Nat.add_sub_cancel, List.take_left]

/-- A group of at least one round of a class remembers the run of its members. -/
theorem run_group_oneOrMore_of_next {index : Nat} {before : Option Char} {answer : β}
    (some : taken ≠ []) (all : ∀ c ∈ taken, member c = true)
    (ends : ∀ c ∈ rest.head?, member c = false)
    (onward : next ⟨taken.getLast?.or before, rest, (index, taken) :: groups⟩ = .some answer)
    : run (group index (oneOrMore (one member))) next ⟨before, taken ++ rest, groups⟩
      = .some answer := by
  refine run_oneOrMore_of_next some all ends ?_
  rw [take_between]
  exact onward

/-- A group of a character and rounds of a class remembers what it keeps, when the rounds give back the
end of the run of its members.
-/
theorem run_group_gives_back {first : Char → Bool} {c : Char} {extra : List Char} {index : Nat}
    {before : Option Char} {answer : β} (begins : first c = true)
    (all : ∀ c ∈ taken, member c = true) (more : ∀ c ∈ extra, member c = true)
    (ends : ∀ c ∈ rest.head?, member c = false)
    (fails
      : ∀ left,
          left <:+ extra
          → left ≠ extra
          → ∀ before groups, next ⟨before, left ++ rest, groups⟩ = none)
    (onward
      : next ⟨(c :: taken).getLast?, extra ++ rest, (index, c :: taken) :: groups⟩ = some answer)
    : run (group index (seq (one first) (zeroOrMore (one member)))) next
          ⟨before, c :: taken ++ (extra ++ rest), groups⟩
        = some answer := by
  refine (run_one_some begins before).trans ?_
  refine moreRounds_gives_back all more ends (by simp) ?_ ?_
  · exact fun left ends other before => fails left ends other before _
  · rw [← getLast?_cons_or, Option.or_none]
    exact (congrArg (fun kept => next ⟨_, _, (index, kept) :: groups⟩)
      (take_between (c :: taken) (extra ++ rest))).trans onward

variable {pattern : Pattern} {front text : List Char}

/-- A search ends where a match starts. -/
theorem search?_of_matchAt? {before : Option Char} {found : Progress}
    (starts : matchAt? pattern before text = some found)
    : search? pattern before text = some found := by
  unfold search?
  rw [starts]

/-- A search goes on with the next place where no match starts. -/
theorem search?_cons {before : Option Char} {c : Char}
    (fails : matchAt? pattern before (c :: text) = none)
    : search? pattern before (c :: text) = search? pattern (some c) text := by
  conv =>
    lhs
    unfold search?
    rw [fails]

/-- A search fails when a match starts nowhere, by induction on the text. -/
theorem search?_none
    (nowhere : ∀ start, start <:+ text → ∀ before, matchAt? pattern before start = none)
    (before : Option Char)
    : search? pattern before text = none := by
  induction text generalizing before with
  | nil =>
      unfold search?
      rw [nowhere [] (List.suffix_refl _) before]
  | cons c rest ih =>
      rw [search?_cons (nowhere _ (List.suffix_refl _) before)]
      exact ih (fun start ends => nowhere start (ends.trans (List.suffix_cons _ _))) _

/-- A search passes over a text when no match starts in it, by induction on the text. -/
theorem search?_append
    (nowhere
      : ∀ start,
          start ≠ []
          → start <:+ front
          → ∀ before, matchAt? pattern before (start ++ text) = none)
    (before : Option Char)
    : ∃ last, search? pattern before (front ++ text) = search? pattern last text := by
  induction front generalizing before with
  | nil => exact ⟨before, rfl⟩
  | cons c rest ih =>
      have here := nowhere (c :: rest) (by simp) (List.suffix_refl _) before
      have later : ∀ start, start ≠ [] → start <:+ rest →
          ∀ before, matchAt? pattern before (start ++ text) = none :=
        fun start some ends => nowhere start some (ends.trans (List.suffix_cons _ _))
      obtain ⟨last, onward⟩ := ih later (.some c)
      exact ⟨last, (search?_cons here).trans onward⟩

/-- There are no matches where nothing is found. -/
theorem searchAll_none {before : Option Char} (nothing : search? pattern before text = none)
    (steps : Nat)
    : searchAll pattern steps before text = [] := by
  cases steps with
  | zero => rfl
  | succ steps =>
      unfold searchAll
      rw [nothing]

/-- A match that takes something comes before those behind it. -/
theorem searchAll_some {before : Option Char} {first : Progress}
    (finds : search? pattern before text = some first)
    (shorter : first.rest.length < text.length) (steps : Nat)
    : searchAll pattern (steps + 1) before text
      = first :: searchAll pattern steps first.before first.rest := by
  conv =>
    lhs
    unfold searchAll
  simp only [finds, shorter, if_true]

end Vetting.Pattern
