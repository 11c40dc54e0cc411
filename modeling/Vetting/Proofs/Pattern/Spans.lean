import Mathlib.Data.List.Basic
import Vetting.Proofs.Pattern.Search

/-! What a pattern may take. A match takes a text that its pattern spans, and goes on behind it. So
where every text that a pattern spans has a certain character behind characters of a certain kind, a
search passes over all that ends in a character of another kind and is without the former.
-/

namespace Vetting.Pattern

/-- Texts of a kind in a row, as many as a condition allows. -/
def InRow (kind : List Char → Prop) (count : Nat → Prop) (taken : List Char) : Prop :=
  ∃ parts : List (List Char),
    taken = parts.flatten ∧ (∀ part ∈ parts, kind part) ∧ count parts.length

/-- A text that a pattern may take, whatever stands around it. -/
def Spans : Pattern → List Char → Prop
  | empty, taken => taken = []
  | one member, taken => ∃ c, taken = [c] ∧ member c = true
  | look _, taken => taken = []
  | seq first second, taken =>
      ∃ front back, taken = front ++ back ∧ first.Spans front ∧ second.Spans back
  | alt first second, taken => first.Spans taken ∨ second.Spans taken
  | rep _ least most body, taken =>
      InRow body.Spans (fun n => least ≤ n ∧ ∀ bound ∈ most, n ≤ max least bound) taken
  | group _ body, taken => body.Spans taken

variable {β : Type} {pattern : Pattern} {taken front text : List Char}

-----------------------------------------------------------------------------------------
-- Matches
-----------------------------------------------------------------------------------------

section

variable {kind : List Char → Prop} {next : Continuation β} {p : Progress} {answer : β}

/-- From a place one goes on behind a text of a kind. -/
def GoesOn (kind : List Char → Prop) (next : Continuation β) (p : Progress) (answer : β) : Prop :=
  ∃ taken q, p.rest = taken ++ q.rest ∧ kind taken ∧ next q = some answer

/-- A step takes a text of a kind from where it starts, and goes on behind it. -/
def Takes (step : Continuation β → Continuation β) (kind : List Char → Prop) : Prop :=
  ∀ next p answer, step next p = some answer → GoesOn kind next p answer

/-- What goes on at once has taken nothing. -/
theorem GoesOn.here (nothing : kind []) (onward : next p = some answer)
    : GoesOn kind next p answer :=
  ⟨[], p, rfl, nothing, onward⟩

/-- Two texts that are taken one behind the other are one text. -/
theorem GoesOn.behind {first second : List Char → Prop} {between : Continuation β}
    (front : GoesOn first between p answer)
    (back : ∀ q, between q = some answer → GoesOn second next q answer)
    (joins : ∀ front back, first front → second back → kind (front ++ back))
    : GoesOn kind next p answer := by
  obtain ⟨front, q, split, here, onward⟩ := front
  obtain ⟨back, r, later, there, last⟩ := back q onward
  exact ⟨front ++ back, r, by rw [split, later, List.append_assoc], joins _ _ here there, last⟩

theorem InRow.cons {count more : Nat → Prop} (grows : ∀ n, count n → more (n + 1))
    {front back : List Char} (first : kind front) (others : InRow kind count back)
    : InRow kind more (front ++ back) := by
  obtain ⟨parts, rfl, all, number⟩ := others
  exact ⟨front :: parts, rfl, List.forall_mem_cons.mpr ⟨first, all⟩, grows _ number⟩

theorem InRow.append {first second both : Nat → Prop}
    (adds : ∀ m n, first m → second n → both (m + n)) {front back : List Char}
    (some : InRow kind first front) (others : InRow kind second back)
    : InRow kind both (front ++ back) := by
  obtain ⟨parts, rfl, all, number⟩ := some
  obtain ⟨more, rfl, rest, further⟩ := others
  refine ⟨parts ++ more, List.flatten_append.symm, List.forall_mem_append.mpr ⟨all, rest⟩, ?_⟩
  rw [List.length_append]
  exact adds _ _ number further

/-- An answer of two ways to go on is the answer of one of them. -/
theorem either_eq_some {first second : Continuation β} (found : either first second p = some answer)
    : first p = some answer ∨ second p = some answer := by
  rw [either] at found
  split at found
  · rename_i one
    exact .inl (one.trans found)
  · exact .inr found

variable {body : Continuation β → Continuation β}

/-- A step in a row takes as many texts in a row, by induction on their number. -/
theorem Takes.rounds (takes : Takes body kind) (n : Nat)
    : Takes (rounds body n) (InRow kind (· = n)) := by
  induction n with
  | zero => exact fun next p answer onward => .here ⟨[], rfl, nofun, rfl⟩ onward
  | succ n ih =>
      intro next p answer ran
      exact (takes _ _ _ ran).behind (fun q onward => ih _ _ _ onward) fun _ _ =>
        InRow.cons fun _ => congrArg (· + 1)

/-- A step that is repeated takes at most as many texts in a row, by induction on their number. -/
theorem Takes.moreRounds (takes : Takes body kind) (greedy : Bool) (n : Nat)
    : Takes (moreRounds body greedy n) (InRow kind (· ≤ n)) := by
  induction n with
  | zero => exact fun next p answer onward => .here ⟨[], rfl, nofun, Nat.le_refl _⟩ onward
  | succ n ih =>
      intro next p answer ran
      have stop : next p = some answer → GoesOn (InRow kind (· ≤ n + 1)) next p answer :=
        .here ⟨[], rfl, nofun, Nat.zero_le _⟩
      have again : body (fun q => if q.rest.length < p.rest.length
          then Pattern.moreRounds body greedy n next q else none) p = some answer →
          GoesOn (InRow kind (· ≤ n + 1)) next p answer := by
        have grows : ∀ m, m ≤ n → m + 1 ≤ n + 1 := fun _ few => Nat.succ_le_succ few
        refine fun more => (takes _ _ _ more).behind (fun q onward => ?_) fun _ _ =>
          InRow.cons grows
        exact ih _ _ _ (Option.ite_none_right_eq_some.mp onward).2
      unfold Pattern.moreRounds at ran
      cases greedy with
      | true => exact (either_eq_some ran).elim again stop
      | false => exact (either_eq_some ran).elim stop again

end

/-- A pattern takes what it spans, by induction on it. -/
theorem takes_spans (pattern : Pattern) : Takes (β := β) (run pattern) pattern.Spans := by
  induction pattern with
  | empty => exact fun next p answer onward => .here rfl onward
  | one member =>
      intro next p answer ran
      obtain ⟨c, rest, split, listed, onward⟩ := run_one_eq_some.mp ran
      exact ⟨[c], ⟨some c, rest, p.groups⟩, split, ⟨c, rfl, listed⟩, onward⟩
  | look condition =>
      intro next p answer ran
      unfold run at ran
      exact .here rfl (Option.ite_none_right_eq_some.mp ran).2
  | seq first second one two =>
      intro next p answer ran
      exact (one _ _ _ ran).behind (fun q onward => two _ _ _ onward) fun front back here there =>
        ⟨front, back, rfl, here, there⟩
  | alt first second one two =>
      intro next p answer ran
      rcases either_eq_some ran with found | found
      · obtain ⟨taken, q, split, here, onward⟩ := one _ _ _ found
        exact ⟨taken, q, split, .inl here, onward⟩
      · obtain ⟨taken, q, split, here, onward⟩ := two _ _ _ found
        exact ⟨taken, q, split, .inr here, onward⟩
  | rep greedy least most body ih =>
      intro next p answer ran
      have more : ∀ q,
          Pattern.moreRounds (run body) greedy ((most.map (· - least)).getD q.rest.length) next q
            = some answer
          → GoesOn (InRow body.Spans fun n => ∀ bound ∈ most, n ≤ bound - least) next q answer := by
        intro q onward
        obtain ⟨_, r, split, ⟨parts, rfl, all, few⟩, last⟩ := Takes.moreRounds ih greedy _ _ _ _ onward
        refine ⟨_, r, split, ⟨parts, rfl, all, ?_⟩, last⟩
        rintro bound ⟨⟩
        exact few
      refine (Takes.rounds ih least _ _ _ ran).behind more fun front back here there => ?_
      refine InRow.append (fun m n same few => ⟨by omega, fun bound given => ?_⟩) here there
      have few := few bound given
      omega
  | group index body ih =>
      intro next p answer ran
      obtain ⟨taken, q, split, here, onward⟩ := ih _ _ _ ran
      refine ⟨taken, _, ?_, here, onward⟩
      exact split

/-- A match takes what the pattern spans. -/
theorem spans_of_matchAt? {before : Option Char} {found : Progress}
    (starts : matchAt? pattern before text = some found)
    : ∃ taken, text = taken ++ found.rest ∧ pattern.Spans taken := by
  obtain ⟨taken, q, split, spans, last⟩ := takes_spans pattern _ _ _ starts
  obtain rfl := Option.some.inj last
  exact ⟨taken, split, spans⟩

-----------------------------------------------------------------------------------------
-- Common patterns
-----------------------------------------------------------------------------------------

variable {member : Char → Bool} {others : List Pattern}

theorem spans_char {c : Char} : (char c).Spans taken ↔ taken = [c] := by
  simp [char, Spans]

theorem spans_group {index : Nat} : (group index pattern).Spans taken ↔ pattern.Spans taken :=
  .rfl

theorem spans_sequence_cons
    : (sequence (pattern :: others)).Spans taken
      ↔ ∃ front back, taken = front ++ back ∧ pattern.Spans front ∧ (sequence others).Spans back := by
  cases others with
  | nil => simp [sequence, Spans]
  | cons => rfl

/-- A word spans itself, by induction on its characters. -/
theorem spans_word {word : String} : (Pattern.word word).Spans taken ↔ taken = word.toList := by
  rw [Pattern.word]
  induction word.toList generalizing taken with
  | nil => rfl
  | cons c more ih =>
      rw [List.map_cons, spans_sequence_cons]
      simp only [spans_char, ih]
      constructor
      · rintro ⟨_, _, rfl, rfl, rfl⟩
        rfl
      · rintro rfl
        exact ⟨[c], more, rfl, rfl, rfl⟩

/-- Rounds are made of the characters of which each of them is made. -/
theorem forall_of_spans_rep {greedy : Bool} {least : Nat} {most : Option Nat} {kind : Char → Bool}
    (each : ∀ part, pattern.Spans part → ∀ c ∈ part, kind c = true)
    (spans : (rep greedy least most pattern).Spans taken)
    : ∀ c ∈ taken, kind c = true := by
  obtain ⟨parts, rfl, members, _⟩ := spans
  intro c inside
  obtain ⟨part, listed, here⟩ := List.mem_flatten.mp inside
  exact each part (members part listed) c here

/-- They start as one of them does. -/
theorem head_of_spans_rep {greedy : Bool} {least : Nat} {most : Option Nat} {starts : Char → Prop}
    (each : ∀ part, pattern.Spans part → ∃ c ∈ part.head?, starts c)
    (spans : (rep greedy least most pattern).Spans taken)
    : taken = [] ∨ ∃ c ∈ taken.head?, starts c := by
  obtain ⟨_ | ⟨part, parts⟩, rfl, members, _⟩ := spans
  · exact .inl rfl
  · obtain ⟨c, first, begins⟩ := each part (members part List.mem_cons_self)
    obtain ⟨rest, rfl⟩ := List.head?_eq_some_iff.mp first
    exact .inr ⟨c, rfl, begins⟩

/-- Rounds of a class span the texts that are made of its members. -/
theorem all_of_spans_rep {greedy : Bool} {least : Nat} {most : Option Nat}
    (spans : (rep greedy least most (one member)).Spans taken)
    : ∀ c ∈ taken, member c = true := by
  refine forall_of_spans_rep (fun part spans c inside => ?_) spans
  obtain ⟨d, rfl, listed⟩ := spans
  rwa [List.mem_singleton.mp inside]

theorem ne_nil_of_spans_oneOrMore (spans : (oneOrMore (one member)).Spans taken) : taken ≠ [] := by
  obtain ⟨_ | ⟨part, parts⟩, rfl, members, some, _⟩ := spans
  · simp at some
  · obtain ⟨c, rfl, _⟩ := members part List.mem_cons_self
    simp

/-- What may be missing is missing or taken once. -/
theorem spans_optional (spans : (optional pattern).Spans taken)
    : taken = [] ∨ pattern.Spans taken := by
  obtain ⟨parts, rfl, members, _, few⟩ := spans
  have few := few 1 rfl
  match parts, few with
  | [], _ => exact .inl rfl
  | [part], _ =>
      refine .inr ?_
      simpa using members part List.mem_cons_self

-----------------------------------------------------------------------------------------
-- Texts that a search passes over
-----------------------------------------------------------------------------------------

/-- A search passes over a text, whatever stands behind it. -/
def Passes (pattern : Pattern) (front : List Char) : Prop :=
  ∀ before text, ∃ last, search? pattern before (front ++ text) = search? pattern last text

theorem Passes.nil : Passes pattern [] :=
  fun before _ => ⟨before, rfl⟩

theorem Passes.append {back : List Char} (first : Passes pattern front)
    (second : Passes pattern back)
    : Passes pattern (front ++ back) := by
  intro before text
  obtain ⟨between, onward⟩ := first before (back ++ text)
  obtain ⟨last, later⟩ := second between text
  exact ⟨last, by rw [List.append_assoc, onward, later]⟩

/-- Behind what it passes over it finds a match that starts there. -/
theorem Passes.search?_eq {found : Progress} (passes : Passes pattern front)
    (starts : ∀ before, matchAt? pattern before text = some found) (before : Option Char)
    : search? pattern before (front ++ text) = some found := by
  obtain ⟨last, onward⟩ := passes before text
  rw [onward]
  exact search?_of_matchAt? (starts last)

/-- It passes over texts in a row, by induction on them. -/
theorem Passes.flatMap {α : Type} {items : List α} {f : α → List Char}
    (each : ∀ item ∈ items, Passes pattern (f item))
    : Passes pattern (items.flatMap f) := by
  induction items with
  | nil => exact .nil
  | cons item rest ih =>
      obtain ⟨here, others⟩ := List.forall_mem_cons.mp each
      rw [List.flatMap_cons]
      exact here.append (ih others)

/-- A search passes over characters with which nothing starts that its pattern spans. -/
theorem passes_of_starts {kind : Char → Bool}
    (starts : ∀ taken, pattern.Spans taken → ∃ c ∈ taken.head?, kind c = false)
    (all : ∀ c ∈ front, kind c = true)
    : Passes pattern front := by
  intro before text
  refine search?_append (fun start some ends before => ?_) before
  rw [Option.eq_none_iff_forall_ne_some]
  intro found matched
  obtain ⟨taken, split, spans⟩ := spans_of_matchAt? matched
  obtain ⟨c, first, begins⟩ := starts taken spans
  have head : start.head? = .some c := by
    rw [← List.head?_append_of_ne_nil start some, split, List.head?_append, first]
    rfl
  rw [all c (ends.subset (List.mem_of_head? head))] at begins
  cases begins

/-- It passes over a text with a character behind it when nothing is matched from within the text. -/
theorem passes_concat {c : Char}
    (nowhere
      : ∀ start, start <:+ front → ∀ before text, matchAt? pattern before (start ++ c :: text) = none)
    : Passes pattern (front ++ [c]) := by
  intro before text
  refine search?_append (fun start some ends before => ?_) before
  rcases List.suffix_concat_iff.mp ends with rfl | ⟨start, rfl, within⟩
  · exact absurd rfl some
  · rw [List.append_assoc]
    exact nowhere start within before text

/-- The texts that a pattern spans have a character behind others of a kind. -/
def Reaches (pattern : Pattern) (kind : Char → Bool) (mark : Char) : Prop :=
  ∀ taken,
    pattern.Spans taken
    → ∃ lead rest, taken = lead ++ mark :: rest ∧ ∀ c ∈ lead, kind c = true

variable {kind : Char → Bool} {mark c : Char}

/-- Nothing is matched where a character of another kind comes before the mark. -/
theorem Reaches.matchAt?_none (reaches : Reaches pattern kind mark) (absent : mark ∉ front)
    (other : c ≠ mark) (barred : kind c = false) (before : Option Char) (text : List Char)
    : matchAt? pattern before (front ++ c :: text) = none := by
  rw [Option.eq_none_iff_forall_ne_some]
  intro found matched
  obtain ⟨_, split, spans⟩ := spans_of_matchAt? matched
  obtain ⟨lead, rest, rfl, all⟩ := reaches _ spans
  rw [List.append_assoc] at split
  rcases List.append_eq_append_iff.mp split with ⟨more, rfl, onward⟩ | ⟨more, rfl, onward⟩
  · rcases List.cons_eq_append_iff.mp onward with ⟨_, same⟩ | ⟨more, rfl, _⟩
    · exact other (List.cons.inj same).1.symm
    · have := all c (by simp)
      rw [barred] at this
      cases this
  · rcases List.cons_eq_append_iff.mp onward with ⟨_, same⟩ | ⟨more, rfl, _⟩
    · exact other (List.cons.inj same).1
    · exact absent (by simp)

/-- So a search passes over a text without the mark that ends with such a character. -/
theorem Reaches.passes (reaches : Reaches pattern kind mark) (absent : mark ∉ front)
    (other : c ≠ mark) (barred : kind c = false)
    : Passes pattern (front ++ [c]) :=
  passes_concat fun _ ends =>
    reaches.matchAt?_none (fun inside => absent (ends.subset inside)) other barred

/-- Nothing is found in a text without the mark. -/
theorem Reaches.search?_none (reaches : Reaches pattern kind mark) (absent : mark ∉ text)
    (before : Option Char)
    : search? pattern before text = none := by
  refine Pattern.search?_none (fun start ends before => ?_) before
  rw [Option.eq_none_iff_forall_ne_some]
  intro found matched
  obtain ⟨_, split, spans⟩ := spans_of_matchAt? matched
  obtain ⟨lead, rest, rfl, _⟩ := reaches _ spans
  exact absent (ends.subset (by rw [split]; simp))

end Vetting.Pattern
