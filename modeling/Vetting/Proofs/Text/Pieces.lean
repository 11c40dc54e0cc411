import Mathlib.Data.List.DropRight
import Vetting.Proofs.Results
import Vetting.Text.Search

/-! Texts and their pieces: texts that are joined, pieces between separators, what stands before and
behind a word, and texts without the blanks around them.
-/

namespace Vetting.Text

-----------------------------------------------------------------------------------------
-- Joined texts
-----------------------------------------------------------------------------------------

section

variable {α : Type} {separator part : List α} {parts : List (List α)}

/-- What is joined with others stands in what they make up, by induction on them. -/
theorem infix_intercalate (member : part ∈ parts) : part <:+: separator.intercalate parts := by
  induction parts with
  | nil => exact absurd member (by simp)
  | cons first rest ih =>
      cases rest with
      | nil =>
          rw [List.mem_singleton.mp member]
          simp
      | cons second others =>
          rw [List.intercalate_cons_cons]
          rcases List.mem_cons.mp member with rfl | later
          · exact (List.prefix_append _ _).isInfix.trans (List.infix_append' [] _ _)
          · exact (ih later).trans (List.suffix_append _ _).isInfix

/-- What stands in some joined lists stands in the separator or in one of them, by induction on them.
-/
theorem mem_intercalate {x : α} (member : x ∈ separator.intercalate parts)
    : x ∈ separator ∨ ∃ part ∈ parts, x ∈ part := by
  induction parts with
  | nil => simp at member
  | cons first rest ih =>
      cases rest with
      | nil => exact Or.inr ⟨first, by simp, by simpa using member⟩
      | cons second others =>
          rw [List.intercalate_cons_cons, List.mem_append, List.mem_append] at member
          rcases member with (here | between) | later
          · exact Or.inr ⟨first, by simp, here⟩
          · exact Or.inl between
          · exact (ih later).imp_right fun ⟨part, listed, inside⟩ =>
              ⟨part, List.mem_cons_of_mem _ listed, inside⟩

theorem toList_joinWith (separator : String) (parts : List String)
    : (joinWith separator parts).toList
      = separator.toList.intercalate (parts.map String.toList) := by
  rw [joinWith, String.toList_intercalate]

/-- Every text that is joined with others stands in what they are joined to. -/
theorem infix_joinWith {separator part : String} {parts : List String} (member : part ∈ parts)
    : part.toList <:+: (joinWith separator parts).toList := by
  rw [toList_joinWith]
  exact infix_intercalate (List.mem_map_of_mem member)

end

-----------------------------------------------------------------------------------------
-- Between separators
-----------------------------------------------------------------------------------------

/-- Splitting a text is splitting a list, by induction on the text. -/
theorem splitChar_eq (separator : Char) (text : List Char)
    : splitChar separator text = text.splitOn separator := by
  induction text with
  | nil => rfl
  | cons c rest ih =>
      rw [splitChar, ih, List.splitOn_cons_eq]
      cases rest.splitOn separator <;> rfl

/-- What stands before the first separator is the first piece, by induction on it. -/
theorem splitChar_append {separator : Char} {piece : List Char} (absent : separator ∉ piece)
    (rest : List Char)
    : splitChar separator (piece ++ separator :: rest) = piece :: splitChar separator rest := by
  induction piece with
  | nil => simp [splitChar]
  | cons c more ih =>
      rw [List.mem_cons, not_or] at absent
      obtain ⟨other, others⟩ := absent
      simp [splitChar, ih others, Ne.symm other]

/-- A text is its first piece and then each other one behind a separator, by induction on the text. -/
theorem exists_splitChar_eq (separator : Char) (text : List Char)
    : ∃ piece others,
        splitChar separator text = piece :: others
        ∧ text = piece ++ others.flatMap (separator :: ·) := by
  induction text with
  | nil => exact ⟨[], [], rfl, rfl⟩
  | cons c rest ih =>
      obtain ⟨piece, others, pieces, split⟩ := ih
      rw [splitChar]
      split
      · rename_i same
        obtain rfl := beq_iff_eq.mp same
        exact ⟨[], piece :: others, by rw [pieces], by rw [split]; rfl⟩
      · rw [pieces]
        exact ⟨c :: piece, others, rfl, by rw [split]; rfl⟩

/-- A word without the separator stands on one side of it. -/
theorem infix_of_not_mem {α : Type} {word front back : List α} {separator : α}
    (absent : separator ∉ word) (stands : word <:+: front ++ separator :: back)
    : word <:+: front ∨ word <:+: back := by
  rcases List.infix_append_iff.mp stands with inFront | inBack | ⟨start, rest, rfl, ends, starts⟩
  · exact .inl inFront
  · rcases List.infix_cons_iff.mp inBack with starts | inBack
    · cases word with
      | nil => exact .inl List.nil_infix
      | cons first rest =>
          obtain ⟨rfl, _⟩ := List.cons_prefix_cons.mp starts
          exact absurd List.mem_cons_self absent
    · exact .inr inBack
  · cases rest with
    | nil => exact .inl (by simpa using ends.isInfix)
    | cons first more =>
        obtain ⟨rfl, _⟩ := List.cons_prefix_cons.mp starts
        exact absurd (by simp) absent

variable {text word front : List Char}

-----------------------------------------------------------------------------------------
-- Before and behind a word
-----------------------------------------------------------------------------------------

/-- A word that ends with the beginning of another text is looked for at each of its places. -/
theorem length_eq_of_overlap {other begun ended : List Char} {place : Nat}
    (only : ∀ k < word.length, word.drop k <+: other → k = place) (split : word = begun ++ ended)
    (some : ended ≠ []) (starts : ended <+: other)
    : begun.length = place := by
  have less : begun.length < word.length := by
    have := List.length_pos_iff.mpr some
    rw [split, List.length_append]
    omega
  exact only _ less (by rwa [split, List.drop_left])

/-- No end of a word is a beginning of it. -/
def Unbordered (word : List Char) : Prop :=
  ∀ k < word.length, word.drop k <+: word → k = 0

instance (word : List Char) : Decidable (Unbordered word) :=
  inferInstanceAs (Decidable (∀ k < word.length, word.drop k <+: word → k = 0))

/-- Such a word does not begin before a copy of it, unless it stands there: it would end with a
beginning of the copy.
-/
theorem Unbordered.not_prefix {start : List Char} (unbordered : Unbordered word)
    (some : start ≠ []) (fresh : ¬ word <:+: start) (rest : List Char)
    : ¬ word <+: start ++ (word ++ rest) := by
  rintro ⟨behind, whole⟩
  rcases List.append_eq_append_iff.mp whole with ⟨more, begun, _⟩ | ⟨copied, split, overlap⟩
  · exact fresh ⟨[], more, begun.symm⟩
  · have copy : copied <+: word :=
      List.prefix_of_prefix_length_le ⟨behind, overlap.symm⟩ (List.prefix_append _ _) (by simp [split])
    by_cases none : copied = []
    · rw [none, List.append_nil] at split
      exact fresh (split ▸ List.infix_rfl)
    · exact some (List.length_eq_zero_iff.mp (length_eq_of_overlap unbordered split none copy))

theorem unbordered_singleton (c : Char) : Unbordered [c] := by
  intro k less _
  rw [List.length_singleton] at less
  omega

/-- A text is split at the first copy of such a word, by induction on what stands before it. -/
theorem Unbordered.splitOnce?_eq (unbordered : Unbordered word) (some : word ≠ [])
    (fresh : ¬ word <:+: front) (back : List Char)
    : splitOnce? word (front ++ (word ++ back)) = .some (front, back) := by
  induction front with
  | nil =>
      obtain ⟨c, more, rfl⟩ := List.exists_cons_of_ne_nil some
      have here : (c :: more).isPrefixOf (c :: (more ++ back)) = true :=
        List.isPrefixOf_iff_prefix.mpr (List.prefix_append _ _)
      rw [List.nil_append, List.cons_append, splitOnce?, if_pos here]
      simp
  | cons c rest ih =>
      have later := unbordered.not_prefix (List.cons_ne_nil c rest) fresh back
      rw [← List.isPrefixOf_iff_prefix] at later
      rw [List.cons_append] at later ⊢
      rw [splitOnce?, if_neg later, ih fun stands => fresh (stands.trans (List.suffix_cons _ _).isInfix)]
      rfl

/-- A text without the word is not split, by induction on it. -/
theorem splitOnce?_none (some : word ≠ []) (fresh : ¬ word <:+: text)
    : splitOnce? word text = none := by
  induction text with
  | nil => simp [splitOnce?, some]
  | cons c rest ih =>
      rw [List.infix_cons_iff, not_or, ← List.isPrefixOf_iff_prefix] at fresh
      rw [splitOnce?, if_neg fresh.1, ih fresh.2]
      rfl

/-- A word that stands in a text has a first copy there, by induction on the text. -/
theorem exists_first_copy (some : word ≠ []) (stands : word <:+: text)
    : ∃ front back, text = front ++ (word ++ back) ∧ ¬ word <:+: front := by
  induction text with
  | nil => exact absurd (List.infix_nil.mp stands) some
  | cons c rest ih =>
      by_cases here : word <+: c :: rest
      · obtain ⟨back, whole⟩ := here
        exact ⟨[], back, whole.symm, fun empty => some (List.infix_nil.mp empty)⟩
      · obtain ⟨front, back, rfl, fresh⟩ := ih ((List.infix_cons_iff.mp stands).resolve_left here)
        refine ⟨c :: front, back, rfl, fun copy => ?_⟩
        rcases List.infix_cons_iff.mp copy with starts | inside
        · exact here (starts.trans (List.prefix_append (c :: front) _))
        · exact fresh inside

-----------------------------------------------------------------------------------------
-- Without the blanks around it
-----------------------------------------------------------------------------------------

theorem trimStart_of_head (solid : ∀ c ∈ text.head?, isBlank c = false) : trimStart text = text := by
  cases text with
  | nil => rfl
  | cons c rest => exact List.dropWhile_cons_of_neg (by simp [solid c rfl])

theorem trimEnd_of_last (solid : ∀ c ∈ text.getLast?, isBlank c = false) : trimEnd text = text := by
  refine List.rdropWhile_eq_self_iff.mpr fun some => ?_
  rw [solid _ (List.getLast?_eq_some_getLast some)]
  exact Bool.false_ne_true

theorem trim_of_solid (solid : ∀ c ∈ text, isBlank c = false) : trim text = text := by
  rw [trim, trimStart_of_head fun c first => solid c (List.mem_of_head? first),
    trimEnd_of_last fun c last => solid c (List.mem_of_getLast? last)]

/-- What is not all blank keeps what stands before it. -/
theorem trimEnd_append {back : List Char} (solid : ∃ c ∈ back, isBlank c = false)
    : trimEnd (front ++ back) = front ++ trimEnd back := by
  have some : back.reverse.dropWhile isBlank ≠ [] := by
    rw [ne_eq, List.dropWhile_eq_nil_iff]
    obtain ⟨c, inside, solid⟩ := solid
    intro blank
    rw [blank c (List.mem_reverse.mpr inside)] at solid
    cases solid
  rw [trimEnd, List.reverse_append, List.dropWhile_append, if_neg (by simpa using some),
    List.reverse_append, List.reverse_reverse, trimEnd]

theorem trim_cons {c : Char} (blank : isBlank c = true) (text : List Char)
    : trim (c :: text) = trim text := by
  rw [trim, trim, trimStart, List.dropWhile_cons_of_pos blank, trimStart]

theorem trim_concat {c : Char} (blank : isBlank c = true) (text : List Char)
    : trim (text ++ [c]) = trim text := by
  rw [trim, trim, trimStart, trimStart, List.dropWhile_append]
  split
  · rename_i empty
    rw [List.isEmpty_iff.mp empty, List.dropWhile_cons_of_pos blank]
    rfl
  · rw [trimEnd, List.reverse_concat, List.dropWhile_cons_of_pos blank, trimEnd]

/-- Nothing but blanks is dropped, by induction on the text. -/
theorem filter_dropWhile_isBlank (text : List Char)
    : (text.dropWhile isBlank).filter (!isBlank ·) = text.filter (!isBlank ·) := by
  induction text with
  | nil => rfl
  | cons c rest ih =>
      cases blank : isBlank c with
      | true => rw [List.dropWhile_cons_of_pos blank, ih, List.filter_cons_of_neg (by simp [blank])]
      | false => rw [List.dropWhile_cons_of_neg (by simp [blank])]

theorem filter_trim (text : List Char)
    : (trim text).filter (!isBlank ·) = text.filter (!isBlank ·) := by
  rw [trim, trimEnd, List.filter_reverse, filter_dropWhile_isBlank, ← List.filter_reverse,
    List.reverse_reverse, trimStart, filter_dropWhile_isBlank]

end Vetting.Text
