import Mathlib.Data.List.Infix
import Vetting.Heuristic.Soong

/-! The string literals of a build description. A line that does not end inside a string is a row of
plain characters and whole literals, and perhaps a comment behind them, in exactly one way.
-/

namespace Vetting.Soong

open Text

-----------------------------------------------------------------------------------------
-- The grammar of a line
-----------------------------------------------------------------------------------------

/-- What stands in a literal: a character behind a backslash, or one that is neither a quote nor a
backslash.
-/
inductive Item where
  | escaped (c : Char)
  | plain (c : Char) (ordinary : c ≠ '"' ∧ c ≠ '\\')

/-- The item as it is written. -/
def Item.text : Item → List Char
  | escaped c => ['\\', c]
  | plain c _ => [c]

/-- A part of a line outside comments: a character that is not a quote, or items between quotes. -/
inductive Piece where
  | plain (c : Char) (unquoted : c ≠ '"')
  | literal (items : List Item)

/-- The piece as it is written. -/
def Piece.text : Piece → List Char
  | plain c _ => [c]
  | literal items => '"' :: (items.flatMap Item.text ++ ['"'])

/-- A text begins with two slashes. -/
def StartsComment (text : List Char) : Prop :=
  ['/', '/'] <+: text

/-- Pieces, and a comment behind them. -/
structure Reading where
  pieces : List Piece
  comment : List Char

namespace Reading

/-- The pieces and the comment as they are written. -/
def text (reading : Reading) : List Char :=
  reading.pieces.flatMap Piece.text ++ reading.comment

/-- A line is read as it is written. A comment that is there begins with two slashes, and no plain
character begins one.
-/
structure Spells (reading : Reading) (line : List Char) : Prop where
  written : reading.text = line
  comment : reading.comment = [] ∨ StartsComment reading.comment
  uncommented
    : ∀ before c unquoted after,
        reading.pieces = before ++ .plain c unquoted :: after
        → ¬ StartsComment (c :: (after.flatMap Piece.text ++ reading.comment))

end Reading

/-- A line is a row of plain characters and whole literals, and perhaps a comment. -/
def IsClosed (line : List Char) : Prop :=
  ∃ reading : Reading, reading.Spells line

-----------------------------------------------------------------------------------------
-- The scan of a line
-----------------------------------------------------------------------------------------

variable {c : Char} {rest : List Char}

theorem endsOpen_quote (inside : Bool) (rest : List Char)
    : endsOpen inside ('"' :: rest) = endsOpen (!inside) rest := by
  cases inside <;> rfl

theorem endsOpen_escaped (c : Char) (rest : List Char)
    : endsOpen true ('\\' :: c :: rest) = endsOpen true rest :=
  rfl

theorem endsOpen_inside (ordinary : c ≠ '"' ∧ c ≠ '\\')
    : endsOpen true (c :: rest) = endsOpen true rest := by
  rw [endsOpen.eq_def]
  simp [ordinary.1, ordinary.2]

theorem endsOpen_outside (unquoted : c ≠ '"') (uncommented : ¬ StartsComment (c :: rest))
    : endsOpen false (c :: rest) = endsOpen false rest := by
  have single : ∀ others, c = '/' → rest ≠ '/' :: others := by
    rintro others rfl rfl
    exact uncommented ⟨others, rfl⟩
  rw [endsOpen.eq_def]
  split <;> simp_all

theorem endsOpen_comment (starts : StartsComment rest) : endsOpen false rest = false := by
  obtain ⟨comment, rfl⟩ := starts
  rfl

/-- A scan goes on behind a literal, by induction on its items. -/
theorem endsOpen_items (items : List Item) (rest : List Char)
    : endsOpen true (items.flatMap Item.text ++ '"' :: rest) = endsOpen false rest := by
  induction items with
  | nil => exact endsOpen_quote true rest
  | cons item others ih =>
      cases item with
      | escaped c => exact (endsOpen_escaped c _).trans ih
      | plain c ordinary => exact (endsOpen_inside ordinary).trans ih

/-- A text inside a string that does not end there has the rest of a literal at its start, by induction
on the scan.
-/
theorem exists_items {text : List Char} (closed : endsOpen true text = false)
    : ∃ (items : List Item) (rest : List Char),
        text = items.flatMap Item.text ++ '"' :: rest ∧ endsOpen false rest = false := by
  generalize inside : true = flag at closed
  fun_induction endsOpen flag text with
  | case1 => simp_all
  | case2 c rest ih =>
      obtain ⟨items, behind, rfl, onward⟩ := ih rfl closed
      exact ⟨.escaped c :: items, behind, rfl, onward⟩
  | case3 => simp_all
  | case4 flag rest ih =>
      subst inside
      exact ⟨[], rest, rfl, closed⟩
  | case5 => simp_all
  | case6 flag c rest notEscape notTrailing notQuote notComment ih =>
      obtain ⟨items, behind, rfl, onward⟩ := ih inside closed
      -- A backslash would have been read with the character behind it.
      have notBackslash : c ≠ '\\' := by
        rintro rfl
        cases written : items.flatMap Item.text ++ '"' :: behind with
        | nil => exact notTrailing inside.symm rfl written
        | cons first others => exact notEscape first others inside.symm rfl written
      exact ⟨.plain c ⟨notQuote, notBackslash⟩ :: items, behind, rfl, onward⟩

-----------------------------------------------------------------------------------------
-- Readings of a line
-----------------------------------------------------------------------------------------

variable {pieces : List Piece} {comment line : List Char}

theorem spells_nil_iff
    : (Reading.mk [] comment).Spells line ↔ line = comment ∧ (comment = [] ∨ StartsComment comment) := by
  constructor
  · intro spells
    exact ⟨spells.written.symm, spells.comment⟩
  · rintro ⟨rfl, commented⟩
    exact ⟨rfl, commented, by simp⟩

/-- The first piece of a line is read before the others, and begins no comment if it is plain. -/
theorem spells_cons_iff {piece : Piece}
    : (Reading.mk (piece :: pieces) comment).Spells line
      ↔ ∃ rest,
          line = piece.text ++ rest
          ∧ (∀ c unquoted, piece = .plain c unquoted → ¬ StartsComment (c :: rest))
          ∧ (Reading.mk pieces comment).Spells rest := by
  constructor
  · intro spells
    refine ⟨(Reading.mk pieces comment).text, ?_, ?_, rfl, spells.comment, ?_⟩
    · rw [← spells.written]
      simp [Reading.text]
    · rintro c unquoted rfl
      exact spells.uncommented [] c unquoted pieces rfl
    · intro before c unquoted after split
      exact spells.uncommented (piece :: before) c unquoted after (congrArg (piece :: ·) split)
  · rintro ⟨_, rfl, first, rfl, commented, others⟩
    refine ⟨by simp [Reading.text], commented, ?_⟩
    intro before c unquoted after split
    cases before with
    | nil =>
        obtain ⟨rfl, rfl⟩ := List.cons.inj split
        exact first c unquoted rfl
    | cons _ before =>
        obtain ⟨_, split⟩ := List.cons.inj split
        exact others before c unquoted after split

/-- A line that can be read does not end inside a string, by induction on its pieces. -/
theorem endsOpen_of_spells (spells : (Reading.mk pieces comment).Spells line)
    : endsOpen false line = false := by
  induction pieces generalizing line with
  | nil =>
      obtain ⟨rfl, rfl | commented⟩ := spells_nil_iff.mp spells
      · rfl
      · exact endsOpen_comment commented
  | cons piece others ih =>
      obtain ⟨rest, rfl, uncommented, onward⟩ := spells_cons_iff.mp spells
      cases piece with
      | plain c unquoted =>
          exact (endsOpen_outside unquoted (uncommented c unquoted rfl)).trans (ih onward)
      | literal items =>
          have opened := endsOpen_quote false (items.flatMap Item.text ++ '"' :: rest)
          rw [Piece.text, List.cons_append, List.append_assoc]
          exact opened.trans ((endsOpen_items items rest).trans (ih onward))

/-- A line that does not end inside a string can be read, by induction on its length: a literal at its
start is taken as a whole.
-/
theorem isClosed_of_endsOpen (line : List Char) (closed : endsOpen false line = false)
    : IsClosed line := by
  match line, closed with
  | [], _ => exact ⟨⟨[], []⟩, spells_nil_iff.mpr ⟨rfl, .inl rfl⟩⟩
  | c :: rest, closed =>
      by_cases commented : StartsComment (c :: rest)
      · exact ⟨⟨[], c :: rest⟩, spells_nil_iff.mpr ⟨rfl, .inr commented⟩⟩
      by_cases quoted : c = '"'
      · subst quoted
        rw [endsOpen_quote] at closed
        obtain ⟨items, behind, split, onward⟩ := exists_items closed
        have shorter : behind.length < rest.length := by
          rw [split, List.length_append, List.length_cons]
          omega
        obtain ⟨reading, spells⟩ := isClosed_of_endsOpen behind onward
        refine ⟨⟨.literal items :: reading.pieces, reading.comment⟩,
          spells_cons_iff.mpr ⟨behind, by simp [Piece.text, split], by simp, spells⟩⟩
      · rw [endsOpen_outside quoted commented] at closed
        obtain ⟨reading, spells⟩ := isClosed_of_endsOpen rest closed
        refine ⟨⟨.plain c quoted :: reading.pieces, reading.comment⟩,
          spells_cons_iff.mpr ⟨rest, rfl, ?_, spells⟩⟩
        rintro _ _ ⟨rfl⟩
        exact commented
termination_by line.length

/-- The items of a literal are those before the first quote that is not behind a backslash, by
induction on them.
-/
theorem items_unique {items others : List Item} {behind rest : List Char}
    (same : items.flatMap Item.text ++ '"' :: behind = others.flatMap Item.text ++ '"' :: rest)
    : items = others ∧ behind = rest := by
  induction items generalizing others with
  | nil =>
      cases others with
      | nil => exact ⟨rfl, (List.cons.inj same).2⟩
      | cons other _ =>
          cases other with
          | escaped => exact absurd (List.cons.inj same).1 (by decide)
          | plain c ordinary => exact absurd (List.cons.inj same).1.symm ordinary.1
  | cons item more ih =>
      cases others with
      | nil =>
          cases item with
          | escaped => exact absurd (List.cons.inj same).1 (by decide)
          | plain c ordinary => exact absurd (List.cons.inj same).1 ordinary.1
      | cons other later =>
          cases item with
          | escaped c =>
              cases other with
              | escaped d =>
                  obtain ⟨rfl, onward⟩ := List.cons.inj (List.cons.inj same).2
                  obtain ⟨rfl, rfl⟩ := ih onward
                  exact ⟨rfl, rfl⟩
              | plain d ordinary => exact absurd (List.cons.inj same).1.symm ordinary.2
          | plain c ordinary =>
              cases other with
              | escaped d => exact absurd (List.cons.inj same).1 ordinary.2
              | plain d _ =>
                  obtain ⟨rfl, onward⟩ := List.cons.inj same
                  obtain ⟨rfl, rfl⟩ := ih onward
                  exact ⟨rfl, rfl⟩

/-- A line that begins with a piece is neither empty nor a comment. -/
theorem piece_not_comment {piece : Piece} {rest : List Char}
    (uncommented : ∀ c unquoted, piece = .plain c unquoted → ¬ StartsComment (c :: rest))
    : ¬ (piece.text ++ rest = [] ∨ StartsComment (piece.text ++ rest)) := by
  cases piece with
  | plain c unquoted =>
      rintro (empty | starts)
      · exact List.cons_ne_nil _ _ empty
      · exact uncommented c unquoted rfl starts
  | literal items =>
      rintro (empty | ⟨_, starts⟩)
      · exact List.cons_ne_nil _ _ empty
      · exact absurd (List.cons.inj starts).1 (by decide)

/-- The first piece of a line is the only one that it can begin with. -/
theorem piece_unique {piece other : Piece} {rest behind : List Char}
    (same : piece.text ++ rest = other.text ++ behind) : piece = other ∧ rest = behind := by
  cases piece with
  | plain c unquoted =>
      cases other with
      | plain d _ =>
          obtain ⟨rfl, rfl⟩ := List.cons.inj same
          exact ⟨rfl, rfl⟩
      | literal items => exact absurd (List.cons.inj same).1 unquoted
  | literal items =>
      cases other with
      | plain d unquoted => exact absurd (List.cons.inj same).1.symm unquoted
      | literal others =>
          have inner : items.flatMap Item.text ++ '"' :: rest
              = others.flatMap Item.text ++ '"' :: behind := by
            simpa [Piece.text] using same
          obtain ⟨rfl, rfl⟩ := items_unique inner
          exact ⟨rfl, rfl⟩

/-- A line is read in one way only, by induction on the pieces. -/
theorem reading_unique {others : List Piece} {remark : List Char}
    (spells : (Reading.mk pieces comment).Spells line) (other : (Reading.mk others remark).Spells line)
    : pieces = others ∧ comment = remark := by
  induction pieces generalizing line others with
  | nil =>
      obtain ⟨rfl, commented⟩ := spells_nil_iff.mp spells
      cases others with
      | nil => exact ⟨rfl, (spells_nil_iff.mp other).1⟩
      | cons piece _ =>
          obtain ⟨rest, rfl, uncommented, _⟩ := spells_cons_iff.mp other
          exact absurd commented (piece_not_comment uncommented)
  | cons piece more ih =>
      obtain ⟨rest, rfl, uncommented, onward⟩ := spells_cons_iff.mp spells
      cases others with
      | nil =>
          obtain ⟨rfl, commented⟩ := spells_nil_iff.mp other
          exact absurd commented (piece_not_comment uncommented)
      | cons second later =>
          obtain ⟨behind, same, _, away⟩ := spells_cons_iff.mp other
          obtain ⟨rfl, rfl⟩ := piece_unique same
          obtain ⟨rfl, rfl⟩ := ih onward away
          exact ⟨rfl, rfl⟩

theorem endsOpen_eq_false_iff : endsOpen false line = false ↔ IsClosed line :=
  ⟨isClosed_of_endsOpen line, fun ⟨_, spells⟩ => endsOpen_of_spells spells⟩

theorem endsOpen_eq_true_iff : endsOpen false line = true ↔ ¬ IsClosed line := by
  rw [← endsOpen_eq_false_iff, Bool.not_eq_false]

-----------------------------------------------------------------------------------------
-- The first open line
-----------------------------------------------------------------------------------------

/-- The number, counting from one, of the first line of a text that is not closed. -/
def IsFirstOpen (text : List Char) (number : Nat) : Prop :=
  ∃ before line after,
    lines text = before ++ line :: after
    ∧ number = before.length + 1
    ∧ ¬ IsClosed line
    ∧ ∀ earlier ∈ before, IsClosed earlier

/-- The position of the first hit in a list is the number of those before it, by induction on the list.
-/
theorem findIdx?_eq_some_iff_append {α : Type} {hit : α → Bool} {xs : List α} {i : Nat}
    : xs.findIdx? hit = some i
      ↔ ∃ before x after,
          xs = before ++ x :: after
          ∧ i = before.length
          ∧ hit x = true
          ∧ ∀ y ∈ before, hit y = false := by
  constructor
  · intro found
    obtain ⟨inside, here, earlier⟩ := List.findIdx?_eq_some_iff_getElem.mp found
    refine ⟨xs.take i, xs[i], xs.drop (i + 1), ?_, ?_, here, ?_⟩
    · rw [List.getElem_cons_drop, List.take_append_drop]
    · rw [List.length_take, Nat.min_eq_left (Nat.le_of_lt inside)]
    · intro y member
      obtain ⟨j, bound, rfl⟩ := List.mem_take_iff_getElem.mp member
      exact Bool.not_eq_true _ ▸ earlier j (by omega)
  · rintro ⟨before, x, after, rfl, rfl, here, earlier⟩
    rw [List.findIdx?_append, List.findIdx?_eq_none_iff.mpr earlier]
    simp [List.findIdx?_cons, here]

theorem unclosedLine?_eq_some_iff {text : List Char} {number : Nat}
    : unclosedLine? text = some number ↔ IsFirstOpen text number := by
  rw [unclosedLine?, Option.map_eq_some_iff]
  constructor
  · rintro ⟨i, found, rfl⟩
    obtain ⟨before, line, after, split, rfl, here, earlier⟩ := findIdx?_eq_some_iff_append.mp found
    exact ⟨before, line, after, split, rfl, endsOpen_eq_true_iff.mp here,
      fun other member => endsOpen_eq_false_iff.mp (earlier other member)⟩
  · rintro ⟨before, line, after, split, rfl, here, earlier⟩
    refine ⟨before.length, findIdx?_eq_some_iff_append.mpr ?_, rfl⟩
    exact ⟨before, line, after, split, rfl, endsOpen_eq_true_iff.mpr here,
      fun other member => endsOpen_eq_false_iff.mpr (earlier other member)⟩

theorem unclosedLine?_eq_none_iff {text : List Char}
    : unclosedLine? text = none ↔ ∀ line ∈ lines text, IsClosed line := by
  simp [unclosedLine?, List.findIdx?_eq_none_iff, ← endsOpen_eq_false_iff]

/-- A line ends outside a string exactly when it is a row of plain characters and whole literals, and
perhaps a comment, and then it is so in one way only. The line that is reported for a text is the
first one that is not, and none when all lines are.
-/
theorem open_strings_reported (line text : List Char)
    : (endsOpen false line = false ↔ ∃! reading : Reading, reading.Spells line)
      ∧ (∀ number, unclosedLine? text = some number ↔ IsFirstOpen text number)
      ∧ (unclosedLine? text = none ↔ ∀ line ∈ lines text, IsClosed line) := by
  refine ⟨?_, fun _ => unclosedLine?_eq_some_iff, unclosedLine?_eq_none_iff⟩
  constructor
  · intro closed
    obtain ⟨reading, spells⟩ := isClosed_of_endsOpen line closed
    refine ⟨reading, spells, ?_⟩
    intro other otherSpells
    obtain ⟨pieces, comment⟩ := reading_unique otherSpells spells
    cases other
    cases reading
    simp_all
  · rintro ⟨reading, spells, _⟩
    exact endsOpen_of_spells spells

end Vetting.Soong
