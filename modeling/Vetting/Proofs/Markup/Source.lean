import Vetting.Proofs.Markup.Grammar
import Vetting.Proofs.Results

/-! Where tags stand. What is read as a tag stands behind a `<` in the text that it is read from. The
first key of a tag stands behind the name and a gap, and ends before an equals sign or a blank.
-/

namespace Vetting.Markup

open Text

variable {text tag : List Char} {event : Event}

/-- An event that bears attributes: the tag of an empty element, or one that opens an element. -/
inductive Event.Bears (tag : List Char) : Event → Prop
  | opening : Bears tag (.opening tag)
  | empty : Bears tag (.empty tag)

/-- The first tag of a text, before which no other element is. -/
def HasRoot (text tag : List Char) : Prop :=
  ∃ before event more,
    (events text).1 = before ++ event :: more
    ∧ (∀ around ∈ before, around.LeavesNoTrace)
    ∧ event.Bears tag

-----------------------------------------------------------------------------------------
-- Tags in the text
-----------------------------------------------------------------------------------------

/-- A tag is read up to a `>`, by induction on the text. -/
theorem eq_of_splitTag? {quote : Option Char} {content rest : List Char}
    (split : splitTag? quote text = some (content, rest))
    : text = content ++ '>' :: rest := by
  induction text generalizing quote content with
  | nil => cases split
  | cons c onward ih =>
      unfold splitTag? at split
      split at split
      · rename_i ends
        simp only [Bool.and_eq_true, beq_iff_eq] at ends
        obtain ⟨rfl, rfl⟩ := Prod.mk.inj (Option.some.inj split)
        rw [ends.2, List.nil_append]
      · obtain ⟨parts, found, same⟩ := Option.map_eq_some_iff.mp split
        obtain ⟨rfl, rfl⟩ := Prod.mk.inj same
        rw [ih found, List.cons_append]

theorem suffix_of_splitBang? {closes : List Char → Bool} {before content rest : List Char}
    (split : splitBang? closes before text = some (content, rest))
    : rest <:+ text := by
  induction text generalizing before with
  | nil => cases split
  | cons c onward ih =>
      unfold splitBang? at split
      split at split
      · obtain ⟨_, rfl⟩ := Prod.mk.inj (Option.some.inj split)
        exact List.suffix_cons _ _
      · exact (ih split).trans (List.suffix_cons _ _)

theorem suffix_of_splitOnce? {needle content rest : List Char}
    (split : splitOnce? needle text = some (content, rest))
    : rest <:+ text := by
  induction text generalizing content with
  | nil =>
      unfold splitOnce? at split
      split at split
      · obtain ⟨_, rfl⟩ := Prod.mk.inj (Option.some.inj split)
        exact List.suffix_rfl
      · cases split
  | cons c onward ih =>
      unfold splitOnce? at split
      split at split
      · obtain ⟨_, rfl⟩ := Prod.mk.inj (Option.some.inj split)
        exact List.drop_suffix _ _
      · obtain ⟨parts, found, same⟩ := Option.map_eq_some_iff.mp split
        obtain ⟨_, rfl⟩ := Prod.mk.inj same
        exact (ih found).trans (List.suffix_cons _ _)

theorem suffix_of_splitTag? {quote : Option Char} {content rest : List Char}
    (split : splitTag? quote text = some (content, rest))
    : rest <:+ text := by
  rw [eq_of_splitTag? split]
  exact (List.suffix_cons _ _).trans (List.suffix_append _ _)

/-- Reading goes on behind what has been read. -/
theorem suffix_of_readMarkup (opened : List (List Char)) (text : List Char)
    : (readMarkup opened text).rest <:+ text := by
  unfold readMarkup
  split
  · exact List.nil_suffix
  · split
    · exact List.suffix_rfl
    · split
      · exact List.nil_suffix
      · exact suffix_of_splitBang? ‹_›
  · split
    · exact List.nil_suffix
    · exact suffix_of_splitOnce? ‹_›
  · split
    · exact List.nil_suffix
    · have behind := suffix_of_splitTag? ‹_›
      split
      · exact behind
      · simp only
        split <;> exact behind
  · split
    · exact List.nil_suffix
    · have behind := suffix_of_splitTag? ‹_›
      split <;> exact behind

/-- Markup behind an exclamation mark bears no attributes. -/
theorem Bang.event_bears_not {bang : Bang} {content : List Char}
    (told : bang.event content = .ok event)
    : ¬ event.Bears tag := by
  rintro (_ | _) <;> cases bang <;> simp only [Bang.event] at told <;> split at told
    <;> first | cases told | (split at told <;> cases told)

/-- The text behind a `<` starts with the tag that is read from it. -/
theorem exists_of_readMarkup {opened : List (List Char)}
    (read : (readMarkup opened text).event = .ok event) (bears : event.Bears tag)
    : ∃ back, text = tag ++ back := by
  unfold readMarkup at read
  split at read
  · cases read
  · split at read
    · cases read
    · split at read
      · cases read
      · exact absurd bears (Bang.event_bears_not read)
  · split at read
    · cases read
    · simp only at read
      split at read
      · cases read
      · cases read
        cases bears
  · split at read
    · cases read
    · split at read
      · cases read
      · simp only at read
        split at read <;> cases read
        cases bears
  · split at read
    · cases read
    · rename_i content rest split
      have whole := eq_of_splitTag? split
      split at read
      · rename_i slash
        cases read
        cases bears
        obtain ⟨start, rfl⟩ := List.getLast?_eq_some_iff.mp (beq_iff_eq.mp slash)
        exact ⟨'/' :: '>' :: rest, by rw [whole, List.dropLast_concat, List.append_assoc]; rfl⟩
      · cases read
        cases bears
        exact ⟨_, whole⟩

/-- Each tag that is read stands behind a `<`, by induction on the events. -/
theorem exists_of_readEvents {steps : Nat} {opened : List (List Char)}
    (read : event ∈ (readEvents steps opened text).1) (bears : event.Bears tag)
    : ∃ front back, text = front ++ '<' :: (tag ++ back) := by
  induction steps generalizing opened text with
  | zero => simp [readEvents] at read
  | succ steps ih =>
      have whole := List.takeWhile_append_dropWhile (p := (· != '<')) (l := text)
      unfold readEvents at read
      simp only at read
      split at read
      · split at read
        · cases read
        · obtain rfl := List.mem_singleton.mp read
          cases bears
      · rename_i bracket behind left
        have angle : bracket = '<' := by
          have := List.head?_dropWhile_not (· != '<') text
          rw [left] at this
          simpa using this
        subst angle
        rw [left] at whole
        have texts : event ∉ (if (text.takeWhile (· != '<')).isEmpty then []
            else [Event.text (text.takeWhile (· != '<'))]) := by
          intro member
          split at member
          · cases member
          · obtain rfl := List.mem_singleton.mp member
            cases bears
        split at read
        · rename_i first told
          rcases List.mem_append.mp read with member | member
          · exact absurd member texts
          rcases List.mem_cons.mp member with rfl | later
          · obtain ⟨back, rfl⟩ := exists_of_readMarkup told bears
            exact ⟨_, back, whole.symm⟩
          · obtain ⟨front, back, same⟩ := ih later
            obtain ⟨passed, onward⟩ := suffix_of_readMarkup opened behind
            refine ⟨text.takeWhile (· != '<') ++ '<' :: (passed ++ front), back, whole.symm.trans ?_⟩
            rw [← onward, same]
            simp
        · exact absurd read texts

theorem HasRoot.exists_eq (root : HasRoot text tag)
    : ∃ front back, text = front ++ '<' :: (tag ++ back) := by
  obtain ⟨before, event, more, found, _, bears⟩ := root
  have read : event ∈ (events text).1 := by
    rw [found]
    exact List.mem_append_right _ List.mem_cons_self
  have told : event ∈ (readEvents ((dropMark text).length + 1) [] (dropMark text)).1 := by
    unfold events at read
    simp only at read
    split at read <;> exact read
  obtain ⟨front, back, same⟩ := exists_of_readEvents told bears
  unfold dropMark at same
  split at same
  · exact ⟨text.take 1 ++ front, back, by
      rw [List.append_assoc, ← same, List.take_append_drop]⟩
  · exact ⟨front, back, same⟩

-----------------------------------------------------------------------------------------
-- The first key of a tag
-----------------------------------------------------------------------------------------

/-- The blanks between the name of a tag and its first key. -/
def firstGap (tag : List Char) : List Char :=
  (tag.drop (tagName tag).length).takeWhile isSpace

theorem drop_tagName (tag : List Char)
    : tag.drop (tagName tag).length = tag.dropWhile fun c => !isSpace c := by
  have whole := List.takeWhile_append_dropWhile (p := fun c => !isSpace c) (l := tag)
  exact (congrArg (List.drop _) whole.symm).trans List.drop_left

/-- A key is read up to an equals sign or a blank. -/
theorem eq_of_readAttribute {rest : List Char} {before : List RawAttribute}
    {found : RawAttribute × List Char} (read : readAttribute tag rest before = .ok found)
    : ∃ c behind, rest = found.1.key ++ c :: behind ∧ (c = '=' ∨ isSpace c = true) := by
  let isKeyEnd (c : Char) : Bool := c == '=' || isSpace c
  have key
      : found.1.key = rest.take 1 ++ (rest.drop 1).takeWhile (fun c => !isKeyEnd c)
        ∧ (rest.drop 1).dropWhile (fun c => !isKeyEnd c) ≠ [] := by
    unfold readAttribute at read
    simp only at read
    split at read
    · rename_i equals
      have some : (rest.drop 1).dropWhile (fun c => !isKeyEnd c) ≠ [] := by
        intro none
        rw [none] at equals
        cases equals
      split at read
      · cases read
      · split at read
        · cases read
        · split at read
          · split at read
            · cases read
              exact ⟨rfl, some⟩
            · cases read
          · cases read
    · cases read
    · cases read
  have ends := List.head?_dropWhile_not (fun c => !isKeyEnd c) (rest.drop 1)
  have whole := List.takeWhile_append_dropWhile (p := fun c => !isKeyEnd c) (l := rest.drop 1)
  cases left : (rest.drop 1).dropWhile (fun c => !isKeyEnd c) with
  | nil => exact absurd left key.2
  | cons c more =>
      rw [left] at ends whole
      refine ⟨c, more, ?_, by simpa [isKeyEnd, or_iff_not_imp_left] using ends⟩
      rw [key.1, List.append_assoc, whole, List.take_append_drop]

/-- The first key stands behind the name and the gap, and ends before an equals sign or a blank. -/
theorem eq_of_attributes {key value : String} {others : List (String × String)}
    (read : attributes tag = .ok ((key, value) :: others))
    : ∃ c behind,
        tag = tagName tag ++ (firstGap tag ++ (key.toList ++ c :: behind))
        ∧ (c = '=' ∨ isSpace c = true) := by
  unfold attributes attributesFrom at read
  split at read
  · cases read
  · simp only at read
    split at read
    · rename_i found told
      rw [Except.ok_bind] at read
      obtain ⟨c, behind, whole, ends⟩ := eq_of_readAttribute told
      have named : found.1.key = key.toList := by
        split at read
        · rw [Except.ok_bind] at read
          obtain ⟨more, _, same⟩ := Except.bind_eq_ok.mp read
          cases same
          exact String.toList_ofList.symm
        · cases read
      refine ⟨c, behind, ?_, ends⟩
      rw [← named, ← whole, firstGap, List.takeWhile_append_dropWhile, drop_tagName]
      exact List.takeWhile_append_dropWhile.symm
    · cases read

/-- There is a gap before the first key. -/
theorem firstGap_ne_nil {behind : List Char}
    (whole : tag = tagName tag ++ (firstGap tag ++ behind)) (some : behind ≠ [])
    : firstGap tag ≠ [] := by
  intro none
  rw [none, List.nil_append] at whole
  have left : tag.dropWhile (fun c => !isSpace c) = behind := by
    rw [← drop_tagName]
    exact (congrArg (List.drop _) whole).trans List.drop_left
  have starts := List.head?_dropWhile_not (fun c => !isSpace c) tag
  unfold firstGap at none
  rw [drop_tagName, left] at none
  rw [left] at starts
  cases behind with
  | nil => exact some rfl
  | cons c more =>
      have blank : isSpace c = true := by simpa using starts
      simp [blank] at none

end Vetting.Markup
