import Mathlib.Data.List.DropRight
import Mathlib.Data.List.TakeWhile
import Vetting.Json.Parser
import Vetting.Json.Printer

/-! Documents of texts and truth values are read back from their text, which has one field or item
per line: each line starts with a blank margin, and what follows it is read up to the comma or to the
end of the object or array. Each character of a quoted text is read back from its written form, so
the text is read back from what stands between its quotes.
-/

namespace Vetting.Json

-----------------------------------------------------------------------------------------
-- Quoted texts
-----------------------------------------------------------------------------------------

theorem hexFour?_append {s front rest : List Char} {n : Nat}
    (read : hexFour? s = some (n, front))
    : hexFour? (s ++ rest) = some (n, front ++ rest) := by
  match s with
  | a :: b :: c :: d :: more =>
      simp only [List.cons_append, hexFour?, Option.bind_eq_bind, Option.bind_eq_some_iff] at read ⊢
      obtain ⟨first, readFirst, second, readSecond, third, readThird, last, readLast, same⟩ := read
      refine ⟨first, readFirst, second, readSecond, third, readThird, last, readLast, ?_⟩
      simp_all
  | [] | [_] | [_, _] | [_, _, _] => simp [hexFour?] at read

theorem hexFour?_hexDigits {n : Nat} (control : n < 0x20)
    : hexFour? (List.replicate (4 - (Text.hexDigits n).length) '0' ++ Text.hexDigits n)
      = some (n, []) := by
  revert n
  decide

/-- The written form of a character is read as that character. -/
theorem text?_escapeChar (c : Char) (steps : Nat) (rest acc : List Char)
    : text? (steps + 1) (escapeChar c ++ rest) acc = text? steps rest (c :: acc) := by
  unfold escapeChar
  split
  · rename_i same
    simp [text?, escape?, eq_of_beq same]
  split
  · rename_i same
    simp [text?, escape?, eq_of_beq same]
  split
  · rename_i same
    simp [text?, escape?, eq_of_beq same]
  split
  · rename_i same
    simp [text?, escape?, eq_of_beq same]
  split
  · rename_i same
    simp [text?, escape?, eq_of_beq same]
  split
  · rename_i same
    obtain rfl : c = '\x08' := by rw [← Char.ofNat_toNat c, eq_of_beq same]
    rfl
  split
  · rename_i same
    obtain rfl : c = '\x0c' := by rw [← Char.ofNat_toNat c, eq_of_beq same]
    rfl
  split
  · rename_i control
    have low : ¬ (0xDC00 ≤ c.toNat ∧ c.toNat ≤ 0xDFFF) := by omega
    have high : ¬ (0xD800 ≤ c.toNat ∧ c.toNat ≤ 0xDBFF) := by omega
    simp only [List.cons_append, List.nil_append, List.append_assoc, text?, escape?]
    rw [← List.append_assoc, hexFour?_append (hexFour?_hexDigits control)]
    simp [low, high]
  · rename_i isQuote isBackslash _ _ _ _ _ control
    simp only [beq_iff_eq] at isQuote isBackslash
    rw [List.singleton_append, text?.eq_def]
    simp [control]

theorem escapeChar_ne_nil (c : Char) : escapeChar c ≠ [] := by
  unfold escapeChar
  repeat' split
  all_goals simp

theorem length_le_escaped (text : List Char)
    : text.length ≤ (text.flatMap escapeChar).length := by
  induction text with
  | nil => exact Nat.le_refl _
  | cons c text ih =>
      have := List.length_pos_iff.mpr (escapeChar_ne_nil c)
      simp only [List.flatMap_cons, List.length_append, List.length_cons]
      omega

/-- A text is read up to the quote after it, by induction on the text. -/
theorem text?_escaped {steps : Nat} {text : List Char} (enough : text.length < steps)
    (rest acc : List Char)
    : text? steps (text.flatMap escapeChar ++ '"' :: rest) acc
      = some (String.ofList (acc.reverse ++ text), rest) := by
  induction text generalizing steps acc with
  | nil =>
      obtain ⟨steps, rfl⟩ := Nat.exists_eq_add_of_lt enough
      simp [text?]
  | cons c text ih =>
      obtain ⟨steps, rfl⟩ := Nat.exists_eq_add_of_lt enough
      rw [List.flatMap_cons, List.append_assoc, text?_escapeChar, ih (by simp; omega)]
      simp

/-- A quoted text is read back after its first quote. -/
theorem text?_quote (text : String) (rest : List Char)
    : ∃ body,
        (quote text).toList ++ rest = '"' :: body
        ∧ text? (body.length + 1) body [] = some (text, rest) := by
  refine ⟨text.toList.flatMap escapeChar ++ '"' :: rest, by simp [quote], ?_⟩
  rw [text?_escaped]
  · simp
  · have := length_le_escaped text.toList
    simp only [List.length_append]
    omega

-----------------------------------------------------------------------------------------
-- Blanks
-----------------------------------------------------------------------------------------

/-- Blanks in front of a token are skipped. -/
theorem skipGap_token {gap : List Char} (blank : ∀ c ∈ gap, isGap c = true) {c : Char}
    (token : isGap c = false) (rest : List Char)
    : skipGap (gap ++ c :: rest) = c :: rest := by
  rw [skipGap, List.dropWhile_append_of_pos blank]
  simp [token]

theorem isGap_feed : ∀ c ∈ ['\n'], isGap c = true := by
  simp [isGap]

theorem isGap_space : ∀ c ∈ [' '], isGap c = true := by
  simp [isGap]

theorem isGap_margin {level : Nat} : ∀ c ∈ (margin level).toList, isGap c = true := by
  intro c member
  simp only [margin, String.toList_ofList, List.mem_replicate] at member
  simp [member.2, isGap]

/-- The blanks between the end of a line and the first token of the next one. -/
theorem isGap_line {level : Nat} : ∀ c ∈ '\n' :: (margin level).toList, isGap c = true := by
  intro c member
  rcases List.mem_cons.mp member with rfl | member
  · exact isGap_feed _ (by simp)
  · exact isGap_margin c member

@[simp] theorem skipGap_skipGap (s : List Char) : skipGap (skipGap s) = skipGap s :=
  List.dropWhile_idempotent ..

@[simp] theorem value?_skipGap (steps depth : Nat) (s : List Char)
    : value? steps depth (skipGap s) = value? steps depth s := by
  cases steps with
  | zero => rfl
  | succ steps => simp only [value?, skipGap_skipGap]

@[simp] theorem itemsFrom?_skipGap (steps depth : Nat) (s : List Char) (acc : List Json)
    : itemsFrom? steps depth (skipGap s) acc = itemsFrom? steps depth s acc := by
  cases steps with
  | zero => rfl
  | succ steps => simp only [itemsFrom?, value?_skipGap]

@[simp] theorem fieldsFrom?_skipGap (steps depth : Nat) (s : List Char)
    (acc : List (String × Json))
    : fieldsFrom? steps depth (skipGap s) acc = fieldsFrom? steps depth s acc := by
  cases steps with
  | zero => rfl
  | succ steps => simp only [fieldsFrom?, skipGap_skipGap]

theorem value?_gap {gap : List Char} (blank : ∀ c ∈ gap, isGap c = true) (steps depth : Nat)
    (s : List Char)
    : value? steps depth (gap ++ s) = value? steps depth s := by
  have skipped : skipGap (gap ++ s) = skipGap s := List.dropWhile_append_of_pos blank
  rw [← value?_skipGap, skipped, value?_skipGap]

-----------------------------------------------------------------------------------------
-- Tokens
-----------------------------------------------------------------------------------------

theorem expect?_append (word : String) (rest : List Char)
    : expect? word (word.toList ++ rest) = some rest := by
  simp [expect?, ← String.length_toList]

/-- An array with items is read item by item. -/
theorem value?_items {c : Char} {s more : List Char} (token : skipGap s = c :: more)
    (other : c ≠ ']') (steps depth : Nat)
    : value? (steps + 1) (depth + 1) ('[' :: s) = itemsFrom? steps depth s [] := by
  have starts : skipGap ('[' :: s) = '[' :: s := by simp [skipGap, isGap]
  rw [← itemsFrom?_skipGap steps depth s, token]
  simp [value?, starts, token, other]

/-- An object with fields is read field by field. -/
theorem value?_fields {c : Char} {s more : List Char} (token : skipGap s = c :: more)
    (other : c ≠ '\x7d') (steps depth : Nat)
    : value? (steps + 1) (depth + 1) ('\x7b' :: s) = fieldsFrom? steps depth s [] := by
  have starts : skipGap ('\x7b' :: s) = '\x7b' :: s := by simp [skipGap, isGap]
  rw [← fieldsFrom?_skipGap steps depth s, token]
  simp [value?, starts, token, other]

/-- Documents of texts and truth values, nested at most so many levels deep. -/
inductive Plain : Nat → Json → Prop
  | bool (depth value) : Plain depth (.bool value)
  | str (depth text) : Plain depth (.str text)
  | arr {depth items} (each : ∀ item ∈ items, Plain depth item) : Plain (depth + 1) (.arr items)
  | obj {depth fields} (each : ∀ field ∈ fields, Plain depth field.2)
    : Plain (depth + 1) (.obj fields)

/-- The text of a document starts with a token that ends no array. -/
theorem Plain.token {depth : Nat} {doc : Json} (plain : Plain depth doc) (level : Nat)
    : ∃ c rest, (prettyAt level doc).toList = c :: rest ∧ isGap c = false ∧ c ≠ ']' := by
  suffices head : ∃ c, (prettyAt level doc).toList.head? = some c ∧ isGap c = false ∧ c ≠ ']' by
    obtain ⟨c, found, token⟩ := head
    obtain ⟨rest, split⟩ := List.head?_eq_some_iff.mp found
    exact ⟨c, rest, split, token⟩
  cases plain with
  | bool _ value =>
      cases value
      · exact ⟨'f', by simp [prettyAt], by decide, by decide⟩
      · exact ⟨'t', by simp [prettyAt], by decide, by decide⟩
  | str _ text => exact ⟨'"', by simp [prettyAt, quote], by decide, by decide⟩
  | @arr _ items _ =>
      refine ⟨'[', ?_, by decide, by decide⟩
      cases items <;> simp [prettyAt]
  | @obj _ fields _ =>
      refine ⟨'\x7b', ?_, by decide, by decide⟩
      cases fields <;> simp [prettyAt]

-----------------------------------------------------------------------------------------
-- Lines
-----------------------------------------------------------------------------------------

/-- The text of a document is read back when as many steps are allowed as it has characters. -/
def Reads (level depth : Nat) (doc : Json) : Prop :=
  ∀ steps rest,
    (prettyAt level doc).toList.length ≤ steps
    → value? steps depth ((prettyAt level doc).toList ++ rest) = some (doc, rest)

/-- As a text is not empty, there is a first step. -/
theorem Plain.reads_of_steps {level depth : Nat} {doc : Json} (plain : Plain depth doc)
    (read
      : ∀ steps rest,
          (prettyAt level doc).toList.length ≤ steps + 1
          → value? (steps + 1) depth ((prettyAt level doc).toList ++ rest) = some (doc, rest))
    : Reads level depth doc := by
  intro steps rest enough
  obtain ⟨c, more, starts, _⟩ := plain.token level
  cases steps with
  | zero => simp [starts] at enough
  | succ steps => exact read steps rest enough

/-- The comma after a line is a token. -/
theorem skipGap_comma (s : List Char) : skipGap (",\n".toList ++ s) = ',' :: (['\n'] ++ s) := by
  simp [skipGap, isGap]

/-- The items of an array are read one after another, by induction on them. -/
theorem itemsFrom?_lines {level depth : Nat} {items : List Json}
    (reads : ∀ item ∈ items, Reads level depth item) (some : items ≠ []) {last : List Char}
    (blankLast : ∀ c ∈ last, isGap c = true) {steps : Nat}
    (enough : (",\n".intercalate (prettyItems level items)).toList.length < steps)
    {gap : List Char} (blank : ∀ c ∈ gap, isGap c = true) (rest : List Char) (acc : List Json)
    : itemsFrom? steps depth
        (gap
          ++ ((",\n".intercalate (prettyItems level items)).toList ++ (last ++ ']' :: rest)))
        acc
      = .some (.arr (acc.reverse ++ items), rest) := by
  induction items generalizing gap steps acc with
  | nil => exact absurd rfl some
  | cons item items ih =>
      have readsItem := reads item List.mem_cons_self
      obtain ⟨steps, rfl⟩ := Nat.exists_eq_add_of_lt enough
      cases items with
      | nil =>
          have ends : skipGap (last ++ ']' :: rest) = ']' :: rest :=
            skipGap_token blankLast (by decide) rest
          rw [prettyItems, prettyItems, String.intercalate_singleton] at enough ⊢
          simp only [String.toList_append, List.append_assoc, List.length_append, itemsFrom?]
            at enough ⊢
          rw [value?_gap blank, value?_gap isGap_margin, readsItem _ _ (by omega)]
          simp [ends]
      | cons next items =>
          have two : ",\n".toList.length = 2 := rfl
          rw [prettyItems, prettyItems, String.intercalate_cons_cons, ← prettyItems] at enough ⊢
          simp only [String.toList_append, List.append_assoc, List.length_append, itemsFrom?]
            at enough ⊢
          rw [value?_gap blank, value?_gap isGap_margin, readsItem _ _ (by omega)]
          simp only [Option.bind_eq_bind, Option.bind_some, skipGap_comma]
          rw [ih (fun other member => reads other (List.mem_cons_of_mem _ member)) (by simp)
            (by omega) isGap_feed]
          simp

/-- A line starts with the name of a field. -/
theorem text?_name {gap : List Char} (blank : ∀ c ∈ gap, isGap c = true) (level : Nat)
    (name : String) (rest : List Char)
    : ∃ body,
        skipGap (gap ++ ((margin level).toList ++ ((quote name).toList ++ (": ".toList ++ rest))))
          = '"' :: body
        ∧ text? (body.length + 1) body [] = some (name, ':' :: ([' '] ++ rest)) := by
  obtain ⟨body, starts, read⟩ := text?_quote name (": ".toList ++ rest)
  have blanks : ∀ c ∈ gap ++ (margin level).toList, isGap c = true := fun c member =>
    (List.mem_append.mp member).elim (blank c) (isGap_margin c)
  refine ⟨body, ?_, read⟩
  rw [starts, ← List.append_assoc]
  exact skipGap_token blanks (by decide) body

/-- The fields of an object are read one after another, by induction on them. -/
theorem fieldsFrom?_lines {level depth : Nat} {fields : List (String × Json)}
    (reads : ∀ field ∈ fields, Reads level depth field.2) (some : fields ≠ []) {last : List Char}
    (blankLast : ∀ c ∈ last, isGap c = true) {steps : Nat}
    (enough : (",\n".intercalate (prettyFields level fields)).toList.length < steps)
    {gap : List Char} (blank : ∀ c ∈ gap, isGap c = true) (rest : List Char)
    (acc : List (String × Json))
    : fieldsFrom? steps depth
        (gap
          ++ ((",\n".intercalate (prettyFields level fields)).toList ++ (last ++ '\x7d' :: rest)))
        acc
      = .some (.obj (acc.reverse ++ fields), rest) := by
  induction fields generalizing gap steps acc with
  | nil => exact absurd rfl some
  | cons field fields ih =>
      obtain ⟨name, value⟩ := field
      have readsValue : Reads level depth value := reads _ List.mem_cons_self
      have colon (s : List Char) : skipGap (':' :: s) = ':' :: s := by simp [skipGap, isGap]
      obtain ⟨steps, rfl⟩ := Nat.exists_eq_add_of_lt enough
      cases fields with
      | nil =>
          have ends : skipGap (last ++ '\x7d' :: rest) = '\x7d' :: rest :=
            skipGap_token blankLast (by decide) rest
          rw [prettyFields, prettyFields, String.intercalate_singleton] at enough ⊢
          simp only [String.toList_append, List.append_assoc, List.length_append, fieldsFrom?]
            at enough ⊢
          obtain ⟨body, starts, read⟩ := text?_name blank level name
            ((prettyAt level value).toList ++ (last ++ '\x7d' :: rest))
          simp only [starts, read, Option.bind_eq_bind, Option.bind_some, colon]
          rw [value?_gap isGap_space, readsValue _ _ (by omega)]
          simp [ends]
      | cons next fields =>
          obtain ⟨other, following⟩ := next
          have two : ",\n".toList.length = 2 := rfl
          rw [prettyFields, prettyFields, String.intercalate_cons_cons, ← prettyFields] at enough ⊢
          simp only [String.toList_append, List.append_assoc, List.length_append, fieldsFrom?]
            at enough ⊢
          obtain ⟨body, starts, read⟩ := text?_name blank level name
            ((prettyAt level value).toList
              ++ (",\n".toList
                ++ ((",\n".intercalate (prettyFields level ((other, following) :: fields))).toList
                  ++ (last ++ '\x7d' :: rest))))
          simp only [starts, read, Option.bind_eq_bind, Option.bind_some, colon]
          rw [value?_gap isGap_space, readsValue _ _ (by omega)]
          simp only [Option.bind_some, skipGap_comma]
          rw [ih (fun field member => reads field (List.mem_cons_of_mem _ member)) (by simp)
            (by omega) isGap_feed]
          simp

-----------------------------------------------------------------------------------------
-- Arrays and objects
-----------------------------------------------------------------------------------------

theorem prettyAt_arr (level : Nat) {items : List Json} (some : items ≠ [])
    : (prettyAt level (.arr items)).toList
      = '[' :: (['\n'] ++ ((",\n".intercalate (prettyItems (level + 1) items)).toList
          ++ ('\n' :: (margin level).toList ++ [']']))) := by
  cases items with
  | nil => exact absurd rfl some
  | cons item items => simp [prettyAt]

theorem prettyAt_obj (level : Nat) {fields : List (String × Json)} (some : fields ≠ [])
    : (prettyAt level (.obj fields)).toList
      = '\x7b' :: (['\n'] ++ ((",\n".intercalate (prettyFields (level + 1) fields)).toList
          ++ ('\n' :: (margin level).toList ++ ['\x7d']))) := by
  cases fields with
  | nil => exact absurd rfl some
  | cons field fields => simp [prettyAt]

theorem intercalate_starts (separator line : String) (lines : List String)
    : ∃ more, (separator.intercalate (line :: lines)).toList = line.toList ++ more := by
  cases lines with
  | nil => exact ⟨[], by simp⟩
  | cons next lines =>
      rw [String.intercalate_cons_cons, String.append_assoc, String.toList_append]
      exact ⟨_, rfl⟩

/-- The first item of an array is no end of it. -/
theorem token_items {depth : Nat} {item : Json} (plain : Plain depth item) (level : Nat)
    (items : List Json) (rest : List Char)
    : ∃ c more,
        skipGap
            (['\n'] ++ ((",\n".intercalate (prettyItems level (item :: items))).toList ++ rest))
          = c :: more
        ∧ c ≠ ']' := by
  obtain ⟨c, following, starts, token, other⟩ := plain.token level
  obtain ⟨more, line⟩ := intercalate_starts ",\n" (margin level ++ prettyAt level item)
    (prettyItems level items)
  refine ⟨c, following ++ (more ++ rest), ?_, other⟩
  rw [prettyItems, line, String.toList_append, starts]
  simpa using skipGap_token isGap_line token (following ++ (more ++ rest))

/-- The first field of an object is no end of it. -/
theorem token_fields (field : String × Json) (level : Nat) (fields : List (String × Json))
    (rest : List Char)
    : ∃ more,
        skipGap
            (['\n'] ++ ((",\n".intercalate (prettyFields level (field :: fields))).toList ++ rest))
          = '"' :: more := by
  obtain ⟨name, value⟩ := field
  obtain ⟨more, line⟩ := intercalate_starts ",\n"
    (margin level ++ quote name ++ ": " ++ prettyAt level value) (prettyFields level fields)
  obtain ⟨body, starts, _⟩ := text?_name isGap_feed level name
    ((prettyAt level value).toList ++ (more ++ rest))
  refine ⟨body, ?_⟩
  rw [prettyFields, line]
  simpa only [String.toList_append, List.append_assoc] using starts

theorem reads_arr {level depth : Nat} {items : List Json} (plain : ∀ item ∈ items, Plain depth item)
    (reads : ∀ item ∈ items, Reads (level + 1) depth item)
    : Reads level (depth + 1) (.arr items) := by
  refine (Plain.arr plain).reads_of_steps fun steps rest enough => ?_
  cases items with
  | nil => simp [prettyAt, value?, skipGap, isGap]
  | cons item items =>
      rw [prettyAt_arr level (by simp)] at enough ⊢
      simp only [List.length_cons, List.length_append] at enough
      obtain ⟨c, more, token, other⟩ := token_items (plain item List.mem_cons_self) (level + 1)
        items ('\n' :: (margin level).toList ++ [']'] ++ rest)
      rw [List.cons_append, List.append_assoc, List.append_assoc, value?_items token other,
        List.append_assoc]
      exact itemsFrom?_lines reads (by simp) isGap_line (by omega) isGap_feed rest []

theorem reads_obj {level depth : Nat} {fields : List (String × Json)}
    (plain : ∀ field ∈ fields, Plain depth field.2)
    (reads : ∀ field ∈ fields, Reads (level + 1) depth field.2)
    : Reads level (depth + 1) (.obj fields) := by
  refine (Plain.obj plain).reads_of_steps fun steps rest enough => ?_
  cases fields with
  | nil => simp [prettyAt, value?, skipGap, isGap]
  | cons field fields =>
      rw [prettyAt_obj level (by simp)] at enough ⊢
      simp only [List.length_cons, List.length_append] at enough
      obtain ⟨more, token⟩ := token_fields field (level + 1) fields
        ('\n' :: (margin level).toList ++ ['\x7d'] ++ rest)
      rw [List.cons_append, List.append_assoc, List.append_assoc, value?_fields token (by decide),
        List.append_assoc]
      exact fieldsFrom?_lines reads (by simp) isGap_line (by omega) isGap_feed rest []

-----------------------------------------------------------------------------------------
-- Documents
-----------------------------------------------------------------------------------------

/-- Documents of texts and truth values are read back, by induction on them. -/
theorem Plain.reads {depth : Nat} {doc : Json} (plain : Plain depth doc) (level : Nat)
    : Reads level depth doc := by
  induction plain generalizing level with
  | bool depth value =>
      refine (Plain.bool depth value).reads_of_steps fun steps rest _ => ?_
      cases value
      · have read := expect?_append "alse" rest
        simp_all [prettyAt, value?, skipGap, isGap]
      · have read := expect?_append "rue" rest
        simp_all [prettyAt, value?, skipGap, isGap]
  | str depth text =>
      refine (Plain.str depth text).reads_of_steps fun steps rest _ => ?_
      obtain ⟨body, starts, read⟩ := text?_quote text rest
      have token : skipGap ('"' :: body) = '"' :: body := by simp [skipGap, isGap]
      simp only [prettyAt, starts, value?, token, read, Option.map_some]
  | arr each ih => exact reads_arr each fun item member => ih item member _
  | obj each ih => exact reads_obj each fun field member => ih field member _

/-- A document of texts and truth values is read back from its text, with or without blanks after it.
-/
theorem Plain.parse?_pretty {doc : Json} (plain : Plain maxDepth doc) {last : String}
    (blank : ∀ c ∈ last.toList, isGap c = true)
    : parse? (doc.pretty ++ last) = some doc := by
  have nothing : skipGap last.toList = [] := List.dropWhile_eq_nil_iff.mpr blank
  rw [parse?, pretty, String.toList_append, plain.reads 0]
  · simp [nothing]
  · rw [List.length_append]
    omega

end Vetting.Json
