import Mathlib.Algebra.Group.Nat.Defs
import Vetting.Text.Blank
import Vetting.Text.Letters

/-! The categories of control characters, of the letters of ASCII and of blanks. The runs of the code
space start with that of the control characters, and every other one starts behind it, so the search
for the run of a control character never leaves the first. In general the search ends at the run that
starts last among those that start at or before a code point, which for the capital letters is the
seventeenth and for the small ones the twenty-fourth.
-/

namespace Vetting.Text

namespace Category

/-- Reading runs appends them, each with a start that is not before the first one, by induction on
the reading.
-/
theorem decodeRuns_eq (cs : List Char) (start : Nat) (acc : Array (Nat × Category))
    : ∃ more, decodeRuns cs start acc = acc ++ more ∧ ∀ run ∈ more, start ≤ run.1 := by
  induction cs, start, acc using decodeRuns.induct with
  | case1 a b rest start acc digits length pushed ih =>
      obtain ⟨more, decoded, later⟩ := ih
      rw [decodeRuns]
      refine ⟨#[(start, (ofCode? (String.ofList [a, b])).getD .cn)] ++ more,
        decoded.trans (by simp [pushed]), ?_⟩
      intro run member
      rcases Array.mem_append.mp member with here | onward
      · simp_all
      · exact Nat.le_trans (Nat.le_add_right _ _) (later run onward)
  | case2 start acc cs short =>
      refine ⟨#[], ?_, by simp⟩
      unfold decodeRuns
      simp

/-- The first run is that of the control characters. -/
theorem table_eq : ∃ more, table = #[(0, .cc)] ++ more ∧ ∀ run ∈ more, 32 ≤ run.1 := by
  have start : ∃ rest, runs.flatMap String.toList = 'C' :: 'c' :: '3' :: '2' :: 'Z' :: rest := by
    rw [runs, List.flatMap_cons]
    exact ⟨_, rfl⟩
  have name : ofCode? (String.ofList ['C', 'c']) = some .cc := by decide +kernel
  obtain ⟨rest, start⟩ := start
  have length : ('3' :: '2' :: 'Z' :: rest).takeWhile Char.isDigit = ['3', '2'] := by
    simp [List.takeWhile, Char.isDigit]
  obtain ⟨more, decoded, later⟩ := decodeRuns_eq
    (('3' :: '2' :: 'Z' :: rest).dropWhile Char.isDigit) 32 #[(0, .cc)]
  refine ⟨more, ?_, later⟩
  rw [table, start, decodeRuns]
  simp only [length, name]
  exact decoded

/-- The search for what stands before all other runs ends at the first one, by induction on its
steps.
-/
theorem search_first {table : Array (Nat × Category)} {code first : Nat} {category : Category}
    (starts : table[0]? = some (first, category))
    (later : ∀ i run, 0 < i → table[i]? = some run → code < run.1) (steps high : Nat)
    : search table code steps 0 high = category := by
  induction steps generalizing high with
  | zero => simp [search, starts]
  | succ steps ih =>
      unfold search
      split
      · simp [starts]
      · simp only
        split
        · rename_i run _ found
          have late : code < run := later _ _ (by omega) found
          rw [if_neg (by omega)]
          exact ih _
        · exact ih _

theorem ofChar_control {c : Char} (control : c.toNat < 32) : ofChar c = .cc := by
  obtain ⟨more, runs, later⟩ := table_eq
  unfold ofChar
  rw [runs]
  have starts : (#[(0, cc)] ++ more)[0]? = some (0, cc) := by
    rw [Array.getElem?_append_left (by simp)]
    rfl
  refine search_first starts ?_ _ _
  intro i run positive found
  rw [Array.getElem?_append_right positive] at found
  exact Nat.lt_of_lt_of_le control (later run (Array.mem_of_getElem? found))

-----------------------------------------------------------------------------------------
-- Entries
-----------------------------------------------------------------------------------------

/-- The number of code points in the first entries of a run-length text, and what is left of it. -/
def behind : Nat → List Char → Nat × List Char
  | entries + 1, _ :: _ :: rest =>
      let length := (rest.takeWhile Char.isDigit).foldl (fun n d => n * 10 + (d.toNat - '0'.toNat)) 0
      let later := behind entries (rest.dropWhile Char.isDigit)
      (length + later.1, later.2)
  | _, left => (0, left)

/-- The first entries are read before what is left, and start before it, by induction on them. -/
theorem decodeRuns_behind (entries : Nat) (cs : List Char) (start : Nat)
    (acc : Array (Nat × Category))
    : ∃ first,
        decodeRuns cs start acc
          = decodeRuns (behind entries cs).2 (start + (behind entries cs).1) (acc ++ first)
        ∧ ∀ run ∈ first, run.1 ≤ start + (behind entries cs).1 := by
  induction entries generalizing cs start acc with
  | zero => exact ⟨#[], by simp [behind], by simp⟩
  | succ entries ih =>
      match cs with
      | [] | [_] => exact ⟨#[], by simp [behind], by simp⟩
      | a :: b :: rest =>
          rw [decodeRuns]
          obtain ⟨first, decoded, before⟩ := ih (rest.dropWhile Char.isDigit) _ _
          refine ⟨#[(start, (ofCode? (String.ofList [a, b])).getD .cn)] ++ first,
            decoded.trans ?_, ?_⟩
          · simp only [behind, Nat.add_assoc, Array.push_eq_append, Array.append_assoc]
          · intro run member
            rcases Array.mem_append.mp member with here | onward
            · simp_all
            · have := before run onward
              simp only [behind]
              omega

/-- Each run is read from characters of its own. -/
theorem size_decodeRuns_le (cs : List Char) (start : Nat) (acc : Array (Nat × Category))
    : (decodeRuns cs start acc).size ≤ acc.size + cs.length := by
  induction cs, start, acc using decodeRuns.induct with
  | case1 a b rest start acc digits length pushed ih =>
      have less := (List.dropWhile_sublist (l := rest) Char.isDigit).length_le
      rw [decodeRuns]
      simp only [pushed, Array.size_push] at ih
      simp only [List.length_cons]
      exact Nat.le_trans ih (by omega)
  | case2 start acc cs short =>
      unfold decodeRuns
      simp

theorem length_ofList_le {line : List Char} (short : line.length ≤ 100)
    : (String.ofList line).toList.length ≤ 100 := by
  rwa [String.toList_ofList]

theorem length_runs_le : ∀ line ∈ runs, line.toList.length ≤ 100 := by
  unfold runs
  repeat' refine List.forall_mem_cons.mpr ⟨length_ofList_le ?_, ?_⟩
  all_goals decide +kernel

/-- Lines of up to a hundred characters are together as long as that, by induction on them. -/
theorem length_flatMap_le {lines : List String} (short : ∀ line ∈ lines, line.toList.length ≤ 100)
    : (lines.flatMap String.toList).length ≤ 100 * lines.length := by
  induction lines with
  | nil => simp
  | cons line rest ih =>
      obtain ⟨here, others⟩ := List.forall_mem_cons.mp short
      have onward := ih others
      rw [List.flatMap_cons, List.length_append, List.length_cons]
      omega

/-- The search has steps enough for the whole table. -/
theorem size_table_le : table.size ≤ 2 ^ 24 := by
  have entries := size_decodeRuns_le (runs.flatMap String.toList) 0 #[]
  have characters := length_flatMap_le length_runs_le
  have lines : runs.length ≤ 1000 := by decide +kernel
  rw [Array.size_empty, Nat.zero_add] at entries
  rw [table]
  omega

/-- The search ends at the run that starts last among those that do not start behind a code point, by
induction on its steps: the run stays in the interval.
-/
theorem search_eq {table : Array (Nat × Category)} {code i first : Nat} {category : Category}
    (here : table[i]? = some (first, category))
    (before : ∀ j run, j ≤ i → table[j]? = some run → run.1 ≤ code)
    (later : ∀ j run, i < j → table[j]? = some run → code < run.1) (steps low high : Nat)
    (fromLow : low ≤ i) (toHigh : i < high) (enough : high ≤ low + 2 ^ steps)
    : search table code steps low high = category := by
  have last : ∀ low, i = low → ((table[low]?).map Prod.snd).getD .cn = category := by
    rintro _ rfl
    simp [here]
  induction steps generalizing low high with
  | zero => exact last low (by omega)
  | succ steps ih =>
      unfold search
      split
      · exact last low (by omega)
      · simp only
        have half : 2 ^ (steps + 1) = 2 * 2 ^ steps := Nat.pow_succ'
        by_cases side : (low + high) / 2 ≤ i
        · obtain ⟨bound, _⟩ := Array.getElem?_eq_some_iff.mp here
          have found := Array.getElem?_eq_getElem (show (low + high) / 2 < table.size by omega)
          rw [found]
          simp only [if_pos (before _ _ side found)]
          exact ih _ _ side toHigh (by omega)
        · split
          · rename_i run _ found
            rw [if_neg (Nat.not_le.mpr (later _ _ (by omega) found))]
            exact ih _ _ fromLow (by omega) (by omega)
          · exact ih _ _ fromLow (by omega) (by omega)

/-- The category of an entry of a run-length text, the first code point that has it, and the number of
code points that do.
-/
def entryAt (entries : Nat) (cs : List Char) : Category × Nat × Nat :=
  let left := (behind entries cs).2
  let digits := (left.drop 2).takeWhile Char.isDigit
  ((ofCode? (String.ofList (left.take 2))).getD .cn, (behind entries cs).1,
    digits.foldl (fun n d => n * 10 + (d.toNat - '0'.toNat)) 0)

/-- An entry is read as a run that starts no earlier than those before it, and before those behind it.
-/
theorem decodeRuns_entry {entries : Nat} {cs : List Char} {category : Category} {start count : Nat}
    (entry : entryAt entries cs = (category, start, count)) (some : 0 < count)
    : ∃ first more,
        decodeRuns cs 0 #[] = first ++ #[(start, category)] ++ more
        ∧ (∀ run ∈ first, run.1 ≤ start)
        ∧ ∀ run ∈ more, start + count ≤ run.1 := by
  obtain ⟨first, decoded, before⟩ := decodeRuns_behind entries cs 0 #[]
  simp only [entryAt, Prod.mk.injEq] at entry
  obtain ⟨name, rfl, length⟩ := entry
  rw [Nat.zero_add] at before
  match left : (behind entries cs).2 with
  | [] | [_] =>
      rw [left] at length
      simp at length
      omega
  | a :: b :: rest =>
      rw [left] at name length
      simp only [List.take_succ_cons, List.take_zero, List.drop_succ_cons, List.drop_zero]
        at name length
      obtain ⟨more, remaining, later⟩ := decodeRuns_eq (rest.dropWhile Char.isDigit)
        ((behind entries cs).1 + count) (first ++ #[((behind entries cs).1, category)])
      rw [left, Nat.zero_add, Array.empty_append, decodeRuns] at decoded
      simp only [length, name, Array.push_eq_append] at decoded
      exact ⟨first, more, decoded.trans remaining, before, later⟩

/-- The code points of an entry have its category. -/
theorem ofChar_entry {entries : Nat} {category : Category} {start count : Nat} {c : Char}
    (entry : entryAt entries (runs.flatMap String.toList) = (category, start, count))
    (low : start ≤ c.toNat) (high : c.toNat < start + count)
    : ofChar c = category := by
  obtain ⟨first, more, runs, before, later⟩ := decodeRuns_entry entry (by omega)
  rw [← table] at runs
  unfold ofChar
  have size : first.size < table.size := by
    rw [runs]
    simp only [Array.size_append, List.size_toArray, List.length_singleton]
    omega
  have here : table[first.size]? = some (start, category) := by
    rw [runs, Array.append_assoc, Array.getElem?_append_right (Nat.le_refl _), Nat.sub_self,
      Array.getElem?_append_left (by simp)]
    rfl
  refine search_eq here ?_ ?_ 24 0 table.size (Nat.zero_le _) size ?_
  · intro j run atMost found
    rcases Nat.lt_or_eq_of_le atMost with earlier | rfl
    · rw [runs, Array.append_assoc, Array.getElem?_append_left earlier] at found
      exact Nat.le_trans (before run (Array.mem_of_getElem? found)) low
    · rw [here] at found
      obtain rfl := Option.some.inj found
      exact low
  · intro j run beyond found
    rw [runs, Array.getElem?_append_right (by simpa using Nat.succ_le_of_lt beyond)] at found
    exact Nat.lt_of_lt_of_le high (later run (Array.mem_of_getElem? found))
  · rw [Nat.zero_add]
    exact size_table_le

-----------------------------------------------------------------------------------------
-- Letters and blanks
-----------------------------------------------------------------------------------------

theorem entryAt_capitalLetters
    : entryAt 16 (runs.flatMap String.toList) = (.lu, 65, 26) := by
  decide +kernel

theorem ofChar_capitalLetter {c : Char} (low : 65 ≤ c.toNat) (high : c.toNat ≤ 90)
    : ofChar c = .lu :=
  ofChar_entry entryAt_capitalLetters low (by omega)

theorem entryAt_smallLetters
    : entryAt 23 (runs.flatMap String.toList) = (.ll, 97, 26) := by
  decide +kernel

theorem ofChar_smallLetter {c : Char} (low : 97 ≤ c.toNat) (high : c.toNat ≤ 122)
    : ofChar c = .ll :=
  ofChar_entry entryAt_smallLetters low (by omega)

/-- What is left behind some entries is read on, by induction on them. -/
theorem behind_add (entries more : Nat) (cs : List Char)
    : behind (entries + more) cs
      = ((behind entries cs).1 + (behind more (behind entries cs).2).1,
          (behind more (behind entries cs).2).2) := by
  induction entries generalizing cs with
  | zero => simp [behind]
  | succ entries ih =>
      match cs with
      | [] | [_] => cases more <;> simp [behind]
      | a :: b :: rest => simp [behind, Nat.succ_add, ih, Nat.add_assoc]

/-- The entries at the given distances from one another, in one pass over a run-length text. -/
def entriesAt : List Nat → Nat → List Char → List (Category × Nat × Nat)
  | [], _, _ => []
  | distance :: distances, start, text =>
      let left := behind distance text
      let entry := entryAt 0 left.2
      (entry.1, start + left.1, entry.2.2) :: entriesAt distances (start + left.1) left.2

/-- Each of these entries is one of the text, by induction on the distances. -/
theorem exists_entryAt {distances : List Nat} {entries : Nat} {text : List Char}
    {entry : Category × Nat × Nat}
    (member : entry ∈ entriesAt distances (behind entries text).1 (behind entries text).2)
    : ∃ place, entryAt place text = entry := by
  induction distances generalizing entries with
  | nil => simp [entriesAt] at member
  | cons distance distances ih =>
      have onward := behind_add entries distance text
      rcases List.mem_cons.mp member with rfl | later
      · exact ⟨entries + distance, by simp [entryAt, onward, behind]⟩
      · have next : entry ∈ entriesAt distances (behind (entries + distance) text).1
            (behind (entries + distance) text).2 := by
          rw [onward]
          exact later
        exact ih next

/-- The entries of the blanks beyond ASCII. -/
def blankEntries : List (Category × Nat × Nat) :=
  entriesAt [28, 1, 1234, 523, 12, 1, 2, 15, 419] 0 (runs.flatMap String.toList)

theorem flatMap_ofList_cons {line text : List Char} {lines : List String}
    (onward : lines.flatMap String.toList = text)
    : (String.ofList line :: lines).flatMap String.toList = line ++ text := by
  rw [List.flatMap_cons, String.toList_ofList, onward]

/-- The text is spelled out first, so that it is not decoded again for each entry. -/
theorem blankEntries_eq
    : blankEntries
      = [(cc, 0x7F, 33), (zs, 0xA0, 1), (zs, 0x1680, 1), (zs, 0x2000, 11), (zl, 0x2028, 1),
          (zp, 0x2029, 1), (zs, 0x202F, 1), (zs, 0x205F, 1), (zs, 0x3000, 1)] := by
  unfold blankEntries
  apply Eq.trans
  · apply congrArg (entriesAt _ 0)
    unfold runs
    repeat' apply flatMap_ofList_cons
    exact List.flatMap_nil
  · decide +kernel

/-- A blank beyond ASCII is a control character or a separator. -/
theorem ofChar_blank {c : Char} (blank : isBlank c = true) (large : 128 ≤ c.toNat)
    : ofChar c ∈ [cc, zs, zl, zp] := by
  have covered : ∃ entry ∈ blankEntries,
      entry.1 ∈ [cc, zs, zl, zp] ∧ entry.2.1 ≤ c.toNat ∧ c.toNat < entry.2.1 + entry.2.2 := by
    simp only [isBlank, Bool.or_eq_true, Bool.and_eq_true, decide_eq_true_eq, beq_iff_eq] at blank
    simp [blankEntries_eq]
    omega
  obtain ⟨⟨category, start, count⟩, member, listed, low, high⟩ := covered
  obtain ⟨place, entry⟩ := @exists_entryAt _ 0 (runs.flatMap String.toList) _ member
  rw [ofChar_entry entry low high]
  exact listed

end Category

/-- The rule for the final sigma does not skip control characters. -/
theorem isCaseIgnorable_control {c : Char} (control : c.toNat < 32)
    : isCaseIgnorable c = false := by
  simp [isCaseIgnorable, Category.ofChar_control control]
  omega

/-- Nor does it skip the letters of ASCII. -/
theorem isCaseIgnorable_capitalLetter {c : Char} (low : 65 ≤ c.toNat) (high : c.toNat ≤ 90)
    : isCaseIgnorable c = false := by
  simp [isCaseIgnorable, Category.ofChar_capitalLetter low high]
  omega

theorem isCaseIgnorable_smallLetter {c : Char} (low : 97 ≤ c.toNat) (high : c.toNat ≤ 122)
    : isCaseIgnorable c = false := by
  simp [isCaseIgnorable, Category.ofChar_smallLetter low high]
  omega

/-- A blank does not belong to a word. -/
theorem isWordChar_of_isBlank {c : Char} (blank : isBlank c = true) : isWordChar c = false := by
  unfold isWordChar
  split
  · rename_i small
    have ascii : ∀ n < 128, isBlank (Char.ofNat n) = true →
        ((Char.ofNat n).isAlphanum || Char.ofNat n == '_') = false := by
      decide +kernel
    have known := ascii c.toNat small
    rw [Char.ofNat_toNat] at known
    exact known blank
  · rename_i large
    have listed := Category.ofChar_blank blank (Nat.not_lt.mp large)
    generalize Category.ofChar c = category at listed
    simp only [isBlank, Bool.or_eq_true, Bool.and_eq_true, decide_eq_true_eq, beq_iff_eq] at blank
    have noJoiner : (c.toNat == 0x200C) = false ∧ (c.toNat == 0x200D) = false := by
      simp only [beq_eq_false_iff_ne]
      omega
    have noLetter : isEnclosedLetter c.toNat = false := by
      simp [isEnclosedLetter]
      omega
    rw [noJoiner.1, noJoiner.2, noLetter]
    revert category
    decide

theorem not_blank_of_word {c : Char} (letter : isWordChar c = true) : isBlank c = false := by
  rw [Bool.eq_false_iff]
  intro blank
  rw [isWordChar_of_isBlank blank] at letter
  cases letter

/-- A text that starts with a word character starts with no blank. -/
theorem head_not_blank {text more : List Char}
    (begins : ∃ c ∈ text.head?, isWordChar c = true)
    : ∀ c ∈ (text ++ more).head?, isBlank c = false := by
  obtain ⟨c, first, letter⟩ := begins
  obtain ⟨rest, rfl⟩ := List.head?_eq_some_iff.mp first
  rintro _ ⟨⟩
  exact not_blank_of_word letter

end Vetting.Text
