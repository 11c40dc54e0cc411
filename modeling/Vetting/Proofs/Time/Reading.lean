import Mathlib.Algebra.Group.Nat.Defs
import Mathlib.Data.List.TakeWhile
import Vetting.Proofs.Results
import Vetting.Time.Timestamp

/-! The text of a point in time is read back as that point: each number is written with its full
width or ends before a mark.
-/

namespace Vetting.Timestamp

-----------------------------------------------------------------------------------------
-- Numbers
-----------------------------------------------------------------------------------------

theorem digitsValue_eq (digits : List Char)
    : digitsValue digits = Nat.ofDigitChars 10 digits 0 := by
  simp only [digitsValue, Nat.ofDigitChars, Nat.mul_comm 10]

theorem toList_padded (width n : Nat)
    : (padded width n).toList
      = List.replicate (width - (Nat.toDigits 10 n).length) '0' ++ Nat.toDigits 10 n := by
  simp [padded, ← String.length_toList]

theorem isDigit_padded {width n : Nat} : ∀ c ∈ (padded width n).toList, c.isDigit = true := by
  intro c member
  rw [toList_padded, List.mem_append, List.mem_replicate] at member
  rcases member with ⟨_, rfl⟩ | member
  · rfl
  · exact Nat.isDigit_of_mem_toDigits (by decide) (by decide) member

theorem digitsValue_padded (width n : Nat) : digitsValue (padded width n).toList = n := by
  rw [digitsValue_eq, toList_padded, Nat.ofDigitChars_append]
  simp

theorem length_padded {width n : Nat} (positive : 0 < width) (small : n < 10 ^ width)
    : (padded width n).toList.length = width := by
  have short := (Nat.length_toDigits_le_iff (by decide) positive).mpr small
  simp only [toList_padded, List.length_append, List.length_replicate]
  omega

/-- A number starts with a digit. -/
theorem padded_starts (width n : Nat)
    : ∃ c rest, (padded width n).toList = c :: rest ∧ c.isDigit = true := by
  have some : (padded width n).toList ≠ [] := by simp [toList_padded]
  obtain ⟨c, rest, digits⟩ := List.exists_cons_of_ne_nil some
  exact ⟨c, rest, digits, isDigit_padded c (by rw [digits]; exact List.mem_cons_self)⟩

theorem takeWhile_digits {most : Nat} {digits rest : List Char}
    (each : ∀ c ∈ digits, c.isDigit = true) (fits : digits.length ≤ most)
    (ends : digits.length = most ∨ ∀ c ∈ rest.head?, c.isDigit = false)
    : ((digits ++ rest).take most).takeWhile Char.isDigit = digits := by
  have nothing : (rest.take (most - digits.length)).takeWhile Char.isDigit = [] := by
    rcases ends with full | ends
    · simp [full]
    cases rest with
    | nil => simp
    | cons c rest =>
        cases most - digits.length with
        | zero => simp
        | succ more => simp [ends c (by simp)]
  rw [List.take_append, List.take_of_length_le fits, List.takeWhile_append_of_pos each, nothing,
    List.append_nil]

/-- A number is read up to a number of digits, or up to something else. -/
theorem number?_digits {most width n : Nat} (rest : List Char)
    (fits : (padded width n).toList.length ≤ most)
    (ends : (padded width n).toList.length = most ∨ ∀ c ∈ rest.head?, c.isDigit = false)
    : number? most ((padded width n).toList ++ rest) = some (n, rest) := by
  have value := digitsValue_padded width n
  have taken := takeWhile_digits isDigit_padded fits ends
  obtain ⟨c, more, digits, _⟩ := padded_starts width n
  rw [digits] at taken value ⊢
  unfold number?
  rw [taken]
  simp [value]

/-- A number with its full width is read back. -/
theorem number?_padded {width n : Nat} (positive : 0 < width) (small : n < 10 ^ width)
    (rest : List Char)
    : number? width ((padded width n).toList ++ rest) = some (n, rest) := by
  have full := length_padded positive small
  exact number?_digits rest (Nat.le_of_eq full) (Or.inl full)

-----------------------------------------------------------------------------------------
-- Parts of a timestamp
-----------------------------------------------------------------------------------------

theorem isBlank_of_isDigit {c : Char} (digit : c.isDigit = true) : Text.isBlank c = false := by
  simp only [Char.isDigit, Bool.and_eq_true, decide_eq_true_eq, UInt32.le_iff_toNat_le] at digit
  change 48 ≤ c.toNat ∧ c.toNat ≤ 57 at digit
  simp only [Text.isBlank, Bool.or_eq_false_iff, Bool.and_eq_false_iff, decide_eq_false_iff_not,
    beq_eq_false_iff_ne]
  omega

theorem skipBlanks_cons {c : Char} (shown : Text.isBlank c = false) (s : List Char)
    : skipBlanks (c :: s) = c :: s := by
  simp [skipBlanks, shown]

theorem field?_padded {n : Nat} (small : n < 100) (rest : List Char)
    : field? 2 ((padded 2 n).toList ++ rest) = some (n, rest) := by
  have read : number? 2 ((padded 2 n).toList ++ rest) = some (n, rest) :=
    number?_padded (by decide) small rest
  obtain ⟨c, more, digits, digit⟩ := padded_starts 2 n
  rw [digits, List.cons_append] at read ⊢
  rw [field?, skipBlanks_cons (isBlank_of_isDigit digit), read]

theorem mark?_cons {c : Char} (shown : Text.isBlank c = false) (rest : List Char)
    : mark? c (c :: rest) = some rest := by
  simp [mark?, skipBlanks_cons shown]

/-- A year without a sign has four digits at most. -/
theorem year?_of_isDigit {c : Char} (digit : c.isDigit = true) (rest : List Char)
    : year? (c :: rest) = (number? 4 (c :: rest)).map fun r => ((r.1 : Int), r.2) := by
  unfold year?
  rw [skipBlanks_cons (isBlank_of_isDigit digit)]
  split
  · rename_i same
    obtain ⟨rfl, _⟩ := List.cons.inj same
    exact absurd digit (by decide)
  · rename_i same
    obtain ⟨rfl, _⟩ := List.cons.inj same
    exact absurd digit (by decide)
  · rfl

/-- A year is read back up to the mark after it, be it written with a sign or without. -/
theorem year?_yearText (year : Int) (rest : List Char)
    : year? ((yearText year).toList ++ '-' :: rest) = some (year, '-' :: rest) := by
  have signed (n : Nat)
      : number? ((padded 4 n).toList ++ '-' :: rest).length ((padded 4 n).toList ++ '-' :: rest)
        = some (n, '-' :: rest) :=
    number?_digits _ (by simp) (Or.inr (by simp))
  unfold yearText
  split
  · rename_i four
    simp only [Bool.and_eq_true, decide_eq_true_eq] at four
    have same : (year.toNat : Int) = year := Int.toNat_of_nonneg four.1
    have read
        : number? 4 ((padded 4 year.toNat).toList ++ '-' :: rest) = some (year.toNat, '-' :: rest) :=
      number?_padded (by decide) (by omega) _
    obtain ⟨c, more, digits, digit⟩ := padded_starts 4 year.toNat
    rw [digits, List.cons_append] at read ⊢
    rw [year?_of_isDigit digit, read]
    simp only [Option.map_some, same]
  split
  · have sign : skipBlanks ('-' :: ((padded 4 year.natAbs).toList ++ '-' :: rest)) = _ :=
      skipBlanks_cons (by decide) _
    rw [String.toList_append]
    change year? ('-' :: ((padded 4 year.natAbs).toList ++ '-' :: rest)) = _
    simp only [year?, sign, signed, Option.map_some]
    congr 2
    omega
  · have sign : skipBlanks ('+' :: ((padded 4 year.natAbs).toList ++ '-' :: rest)) = _ :=
      skipBlanks_cons (by decide) _
    rw [String.toList_append]
    change year? ('+' :: ((padded 4 year.natAbs).toList ++ '-' :: rest)) = _
    simp only [year?, sign, signed, Option.map_some]
    congr 2
    omega

/-- Digits after the point are read as that part of a second. -/
theorem fraction?_padded {width n : Nat} (positive : 0 < width) (most : width ≤ 9)
    (small : n < 10 ^ width) (rest : List Char)
    : fraction? ('.' :: ((padded width n).toList ++ 'Z' :: rest))
      = some (n * 10 ^ (9 - width), 'Z' :: rest) := by
  have full := length_padded positive small
  have value := digitsValue_padded width n
  have taken
      : ((((padded width n).toList ++ 'Z' :: rest)).take 9).takeWhile Char.isDigit
        = (padded width n).toList :=
    takeWhile_digits isDigit_padded (by omega) (Or.inr (by simp))
  have dropped
      : ((padded width n).toList ++ 'Z' :: rest).dropWhile Char.isDigit = 'Z' :: rest := by
    rw [List.dropWhile_append_of_pos isDigit_padded]
    rfl
  obtain ⟨c, more, digits, _⟩ := padded_starts width n
  rw [digits] at full value taken dropped ⊢
  simp only [fraction?, taken, dropped, value, full]
  rfl

/-- The fraction of a second is read back, in however many groups of digits it is written. -/
theorem fraction?_fractionText {nanosecond : Nat} (small : nanosecond < 1000000000)
    (rest : List Char)
    : fraction? ((fractionText nanosecond).toList ++ 'Z' :: rest)
      = some (nanosecond, 'Z' :: rest) := by
  unfold fractionText
  split
  · simp_all [fraction?]
  split
  · rename_i milliseconds
    simp only [beq_iff_eq] at milliseconds
    rw [String.toList_append]
    refine (fraction?_padded (by decide) (by decide) (by omega) rest).trans ?_
    have whole : nanosecond / 1000000 * 10 ^ (9 - 3) = nanosecond :=
      Nat.div_mul_cancel (Nat.dvd_of_mod_eq_zero milliseconds)
    rw [whole]
  split
  · rename_i microseconds
    simp only [beq_iff_eq] at microseconds
    rw [String.toList_append]
    refine (fraction?_padded (by decide) (by decide) (by omega) rest).trans ?_
    have whole : nanosecond / 1000 * 10 ^ (9 - 6) = nanosecond :=
      Nat.div_mul_cancel (Nat.dvd_of_mod_eq_zero microseconds)
    rw [whole]
  · rw [String.toList_append]
    exact (fraction?_padded (by decide) (by decide) small rest).trans (by simp)

-----------------------------------------------------------------------------------------
-- Timestamps
-----------------------------------------------------------------------------------------

theorem daysIn_le (year : Int) (month : Nat) : daysIn year month ≤ 31 := by
  unfold daysIn
  repeat' split
  all_goals decide

/-- Without an offset, a point in time is the time that clocks show. -/
theorem behind_zero {t : Timestamp} (hour : t.hour < 24) (minute : t.minute < 60)
    : t.behind 0 = t := by
  have later : ¬ ((t.hour : Int) * 60 + t.minute - 0 < 0) := by omega
  have earlier : ¬ (minutesPerDay ≤ (t.hour : Int) * 60 + t.minute - 0) := by
    simp only [minutesPerDay]
    omega
  have hours : ((t.hour : Int) * 60 + t.minute - 0).toNat / 60 = t.hour := by omega
  have minutes : ((t.hour : Int) * 60 + t.minute - 0).toNat % 60 = t.minute := by omega
  simp only [behind, if_neg later, if_neg earlier, hours, minutes]

theorem toList_text (t : Timestamp)
    : t.text.toList
      = (yearText t.year).toList ++ '-' :: ((padded 2 t.month).toList ++ '-' ::
          ((padded 2 t.day).toList ++ 'T' :: ((padded 2 t.hour).toList ++ ':' ::
            ((padded 2 t.minute).toList ++ ':' :: ((padded 2 t.second).toList ++
              ((fractionText t.nanosecond).toList ++ ['Z'])))))) := by
  simp [text]

/-- The text of a point in time is read back as that point. -/
theorem parse?_text {t : Timestamp} (valid : t.isValid = true) : parse? t.text = some t := by
  have fields := valid
  simp only [isValid, Bool.and_eq_true, decide_eq_true_eq] at fields
  obtain ⟨⟨⟨⟨⟨⟨⟨_, month⟩, _⟩, day⟩, hour⟩, minute⟩, second⟩, nanosecond⟩ := fields
  have days := daysIn_le t.year t.month
  have afterDash (rest : List Char) : mark? '-' ('-' :: rest) = some rest :=
    mark?_cons (by decide) rest
  have afterColon (rest : List Char) : mark? ':' (':' :: rest) = some rest :=
    mark?_cons (by decide) rest
  have fraction
      : fraction? ((fractionText t.nanosecond).toList ++ ['Z']) = some (t.nanosecond, ['Z']) :=
    fraction?_fractionText nanosecond []
  have zone : zone? (skipBlanks ['Z']) = some (0, []) := by decide
  have within : decide (minutesPerDay ≤ ((0 : Int).natAbs : Int)) = false := by decide
  unfold parse?
  rw [toList_text]
  refine (Option.bind_of_eq_some (year?_yearText t.year _) _).trans ?_
  refine (Option.bind_of_eq_some (afterDash _) _).trans ?_
  refine (Option.bind_of_eq_some (field?_padded (by omega) _) _).trans ?_
  refine (Option.bind_of_eq_some (afterDash _) _).trans ?_
  refine (Option.bind_of_eq_some (field?_padded (by omega) _) _).trans ?_
  refine (Option.bind_of_eq_some (field?_padded (by omega) _) _).trans ?_
  refine (Option.bind_of_eq_some (afterColon _) _).trans ?_
  refine (Option.bind_of_eq_some (field?_padded (by omega) _) _).trans ?_
  refine (Option.bind_of_eq_some (afterColon _) _).trans ?_
  refine (Option.bind_of_eq_some (field?_padded (by omega) _) _).trans ?_
  refine (Option.bind_of_eq_some fraction _).trans ?_
  refine (Option.bind_of_eq_some zone _).trans ?_
  change (if (!t.isValid || decide (minutesPerDay ≤ ((0 : Int).natAbs : Int))) = true then none
    else if (t.behind 0).isValid = true then some (t.behind 0) else none) = some t
  rw [behind_zero hour minute, valid, within]
  rfl

/-- What is read as a timestamp is a point in time. -/
theorem isValid_of_parse? (written : String) : ∀ t ∈ parse? written, t.isValid = true := by
  unfold parse?
  iterate 4 refine Option.forall_mem_bind fun _ _ => ?_
  refine Option.forall_mem_bind fun ⟨_, clock⟩ _ => ?_
  cases clock with
  | nil => simp
  | cons gap clock =>
      dsimp only
      split
      · simp
      iterate 7 refine Option.forall_mem_bind fun _ _ => ?_
      split
      · simp
      split
      · simp
      split
      · rename_i valid
        rintro _ ⟨⟩
        exact valid
      · simp

end Vetting.Timestamp
