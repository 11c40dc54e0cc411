import Mathlib.Algebra.Group.Nat.Defs
import Mathlib.Data.List.Basic
import Mathlib.Data.List.TakeWhile
import Vetting.Files.Path
import Vetting.Text.Utf8

/-! Decoding the bytes of a text gives the text back, so different texts have different bytes; and
bytes that can be decoded are the bytes of what they are decoded to. A lossy decoding leaves of each
byte below 128 its character, wherever it stands: no sequence before it takes it in, be that sequence
broken or not.
-/

namespace Vetting.Text

-----------------------------------------------------------------------------------------
-- Single bytes
-----------------------------------------------------------------------------------------

theorem toNat_ofNat_of_lt {n : Nat} (small : n < 256) : (UInt8.ofNat n).toNat = n := by
  simp only [UInt8.toNat_ofNat']
  omega

theorem leadByte?_eq (b : UInt8)
    : leadByte? b
      = if 0xC2 ≤ b.toNat ∧ b.toNat ≤ 0xDF then some (0x80, 0xBF, 1)
        else if b.toNat = 0xE0 then some (0xA0, 0xBF, 2)
        else if b.toNat = 0xED then some (0x80, 0x9F, 2)
        else if 0xE1 ≤ b.toNat ∧ b.toNat ≤ 0xEF then some (0x80, 0xBF, 2)
        else if b.toNat = 0xF0 then some (0x90, 0xBF, 3)
        else if 0xF1 ≤ b.toNat ∧ b.toNat ≤ 0xF3 then some (0x80, 0xBF, 3)
        else if b.toNat = 0xF4 then some (0x80, 0x8F, 3)
        else none := by
  simp [leadByte?, UInt8.le_iff_toNat_le, ← UInt8.toNat_inj]

/-- The byte that continues a sequence with six bits. -/
def continuation (n : Nat) : UInt8 :=
  UInt8.ofNat (n % 0x40 + 0x80)

@[simp] theorem toNat_continuation (n : Nat) : (continuation n).toNat = n % 0x40 + 0x80 :=
  toNat_ofNat_of_lt (by omega)

theorem isContinuation_continuation (n : Nat) : isContinuation (continuation n) = true := by
  simp only [isContinuation, UInt8.le_iff_toNat_le, toNat_continuation, Bool.and_eq_true,
    decide_eq_true_eq]
  change 0x80 ≤ _ ∧ _ ≤ 0xBF
  omega

theorem toNat_val_ofNat {n : Nat} (valid : n.isValidChar) : (Char.ofNat n).val.toNat = n := by
  rw [Char.ofNat, dif_pos valid]
  rfl

theorem ofNat_eq_of_toNat {n : Nat} {b : UInt8} (same : n = b.toNat) : UInt8.ofNat n = b := by
  rw [same, UInt8.ofNat_toNat]

theorem toNat_of_isContinuation {b : UInt8} (continues : isContinuation b = true)
    : 0x80 ≤ b.toNat ∧ b.toNat ≤ 0xBF := by
  simpa [isContinuation, UInt8.le_iff_toNat_le] using continues

/-- What a first byte asks for, for each number of bytes after it. -/
theorem leadByte?_eq_some {b low high : UInt8} {count : Nat}
    (asks : leadByte? b = some (low, high, count))
    : 0x80 ≤ low.toNat
      ∧ high.toNat ≤ 0xBF
      ∧ (count = 1 ∧ 0xC2 ≤ b.toNat ∧ b.toNat ≤ 0xDF
        ∨ count = 2 ∧ 0xE0 ≤ b.toNat ∧ b.toNat ≤ 0xEF
          ∧ (b.toNat = 0xE0 → 0xA0 ≤ low.toNat)
          ∧ (b.toNat = 0xED → high.toNat ≤ 0x9F)
        ∨ count = 3 ∧ 0xF0 ≤ b.toNat ∧ b.toNat ≤ 0xF4
          ∧ (b.toNat = 0xF0 → 0x90 ≤ low.toNat)
          ∧ (b.toNat = 0xF4 → high.toNat ≤ 0x8F)) := by
  rw [leadByte?_eq] at asks
  repeat' split at asks
  case isFalse => simp at asks
  all_goals
    obtain ⟨rfl, rfl, rfl⟩ := by simpa using asks
    simp
    omega

-----------------------------------------------------------------------------------------
-- Sequences
-----------------------------------------------------------------------------------------

theorem decodeOne_single {n : Nat} (small : n < 0x80) (rest : List UInt8)
    : decodeOne (UInt8.ofNat n) rest = (some (Char.ofNat n), 0) := by
  have value := toNat_ofNat_of_lt (n := n) (by omega)
  simp [decodeOne, UInt8.lt_iff_toNat_lt, value, small]

/-- A first byte with as many bytes after it as it asks for is decoded. -/
theorem decodeOne_sequence {lead low high second : UInt8} {tail : List UInt8}
    (big : 0x80 ≤ lead.toNat) (asks : leadByte? lead = some (low, high, tail.length + 1))
    (lowest : low.toNat ≤ second.toNat) (highest : second.toNat ≤ high.toNat)
    (continues : ∀ b ∈ tail, isContinuation b = true) (rest : List UInt8)
    : decodeOne lead (second :: tail ++ rest)
      = (some (Char.ofNat ((second :: tail).foldl (fun n x => n * 64 + x.toNat % 64)
          (lead.toNat % 2 ^ (5 - tail.length)))), tail.length + 1) := by
  have taken : ((tail ++ rest).take tail.length).takeWhile isContinuation = tail := by
    rw [List.take_left, List.takeWhile_eq_self_iff.mpr continues]
  have inRange : ¬ (second < low || high < second) = true := by
    simp only [UInt8.lt_iff_toNat_lt, Bool.or_eq_true, decide_eq_true_eq]
    omega
  have bits : 6 - (tail.length + 1) = 5 - tail.length := by omega
  unfold decodeOne
  rw [if_neg (by rw [UInt8.lt_iff_toNat_lt]; exact Nat.not_lt.mpr big), asks]
  simp only [List.cons_append, if_neg inRange, Nat.add_sub_cancel, taken, Nat.lt_irrefl, if_false,
    bits, Nat.one_shiftLeft]

theorem decodeOne_two {v : Nat} (low : 0x80 ≤ v) (high : v < 0x800) (rest : List UInt8)
    : decodeOne (UInt8.ofNat (v / 64 % 0x20 + 0xc0)) ([continuation v] ++ rest)
      = (some (Char.ofNat v), 1) := by
  have lead := toNat_ofNat_of_lt (n := v / 64 % 0x20 + 0xc0) (by omega)
  have asks : leadByte? (UInt8.ofNat (v / 64 % 0x20 + 0xc0)) = some (0x80, 0xBF, 1) := by
    rw [leadByte?_eq, lead, if_pos (by omega)]
  rw [decodeOne_sequence (by omega) asks]
  · have code : (v / 64 % 0x20 + 0xc0) % 2 ^ 5 * 64 + (v % 0x40 + 0x80) % 64 = v := by omega
    simp only [List.foldl_cons, List.foldl_nil, List.length_nil, lead, toNat_continuation,
      Nat.zero_add, Nat.reduceSub, code]
  · simp
  · rw [toNat_continuation]
    exact Nat.le_of_lt_succ (by change _ < 0xC0; omega)
  · simp

theorem decodeOne_three {v : Nat} (low : 0x800 ≤ v) (high : v < 0x10000)
    (valid : v < 0xD800 ∨ 0xDFFF < v) (rest : List UInt8)
    : decodeOne (UInt8.ofNat (v / 4096 % 0x10 + 0xe0))
        ([continuation (v / 64), continuation v] ++ rest)
      = (some (Char.ofNat v), 2) := by
  have lead := toNat_ofNat_of_lt (n := v / 4096 % 0x10 + 0xe0) (by omega)
  have second := toNat_continuation (v / 64)
  obtain ⟨least, most, asks, lowest, highest⟩ : ∃ least most,
      leadByte? (UInt8.ofNat (v / 4096 % 0x10 + 0xe0)) = some (least, most, 2)
      ∧ least.toNat ≤ (continuation (v / 64)).toNat
      ∧ (continuation (v / 64)).toNat ≤ most.toNat := by
    rw [leadByte?_eq, lead, if_neg (by omega)]
    split
    · exact ⟨_, _, rfl, by change 0xA0 ≤ _; omega, by change _ ≤ 0xBF; omega⟩
    split
    · exact ⟨_, _, rfl, by change 0x80 ≤ _; omega, by change _ ≤ 0x9F; omega⟩
    rw [if_pos (by omega)]
    exact ⟨_, _, rfl, by change 0x80 ≤ _; omega, by change _ ≤ 0xBF; omega⟩
  rw [decodeOne_sequence (by omega) asks lowest highest (by simp [isContinuation_continuation])]
  have code : ((v / 4096 % 0x10 + 0xe0) % 2 ^ 4 * 64 + (v / 64 % 0x40 + 0x80) % 64) * 64
      + (v % 0x40 + 0x80) % 64 = v := by
    omega
  simp only [List.foldl_cons, List.foldl_nil, List.length_cons, List.length_nil, lead,
    toNat_continuation, Nat.zero_add, Nat.reduceAdd, Nat.reduceSub, code]

theorem decodeOne_four {v : Nat} (low : 0x10000 ≤ v) (high : v < 0x110000) (rest : List UInt8)
    : decodeOne (UInt8.ofNat (v / 262144 % 0x08 + 0xf0))
        ([continuation (v / 4096), continuation (v / 64), continuation v] ++ rest)
      = (some (Char.ofNat v), 3) := by
  have lead := toNat_ofNat_of_lt (n := v / 262144 % 0x08 + 0xf0) (by omega)
  have second := toNat_continuation (v / 4096)
  obtain ⟨least, most, asks, lowest, highest⟩ : ∃ least most,
      leadByte? (UInt8.ofNat (v / 262144 % 0x08 + 0xf0)) = some (least, most, 3)
      ∧ least.toNat ≤ (continuation (v / 4096)).toNat
      ∧ (continuation (v / 4096)).toNat ≤ most.toNat := by
    rw [leadByte?_eq, lead, if_neg (by omega), if_neg (by omega), if_neg (by omega),
      if_neg (by omega)]
    split
    · exact ⟨_, _, rfl, by change 0x90 ≤ _; omega, by change _ ≤ 0xBF; omega⟩
    split
    · exact ⟨_, _, rfl, by change 0x80 ≤ _; omega, by change _ ≤ 0xBF; omega⟩
    rw [if_pos (by omega)]
    exact ⟨_, _, rfl, by change 0x80 ≤ _; omega, by change _ ≤ 0x8F; omega⟩
  rw [decodeOne_sequence (by omega) asks lowest highest (by simp [isContinuation_continuation])]
  have code : (((v / 262144 % 0x08 + 0xf0) % 2 ^ 3 * 64 + (v / 4096 % 0x40 + 0x80) % 64) * 64
      + (v / 64 % 0x40 + 0x80) % 64) * 64 + (v % 0x40 + 0x80) % 64 = v := by
    omega
  simp only [List.foldl_cons, List.foldl_nil, List.length_cons, List.length_nil, lead,
    toNat_continuation, Nat.zero_add, Nat.reduceAdd, Nat.reduceSub, code]

/-- The bytes of a character are decoded to it, whatever follows them. -/
theorem decodeOne_utf8EncodeChar (c : Char)
    : ∃ b tail,
        String.utf8EncodeChar c = b :: tail
        ∧ ∀ rest, decodeOne b (tail ++ rest) = (some c, tail.length) := by
  have value : Char.ofNat c.val.toNat = c := Char.ofNat_toNat c
  have valid : c.val.toNat < 0xD800 ∨ 0xDFFF < c.val.toNat ∧ c.val.toNat < 0x110000 := c.valid
  unfold String.utf8EncodeChar
  simp only
  generalize c.val.toNat = v at value valid
  subst value
  split
  · exact ⟨_, _, rfl, decodeOne_single (by omega)⟩
  split
  · exact ⟨_, _, rfl, decodeOne_two (by omega) (by omega)⟩
  split
  · exact ⟨_, _, rfl, decodeOne_three (by omega) (by omega) (by omega)⟩
  · exact ⟨_, _, rfl, decodeOne_four (by omega) (by omega)⟩

/-- What is decoded to a character: a byte below 128, or a first byte with as many bytes after it as
it asks for.
-/
theorem decodeOne_eq_some {b : UInt8} {rest : List UInt8} {c : Char} {count : Nat}
    (decoded : decodeOne b rest = (some c, count))
    : b.toNat < 0x80 ∧ c = Char.ofNat b.toNat ∧ count = 0
      ∨ ∃ low high second tail more,
          leadByte? b = some (low, high, tail.length + 1)
          ∧ rest = second :: tail ++ more
          ∧ low.toNat ≤ second.toNat
          ∧ second.toNat ≤ high.toNat
          ∧ (∀ x ∈ tail, isContinuation x = true)
          ∧ count = tail.length + 1
          ∧ c = Char.ofNat ((second :: tail).foldl (fun n x => n * 64 + x.toNat % 64)
              (b.toNat % 2 ^ (5 - tail.length))) := by
  unfold decodeOne at decoded
  split at decoded
  · rename_i small
    obtain ⟨same, none⟩ := by simpa using decoded
    exact Or.inl ⟨by simpa [UInt8.lt_iff_toNat_lt] using small, same.symm, none.symm⟩
  split at decoded
  · rename_i low high asked second more asks
    split at decoded
    · exact absurd decoded (by simp)
    rename_i inRange
    simp only at decoded
    split at decoded
    · exact absurd decoded (by simp)
    rename_i whole
    -- A first byte asks for at least one more, so that taking one off the number loses nothing.
    have some : 1 ≤ asked := by
      rcases (leadByte?_eq_some asks).2.2 with ⟨rfl, _⟩ | ⟨rfl, _⟩ | ⟨rfl, _⟩ <;> decide
    have short := List.length_take_le (asked - 1) more
    have front := List.takeWhile_prefix isContinuation (l := more.take (asked - 1))
    have all : (more.take (asked - 1)).takeWhile isContinuation = more.take (asked - 1) :=
      front.eq_of_length (by have := front.length_le; omega)
    have continues := List.takeWhile_eq_self_iff.mp all
    rw [all] at decoded whole
    obtain ⟨same, rfl⟩ := Prod.mk.inj decoded
    have length : asked = (more.take (asked - 1)).length + 1 := by omega
    have bits : 6 - asked = 5 - (more.take (asked - 1)).length := by omega
    simp only [Bool.or_eq_true, decide_eq_true_eq, not_or, UInt8.lt_iff_toNat_lt, not_lt] at inRange
    refine Or.inr ⟨low, high, second, more.take (asked - 1), more.drop (asked - 1), length ▸ asks,
      ?_, inRange.1, inRange.2, continues, length, ?_⟩
    · rw [List.cons_append, List.take_append_drop]
    · rw [← bits, ← Nat.one_shiftLeft]
      exact (Option.some.inj same).symm
  · exact absurd decoded (by simp)

/-- A character is encoded by the bytes that are decoded to it. -/
theorem utf8EncodeChar_of_decodeOne {b : UInt8} {rest : List UInt8} {c : Char} {count : Nat}
    (decoded : decodeOne b rest = (some c, count))
    : String.utf8EncodeChar c = b :: rest.take count := by
  obtain ⟨small, rfl, rfl⟩ | ⟨low, high, second, tail, more, asks, rfl, lowest, highest, continues,
    rfl, rfl⟩ := decodeOne_eq_some decoded
  · unfold String.utf8EncodeChar
    rw [toNat_val_ofNat (Or.inl (by omega))]
    simp [show b.toNat ≤ 127 by omega]
  obtain ⟨least, most, one | two | three⟩ := leadByte?_eq_some asks
  · obtain ⟨count, first⟩ := one
    obtain rfl : tail = [] := by simpa using count
    simp only [List.foldl_cons, List.foldl_nil, List.length_nil, Nat.sub_zero]
    unfold String.utf8EncodeChar
    rw [toNat_val_ofNat (Or.inl (by omega))]
    simp only
    rw [if_neg (by omega), if_pos (by omega), ofNat_eq_of_toNat (b := b) (by omega),
      ofNat_eq_of_toNat (b := second) (by omega)]
    simp
  · obtain ⟨count, first⟩ := two
    obtain ⟨third, rfl⟩ := List.length_eq_one_iff.mp (show tail.length = 1 by omega)
    have next := toNat_of_isContinuation (continues third (by simp))
    simp only [List.foldl_cons, List.foldl_nil, List.length_cons, List.length_nil]
    unfold String.utf8EncodeChar
    rw [toNat_val_ofNat]
    simp only
    · rw [if_neg (by omega), if_neg (by omega), if_pos (by omega),
        ofNat_eq_of_toNat (b := b) (by omega), ofNat_eq_of_toNat (b := second) (by omega),
        ofNat_eq_of_toNat (b := third) (by omega)]
      simp
    · simp [Nat.isValidChar]
      omega
  · obtain ⟨count, first⟩ := three
    obtain ⟨third, fourth, rfl⟩ := List.length_eq_two.mp (show tail.length = 2 by omega)
    have next := toNat_of_isContinuation (continues third (by simp))
    have last := toNat_of_isContinuation (continues fourth (by simp))
    simp only [List.foldl_cons, List.foldl_nil, List.length_cons, List.length_nil]
    unfold String.utf8EncodeChar
    rw [toNat_val_ofNat]
    simp only
    · rw [if_neg (by omega), if_neg (by omega), if_neg (by omega),
        ofNat_eq_of_toNat (b := b) (by omega), ofNat_eq_of_toNat (b := second) (by omega),
        ofNat_eq_of_toNat (b := third) (by omega), ofNat_eq_of_toNat (b := fourth) (by omega)]
      simp
    · simp [Nat.isValidChar]
      omega

-----------------------------------------------------------------------------------------
-- Texts
-----------------------------------------------------------------------------------------

/-- Decoding the bytes of a text gives it back, by induction on its characters. -/
theorem decode?_encode (text : List Char) : decode? (encode text) = some text := by
  induction text with
  | nil => simp [encode, decode?]
  | cons c rest ih =>
      obtain ⟨b, tail, bytes, decodes⟩ := decodeOne_utf8EncodeChar c
      have split : encode (c :: rest) = b :: (tail ++ encode rest) := by
        simp [encode, bytes]
      rw [split, decode?]
      simp [decodes, ih]

/-- The bytes of a text that is decoded are those that were decoded, by induction on these. -/
theorem encode_of_decode? {bytes : List UInt8} {text : List Char}
    (decoded : decode? bytes = some text)
    : encode text = bytes := by
  induction bytes using decode?.induct generalizing text with
  | case1 =>
      obtain rfl : [] = text := by simpa [decode?] using decoded
      rfl
  | case2 b rest step =>
      rename_i broken
      rw [decode?] at decoded
      simp only [show (decodeOne b rest).1 = none from broken] at decoded
      exact absurd decoded (by simp)
  | case3 b rest step c whole =>
      rename_i ih
      have whole : (decodeOne b rest).1 = some c := whole
      rw [decode?] at decoded
      simp only [whole] at decoded
      obtain ⟨others, onward, rfl⟩ := Option.map_eq_some_iff.mp decoded
      have first : decodeOne b rest = (some c, (decodeOne b rest).2) := by rw [← whole]
      rw [encode, List.flatMap_cons, utf8EncodeChar_of_decodeOne first, ← encode, ih onward,
        List.cons_append, List.take_append_drop]

theorem encode_injective : Function.Injective encode := by
  intro one two same
  have := congrArg decode? same
  rwa [decode?_encode, decode?_encode, Option.some_inj] at this

@[simp] theorem encode_append (front back : List Char)
    : encode (front ++ back) = encode front ++ encode back :=
  List.flatMap_append

/-- Below 128, the bytes of a text are those of its characters. -/
theorem mem_encode_of_lt {text : List Char} {b : UInt8} (small : b.toNat < 0x80)
    (member : b ∈ encode text)
    : Char.ofNat b.toNat ∈ text := by
  obtain ⟨c, listed, member⟩ := List.mem_flatMap.mp member
  have value : Char.ofNat c.val.toNat = c := Char.ofNat_toNat c
  have large : ∀ {n : Nat}, 0x80 ≤ n → n < 256 → b ≠ UInt8.ofNat n := by
    rintro n big bound rfl
    rw [toNat_ofNat_of_lt bound] at small
    omega
  unfold String.utf8EncodeChar at member
  simp only at member
  split at member
  · rw [List.mem_singleton] at member
    rw [member, toNat_ofNat_of_lt (by omega), value]
    exact listed
  · exfalso
    split at member
    · simp only [List.mem_cons, List.not_mem_nil, or_false] at member
      rcases member with h | h <;> exact large (by omega) (by omega) h
    split at member
    · simp only [List.mem_cons, List.not_mem_nil, or_false] at member
      rcases member with h | h | h <;> exact large (by omega) (by omega) h
    · simp only [List.mem_cons, List.not_mem_nil, or_false] at member
      rcases member with h | h | h | h <;> exact large (by omega) (by omega) h

-----------------------------------------------------------------------------------------
-- Lossy decoding
-----------------------------------------------------------------------------------------

variable {b : UInt8}

theorem not_isContinuation_of_lt (small : b.toNat < 0x80) : isContinuation b = false := by
  rw [← Bool.not_eq_true]
  intro continues
  have := toNat_of_isContinuation continues
  omega

/-- What is taken of a list does not depend on what follows an element that is not taken. -/
theorem takeWhile_take_append {α : Type} {taken : α → Bool} {stop : α} (stops : taken stop = false)
    (count : Nat) (front back : List α)
    : ((front ++ stop :: back).take count).takeWhile taken = (front.take count).takeWhile taken := by
  induction front generalizing count with
  | nil => cases count <;> simp [stops]
  | cons first rest ih =>
      cases count with
      | zero => rfl
      | succ count => simp only [List.cons_append, List.take_succ_cons, List.takeWhile_cons, ih]

/-- A sequence has no more bytes than there are. -/
theorem decodeOne_snd_le (first : UInt8) (rest : List UInt8)
    : (decodeOne first rest).2 ≤ rest.length := by
  unfold decodeOne
  split
  · exact Nat.zero_le _
  split
  · rename_i low high count second more asks
    split
    · exact Nat.zero_le _
    have tail := (List.takeWhile_prefix isContinuation (l := more.take (count - 1))).length_le
    have short := List.length_take_le' (count - 1) more
    simp only
    split
    · simp only [List.length_cons]
      omega
    · have := List.length_take (i := count - 1) (l := more)
      simp only [List.length_cons]
      omega
  · exact Nat.zero_le _

/-- A sequence ends before a byte below 128. -/
theorem decodeOne_append (small : b.toNat < 0x80) (first : UInt8) (front back : List UInt8)
    : decodeOne first (front ++ b :: back) = decodeOne first front := by
  unfold decodeOne
  split
  · rfl
  cases asks : leadByte? first with
  | none => rfl
  | some range =>
      obtain ⟨low, high, count⟩ := range
      cases front with
      | nil =>
          -- The byte itself stands where a second one is asked for, which is never below 128.
          have lowest := (leadByte?_eq_some asks).1
          have below : b < low := by
            rw [UInt8.lt_iff_toNat_lt]
            omega
          simp [below]
      | cons second more =>
          simp only [List.cons_append, takeWhile_take_append (not_isContinuation_of_lt small)]

/-- A byte below 128 is decoded to its character, by induction on the sequences before it. -/
theorem decodeLossy_append (small : b.toNat < 0x80) (front back : List UInt8)
    : decodeLossy (front ++ b :: back)
      = decodeLossy front ++ Char.ofNat b.toNat :: decodeLossy back := by
  induction front using decodeLossy.induct with
  | case1 =>
      have single := decodeOne_single small back
      rw [UInt8.ofNat_toNat] at single
      simp [decodeLossy, single]
  | case2 first rest step ih =>
      have ih : decodeLossy (rest.drop (decodeOne first rest).2 ++ b :: back) = _ := ih
      rw [List.cons_append, decodeLossy, decodeLossy, decodeOne_append small,
        List.drop_append_of_le_length (decodeOne_snd_le first rest), ih]
      rfl

/-- A run of bytes below 128 is decoded to their characters, by induction on it. -/
theorem decodeLossy_run {run : List UInt8} (small : ∀ b ∈ run, b.toNat < 0x80) (back : List UInt8)
    : decodeLossy (run ++ back) = run.map (fun b => Char.ofNat b.toNat) ++ decodeLossy back := by
  induction run with
  | nil => rfl
  | cons first rest ih =>
      obtain ⟨here, others⟩ := List.forall_mem_cons.mp small
      have onward := decodeLossy_append here [] (rest ++ back)
      rw [ih others] at onward
      simpa [decodeLossy] using onward

/-- A run of bytes below 128 stays together when it is decoded, whatever stands around it. -/
theorem infix_decodeLossy {run bytes : List UInt8} (small : ∀ b ∈ run, b.toNat < 0x80)
    (stands : run <:+: bytes)
    : run.map (fun b => Char.ofNat b.toNat) <:+: decodeLossy bytes := by
  obtain ⟨front, back, rfl⟩ := stands
  cases run with
  | nil => exact List.nil_infix
  | cons first rest =>
      obtain ⟨here, others⟩ := List.forall_mem_cons.mp small
      refine ⟨decodeLossy front, decodeLossy back, ?_⟩
      have bytes : front ++ first :: rest ++ back = front ++ first :: (rest ++ back) := by simp
      rw [bytes, decodeLossy_append here, decodeLossy_run others]
      simp

end Vetting.Text

namespace Vetting.Path

theorem bytesOf_injective : Function.Injective bytesOf :=
  fun _ _ same => String.toList_injective (Text.encode_injective same)

theorem bytesOf_append (front back : String)
    : bytesOf (front ++ back) = bytesOf front ++ bytesOf back := by
  simp [bytesOf]

theorem slash_not_mem_bytesOf {text : String} (absent : '/' ∉ text.toList)
    : slash ∉ bytesOf text :=
  fun member => absent (Text.mem_encode_of_lt (by decide) member)

end Vetting.Path
