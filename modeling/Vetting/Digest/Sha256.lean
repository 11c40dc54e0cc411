import Vetting.Text.Utf8

/-! The SHA-256 digest of a list of bytes. The message is padded to whole blocks of 64 bytes; each
block is expanded to 64 words, which drive 64 rounds on eight chained words. -/

namespace Vetting.Sha256

/-- One constant for each round: the first bits of the fractions of the cube roots of the first 64
primes. -/
def roundConstants : List UInt32 := [
  0x428a2f98, 0x71374491, 0xb5c0fbcf, 0xe9b5dba5, 0x3956c25b, 0x59f111f1, 0x923f82a4, 0xab1c5ed5,
  0xd807aa98, 0x12835b01, 0x243185be, 0x550c7dc3, 0x72be5d74, 0x80deb1fe, 0x9bdc06a7, 0xc19bf174,
  0xe49b69c1, 0xefbe4786, 0x0fc19dc6, 0x240ca1cc, 0x2de92c6f, 0x4a7484aa, 0x5cb0a9dc, 0x76f988da,
  0x983e5152, 0xa831c66d, 0xb00327c8, 0xbf597fc7, 0xc6e00bf3, 0xd5a79147, 0x06ca6351, 0x14292967,
  0x27b70a85, 0x2e1b2138, 0x4d2c6dfc, 0x53380d13, 0x650a7354, 0x766a0abb, 0x81c2c92e, 0x92722c85,
  0xa2bfe8a1, 0xa81a664b, 0xc24b8b70, 0xc76c51a3, 0xd192e819, 0xd6990624, 0xf40e3585, 0x106aa070,
  0x19a4c116, 0x1e376c08, 0x2748774c, 0x34b0bcb5, 0x391c0cb3, 0x4ed8aa4a, 0x5b9cca4f, 0x682e6ff3,
  0x748f82ee, 0x78a5636f, 0x84c87814, 0x8cc70208, 0x90befffa, 0xa4506ceb, 0xbef9a3f7, 0xc67178f2]

/-- The eight chained words. -/
structure Chain where
  a : UInt32
  b : UInt32
  c : UInt32
  d : UInt32
  e : UInt32
  f : UInt32
  g : UInt32
  h : UInt32
  deriving DecidableEq, Repr

namespace Chain

/-- The words before the first block: the first bits of the fractions of the square roots of the
first eight primes. -/
def start : Chain :=
  ⟨0x6a09e667, 0xbb67ae85, 0x3c6ef372, 0xa54ff53a, 0x510e527f, 0x9b05688c, 0x1f83d9ab, 0x5be0cd19⟩

/-- Adds two chains word by word. -/
def add (x y : Chain) : Chain :=
  ⟨x.a + y.a, x.b + y.b, x.c + y.c, x.d + y.d, x.e + y.e, x.f + y.f, x.g + y.g, x.h + y.h⟩

/-- The eight words, in their order. -/
def words (x : Chain) : List UInt32 :=
  [x.a, x.b, x.c, x.d, x.e, x.f, x.g, x.h]

end Chain

/-- Turns a word to the right. -/
def rotate (x : UInt32) (n : UInt32) : UInt32 :=
  (x >>> n) ||| (x <<< (32 - n))

/-- One round, with the sum of its constant and its word. -/
def round (x : Chain) (k : UInt32) : Chain :=
  let choice := (x.e &&& x.f) ^^^ ((~~~x.e) &&& x.g)
  let majority := (x.a &&& x.b) ^^^ (x.a &&& x.c) ^^^ (x.b &&& x.c)
  let first := x.h + (rotate x.e 6 ^^^ rotate x.e 11 ^^^ rotate x.e 25) + choice + k
  let second := (rotate x.a 2 ^^^ rotate x.a 13 ^^^ rotate x.a 22) + majority
  ⟨first + second, x.a, x.b, x.c, x.d + first, x.e, x.f, x.g⟩

/-- Adds one word in front of words that are held from the last to the first. -/
def nextWord (words : List UInt32) : List UInt32 :=
  let early := words.getD 14 0
  let late := words.getD 1 0
  let low := rotate early 7 ^^^ rotate early 18 ^^^ (early >>> 3)
  let high := rotate late 17 ^^^ rotate late 19 ^^^ (late >>> 10)
  (words.getD 15 0 + low + words.getD 6 0 + high) :: words

/-- The words for the 64 rounds of a block of 16 words. -/
def schedule (block : List UInt32) : List UInt32 :=
  ((List.range 48).foldl (fun words _ => nextWord words) block.reverse).reverse

/-- The chain after a block. -/
def compress (chain : Chain) (block : List UInt32) : Chain :=
  let rounds := List.zipWith (· + ·) roundConstants (schedule block)
  chain.add (rounds.foldl round chain)

/-- The words of bytes, four at a time with the first one highest. -/
def wordsOf : List UInt8 → List UInt32
  | a :: b :: c :: d :: rest =>
      ((a.toUInt32 <<< 24) ||| (b.toUInt32 <<< 16) ||| (c.toUInt32 <<< 8) ||| d.toUInt32) ::
        wordsOf rest
  | _ => []

/-- The four bytes of a word, the highest first. -/
def bytesOf (word : UInt32) : List UInt8 :=
  [(word >>> 24).toUInt8, (word >>> 16).toUInt8, (word >>> 8).toUInt8, word.toUInt8]

/-- What is added to a message of a length to fill whole blocks: a mark, zeros and the number of
its bits. -/
def padding (length : Nat) : List UInt8 :=
  let zeros := (119 - length % 64) % 64
  let bits := length * 8
  0x80 :: List.replicate zeros 0 ++
    (bytesOf (bits / UInt32.size).toUInt32 ++ bytesOf bits.toUInt32)

/-- The chain after all whole blocks of some words. -/
def absorb (chain : Chain) (words : List UInt32) : Chain :=
  if 16 ≤ words.length then absorb (compress chain (words.take 16)) (words.drop 16)
  else chain
termination_by words.length
decreasing_by simp only [List.length_drop]; omega

/-- The 32 bytes of the digest of a message. -/
def digest (message : List UInt8) : List UInt8 :=
  (absorb Chain.start (wordsOf (message ++ padding message.length))).words.flatMap bytesOf

/-- The two hexadecimal digits of a byte. -/
def hexByte (b : UInt8) : List Char :=
  [Nat.digitChar (b.toNat / 16), Nat.digitChar (b.toNat % 16)]

/-- The digest of a message in hexadecimal digits. -/
def hexDigest (message : List UInt8) : String :=
  String.ofList ((digest message).flatMap hexByte)

example
    : hexDigest [0x61, 0x62, 0x63]
      = "ba7816bf8f01cfea414140de5dae2223b00361a396177a9cb410ff61f20015ad" := by
  decide +kernel

/-- Two messages collide when they are different and have the same digest. -/
def Collide (one two : List UInt8) : Prop :=
  one ≠ two ∧ digest one = digest two

theorem digitChar_injective
    : ∀ one < 16, ∀ two < 16, Nat.digitChar one = Nat.digitChar two → one = two := by
  decide

theorem hexByte_injective {one two : UInt8} (same : hexByte one = hexByte two) : one = two := by
  have := one.toNat_lt
  have := two.toNat_lt
  simp only [hexByte, List.cons.injEq, and_true] at same
  have high := digitChar_injective _ (by omega) _ (by omega) same.1
  have low := digitChar_injective _ (by omega) _ (by omega) same.2
  exact UInt8.toNat_inj.mp (by omega)

/-- Bytes are known by their hexadecimal digits, by induction on them: each byte has two digits. -/
theorem flatMap_hexByte_injective {one two : List UInt8}
    (same : one.flatMap hexByte = two.flatMap hexByte)
    : one = two := by
  induction one generalizing two with
  | nil =>
      cases two with
      | nil => rfl
      | cons b rest => simp [hexByte] at same
  | cons b rest ih =>
      cases two with
      | nil => simp [hexByte] at same
      | cons c others =>
          rw [List.flatMap_cons, List.flatMap_cons] at same
          obtain ⟨first, onward⟩ := List.append_inj same rfl
          rw [hexByte_injective first, ih onward]

/-- Messages with the same digest in hexadecimal digits are equal or collide. -/
theorem eq_or_collide {one two : List UInt8} (same : hexDigest one = hexDigest two)
    : one = two ∨ Collide one two := by
  have digests := flatMap_hexByte_injective (String.ofList_injective same)
  by_cases equal : one = two
  · exact Or.inl equal
  · exact Or.inr ⟨equal, digests⟩

end Vetting.Sha256
