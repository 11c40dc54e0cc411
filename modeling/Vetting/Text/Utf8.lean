/-! Decoding bytes as UTF-8. A lossy decoding replaces every longest prefix of a well-formed
sequence that is not completed, and every byte that starts none, by one replacement character;
all other bytes keep the characters they encode. -/

namespace Vetting.Text

/-- Whether a byte continues a sequence. -/
def isContinuation (b : UInt8) : Bool :=
  0x80 ≤ b && b ≤ 0xBF

/-- The values that the second byte of a sequence may have after the given first byte, and the
number of bytes that follow the first one. -/
def leadByte? (b : UInt8) : Option (UInt8 × UInt8 × Nat) :=
  if 0xC2 ≤ b && b ≤ 0xDF then some (0x80, 0xBF, 1)
  else if b == 0xE0 then some (0xA0, 0xBF, 2)
  else if b == 0xED then some (0x80, 0x9F, 2)
  else if 0xE1 ≤ b && b ≤ 0xEF then some (0x80, 0xBF, 2)
  else if b == 0xF0 then some (0x90, 0xBF, 3)
  else if 0xF1 ≤ b && b ≤ 0xF3 then some (0x80, 0xBF, 3)
  else if b == 0xF4 then some (0x80, 0x8F, 3)
  else none

/-- Reads the sequence that starts with a byte: the character it encodes, or none when it is
broken, and the number of bytes after the first that belong to it. -/
def decodeOne (b : UInt8) (rest : List UInt8) : Option Char × Nat :=
  if b < 0x80 then (some (Char.ofNat b.toNat), 0)
  else
    match leadByte? b, rest with
    | some (low, high, count), second :: more =>
        if second < low || high < second then (none, 0)
        else
          let tail := (more.take (count - 1)).takeWhile isContinuation
          if tail.length < count - 1 then (none, 1 + tail.length)
          else
            let lead := b.toNat % (1 <<< (6 - count))
            let code := (second :: tail).foldl (fun n x => n * 64 + x.toNat % 64) lead
            (some (Char.ofNat code), count)
    | _, _ => (none, 0)

/-- Decodes bytes, with the replacement character for each broken sequence. -/
def decodeLossy : List UInt8 → List Char
  | [] => []
  | b :: rest =>
      let step := decodeOne b rest
      step.1.getD '\uFFFD' :: decodeLossy (rest.drop step.2)
termination_by bytes => bytes.length
decreasing_by simp only [List.length_drop, List.length_cons]; omega

/-- Decodes bytes when all of them are well formed. -/
def decode? : List UInt8 → Option (List Char)
  | [] => some []
  | b :: rest =>
      let step := decodeOne b rest
      match step.1 with
      | none => none
      | some c => (decode? (rest.drop step.2)).map (c :: ·)
termination_by bytes => bytes.length
decreasing_by simp only [List.length_drop, List.length_cons]; omega

/-- The bytes of a text. -/
def encode (text : List Char) : List UInt8 :=
  text.flatMap String.utf8EncodeChar

end Vetting.Text
