import Vetting.Markup.Fault
import Vetting.Text.Search

/-! Replacing references. Five names and the numbers of all characters but the first can be
referred to; a reference ends at the next semicolon, before which no other reference may start. -/

namespace Vetting.Markup

open Vetting.Text

/-- The characters that have a name. -/
def namedCharacter? (name : List Char) : Option Char :=
  match String.ofList name with
  | "lt" => some '<'
  | "gt" => some '>'
  | "amp" => some '&'
  | "apos" => some '\''
  | "quot" => some '"'
  | _ => none

/-- The value of a digit in a base of at most sixteen. -/
def digitValue? (base : Nat) (c : Char) : Option Nat :=
  let value? :=
    if c.isDigit then some (c.toNat - '0'.toNat)
    else if 'a' ≤ c && c ≤ 'f' then some (c.toNat - 'a'.toNat + 10)
    else if 'A' ≤ c && c ≤ 'F' then some (c.toNat - 'A'.toNat + 10)
    else none
  value?.filter (· < base)

/-- Reads digits in a base as a number of 32 bits; digits are looked at from the left, and the
first that is none or that makes the number too large decides. -/
def readNumber (base : Nat) : List Char → Nat → Except NumberFault Nat
  | [], n => .ok n
  | c :: rest, n =>
      match digitValue? base c with
      | none => .error .badDigit
      | some value =>
          if n * base + value < UInt32.size then readNumber base rest (n * base + value)
          else .error .tooLarge

/-- The character with a number, written behind a hash. -/
def numberedCharacter (digits : List Char) : Except ReferenceFault Char :=
  let (base, digits) :=
    match digits with
    | 'x' :: rest => (16, rest)
    | _ => (10, digits)
  match digits with
  | [] => .error (.number .noDigits)
  | '+' :: _ => .error .signed
  | '-' :: _ => .error .signed
  | _ =>
      match readNumber base digits 0 with
      | .error fault => .error (.number fault)
      | .ok n =>
          if n = 0 then .error .zero
          else if n.isValidChar then .ok (Char.ofNat n)
          else .error (.noCharacter n)

/-- Replaces the references of a text of `size` bytes, from a suffix of it on; `steps` bounds the
number of characters. -/
def resolveFrom (size : Nat) : Nat → List Char → Except ReferenceFault (List Char)
  | 0, _ => .ok []
  | _ + 1, [] => .ok []
  | steps + 1, c :: rest =>
      if c != '&' then (resolveFrom size steps rest).map (c :: ·)
      else
        let first := size - byteLength (c :: rest)
        let name := rest.takeWhile fun d => d != '&' && d != ';'
        match rest.dropWhile fun d => d != '&' && d != ';' with
        | ';' :: behind => do
            let last := first + 1 + byteLength name
            let resolved ←
              match name with
              | '#' :: digits => numberedCharacter digits
              | _ =>
                  match namedCharacter? name with
                  | some d => .ok d
                  | none => .error (.unknown (first + 1) last (String.ofList name))
            return resolved :: (← resolveFrom size steps behind)
        | _ => .error (.unterminated first size)

/-- Replaces the references of a text. -/
def resolve (text : List Char) : Except ReferenceFault String :=
  (resolveFrom (byteLength text) (text.length + 1) text).map String.ofList

end Vetting.Markup
