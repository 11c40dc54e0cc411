/-! Whole numbers as settings give them: digits alone, before which a plus may stand, for a number of
64 bits. The first thing that is wrong is what is told. -/

namespace Vetting

/-- Why a text is no number. -/
inductive NumberFault where
  | empty
  | notADigit
  | tooLarge
  deriving DecidableEq, Repr

namespace NumberFault

/-- The wording of a fault. -/
def message : NumberFault → String
  | empty => "cannot parse integer from empty string"
  | notADigit => "invalid digit found in string"
  | tooLarge => "number too large to fit in target type"

end NumberFault

namespace WholeNumber

/-- All numbers are less than this. -/
def limit : Nat := UInt64.size

/-- Reads digits behind a number. -/
def readDigits (value : Nat) : List Char → Except NumberFault Nat
  | [] => .ok value
  | c :: rest =>
      if !c.isDigit then .error .notADigit
      else
        let next := value * 10 + (c.toNat - '0'.toNat)
        if limit ≤ next then .error .tooLarge else readDigits next rest

/-- Reads a number. -/
def read : List Char → Except NumberFault Nat
  | [] => .error .empty
  | ['+'] => .error .notADigit
  | '+' :: digits => readDigits 0 digits
  | digits => readDigits 0 digits

end WholeNumber

end Vetting
