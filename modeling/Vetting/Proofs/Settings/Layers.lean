import Vetting.Command.Run
import Vetting.Proofs.Settings.Documents

/-! The layers of the configuration: a file, the environment and the flags of the command line. It is
checked after each of them, so it is settled only when it is valid all along; then each field has the
value of the last layer that gives one, or else its default.
-/

namespace Vetting

-----------------------------------------------------------------------------------------
-- Whole numbers
-----------------------------------------------------------------------------------------

namespace WholeNumber

/-- A text spells a number of 64 bits: in digits, before which a plus may stand. -/
def Spells (text : List Char) (n : Nat) : Prop :=
  ∃ digits,
    (text = digits ∨ text = '+' :: digits)
    ∧ digits ≠ []
    ∧ (∀ d ∈ digits, d.isDigit = true)
    ∧ Nat.ofDigitChars 10 digits 0 = n
    ∧ n < limit

end WholeNumber

-----------------------------------------------------------------------------------------
-- Valid configurations
-----------------------------------------------------------------------------------------

namespace Configuration

/-- What a configuration has to be for its check. -/
structure Valid (c : Configuration) : Prop where
  toolTimeout : 1 ≤ c.toolTimeout
  maxConcurrency : ∀ n ∈ c.maxConcurrency, 1 ≤ n
  thresholds : ∀ kind, 0 ≤ c.thresholds kind ∧ c.thresholds kind ≤ 1

namespace FileValues

/-- A file that gives nothing. -/
def nothing : FileValues where
  toolTimeout := none
  maxConcurrency := none
  threshold _ := none
  jarPaths := none

variable {values : FileValues} {home : Option Path}

end FileValues

variable {tree : FileTree} {home path : Option Path} {environment : String → Option String}
  {c : Configuration}

end Configuration

-----------------------------------------------------------------------------------------
-- All layers
-----------------------------------------------------------------------------------------

namespace Surroundings

open Vetting.Configuration

end Surroundings

end Vetting
