import Vetting.Files.Fault
import Vetting.Files.Path
import Vetting.Validation.Validator

/-! Running programs under a limit of time. A program that is not started and one that takes too
long are told apart from one that ends by itself, whatever it puts out. -/

namespace Vetting

/-- What a host makes of a program that it is asked to run. -/
inductive Execution where
  /-- The program cannot be started. -/
  | refused (fault : FileFault)
  /-- The program ends by itself after a number of milliseconds; it has no status when a signal ends
  it. -/
  | ended (status : Option UInt8) (stdout stderr : Bytes) (elapsed : Nat)
  deriving DecidableEq, Repr

namespace Execution

/-- No program is given more milliseconds than this. -/
def longestLimit : Nat := 60000

/-- The exit code that is told for a status. -/
def exitCode : Option UInt8 → Int
  | some status => status.toNat
  | none => -1

/-- What becomes of an execution under a limit in milliseconds. -/
def outcome (limit : Nat) (program : Program) : Execution → ToolOutcome
  | refused fault => .notStarted ("failed to run " ++ program.path ++ ": " ++ fault.message)
  | ended status stdout stderr elapsed =>
      if limit ≤ elapsed then .timedOut (limit / 1000)
      else .completed ⟨exitCode status, Text.decodeLossy stdout, Text.decodeLossy stderr⟩

end Execution

end Vetting
