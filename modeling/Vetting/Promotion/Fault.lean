import Vetting.Files.Fault
import Vetting.Files.Path
import Vetting.Promotion.SafePath

/-! Why a step of a promotion fails. What a draft does wrong is no fault: it stands in the report. -/

namespace Vetting

/-- Why a step of a promotion fails. -/
inductive PromotionFault where
  | unsafePath (path : UnsafePath)
  /-- An operation on the files failed. -/
  | files (path : Path) (fault : FileFault)
  /-- A copy has another digest than the file of the draft. -/
  | digestMismatch (path expected actual : String)
  deriving DecidableEq, Repr

/-- The wording of a fault. -/
def PromotionFault.message : PromotionFault → String
  | unsafePath path => path.message
  | files path fault => "io error at " ++ path.text ++ ": " ++ fault.message
  | digestMismatch path expected actual =>
      "digest mismatch for " ++ path ++ ": draft " ++ expected ++ ", staged " ++ actual

/-- The wording of a fault with its cause, where it has one. -/
def PromotionFault.trace : PromotionFault → String
  | files path fault => (files path fault).message ++ ": " ++ fault.message
  | fault => fault.message

/-- The path below a directory to which a safe path leads. -/
def SafePath.resolve (root : Path) (written : String) : Except PromotionFault Path :=
  match SafePath.parse written with
  | .ok names => .ok (root.below (names.map Path.bytesOf))
  | .error path => .error (.unsafePath path)

end Vetting
