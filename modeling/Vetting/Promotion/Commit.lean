import Vetting.Digest.Sha256
import Vetting.Files.Program
import Vetting.Promotion.Fault

/-! Putting the required files of a draft into place, all of them or none. The files are copied to
a fresh directory and their digests are compared first; then each is moved into place, after what
stood there has been set aside. When a move fails, the moves before it are undone, the last one
first. -/

namespace Vetting

/-- A program that may stop with a fault. -/
abbrev PromotionStep (α : Type) : Type := ExceptT PromotionFault FileProgram α

namespace PromotionStep

/-- One operation; when it fails, the fault tells of a path. -/
def request (op : Operation) (path : Path) : PromotionStep op.Answer :=
  ExceptT.mk do
    match ← FileProgram.request op with
    | .ok answer => return .ok answer
    | .error fault => return .error (.files path fault)

/-- One operation, whose failure is passed over. -/
def attempt (op : Operation) : PromotionStep Unit :=
  ExceptT.lift do
    let _ ← FileProgram.request op

/-- Makes the directory in which a path ends. -/
def createParent (path : Path) : PromotionStep Unit :=
  match path.parent? with
  | none => return ()
  | some parent => request (.createDirectories parent) parent

end PromotionStep

open PromotionStep

/-- A file that has been copied and compared. -/
structure StagedFile where
  /-- The required path. -/
  path : String
  staged : Path
  /-- Where the file belongs. -/
  target : Path
  digest : String
  deriving DecidableEq, Repr

/-- A file that has been moved into place. -/
structure InstalledFile where
  target : Path
  /-- Where that is now which stood there before. -/
  parked : Option Path
  deriving DecidableEq, Repr

/-- Where files come from and go to. -/
structure PromotionRoute where
  draftRoot : Path
  outputRoot : Path
  deriving DecidableEq, Repr

namespace PromotionRoute

/-- How the names of directories for copies start. -/
def stagingStart : Bytes := Path.bytesOf ".halgate-staging-"

/-- Copies a required file to a directory and compares the digests. -/
def stageFile (route : PromotionRoute) (staging : Path) (path : String) :
    PromotionStep StagedFile := do
  let source ← liftExcept (SafePath.resolve route.draftRoot path)
  let staged ← liftExcept (SafePath.resolve staging path)
  let target ← liftExcept (SafePath.resolve route.outputRoot path)
  let expected := Sha256.hexDigest (← request (.readFile source) source)
  createParent staged
  request (.copyFile source staged) staged
  let actual := Sha256.hexDigest (← request (.readFile staged) staged)
  if actual ≠ expected then throw (.digestMismatch path expected actual)
  return ⟨path, staged, target, expected⟩
where
  /-- A step without an operation. -/
  liftExcept {α : Type} (result : Except PromotionFault α) : PromotionStep α :=
    ExceptT.mk (pure result)

/-- Where a thing is set aside that stands in the way of a file. -/
def parkingPlace (staging : Path) (index : Nat) : Path :=
  staging.join (Path.bytesOf (".previous-" ++ toString index))

/-- Sets aside what stands where a file belongs. -/
def park (staging target : Path) (index : Nat) : PromotionStep (Option Path) := do
  match ← ExceptT.lift (FileProgram.request (.find target)) with
  | .error _ => return none
  | .ok () =>
      let place := parkingPlace staging index
      request (.rename target place) target
      return some place

/-- Moves a file into place. -/
def install (staging : Path) (file : StagedFile) (index : Nat) : PromotionStep InstalledFile := do
  createParent file.target
  let parked ← park staging file.target index
  match ← ExceptT.lift (FileProgram.request (.rename file.staged file.target)) with
  | .ok () => return ⟨file.target, parked⟩
  | .error fault =>
      if let some place := parked then attempt (.rename place file.target)
      throw (.files file.target fault)

/-- Undoes moves, the last one of which is given first. -/
def rollback : List InstalledFile → PromotionStep Unit
  | [] => return ()
  | file :: rest => do
      attempt (.removeFile file.target)
      if let some place := file.parked then attempt (.rename place file.target)
      rollback rest

/-- Moves files into place after others, the last one of which is given first. -/
def installAll (staging : Path) (installed : List InstalledFile) :
    List StagedFile → PromotionStep Unit
  | [] => return ()
  | file :: rest => do
      let done ←
        tryCatch (install staging file installed.length) fun fault => do
          rollback installed
          throw fault
      installAll staging (done :: installed) rest

/-- Puts the required files into place, and tells of each the digest. -/
def commit (route : PromotionRoute) (required : List String) :
    PromotionStep (List StagedFile) := do
  request (.createDirectories route.outputRoot) route.outputRoot
  let staging ← request (.createScratch route.outputRoot stagingStart) route.outputRoot
  let outcome ← ExceptT.lift (ExceptT.run do
    let staged ← required.mapM (route.stageFile staging)
    installAll staging [] staged
    return staged)
  attempt (.removeDirectory staging)
  ExceptT.mk (pure outcome)

end PromotionRoute

end Vetting
