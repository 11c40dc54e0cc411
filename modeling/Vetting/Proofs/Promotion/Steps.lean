import Vetting.Promotion.Commit
import Vetting.Proofs.Files.Execution
import Vetting.Proofs.Promotion.SafeNames

/-! The runs of programs that may stop with a fault. A fault ends a run where it comes up, unless it
is caught.
-/

namespace Vetting.PromotionStep

variable {α β : Type} {conduct : Conduct} {tree after : FileTree}

/-- From a tree, a program may yield a value or stop with a fault, and leave another tree. -/
def Yields (conduct : Conduct) (step : PromotionStep α) (tree : FileTree)
    (result : Except PromotionFault α) (after : FileTree)
    : Prop :=
  FileProgram.Yields conduct (ExceptT.run step) tree result after

@[simp] theorem yields_pure {value : α} {result : Except PromotionFault α}
    : Yields conduct (pure value) tree result after ↔ result = .ok value ∧ after = tree :=
  Iff.rfl

@[simp] theorem yields_throw {fault : PromotionFault} {result : Except PromotionFault α}
    : Yields conduct (throw fault) tree result after ↔ result = .error fault ∧ after = tree :=
  Iff.rfl

@[simp] theorem yields_mk {program : FileProgram (Except PromotionFault α)}
    {result : Except PromotionFault α}
    : Yields conduct (ExceptT.mk program) tree result after
      ↔ program.Yields conduct tree result after :=
  Iff.rfl

/-- A program that goes on with another one stops where its first part stops. -/
theorem yields_bind {step : PromotionStep α} {rest : α → PromotionStep β}
    {result : Except PromotionFault β}
    : Yields conduct (step >>= rest) tree result after
      ↔ (∃ fault, result = .error fault ∧ step.Yields conduct tree (.error fault) after)
        ∨ ∃ value between,
            step.Yields conduct tree (.ok value) between
            ∧ (rest value).Yields conduct between result after := by
  unfold Yields
  rw [ExceptT.run_bind, FileProgram.yields_bind]
  constructor
  · rintro ⟨value | value, between, first, onward⟩
    · obtain ⟨rfl, rfl⟩ := onward
      exact Or.inl ⟨value, rfl, first⟩
    · exact Or.inr ⟨value, between, first, onward⟩
  · rintro (⟨fault, rfl, first⟩ | ⟨value, between, first, onward⟩)
    · exact ⟨.error fault, after, first, rfl, rfl⟩
    · exact ⟨.ok value, between, first, onward⟩

@[simp] theorem yields_lift {program : FileProgram α} {result : Except PromotionFault α}
    : Yields conduct (ExceptT.lift program) tree result after
      ↔ ∃ value, result = .ok value ∧ program.Yields conduct tree value after := by
  unfold Yields
  rw [ExceptT.run_lift, map_eq_pure_bind, FileProgram.yields_bind]
  constructor
  · rintro ⟨value, between, first, rfl, rfl⟩
    exact ⟨value, rfl, first⟩
  · rintro ⟨value, rfl, first⟩
    exact ⟨value, after, first, rfl, rfl⟩

theorem yields_request {op : Operation} {path : Path} {result : Except PromotionFault op.Answer}
    : Yields conduct (request op path) tree result after
      ↔ (∃ fault, result = .error (.files path fault) ∧ conduct tree op (.error fault) after)
        ∨ ∃ answer, result = .ok answer ∧ conduct tree op (.ok answer) after := by
  unfold request
  rw [yields_mk, FileProgram.yields_bind]
  constructor
  · rintro ⟨answer | answer, between, ended, rfl, rfl⟩
    · exact Or.inl ⟨answer, rfl, FileProgram.yields_request.mp ended⟩
    · exact Or.inr ⟨answer, rfl, FileProgram.yields_request.mp ended⟩
  · rintro (⟨fault, rfl, ended⟩ | ⟨answer, rfl, ended⟩)
    · exact ⟨_, after, FileProgram.yields_request.mpr ended, rfl, rfl⟩
    · exact ⟨_, after, FileProgram.yields_request.mpr ended, rfl, rfl⟩

/-- An operation whose failure is passed over always goes on. -/
theorem yields_attempt {op : Operation} {result : Except PromotionFault Unit}
    : Yields conduct (attempt op) tree result after
      ↔ result = .ok () ∧ ∃ answer, conduct tree op answer after := by
  unfold attempt
  rw [yields_lift]
  constructor
  · rintro ⟨_, rfl, ended⟩
    obtain ⟨answer, _, ended, _, rfl⟩ := FileProgram.yields_bind.mp ended
    exact ⟨rfl, answer, FileProgram.yields_request.mp ended⟩
  · rintro ⟨rfl, answer, ended⟩
    exact ⟨(), rfl, FileProgram.yields_bind.mpr
      ⟨answer, after, FileProgram.yields_request.mpr ended, rfl, rfl⟩⟩

/-- What starts with an operation stops with its fault or goes on with its answer. -/
theorem yields_request_bind {op : Operation} {path : Path} {rest : op.Answer → PromotionStep β}
    {result : Except PromotionFault β}
    : Yields conduct (request op path >>= rest) tree result after
      ↔ (∃ fault, result = .error (.files path fault) ∧ conduct tree op (.error fault) after)
        ∨ ∃ answer between,
            conduct tree op (.ok answer) between
            ∧ (rest answer).Yields conduct between result after := by
  rw [yields_bind]
  constructor
  · rintro (⟨_, rfl, stopped⟩ | ⟨value, between, first, onward⟩)
    · obtain ⟨fault, same, ended⟩ | ⟨_, impossible, _⟩ := yields_request.mp stopped
      · exact Or.inl ⟨fault, congrArg Except.error (Except.error.inj same), ended⟩
      · exact absurd impossible (by simp)
    · obtain ⟨_, impossible, _⟩ | ⟨answer, same, ended⟩ := yields_request.mp first
      · exact absurd impossible (by simp)
      · obtain rfl := Except.ok.inj same
        exact Or.inr ⟨value, between, ended, onward⟩
  · rintro (⟨fault, rfl, ended⟩ | ⟨answer, between, ended, onward⟩)
    · exact Or.inl ⟨_, rfl, yields_request.mpr (Or.inl ⟨fault, rfl, ended⟩)⟩
    · exact Or.inr ⟨answer, between, yields_request.mpr (Or.inr ⟨answer, rfl, ended⟩), onward⟩

/-- What starts with a program that cannot stop goes on with its value. -/
theorem yields_lift_bind {program : FileProgram α} {rest : α → PromotionStep β}
    {result : Except PromotionFault β}
    : Yields conduct (ExceptT.lift program >>= rest) tree result after
      ↔ ∃ value between,
          program.Yields conduct tree value between
          ∧ (rest value).Yields conduct between result after := by
  rw [yields_bind]
  constructor
  · rintro (⟨_, _, stopped⟩ | ⟨value, between, first, onward⟩)
    · obtain ⟨_, impossible, _⟩ := yields_lift.mp stopped
      exact absurd impossible (by simp)
    · obtain ⟨_, same, ended⟩ := yields_lift.mp first
      obtain rfl := Except.ok.inj same
      exact ⟨value, between, ended, onward⟩
  · rintro ⟨value, between, ended, onward⟩
    exact Or.inr ⟨value, between, yields_lift.mpr ⟨value, rfl, ended⟩, onward⟩

theorem yields_attempt_bind {op : Operation} {rest : Unit → PromotionStep β}
    {result : Except PromotionFault β}
    : Yields conduct (attempt op >>= rest) tree result after
      ↔ ∃ answer between,
          conduct tree op answer between ∧ (rest ()).Yields conduct between result after := by
  rw [yields_bind]
  constructor
  · rintro (⟨_, _, stopped⟩ | ⟨_, between, first, onward⟩)
    · exact absurd (yields_attempt.mp stopped).1 (by simp)
    · obtain ⟨_, answer, ended⟩ := yields_attempt.mp first
      exact ⟨answer, between, ended, onward⟩
  · rintro ⟨answer, between, ended, onward⟩
    exact Or.inr ⟨(), between, yields_attempt.mpr ⟨rfl, answer, ended⟩, onward⟩

/-- A fault that is handled goes on with the handler. -/
theorem run_tryCatch {step : PromotionStep α} {handler : PromotionFault → PromotionStep α}
    : ExceptT.run (tryCatch step handler)
      = ExceptT.run step >>= fun
          | .ok value => pure (.ok value)
          | .error fault => (handler fault).run := by
  refine congrArg (FileProgram.bind step) (funext fun answer => ?_)
  cases answer <;> rfl

theorem yields_tryCatch {step : PromotionStep α} {handler : PromotionFault → PromotionStep α}
    {result : Except PromotionFault α}
    : Yields conduct (tryCatch step handler) tree result after
      ↔ (∃ value, result = .ok value ∧ step.Yields conduct tree (.ok value) after)
        ∨ ∃ fault between,
            step.Yields conduct tree (.error fault) between
            ∧ (handler fault).Yields conduct between result after := by
  unfold Yields
  rw [run_tryCatch, FileProgram.yields_bind]
  constructor
  · rintro ⟨fault | value, between, first, onward⟩
    · exact Or.inr ⟨fault, between, first, onward⟩
    · obtain ⟨rfl, rfl⟩ := onward
      exact Or.inl ⟨value, rfl, first⟩
  · rintro (⟨value, rfl, first⟩ | ⟨fault, between, first, onward⟩)
    · exact ⟨.ok value, after, first, rfl, rfl⟩
    · exact ⟨.error fault, between, first, onward⟩

/-- A step for each of some values stops at the first fault. -/
theorem yields_mapM_nil {step : α → PromotionStep β} {result : Except PromotionFault (List β)}
    : Yields conduct (([] : List α).mapM step) tree result after
      ↔ result = .ok [] ∧ after = tree := by
  rw [List.mapM_nil, yields_pure]

theorem yields_mapM_cons {step : α → PromotionStep β} {value : α} {values : List α}
    {result : Except PromotionFault (List β)}
    : Yields conduct ((value :: values).mapM step) tree result after
      ↔ (∃ fault, result = .error fault ∧ (step value).Yields conduct tree (.error fault) after)
        ∨ ∃ first between,
            (step value).Yields conduct tree (.ok first) between
            ∧ ((∃ fault,
                  result = .error fault
                  ∧ Yields conduct (values.mapM step) between (.error fault) after)
              ∨ ∃ rest,
                  result = .ok (first :: rest)
                  ∧ Yields conduct (values.mapM step) between (.ok rest) after) := by
  rw [List.mapM_cons, yields_bind]
  refine or_congr_right (exists_congr fun first => exists_congr fun between => ?_)
  rw [yields_bind]
  refine and_congr_right fun _ => or_congr_right ?_
  constructor
  · rintro ⟨rest, _, onward, rfl, rfl⟩
    exact ⟨rest, rfl, onward⟩
  · rintro ⟨rest, rfl, onward⟩
    exact ⟨rest, after, onward, rfl, rfl⟩

end Vetting.PromotionStep

namespace Vetting.PromotionRoute

open PromotionStep

variable {route : PromotionRoute} {staging : Path} {path : String}

/-- Copying a file stops at once when its path leads below no directory. -/
theorem stageFile_of_unnamed (unnamed : SafePath.names path = [])
    : ∃ fault, route.stageFile staging path = throw fault := by
  unfold stageFile
  cases resolved : SafePath.resolve route.draftRoot path with
  | ok source => exact absurd unnamed (SafePath.resolve_eq_ok.mp resolved).1
  | error fault => exact ⟨fault, rfl⟩

/-- Copying a file goes on with the places below each directory to which the names of its path
lead.
-/
theorem stageFile_of_named (named : SafePath.names path ≠ [])
    : route.stageFile staging path = do
        let source := route.draftRoot.below (SafePath.names path)
        let staged := staging.below (SafePath.names path)
        let expected := Sha256.hexDigest (← request (.readFile source) source)
        createParent staged
        request (.copyFile source staged) staged
        let actual := Sha256.hexDigest (← request (.readFile staged) staged)
        if actual ≠ expected then throw (.digestMismatch path expected actual)
        return ⟨path, staged, route.outputRoot.below (SafePath.names path), expected⟩ := by
  have resolves : ∀ root, SafePath.resolve root path = .ok (root.below (SafePath.names path)) :=
    fun root => SafePath.resolve_eq_ok.mpr ⟨named, rfl⟩
  unfold stageFile
  rw [resolves, resolves, resolves]
  rfl

end Vetting.PromotionRoute
