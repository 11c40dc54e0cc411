import Vetting.Proofs.Files.Interleaving
import Vetting.Proofs.Promotion.Steps

/-! What the steps of a promotion secure while others work on the tree. A step ends with a value or
stops with a fault, and what holds then does not depend on the fault.
-/

namespace Vetting.PromotionStep

open FileProgram (Terms)

variable {α β : Type} {terms : Terms} {before : FileTree → Prop} {ok : α → FileTree → Prop}
  {stopped : FileTree → Prop} {step : PromotionStep α}

/-- What holds where a step ends: one thing when it has come to a value, another when it has stopped. -/
def Ending (ok : α → FileTree → Prop) (stopped : FileTree → Prop)
    : Except PromotionFault α → FileTree → Prop
  | .ok value, tree => ok value tree
  | .error _, tree => stopped tree

/-- From every tree of which something holds, a step secures something where it comes to a value, and
something else where it stops.
-/
def Ensures (terms : Terms) (before : FileTree → Prop) (step : PromotionStep α)
    (ok : α → FileTree → Prop) (stopped : FileTree → Prop)
    : Prop :=
  step.run.Ensures terms before (Ending ok stopped)

/-- A step that goes on with another one stops where either of them does. -/
theorem Ensures.bind {rest : α → PromotionStep β} {between : α → FileTree → Prop}
    {ok : β → FileTree → Prop} (first : step.Ensures terms before between stopped)
    (onward : ∀ value, (rest value).Ensures terms (between value) ok stopped)
    : (step >>= rest).Ensures terms before ok stopped := by
  intro tree start
  rw [ExceptT.run_bind]
  refine (first tree start).bind fun value tree found => ?_
  cases value with
  | ok value => exact onward value tree (found tree (terms.refl tree))
  | error fault => exact found

/-- A step may start from less and end with more. -/
theorem Ensures.imp {before' stopped' : FileTree → Prop} {ok' : α → FileTree → Prop}
    (ensures : step.Ensures terms before ok stopped) (start : ∀ tree, before' tree → before tree)
    (ended : ∀ value tree, ok value tree → ok' value tree)
    (faulted : ∀ tree, stopped tree → stopped' tree)
    : step.Ensures terms before' ok' stopped' := by
  have weaken : ∀ (program : FileProgram (Except PromotionFault α)) tree,
      program.Secures terms (Ending ok stopped) tree →
      program.Secures terms (Ending ok' stopped') tree := by
    intro program
    induction program with
    | done value =>
        intro tree secures later relied
        cases value with
        | ok value => exact ended value later (secures later relied)
        | error fault => exact faulted later (secures later relied)
    | perform op next ih =>
        intro tree secures later relied answer after ended
        obtain ⟨guaranteed, onward⟩ := secures later relied answer after ended
        exact ⟨guaranteed, ih answer after onward⟩
  exact fun tree found => weaken _ _ (ensures tree (start tree found))

/-- A fault that is handled goes on with the handler. -/
theorem Ensures.tryCatch {handler : PromotionFault → PromotionStep α} {between : FileTree → Prop}
    (first : step.Ensures terms before ok between)
    (handled : ∀ fault, (handler fault).Ensures terms between ok stopped)
    : Ensures terms before (tryCatch step handler) ok stopped := by
  intro tree start
  rw [run_tryCatch]
  refine (first tree start).bind fun value tree found => ?_
  cases value with
  | ok value => exact found
  | error fault => exact handled fault tree (found tree (terms.refl tree))

end Vetting.PromotionStep
