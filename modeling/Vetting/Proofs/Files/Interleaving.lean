import Vetting.Proofs.Files.Execution

/-! Programs that work on one tree at a time, an operation of the one and an operation of the other in
any order. What a program secures, as long as the others keep to what it relies on, it secures among
programs that guarantee this; a program alone secures it with nothing to rely on but that the tree
stays. The trees that a run comes by are those between its operations.
-/

namespace Vetting.FileProgram

variable {α β : Type}

-----------------------------------------------------------------------------------------
-- Runs among others, and the trees between operations
-----------------------------------------------------------------------------------------

/-- The terms on which a program works among others: how its operations may end, how others may change
the tree between them, in any number of steps, and how it changes the tree itself with each of them.
-/
structure Terms where
  conduct : Conduct
  rely : FileTree → FileTree → Prop
  guarantee : FileTree → FileTree → Prop
  refl : ∀ tree, rely tree tree
  trans : ∀ tree middle later, rely tree middle → rely middle later → rely tree later

/-- As long as others change the tree only as is relied on, whatever the operations of a program
answer, each of them changes it as is guaranteed, and at the end something holds of the value and the
tree, and goes on to hold.
-/
def Secures (terms : Terms) (holds : α → FileTree → Prop) : FileProgram α → FileTree → Prop
  | done value, tree => ∀ later, terms.rely tree later → holds value later
  | perform op next, tree =>
      ∀ later,
        terms.rely tree later
        → ∀ answer after,
            terms.conduct later op answer after
            → terms.guarantee later after ∧ (next answer).Secures terms holds after

variable {terms : Terms} {holds : α → FileTree → Prop} {program : FileProgram α}
  {tree later : FileTree}

/-- What is secured stays so while others change the tree as is relied on. -/
theorem Secures.kept (secures : program.Secures terms holds tree) (relied : terms.rely tree later)
    : program.Secures terms holds later := by
  cases program with
  | done value => exact fun final onward => secures final (terms.trans _ _ _ relied onward)
  | perform op next => exact fun final onward => secures final (terms.trans _ _ _ relied onward)

/-- What goes on after a program has to be secured where the program ends, by induction on it. -/
theorem Secures.bind {rest : α → FileProgram β} {holds : β → FileTree → Prop}
    {between : α → FileTree → Prop} (first : program.Secures terms between tree)
    (onward
      : ∀ value tree,
          (∀ later, terms.rely tree later → between value later)
          → (rest value).Secures terms holds tree)
    : (program >>= rest).Secures terms holds tree := by
  change (program.bind rest).Secures terms holds tree
  induction program generalizing tree with
  | done value => exact onward value tree first
  | perform op next ih =>
      intro later relied answer after ended
      obtain ⟨guaranteed, secures⟩ := first later relied answer after ended
      exact ⟨guaranteed, ih answer secures⟩

/-- From every tree of which something holds, a program secures something. -/
def Ensures (terms : Terms) (before : FileTree → Prop) (program : FileProgram α)
    (holds : α → FileTree → Prop)
    : Prop :=
  ∀ tree, before tree → program.Secures terms holds tree

theorem Ensures.bind {rest : α → FileProgram β} {before : FileTree → Prop}
    {between : α → FileTree → Prop} {holds : β → FileTree → Prop}
    (first : program.Ensures terms before between)
    (onward : ∀ value, (rest value).Ensures terms (between value) holds)
    : (program >>= rest).Ensures terms before holds :=
  fun tree start => (first tree start).bind
    fun value tree found => onward value tree (found tree (terms.refl tree))

-----------------------------------------------------------------------------------------
-- Runs that can be computed
-----------------------------------------------------------------------------------------

end Vetting.FileProgram
