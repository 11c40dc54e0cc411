import Vetting.Heuristic.Kinds
import Vetting.Proofs.Score.Fractions
import Vetting.Proofs.Script.Walk

/-! The first illegal construct of a script. Whether a script is illegal, and which of its nodes is told,
depends on the paths to its nodes alone: a construct cannot hide by standing deep in the tree or behind
others. An illegal script is rejected with a tenth of the credit, whatever its kind and the threshold.
-/

namespace Vetting.Script

-----------------------------------------------------------------------------------------
-- The node that is told
-----------------------------------------------------------------------------------------

/-- A node is in error or missing. -/
def SyntaxTree.IsDamaged (n : SyntaxTree) : Prop :=
  n.isError = true ∨ n.isMissing = true

/-- A node is a construct of the predecessor language alone. -/
def SyntaxTree.IsLegacy (n : SyntaxTree) : Prop :=
  n.legacy? ≠ none

/-- What is wrong with a damaged node. -/
def SyntaxTree.damage (n : SyntaxTree) : Fault :=
  if n.isMissing then .missing n.kind else .unreadable

/-- The node that makes a script illegal, and what is wrong with it. In a tree that had to be repaired
it is the first damaged node, or the root when there is none; in any other tree it is the first construct
of the predecessor language.
-/
inductive Parsed.Blames (p : Parsed) : SyntaxTree → Fault → Prop
  | damaged {n : SyntaxTree} (repaired : p.hasError = true)
      (first : p.tree.IsFirst SyntaxTree.IsDamaged n) : p.Blames n n.damage
  | root (repaired : p.hasError = true)
      (undamaged : ∀ path n, p.tree.at? path = some n → ¬ n.IsDamaged)
      : p.Blames p.tree .unreadable
  | legacy {n : SyntaxTree} {fault : Fault} (intact : p.hasError = false)
      (first : p.tree.IsFirst SyntaxTree.IsLegacy n) (wrong : n.legacy? = some fault)
      : p.Blames n fault

variable {p : Parsed} {told : Illegality}

/-- A script is legal exactly when its tree had not to be repaired and none of its nodes is a construct
of the predecessor language.
-/
theorem illegality?_eq_none_iff
    : p.illegality? = none
      ↔ p.hasError = false ∧ ∀ path n, p.tree.at? path = some n → ¬ n.IsLegacy := by
  unfold Parsed.illegality?
  cases repaired : p.hasError with
  | true => simp
  | false =>
      have everywhere : (∀ n ∈ p.tree.nodes, n.legacy? = none)
          ↔ ∀ path n, p.tree.at? path = some n → ¬ n.IsLegacy := by
        simp only [p.tree.lists_nodes.mem_iff, SyntaxTree.IsLegacy, not_not]
        exact ⟨fun all path n leads => all n ⟨path, leads⟩,
          fun all n ⟨path, leads⟩ => all path n leads⟩
      simp [List.findSome?_eq_none_iff, everywhere]

/-- What is told is the fault of the node that makes a script illegal, in the line where that starts. -/
theorem blames_of_illegality? (illegal : p.illegality? = some told)
    : ∃ n, p.Blames n told.fault ∧ told.row = n.row := by
  unfold Parsed.illegality? at illegal
  cases repaired : p.hasError with
  | true =>
      rw [repaired] at illegal
      obtain rfl := Option.some.inj illegal
      cases found : p.tree.nodes.find? fun n => n.isError || n.isMissing with
      | some n =>
          obtain ⟨damaged, front, back, split, sound⟩ := List.find?_eq_some_iff_append.mp found
          have lists : p.tree.Lists (front ++ n :: back) := split ▸ p.tree.lists_nodes
          have first : p.tree.IsFirst SyntaxTree.IsDamaged n := by
            refine lists.isFirst (by simpa [SyntaxTree.IsDamaged] using damaged) fun m before => ?_
            simpa [SyntaxTree.IsDamaged] using sound m before
          exact ⟨n, .damaged repaired first, rfl⟩
      | none =>
          have undamaged : ∀ path n, p.tree.at? path = some n → ¬ n.IsDamaged := by
            intro path n leads
            have listed := p.tree.lists_nodes.mem_iff.mpr ⟨path, leads⟩
            simpa [SyntaxTree.IsDamaged] using List.find?_eq_none.mp found n listed
          have present : p.tree.isMissing = false := by
            have sound := undamaged [] p.tree rfl
            simp [SyntaxTree.IsDamaged] at sound
            exact sound.2
          refine ⟨p.tree, ?_, rfl⟩
          simp only [Option.getD_none, present, Bool.false_eq_true, if_false]
          exact .root repaired undamaged
  | false =>
      rw [repaired] at illegal
      obtain ⟨front, n, back, split, wrong, sound⟩ := List.findSome?_eq_some_iff.mp illegal
      obtain ⟨fault, here, rfl⟩ := Option.map_eq_some_iff.mp wrong
      have lists : p.tree.Lists (front ++ n :: back) := split ▸ p.tree.lists_nodes
      have first : p.tree.IsFirst SyntaxTree.IsLegacy n := by
        refine lists.isFirst (by simp [SyntaxTree.IsLegacy, here]) fun m before legacy => ?_
        exact legacy (Option.map_eq_none_iff.mp (sound m before))
      exact ⟨n, .legacy repaired first here, rfl⟩

-----------------------------------------------------------------------------------------
-- The verdict
-----------------------------------------------------------------------------------------

variable {R : Type} [Scale R]

/-- The verdict on a parsed script as an artifact of a kind. -/
def Parsed.verdict (p : Parsed) (kind : ArtifactKind) (code : List Char) (acceptAt : R) : Verdict R :=
  (p.assess kind code).verdict ⟨true, false⟩ (toolLabel kind) acceptAt

/-- The verdict on a text is the one on what it is parsed to. -/
theorem scriptVerdict_eq {code : List Char} (parsed : parse? code = some p) (kind : ArtifactKind)
    (acceptAt : R)
    : kind.scriptVerdict acceptAt code = p.verdict kind code acceptAt := by
  have assessed : assess kind code = p.assess kind code := by
    unfold assess
    generalize parse? code = found at parsed
    subst parsed
    rfl
  rw [ArtifactKind.scriptVerdict, assessed, Parsed.verdict]

/-- The kinds of artifacts that are scripts. -/
def scriptKinds : List ArtifactKind := [.backend, .backendModel, .simulator]

theorem heuristic_eq {kind : ArtifactKind} (script : kind ∈ scriptKinds) (acceptAt : R)
    (code : List Char)
    : kind.heuristic acceptAt code = kind.scriptVerdict acceptAt code := by
  simp only [scriptKinds, List.mem_cons, List.not_mem_nil, or_false] at script
  rcases script with rfl | rfl | rfl <;> rfl

/-- An illegal script is rejected with a tenth of the credit and told its first illegal construct. -/
theorem verdict_of_illegality? (illegal : p.illegality? = some told) (kind : ArtifactKind)
    (code : List Char) (acceptAt : R)
    : p.verdict kind code acceptAt
      = .reject (Scale.hundredths 10) [told.message] (toolLabel kind) := by
  rw [Parsed.verdict, Parsed.assess, illegal, Assessment.verdict]

theorem score_reject_tenth (errors : List String) (tool : String)
    : (Verdict.reject (Scale.hundredths 10) errors tool : Verdict Exact).score
      = .fraction (1 / 10) := by
  have inside : (1 / 10 : ℚ) ∈ Set.Icc 0 1 := by norm_num
  have units : (1 / 10 : ℚ) = (100 : ℤ) / 10 ^ 3 := by norm_num
  simp only [Verdict.reject, Verdict.judge, Exact.hundredths_eq, Exact.clampUnit_eq]
  rw [show ((10 : ℕ) / 100 : ℚ) = 1 / 10 by norm_num, Exact.clamped_of_mem inside,
    Exact.round_fraction, units, Exact.roundFraction_units]

/-- The walk over the tree of a script ends, and lists every node once, each before its descendants,
siblings from left to right. A script is told to be illegal exactly when its tree had to be repaired or a
node of it, wherever it stands, is a construct of the predecessor language; the line that is told is that
of the first damaged node, of the root when there is none, or of the first such construct. It is then
rejected with a tenth of the credit and this message alone, whatever its kind and the threshold.
-/
theorem first_illegality_told (p : Parsed)
    : (∀ nodes, (Cursor.start p.tree).Takes nodes ↔ nodes = p.tree.nodes)
      ∧ p.tree.Lists p.tree.nodes
      ∧ (p.illegality? ≠ none
        ↔ p.hasError = true ∨ ∃ path n, p.tree.at? path = some n ∧ n.IsLegacy)
      ∧ ∀ told,
          p.illegality? = some told
          → (∃ n, p.Blames n told.fault ∧ told.row = n.row)
            ∧ told.message
              = "SyntaxError line " ++ toString (told.row + 1) ++ ": " ++ told.fault.message
            ∧ (∀ kind code (acceptAt : Exact),
                (p.verdict kind code acceptAt).ok = false
                ∧ (p.verdict kind code acceptAt).score = .fraction (1 / 10)
                ∧ (p.verdict kind code acceptAt).errors = [told.message])
            ∧ ∀ kind code {R : Type} [Scale R] (acceptAt : R),
                p.verdict kind code acceptAt
                  = .reject (Scale.hundredths 10) [told.message] (toolLabel kind)
                ∧ (parse? code = some p
                  → kind.scriptVerdict acceptAt code = p.verdict kind code acceptAt
                    ∧ (kind ∈ scriptKinds
                      → kind.heuristic acceptAt code = p.verdict kind code acceptAt)) := by
  refine ⟨fun nodes => SyntaxTree.takes_start_iff, p.tree.lists_nodes, ?_, fun told illegal => ?_⟩
  · rw [ne_eq, illegality?_eq_none_iff]
    cases p.hasError <;> simp
  · refine ⟨blames_of_illegality? illegal, rfl, fun kind code acceptAt => ?_,
      fun kind code R _ acceptAt => ?_⟩
    · rw [verdict_of_illegality? illegal]
      exact ⟨rfl, score_reject_tenth _ _, rfl⟩
    · refine ⟨verdict_of_illegality? illegal kind code acceptAt, fun parsed => ?_⟩
      have same := scriptVerdict_eq parsed kind acceptAt
      exact ⟨same, fun script => (heuristic_eq script acceptAt code).trans same⟩

/-- A tree in which a token is missing inside a block, between a statement of the predecessor language
and text that fits nowhere.
-/
def repairedScript : Parsed where
  tree :=
    .node "module" none 0 false false "print 1\nif x:\n  f(1\n$$" [
      .node "print_statement" none 0 false false "print 1" [],
      .node "if_statement" none 1 false false "if x:\n  f(1" [
        .node "block" none 2 false false "f(1" [
          .node "identifier" none 2 false false "f" [],
          .node ")" none 2 false true "" []]],
      .node "ERROR" none 3 true false "$$" []]
  hasError := true

theorem first_illegality_told_repaired
    : repairedScript.illegality? = some ⟨2, .missing ")"⟩
      ∧ (∃ n, repairedScript.Blames n (.missing ")") ∧ 2 = n.row)
      ∧ ∀ kind code (acceptAt : Exact),
          (repairedScript.verdict kind code acceptAt).errors = ["SyntaxError line 3: missing ')'"] := by
  have illegal : repairedScript.illegality? = some ⟨2, .missing ")"⟩ := rfl
  obtain ⟨blames, _, rejected, _⟩ := (first_illegality_told repairedScript).2.2.2 _ illegal
  have wording : Illegality.message ⟨2, .missing ")"⟩ = "SyntaxError line 3: missing ')'" := by
    decide +kernel
  refine ⟨illegal, blames, fun kind code acceptAt => ?_⟩
  rw [(rejected kind code acceptAt).2.2, wording]

end Vetting.Script
