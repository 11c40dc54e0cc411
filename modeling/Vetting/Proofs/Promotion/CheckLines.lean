import Mathlib.Data.Prod.Lex
import Mathlib.Order.WithBot
import Vetting.Promotion.Findings
import Vetting.Proofs.Results

/-! The lines that the checks of required files give. Each line comes from a file and, in it, from the
forbidden texts or from one check; in this order the lines are listed. Nothing is said against a file
when it has no forbidden text, satisfies the checks that stand against a promotion, and every check on
it has a pattern that is one.
-/

namespace Vetting

-----------------------------------------------------------------------------------------
-- Rules that can be checked
-----------------------------------------------------------------------------------------

/-- A rule can be checked when its pattern, if it has one, is one. -/
def ContentRule.Compiles (rule : ContentRule) : Prop :=
  ∀ pattern, rule.pattern? = some pattern → ∃ parsed, Pattern.parse pattern = .ok parsed

/-- Whether a rule can be checked does not depend on the content. -/
theorem ContentRule.compiles_iff {rule : ContentRule} (content : List Char)
    : rule.Compiles ↔ ∃ verdict, rule.holds content = .ok verdict := by
  cases rule with
  | matching pattern | absent pattern =>
      simp only [Compiles, pattern?, holds, Option.some.injEq, forall_eq', Except.map_eq_ok]
      exact ⟨fun ⟨parsed, compiled⟩ => ⟨_, parsed, compiled, rfl⟩,
        fun ⟨_, parsed, compiled, _⟩ => ⟨parsed, compiled⟩⟩
  | contains | containsAny | requires => simp [Compiles, pattern?, holds]

instance (rule : ContentRule) : Decidable rule.Compiles :=
  decidable_of_iff ((rule.holds []).toOption.isSome = true) <| by
    rw [ContentRule.compiles_iff []]
    cases rule.holds [] <;> simp [Except.toOption]

namespace FileCheck

variable {check : FileCheck} {path line : String} {content : List Char}

/-- A check says something against a file when it cannot be made, or when it fails and stands against
a promotion.
-/
theorem mem_errors_findings
    : line ∈ (check.findings path content).errors
      ↔ check.severity = .error
          ∧ check.rule.holds content = .ok false
          ∧ line = path ++ ": " ++ check.message
        ∨ ∃ fault,
            check.rule.holds content = .error fault
            ∧ line = path ++ ": check '" ++ check.message ++ "' could not run: " ++ fault.message := by
  unfold findings
  cases check.rule.holds content with
  | error fault => simp [Findings.error]
  | ok verdict =>
      cases verdict <;> cases check.severity <;> simp [Findings.none, Findings.error, Findings.warning]

/-- A check warns of a file when it fails and does not stand against a promotion. -/
theorem mem_warnings_findings
    : line ∈ (check.findings path content).warnings
      ↔ check.severity = .warning
        ∧ check.rule.holds content = .ok false
        ∧ line = path ++ ": " ++ check.message := by
  unfold findings
  cases check.rule.holds content with
  | error fault => simp [Findings.error]
  | ok verdict =>
      cases verdict <;> cases check.severity <;> simp [Findings.none, Findings.error, Findings.warning]

end FileCheck

namespace Findings

/-- What is found at one origin: one line, or none. -/
def IsSingle (found : Findings) : Prop :=
  found.errors.length + found.warnings.length ≤ 1

end Findings

theorem FileCheck.isSingle_findings (check : FileCheck) (path : String) (content : List Char)
    : (check.findings path content).IsSingle := by
  unfold findings
  cases check.rule.holds content with
  | error fault => simp [Findings.IsSingle, Findings.error]
  | ok verdict =>
      cases verdict <;> cases check.severity
        <;> simp [Findings.IsSingle, Findings.none, Findings.error, Findings.warning]

namespace RuleSet

variable {rules : RuleSet} {tree : FileTree} {draft : Path} {contents : List (List Char)}
  {findings : Findings} {path line : String} {content : List Char}

theorem mem_errors_forbiddenFindings
    : line ∈ (rules.forbiddenFindings path content).errors
      ↔ ∃ text,
          firstForbidden content rules.forbidden = some text
          ∧ line = "Forbidden content '" ++ text ++ "' found in " ++ path := by
  unfold forbiddenFindings
  cases firstForbidden content rules.forbidden <;> simp [Findings.none, Findings.error]

@[simp] theorem warnings_forbiddenFindings
    : (rules.forbiddenFindings path content).warnings = [] := by
  unfold forbiddenFindings
  cases firstForbidden content rules.forbidden <;> rfl

theorem isSingle_forbiddenFindings : (rules.forbiddenFindings path content).IsSingle := by
  unfold forbiddenFindings
  cases firstForbidden content rules.forbidden
    <;> simp [Findings.IsSingle, Findings.none, Findings.error]

-----------------------------------------------------------------------------------------
-- Where lines come from
-----------------------------------------------------------------------------------------

/-- Where a line comes from: the number of a required file, with nothing for the forbidden texts or the
number of a check. Origins are in the order of the files, then forbidden texts come first, then the
checks in their order.
-/
abbrev Origin : Type :=
  Nat ×ₗ WithBot Nat

/-- The required files, with contents for each of them. -/
def filesWith (rules : RuleSet) (contents : List (List Char)) : List (String × List Char) :=
  rules.requiredFiles.zip contents

/-- What is found in the required files when they have some contents. -/
def findingsWith (rules : RuleSet) (contents : List (List Char)) : Findings :=
  .concat ((rules.filesWith contents).map fun (path, content) => rules.findingsIn path content)

/-- A line that stands against a promotion comes from an origin. -/
inductive ErrorAt (rules : RuleSet) (contents : List (List Char)) : Origin → String → Prop
  | forbidden {i path content text} (file : (rules.filesWith contents)[i]? = some (path, content))
    (found : firstForbidden content rules.forbidden = some text)
    : ErrorAt rules contents (toLex (i, ⊥)) ("Forbidden content '" ++ text ++ "' found in " ++ path)
  | failed {i j : Nat} {path content check}
    (file : (rules.filesWith contents)[i]? = some (path, content))
    (listed : rules.checks[j]? = some check) (applies : check.appliesTo path = true)
    (severe : check.severity = .error) (fails : check.rule.holds content = .ok false)
    : ErrorAt rules contents (toLex (i, WithBot.some j)) (path ++ ": " ++ check.message)
  | broken {i j : Nat} {path content check fault}
    (file : (rules.filesWith contents)[i]? = some (path, content))
    (listed : rules.checks[j]? = some check) (applies : check.appliesTo path = true)
    (stuck : check.rule.holds content = .error fault)
    : ErrorAt rules contents (toLex (i, WithBot.some j))
        (path ++ ": check '" ++ check.message ++ "' could not run: " ++ fault.message)

/-- A warning comes from an origin. -/
inductive WarningAt (rules : RuleSet) (contents : List (List Char)) : Origin → String → Prop
  | failed {i j : Nat} {path content check}
    (file : (rules.filesWith contents)[i]? = some (path, content))
    (listed : rules.checks[j]? = some check) (applies : check.appliesTo path = true)
    (mild : check.severity = .warning) (fails : check.rule.holds content = .ok false)
    : WarningAt rules contents (toLex (i, WithBot.some j)) (path ++ ": " ++ check.message)

/-- Lines are listed in the order of their origins: these are the lines that come from origins, and no
others.
-/
def ListsInOrder (comes : Origin → String → Prop) (lines : List String) : Prop :=
  ∃ placed : List (Origin × String),
    placed.map Prod.snd = lines
    ∧ (placed.Pairwise fun one two => one.1 < two.1)
    ∧ ∀ origin line, (origin, line) ∈ placed ↔ comes origin line

/-- A line is listed when it comes from an origin. -/
theorem ListsInOrder.mem_iff {comes : Origin → String → Prop} {lines : List String}
    (lists : ListsInOrder comes lines)
    : line ∈ lines ↔ ∃ origin, comes origin line := by
  obtain ⟨placed, rfl, _, exact⟩ := lists
  simp [← exact]

/-- What is found at each origin. -/
def pieces (rules : RuleSet) (contents : List (List Char)) : List (Origin × Findings) :=
  (rules.filesWith contents).zipIdx.flatMap fun ((path, content), i) =>
    (toLex (i, ⊥), rules.forbiddenFindings path content)
    :: (rules.checks.zipIdx.filter fun (check, _) => check.appliesTo path).map fun (check, j) =>
        (toLex (i, WithBot.some j), check.findings path content)

theorem mem_pieces {origin : Origin} {found : Findings}
    : (origin, found) ∈ rules.pieces contents
      ↔ ∃ i path content,
          (rules.filesWith contents)[i]? = some (path, content)
          ∧ (origin = toLex (i, ⊥) ∧ found = rules.forbiddenFindings path content
            ∨ ∃ (j : Nat) (check : FileCheck),
                rules.checks[j]? = some check
                ∧ check.appliesTo path = true
                ∧ origin = toLex (i, WithBot.some j)
                ∧ found = check.findings path content) := by
  simp only [pieces, List.mem_flatMap, Prod.exists, List.mk_mem_zipIdx_iff_getElem?,
    List.mem_cons, Prod.mk.injEq, List.mem_map, List.mem_filter]
  constructor
  · rintro ⟨path, content, i, file, ⟨rfl, rfl⟩ | ⟨check, j, ⟨listed, applies⟩, rfl, rfl⟩⟩
    · exact ⟨i, path, content, file, Or.inl ⟨rfl, rfl⟩⟩
    · exact ⟨i, path, content, file, Or.inr ⟨j, check, listed, applies, rfl, rfl⟩⟩
  · rintro ⟨i, path, content, file, ⟨rfl, rfl⟩ | ⟨j, check, listed, applies, rfl, rfl⟩⟩
    · exact ⟨path, content, i, file, Or.inl ⟨rfl, rfl⟩⟩
    · exact ⟨path, content, i, file, Or.inr ⟨check, j, ⟨listed, applies⟩, rfl, rfl⟩⟩

/-- Numbered values come with growing numbers. -/
theorem pairwise_zipIdx {α : Type} (values : List α)
    : values.zipIdx.Pairwise fun one two => one.2 < two.2 := by
  apply List.pairwise_map.mp
  rw [List.zipIdx_map_snd]
  exact List.pairwise_lt_range'

/-- What is found comes in the order of the origins. -/
theorem pairwise_pieces (rules : RuleSet) (contents : List (List Char))
    : (rules.pieces contents).Pairwise fun one two => one.1 < two.1 := by
  rw [pieces, List.pairwise_flatMap]
  constructor
  · rintro ⟨⟨path, content⟩, i⟩ _
    rw [List.pairwise_cons]
    constructor
    · intro later member
      obtain ⟨⟨check, j⟩, _, rfl⟩ := List.mem_map.mp member
      exact Prod.Lex.right _ (WithBot.bot_lt_coe j)
    · rw [List.pairwise_map]
      refine ((pairwise_zipIdx rules.checks).filter _).imp ?_
      intro one two before
      exact Prod.Lex.right _ (WithBot.coe_lt_coe.mpr before)
  · refine (pairwise_zipIdx _).imp ?_
    rintro ⟨⟨path, content⟩, i⟩ ⟨⟨path', content'⟩, i'⟩ before one first two second
    have number {i : Nat} {path : String} {content : List Char} {piece : Origin × Findings}
        (member : piece ∈ (toLex (i, ⊥), rules.forbiddenFindings path content)
          :: (rules.checks.zipIdx.filter fun (check, _) => check.appliesTo path).map
            fun (check, j) => (toLex (i, WithBot.some j), check.findings path content))
        : (ofLex piece.1).1 = i := by
      rcases List.mem_cons.mp member with rfl | inside
      · rfl
      · obtain ⟨⟨check, j⟩, _, rfl⟩ := List.mem_map.mp inside
        rfl
    apply Prod.Lex.lt_iff.mpr
    left
    rwa [number first, number second]

/-- Lines of one kind are listed in the order of their origins when there is at most one of them at
each.
-/
theorem listsInOrder_of_pieces {side : Findings → List String} {comes : Origin → String → Prop}
    (few : ∀ piece ∈ rules.pieces contents, (side piece.2).length ≤ 1)
    (exact
      : ∀ origin line,
          (∃ found, (origin, found) ∈ rules.pieces contents ∧ line ∈ side found) ↔ comes origin line)
    : ListsInOrder comes ((rules.pieces contents).flatMap fun piece => side piece.2) := by
  refine ⟨(rules.pieces contents).flatMap fun piece => (side piece.2).map fun line => (piece.1, line),
    ?_, ?_, ?_⟩
  · simp [List.map_flatMap]
  · rw [List.pairwise_flatMap]
    constructor
    · intro piece member
      have few := few piece member
      match lines : side piece.2 with
      | [] => simp
      | [line] => simp
      | _ :: _ :: _ => simp [lines] at few
    · refine (pairwise_pieces rules contents).imp ?_
      intro one two before _ first _ second
      obtain ⟨_, _, rfl⟩ := List.mem_map.mp first
      obtain ⟨_, _, rfl⟩ := List.mem_map.mp second
      exact before
  · intro origin line
    rw [← exact]
    simp only [List.mem_flatMap, List.mem_map, Prod.exists, Prod.mk.injEq]
    constructor
    · rintro ⟨_, found, member, _, told, rfl, rfl⟩
      exact ⟨found, member, told⟩
    · rintro ⟨found, member, told⟩
      exact ⟨origin, found, member, line, told, rfl, rfl⟩

/-- What is said of values that are numbered does not depend on the numbers. -/
theorem flatMap_zipIdx {α β : Type} (values : List α) (lines : α → List β)
    : (values.zipIdx.flatMap fun numbered => lines numbered.1) = values.flatMap lines := by
  rw [← List.flatMap_map, List.zipIdx_map_fst]

/-- What is found in all files, of the one kind or the other, is found at the origins. -/
theorem flatMap_pieces (side : Findings → List String)
    (whole : ∀ found, side (.concat found) = found.flatMap side)
    : side (rules.findingsWith contents)
      = (rules.pieces contents).flatMap fun piece => side piece.2 := by
  have checked (path : String)
      : rules.checksFor path
        = (rules.checks.zipIdx.filter fun (check, _) => check.appliesTo path).map Prod.fst := by
    conv_lhs => rw [checksFor, ← List.zipIdx_map_fst 0 rules.checks, List.filter_map]
    rfl
  rw [findingsWith, whole, List.flatMap_map, ← flatMap_zipIdx, pieces, List.flatMap_assoc]
  congr 1
  funext ⟨⟨path, content⟩, i⟩
  simp only [findingsIn, whole, checked, List.flatMap_cons, List.flatMap_map]

/-- At each origin, there is one line or none. -/
theorem isSingle_of_mem_pieces {piece : Origin × Findings} (member : piece ∈ rules.pieces contents)
    : piece.2.IsSingle := by
  obtain ⟨i, path, content, _, ⟨_, same⟩ | ⟨j, check, _, _, _, same⟩⟩ := mem_pieces.mp member
  · rw [same]
    exact isSingle_forbiddenFindings
  · rw [same]
    exact check.isSingle_findings path content

/-- What stands against a promotion is listed in the order of the origins. -/
theorem errors_inOrder (rules : RuleSet) (contents : List (List Char))
    : ListsInOrder (rules.ErrorAt contents) (rules.findingsWith contents).errors := by
  rw [flatMap_pieces Findings.errors fun _ => rfl]
  apply listsInOrder_of_pieces
  · exact fun piece member => (Nat.le_add_right _ _).trans (isSingle_of_mem_pieces member)
  · intro origin line
    constructor
    · rintro ⟨found, member, told⟩
      obtain ⟨i, path, content, file, ⟨rfl, rfl⟩ | ⟨j, check, listed, applies, rfl, rfl⟩⟩ :=
        mem_pieces.mp member
      · obtain ⟨text, found, rfl⟩ := mem_errors_forbiddenFindings.mp told
        exact .forbidden file found
      · rcases FileCheck.mem_errors_findings.mp told with ⟨severe, fails, rfl⟩ | ⟨fault, stuck, rfl⟩
        · exact .failed file listed applies severe fails
        · exact .broken file listed applies stuck
    · intro comes
      cases comes with
      | forbidden file found =>
          exact ⟨_, mem_pieces.mpr ⟨_, _, _, file, Or.inl ⟨rfl, rfl⟩⟩,
            mem_errors_forbiddenFindings.mpr ⟨_, found, rfl⟩⟩
      | failed file listed applies severe fails =>
          exact ⟨_, mem_pieces.mpr ⟨_, _, _, file, Or.inr ⟨_, _, listed, applies, rfl, rfl⟩⟩,
            FileCheck.mem_errors_findings.mpr (Or.inl ⟨severe, fails, rfl⟩)⟩
      | broken file listed applies stuck =>
          exact ⟨_, mem_pieces.mpr ⟨_, _, _, file, Or.inr ⟨_, _, listed, applies, rfl, rfl⟩⟩,
            FileCheck.mem_errors_findings.mpr (Or.inr ⟨_, stuck, rfl⟩)⟩

/-- Warnings are listed in the order of the origins. -/
theorem warnings_inOrder (rules : RuleSet) (contents : List (List Char))
    : ListsInOrder (rules.WarningAt contents) (rules.findingsWith contents).warnings := by
  rw [flatMap_pieces Findings.warnings fun _ => rfl]
  apply listsInOrder_of_pieces
  · exact fun piece member => (Nat.le_add_left _ _).trans (isSingle_of_mem_pieces member)
  · intro origin line
    constructor
    · rintro ⟨found, member, told⟩
      obtain ⟨i, path, content, file, ⟨rfl, rfl⟩ | ⟨j, check, listed, applies, rfl, rfl⟩⟩ :=
        mem_pieces.mp member
      · simp at told
      · obtain ⟨mild, fails, rfl⟩ := FileCheck.mem_warnings_findings.mp told
        exact .failed file listed applies mild fails
    · intro comes
      cases comes with
      | failed file listed applies mild fails =>
          exact ⟨_, mem_pieces.mpr ⟨_, _, _, file, Or.inr ⟨_, _, listed, applies, rfl, rfl⟩⟩,
            FileCheck.mem_warnings_findings.mpr ⟨mild, fails, rfl⟩⟩

-----------------------------------------------------------------------------------------
-- Files against which nothing is said
-----------------------------------------------------------------------------------------

/-- A required file has no forbidden text, every check on it can be made, and those hold that stand
against a promotion.
-/
structure Clears (rules : RuleSet) (path : String) (content : List Char) : Prop where
  noForbidden : firstForbidden content rules.forbidden = none
  compiles : ∀ check ∈ rules.checks, check.appliesTo path = true → check.rule.Compiles
  satisfied
    : ∀ check ∈ rules.checks,
        check.appliesTo path = true
        → check.severity = .error
        → check.rule.holds content = .ok true

/-- No line comes from any origin when there are no lines. -/
theorem ListsInOrder.eq_nil_iff {comes : Origin → String → Prop} {lines : List String}
    (lists : ListsInOrder comes lines)
    : lines = [] ↔ ∀ origin line, ¬ comes origin line := by
  simp only [List.eq_nil_iff_forall_not_mem, lists.mem_iff, not_exists]
  exact forall_comm

/-- Nothing stands against a promotion when nothing is said against any required file. -/
theorem errors_eq_nil_iff
    : (rules.findingsWith contents).errors = []
      ↔ ∀ file ∈ rules.filesWith contents, rules.Clears file.1 file.2 := by
  rw [(rules.errors_inOrder contents).eq_nil_iff]
  constructor
  · rintro silent ⟨path, content⟩ member
    obtain ⟨i, file⟩ := List.mem_iff_getElem?.mp member
    have compiles (check : FileCheck) (listed : check ∈ rules.checks)
        (applies : check.appliesTo path = true)
        : ∃ verdict, check.rule.holds content = .ok verdict := by
      obtain ⟨j, place⟩ := List.mem_iff_getElem?.mp listed
      cases holds : check.rule.holds content with
      | ok verdict => exact ⟨verdict, rfl⟩
      | error fault => exact absurd (.broken file place applies holds) (silent _ _)
    refine ⟨?_, ?_, ?_⟩
    · cases found : firstForbidden content rules.forbidden with
      | none => rfl
      | some text => exact absurd (.forbidden file found) (silent _ _)
    · intro check listed applies
      exact (ContentRule.compiles_iff content).mpr (compiles check listed applies)
    · intro check listed applies severe
      obtain ⟨j, place⟩ := List.mem_iff_getElem?.mp listed
      obtain ⟨verdict, holds⟩ := compiles check listed applies
      cases verdict with
      | true => exact holds
      | false => exact absurd (.failed file place applies severe holds) (silent _ _)
  · intro clears origin line comes
    cases comes with
    | forbidden file found =>
        have none := (clears _ (List.mem_of_getElem? file)).noForbidden
        exact absurd (found.symm.trans none) (by simp)
    | failed file listed applies severe fails =>
        have holds := (clears _ (List.mem_of_getElem? file)).satisfied _
          (List.mem_of_getElem? listed) applies severe
        exact absurd (fails.symm.trans holds) (by simp)
    | broken file listed applies stuck =>
        have compiles := (clears _ (List.mem_of_getElem? file)).compiles _
          (List.mem_of_getElem? listed) applies
        obtain ⟨verdict, holds⟩ := (ContentRule.compiles_iff _).mp compiles
        exact absurd (stuck.symm.trans holds) (by simp)

-----------------------------------------------------------------------------------------
-- Drafts whose required files can be read
-----------------------------------------------------------------------------------------

/-- A required file of a draft can be read, and its bytes are displayed as a content. -/
def Reads (tree : FileTree) (draft : Path) (path : String) (content : List Char) : Prop :=
  ∃ file bytes,
    SafePath.resolve draft path = .ok file
    ∧ tree.readFile file = .ok bytes
    ∧ content = Text.decodeLossy bytes

/-- Values that are each made of two come from pairs of these, by induction on the pairs. -/
theorem forall₂_made {α β γ : Type} {related : α → β → Prop} {make : α → β → γ} {ones : List α}
    {made : List γ}
    : List.Forall₂ (fun one result => ∃ other, related one other ∧ result = make one other) ones made
      ↔ ∃ others,
          List.Forall₂ related ones others
          ∧ made = (ones.zip others).map fun (one, other) => make one other := by
  constructor
  · intro pairs
    induction pairs with
    | nil => exact ⟨[], .nil, rfl⟩
    | cons first _ ih =>
        obtain ⟨other, holds, rfl⟩ := first
        obtain ⟨others, rest, rfl⟩ := ih
        exact ⟨other :: others, .cons holds rest, rfl⟩
  · rintro ⟨others, pairs, rfl⟩
    induction pairs with
    | nil => exact .nil
    | cons holds _ ih => exact .cons ⟨_, holds, rfl⟩ ih

/-- What is found in a required file of a draft. -/
def findingsOf (rules : RuleSet) (tree : FileTree) (draft : Path) (path : String)
    : Except PromotionFault Findings := do
  let file ← SafePath.resolve draft path
  let content ← (tree.readFile file).mapError (PromotionFault.files file)
  return rules.findingsIn path (Text.decodeLossy content)

theorem findings_eq (rules : RuleSet) (tree : FileTree) (draft : Path)
    : rules.findings tree draft
      = rules.requiredFiles.mapM (rules.findingsOf tree draft) >>= fun found =>
          return .concat found := rfl

theorem findingsOf_eq_ok
    : rules.findingsOf tree draft path = .ok findings
      ↔ ∃ content, Reads tree draft path content ∧ findings = rules.findingsIn path content := by
  simp only [findingsOf, Except.bind_eq_ok, Except.mapError_eq_ok]
  constructor
  · rintro ⟨file, resolved, bytes, read, same⟩
    exact ⟨_, ⟨file, bytes, resolved, read, rfl⟩, (Except.ok.inj same).symm⟩
  · rintro ⟨_, ⟨file, bytes, resolved, read, rfl⟩, rfl⟩
    exact ⟨file, resolved, bytes, read, rfl⟩

/-- The checks can be made exactly when all required files can be read, and they are made on their
contents.
-/
theorem findings_eq_ok
    : rules.findings tree draft = .ok findings
      ↔ ∃ contents,
          List.Forall₂ (Reads tree draft) rules.requiredFiles contents
          ∧ findings = rules.findingsWith contents := by
  rw [findings_eq, Except.bind_eq_ok]
  simp only [Except.mapM_eq_ok, findingsOf_eq_ok, forall₂_made]
  constructor
  · rintro ⟨_, ⟨contents, read, rfl⟩, same⟩
    exact ⟨contents, read, (Except.ok.inj same).symm⟩
  · rintro ⟨contents, read, rfl⟩
    exact ⟨_, ⟨contents, read, rfl⟩, rfl⟩

/-- When all required files can be read, the checks can be made. -/
theorem exists_findings
    (readable : ∀ path ∈ rules.requiredFiles, ∃ content, Reads tree draft path content)
    : ∃ contents,
        List.Forall₂ (Reads tree draft) rules.requiredFiles contents
        ∧ rules.findings tree draft = .ok (rules.findingsWith contents) := by
  have contents : ∃ contents, List.Forall₂ (Reads tree draft) rules.requiredFiles contents := by
    generalize rules.requiredFiles = files at readable
    induction files with
    | nil => exact ⟨[], .nil⟩
    | cons path rest ih =>
        obtain ⟨⟨content, read⟩, others⟩ := List.forall_mem_cons.mp readable
        obtain ⟨contents, reads⟩ := ih others
        exact ⟨content :: contents, .cons read reads⟩
  obtain ⟨contents, reads⟩ := contents
  exact ⟨contents, reads, findings_eq_ok.mpr ⟨contents, reads, rfl⟩⟩

end RuleSet

end Vetting
