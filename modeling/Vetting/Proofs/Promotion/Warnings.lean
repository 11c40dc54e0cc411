import Vetting.Files.Edit
import Vetting.Promotion.Gate
import Vetting.Proofs.Files.Alike
import Vetting.Proofs.Files.Execution
import Vetting.Proofs.Promotion.CheckLines

/-! What warnings decide: nothing. Two gates whose rule sets differ in checks that only warn find the
same errors in every draft, do the same, and leave reports that differ in their warnings only.
-/

namespace Vetting

-----------------------------------------------------------------------------------------
-- Rule sets that differ in checks that only warn
-----------------------------------------------------------------------------------------

namespace RuleSet

variable {rules other : RuleSet} {tree : FileTree} {draft : Path} {path : String}
  {content : List Char}

/-- The checks that stand against a promotion. -/
def errorChecks (rules : RuleSet) : List FileCheck :=
  rules.checks.filter fun check => check.severity = .error

/-- Rule sets are the same but for checks that only warn, and all checks of both can be made. -/
structure DifferInWarnings (rules other : RuleSet) : Prop where
  starts : other.allowedStarts = rules.allowedStarts
  required : other.requiredFiles = rules.requiredFiles
  forbidden : other.forbidden = rules.forbidden
  errors : other.errorChecks = rules.errorChecks
  compiles : ∀ check ∈ rules.checks, check.rule.Compiles
  compilesOther : ∀ check ∈ other.checks, check.rule.Compiles

/-- A check that only warns and can be made says nothing against a promotion. -/
theorem errors_of_warning {check : FileCheck} (compiles : check.rule.Compiles)
    (mild : check.severity ≠ .error)
    : (check.findings path content).errors = [] := by
  obtain ⟨verdict, holds⟩ := (ContentRule.compiles_iff content).mp compiles
  rw [List.eq_nil_iff_forall_not_mem]
  intro line member
  rcases FileCheck.mem_errors_findings.mp member with ⟨severe, _⟩ | ⟨fault, stuck, _⟩
  · exact mild severe
  · exact absurd (stuck.symm.trans holds) (by simp)

/-- What stands against a promotion comes of the forbidden texts and of checks that do not only warn. -/
theorem errors_findingsIn (compiles : ∀ check ∈ rules.checks, check.rule.Compiles)
    : (rules.findingsIn path content).errors
      = (rules.forbiddenFindings path content).errors
        ++ rules.errorChecks.flatMap fun check =>
            if check.appliesTo path then (check.findings path content).errors else [] := by
  simp only [findingsIn, Findings.concat, List.flatMap_cons, List.flatMap_map, checksFor, errorChecks,
    List.flatMap_filter, List.append_cancel_left_eq]
  refine List.flatMap_congr fun check listed => ?_
  by_cases severe : check.severity = .error
  · simp [severe]
  · simp [severe, errors_of_warning (compiles check listed) severe]

/-- Rule sets that differ in checks that only warn say the same against a file. -/
theorem DifferInWarnings.errors_findingsIn (differ : rules.DifferInWarnings other) (path : String)
    (content : List Char)
    : (other.findingsIn path content).errors = (rules.findingsIn path content).errors := by
  rw [RuleSet.errors_findingsIn differ.compiles, RuleSet.errors_findingsIn differ.compilesOther,
    differ.errors, forbiddenFindings, forbiddenFindings, differ.forbidden]

/-- What goes on with the content of a file has the same errors when it has them for every content. -/
theorem DifferInWarnings.errors_findingsOf (differ : rules.DifferInWarnings other) (tree : FileTree)
    (draft : Path) (path : String)
    : (other.findingsOf tree draft path).map Findings.errors
      = (rules.findingsOf tree draft path).map Findings.errors := by
  unfold findingsOf
  cases SafePath.resolve draft path with
  | error fault => rfl
  | ok file =>
      rw [Except.ok_bind, Except.ok_bind]
      cases (tree.readFile file).mapError (PromotionFault.files file) with
      | error fault => rfl
      | ok content => exact congrArg Except.ok (differ.errors_findingsIn path _)

/-- Rule sets that differ in checks that only warn say the same against a draft, or stop for the same
reason.
-/
theorem DifferInWarnings.errors_findings (differ : rules.DifferInWarnings other) (tree : FileTree)
    (draft : Path)
    : (other.findings tree draft).map Findings.errors
      = (rules.findings tree draft).map Findings.errors := by
  rw [findings_eq, findings_eq, differ.required]
  have each := Except.map_mapM_congr rules.requiredFiles (differ.errors_findingsOf tree draft)
  refine Except.map_bind_congr each fun one two same => ?_
  simp only [pure, Except.pure, Except.map, Findings.concat, List.flatMap_def, same]

end RuleSet

-----------------------------------------------------------------------------------------
-- Inspections and reports
-----------------------------------------------------------------------------------------

/-- An inspection with other warnings. -/
def Inspection.withWarnings (found : Inspection) (warnings : List String) : Inspection :=
  { found with warnings := warnings }

/-- A report with other warnings. -/
def PromotionReport.withWarnings (report : PromotionReport) (warnings : List String)
    : PromotionReport :=
  { report with warnings := warnings }

/-- A gate with another rule set. -/
def PromotionGate.withRules (gate : PromotionGate) (rules : RuleSet) : PromotionGate :=
  { gate with rules := rules }

namespace PromotionGate

variable {gate : PromotionGate} {rules : RuleSet} {tree : FileTree} {now : Timestamp}

@[simp] theorem draftRoot_withRules : (gate.withRules rules).draftRoot = gate.draftRoot := rfl

/-- Contents that are inspected by rule sets that differ in checks that only warn are found the same but
for warnings.
-/
theorem inspectContents_withRules (differ : gate.rules.DifferInWarnings rules) (tree : FileTree)
    : ∃ warnings,
        (gate.withRules rules).inspectContents tree
          = (gate.inspectContents tree).withWarnings warnings := by
  unfold inspectContents
  simp only [withRules]
  rcases Except.map_eq_map_cases (differ.errors_findings tree gate.draftRoot) with
    ⟨fault, failed, failed'⟩ | ⟨findings, findings', checked, checked', errors⟩
  · rw [failed, failed']
    exact ⟨[], rfl⟩
  · rw [checked, checked']
    simp only [Inspection.withWarnings, Findings.passed, errors]
    exact ⟨findings.warnings, rfl⟩

/-- So is a draft that has been listed. -/
theorem inspectListing_withRules (differ : gate.rules.DifferInWarnings rules) (tree : FileTree)
    (listing : DraftListing)
    : ∃ warnings,
        (gate.withRules rules).inspectListing tree listing
          = (gate.inspectListing tree listing).withWarnings warnings := by
  have disallowed : (gate.withRules rules).disallowed listing = gate.disallowed listing := by
    simp only [PromotionGate.disallowed, withRules, RuleSet.allows, differ.starts]
  have missing : (gate.withRules rules).missing listing = gate.missing listing := by
    simp only [PromotionGate.missing, withRules, differ.required]
  unfold inspectListing
  rw [disallowed, missing, draftRoot_withRules]
  by_cases empty : listing.isEmpty = true
  · rw [if_pos empty, if_pos empty]
    exact ⟨[], rfl⟩
  · rw [if_neg empty, if_neg empty]
    cases gate.disallowed listing with
    | cons path paths => exact ⟨[], rfl⟩
    | nil =>
        cases gate.missing listing with
        | cons path paths => exact ⟨[], rfl⟩
        | nil => exact inspectContents_withRules differ tree

/-- So is a draft. -/
theorem inspect_withRules (differ : gate.rules.DifferInWarnings rules) (tree : FileTree)
    : ∃ warnings,
        (gate.withRules rules).inspect tree = (gate.inspect tree).withWarnings warnings := by
  unfold inspect
  rw [draftRoot_withRules]
  by_cases directory : (!tree.isDirectory gate.draftRoot) = true
  · rw [if_pos directory, if_pos directory]
    exact ⟨[], rfl⟩
  · rw [if_neg directory, if_neg directory]
    cases DraftListing.collect tree gate.draftRoot with
    | error fault => exact ⟨[], rfl⟩
    | ok listing => exact inspectListing_withRules differ tree listing

/-- What is done after an inspection does not depend on its warnings, which come to the report. -/
theorem decide_withRules (differ : gate.rules.DifferInWarnings rules) (now : Timestamp)
    (found : Inspection) (warnings : List String)
    : (gate.withRules rules).decide now (found.withWarnings warnings)
      = (fun report => report.withWarnings warnings) <$> gate.decide now found := by
  obtain ⟨rejected, errors, earlier, failed⟩ := found
  cases failed with
  | some stage => rfl
  | none =>
      unfold decide
      dsimp only [Inspection.withWarnings]
      rw [map_bind]
      change ExceptT.run (gate.route.commit rules.requiredFiles) >>= _ = _
      rw [differ.required]
      congr 1
      funext answer
      cases answer <;> rfl

end PromotionGate

-----------------------------------------------------------------------------------------
-- Runs
-----------------------------------------------------------------------------------------

/-- A program that goes on with another one is run before it, by induction on the program. -/
theorem FileProgram.run_bind {α β : Type} (program : FileProgram α) (rest : α → FileProgram β)
    (tree : FileTree)
    : (program >>= rest).run tree = (rest (program.run tree).1).run (program.run tree).2 := by
  induction program generalizing tree with
  | done value => rfl
  | perform op next ih => exact ih _ _

theorem FileProgram.run_request (op : Operation) (tree : FileTree)
    : (FileProgram.request op).run tree = op.perform tree := rfl

open FileTree

/-- A scratch file is written whatever is in it, or not, and then for the same reason. -/
theorem Operation.writeScratch_cases {tree : FileTree} (wf : tree.WellFormed) (directory : Path)
    (start content other : Bytes)
    : (∃ fault,
        (writeScratch directory start content).perform tree = (.error fault, tree)
        ∧ (writeScratch directory start other).perform tree = (.error fault, tree))
      ∨ ∃ path after after',
          (writeScratch directory start content).perform tree = (.ok path, after)
          ∧ (writeScratch directory start other).perform tree = (.ok path, after')
          ∧ after.WellFormed
          ∧ after'.WellFormed
          ∧ after.Alike after' := by
  simp only [perform, FileTree.writeScratch]
  generalize directory.join (tree.freshName start) = path
  rcases wf.create_cases path content other Entry.fileMode with
    ⟨fault, failed, failed'⟩ | ⟨after, after', made, made', found⟩
  · rw [failed, failed']
    exact Or.inl ⟨fault, rfl, rfl⟩
  · rw [made, made']
    exact Or.inr ⟨path, after, after', rfl, rfl, found⟩

/-- Moving an entry is answered alike in trees that are alike. -/
theorem Operation.rename_answer {tree other : FileTree} (alike : tree.Alike other)
    (wf : tree.WellFormed) (wf' : other.WellFormed) (source target : Path)
    : ((rename source target).perform other).1 = ((rename source target).perform tree).1 := by
  simp only [perform]
  rcases Except.map_eq_map_cases (alike.rename_eq wf wf' source target) with
    ⟨fault, failed, failed'⟩ | ⟨after, after', moved, moved', _⟩
  · rw [failed, failed']
    rfl
  · rw [moved, moved']
    rfl

/-- Whether a report is written, and where, does not depend on what it says. -/
theorem PromotionReport.answer_write {tree : FileTree} (wf : tree.WellFormed)
    (report other : PromotionReport) (root : Path)
    : ((other.write root).run tree).1 = ((report.write root).run tree).1 := by
  unfold write
  rw [FileProgram.run_bind, FileProgram.run_bind, FileProgram.run_request]
  have made := (Operation.ends_perform wf (.createDirectories root)).wellFormed wf
  generalize (Operation.createDirectories root).perform tree = first at made
  obtain ⟨answer, first⟩ := first
  cases answer with
  | error fault => rfl
  | ok _ =>
      dsimp only
      generalize Path.bytesOf ".tmp" = start, Path.bytesOf report.text = content,
        Path.bytesOf other.text = content'
      rw [FileProgram.run_bind, FileProgram.run_bind, FileProgram.run_request,
        FileProgram.run_request]
      rcases Operation.writeScratch_cases made root start content content' with
        ⟨fault, failed, failed'⟩ | ⟨path, after, after', made, made', wf, wf', alike⟩
      · rw [failed, failed']
      · rw [made, made']
        dsimp only
        rw [FileProgram.run_bind, FileProgram.run_bind, FileProgram.run_request,
          FileProgram.run_request, Operation.rename_answer alike wf wf']
        generalize ((Operation.rename path (pathIn root)).perform after).1 = answer
        cases answer with
        | ok _ => rfl
        | error fault =>
            dsimp only
            rw [FileProgram.run_bind, FileProgram.run_bind]
            rfl

namespace PromotionGate

variable {gate : PromotionGate} {rules : RuleSet} {tree : FileTree}

/-- What becomes of a promotion: what has been decided is reported, and counted whether the report can be
written or not.
-/
theorem run_program (gate : PromotionGate) (now : Timestamp) (found : Inspection) (tree : FileTree)
    {report : PromotionReport} {between : FileTree}
    (decided : (gate.decide now found).run tree = (report, between))
    : ((gate.program now found).run tree).1
      = ⟨((report.write gate.outputRoot).run between).1.map fun path =>
          { report with reportPath := path.text },
        Counters.promotion report.ok⟩ := by
  unfold program
  rw [FileProgram.run_bind, decided]
  dsimp only
  rw [FileProgram.run_bind]
  cases ((report.write gate.outputRoot).run between).1 <;> rfl

/-- Runs by rule sets that differ in checks that only warn leave reports that differ in their warnings
only, or leave none for the same reason, and they count the same.
-/
theorem run_withRules (differ : gate.rules.DifferInWarnings rules) (wf : tree.WellFormed)
    (now : Timestamp)
    : ∃ warnings,
        ((gate.withRules rules).run now tree).1.report
          = (gate.run now tree).1.report.map (fun report => report.withWarnings warnings)
        ∧ ((gate.withRules rules).run now tree).1.counters = (gate.run now tree).1.counters := by
  obtain ⟨warnings, inspected⟩ := inspect_withRules differ tree
  refine ⟨warnings, ?_⟩
  have between := (FileProgram.yields_run (gate.decide now (gate.inspect tree)) wf).wellFormed
    Conduct.lawful_any wf
  cases decided : (gate.decide now (gate.inspect tree)).run tree with
  | mk report first =>
      rw [decided] at between
      have decided'
          : ((gate.withRules rules).decide now ((gate.withRules rules).inspect tree)).run tree
            = (report.withWarnings warnings, first) := by
        rw [inspected, decide_withRules differ, map_eq_pure_bind, FileProgram.run_bind, decided]
        rfl
      unfold run
      rw [run_program _ _ _ _ decided, run_program _ _ _ _ decided']
      have answer := PromotionReport.answer_write between report (report.withWarnings warnings)
        gate.outputRoot
      refine ⟨?_, rfl⟩
      change ((((report.withWarnings warnings).write gate.outputRoot).run first).1.map _) = _
      rw [answer]
      cases ((report.write gate.outputRoot).run first).1 <;> rfl

/-- Two gates decide alike about a draft: they find the same errors in it or stop for the same reason, do
the same, and leave reports that differ in their warnings only.
-/
structure DecidesAlike (gate other : PromotionGate) (tree : FileTree) : Prop where
  errors
    : (other.rules.findings tree other.draftRoot).map Findings.errors
      = (gate.rules.findings tree gate.draftRoot).map Findings.errors
  decided
    : ∀ now,
        ∃ warnings,
          other.decide now (other.inspect tree)
          = (fun report => report.withWarnings warnings) <$> gate.decide now (gate.inspect tree)
  reported
    : tree.WellFormed
      → ∀ now,
          ∃ warnings,
            (other.run now tree).1.report
              = (gate.run now tree).1.report.map (fun report => report.withWarnings warnings)
            ∧ (other.run now tree).1.counters = (gate.run now tree).1.counters

/-- Warnings never decide, and errors always do. When all required files of a draft can be read, nothing
stands against it exactly when nothing is said against any of them, and errors and warnings are listed
in the order of the files, of the forbidden texts before the checks, and of the checks. About every
draft, rule sets decide alike that differ in checks that only warn.
-/
theorem warnings_never_decide (gate : PromotionGate) (tree : FileTree)
    : ((∀ path ∈ gate.rules.requiredFiles,
          ∃ content, RuleSet.Reads tree gate.draftRoot path content)
        → ∃ contents findings,
            List.Forall₂ (RuleSet.Reads tree gate.draftRoot) gate.rules.requiredFiles contents
            ∧ gate.rules.findings tree gate.draftRoot = .ok findings
            ∧ (findings.errors = []
              ↔ ∀ file ∈ gate.rules.filesWith contents, gate.rules.Clears file.1 file.2)
            ∧ RuleSet.ListsInOrder (gate.rules.ErrorAt contents) findings.errors
            ∧ RuleSet.ListsInOrder (gate.rules.WarningAt contents) findings.warnings)
      ∧ ∀ rules : RuleSet,
          gate.rules.DifferInWarnings rules → gate.DecidesAlike (gate.withRules rules) tree := by
  constructor
  · intro readable
    obtain ⟨contents, reads, checked⟩ := RuleSet.exists_findings readable
    exact ⟨contents, _, reads, checked, RuleSet.errors_eq_nil_iff,
      gate.rules.errors_inOrder contents, gate.rules.warnings_inOrder contents⟩
  · intro rules differ
    obtain ⟨warnings, inspected⟩ := inspect_withRules differ tree
    exact {
      errors := differ.errors_findings tree gate.draftRoot
      decided := fun now => ⟨warnings, by rw [inspected, decide_withRules differ]⟩
      reported := fun wf now => run_withRules differ wf now
    }

/-- A gate for one file with a check that stands against a promotion and one that only warns. -/
def notingGate : PromotionGate where
  outputRoot := .ofString "out"
  draftRoot := .ofString "draft"
  rules :=
    { allowedStarts := ["a"]
      requiredFiles := ["a"]
      forbidden := ["token"]
      checks :=
        [⟨"*", .contains "new", .error, "nothing new"⟩, ⟨"a", .contains "old", .warning, "no old"⟩] }

/-- Its rule set with another check that only warns, which comes first. -/
def digitRules : RuleSet :=
  { notingGate.rules with
    checks :=
      [⟨"*", .matching "[0-9]", .warning, "no digit"⟩, ⟨"*", .contains "new", .error, "nothing new"⟩] }

/-- A draft with the file. -/
def notedEdits : List Edit :=
  [.write (.ofString "draft/a") (Path.bytesOf "new") none]

/-- The tree that this edit makes. -/
@[irreducible] def notedTree : FileTree :=
  (Edit.applyAll .empty notedEdits).toOption.getD .empty

/-- The draft has a warning and nothing that stands against it, and both rule sets decide alike. -/
theorem warnings_never_decide_noted
    : notingGate.rules.findings notedTree notingGate.draftRoot = .ok ⟨[], ["a: no old"]⟩
      ∧ (∃ contents,
          List.Forall₂ (RuleSet.Reads notedTree notingGate.draftRoot) ["a"] contents
          ∧ ∀ file ∈ notingGate.rules.filesWith contents, notingGate.rules.Clears file.1 file.2)
      ∧ notingGate.DecidesAlike (notingGate.withRules digitRules) notedTree := by
  have checked
      : notingGate.rules.findings notedTree notingGate.draftRoot = .ok ⟨[], ["a: no old"]⟩ := by
    decide +kernel
  have readable : ∀ path ∈ notingGate.rules.requiredFiles,
      ∃ content, RuleSet.Reads notedTree notingGate.draftRoot path content := by
    intro path member
    obtain ⟨contents, reads, _⟩ := RuleSet.findings_eq_ok.mp checked
    obtain ⟨content, _, read⟩ := reads.partner_right path member
    exact ⟨content, read⟩
  have differ : notingGate.rules.DifferInWarnings digitRules :=
    ⟨rfl, rfl, rfl, by decide +kernel, by decide +kernel, by decide +kernel⟩
  obtain ⟨alone, pairs⟩ := warnings_never_decide notingGate notedTree
  obtain ⟨contents, findings, reads, found, clears, _⟩ := alone readable
  obtain rfl := Except.ok.inj (checked.symm.trans found)
  exact ⟨checked, ⟨contents, reads, clears.mp rfl⟩, pairs digitRules differ⟩

end PromotionGate

end Vetting
