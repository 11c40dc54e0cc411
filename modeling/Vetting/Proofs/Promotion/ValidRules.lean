import Vetting.Promotion.Gate
import Vetting.Proofs.Promotion.CheckLines
import Vetting.Proofs.Promotion.Commit
import Vetting.Proofs.Promotion.Validation

/-! What cannot go wrong with a rule set that is valid. Its required paths lead below every directory,
its checks can be made on every content, and its files have different destinations; so a promotion
stops only because of the files it works on.
-/

namespace Vetting

-----------------------------------------------------------------------------------------
-- Steps that do not stop because of a path
-----------------------------------------------------------------------------------------

namespace PromotionStep

variable {α β : Type} {step : PromotionStep α} {ok more : α → Prop}

/-- A fault that is not about an unsafe path. -/
def Sound (fault : PromotionFault) : Prop :=
  ∀ unsafePath, fault ≠ .unsafePath unsafePath

/-- Whatever its operations answer, a step comes to a value of which something holds, or stops with a
fault that is not about an unsafe path.
-/
def Delivers (ok : α → Prop) (step : PromotionStep α) : Prop :=
  ∀ conduct tree result after,
    step.Yields conduct tree result after
    → match result with
      | .ok value => ok value
      | .error fault => Sound fault

theorem sound_files {path : Path} {fault : FileFault} : Sound (.files path fault) :=
  fun _ same => by cases same

theorem delivers_pure {value : α} (holds : ok value) : Delivers ok (pure value) := by
  intro conduct tree result after run
  obtain ⟨rfl, _⟩ := yields_pure.mp run
  exact holds

theorem delivers_throw {fault : PromotionFault} (sound : Sound fault) : Delivers ok (throw fault) := by
  intro conduct tree result after run
  obtain ⟨rfl, _⟩ := yields_throw.mp run
  exact sound

/-- Operations fail for reasons of their own. -/
theorem delivers_request (op : Operation) (path : Path)
    : Delivers (fun _ => True) (request op path) := by
  intro conduct tree result after run
  rcases yields_request.mp run with ⟨fault, rfl, _⟩ | ⟨answer, rfl, _⟩
  · exact sound_files
  · trivial

theorem delivers_lift {program : FileProgram α} : Delivers (fun _ => True) (ExceptT.lift program) := by
  intro conduct tree result after run
  obtain ⟨value, rfl, _⟩ := yields_lift.mp run
  trivial

theorem delivers_attempt (op : Operation) : Delivers (fun _ => True) (attempt op) :=
  delivers_lift

/-- A step that goes on with another one stops as either of them does. -/
theorem Delivers.bind {rest : α → PromotionStep β} {ok' : β → Prop} (first : Delivers ok step)
    (onward : ∀ value, ok value → Delivers ok' (rest value))
    : Delivers ok' (step >>= rest) := by
  intro conduct tree result after run
  rcases yields_bind.mp run with ⟨fault, rfl, stopped⟩ | ⟨value, between, found, run⟩
  · exact first _ _ _ _ stopped
  · exact onward value (first _ _ _ _ found) _ _ _ _ run

/-- A step whose value is not looked at. -/
theorem Delivers.andThen {rest : α → PromotionStep β} {ok' : β → Prop}
    (first : Delivers (fun _ => True) step) (onward : ∀ value, Delivers ok' (rest value))
    : Delivers ok' (step >>= rest) :=
  first.bind fun value _ => onward value

/-- A fault that is handled is not about a path, nor are those of the handler. -/
theorem Delivers.tryCatch {handler : PromotionFault → PromotionStep α} (first : Delivers ok step)
    (handled : ∀ fault, Sound fault → Delivers ok (handler fault))
    : Delivers ok (tryCatch step handler) := by
  intro conduct tree result after run
  rcases yields_tryCatch.mp run with ⟨value, rfl, found⟩ | ⟨fault, between, stopped, run⟩
  · exact first _ _ _ _ found
  · exact handled fault (first _ _ _ _ stopped) _ _ _ _ run

/-- A step for each of some values, by induction on them. -/
theorem delivers_mapM {each : β → PromotionStep α} {ok : β → α → Prop} {values : List β}
    (delivers : ∀ value ∈ values, Delivers (ok value) (each value))
    : Delivers (List.Forall₂ ok values) (values.mapM each) := by
  induction values with
  | nil => exact delivers_pure .nil
  | cons value rest ih =>
      obtain ⟨first, others⟩ := List.forall_mem_cons.mp delivers
      rw [List.mapM_cons]
      refine first.bind fun one holds => ?_
      refine (ih others).bind fun results all => ?_
      exact delivers_pure (.cons holds all)

theorem delivers_createParent {path : Path} : Delivers (fun _ => True) (createParent path) := by
  unfold createParent
  split
  · exact delivers_pure trivial
  · exact delivers_request (.createDirectories _) _

end PromotionStep

namespace PromotionRoute

open PromotionStep

variable {route : PromotionRoute} {staging : Path}

/-- A required path leads below every directory. -/
def Resolvable (path : String) : Prop :=
  ∀ root, SafePath.resolve root path = .ok (root.below (SafePath.names path))

/-- A copy is told with its path and the destination of the file. -/
structure Tells (route : PromotionRoute) (path : String) (file : StagedFile) : Prop where
  path_eq : file.path = path
  target_eq : file.target = route.outputRoot.below (SafePath.names path)

/-- Copying a file whose path leads below every directory. -/
theorem delivers_stageFile {path : String} (resolvable : Resolvable path)
    : Delivers (route.Tells path) (route.stageFile staging path) := by
  rw [stageFile_of_named (SafePath.resolve_eq_ok.mp (resolvable staging)).1]
  refine (delivers_request _ _).andThen fun content => ?_
  refine delivers_createParent.andThen fun _ => ?_
  refine (delivers_request _ _).andThen fun _ => ?_
  refine (delivers_request _ _).andThen fun copy => ?_
  dsimp only
  split
  · exact (delivers_throw fun _ same => by cases same).andThen fun _ => delivers_pure ⟨rfl, rfl⟩
  · exact delivers_pure ⟨rfl, rfl⟩

theorem delivers_park {target : Path} {index : Nat}
    : Delivers (fun _ => True) (park staging target index) := by
  unfold park
  refine delivers_lift.andThen fun answer => ?_
  split
  · exact delivers_pure trivial
  · exact (delivers_request _ _).andThen fun _ => delivers_pure trivial

/-- Moving a file into place. -/
theorem delivers_install {file : StagedFile} {index : Nat}
    : Delivers (fun _ => True) (install staging file index) := by
  unfold install
  refine delivers_createParent.andThen fun _ => ?_
  refine delivers_park.andThen fun parked => ?_
  refine delivers_lift.andThen fun answer => ?_
  split
  · exact delivers_pure trivial
  · split
    · exact (delivers_attempt _).andThen fun _ => delivers_throw sound_files
    · exact delivers_throw sound_files

/-- Undoing moves, by induction on them. -/
theorem delivers_rollback (installed : List InstalledFile)
    : Delivers (fun _ => True) (rollback installed) := by
  induction installed with
  | nil => exact delivers_pure trivial
  | cons file rest ih =>
      unfold rollback
      refine (delivers_attempt _).andThen fun _ => ?_
      split
      · exact (delivers_attempt _).andThen fun _ => ih
      · exact ih

/-- Moving files into place after others, by induction on those that are left. -/
theorem delivers_installAll (files : List StagedFile) (installed : List InstalledFile)
    : Delivers (fun _ => True) (installAll staging installed files) := by
  induction files generalizing installed with
  | nil => exact delivers_pure trivial
  | cons file rest ih =>
      unfold installAll
      refine Delivers.andThen ?_ fun done => ih (done :: installed)
      refine delivers_install.tryCatch fun fault sound => ?_
      exact (delivers_rollback installed).andThen fun _ => delivers_throw sound

/-- A promotion of files whose paths lead below every directory does not stop because of a path, and
tells each file with its destination.
-/
theorem delivers_commit {required : List String} (resolvable : ∀ path ∈ required, Resolvable path)
    : Delivers (List.Forall₂ route.Tells required) (route.commit required) := by
  have transferred (staging : Path)
      : Delivers (List.Forall₂ route.Tells required) (route.transfer staging required) := by
    refine (delivers_mapM fun path member => delivers_stageFile (resolvable path member)).bind ?_
    intro files told
    exact (delivers_installAll files []).andThen fun _ => delivers_pure told
  unfold commit
  refine (delivers_request _ _).andThen fun _ => ?_
  refine (delivers_request _ _).andThen fun staging => ?_
  -- The outcome of the transfer is kept while the directory for copies is removed.
  intro conduct tree result after run
  obtain ⟨outcome, _, ended, run⟩ := yields_lift_bind.mp run
  obtain ⟨_, _, _, finish⟩ := yields_attempt_bind.mp run
  obtain ⟨rfl, _⟩ := yields_mk.mp finish
  exact transferred staging _ _ _ _ ended

end PromotionRoute

-----------------------------------------------------------------------------------------
-- What a valid rule set is
-----------------------------------------------------------------------------------------

namespace RuleSet

variable {rules : RuleSet}

/-- What a rule set has to be for its check. -/
structure Consistent (rules : RuleSet) : Prop where
  starts : rules.allowedStarts ≠ []
  required : rules.requiredFiles ≠ []
  safeStarts : ∀ start ∈ rules.allowedStarts, ∃ normal, SafePath.normalize start = .ok normal
  normal : ∀ path ∈ rules.requiredFiles, SafePath.normalize path = .ok path
  allowed
    : ∀ path ∈ rules.requiredFiles, ∃ start ∈ rules.allowedStarts, start.toList <+: path.toList
  once : rules.requiredFiles.Nodup
  targets : ∀ check ∈ rules.checks, check.path = "*" ∨ check.path ∈ rules.requiredFiles
  patterns : ∀ check ∈ rules.checks, check.rule.Compiles

theorem allows_iff {path : String}
    : rules.allows path = true ↔ ∃ start ∈ rules.allowedStarts, start.toList <+: path.toList := by
  simp [allows, Text.startsWith, List.isPrefixOf_iff_prefix]

/-- A check passes when it is about required files and its rule can be checked. -/
theorem checkCheck_eq_ok {check : FileCheck}
    : rules.checkCheck check = .ok ()
      ↔ (check.path = "*" ∨ check.path ∈ rules.requiredFiles) ∧ check.rule.Compiles := by
  unfold checkCheck
  rw [Except.unless_eq_ok]
  refine and_congr ?_ ?_
  · rw [not_and_or, not_not, not_not, List.contains_iff_mem]
    rfl
  · unfold ContentRule.Compiles
    cases check.rule.pattern? with
    | none => simp [pure, Except.pure]
    | some pattern =>
        simp only [Option.some.injEq, forall_eq']
        cases Pattern.parse pattern <;> simp [pure, Except.pure]

theorem valid_iff_consistent : rules.Valid ↔ rules.Consistent := by
  constructor
  · intro valid
    have checks check (member : check ∈ rules.checks) := checkCheck_eq_ok.mp (valid.checks check member)
    exact {
      starts := valid.starts
      required := valid.required
      safeStarts := valid.safeStarts
      normal := fun path member => (valid.acceptable path member).normal
      allowed := fun path member => allows_iff.mp (valid.acceptable path member).allowed
      once := valid.distinct
      targets := fun check member => (checks check member).1
      patterns := fun check member => (checks check member).2
    }
  · intro consistent
    exact {
      starts := consistent.starts
      required := consistent.required
      safeStarts := consistent.safeStarts
      acceptable := fun path member =>
        ⟨consistent.normal path member, allows_iff.mpr (consistent.allowed path member)⟩
      distinct := consistent.once
      checks := fun check member =>
        checkCheck_eq_ok.mpr ⟨consistent.targets check member, consistent.patterns check member⟩
    }

end RuleSet

-----------------------------------------------------------------------------------------
-- What cannot go wrong
-----------------------------------------------------------------------------------------

/-- A path leads strictly below a directory by its names. -/
structure Path.LiesBelow (path directory : Path) : Prop where
  isAbsolute_eq : path.isAbsolute = directory.isAbsolute
  names
    : ∃ names,
        names ≠ []
        ∧ (∀ name ∈ names, Path.IsName name)
        ∧ path.written = directory.written ++ names

namespace PromotionGate

open PromotionStep

variable {gate : PromotionGate}

/-- The paths to which the required files are moved. -/
def targets (gate : PromotionGate) : List Path :=
  gate.rules.requiredFiles.map fun path => gate.outputRoot.below (SafePath.names path)

/-- A line about a required file tells a forbidden text in it or a check that it does not satisfy. -/
inductive Explains (gate : PromotionGate) : String → Prop
  | forbidden {path content text} (required : path ∈ gate.rules.requiredFiles)
    (found : firstForbidden content gate.rules.forbidden = some text)
    : Explains gate ("Forbidden content '" ++ text ++ "' found in " ++ path)
  | failed {path content check} (required : path ∈ gate.rules.requiredFiles)
    (listed : check ∈ gate.rules.checks) (applies : check.appliesTo path = true)
    (fails : check.rule.holds content = .ok false)
    : Explains gate (path ++ ": " ++ check.message)

/-- What cannot go wrong in the runs of a gate: required paths lead below every directory, so that no run
stops because of one; every check can be made, so that all that is found explains itself; and the
required files have different destinations below the output directory.
-/
structure Unfailing (gate : PromotionGate) : Prop where
  resolves
    : ∀ root, ∀ path ∈ gate.rules.requiredFiles, ∃ resolved, SafePath.resolve root path = .ok resolved
  inspects
    : ∀ tree unsafePath, gate.rules.findings tree gate.draftRoot ≠ .error (.unsafePath unsafePath)
  commits
    : ∀ conduct tree unsafePath after,
        ¬ (gate.route.commit gate.rules.requiredFiles).Yields conduct tree
          (.error (.unsafePath unsafePath)) after
  checks
    : ∀ check ∈ gate.rules.checks, ∀ content, ∃ verdict, check.rule.holds content = .ok verdict
  explains
    : ∀ tree findings,
        gate.rules.findings tree gate.draftRoot = .ok findings
        → ∀ line ∈ findings.errors ++ findings.warnings, gate.Explains line
  delivers
    : ∀ conduct tree files after,
        (gate.route.commit gate.rules.requiredFiles).Yields conduct tree (.ok files) after
        → files.map StagedFile.target = gate.targets
  different : (gate.targets.map Path.written).Nodup
  below : ∀ target ∈ gate.targets, target.LiesBelow gate.outputRoot

/-- A path in normal form leads below every directory. -/
theorem resolvable_of_normal {path : String} (normal : SafePath.normalize path = .ok path)
    : PromotionRoute.Resolvable path := by
  obtain ⟨parts, parsed, names⟩ := SafePath.names_of_normal normal
  have some : SafePath.names path ≠ [] := by
    rw [names]
    simpa using (SafePath.isName_of_parse parsed).1
  exact fun root => SafePath.resolve_eq_ok.mpr ⟨some, rfl⟩

/-- When required paths lead below every directory, checks fail to be made only because of files. -/
theorem sound_of_findings {tree : FileTree} {fault : PromotionFault}
    (resolvable : ∀ path ∈ gate.rules.requiredFiles, PromotionRoute.Resolvable path)
    (failed : gate.rules.findings tree gate.draftRoot = .error fault)
    : Sound fault := by
  rw [RuleSet.findings_eq] at failed
  rcases Except.bind_eq_error.mp failed with failed | ⟨_, _, impossible⟩
  · obtain ⟨path, member, failed⟩ := Except.exists_of_mapM_eq_error failed
    rcases Except.bind_eq_error.mp failed with unresolved | ⟨file, _, failed⟩
    · exact absurd (unresolved.symm.trans (resolvable path member _)) (by simp)
    rcases Except.bind_eq_error.mp failed with unread | ⟨_, _, impossible⟩
    · obtain ⟨_, _, rfl⟩ := Except.mapError_eq_error.mp unread
      exact sound_files
    · exact absurd impossible (by simp [pure, Except.pure])
  · exact absurd impossible (by simp [pure, Except.pure])

/-- When all checks can be made, every line that is found explains itself. -/
theorem explains_of_findings {tree : FileTree} {findings : Findings}
    (compiles : ∀ check ∈ gate.rules.checks, check.rule.Compiles)
    (checked : gate.rules.findings tree gate.draftRoot = .ok findings)
    : ∀ line ∈ findings.errors ++ findings.warnings, gate.Explains line := by
  obtain ⟨contents, _, rfl⟩ := RuleSet.findings_eq_ok.mp checked
  have required {i : Nat} {path : String} {content : List Char}
      (file : (gate.rules.filesWith contents)[i]? = some (path, content))
      : path ∈ gate.rules.requiredFiles :=
    (List.of_mem_zip (List.mem_of_getElem? file)).1
  intro line member
  rcases List.mem_append.mp member with isError | isWarning
  · obtain ⟨origin, comes⟩ := (gate.rules.errors_inOrder contents).mem_iff.mp isError
    cases comes with
    | forbidden file found => exact .forbidden (required file) found
    | failed file listed applies _ fails =>
        exact .failed (required file) (List.mem_of_getElem? listed) applies fails
    | broken _ listed _ stuck =>
        have compiles := compiles _ (List.mem_of_getElem? listed)
        obtain ⟨verdict, holds⟩ := (ContentRule.compiles_iff _).mp compiles
        exact absurd (stuck.symm.trans holds) (by simp)
  · obtain ⟨origin, comes⟩ := (gate.rules.warnings_inOrder contents).mem_iff.mp isWarning
    cases comes with
    | failed file listed applies _ fails =>
        exact .failed (required file) (List.mem_of_getElem? listed) applies fails

/-- Files that are told with their destinations have these in the order of their paths. -/
theorem targets_of_tells {files : List StagedFile}
    (told : List.Forall₂ gate.route.Tells gate.rules.requiredFiles files)
    : files.map StagedFile.target = gate.targets := by
  unfold targets
  generalize gate.rules.requiredFiles = required at told
  induction told with
  | nil => rfl
  | cons first _ ih => rw [List.map_cons, List.map_cons, ih, first.target_eq]; rfl

/-- Required paths have names, and their destinations lie below the output directory. -/
theorem below_of_resolvable
    (resolvable : ∀ path ∈ gate.rules.requiredFiles, PromotionRoute.Resolvable path)
    : ∀ target ∈ gate.targets, target.LiesBelow gate.outputRoot := by
  intro target member
  obtain ⟨path, listed, rfl⟩ := List.mem_map.mp member
  have proper : ∀ name ∈ SafePath.names path, Path.IsName name :=
    fun _ => SafePath.isName_of_mem_names
  have nonempty := (SafePath.resolve_eq_ok.mp (resolvable path listed gate.outputRoot)).1
  exact ⟨Path.isAbsolute_below _ proper, _, nonempty, proper, Path.written_below _ proper⟩

/-- Destinations are told apart by their names. -/
theorem nodup_targets (valid : gate.rules.Valid) : (gate.targets.map Path.written).Nodup := by
  have names : gate.targets.map Path.written
      = (gate.rules.requiredFiles.map SafePath.names).map (gate.outputRoot.written ++ ·) := by
    rw [targets, List.map_map, List.map_map]
    refine List.map_congr_left fun path _ => ?_
    exact Path.written_below _ fun _ => SafePath.isName_of_mem_names
  rw [names]
  exact valid.distinctNames.map (List.append_right_injective _)

/-- A rule set passes its check exactly when it is consistent, and with such a rule set nothing can go
wrong but what comes of the files.
-/
theorem validate_unfailing (gate : PromotionGate)
    : (gate.rules.validate = .ok () ↔ gate.rules.Consistent)
      ∧ (gate.rules.validate = .ok () → gate.Unfailing) := by
  refine ⟨RuleSet.validate_eq_ok.trans RuleSet.valid_iff_consistent, fun validated => ?_⟩
  have valid := RuleSet.validate_eq_ok.mp validated
  have consistent := RuleSet.valid_iff_consistent.mp valid
  have resolvable path (member : path ∈ gate.rules.requiredFiles) :=
    resolvable_of_normal (consistent.normal path member)
  have delivers
      : Delivers (List.Forall₂ gate.route.Tells gate.rules.requiredFiles)
          (gate.route.commit gate.rules.requiredFiles) :=
    PromotionRoute.delivers_commit resolvable
  exact {
    resolves := fun root path member => ⟨_, resolvable path member root⟩
    inspects := fun tree unsafePath failed => sound_of_findings resolvable failed unsafePath rfl
    commits := fun conduct tree unsafePath after run => delivers _ _ _ _ run unsafePath rfl
    checks := fun check member content =>
      (ContentRule.compiles_iff content).mp (consistent.patterns check member)
    explains := fun tree findings checked => explains_of_findings consistent.patterns checked
    delivers := fun conduct tree files after run => targets_of_tells (delivers _ _ _ _ run)
    different := nodup_targets valid
    below := below_of_resolvable resolvable
  }

/-- A gate with a pattern that is looked for in all required files, and one for a single file. -/
def patternGate : PromotionGate where
  outputRoot := .ofString "out/"
  draftRoot := .ofString "draft"
  rules :=
    { allowedStarts := ["a/"]
      requiredFiles := ["a/b", "a/c"]
      forbidden := ["TODO"]
      checks :=
        [⟨"*", .matching "x+", .error, "no x"⟩, ⟨"a/b", .absent "[0-9]", .warning, "a digit"⟩] }

/-- The rule set of this gate can be used, so nothing can go wrong with it. -/
theorem validate_unfailing_patterns
    : patternGate.rules.validate = .ok () ∧ patternGate.rules.Consistent ∧ patternGate.Unfailing := by
  have validated : patternGate.rules.validate = .ok () := by decide +kernel
  have unfailing := patternGate.validate_unfailing
  exact ⟨validated, unfailing.1.mp validated, unfailing.2 validated⟩

end PromotionGate

end Vetting
