import Vetting.Promotion.Report
import Vetting.Proofs.Files.Execution

/-! Writing a report. The output directory is made, and then one file changes: the report stands
under its name in the place to which the path of the output directory leads.
-/

namespace Vetting.PromotionReport

open FileTree

/-- The name of the file of a report, as bytes. -/
def name : Bytes := Path.bytesOf fileName

theorem isName_name : Path.IsName name :=
  Path.isName_of_length (by decide) (by decide)

theorem isName_temporary {rest : Bytes} (noSlash : Path.slash ∉ rest)
    : Path.IsName (Path.bytesOf ".tmp" ++ rest) := by
  refine Path.isName_of_length ?_ ?_
  · rw [List.length_append]
    exact Nat.lt_of_lt_of_le (by decide) (Nat.le_add_right _ _)
  · rw [List.mem_append, not_or]
    exact ⟨by decide, noSlash⟩

theorem name_ne_temporary (rest : Bytes) : name ≠ Path.bytesOf ".tmp" ++ rest := by
  intro same
  have heads := congrArg List.head? same
  rw [List.head?_append_of_ne_nil _ (by decide)] at heads
  exact absurd heads (by decide)

/-- A report has been put into the directory to which a path leads, and nothing else has changed. -/
structure Reported (report : PromotionReport) (outputRoot : Path) (root : Place)
    (tree after : FileTree)
    : Prop where
  wellFormed : after.WellFormed
  here : after.here = tree.here
  usable : Usable (pathIn outputRoot)
  course
    : ∃ left,
        tree.Course linkLimit (outputRoot.start tree.here) outputRoot.written left root
  directory : ∃ mode, tree.get? root = some (.directory mode)
  noDirectory : ∀ entry, tree.get? (root ++ [name]) = some entry → entry.isDirectory = false
  get?_eq
    : ∀ other,
        after.get? other
        = if other = root ++ [name] then
            some (.file (Path.bytesOf report.text) Entry.fileMode)
          else tree.get? other

/-- A path joined with a name leads from where the first path leads to that name. -/
theorem resolve_join {tree : FileTree} {path : Path} {name : Bytes} (proper : Path.IsName name)
    {place : Place}
    : tree.resolve false (path.join name) = .ok place
      ↔ Usable (path.join name)
        ∧ ∃ left root,
            tree.Course linkLimit (path.start tree.here) path.written left root
            ∧ (∃ mode, tree.get? root = some (.directory mode))
            ∧ name.length ≤ nameLimit
            ∧ place = root ++ [name] := by
  have start : (path.join name).start tree.here = path.start tree.here := by
    rw [Path.start, Path.start, Path.isAbsolute_join path proper]
  rw [resolve_concat (Path.names_join proper), start]
  simp only [step_of_isName _ proper]

/-- The path of a joined name leads somewhere when a directory can be made there. -/
theorem resolve_of_made {tree after : FileTree} (wf : tree.WellFormed) {path : Path} {name : Bytes}
    (proper : Path.IsName name) (made : tree.createDirectory (path.join name) = .ok after)
    : ∃ place, tree.resolve false (path.join name) = .ok place := by
  obtain ⟨place, created⟩ := wf.createDirectory made
  have resolved := created.resolved
  rw [Path.closed_join path proper] at resolved
  exact ⟨place, resolved⟩

variable {conduct : Conduct} {report : PromotionReport} {outputRoot path : Path}
  {tree after : FileTree}

/-- Moving a new file in the output directory to the name of a report puts the report there. -/
theorem reported_of_moved (wf : tree.WellFormed) {temporary : Bytes}
    (proper : Path.IsName temporary) (other : name ≠ temporary) {between : FileTree}
    (wrote
      : tree.create (outputRoot.join temporary)
          (.file (Path.bytesOf report.text) Entry.fileMode)
        = .ok between)
    (moved : between.rename (outputRoot.join temporary) (pathIn outputRoot) = .ok after)
    : ∃ root, report.Reported outputRoot root tree after := by
  obtain ⟨place, created⟩ := wf.create wrote
  obtain ⟨_, left, root, course, directory, _, rfl⟩ := (resolve_join proper).mp created.resolved
  have leads : ∀ {left middle},
      between.Course linkLimit (outputRoot.start between.here) outputRoot.written left middle →
      middle = root := by
    intro left middle again
    rw [created.here] at again
    exact created.course_unique course again
  -- Both paths of the move still lead into the directory in which the new file was made.
  obtain ⟨source, entry, goal, resolved, found, resolvedGoal, relocated⟩ :=
    created.wellFormed.rename moved
  obtain ⟨_, _, middle, again, _, _, rfl⟩ := (resolve_join proper).mp resolved
  obtain rfl := leads again
  obtain ⟨usable, _, middle, again, _, _, rfl⟩ := (resolve_join isName_name).mp resolvedGoal
  obtain rfl := leads again
  rw [created.get?_eq, if_pos rfl] at found
  obtain rfl := Option.some.inj found
  rcases relocated with ⟨same, _⟩ | ⟨relocated, kinds⟩
  · exact absurd (by simpa using same.symm) other
  have stands : ∀ entry, tree.get? (middle ++ [name]) = some entry → entry.isDirectory = false :=
    fun entry found => kinds entry (created.keeps found)
  refine ⟨middle, relocated.wellFormed, relocated.here.trans created.here, usable, ⟨left, course⟩,
    directory, stands, fun other => ?_⟩
  by_cases inside : middle ++ [name] <+: other
  · obtain ⟨way, rfl⟩ := inside
    rw [relocated.get?_goal, created.get?_eq]
    by_cases here : way = []
    · simp [here]
    · have below : tree.get? (middle ++ [name] ++ way) = none := by
        refine wf.below_none here fun mode found => ?_
        simpa [Entry.isDirectory] using stands _ found
      have free : tree.get? (middle ++ [temporary] ++ way) = none :=
        wf.below_none here (by simp [created.free])
      rw [if_neg (by simpa using here), if_neg (by simpa using here), free, below]
  have notGoal : other ≠ middle ++ [name] := by
    rintro rfl
    exact inside (List.prefix_refl _)
  rw [if_neg notGoal]
  by_cases isSource : middle ++ [temporary] <+: other
  · obtain ⟨way, rfl⟩ := isSource
    rw [relocated.get?_source]
    by_cases here : way = []
    · simp [here, created.free]
    · exact (wf.below_none here (by simp [created.free])).symm
  · rw [relocated.get?_other inside isSource, created.get?_eq, if_neg]
    rintro rfl
    exact isSource (List.prefix_refl _)

/-- Removing the only new file of a directory leaves the tree as it was. -/
theorem same_of_removed (wf : tree.WellFormed) {temporary : Bytes} (proper : Path.IsName temporary)
    {content : Bytes} {mode : Nat} {between : FileTree}
    (wrote : tree.create (outputRoot.join temporary) (.file content mode) = .ok between)
    (removed : between.removeFile (outputRoot.join temporary) = .ok after)
    : after.here = tree.here ∧ ∀ place, after.get? place = tree.get? place := by
  obtain ⟨place, created⟩ := wf.create wrote
  obtain ⟨_, left, root, course, _, _, rfl⟩ := (resolve_join proper).mp created.resolved
  obtain ⟨spot, _, resolved, _, _, gone⟩ := created.wellFormed.removeFile removed
  obtain ⟨_, _, middle, again, _, _, rfl⟩ := (resolve_join proper).mp resolved
  rw [created.here] at again
  obtain rfl := created.course_unique course again
  refine ⟨gone.here.trans created.here, fun other => ?_⟩
  by_cases inside : middle ++ [temporary] <+: other
  · obtain ⟨way, rfl⟩ := inside
    rw [gone.get?_below (by simp)]
    by_cases last : way = []
    · simp [last, created.free]
    · exact (wf.below_none last (by simp [created.free])).symm
  · rw [gone.get?_other inside, created.get?_eq, if_neg]
    rintro rfl
    exact inside (List.prefix_refl _)

/-- A report cannot be written when the output directory or a new file in it cannot be made; else the
new file is moved to the name of a report, or it is removed when this fails.
-/
theorem yields_write {answer : Except PromotionFault Path}
    (run : (report.write outputRoot).Yields conduct tree answer after)
    : (∃ fault,
        answer = .error (.files outputRoot fault)
        ∧ conduct tree (.createDirectories outputRoot) (.error fault) after)
      ∨ ∃ first,
          conduct tree (.createDirectories outputRoot) (.ok ()) first
          ∧ ((∃ fault,
                answer = .error (.files outputRoot fault)
                ∧ conduct first
                    (.writeScratch outputRoot (Path.bytesOf ".tmp") (Path.bytesOf report.text))
                    (.error fault) after)
            ∨ ∃ written second,
                conduct first
                  (.writeScratch outputRoot (Path.bytesOf ".tmp") (Path.bytesOf report.text))
                  (.ok written) second
                ∧ (answer = .ok (pathIn outputRoot)
                    ∧ conduct second (.rename written (pathIn outputRoot)) (.ok ()) after
                  ∨ ∃ fault third removed,
                      answer = .error (.files (pathIn outputRoot) fault)
                      ∧ conduct second (.rename written (pathIn outputRoot)) (.error fault) third
                      ∧ conduct third (.removeFile written) removed after)) := by
  unfold write at run
  obtain ⟨made, first, making, run⟩ := FileProgram.yields_bind.mp run
  have making := FileProgram.yields_request.mp making
  cases made with
  | error fault =>
      obtain ⟨rfl, rfl⟩ := FileProgram.yields_pure.mp run
      exact Or.inl ⟨fault, rfl, making⟩
  | ok _ =>
      refine Or.inr ⟨first, making, ?_⟩
      obtain ⟨wrote, second, writing, run⟩ := FileProgram.yields_bind.mp run
      have writing := FileProgram.yields_request.mp writing
      cases wrote with
      | error fault =>
          obtain ⟨rfl, rfl⟩ := FileProgram.yields_pure.mp run
          exact Or.inl ⟨fault, rfl, writing⟩
      | ok written =>
          refine Or.inr ⟨written, second, writing, ?_⟩
          obtain ⟨moved, third, moving, run⟩ := FileProgram.yields_bind.mp run
          have moving := FileProgram.yields_request.mp moving
          cases moved with
          | ok _ =>
              obtain ⟨rfl, rfl⟩ := FileProgram.yields_pure.mp run
              exact Or.inl ⟨rfl, moving⟩
          | error fault =>
              obtain ⟨removed, last, removing, finish⟩ := FileProgram.yields_bind.mp run
              obtain ⟨rfl, rfl⟩ := FileProgram.yields_pure.mp finish
              exact Or.inr
                ⟨fault, third, removed, rfl, moving, FileProgram.yields_request.mp removing⟩

/-- Writing a report that succeeds puts it into the output directory once that has been made. -/
theorem write_yields (lawful : conduct.Lawful) (wf : tree.WellFormed)
    (run : (report.write outputRoot).Yields conduct tree (.ok path) after)
    : path = pathIn outputRoot
      ∧ ∃ first root,
          (Operation.createDirectories outputRoot).Ends tree (.ok ()) first
          ∧ report.Reported outputRoot root first after := by
  obtain ⟨_, impossible, _⟩ | ⟨first, made, wrote⟩ := yields_write run
  · exact absurd impossible (by simp)
  obtain ⟨_, impossible, _⟩ | ⟨_, second, wrote, moved⟩ := wrote
  · exact absurd impossible (by simp)
  obtain ⟨same, moved⟩ | ⟨_, _, _, impossible, _⟩ := moved
  · have made := lawful _ _ _ _ made
    obtain ⟨rest, noSlash, rfl, wrote⟩ := lawful _ _ _ _ wrote
    exact ⟨Except.ok.inj same, first, (reported_of_moved (made.wellFormed wf)
      (isName_temporary noSlash) (name_ne_temporary rest) wrote (lawful _ _ _ _ moved)).imp
      fun _ reported => ⟨made, reported⟩⟩
  · exact absurd impossible (by simp)

/-- Where the path of the output directory still leads to the report, so does the path of the report. -/
theorem Reported.readFile_of_course {root : Place} {first : FileTree} {left : Nat}
    (reported : report.Reported outputRoot root first after)
    (course : after.Course linkLimit (outputRoot.start after.here) outputRoot.written left root)
    : after.readFile (pathIn outputRoot) = .ok (Path.bytesOf report.text) := by
  obtain ⟨mode, found⟩ := reported.directory
  have directory : after.get? root = some (.directory mode) := by
    rw [reported.get?_eq, if_neg (by simp), found]
  have stands
      : after.get? (root ++ [name])
        = some (.file (Path.bytesOf report.text) Entry.fileMode) := by
    rw [reported.get?_eq, if_pos rfl]
  have entered : after.Walked true left root [name] (root ++ [name]) := by
    have step := step_of_isName root isName_name
    exact .entered directory (by decide) (step ▸ stands) (by simp) (step ▸ .arrived _ _)
  refine readFile_eq_ok.mpr ⟨root ++ [name], _, resolve_eq_ok.mpr ⟨reported.usable, ?_⟩, stands⟩
  have absolute : (pathIn outputRoot).isAbsolute = outputRoot.isAbsolute :=
    Path.isAbsolute_join outputRoot isName_name
  have names : (pathIn outputRoot).names = outputRoot.written ++ [name] :=
    Path.names_join isName_name
  rw [Path.start, absolute, names]
  exact (course.walk (by simp)).mpr entered.walk

/-- Where a report did not take the place of a link, its path leads to it: this path may have passed
through that link.
-/
theorem Reported.readFile {root : Place} {first : FileTree}
    (reported : report.Reported outputRoot root first after)
    (noLink : ∀ target, first.get? (root ++ [name]) ≠ some (.link target))
    : after.readFile (pathIn outputRoot) = .ok (Path.bytesOf report.text) := by
  obtain ⟨left, course⟩ := reported.course
  have retains : first.Retains [] after := by
    intro place entry _ kind found
    rw [reported.get?_eq, if_neg, found]
    rintro rfl
    rcases kind with isDirectory | ⟨target, rfl⟩
    · exact absurd isDirectory (by simp [reported.noDirectory entry found])
    · exact noLink target found
  have again := course.retained (fun _ _ _ _ => clear_of_nothing _) retains (clear_of_nothing _)
    (clear_of_nothing _)
  exact reported.readFile_of_course (reported.here ▸ again)

end Vetting.PromotionReport
