import Vetting.Proofs.Files.Tracing
import Vetting.Proofs.Promotion.Coherence

/-! Writing a report, whatever fails on the way. Either the report takes its place as a whole, and it
is read back from there, or all that stood before still stands, an earlier report among it. A report
that has been read can be written again with the same bytes.
-/

namespace Vetting.PromotionReport

open FileTree

variable {report : PromotionReport} {outputRoot : Path} {root : Place} {tree first after : FileTree}

-----------------------------------------------------------------------------------------
-- Reports in their place
-----------------------------------------------------------------------------------------

/-- A report has sorted digests, and was made at a point in time. -/
structure Readable (report : PromotionReport) : Prop where
  sorted : Sorted report.digests
  valid : report.generatedAt.isValid = true

/-- A report has been filed in the place to which the path of the output directory leads once that
directory has been made. Nothing else has changed but for such directories, and the report is read
back along every path that leads to it. Its own path does so, unless a link stood in its place and its
own path, which had passed through this link, leads nowhere any more.
-/
structure Filed (report : PromotionReport) (outputRoot : Path) (root : Place)
    (tree after : FileTree)
    : Prop where
  course
    : ∃ first left,
        tree.createDirectories outputRoot = (.ok (), first)
        ∧ first.Course linkLimit (outputRoot.start tree.here) outputRoot.written left root
  stands
    : after.get? (root ++ [name]) = some (.file (Path.bytesOf report.text) Entry.fileMode)
  kept
    : ∀ place entry,
        place ≠ root ++ [name]
        → tree.get? place = some entry
        → after.get? place = some entry
  added
    : ∀ place entry,
        place ≠ root ++ [name]
        → tree.get? place = none
        → after.get? place = some entry
        → entry.isDirectory = true
  readAlong
    : ∀ way, after.resolve true way = .ok (root ++ [name]) → read after way = .ok (some report)
  ownPath
    : read after (pathIn outputRoot) = .ok (some report)
      ∨ (∃ target, tree.get? (root ++ [name]) = some (.link target))
        ∧ ∀ place, after.resolve false (pathIn outputRoot) ≠ .ok place

/-- A report that has been put into the output directory, once this has been made, is filed. -/
theorem Reported.filed (wf : tree.WellFormed) (readable : report.Readable)
    (made : (Operation.createDirectories outputRoot).Ends tree (.ok ()) first)
    (reported : report.Reported outputRoot root first after)
    : report.Filed outputRoot root tree after := by
  have grows := made.grows wf
  obtain ⟨left, course⟩ := reported.course
  have elsewhere : ∀ place, place ≠ root ++ [name] → after.get? place = first.get? place :=
    fun place other => by rw [reported.get?_eq, if_neg other]
  refine ⟨⟨first, left, made, grows.here ▸ course⟩, ?_, ?_, ?_, ?_, ?_⟩
  · rw [reported.get?_eq, if_pos rfl]
  · intro place entry other found
    rw [elsewhere place other]
    exact grows.keeps place entry (clear_of_nothing _) found
  · intro place entry other free found
    rw [elsewhere place other] at found
    exact (grows.adds place entry (clear_of_nothing _) free found).1
  · exact fun way resolved => reported.read_along readable.sorted readable.valid resolved
  · refine (reported.ownPath readable.sorted readable.valid).imp_right ?_
    rintro ⟨⟨target, link⟩, nowhere⟩
    exact ⟨⟨target, grows.resembles.links _ target (clear_of_nothing _) link⟩, nowhere⟩

-----------------------------------------------------------------------------------------
-- Reports that could not be written
-----------------------------------------------------------------------------------------

/-- When a report cannot be written, all that stood still stands, by cases on what has failed. -/
theorem keeps_of_write_error (wf : tree.WellFormed) {fault : PromotionFault}
    (run : (report.write outputRoot).Yields .any tree (.error fault) after)
    : after.here = tree.here
      ∧ ∀ place entry, tree.get? place = some entry → after.get? place = some entry := by
  have keeps {made : Except FileFault Unit} {first : FileTree}
      (making : (Operation.createDirectories outputRoot).Ends tree made first)
      : first.here = tree.here
        ∧ ∀ place entry, tree.get? place = some entry → first.get? place = some entry :=
    ⟨(making.grows wf).here, fun place entry => (making.grows wf).keeps _ _ (clear_of_nothing _)⟩
  obtain ⟨_, _, making⟩ | ⟨first, making, wrote⟩ := yields_write run
  · exact keeps making
  obtain ⟨here, kept⟩ := keeps making
  obtain ⟨_, _, wrote⟩ | ⟨written, second, wrote, moved⟩ := wrote
  · obtain rfl := Conduct.lawful_any _ _ _ _ wrote
    exact ⟨here, kept⟩
  obtain ⟨impossible, _⟩ | ⟨_, third, answer, _, moved, removed⟩ := moved
  · exact absurd impossible (by simp)
  obtain ⟨rest, noSlash, rfl, wrote⟩ := Conduct.lawful_any _ _ _ _ wrote
  obtain rfl := Conduct.lawful_any _ _ _ _ moved
  have wfFirst := Operation.Ends.wellFormed wf making
  cases answer with
  | ok _ =>
      obtain ⟨same, unchanged⟩ := same_of_removed wfFirst (isName_temporary noSlash) wrote
        (Conduct.lawful_any _ _ _ _ removed)
      exact ⟨same.trans here, fun place entry found =>
        (unchanged place).trans (kept place entry found)⟩
  | error _ =>
      -- The new file is left behind, where nothing stood before.
      obtain rfl := Conduct.lawful_any _ _ _ _ removed
      obtain ⟨_, created⟩ := wfFirst.create wrote
      exact ⟨created.here.trans here, fun place entry found =>
        created.keeps (kept place entry found)⟩

/-- A report is read as before where all that stood still stands. -/
theorem read_kept (here : after.here = tree.here)
    (kept : ∀ place entry, tree.get? place = some entry → after.get? place = some entry)
    {way : Path} {earlier : PromotionReport} (before : read tree way = .ok (some earlier))
    : read after way = .ok (some earlier) := by
  obtain ⟨content, found, parsed⟩ := read_eq_ok_some.mp before
  rw [readText, Except.bind_eq_ok] at found
  obtain ⟨bytes, found, decoded⟩ := found
  refine read_eq_ok_some.mpr ⟨content, ?_, parsed⟩
  rw [readText, Except.bind_eq_ok]
  exact ⟨bytes, readFile_kept here kept found, decoded⟩

-----------------------------------------------------------------------------------------
-- Writing a report
-----------------------------------------------------------------------------------------

/-- Whatever fails while a report is written, either it is filed, and its path is told, or all that
stood still stands, so that an earlier report is read as before. What has been read as a report is one
that can be written so, and its text is read as that same report.
-/
theorem filed_or_kept (wf : tree.WellFormed) (readable : report.Readable)
    {answer : Except PromotionFault Path}
    (run : (report.write outputRoot).Yields .any tree answer after)
    : (∀ path,
        answer = .ok path
        → path = pathIn outputRoot ∧ ∃ root, report.Filed outputRoot root tree after)
      ∧ (∀ fault,
          answer = .error fault
          → (∀ place entry, tree.get? place = some entry → after.get? place = some entry)
            ∧ ∀ way earlier,
                read tree way = .ok (some earlier) → read after way = .ok (some earlier))
      ∧ ∀ other way accepted,
          read other way = .ok (some accepted)
          → accepted.Readable ∧ (Json.parse? accepted.text).bind ofJson? = some accepted := by
  refine ⟨?_, ?_, ?_⟩
  · rintro path rfl
    obtain ⟨same, first, root, made, reported⟩ := write_yields Conduct.lawful_any wf run
    exact ⟨same, root, reported.filed wf readable made⟩
  · rintro fault rfl
    obtain ⟨here, kept⟩ := keeps_of_write_error wf run
    exact ⟨kept, fun way earlier before => read_kept here kept before⟩
  · intro other way accepted before
    obtain ⟨_, _, parsed⟩ := read_eq_ok_some.mp before
    obtain ⟨doc, _, recorded⟩ := Option.bind_eq_some_iff.mp parsed
    obtain ⟨sorted, valid⟩ := readable_of_ofJson? doc _ recorded
    exact ⟨⟨sorted, valid⟩, parse?_text sorted valid⟩

/-- A report on a draft that is missing. -/
def unfound : PromotionReport :=
  (undecided (.ofString "d") (.ofString "out") PromotionGate.someTime).reject .discovery

theorem readable_unfound : unfound.Readable :=
  ⟨.nil, by decide⟩

/-- A report that is written into an empty tree is read back, is a report that can be written again,
and stays when this fails at once.
-/
theorem filed_or_kept_empty
    : ∃ after,
        (unfound.write (.ofString "out")).Yields .any .empty
          (.ok (pathIn (.ofString "out"))) after
        ∧ read after (pathIn (.ofString "out")) = .ok (some unfound)
        ∧ (Json.parse? unfound.text).bind ofJson? = some unfound
        ∧ ∃ fault,
            (unfound.write (.ofString "out")).Yields .any after (.error fault) after
            ∧ read after (pathIn (.ofString "out")) = .ok (some unfound) := by
  have run := FileProgram.yields_run (unfound.write (.ofString "out")) wellFormed_empty
  have answer
      : ((unfound.write (.ofString "out")).run .empty).1 = .ok (pathIn (.ofString "out")) := by
    decide +kernel
  generalize ((unfound.write (.ofString "out")).run .empty).2 = after at run
  rw [answer] at run
  obtain ⟨filed, _, accepts⟩ := filed_or_kept wellFormed_empty readable_unfound run
  obtain ⟨_, root, filed⟩ := filed _ rfl
  have own : read after (pathIn (.ofString "out")) = .ok (some unfound) := by
    rcases filed.ownPath with own | ⟨⟨target, link⟩, _⟩
    · exact own
    · exact absurd link (by simp [get?, empty])
  obtain ⟨_, again⟩ := accepts _ _ _ own
  have failed
      : (unfound.write (.ofString "out")).Yields .any after
          (.error (.files (.ofString "out") .noDevice)) after :=
    FileProgram.yields_bind.mpr
      ⟨.error .noDevice, after, FileProgram.yields_request.mpr ⟨[], List.nil_suffix, rfl⟩, rfl, rfl⟩
  have wf := FileProgram.Yields.wellFormed Conduct.lawful_any run wellFormed_empty
  obtain ⟨_, keeps, _⟩ := filed_or_kept wf readable_unfound failed
  exact ⟨after, run, own, again, _, failed, (keeps _ rfl).2 _ _ own⟩

theorem wellFormed_linkedTree : PromotionGate.linkedTree.WellFormed := by
  unfold PromotionGate.linkedTree
  cases applied
      : Edit.apply .empty (.makeLink (.ofString "PROMOTION_REPORT.json") (.ofString ".")) with
  | error _ => exact wellFormed_empty
  | ok _ => exact Edit.wellFormed_apply wellFormed_empty applied

/-- Where a report takes the place of a link on its own way, its path is told, but nothing is read
along it.
-/
theorem unread_through_replaced_link
    : unfound.Readable
      ∧ PromotionGate.linkedTree.WellFormed
      ∧ ∃ path after,
          (unfound.write PromotionGate.linkedGate.outputRoot).run PromotionGate.linkedTree
            = (.ok path, after)
          ∧ read after path ≠ .ok (some unfound) := by
  have answer
      : ((unfound.write PromotionGate.linkedGate.outputRoot).run PromotionGate.linkedTree).1
        = .ok (pathIn PromotionGate.linkedGate.outputRoot) := by
    decide +kernel
  have unread
      : (read ((unfound.write PromotionGate.linkedGate.outputRoot).run
          PromotionGate.linkedTree).2 (pathIn PromotionGate.linkedGate.outputRoot)).toOption
        = none := by
    decide +kernel
  refine ⟨readable_unfound, wellFormed_linkedTree, _, _, Prod.ext answer rfl, fun read => ?_⟩
  rw [read] at unread
  exact absurd unread (by simp [Except.toOption])

end Vetting.PromotionReport
