import Vetting.Proofs.Files.Tracing
import Vetting.Proofs.Json.Reading
import Vetting.Proofs.Json.Records
import Vetting.Proofs.Promotion.ReportFile
import Vetting.Proofs.Promotion.SortedEntries
import Vetting.Proofs.Text.Utf8
import Vetting.Proofs.Time.Reading

/-! The text of a report is read back as that report, when its digests are sorted and it was written
at a point in time. What is read as a report is always one of these.
-/

namespace Vetting.PromotionReport

open FileTree

theorem ofTag?_tag (stage : GateStage) : GateStage.ofTag? stage.tag = some stage := by
  cases stage <;> decide

theorem digestsOf?_obj {digests : List (String × String)} (sorted : Sorted digests)
    : digestsOf? (.obj (digests.map fun entry => (entry.1, .str entry.2))) = some digests := by
  have each : (digests.map fun entry => (entry.1, Json.str entry.2)).mapM
      (fun (field : String × Json) => do return (field.1, ← field.2.str?)) = some digests := by
    clear sorted
    induction digests with
    | nil => rfl
    | cons entry digests ih =>
        rw [List.map_cons, List.mapM_cons, ih]
        rfl
  rw [digestsOf?, Json.fields?, Option.bind_eq_bind, Option.bind_some, each]
  exact congrArg some (sortedEntries_of_sorted sorted)

/-- A report has a document of texts and truth values. -/
theorem plain_toJson (report : PromotionReport) : Json.Plain Json.maxDepth report.toJson := by
  have strings (texts : List String) : Json.Plain 126 (.ofStrings texts) := by
    refine .arr fun item member => ?_
    obtain ⟨text, _, rfl⟩ := List.mem_map.mp member
    exact .str _ text
  have digests : Json.Plain 126
      (.obj (report.digests.map fun entry => (entry.1, .str entry.2))) := by
    refine .obj fun field member => ?_
    obtain ⟨entry, _, rfl⟩ := List.mem_map.mp member
    exact .str _ entry.2
  change Json.Plain (126 + 1) report.toJson
  unfold toJson
  refine .obj fun field member => ?_
  simp only [List.mem_append, List.mem_cons, List.not_mem_nil, or_false, Option.mem_toList,
    Option.map_eq_some_iff] at member
  rcases member with ((rfl | rfl | rfl | rfl | rfl | rfl | rfl) | ⟨_, _, rfl⟩) | rfl | rfl
  all_goals first | exact strings _ | exact digests | exact .str _ _ | exact .bool _ _

/-- The fields of the document of a report. -/
theorem record?_toJson (report : PromotionReport)
    : report.toJson.record? ["ok", "draft_root", "promoted", "rejected", "errors", "warnings",
        "report_path", "failed_stage", "digests", "generated_at"]
      = some [some (.bool report.ok), some (.str report.draftRoot),
          some (.ofStrings report.promoted), some (.ofStrings report.rejected),
          some (.ofStrings report.errors), some (.ofStrings report.warnings),
          some (.str report.reportPath), report.failedStage.map fun stage => .str stage.tag,
          some (.obj (report.digests.map fun entry => (entry.1, .str entry.2))),
          some (.str report.generatedAt.text)] := by
  cases failed : report.failedStage with
  | none => simp [toJson, failed, Json.record?, Json.fieldOnce?]
  | some stage => simp [toJson, failed, Json.record?, Json.fieldOnce?]

/-- The document of a report is read back. -/
theorem ofJson?_toJson {report : PromotionReport} (sorted : Sorted report.digests)
    (valid : report.generatedAt.isValid = true)
    : ofJson? report.toJson = some report := by
  have stage
      : Json.optional? (fun name => name.unitName?.bind GateStage.ofTag?)
          (report.failedStage.map fun stage => .str stage.tag)
        = some report.failedStage := by
    cases report.failedStage with
    | none => rfl
    | some stage =>
        simp only [Option.map_some, Json.optional?, Json.unitName?, Option.bind_some, ofTag?_tag]
  have time : (some report.generatedAt.text).bind Timestamp.parse? = some report.generatedAt := by
    rw [Option.bind_some, Timestamp.parse?_text valid]
  have strings (texts : List String) : (Json.ofStrings texts).strings? = some texts :=
    Json.strings?_eq_some_iff.mpr rfl
  unfold ofJson?
  refine (Option.bind_of_eq_some report.record?_toJson _).trans ?_
  refine (Option.bind_of_eq_some stage _).trans ?_
  refine (Option.bind_of_eq_some (digestsOf?_obj sorted) _).trans ?_
  simp only [Option.bind_eq_bind, Option.bind_some, Json.bool?, Json.str?, strings, time]
  rfl

/-- The text of a report is read back. -/
theorem parse?_text {report : PromotionReport} (sorted : Sorted report.digests)
    (valid : report.generatedAt.isValid = true)
    : (Json.parse? report.text).bind ofJson? = some report := by
  have blank : ∀ c ∈ "\n".toList, Json.isGap c = true := Json.isGap_feed
  rw [text, report.plain_toJson.parse?_pretty blank, Option.bind_some,
    ofJson?_toJson sorted valid]

/-- A report is read back from a file with its text. -/
theorem read_of_readFile {report : PromotionReport} {tree : FileTree} {path : Path}
    (sorted : Sorted report.digests) (valid : report.generatedAt.isValid = true)
    (stands : tree.readFile path = .ok (Path.bytesOf report.text))
    : read tree path = .ok (some report) := by
  have content : tree.readText path = .ok report.text.toList := by
    have decoded : Text.decode? (Path.bytesOf report.text) = some report.text.toList :=
      Text.decode?_encode _
    rw [readText, Except.bind_eq_ok]
    exact ⟨_, stands, by rw [decoded]; rfl⟩
  rw [read, content]
  simp only [String.ofList_toList]
  rw [parse?_text sorted valid]

/-- A report in its place is read back along every path that leads there. -/
theorem Reported.read_along {report : PromotionReport} {outputRoot path : Path} {root : Place}
    {first after : FileTree} (reported : report.Reported outputRoot root first after)
    (sorted : Sorted report.digests) (valid : report.generatedAt.isValid = true)
    (resolved : after.resolve true path = .ok (root ++ [name]))
    : PromotionReport.read after path = .ok (some report) := by
  have stands
      : after.get? (root ++ [name])
        = some (.file (Path.bytesOf report.text) Entry.fileMode) := by
    rw [reported.get?_eq, if_pos rfl]
  exact read_of_readFile sorted valid (readFile_eq_ok.mpr ⟨_, _, resolved, stands⟩)

/-- Where the path of a report leads anywhere, it leads to the report: the report is all that is
new, and a path to anything else does not pass through it.
-/
theorem Reported.readFile_of_resolved {report : PromotionReport} {outputRoot : Path}
    {root place : Place} {first after : FileTree}
    (reported : report.Reported outputRoot root first after)
    (resolved : after.resolve false (pathIn outputRoot) = .ok place)
    : after.readFile (pathIn outputRoot) = .ok (Path.bytesOf report.text) := by
  obtain ⟨_, left, other, course, _⟩ := (resolve_join isName_name).mp resolved
  have retains : after.Retains [] first := by
    intro spot entry _ kind found
    rw [reported.get?_eq] at found
    split at found
    · obtain rfl := Option.some.inj found
      simp [Entry.isDirectory] at kind
    · exact found
  have before := course.retained (fun _ _ _ _ => clear_of_nothing _) retains (clear_of_nothing _)
    (clear_of_nothing _)
  obtain ⟨_, own⟩ := reported.course
  rw [reported.here] at before
  obtain rfl := Except.ok.inj (before.walked.walk.symm.trans own.walked.walk)
  exact reported.readFile_of_course course

/-- A report in its place is read back along its own path, unless a link stood in this place and the
path, which had passed through this link, leads nowhere any more.
-/
theorem Reported.ownPath {report : PromotionReport} {outputRoot : Path} {root : Place}
    {first after : FileTree} (reported : report.Reported outputRoot root first after)
    (sorted : Sorted report.digests) (valid : report.generatedAt.isValid = true)
    : PromotionReport.read after (pathIn outputRoot) = .ok (some report)
      ∨ (∃ target, first.get? (root ++ [name]) = some (.link target))
        ∧ ∀ place, after.resolve false (pathIn outputRoot) ≠ .ok place := by
  have reads : after.readFile (pathIn outputRoot) = .ok (Path.bytesOf report.text) →
      PromotionReport.read after (pathIn outputRoot) = .ok (some report) :=
    read_of_readFile sorted valid
  by_cases leads : ∃ place, after.resolve false (pathIn outputRoot) = .ok place
  · obtain ⟨place, resolved⟩ := leads
    exact Or.inl (reads (reported.readFile_of_resolved resolved))
  by_cases link : ∃ target, first.get? (root ++ [name]) = some (.link target)
  · exact Or.inr ⟨link, fun place resolved => leads ⟨place, resolved⟩⟩
  · exact Or.inl (reads (reported.readFile fun target found => link ⟨target, found⟩))

theorem sorted_of_digestsOf? {doc : Json} {digests : List (String × String)}
    (read : digestsOf? doc = some digests)
    : Sorted digests := by
  simp only [digestsOf?, Option.bind_eq_bind, Option.bind_eq_some_iff] at read
  obtain ⟨_, _, entries, _, finish⟩ := read
  exact Option.some.inj finish ▸ sorted_sortedEntries entries

/-- What is read as a report has sorted digests, also when they are missing, and a point in time. -/
theorem readable_of_ofJson? (doc : Json)
    : ∀ report ∈ ofJson? doc, Sorted report.digests ∧ report.generatedAt.isValid = true := by
  unfold ofJson?
  refine Option.forall_mem_bind fun _ _ => ?_
  split
  · refine Option.forall_mem_bind fun _ _ => ?_
    split
    all_goals
      refine Option.forall_mem_bind fun digests found => ?_
      have sorted : Sorted digests := by
        first
          | exact sorted_of_digestsOf? found
          | exact Option.some.inj found ▸ .nil
      iterate 15 refine Option.forall_mem_bind fun _ _ => ?_
      refine Option.forall_mem_bind fun time parsed => ?_
      rintro _ ⟨⟩
      obtain ⟨written, _, read⟩ := Option.bind_eq_some_iff.mp parsed
      exact ⟨sorted, Timestamp.isValid_of_parse? written _ read⟩
  · simp

/-- A report is read from a file with a text that is read as one. -/
theorem read_eq_ok_some {report : PromotionReport} {tree : FileTree} {path : Path}
    : read tree path = .ok (some report)
      ↔ ∃ content,
          tree.readText path = .ok content
          ∧ (Json.parse? (String.ofList content)).bind ofJson? = some report := by
  unfold read
  cases tree.readText path <;> simp

end Vetting.PromotionReport
