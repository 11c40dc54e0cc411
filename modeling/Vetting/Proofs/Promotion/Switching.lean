import Vetting.Proofs.Promotion.Concurrency
import Vetting.Proofs.Promotion.ReservedNames

/-! What can be seen of a promotion while it runs. The required files are switched one after another, in
their order: those whose turn has been hold the bytes of the draft, the others are as they were, and
only the place of the one whose turn it is may be empty. They are not switched all at once.
-/

namespace Vetting

open FileTree

namespace PromotionGate

variable {gate : PromotionGate} {tree middle between after : FileTree} {name : Bytes}

-----------------------------------------------------------------------------------------
-- Writing a report leaves the required files alone
-----------------------------------------------------------------------------------------

/-- No required file has a name that a report has, or that it has while it is written. -/
def Unnamed (gate : PromotionGate) : Prop :=
  ∀ path ∈ gate.rules.requiredFiles,
    SafePath.names path ≠ [PromotionReport.name]
    ∧ ∀ rest, SafePath.names path ≠ [Path.bytesOf ".tmp" ++ rest]

/-- A tree on which a gate can work: no link has come to stand on its ways. -/
structure Open (gate : PromotionGate) (tree between : FileTree) : Prop where
  wellFormed : between.WellFormed
  here : between.here = tree.here
  linkFree : ∀ way ∈ gate.ways, between.LinkFree (gate.outputRoot.start tree.here) way

/-- The path of a name in the output directory leads to that name. -/
theorem Open.resolve_join (isOpen : gate.Open tree between) {last : Bytes}
    (proper : Path.IsName last) {place : Place}
    (resolved : between.resolve false (gate.outputRoot.join last) = .ok place)
    : place = gate.outputPlace tree ++ [last] := by
  have starts : (gate.outputRoot.join last).start between.here = gate.outputRoot.start tree.here := by
    rw [Path.start, Path.start, Path.isAbsolute_join _ proper, isOpen.here]
  have free := isOpen.linkFree _ List.mem_cons_self
  rw [LinkFree.resolve_eq (by simpa using free) (by simp) starts
    (Path.names_join proper) resolved, foldl_outputPlace (by simpa using proper)]

/-- A change has left alone what stands at and below the places of the required files. -/
structure Untouched (gate : PromotionGate) (tree between after : FileTree) : Prop
    extends gate.Open tree after where
  goals
    : ∀ path ∈ gate.destinations,
        ∀ way,
          after.get? (gate.goal tree path ++ way) = between.get? (gate.goal tree path ++ way)

theorem Untouched.refl (isOpen : gate.Open tree between)
    : gate.Untouched tree between between :=
  ⟨isOpen, fun _ _ _ => rfl⟩

theorem Untouched.trans (first : gate.Untouched tree middle between)
    (second : gate.Untouched tree between after)
    : gate.Untouched tree middle after :=
  ⟨second.toOpen, fun path listed way =>
    (second.goals path listed way).trans (first.goals path listed way)⟩

/-- What stands below a place of one name, at or below the place of a required file that has not that
name, is nothing when no directory stands there.
-/
theorem get?_below_name {path : String} (listed : path ∈ gate.destinations) {last : Bytes}
    (other : SafePath.names path ≠ [last]) {way rest : Place}
    (inside : gate.outputPlace tree ++ [last] ++ rest = gate.goal tree path ++ way)
    : rest ≠ [] := by
  rintro rfl
  have some := (mem_destinations.mp listed).2
  rw [List.append_nil, goal, List.append_assoc, List.append_cancel_left_eq] at inside
  cases names : SafePath.names path with
  | nil => exact some names
  | cons first others =>
      rw [names] at inside other
      have tail := (List.cons.inj inside).2
      obtain ⟨rfl, -⟩ := List.append_eq_nil_iff.mp tail.symm
      exact other (by rw [(List.cons.inj inside).1])

/-- A change at some names in the output directory that no required file has leaves the required files
alone, when no directory stood there and nothing but files comes there.
-/
theorem Open.untouched (isOpen : gate.Open tree between) (lasts : List Bytes)
    (wellFormed : after.WellFormed) (here : after.here = between.here)
    (others : ∀ last ∈ lasts, ∀ path ∈ gate.destinations, SafePath.names path ≠ [last])
    (old
      : ∀ last ∈ lasts,
          ∀ mode, between.get? (gate.outputPlace tree ++ [last]) ≠ some (.directory mode))
    (new
      : ∀ last ∈ lasts,
          ∀ entry, after.get? (gate.outputPlace tree ++ [last]) = some entry → entry.isFile)
    (same
      : ∀ place,
          (∀ last ∈ lasts, ¬ gate.outputPlace tree ++ [last] <+: place)
          → after.get? place = between.get? place)
    : gate.Untouched tree between after := by
  have none : ∀ last ∈ lasts, ∀ rest, rest ≠ [] →
      after.get? (gate.outputPlace tree ++ [last] ++ rest) = none := by
    refine fun last member rest further => wellFormed.below_none further fun mode found => ?_
    simpa [Entry.isFile] using new last member _ found
  refine ⟨⟨wellFormed, here.trans isOpen.here, ?_⟩, fun path listed way => ?_⟩
  · intro way member front some isFront target link
    by_cases inside
        : ∃ last ∈ lasts,
            gate.outputPlace tree ++ [last] <+: front.foldl step (gate.outputRoot.start tree.here)
    · obtain ⟨last, member, rest, split⟩ := inside
      rw [← split] at link
      by_cases here : rest = []
      · rw [here, List.append_nil] at link
        simpa [Entry.isFile] using new last member _ link
      · exact absurd ((none last member rest here).symm.trans link) (by simp)
    · rw [same _ fun last member isFront => inside ⟨last, member, isFront⟩] at link
      exact isOpen.linkFree way member front some isFront target link
  · by_cases inside : ∃ last ∈ lasts, gate.outputPlace tree ++ [last] <+: gate.goal tree path ++ way
    · obtain ⟨last, member, rest, split⟩ := inside
      have further := get?_below_name listed (others last member path listed) split
      rw [← split, none last member rest further,
        isOpen.wellFormed.below_none further (old last member)]
    · exact same _ fun last member isFront => inside ⟨last, member, isFront⟩

-----------------------------------------------------------------------------------------
-- Writing a report
-----------------------------------------------------------------------------------------

/-- Making the output directory leaves the required files alone. -/
theorem Open.createDirectories (isOpen : gate.Open tree between) (aside : gate.Aside tree)
    {answer : Except FileFault Unit}
    (ends : (Operation.createDirectories gate.outputRoot).Ends between answer after)
    : gate.Untouched tree between after := by
  have spares := ends.spares_createDirectories isOpen.wellFormed
    (isOpen.linkFree _ List.mem_cons_self) (fun _ => by rw [Path.start, Path.start, isOpen.here])
    (List.prefix_refl _)
  refine ⟨⟨spares.wellFormed isOpen.wellFormed, spares.here.trans isOpen.here, ?_⟩, ?_⟩
  · exact fun way member => spares.linkFree (isOpen.linkFree way member) fun _ _ => id
  · intro path listed way
    refine spares.get?_eq id ?_
    rintro ⟨front, isFront, passed⟩
    exact aside front isFront path listed (passed ▸ List.prefix_append _ _)

/-- A new report stands in the output directory under a name of its own. -/
structure Noted (gate : PromotionGate) (tree : FileTree) (written : Path) (between : FileTree)
    : Prop
    extends gate.Open tree between where
  stands
    : ∃ rest content mode,
        Path.slash ∉ rest
        ∧ written = gate.outputRoot.join (Path.bytesOf ".tmp" ++ rest)
        ∧ between.get? (gate.outputPlace tree ++ [Path.bytesOf ".tmp" ++ rest])
          = some (.file content mode)

theorem Unnamed.temporary (unnamed : gate.Unnamed) (rest : Bytes)
    : ∀ path ∈ gate.destinations, SafePath.names path ≠ [Path.bytesOf ".tmp" ++ rest] :=
  fun path listed => (unnamed path (mem_destinations.mp listed).1).2 rest

/-- Writing a new report leaves the required files alone. -/
theorem Open.writeScratch (isOpen : gate.Open tree between) (unnamed : gate.Unnamed)
    {content : Bytes} {written : Path}
    (ends
      : (Operation.writeScratch gate.outputRoot (Path.bytesOf ".tmp") content).Ends between
          (.ok written) after)
    : gate.Noted tree written after ∧ gate.Untouched tree between after := by
  obtain ⟨rest, noSlash, rfl, wrote⟩ := ends
  obtain ⟨place, created⟩ := isOpen.wellFormed.create wrote
  obtain rfl := isOpen.resolve_join (PromotionReport.isName_temporary noSlash) created.resolved
  have stands := created.get?_eq (gate.outputPlace tree ++ [Path.bytesOf ".tmp" ++ rest])
  rw [if_pos rfl] at stands
  have untouched : gate.Untouched tree between after := by
    refine isOpen.untouched [_] created.wellFormed created.here
      (by simpa using unnamed.temporary rest) (by simp [created.free])
      (by simp [stands, Entry.isFile]) ?_
    intro place outside
    rw [created.get?_eq, if_neg]
    rintro rfl
    exact outside _ List.mem_cons_self (List.prefix_refl _)
  exact ⟨⟨untouched.toOpen, rest, content, _, noSlash, rfl, stands⟩, untouched⟩

/-- Moving a new report to its name leaves the required files alone. -/
theorem Noted.rename {written : Path} (noted : gate.Noted tree written between)
    (unnamed : gate.Unnamed)
    (renamed : between.rename written (PromotionReport.pathIn gate.outputRoot) = .ok after)
    : gate.Untouched tree between after := by
  obtain ⟨rest, content, mode, noSlash, rfl, stands⟩ := noted.stands
  obtain ⟨source, entry, goal, resolved, found, resolvedGoal, moved⟩ :=
    noted.wellFormed.rename renamed
  obtain rfl := noted.resolve_join (PromotionReport.isName_temporary noSlash) resolved
  obtain rfl := noted.resolve_join PromotionReport.isName_name resolvedGoal
  obtain rfl := Option.some.inj (stands.symm.trans found)
  obtain ⟨_, rfl⟩ | ⟨moved, kinds⟩ := moved
  · exact .refl noted.toOpen
  have goal := moved.get?_goal []
  have source := moved.get?_source []
  rw [List.append_nil, List.append_nil, stands] at goal
  rw [List.append_nil] at source
  refine noted.untouched [Path.bytesOf ".tmp" ++ rest, PromotionReport.name] moved.wellFormed
    moved.here ?_ ?_ (by simp [source, goal, Entry.isFile]) ?_
  · simp only [List.mem_cons, List.not_mem_nil, or_false, forall_eq_or_imp, forall_eq]
    exact ⟨unnamed.temporary rest,
      fun path listed => (unnamed path (mem_destinations.mp listed).1).1⟩
  · simp only [List.mem_cons, List.not_mem_nil, or_false, forall_eq_or_imp, forall_eq]
    refine ⟨by simp [stands], fun mode directory => ?_⟩
    exact absurd (kinds _ directory) (by simp [Entry.isDirectory])
  · intro place outside
    exact moved.get?_other (outside _ (by simp)) (outside _ (by simp))

/-- Removing a new report leaves the required files alone. -/
theorem Noted.removeFile {written : Path} (noted : gate.Noted tree written between)
    (unnamed : gate.Unnamed) (gone : between.removeFile written = .ok after)
    : gate.Untouched tree between after := by
  obtain ⟨rest, content, mode, noSlash, rfl, stands⟩ := noted.stands
  obtain ⟨place, entry, resolved, found, _, removed⟩ := noted.wellFormed.removeFile gone
  obtain rfl := noted.resolve_join (PromotionReport.isName_temporary noSlash) resolved
  have none : after.get? (gate.outputPlace tree ++ [Path.bytesOf ".tmp" ++ rest]) = none := by
    simpa using removed.get?_below (by simp) []
  refine noted.untouched [_] removed.wellFormed removed.here
    (by simpa using unnamed.temporary rest) (by simp [stands]) (by simp [none]) ?_
  exact fun place outside => removed.get?_other (outside _ List.mem_cons_self)

/-- A gate that works on a tree alone. -/
def Orderly.precinct (orderly : gate.Orderly tree name) (wf : tree.WellFormed) : Precinct where
  gate := gate
  name := name
  base := tree
  core := tree
  foreign _ := False
  foreignMade _ := False
  wellFormed := wf
  fresh := orderly.fresh
  unparked := orderly.unparked
  straight := orderly.straight
  aside := orderly.aside
  apart := orderly.apart
  coreHere := rfl
  inCore _ _ found := ⟨found, id⟩
  ownForeign _ _ := ⟨id, id⟩
  waysForeign _ _ := id

/-- At and below the place of a required file stands what stood there before. -/
def Unchanged (gate : PromotionGate) (tree between : FileTree) (path : String) : Prop :=
  ∀ way, between.get? (gate.goal tree path ++ way) = tree.get? (gate.goal tree path ++ way)

/-- A file stands at the place of a required file, with the bytes of the draft. -/
def FromDraft (gate : PromotionGate) (tree between : FileTree) (path : String) : Prop :=
  ∃ source content mode,
    SafePath.resolve gate.draftRoot path = .ok source
    ∧ tree.readFile source = .ok content
    ∧ between.get? (gate.goal tree path) = some (.file content mode)

/-- Some required files hold the bytes of the draft, and the others are as they were, but for the first
of these, in whose place nothing may stand; and their paths lead to their places.
-/
structure Underway (gate : PromotionGate) (tree between : FileTree) (done rest : List String)
    : Prop where
  order : gate.destinations = done ++ rest
  leads
    : ∀ path ∈ gate.destinations,
        ∀ place,
          between.resolve false (gate.outputRoot.below (SafePath.names path)) = .ok place
          → place = gate.goal tree path
  drafted : ∀ path ∈ done, gate.FromDraft tree between path
  turn
    : ∀ path,
        rest.head? = some path
        → gate.Unchanged tree between path
          ∨ ∀ way, between.get? (gate.goal tree path ++ way) = none
  unchanged : ∀ path ∈ rest.tail, gate.Unchanged tree between path

variable {done rest : List String}

theorem Open.leads (isOpen : gate.Open tree between) {path : String}
    (listed : path ∈ gate.destinations) {place : Place}
    (resolved
      : between.resolve false (gate.outputRoot.below (SafePath.names path)) = .ok place)
    : place = gate.goal tree path :=
  resolve_goal isOpen.linkFree isOpen.here listed resolved

/-- Before anything has changed, all required files are as they were. -/
theorem Open.underway (isOpen : gate.Open tree tree)
    : gate.Underway tree tree [] gate.destinations :=
  ⟨rfl, fun _ listed _ => isOpen.leads listed, by simp, fun _ _ => Or.inl fun _ => rfl,
    fun _ _ _ => rfl⟩

/-- A change that leaves the required files alone switches none. -/
theorem Underway.untouched (underway : gate.Underway tree middle done rest)
    (untouched : gate.Untouched tree middle between)
    : gate.Underway tree between done rest where
  order := underway.order
  leads _ listed _ := untouched.leads listed
  drafted := by
    intro path member
    obtain ⟨source, content, mode, resolved, read, stands⟩ := underway.drafted path member
    have listed : path ∈ gate.destinations := by simp [underway.order, member]
    have same := untouched.goals path listed []
    rw [List.append_nil, stands] at same
    exact ⟨source, content, mode, resolved, read, same⟩
  turn := by
    intro path first
    have listed : path ∈ gate.destinations := by
      simp [underway.order, List.mem_of_head? first]
    refine (underway.turn path first).imp (fun unchanged way => ?_) fun vacant way => ?_
    · exact (untouched.goals path listed way).trans (unchanged way)
    · exact (untouched.goals path listed way).trans (vacant way)
  unchanged := by
    intro path member way
    have listed : path ∈ gate.destinations := by
      simp [underway.order, List.mem_of_mem_tail member]
    exact (untouched.goals path listed way).trans (underway.unchanged path member way)

/-- Required files that have been switched hold the bytes of the draft, which can be read. -/
theorem Orderly.underway (orderly : gate.Orderly tree name) (wf : tree.WellFormed)
    (readable
      : ∀ path ∈ gate.rules.requiredFiles,
          ∃ source content,
            SafePath.resolve gate.draftRoot path = .ok source ∧ tree.readFile source = .ok content)
    (switched : (orderly.precinct wf).Switched between done rest)
    : gate.Underway tree between done rest where
  order := switched.order
  leads _ listed _ := switched.resolve_target listed
  drafted := by
    intro path member
    obtain ⟨_, content, mode, stands, same⟩ := switched.delivered path member
    have listed : path ∈ gate.destinations := by
      have order : gate.destinations = done ++ rest := switched.order
      simp [order, member]
    obtain ⟨source, bytes, resolved, read⟩ := readable path (mem_destinations.mp listed).1
    obtain rfl := same bytes ⟨source, resolved, read⟩
    exact ⟨source, content, mode, resolved, read, stands⟩
  turn := switched.first
  unchanged := switched.others

-----------------------------------------------------------------------------------------
-- Runs of a gate
-----------------------------------------------------------------------------------------

variable {found : Inspection} {conduct : Conduct}

end PromotionGate

end Vetting
