import Vetting.Host.Probe
import Vetting.Proofs.Files.PathNames

/-! What a probe answers while files change. When it is first asked about a tool, it takes a snapshot of
where that tool is; all that it says about the tool is read off this snapshot, whatever becomes of the
files and whichever other tools it is asked about.
-/

namespace Vetting

-----------------------------------------------------------------------------------------
-- Where a tool is found
-----------------------------------------------------------------------------------------

/-- The first of some paths of which something holds; none when it holds of none of them. -/
def Path.IsFirst (holds : Path → Prop) (paths : List Path) : Option Path → Prop
  | none => ∀ path ∈ paths, ¬ holds path
  | some path =>
      holds path
      ∧ ∃ before after, paths = before ++ path :: after ∧ ∀ other ∈ before, ¬ holds other

theorem Path.isFirst_iff {holds : Path → Prop} {test : Path → Bool} {paths : List Path}
    {found : Option Path} (tests : ∀ path, test path = true ↔ holds path)
    : IsFirst holds paths found ↔ paths.find? test = found := by
  cases found with
  | none => simp only [IsFirst, List.find?_eq_none, tests]
  | some path => simp only [IsFirst, List.find?_eq_some_iff_append, Bool.not_eq_true', ← tests,
      Bool.not_eq_true]

/-- What a tool has to be at a path: an archive is a regular file, a program one that somebody may run.
-/
def Tool.IsAt (tree : FileTree) (path : Path) : Tool → Prop
  | .plantUmlJar =>
      ∃ place content mode, tree.lookup true path = .ok (place, .file content mode)
  | _ =>
      ∃ place content mode,
        tree.lookup true path = .ok (place, .file content mode) ∧ mode &&& 0o111 ≠ 0

namespace SearchPlaces

variable {places : SearchPlaces} {tree : FileTree} {tool : Tool} {found : Option Path}

/-- The paths at which a tool is looked for, in their order: where the archive may be, and else the name
of the tool in each directory of the search path, which has colons between them.
-/
inductive Candidates (places : SearchPlaces) : Tool → List Path → Prop
  | archive : Candidates places .plantUmlJar places.jars
  | noSearchPath {tool : Tool} (program : tool ≠ .plantUmlJar) (unset : places.searchPath = none)
    : Candidates places tool []
  | searchPath {tool : Tool} {directories : List Bytes} (program : tool ≠ .plantUmlJar)
    (some : directories ≠ []) (noColon : ∀ directory ∈ directories, colon ∉ directory)
    (set : places.searchPath = .some ([colon].intercalate directories))
    : Candidates places tool
        (directories.map fun directory => (Path.mk directory).join (Path.bytesOf tool.name))

/-- Where a tool is found in a tree: at the first of its paths that has it, or nowhere. -/
def Finds (places : SearchPlaces) (tree : FileTree) (tool : Tool) (found : Option Path) : Prop :=
  ∃ candidates, places.Candidates tool candidates ∧ Path.IsFirst (tool.IsAt tree) candidates found

theorem isFile_iff (path : Path) : tree.isFile path = true ↔ Tool.IsAt tree path .plantUmlJar := by
  unfold FileTree.isFile Tool.IsAt
  rcases tree.lookup true path with fault | ⟨place, entry⟩
  · simp
  · cases entry <;> simp [Entry.isFile]

theorem isExecutable_iff (program : tool ≠ .plantUmlJar) (path : Path)
    : isExecutable tree path = true ↔ Tool.IsAt tree path tool := by
  have isAt : Tool.IsAt tree path tool
      ↔ ∃ place content mode,
          tree.lookup true path = .ok (place, .file content mode) ∧ mode &&& 0o111 ≠ 0 := by
    cases tool <;> first | rfl | exact absurd rfl program
  rw [isAt]
  unfold isExecutable
  rcases tree.lookup true path with fault | ⟨place, entry⟩
  · simp
  · cases entry <;> simp [Entry.isExecutable]

theorem find_program (program : tool ≠ .plantUmlJar)
    : places.find tree tool
      = (places.directories.map fun directory => directory.join (Path.bytesOf tool.name)).find?
          (isExecutable tree) := by
  cases tool <;> first | rfl | exact absurd rfl program

/-- The directories of a search path are those with colons between them. -/
theorem directories_eq {directories : List Bytes} (some : directories ≠ [])
    (noColon : ∀ directory ∈ directories, colon ∉ directory)
    (set : places.searchPath = .some ([colon].intercalate directories))
    : places.directories = directories.map Path.mk := by
  simp only [SearchPlaces.directories, set, Path.pieces_eq_splitOn,
    List.splitOn_intercalate colon noColon some]

theorem finds_of_candidates {candidates : List Path} (listed : places.Candidates tool candidates)
    : Path.IsFirst (tool.IsAt tree) candidates found ↔ places.find tree tool = found := by
  cases listed with
  | archive => exact Path.isFirst_iff isFile_iff
  | noSearchPath program unset =>
      rw [find_program program, directories, unset]
      exact Path.isFirst_iff (isExecutable_iff program)
  | searchPath program some noColon set =>
      rw [find_program program, directories_eq some noColon set, List.map_map]
      exact Path.isFirst_iff (isExecutable_iff program)

theorem exists_candidates (places : SearchPlaces) (tool : Tool)
    : ∃ candidates, places.Candidates tool candidates := by
  by_cases program : tool = .plantUmlJar
  · subst program
    exact ⟨_, .archive⟩
  · cases searched : places.searchPath with
    | none => exact ⟨_, .noSearchPath program searched⟩
    | some bytes =>
        have noColon : ∀ directory ∈ bytes.splitOn colon, colon ∉ directory := by
          intro directory member
          rw [← Path.pieces_eq_splitOn] at member
          exact Path.not_mem_of_mem_pieces member
        have set : places.searchPath = some ([colon].intercalate (bytes.splitOn colon)) := by
          rw [List.intercalate_splitOn, searched]
        exact ⟨_, .searchPath program (List.splitOn_ne_nil _ _) noColon set⟩

/-- A tool is found where it is at the first of its paths. -/
theorem finds_iff : places.Finds tree tool found ↔ places.find tree tool = found := by
  constructor
  · rintro ⟨candidates, listed, first⟩
    exact (finds_of_candidates listed).mp first
  · intro same
    obtain ⟨candidates, listed⟩ := places.exists_candidates tool
    exact ⟨candidates, listed, (finds_of_candidates listed).mpr same⟩

end SearchPlaces

namespace Probe

-----------------------------------------------------------------------------------------
-- Runs of queries and changes
-----------------------------------------------------------------------------------------

/-- What a probe can be asked. -/
inductive Query where
  | locate (tool : Tool)
  | isAvailable (tool : Tool)
  | availability
  deriving DecidableEq, Repr

/-- What is said about one tool. -/
inductive Answer where
  | location (found : Option Path)
  | presence (there : Bool)
  deriving DecidableEq, Repr

namespace Query

/-- The tools that a query is about. -/
def tools : Query → List Tool
  | locate tool => [tool]
  | isAvailable tool => [tool]
  | availability => Tool.all

/-- What a query is answered about each of its tools, when a snapshot shows where the tools are. -/
def answers (snapshot : Tool → Option Path) : Query → List (Tool × Answer)
  | locate tool => [(tool, .location (snapshot tool))]
  | isAvailable tool => [(tool, .presence (snapshot tool).isSome)]
  | availability => Tool.all.map fun tool => (tool, .presence (snapshot tool).isSome)

/-- What is left of a query when nothing is asked about other tools. -/
def about (tool : Tool) : Query → List Query
  | locate other => if other = tool then [locate tool] else []
  | isAvailable other => if other = tool then [isAvailable tool] else []
  | availability => [isAvailable tool]

end Query

/-- Asks a probe while the files are those of a tree. -/
def ask (probe : Probe) (tree : FileTree) : Query → List (Tool × Answer) × Probe
  | .locate tool =>
      let (found, next) := probe.locate tree tool
      ([(tool, .location found)], next)
  | .isAvailable tool =>
      let (there, next) := probe.isAvailable tree tool
      ([(tool, .presence there)], next)
  | .availability =>
      let (rows, next) := probe.availability tree
      (rows.map fun row => (row.1, .presence row.2), next)

/-- What happens while a probe is in use. -/
inductive Event where
  /-- The files become others, whichever. -/
  | change (tree : FileTree)
  | ask (query : Query)
  deriving DecidableEq, Repr

/-- What is left of an event when nothing is asked about other tools. -/
def Event.about (tool : Tool) : Event → List Event
  | change tree => [change tree]
  | ask query => (query.about tool).map ask

/-- The answers of a probe to the queries of a run that starts with some files. -/
def replies (probe : Probe) (tree : FileTree) : List Event → List (List (Tool × Answer))
  | [] => []
  | .change after :: rest => probe.replies after rest
  | .ask query :: rest =>
      let (answers, next) := probe.ask tree query
      answers :: next.replies tree rest

/-- The queries of a run, each with the files of its moment. -/
def moments (tree : FileTree) : List Event → List (FileTree × Query)
  | [] => []
  | .change after :: rest => moments after rest
  | .ask query :: rest => (tree, query) :: moments tree rest

variable {probe next last : Probe} {tree : FileTree} {query : Query} {tool : Tool}

-----------------------------------------------------------------------------------------
-- One query
-----------------------------------------------------------------------------------------

/-- What a probe answers about a tool now: what it knows, or else what it finds. -/
def view (probe : Probe) (tree : FileTree) (tool : Tool) : Option Path :=
  (probe.known.lookup tool).getD (probe.places.find tree tool)

/-- Some tools have been looked for in a tree; of these a probe knows what it answered, and of the others
what it knew before.
-/
structure Learns (tree : FileTree) (tools : List Tool) (probe next : Probe) : Prop where
  places : next.places = probe.places
  lookup
    : ∀ tool,
        next.known.lookup tool
        = if tool ∈ tools then some (probe.view tree tool) else probe.known.lookup tool

/-- In the same tree it goes on to answer the same. -/
theorem Learns.view_eq {tools : List Tool} (learns : Learns tree tools probe next)
    : next.view tree = probe.view tree := by
  funext tool
  rw [view, learns.lookup, learns.places]
  split
  · rfl
  · rw [view]

theorem Learns.append {one two : List Tool} (first : Learns tree one probe next)
    (second : Learns tree two next last)
    : Learns tree (one ++ two) probe last := by
  refine ⟨second.places.trans first.places, fun tool => ?_⟩
  rw [second.lookup, first.view_eq, first.lookup]
  by_cases early : tool ∈ one <;> by_cases late : tool ∈ two <;> simp [early, late]

theorem locate_eq (probe : Probe) (tree : FileTree) (tool : Tool)
    : (probe.locate tree tool).1 = probe.view tree tool
      ∧ Learns tree [tool] probe (probe.locate tree tool).2 := by
  unfold locate
  cases known : probe.known.lookup tool with
  | some found =>
      refine ⟨by simp [view, known], rfl, fun other => ?_⟩
      by_cases same : other = tool
      · simp [same, view, known]
      · simp [same]
  | none =>
      refine ⟨by simp [view, known], rfl, fun other => ?_⟩
      by_cases same : other = tool
      · simp [same, view, known]
      · simp [same, List.lookup_cons, beq_eq_false_iff_ne.mpr same]

/-- Each of several tools is answered what is known or found when the first of them is looked for, by
induction on the tools.
-/
theorem locateAll_eq (probe : Probe) (tree : FileTree) (tools : List Tool)
    : (probe.locateAll tree tools).1 = (tools.map fun tool => (tool, probe.view tree tool))
      ∧ Learns tree tools probe (probe.locateAll tree tools).2 := by
  induction tools generalizing probe with
  | nil => exact ⟨rfl, rfl, fun tool => by simp [locateAll]⟩
  | cons tool rest ih =>
      obtain ⟨found, learns⟩ := probe.locate_eq tree tool
      obtain ⟨others, onward⟩ := ih (probe.locate tree tool).2
      rw [learns.view_eq] at others
      refine ⟨?_, learns.append onward⟩
      simp only [locateAll, found, others, List.map_cons]

/-- A query is answered from what is known or found now, and this is known from then on. -/
theorem ask_eq (probe : Probe) (tree : FileTree) (query : Query)
    : (probe.ask tree query).1 = query.answers (probe.view tree)
      ∧ Learns tree query.tools probe (probe.ask tree query).2 := by
  cases query with
  | locate tool =>
      obtain ⟨found, learns⟩ := probe.locate_eq tree tool
      exact ⟨by simp only [ask, found, Query.answers], learns⟩
  | isAvailable tool =>
      obtain ⟨found, learns⟩ := probe.locate_eq tree tool
      exact ⟨by simp only [ask, isAvailable, found, Query.answers], learns⟩
  | availability =>
      obtain ⟨found, learns⟩ := probe.locateAll_eq tree Tool.all
      refine ⟨?_, learns⟩
      simp only [ask, availability, found, Query.answers, List.map_map]
      rfl

-----------------------------------------------------------------------------------------
-- A whole run
-----------------------------------------------------------------------------------------

/-- What the first of some queries that is about a tool finds. -/
def firstFound (places : SearchPlaces) (asked : List (FileTree × Query)) (tool : Tool)
    : Option Path :=
  (asked.find? fun moment => tool ∈ moment.2.tools).bind fun moment => places.find moment.1 tool

/-- What a probe answers about a tool in the course of some queries. -/
def snapshot (probe : Probe) (asked : List (FileTree × Query)) (tool : Tool) : Option Path :=
  (probe.known.lookup tool).getD (firstFound probe.places asked tool)

theorem firstFound_cons (places : SearchPlaces) (asked : List (FileTree × Query))
    : firstFound places ((tree, query) :: asked) tool
      = if tool ∈ query.tools then places.find tree tool else firstFound places asked tool := by
  unfold firstFound
  by_cases about : tool ∈ query.tools <;> simp [about]

theorem Query.answers_congr {one two : Tool → Option Path}
    (same : ∀ tool ∈ query.tools, one tool = two tool)
    : query.answers one = query.answers two := by
  cases query with
  | locate tool => rw [answers, answers, same tool List.mem_cons_self]
  | isAvailable tool => rw [answers, answers, same tool List.mem_cons_self]
  | availability =>
      rw [answers, answers]
      refine List.map_congr_left fun tool listed => ?_
      rw [same tool listed]

/-- All answers in a run are read off one snapshot, by induction on the run: the first query takes the
part of it that is about its tools, and leaves the rest as it is.
-/
theorem replies_eq (probe : Probe) (tree : FileTree) (events : List Event)
    : probe.replies tree events
      = (moments tree events).map fun moment =>
          moment.2.answers (probe.snapshot (moments tree events)) := by
  induction events generalizing probe tree with
  | nil => rfl
  | cons event rest ih =>
      cases event with
      | change after => exact ih probe after
      | ask query =>
          obtain ⟨answered, learns⟩ := probe.ask_eq tree query
          have onward
              : (probe.ask tree query).2.snapshot (moments tree rest)
                = probe.snapshot ((tree, query) :: moments tree rest) := by
            funext tool
            rw [snapshot, snapshot, learns.lookup, learns.places, firstFound_cons]
            split
            · rfl
            · rfl
          simp only [replies, moments, List.map_cons, answered, ih, onward]
          congr 1
          refine Query.answers_congr fun tool about => ?_
          rw [view, snapshot, firstFound_cons, if_pos about]

theorem snapshot_fresh (places : SearchPlaces) (asked : List (FileTree × Query))
    : (fresh places).snapshot asked = firstFound places asked := rfl

-----------------------------------------------------------------------------------------
-- Queries about one tool
-----------------------------------------------------------------------------------------

/-- The queries of a run that is about one tool only are what is left of those of the whole run, by
induction on the run.
-/
theorem moments_about (tool : Tool) (tree : FileTree) (events : List Event)
    : moments tree (events.flatMap (Event.about tool))
      = (moments tree events).flatMap fun moment =>
          (moment.2.about tool).map fun query => (moment.1, query) := by
  have asks (tree : FileTree) (queries : List Query) (others : List Event)
      : moments tree (queries.map Event.ask ++ others)
        = queries.map (fun query => (tree, query)) ++ moments tree others := by
    induction queries with
    | nil => rfl
    | cons query queries more => simp [moments, more]
  induction events generalizing tree with
  | nil => rfl
  | cons event rest ih =>
      cases event with
      | change after => exact ih after
      | ask query =>
          rw [List.flatMap_cons, Event.about, asks, ih]
          rfl

/-- What is left of a query is about the tool alone, and there is nothing left when the query is not about
the tool.
-/
theorem Query.tools_of_mem_about {part : Query} (left : part ∈ query.about tool)
    : part.tools = [tool] := by
  cases query with
  | locate other | isAvailable other =>
      rw [about] at left
      split at left
      · rw [List.mem_singleton.mp left]
        rfl
      · exact absurd left List.not_mem_nil
  | availability =>
      rw [List.mem_singleton.mp left]
      rfl

theorem Query.about_eq_nil (query : Query) (tool : Tool)
    : query.about tool = [] ↔ tool ∉ query.tools := by
  cases query with
  | locate other | isAvailable other =>
      simp [about, tools, eq_comm]
  | availability => cases tool <;> simp [about, tools, Tool.all]

/-- The first query about a tool finds the same when nothing is asked about other tools, by induction on
the queries.
-/
theorem firstFound_about (places : SearchPlaces) (asked : List (FileTree × Query)) (tool : Tool)
    : firstFound places
        (asked.flatMap fun moment => (moment.2.about tool).map fun query => (moment.1, query)) tool
      = firstFound places asked tool := by
  induction asked with
  | nil => rfl
  | cons moment rest ih =>
      obtain ⟨tree, query⟩ := moment
      rw [List.flatMap_cons, firstFound_cons]
      cases left : query.about tool with
      | nil => rw [if_neg ((query.about_eq_nil tool).mp left), ← ih, List.map_nil, List.nil_append]
      | cons part others =>
          have about : tool ∈ query.tools := by
            by_contra absent
            rw [(query.about_eq_nil tool).mpr absent] at left
            cases left
          have alone : part.tools = [tool] :=
            Query.tools_of_mem_about (left ▸ List.mem_cons_self)
          rw [if_pos about, List.map_cons, List.cons_append, firstFound_cons, alone,
            if_pos List.mem_cons_self]

/-- What a query is answered about a tool is what is left of the query is answered. -/
theorem Query.filter_answers (query : Query) {one two : Tool → Option Path}
    (same : one tool = two tool)
    : ((query.answers one).filter fun answer => answer.1 = tool)
      = (query.about tool).flatMap (answers two) := by
  cases query with
  | locate other =>
      by_cases it : other = tool
      · subst it
        simp [answers, about, same]
      · simp [answers, about, it]
  | isAvailable other =>
      by_cases it : other = tool
      · subst it
        simp [answers, about, same]
      · simp [answers, about, it]
  | availability => cases tool <;> simp [answers, about, Tool.all, same]

/-- Every answer about a tool is read off one snapshot, which is where the first query about this tool
finds it; and what is asked about other tools makes no difference to it.
-/
theorem answers_of_snapshot (places : SearchPlaces) (tree : FileTree) (events : List Event)
    : (∃ snapshot : Tool → Option Path,
        (fresh places).replies tree events
          = (moments tree events).map (fun moment => moment.2.answers snapshot)
        ∧ ∀ tool before first after,
            moments tree events = before ++ first :: after
            → (∀ earlier ∈ before, tool ∉ earlier.2.tools)
            → tool ∈ first.2.tools
            → places.Finds first.1 tool (snapshot tool))
      ∧ ∀ tool,
          (((fresh places).replies tree events).flatten.filter fun answer => answer.1 = tool)
          = ((fresh places).replies tree (events.flatMap (Event.about tool))).flatten := by
  refine ⟨⟨_, replies_eq _ _ _, ?_⟩, fun tool => ?_⟩
  · intro tool before first after split unasked about
    rw [snapshot_fresh, SearchPlaces.finds_iff, firstFound, split,
      List.find?_append, List.find?_eq_none.mpr (by simpa using unasked)]
    simp [about]
  · rw [replies_eq, replies_eq, moments_about, snapshot_fresh, snapshot_fresh]
    generalize moments tree events = asked
    have same := firstFound_about places asked tool
    rw [← List.flatMap_def, ← List.flatMap_def, List.filter_flatMap, List.flatMap_assoc]
    refine congrArg (asked.flatMap ·) (funext fun moment => ?_)
    rw [List.flatMap_map]
    exact moment.2.filter_answers same.symm

/-- A search path with two directories, and one place for the archive. -/
def twoDirectories : SearchPlaces :=
  ⟨some (Path.bytesOf "bin:opt"), [Path.ofString "plantuml.jar"]⟩

/-- Two files in the directories, of which the second may be run. -/
def twoFiles : FileTree where
  entries := [([Path.bytesOf "bin"], .directory 0o755), ([Path.bytesOf "opt"], .directory 0o755),
    ([Path.bytesOf "bin", Path.bytesOf "java"], .file [] 0o644),
    ([Path.bytesOf "opt", Path.bytesOf "java"], .file [] 0o755)]
  here := []

/-- The archive alone. -/
def onlyArchive : FileTree := ⟨[([Path.bytesOf "plantuml.jar"], .file [] 0o644)], []⟩

/-- The archive comes and the program goes between queries. -/
def exchanged : List Event :=
  [.ask (.isAvailable .plantUmlJar), .ask (.locate .java), .change onlyArchive,
    .ask (.locate .java), .ask .availability]

theorem answers_of_snapshot_exchanged
    : (fresh twoDirectories).replies twoFiles exchanged
        = [[(.plantUmlJar, .presence false)],
          [(.java, .location (some (Path.ofString "opt/java")))],
          [(.java, .location (some (Path.ofString "opt/java")))],
          Tool.all.map fun tool => (tool, .presence (tool == .java))]
      ∧ (fresh twoDirectories).replies onlyArchive [.ask .availability]
        = [Tool.all.map fun tool => (tool, .presence (tool == .plantUmlJar))]
      ∧ ∃ snapshot,
          (fresh twoDirectories).replies twoFiles exchanged
            = (moments twoFiles exchanged).map (fun moment => moment.2.answers snapshot)
          ∧ twoDirectories.Finds twoFiles .java (snapshot .java)
          ∧ twoDirectories.Finds twoFiles .plantUmlJar (snapshot .plantUmlJar) := by
  obtain ⟨⟨snapshot, read, found⟩, -⟩ := answers_of_snapshot twoDirectories twoFiles exchanged
  refine ⟨by decide +kernel, by decide +kernel, snapshot, read, ?_, ?_⟩
  · exact found .java [(twoFiles, .isAvailable .plantUmlJar)] (twoFiles, .locate .java) _ rfl
      (by simp [Query.tools]) List.mem_cons_self
  · exact found .plantUmlJar [] (twoFiles, .isAvailable .plantUmlJar) _ rfl nofun
      List.mem_cons_self

end Probe

end Vetting
