import Mathlib.Data.List.Pairwise
import Vetting.Proofs.Promotion.Precinct
import Vetting.Proofs.Promotion.Securing

/-! The phases of a promotion that works among others: it waits, gathers copies, exchanges files one
after another, and takes exchanges back when one fails. What holds in a phase is told by the places in
which the promotion works, by its ways, and by the draft, so it goes on to hold while others work
elsewhere.
-/

namespace Vetting

open FileTree
open FileProgram (Terms)

-----------------------------------------------------------------------------------------
-- How operations end
-----------------------------------------------------------------------------------------

/-- What is relied on in a promotion: copies hold the bytes of their sources, and the directory for
copies has a known path. Every operation may fail, but moving back what was set aside, and removing a
required file, fail only where the tree does not allow it.
-/
def Operation.Reversible (gate : PromotionGate) (name : Bytes) (tree : FileTree)
    : (op : Operation) → Except FileFault op.Answer → FileTree → Prop
  | .createScratch _ _, .ok path, _ => path = gate.outputRoot.join name
  | .copyFile source target, .ok (), after =>
      ∃ place content mode,
        tree.readFile source = .ok content ∧ tree.Written target place content mode after
  | .rename source target, .error _, _ =>
      (∃ index, source = PromotionRoute.parkingPlace (gate.outputRoot.join name) index)
      → ∀ other, tree.rename source target ≠ .ok other
  | .removeFile path, .error _, _ =>
      (∃ required ∈ gate.rules.requiredFiles, SafePath.resolve gate.outputRoot required = .ok path)
      → ∀ other, tree.removeFile path ≠ .ok other
  | _, _, _ => True

/-- Operations end in every way they may in which copies are faithful, and moves are undone where the
tree allows it.
-/
def PromotionGate.reversible (gate : PromotionGate) (name : Bytes) : Conduct :=
  fun tree op answer after => op.Ends tree answer after ∧ op.Reversible gate name tree answer after

-----------------------------------------------------------------------------------------
-- Precincts
-----------------------------------------------------------------------------------------

/-- The part of a tree in which a promotion works among others: the tree before it, what of that tree
the others leave alone, and where the others work and make directories. The others work neither where
the promotion does nor on its ways.
-/
structure Precinct where
  gate : PromotionGate
  name : Bytes
  base : FileTree
  core : FileTree
  foreign : Place → Prop
  foreignMade : Place → Prop
  wellFormed : base.WellFormed
  fresh : gate.Fresh base name
  unparked : gate.Unparked
  straight : gate.Straight base
  aside : gate.Aside base
  apart : gate.destinations.Pairwise SafePath.Apart
  coreHere : core.here = base.here
  inCore
    : ∀ place entry,
        core.get? place = some entry → base.get? place = some entry ∧ ¬ foreign place
  ownForeign : ∀ place, gate.Owns base name place → ¬ foreign place ∧ ¬ foreignMade place
  waysForeign : ∀ place, gate.Passes base place → ¬ foreign place

namespace Precinct

variable (precinct : Precinct)

/-- Where the paths of the gate start. -/
def start : Place := precinct.gate.outputRoot.start precinct.base.here

/-- Where a required file belongs. -/
def goal (path : String) : Place := precinct.gate.goal precinct.base path

/-- The place of the directory for copies. -/
def staging : Place := precinct.gate.outputPlace precinct.base ++ [precinct.name]

/-- The path of the directory for copies. -/
def stagingPath : Path := precinct.gate.outputRoot.join precinct.name

/-- Where the copy of a required file stands. -/
def copyPlace (path : String) : Place := precinct.staging ++ SafePath.names path

/-- Where something is set aside. -/
def parking (index : Nat) : Place := precinct.staging ++ [PromotionSite.parkingName index]

/-- Where the promotion works. -/
abbrev Owns (place : Place) : Prop := precinct.gate.Owns precinct.base precinct.name place

/-- Where the ways of the promotion pass. -/
abbrev Passes (place : Place) : Prop := precinct.gate.Passes precinct.base place

/-- The bytes that the draft has for a required path, as they are read where others do not work. -/
def Drafted (path : String) (content : Bytes) : Prop :=
  ∃ source,
    SafePath.resolve precinct.gate.draftRoot path = .ok source
    ∧ precinct.core.readFile source = .ok content

variable {precinct} {path one two : String} {place way : Place} {tree later after : FileTree}

theorem owns_goal (listed : path ∈ precinct.gate.destinations) (way : Place)
    : precinct.Owns (precinct.goal path ++ way) :=
  Or.inr ⟨path, listed, List.prefix_append _ _⟩

theorem owns_staging (way : Place) : precinct.Owns (precinct.staging ++ way) :=
  Or.inl (List.prefix_append _ _)

theorem nonempty (listed : path ∈ precinct.gate.destinations) : SafePath.names path ≠ [] :=
  (PromotionGate.mem_destinations.mp listed).2

theorem required (listed : path ∈ precinct.gate.destinations)
    : path ∈ precinct.gate.rules.requiredFiles :=
  (PromotionGate.mem_destinations.mp listed).1

theorem way_mem (listed : path ∈ precinct.gate.destinations)
    : precinct.gate.outputRoot.written ++ (SafePath.names path).dropLast ∈ precinct.gate.ways :=
  List.mem_cons_of_mem _ (List.mem_map_of_mem (required listed))

theorem apart_of_ne (listed : one ∈ precinct.gate.destinations)
    (listed' : two ∈ precinct.gate.destinations) (other : one ≠ two)
    : SafePath.Apart one two :=
  have : Std.Symm SafePath.Apart := ⟨fun _ _ => SafePath.Apart.symm⟩
  precinct.apart.forall listed listed' other

theorem waysClear : ∀ way ∈ precinct.gate.ways, precinct.name ∉ way :=
  (precinct.fresh.ground precinct.wellFormed).waysClear

/-- The promotion does not work on its own ways. -/
theorem not_owns_of_passes (passes : precinct.Passes place) : ¬ precinct.Owns place := by
  refine PromotionGate.not_owns_of_passes rfl precinct.fresh.start waysClear precinct.aside ?_ passes
  intro one listed two required inside
  have some := nonempty listed
  by_cases same : one = two
  · subst same
    have := inside.length_le
    have := List.length_pos_of_ne_nil some
    simp only [List.length_dropLast] at *
    omega
  · have some' : SafePath.names two ≠ [] := by
      intro none
      rw [none, List.dropLast_nil, List.prefix_nil] at inside
      exact some inside
    have listed' := PromotionGate.mem_destinations.mpr ⟨required, some'⟩
    exact (apart_of_ne listed listed' same).1 (inside.trans (List.dropLast_prefix _))

-----------------------------------------------------------------------------------------
-- Places that do not lie in one another
-----------------------------------------------------------------------------------------

theorem not_goal_goal (apart : SafePath.Apart one two) (way : Place)
    : ¬ precinct.goal one <+: precinct.goal two ++ way :=
  fun inside => PromotionGate.names_of_goal_prefix inside apart

theorem first_name_eq {names others : List Bytes}
    (inside
      : precinct.gate.outputPlace precinct.base ++ names
        <+: precinct.gate.outputPlace precinct.base ++ others) (some : names ≠ [])
    : names.head? = others.head? := by
  obtain ⟨rest, rfl⟩ := (List.prefix_append_right_inj _).mp inside
  rw [List.head?_append_of_ne_nil _ some]

theorem name_not_first (listed : path ∈ precinct.gate.destinations)
    : (SafePath.names path).head? ≠ some precinct.name :=
  fun first => precinct.fresh.required path (required listed) (List.mem_of_head? first)

theorem not_goal_staging (listed : path ∈ precinct.gate.destinations) (way : Place)
    : ¬ precinct.goal path <+: precinct.staging ++ way := by
  intro inside
  rw [goal, PromotionGate.goal, staging, List.append_assoc] at inside
  exact name_not_first listed (first_name_eq inside (nonempty listed))

theorem not_staging_goal (listed : path ∈ precinct.gate.destinations) (way : Place)
    : ¬ precinct.staging <+: precinct.goal path ++ way := by
  intro inside
  rw [goal, PromotionGate.goal, staging, List.append_assoc] at inside
  have same := first_name_eq inside (by simp)
  rw [List.head?_append_of_ne_nil _ (nonempty listed)] at same
  exact name_not_first listed same.symm

theorem not_copy_copy (apart : SafePath.Apart one two) (way : Place)
    : ¬ precinct.copyPlace one <+: precinct.copyPlace two ++ way := by
  intro inside
  rw [copyPlace, copyPlace, List.append_assoc, List.prefix_append_right_inj] at inside
  exact (List.prefix_or_prefix_of_prefix inside (List.prefix_append _ _)).elim apart.1 apart.2

theorem not_parking_copy (listed : path ∈ precinct.gate.destinations) (index : Nat) (way : Place)
    : ¬ precinct.parking index <+: precinct.copyPlace path ++ way := by
  intro inside
  rw [parking, copyPlace, List.append_assoc, List.prefix_append_right_inj] at inside
  obtain ⟨rest, split⟩ := inside
  refine precinct.unparked path (required listed) index ?_
  rw [← List.head?_append_of_ne_nil _ (nonempty listed), ← split]
  rfl

theorem not_copy_parking (listed : path ∈ precinct.gate.destinations) (index : Nat) (way : Place)
    : ¬ precinct.copyPlace path <+: precinct.parking index ++ way := by
  intro inside
  rw [parking, copyPlace, List.append_assoc, List.prefix_append_right_inj] at inside
  obtain ⟨rest, split⟩ := inside
  refine precinct.unparked path (required listed) index ?_
  rw [← List.head?_append_of_ne_nil _ (nonempty listed), split]
  rfl

theorem not_parking_parking {first second : Nat} (other : first ≠ second) (way : Place)
    : ¬ precinct.parking first <+: precinct.parking second ++ way := by
  intro inside
  rw [parking, parking, List.append_assoc, List.prefix_append_right_inj] at inside
  obtain ⟨rest, split⟩ := inside
  exact other (PromotionSite.parkingName_injective (List.cons.inj split).1)

theorem copyPlace_append (path : String) (way : Place)
    : precinct.copyPlace path ++ way = precinct.staging ++ (SafePath.names path ++ way) := by
  rw [copyPlace, List.append_assoc]

theorem parking_append (index : Nat) (way : Place)
    : precinct.parking index ++ way
      = precinct.staging ++ (PromotionSite.parkingName index :: way) := by
  rw [parking, List.append_assoc, List.singleton_append]

-----------------------------------------------------------------------------------------
-- What stands where
-----------------------------------------------------------------------------------------

variable (precinct)

/-- What holds of the tree at all times. -/
structure Standing (tree : FileTree) : Prop where
  wellFormed : tree.WellFormed
  here : tree.here = precinct.base.here
  linkFree : ∀ way ∈ precinct.gate.ways, tree.LinkFree precinct.start way

/-- At and below the place of a required file stands what stood there before. -/
def Kept (tree : FileTree) (path : String) : Prop :=
  ∀ way, tree.get? (precinct.goal path ++ way) = precinct.base.get? (precinct.goal path ++ way)

/-- Directories stand above the place of a required file. -/
def Housed (tree : FileTree) (path : String) : Prop :=
  tree.Founded precinct.start
    (precinct.gate.outputRoot.written ++ (SafePath.names path).dropLast)

/-- Nothing stands at the place of a required file. -/
def Vacant (tree : FileTree) (path : String) : Prop :=
  ∀ way, tree.get? (precinct.goal path ++ way) = none

/-- What stood at the place of a required file has been set aside. -/
def Stored (tree : FileTree) (path : String) (index : Nat) : Prop :=
  ∀ way, tree.get? (precinct.parking index ++ way) = precinct.base.get? (precinct.goal path ++ way)

/-- A file stands at a place, with the bytes of the draft. -/
def HoldsDraft (tree : FileTree) (place : Place) (path : String) : Prop :=
  ∃ content mode,
    tree.get? place = some (.file content mode)
    ∧ ∀ drafted, precinct.Drafted path drafted → content = drafted

/-- What stood at the place of a required file has been set aside, and can be moved back. -/
structure Parked (tree : FileTree) (path : String) (index : Nat) : Prop where
  stored : precinct.Stored tree path index
  stood : ∃ entry, precinct.base.get? (precinct.goal path) = some entry
  passable : Passable (PromotionRoute.parkingPlace precinct.stagingPath index)

/-- The path at which a required file belongs is none that is always refused. -/
def Reachable (path : String) : Prop :=
  Passable (precinct.gate.outputRoot.below (SafePath.names path))

/-- The required file of the draft stands in its place. -/
def Delivered (tree : FileTree) (path : String) : Prop :=
  precinct.Reachable path ∧ precinct.HoldsDraft tree (precinct.goal path) path

/-- Moves that can be undone, the last one first: each has brought a required file to its place, and
what stood there has been set aside, or nothing stood there.
-/
inductive Installed (tree : FileTree) : List InstalledFile → List String → Prop
  | none : Installed tree [] []
  | more {file : InstalledFile} {earlier : List InstalledFile} {path : String} {paths : List String}
    (target : SafePath.resolve precinct.gate.outputRoot path = .ok file.target)
    (stored
      : file.parked = Option.none ∧ precinct.base.get? (precinct.goal path) = Option.none
        ∨ file.parked = some (PromotionRoute.parkingPlace precinct.stagingPath earlier.length)
          ∧ precinct.Parked tree path earlier.length)
    (others : Installed tree earlier paths)
    : Installed tree (file :: earlier) (path :: paths)

/-- Some required files have been switched to those of the draft, in order, and the others are as they
were, but for the first of them, whose place may be empty.
-/
structure Switched (tree : FileTree) (done rest : List String) : Prop
    extends precinct.Standing tree where
  order : precinct.gate.destinations = done ++ rest
  delivered : ∀ path ∈ done, precinct.Delivered tree path
  first : ∀ path, rest.head? = some path → precinct.Kept tree path ∨ precinct.Vacant tree path
  others : ∀ path ∈ rest.tail, precinct.Kept tree path

/-- The terms on which the promotion works: it works in its own places and makes directories on its
ways, while the others do so elsewhere; and whenever it has changed the tree, required files have been
switched in order.
-/
def terms : Terms where
  conduct := precinct.gate.reversible precinct.name
  rely := Spares precinct.foreign precinct.foreignMade
  guarantee tree after :=
    Spares precinct.Owns precinct.Passes tree after
    ∧ ∃ done rest, precinct.Switched after done rest
  refl := .refl _ _
  trans _ _ _ := Spares.trans

-----------------------------------------------------------------------------------------
-- Phases
-----------------------------------------------------------------------------------------

/-- The required files are as they were. -/
structure AsBefore (tree : FileTree) : Prop extends precinct.Standing tree where
  kept : ∀ path ∈ precinct.gate.destinations, precinct.Kept tree path

/-- Nothing has been moved: the required files are as they were, and the draft can be read. -/
structure Waiting (tree : FileTree) : Prop extends precinct.AsBefore tree where
  core
    : ∀ place entry,
        precinct.core.get? place = some entry → tree.get? place = some entry

/-- The path of the output directory leads there through directories, and the directory for copies
stands in it.
-/
structure Grounded (tree : FileTree) : Prop where
  founded : tree.Founded precinct.start precinct.gate.outputRoot.written
  directory : ∃ mode, tree.get? precinct.staging = some (.directory mode)

/-- Copies of required files stand in the directory for them, and nothing but directories and files
stands there where nothing is set aside.
-/
structure Loaded (tree : FileTree) (copied : List String) : Prop where
  plain
    : ∀ way entry,
        (∀ index, way.head? ≠ some (PromotionSite.parkingName index))
        → tree.get? (precinct.staging ++ way) = some entry
        → entry.isDirectory ∨ entry.isFile
  copies : ∀ path ∈ copied, precinct.HoldsDraft tree (precinct.copyPlace path) path

/-- Some required files have been brought to their places by moves that can be undone, and others are
as they were. Of those between them, which are being moved, nothing is said.
-/
structure Midway (tree : FileTree) (installed : List InstalledFile)
    (done current rest : List String)
    : Prop extends precinct.Standing tree, precinct.Grounded tree where
  order : precinct.gate.destinations = done.reverse ++ current ++ rest
  installed : precinct.Installed tree installed done
  delivered : ∀ path ∈ done, precinct.Delivered tree path
  kept : ∀ path ∈ rest, precinct.Kept tree path

variable {precinct}

theorem Grounded.noLink (grounded : precinct.Grounded tree) (target : Path)
    : tree.get? precinct.staging ≠ some (.link target) := by
  obtain ⟨mode, directory⟩ := grounded.directory
  simp [directory]

theorem Parked.imp {index : Nat} (parked : precinct.Parked tree path index)
    (stored : precinct.Stored tree path index → precinct.Stored later path index)
    : precinct.Parked later path index :=
  ⟨stored parked.stored, parked.stood, parked.passable⟩

/-- No link stands on the way to a copy. -/
theorem Loaded.noLinks {copied : List String} (loaded : precinct.Loaded tree copied)
    (listed : path ∈ precinct.gate.destinations) (front : List Bytes)
    (isFront : front <+: SafePath.names path) (target : Path)
    : tree.get? (precinct.staging ++ front) ≠ some (.link target) := by
  intro link
  have kind := loaded.plain front _ (fun index first => ?_) link
  · simp [Entry.isDirectory, Entry.isFile] at kind
  · obtain ⟨rest, split⟩ := isFront
    refine precinct.unparked path (required listed) index ?_
    rw [← split, List.head?_append, first]
    rfl

/-- Where nothing changes at the places at which the moves set something aside, they can be undone. -/
theorem Installed.imp {installed : List InstalledFile} {paths : List String}
    (found : precinct.Installed tree installed paths)
    (same
      : ∀ index < installed.length,
          ∀ way,
            later.get? (precinct.parking index ++ way) = tree.get? (precinct.parking index ++ way))
    : precinct.Installed later installed paths := by
  induction found with
  | none => exact .none
  | more target stored _ ih =>
      refine .more target (stored.imp_right fun held => ?_) (ih fun index lower => ?_)
      · exact ⟨held.1, held.2.imp fun stored way => (same _ (by simp) way).trans (stored way)⟩
      · exact same index (Nat.lt_of_lt_of_le lower (by simp))

-----------------------------------------------------------------------------------------
-- Where paths lead
-----------------------------------------------------------------------------------------

/-- The paths of a copy and of the place to which it is moved. -/
structure Binds (precinct : Precinct) (file : StagedFile) : Prop where
  listed : file.path ∈ precinct.gate.destinations
  staged : file.staged = precinct.stagingPath.below (SafePath.names file.path)
  target : file.target = precinct.gate.outputRoot.below (SafePath.names file.path)

theorem isName_name : Path.IsName precinct.name :=
  precinct.fresh.isName

theorem Standing.start_eq (standing : precinct.Standing tree) {path : Path}
    (absolute : path.isAbsolute = precinct.gate.outputRoot.isAbsolute)
    : path.start tree.here = precinct.start := by
  rw [Path.start, absolute, standing.here]
  rfl

theorem isAbsolute_stagingPath
    : precinct.stagingPath.isAbsolute = precinct.gate.outputRoot.isAbsolute :=
  Path.isAbsolute_join _ isName_name

theorem written_stagingPath
    : precinct.stagingPath.written = precinct.gate.outputRoot.written ++ [precinct.name] :=
  Path.written_join isName_name

theorem names_target (some : SafePath.names path ≠ [])
    : (precinct.gate.outputRoot.below (SafePath.names path)).names
      = precinct.gate.outputRoot.written ++ SafePath.names path :=
  Path.names_below _ some fun _ => SafePath.isName_of_mem_names

theorem resolve_destination (listed : path ∈ precinct.gate.destinations)
    : SafePath.resolve precinct.gate.outputRoot path
      = .ok (precinct.gate.outputRoot.below (SafePath.names path)) :=
  SafePath.resolve_eq_ok.mpr ⟨nonempty listed, rfl⟩

/-- The path at which a required file belongs leads to its place or nowhere. -/
theorem Standing.resolve_target (standing : precinct.Standing tree)
    (listed : path ∈ precinct.gate.destinations)
    (resolved
      : tree.resolve false (precinct.gate.outputRoot.below (SafePath.names path)) = .ok place)
    : place = precinct.goal path :=
  PromotionGate.resolve_goal standing.linkFree standing.here listed resolved

/-- Directories stand above the place of a required file when something stands there. -/
theorem Standing.housed (standing : precinct.Standing tree)
    (founded : tree.Founded precinct.start precinct.gate.outputRoot.written)
    (listed : path ∈ precinct.gate.destinations) {entry : Entry}
    (stands : tree.get? (precinct.goal path) = some entry)
    : precinct.Housed tree path :=
  founded.above standing.wellFormed (fun _ => SafePath.isName_of_mem_names) (nonempty listed) stands

/-- The path of a required file passes directories when they stand above its place. -/
theorem Standing.founded_target (standing : precinct.Standing tree)
    (listed : path ∈ precinct.gate.destinations) (housed : precinct.Housed tree path)
    : let target := precinct.gate.outputRoot.below (SafePath.names path)
      target.names ≠ []
      ∧ tree.Founded (target.start tree.here) target.names.dropLast
      ∧ target.names.foldl step (target.start tree.here) = precinct.goal path := by
  have proper : ∀ name ∈ SafePath.names path, Path.IsName name :=
    fun _ => SafePath.isName_of_mem_names
  intro target
  rw [names_target (nonempty listed),
    standing.start_eq (Path.isAbsolute_below precinct.gate.outputRoot proper)]
  refine ⟨by simp [nonempty listed], ?_, PromotionGate.foldl_outputPlace proper⟩
  rwa [List.dropLast_append_of_ne_nil (nonempty listed)]

/-- The path of a required file leads to its place when directories stand above it. -/
theorem Standing.reaches_target (standing : precinct.Standing tree)
    (listed : path ∈ precinct.gate.destinations) (housed : precinct.Housed tree path)
    (reachable : precinct.Reachable path)
    : tree.resolve false (precinct.gate.outputRoot.below (SafePath.names path))
      = .ok (precinct.goal path) := by
  obtain ⟨some, founded, place⟩ := standing.founded_target listed housed
  exact place ▸ founded.resolve reachable some

/-- Where no links are in the way, the names of a path into the directory for copies pass none. -/
theorem Standing.linkFree_staging (standing : precinct.Standing tree) {names : List Bytes}
    (proper : ∀ name ∈ names, Path.IsName name)
    (noLinks
      : ∀ front,
          front <+: names → ∀ target, tree.get? (precinct.staging ++ front) ≠ some (.link target))
    : tree.LinkFree precinct.start
        (precinct.gate.outputRoot.written ++ precinct.name :: names) := by
  intro front some isFront target
  rcases List.prefix_or_prefix_of_prefix isFront (List.prefix_append _ _) with short | ⟨rest, rfl⟩
  · exact standing.linkFree _ List.mem_cons_self front some short target
  have isRest := (List.prefix_append_right_inj _).mp isFront
  cases rest with
  | nil =>
      rw [List.append_nil] at some ⊢
      exact standing.linkFree _ List.mem_cons_self _ some (List.prefix_refl _) target
  | cons name rest =>
      obtain ⟨rfl, inner⟩ := List.cons_prefix_cons.mp isRest
      have properFront : ∀ name ∈ precinct.name :: rest, Path.IsName name :=
        List.forall_mem_cons.mpr ⟨isName_name, fun name member => proper name (inner.subset member)⟩
      rw [start, PromotionGate.foldl_outputPlace properFront]
      simpa [staging] using noLinks rest inner target

theorem foldl_staging {names : List Bytes} (proper : ∀ name ∈ names, Path.IsName name)
    : (precinct.gate.outputRoot.written ++ precinct.name :: names).foldl step precinct.start
      = precinct.staging ++ names := by
  rw [start, PromotionGate.foldl_outputPlace (List.forall_mem_cons.mpr ⟨isName_name, proper⟩)]
  simp [staging]

theorem foldl_stagingPath
    : (precinct.gate.outputRoot.written ++ [precinct.name]).foldl step precinct.start
      = precinct.staging := by
  rw [foldl_staging (by simp), List.append_nil]

theorem names_parking (index : Nat)
    : (PromotionRoute.parkingPlace precinct.stagingPath index).names
      = precinct.gate.outputRoot.written ++ precinct.name :: [PromotionSite.parkingName index] := by
  refine (Path.names_join (PromotionSite.isName_parkingName index)).trans ?_
  rw [written_stagingPath]
  simp

theorem isAbsolute_parking (index : Nat)
    : (PromotionRoute.parkingPlace precinct.stagingPath index).isAbsolute
      = precinct.gate.outputRoot.isAbsolute :=
  (Path.isAbsolute_join _ (PromotionSite.isName_parkingName index)).trans isAbsolute_stagingPath

theorem foldl_parking (index : Nat)
    : (precinct.gate.outputRoot.written ++ precinct.name :: [PromotionSite.parkingName index]).foldl
        step precinct.start
      = precinct.parking index :=
  foldl_staging (by simpa using PromotionSite.isName_parkingName index)

/-- The path at which something is set aside leads there or nowhere. -/
theorem Standing.resolve_parking (standing : precinct.Standing tree)
    (noLink : ∀ target, tree.get? precinct.staging ≠ some (.link target)) {index : Nat}
    (resolved
      : tree.resolve false (PromotionRoute.parkingPlace precinct.stagingPath index) = .ok place)
    : place = precinct.parking index := by
  have free : tree.LinkFree precinct.start
      (precinct.gate.outputRoot.written ++ precinct.name :: []) := by
    refine standing.linkFree_staging (by simp) fun front isFront target => ?_
    rw [List.prefix_nil.mp isFront, List.append_nil]
    exact noLink target
  rw [LinkFree.resolve_eq (by simpa using free) (by simp)
    (standing.start_eq (isAbsolute_parking index)) (names_parking index) resolved]
  exact foldl_parking index

/-- The path at which something has been set aside leads there. -/
theorem Standing.reaches_parking (standing : precinct.Standing tree)
    (grounded : precinct.Grounded tree) {index : Nat}
    (passable : Passable (PromotionRoute.parkingPlace precinct.stagingPath index))
    : tree.resolve false (PromotionRoute.parkingPlace precinct.stagingPath index)
      = .ok (precinct.parking index) := by
  have starts := standing.start_eq (isAbsolute_parking index)
  have founded : tree.Founded precinct.start
      (precinct.gate.outputRoot.written ++ [precinct.name]) := by
    intro front isFront
    obtain rfl | short := List.prefix_concat_iff.mp isFront
    · exact foldl_stagingPath ▸ grounded.directory
    · exact grounded.founded front short
  rw [Founded.resolve (by simpa [starts, names_parking] using founded) passable
    (by simp [names_parking]), starts, names_parking, foldl_parking]

/-- The path of a copy leads to it. -/
theorem Loaded.resolve_copy {copied : List String} (loaded : precinct.Loaded tree copied)
    (standing : precinct.Standing tree) (listed : path ∈ precinct.gate.destinations)
    {follow : Bool}
    (resolved
      : tree.resolve follow (precinct.stagingPath.below (SafePath.names path)) = .ok place)
    : place = precinct.copyPlace path := by
  have proper : ∀ name ∈ SafePath.names path, Path.IsName name :=
    fun _ => SafePath.isName_of_mem_names
  have free := standing.linkFree_staging proper (loaded.noLinks listed)
  have names : (precinct.stagingPath.below (SafePath.names path)).names
      = precinct.gate.outputRoot.written ++ precinct.name :: SafePath.names path := by
    rw [Path.names_below _ (nonempty listed) proper, written_stagingPath]
    simp
  have absolute := (Path.isAbsolute_below precinct.stagingPath proper).trans isAbsolute_stagingPath
  rw [(free.front (List.dropLast_prefix _)).resolve_eq (fun _ => free _ (by simp)
    (List.prefix_refl _)) (standing.start_eq absolute) names resolved]
  exact foldl_staging proper

-----------------------------------------------------------------------------------------
-- What others leave alone
-----------------------------------------------------------------------------------------

variable (precinct)

/-- Nothing has changed where the promotion works, on its ways directories at most have come, and the
draft has been left alone.
-/
structure Undisturbed (tree later : FileTree) : Prop where
  standing : precinct.Standing tree → precinct.Standing later
  owned : ∀ place, precinct.Owns place → later.get? place = tree.get? place
  passed
    : ∀ place entry,
        precinct.Passes place → tree.get? place = some entry → later.get? place = some entry
  core
    : ∀ place entry,
        precinct.core.get? place = some entry
        → tree.get? place = some entry
        → later.get? place = some entry

variable {precinct} {region made : Place → Prop}

/-- What holds of the tree at all times is kept by changes that spare the ways. -/
theorem Standing.spared (standing : precinct.Standing tree)
    (spares : Spares region made tree later)
    (ways : ∀ place, precinct.Passes place → ¬ region place)
    : precinct.Standing later where
  wellFormed := spares.wellFormed standing.wellFormed
  here := spares.here.trans standing.here
  linkFree := by
    intro way member
    refine spares.linkFree (standing.linkFree way member) fun front isFront => ?_
    exact ways _ ⟨way, member, front, isFront, rfl⟩

section Undisturbed

variable (calm : precinct.Undisturbed tree later)

include calm

theorem Kept.undisturbed (kept : precinct.Kept tree path)
    (listed : path ∈ precinct.gate.destinations)
    : precinct.Kept later path :=
  fun way => (calm.owned _ (owns_goal listed way)).trans (kept way)

theorem Vacant.undisturbed (vacant : precinct.Vacant tree path)
    (listed : path ∈ precinct.gate.destinations)
    : precinct.Vacant later path :=
  fun way => (calm.owned _ (owns_goal listed way)).trans (vacant way)

theorem Stored.undisturbed {index : Nat} (stored : precinct.Stored tree path index)
    : precinct.Stored later path index := by
  intro way
  rw [← stored way, parking_append]
  exact calm.owned _ (owns_staging _)

theorem HoldsDraft.undisturbed (held : precinct.HoldsDraft tree place path)
    (owns : precinct.Owns place)
    : precinct.HoldsDraft later place path := by
  obtain ⟨content, mode, found, same⟩ := held
  exact ⟨content, mode, (calm.owned place owns).trans found, same⟩

theorem Delivered.undisturbed (delivered : precinct.Delivered tree path)
    (listed : path ∈ precinct.gate.destinations)
    : precinct.Delivered later path :=
  ⟨delivered.1, HoldsDraft.undisturbed calm delivered.2 (by simpa using owns_goal listed [])⟩

theorem Installed.undisturbed {installed : List InstalledFile} {paths : List String}
    (found : precinct.Installed tree installed paths)
    : precinct.Installed later installed paths := by
  refine found.imp fun index _ way => ?_
  rw [parking_append]
  exact calm.owned _ (owns_staging _)

theorem AsBefore.undisturbed (before : precinct.AsBefore tree) : precinct.AsBefore later :=
  ⟨calm.standing before.toStanding,
    fun path listed => Kept.undisturbed calm (before.kept path listed) listed⟩

theorem Waiting.undisturbed (waiting : precinct.Waiting tree) : precinct.Waiting later :=
  ⟨AsBefore.undisturbed calm waiting.toAsBefore,
    fun place entry found => calm.core place entry found (waiting.core place entry found)⟩

/-- Directories on the ways go on to stand there. -/
theorem Undisturbed.founded {way : List Bytes} (member : way ∈ precinct.gate.ways)
    (founded : tree.Founded precinct.start way)
    : later.Founded precinct.start way := by
  intro front isFront
  obtain ⟨mode, found⟩ := founded front isFront
  exact ⟨mode, calm.passed _ _ ⟨way, member, front, isFront, rfl⟩ found⟩

theorem Grounded.undisturbed (grounded : precinct.Grounded tree) : precinct.Grounded later where
  founded := calm.founded List.mem_cons_self grounded.founded
  directory := by
    rw [calm.owned _ (by simpa using owns_staging [])]
    exact grounded.directory

theorem Loaded.undisturbed {copied : List String} (loaded : precinct.Loaded tree copied)
    : precinct.Loaded later copied where
  plain := by
    intro way entry unparked found
    rw [calm.owned _ (owns_staging way)] at found
    exact loaded.plain way entry unparked found
  copies path member :=
    HoldsDraft.undisturbed calm (loaded.copies path member) (owns_staging _)

theorem Midway.undisturbed {installed : List InstalledFile} {done current rest : List String}
    (midway : precinct.Midway tree installed done current rest)
    : precinct.Midway later installed done current rest where
  toStanding := calm.standing midway.toStanding
  toGrounded := Grounded.undisturbed calm midway.toGrounded
  order := midway.order
  installed := Installed.undisturbed calm midway.installed
  delivered path member :=
    Delivered.undisturbed calm (midway.delivered path member)
      (by simp [midway.order, member])
  kept path member :=
    Kept.undisturbed calm (midway.kept path member) (by simp [midway.order, member])

end Undisturbed

end Precinct

end Vetting
