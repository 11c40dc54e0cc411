import Vetting.Promotion.Commit
import Vetting.Proofs.Files.Execution
import Vetting.Proofs.Promotion.SafeNames

/-! Where files are put into place: a tree, the place of the output directory in it, and a name that
occurs nowhere in it. Below the directory with that name copies are kept and things are set aside;
elsewhere nothing is added but directories, and these only at places towards which paths lead.
-/

namespace Vetting

namespace FileTree

/-- Some of the first of some names lead to a place. -/
def Toward (tree : FileTree) (start : Place) (names : List Bytes) (place : Place) : Prop :=
  ∃ front, front <+: names ∧ tree.Leads start front place

/-- What stood somewhere in a base still stands there, unless a file is in its way. -/
def Covers (hidden : List Bytes) (base tree : FileTree) : Prop :=
  ∀ place entry,
    Clear hidden place
    → base.get? place = some entry
    → tree.get? place = some entry
      ∨ ∃ above content mode, above <+: place ∧ tree.get? above = some (.file content mode)

/-- A place that is free in a directory was free in the base. -/
theorem Covers.free {hidden : List Bytes} {base tree : FileTree} (covers : Covers hidden base tree)
    (wf : tree.WellFormed) {place : Place} (clear : Clear hidden place)
    (free : tree.get? place = none) {mode : Nat}
    (directory : tree.get? place.dropLast = some (.directory mode))
    : base.get? place = none := by
  cases found : base.get? place with
  | none => rfl
  | some entry =>
      exfalso
      rcases covers place entry clear found with kept | ⟨above, content, fileMode, inside, file⟩
      · simp [free] at kept
      obtain ⟨way, rfl⟩ := inside
      by_cases here : way = []
      · simp [here, file] at free
      · rw [List.dropLast_append_of_ne_nil here] at directory
        by_cases parent : way.dropLast = []
        · simp [parent, file] at directory
        · rw [wf.below_none parent (by simp [file])] at directory
          exact absurd directory (by simp)

/-- A tree that has grown resembles the base that its beginning resembles, when directories are only
made where the base has nothing.
-/
theorem Resembles.grown {hidden : List Bytes} {made : Place → Prop} {base tree after : FileTree}
    (like : Resembles hidden base tree) (grows : Grows hidden made tree after)
    (madeFree : ∀ place, made place → base.get? place = none)
    : Resembles hidden base after := by
  refine ⟨grows.here.trans like.here, ?_, ?_⟩
  · intro place target clear found
    exact like.links _ _ clear (grows.resembles.links _ _ clear found)
  · intro place mode clear found target
    cases old : tree.get? place with
    | none => simp [madeFree _ (grows.adds _ _ clear old found).2]
    | some entry =>
        have same := grows.keeps _ _ clear old
        rw [found] at same
        exact like.directories _ mode clear (Option.some.inj same ▸ old) target

theorem Covers.grown {hidden : List Bytes} {made : Place → Prop} {base tree after : FileTree}
    (covers : Covers hidden base tree) (grows : Grows hidden made tree after)
    : Covers hidden base after := by
  intro place entry clear found
  rcases covers place entry clear found with kept | ⟨above, content, mode, inside, file⟩
  · exact Or.inl (grows.keeps _ _ clear kept)
  · exact Or.inr ⟨above, content, mode, inside,
      grows.keeps _ _ (clear.subset inside.subset) file⟩

end FileTree

open FileTree

/-- The tree in which files are put into place, the path of the output directory, a name that occurs
nowhere, and the ways along which directories may be made.
-/
structure PromotionGround where
  base : FileTree
  outputRoot : Path
  name : Bytes
  ways : List (List Bytes)
  proper : Path.IsName name
  wellFormed : base.WellFormed
  unused : name ∉ base.names
  startClear : name ∉ outputRoot.start base.here
  outputClear : name ∉ outputRoot.written
  waysClear : ∀ way ∈ ways, name ∉ way

namespace PromotionGround

variable (ground : PromotionGround)

/-- Where directories may be made. -/
def Made (place : Place) : Prop :=
  ground.base.get? place = none
  ∧ ∃ way ∈ ground.ways, ground.base.Toward (ground.outputRoot.start ground.base.here) way place

/-- Elsewhere than where the fresh name is used, a tree has grown. -/
abbrev Grown (tree after : FileTree) : Prop :=
  Grows [ground.name] ground.Made tree after

variable {ground}

theorem baseClear {place : Place} {entry : Entry} (found : ground.base.get? place = some entry)
    : ground.name ∉ place := by
  intro member
  have below : place ≠ [] := List.ne_nil_of_mem member
  exact ground.unused
    (List.mem_flatMap.mpr ⟨_, mem_of_get? below found, List.mem_append_left _ member⟩)

theorem linksClear : ground.base.LinksClear [ground.name] :=
  linksClear_of_not_mem (by simp [ground.unused])

/-- Names that hide nothing lead to a place that hides nothing. -/
theorem clear_of_leads {start place : Place} {names : List Bytes}
    (leads : ground.base.Leads start names place) (startClear : ground.name ∉ start)
    (namesClear : ground.name ∉ names)
    : ground.name ∉ place := by
  induction leads with
  | stay place => exact startClear
  | enter _ _ ih =>
      simp only [List.mem_cons, not_or] at namesClear
      exact ih (clear_singleton.mp ((clear_singleton.mpr startClear).step
        (by simpa using Ne.symm namesClear.1))) namesClear.2
  | @turn _ _ target _ _ link _ ih =>
      simp only [List.mem_cons, not_or] at namesClear
      have targetClear :=
        clear_singleton.mp (linksClear _ _ (clear_singleton.mpr (baseClear link)) link)
      refine ih (clear_singleton.mp ((clear_singleton.mpr startClear).start target)) ?_
      simp [targetClear, namesClear.2]

theorem Made.clear {place : Place} (made : ground.Made place) : ground.name ∉ place := by
  obtain ⟨_, way, member, front, isFront, leads⟩ := made
  exact clear_of_leads leads ground.startClear
    fun inside => ground.waysClear way member (isFront.subset inside)

-----------------------------------------------------------------------------------------
-- Where paths lead
-----------------------------------------------------------------------------------------

theorem start_eq {tree : FileTree} (like : Resembles [ground.name] ground.base tree) {path : Path}
    (absolute : path.isAbsolute = ground.outputRoot.isAbsolute)
    : path.start tree.here = ground.outputRoot.start ground.base.here := by
  rw [Path.start, Path.start, absolute, like.here]

/-- A path that hides nothing leads where it leads in the base. -/
theorem resolve_outside {tree : FileTree} (like : Resembles [ground.name] ground.base tree)
    {path : Path} (absolute : path.isAbsolute = ground.outputRoot.isAbsolute)
    (clear : ground.name ∉ path.names) (some : path.names ≠ []) {place : Place}
    (resolved : tree.resolve false path = .ok place)
    : ground.base.LeadsTo path place ∧ ground.name ∉ place := by
  have split := List.dropLast_concat_getLast some
  have clear := split ▸ clear
  simp only [List.mem_append, List.mem_singleton, not_or] at clear
  obtain ⟨_, left, middle, course, _, _, rfl⟩ := (resolve_concat split.symm).mp resolved
  rw [start_eq like absolute] at course
  obtain ⟨leads, middleClear⟩ := course.leads linksClear like
    (clear_singleton.mpr ground.startClear) (clear_singleton.mpr clear.1)
  refine ⟨⟨_, _, middle, split.symm, ?_, rfl⟩, ?_⟩
  · rwa [start_eq (Resembles.refl _ _) absolute]
  · exact clear_singleton.mp (middleClear.step (by simpa using Ne.symm clear.2))

-----------------------------------------------------------------------------------------
-- Making directories
-----------------------------------------------------------------------------------------

/-- A directory made along a way is one that may be made. -/
theorem made_of_created {tree after : FileTree} (wf : tree.WellFormed)
    (like : Resembles [ground.name] ground.base tree) (covers : Covers [ground.name] ground.base tree)
    {path : Path} (absolute : path.isAbsolute = ground.outputRoot.isAbsolute) {way : List Bytes}
    (member : way ∈ ground.ways) (front : path.written <+: way) {place : Place} {mode : Nat}
    (created : tree.Created (closed path) (.directory mode) place after)
    : ground.Made place := by
  obtain ⟨names, sameStart⟩ := Path.names_closed path
  have clear : ground.name ∉ (closed path).names := by
    rw [names]
    exact fun inside => ground.waysClear way member (front.subset inside)
  have some : (closed path).names ≠ [] := by
    intro none
    obtain ⟨usable, walked⟩ := resolve_eq_ok.mp created.resolved
    have absolute := Path.isAbsolute_of_names_nil usable.nonempty none
    rw [none, walk_nil, Path.start, absolute] at walked
    exact created.belowRoot (Except.ok.inj walked).symm
  obtain ⟨leadsTo, placeClear⟩ :=
    resolve_outside like (sameStart.trans absolute) clear some created.resolved
  obtain ⟨_, parent⟩ := created.directory
  have free := covers.free wf (clear_singleton.mpr placeClear) created.free parent
  refine ⟨free, way, member, path.written, front, ?_⟩
  obtain ⟨before, last, middle, split, leads, rfl⟩ := leadsTo
  rw [start_eq (Resembles.refl _ _) (sameStart.trans absolute)] at leads
  rw [← names, split]
  refine leads.append (.enter (fun target link => ?_) (.stay _))
  rw [free] at link
  exact absurd link (by simp)

/-- Elsewhere than in the directory for copies, a tree has got directories where some may be made;
there it is as it was.
-/
structure Extended (ground : PromotionGround) (tree after : FileTree) : Prop where
  wellFormed : after.WellFormed
  grows : ground.Grown tree after
  within : ∀ place, ground.name ∈ place → after.get? place = tree.get? place

theorem Extended.refl {tree : FileTree} (wf : tree.WellFormed) : ground.Extended tree tree :=
  ⟨wf, Grows.refl .., fun _ _ => rfl⟩

/-- Making a directory along a way, and those above it, extends a tree. -/
theorem extended_createChain {tree : FileTree} (wf : tree.WellFormed)
    (like : Resembles [ground.name] ground.base tree) (covers : Covers [ground.name] ground.base tree)
    {path : Path} (absolute : path.isEmpty = false → path.isAbsolute = ground.outputRoot.isAbsolute)
    {way : List Bytes} (member : way ∈ ground.ways) (front : path.written <+: way) {chain : List Path}
    (included : chain ⊆ path.ancestors)
    : ground.Extended tree (tree.createChain chain).2 := by
  refine createChain_induction (fun before after ancestor listed extended made => ?_) (.refl wf)
  have above := included listed
  obtain ⟨place, created⟩ := extended.wellFormed.createDirectory made
  obtain ⟨nonempty, sameStart⟩ :=
    Path.isAbsolute_of_front (Path.bytes_ancestor above) created.nonempty
  have madePlace : ground.Made place :=
    made_of_created extended.wellFormed (like.grown extended.grows fun _ made => made.1)
      (covers.grown extended.grows) (sameStart.trans (absolute nonempty)) member
      ((Path.written_ancestor above).trans front) created
  refine ⟨created.wellFormed, extended.grows.trans (created.grows fun _ => madePlace), ?_⟩
  intro other inside
  rw [created.get?_eq, if_neg, extended.within other inside]
  rintro rfl
  exact madePlace.clear inside

theorem extended_createDirectories {tree after : FileTree} (wf : tree.WellFormed)
    (like : Resembles [ground.name] ground.base tree) (covers : Covers [ground.name] ground.base tree)
    {path : Path} (absolute : path.isEmpty = false → path.isAbsolute = ground.outputRoot.isAbsolute)
    {way : List Bytes} (member : way ∈ ground.ways) (front : path.written <+: way)
    {answer : Except FileFault Unit}
    (ends : (Operation.createDirectories path).Ends tree answer after)
    : ground.Extended tree after := by
  cases answer with
  | ok _ =>
      have := extended_createChain wf like covers absolute member front (List.Subset.refl _)
      rwa [show (tree.createChain path.ancestors).2 = after from congrArg Prod.snd ends] at this
  | error _ =>
      obtain ⟨chain, suffix, rfl⟩ := ends
      exact extended_createChain wf like covers absolute member front suffix.subset

end PromotionGround

open PromotionGround

/-- Where files are put into place: the place to which the path of the output directory leads. -/
structure PromotionSite extends PromotionGround where
  root : Place
  leads : base.Leads (outputRoot.start base.here) outputRoot.written root

namespace PromotionSite

variable (site : PromotionSite)

/-- The place of the directory for copies. -/
def staging : Place := site.root ++ [site.name]

/-- The path of the directory for copies. -/
def stagingPath : Path := site.outputRoot.join site.name

/-- The name under which something is set aside. -/
def parkingName (index : Nat) : Bytes := Path.bytesOf (".previous-" ++ toString index)

/-- The place at which something is set aside. -/
def parking (index : Nat) : Place := site.staging ++ [parkingName index]

variable {site}

theorem rootClear : site.name ∉ site.root :=
  clear_of_leads site.leads site.startClear site.outputClear

theorem mem_of_below_staging {place : Place} (inside : site.staging <+: place)
    : site.name ∈ place :=
  inside.subset (by simp [staging])

theorem parkingName_injective : Function.Injective parkingName := by
  intro one two same
  rw [parkingName, parkingName, Path.bytesOf_append, Path.bytesOf_append,
    List.append_cancel_left_eq] at same
  exact decimal_injective same

theorem isName_parkingName (index : Nat) : Path.IsName (parkingName index) := by
  rw [parkingName, Path.bytesOf_append]
  refine Path.isName_of_length ?_ ?_
  · rw [List.length_append]
    exact Nat.lt_of_lt_of_le (by decide) (Nat.le_add_right _ _)
  · rw [List.mem_append, not_or]
    exact ⟨by decide, slash_not_mem_decimal index⟩

theorem written_stagingPath : site.stagingPath.written = site.outputRoot.written ++ [site.name] :=
  Path.written_join site.proper

theorem isAbsolute_stagingPath : site.stagingPath.isAbsolute = site.outputRoot.isAbsolute :=
  Path.isAbsolute_join _ site.proper

-----------------------------------------------------------------------------------------
-- Paths into the directory for copies
-----------------------------------------------------------------------------------------

/-- A walk along the path of the output directory ends in its place, in every tree that resembles the
base.
-/
theorem root_of_course {tree : FileTree} (like : Resembles [site.name] site.base tree) {left : Nat}
    {place : Place}
    (course
      : tree.Course linkLimit (site.outputRoot.start tree.here) site.outputRoot.written left place)
    : place = site.root := by
  rw [start_eq like rfl] at course
  obtain ⟨leads, _⟩ := course.leads linksClear like (clear_singleton.mpr site.startClear)
    (clear_singleton.mpr site.outputClear)
  exact leads.unique site.leads

/-- A walk that resembles the one to the output directory goes on from there. -/
theorem walk_from_root {tree : FileTree} (like : Resembles [site.name] site.base tree)
    {path : Path} (absolute : path.isAbsolute = site.outputRoot.isAbsolute) {rest : List Bytes}
    (names : path.names = site.outputRoot.written ++ rest) (more : rest ≠ []) {follow : Bool}
    {place : Place} (resolved : tree.resolve follow path = .ok place)
    : ∃ left,
        tree.Course linkLimit (site.outputRoot.start site.base.here) site.outputRoot.written left
          site.root
        ∧ tree.walk follow left site.root rest = .ok place := by
  obtain ⟨_, walked⟩ := resolve_eq_ok.mp resolved
  rw [names, Path.start, absolute] at walked
  obtain ⟨left, middle, course, onward⟩ := course_of_walk more walked
  obtain rfl := root_of_course like course
  rw [← Path.start, start_eq like rfl] at course
  exact ⟨left, course, onward⟩

/-- Where no link is in the way, a path into the directory for copies leads where its names do. -/
theorem resolve_within {tree : FileTree} (like : Resembles [site.name] site.base tree)
    {mode : Nat} (directory : tree.get? site.staging = some (.directory mode)) {path : Path}
    (absolute : path.isAbsolute = site.outputRoot.isAbsolute) {way : List Bytes}
    (names : path.names = site.outputRoot.written ++ site.name :: way)
    (proper : ∀ name ∈ way, Path.IsName name) {follow : Bool}
    (noLinks
      : ∀ front,
          front ≠ []
          → front <+: way
          → (front = way → follow = true)
          → ∀ target, tree.get? (site.staging ++ front) ≠ some (.link target))
    {place : Place} (resolved : tree.resolve follow path = .ok place)
    : place = site.staging ++ way := by
  obtain ⟨left, _, walked⟩ := walk_from_root like absolute names (by simp) resolved
  have straight : place = site.root ++ site.name :: way := by
    refine walk_straight (by simpa using ⟨site.proper, proper⟩) ?_ walked
    intro front some isFront last target
    cases front with
    | nil => exact absurd rfl some
    | cons name rest =>
        obtain ⟨rfl, inner⟩ := List.cons_prefix_cons.mp isFront
        have split : site.root ++ site.name :: rest = site.staging ++ rest := by simp [staging]
        rw [split]
        by_cases here : rest = []
        · simp [here, directory]
        · exact noLinks rest here inner (fun all => last (by rw [all])) target
  simpa [staging] using straight

end PromotionSite

end Vetting
