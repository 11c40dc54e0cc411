import Vetting.Proofs.Promotion.Site
import Vetting.Proofs.Promotion.Steps
import Vetting.Proofs.Results

/-! Copying the required files of a draft. While copies are made, nothing but directories and files
comes to stand in the directory for them, none of these where things are set aside later, and a file
there stays a file. A copy that is kept has the digest of the file of the draft.
-/

namespace Vetting

open FileTree PromotionGround

namespace PromotionSite

/-- Names of a file that may be put into place: they lead to no place at which things are set aside,
and directories may be made along the way to it.
-/
structure Admits (site : PromotionSite) (names : List Bytes) : Prop where
  nonempty : names ≠ []
  proper : ∀ name ∈ names, Path.IsName name
  clear : site.name ∉ names
  unparked : ∀ index, names.head? ≠ some (parkingName index)
  way : site.outputRoot.written ++ names.dropLast ∈ site.ways

/-- The names of a required file lead to its copy and to its place. -/
structure Binds (site : PromotionSite) (file : StagedFile) : Prop
    extends site.Admits (SafePath.names file.path) where
  staged : file.staged = site.stagingPath.below (SafePath.names file.path)
  target : file.target = site.outputRoot.below (SafePath.names file.path)

/-- What holds while copies are made. -/
structure Copying (site : PromotionSite) (tree : FileTree) : Prop where
  wellFormed : tree.WellFormed
  directory : ∃ mode, tree.get? site.staging = some (.directory mode)
  confined
    : ∀ place entry, tree.get? place = some entry → site.name ∈ place → site.staging <+: place
  grown : site.Grown site.base tree
  copies
    : ∀ name rest entry,
        tree.get? (site.staging ++ name :: rest) = some entry
        → (entry.isDirectory ∨ entry.isFile) ∧ ∀ index, name ≠ parkingName index

variable {site : PromotionSite} {tree after : FileTree}

theorem Copying.like (copying : site.Copying tree) : Resembles [site.name] site.base tree :=
  copying.grown.resembles

theorem Copying.covers (copying : site.Copying tree) : Covers [site.name] site.base tree :=
  fun place entry clear found => Or.inl (copying.grown.keeps place entry clear found)

theorem Copying.noLinks (copying : site.Copying tree) (way : List Bytes) (target : Path)
    : tree.get? (site.staging ++ way) ≠ some (.link target) := by
  intro found
  cases way with
  | nil =>
      obtain ⟨mode, directory⟩ := copying.directory
      simp [directory] at found
  | cons name rest =>
      have kind := (copying.copies name rest _ found).1
      simp [Entry.isDirectory, Entry.isFile] at kind

/-- Putting a directory or a file among the copies. -/
theorem Copying.put (copying : site.Copying tree) (wf : after.WellFormed)
    (here : after.here = tree.here) {name : Bytes} {rest : List Bytes} {entry : Entry}
    (changed
      : ∀ other,
          after.get? other
          = if other = site.staging ++ name :: rest then some entry else tree.get? other)
    (kind : entry.isDirectory ∨ entry.isFile) (unparked : ∀ index, name ≠ parkingName index)
    : site.Copying after := by
  have outside : ∀ place, site.name ∉ place → after.get? place = tree.get? place := by
    intro place clear
    rw [changed, if_neg]
    rintro rfl
    exact clear (mem_of_below_staging (List.prefix_append _ _))
  refine ⟨wf, ?_, ?_, ?_, ?_⟩
  · obtain ⟨mode, directory⟩ := copying.directory
    exact ⟨mode, by rw [changed, if_neg (by simp), directory]⟩
  · intro place found here inside
    rw [changed] at here
    split at here
    · rename_i same
      exact same ▸ List.prefix_append _ _
    · exact copying.confined place found here inside
  · refine ⟨here.trans copying.grown.here, ?_, ?_⟩
    · intro place found clear old
      rw [outside place (clear_singleton.mp clear)]
      exact copying.grown.keeps place found clear old
    · intro place found clear free old
      rw [outside place (clear_singleton.mp clear)] at old
      exact copying.grown.adds place found clear free old
  · intro other more found old
    rw [changed] at old
    split at old
    · rename_i same
      obtain ⟨rfl, rfl⟩ := List.cons.inj (List.append_cancel_left same)
      exact ⟨Option.some.inj old ▸ kind, unparked⟩
    · exact copying.copies other more found old

/-- Putting a directory elsewhere than among the copies. -/
theorem Copying.extended (copying : site.Copying tree) {place : Place} {entry : Entry}
    (clear : site.name ∉ place) (wf : after.WellFormed) (grown : site.Grown site.base after)
    (changed : ∀ other, after.get? other = if other = place then some entry else tree.get? other)
    : site.Copying after := by
  have within : ∀ other, site.name ∈ other → after.get? other = tree.get? other := by
    intro other inside
    rw [changed, if_neg]
    rintro rfl
    exact clear inside
  have inside : ∀ way, site.name ∈ site.staging ++ way := by simp [staging]
  refine ⟨wf, ?_, ?_, grown, ?_⟩
  · obtain ⟨mode, directory⟩ := copying.directory
    exact ⟨mode, by rw [within _ (by simpa using inside []), directory]⟩
  · intro other found here hidden
    rw [within other hidden] at here
    exact copying.confined other found here hidden
  · intro name rest found here
    rw [within _ (inside _)] at here
    exact copying.copies name rest found here

/-- The first of some names and more names, with a name between them: either no more than the first
ones, or the name and some of those after it.
-/
theorem prefix_append_cons {names front back : List Bytes} {name : Bytes}
    (isFront : names <+: front ++ name :: back)
    : names <+: front ∨ ∃ rest, rest <+: back ∧ names = front ++ name :: rest := by
  rcases List.prefix_or_prefix_of_prefix isFront (List.prefix_append front (name :: back)) with
    short | ⟨rest, rfl⟩
  · exact Or.inl short
  · cases rest with
    | nil => exact Or.inl (by simp)
    | cons first others =>
        have inner := (List.prefix_append_right_inj front).mp isFront
        obtain ⟨rfl, isRest⟩ := List.cons_prefix_cons.mp inner
        exact Or.inr ⟨others, isRest, rfl⟩

/-- Making directories above a copy keeps all that stands. -/
theorem Copying.createChain (copying : site.Copying tree) {names : List Bytes}
    (admits : site.Admits names) {path : Path}
    (absolute : path.isEmpty = false → path.isAbsolute = site.outputRoot.isAbsolute)
    (front : path.written <+: site.outputRoot.written ++ site.name :: names.dropLast)
    {chain : List Path} (included : chain ⊆ path.ancestors)
    : site.Copying (tree.createChain chain).2
      ∧ ∀ place entry,
          tree.get? place = some entry → (tree.createChain chain).2.get? place = some entry := by
  let holds (between : FileTree) : Prop :=
    site.Copying between
    ∧ ∀ place entry, tree.get? place = some entry → between.get? place = some entry
  have kept : ∀ before after ancestor, ancestor ∈ chain → holds before →
      before.createDirectory ancestor = .ok after → holds after := by
    rintro before after ancestor listed ⟨copying, keeps⟩ made
    have above := included listed
    obtain ⟨place, created⟩ := copying.wellFormed.createDirectory made
    obtain ⟨nonempty, sameStart⟩ :=
      Path.isAbsolute_of_front (Path.bytes_ancestor above) created.nonempty
    have absolute := sameStart.trans (absolute nonempty)
    have keeps : ∀ place entry, tree.get? place = some entry → after.get? place = some entry :=
      fun other entry found => created.keeps (keeps other entry found)
    refine ⟨?_, keeps⟩
    rcases prefix_append_cons ((Path.written_ancestor above).trans front) with outside | inside
    · have made := made_of_created copying.wellFormed copying.like copying.covers absolute
        admits.way (outside.trans (List.prefix_append _ _)) created
      exact copying.extended made.clear created.wellFormed (copying.grown.trans
        (created.grows fun _ => made)) created.get?_eq
    · obtain ⟨rest, isFront, written⟩ := inside
      obtain ⟨closedNames, sameStart⟩ := Path.names_closed ancestor
      obtain ⟨mode, directory⟩ := copying.directory
      have place_eq : place = site.staging ++ rest :=
        resolve_within copying.like directory (sameStart.trans absolute)
          (closedNames.trans written)
          (fun name member => admits.proper name (List.dropLast_subset _ (isFront.subset member)))
          (fun _ _ _ _ => copying.noLinks _) created.resolved
      subst place_eq
      cases rest with
      | nil =>
          have free := created.free
          rw [List.append_nil, directory] at free
          exact absurd free (by simp)
      | cons name others =>
          have head : names.head? = some name := by
            obtain ⟨more, split⟩ := isFront.trans (List.dropLast_prefix names)
            rw [← split]
            rfl
          refine copying.put created.wellFormed created.here created.get?_eq (Or.inl rfl) ?_
          rintro index rfl
          exact admits.unparked index head
  exact createChain_induction kept ⟨copying, fun _ _ found => found⟩

theorem Binds.names_staged {file : StagedFile} (binds : site.Binds file)
    : file.staged.names = site.outputRoot.written ++ site.name :: SafePath.names file.path := by
  rw [binds.staged, Path.names_below _ binds.nonempty binds.proper, written_stagingPath]
  simp

theorem Binds.isAbsolute_staged {file : StagedFile} (binds : site.Binds file)
    : file.staged.isAbsolute = site.outputRoot.isAbsolute := by
  rw [binds.staged, Path.isAbsolute_below _ binds.proper, isAbsolute_stagingPath]

/-- Where a copy stands. -/
def copyPlace (site : PromotionSite) (file : StagedFile) : Place :=
  site.staging ++ SafePath.names file.path

/-- A path that leads to a copy leads to its place. -/
theorem Copying.resolve_copy (copying : site.Copying tree) {file : StagedFile}
    (binds : site.Binds file) {follow : Bool} {place : Place}
    (resolved : tree.resolve follow file.staged = .ok place)
    : place = site.copyPlace file := by
  obtain ⟨mode, directory⟩ := copying.directory
  exact resolve_within copying.like directory binds.isAbsolute_staged binds.names_staged
    binds.proper (fun _ _ _ _ => copying.noLinks _) resolved

-----------------------------------------------------------------------------------------
-- Copying one file
-----------------------------------------------------------------------------------------

/-- What copying does: a file among the copies stays a file, and keeps its bytes if it is none of
those that are copied.
-/
structure Recopied (site : PromotionSite) (copied : List (List Bytes)) (tree after : FileTree)
    : Prop where
  copying : site.Copying after
  others
    : ∀ way content mode,
        way ∉ copied
        → tree.get? (site.staging ++ way) = some (.file content mode)
        → after.get? (site.staging ++ way) = some (.file content mode)
  files
    : ∀ way entry,
        tree.get? (site.staging ++ way) = some entry
        → entry.isFile
        → ∃ entry, after.get? (site.staging ++ way) = some entry ∧ entry.isFile

theorem Recopied.trans {copied more : List (List Bytes)} {between : FileTree}
    (first : site.Recopied copied tree between) (second : site.Recopied more between after)
    : site.Recopied (copied ++ more) tree after := by
  refine ⟨second.copying, ?_, ?_⟩
  · intro way content mode other found
    rw [List.mem_append, not_or] at other
    exact second.others way content mode other.2 (first.others way content mode other.1 found)
  · intro way entry found isFile
    obtain ⟨entry, found, isFile⟩ := first.files way entry found isFile
    exact second.files way entry found isFile

theorem Recopied.of_keeps (copying : site.Copying after)
    (keeps : ∀ place entry, tree.get? place = some entry → after.get? place = some entry)
    : site.Recopied [] tree after :=
  ⟨copying, fun _ _ _ _ found => keeps _ _ found,
    fun _ entry found isFile => ⟨entry, keeps _ _ found, isFile⟩⟩

theorem Recopied.refl (copying : site.Copying tree) : site.Recopied [] tree tree :=
  .of_keeps copying fun _ _ found => found

theorem Recopied.mono {copied more : List (List Bytes)}
    (recopied : site.Recopied copied tree after) (included : copied ⊆ more)
    : site.Recopied more tree after :=
  ⟨recopied.copying, fun way content mode other => recopied.others way content mode
    fun member => other (included member), recopied.files⟩

/-- Writing a copy. -/
theorem Copying.recopied (copying : site.Copying tree) {file : StagedFile}
    (binds : site.Binds file) {place : Place} {content : Bytes} {mode : Nat}
    (written : tree.Written file.staged place content mode after)
    : site.Recopied [SafePath.names file.path] tree after
      ∧ after.get? (site.copyPlace file) = some (.file content mode) := by
  obtain rfl := copying.resolve_copy binds written.resolved
  have here : after.get? (site.copyPlace file) = some (.file content mode) := by
    rw [written.get?_eq, if_pos rfl]
  have copyingAfter : site.Copying after := by
    have changed := written.get?_eq
    have unparked := binds.unparked
    unfold copyPlace at changed
    cases names : SafePath.names file.path with
    | nil => exact absurd names binds.nonempty
    | cons name rest =>
        rw [names] at changed unparked
        refine copying.put written.wellFormed written.here changed (Or.inr rfl) ?_
        intro index same
        exact unparked index (by simp [same])
  refine ⟨⟨copyingAfter, ?_, ?_⟩, here⟩
  · intro way content mode other found
    rw [written.get?_eq, if_neg (by simpa [copyPlace] using List.ne_of_not_mem_cons other), found]
  · intro way entry found isFile
    rw [written.get?_eq]
    split
    · exact ⟨_, rfl, rfl⟩
    · exact ⟨entry, found, isFile⟩

end PromotionSite

namespace PromotionStep

variable {conduct : Conduct} {tree after : FileTree}

theorem yields_createParent {path : Path} {result : Except PromotionFault Unit}
    (run : (createParent path).Yields conduct tree result after)
    : (result = .ok () ∧ after = tree)
      ∨ ∃ parent answer,
          path.parent? = some parent
          ∧ conduct tree (.createDirectories parent) answer after := by
  unfold createParent at run
  split at run
  · exact Or.inl (yields_pure.mp run)
  · rename_i parent above
    rcases yields_request.mp run with ⟨fault, _, ended⟩ | ⟨answer, _, ended⟩
    · exact Or.inr ⟨parent, .error fault, above, ended⟩
    · exact Or.inr ⟨parent, .ok answer, above, ended⟩

end PromotionStep

namespace PromotionSite

open PromotionStep

variable {site : PromotionSite} {conduct : Conduct} {tree after : FileTree}

/-- Making the directory for a copy. -/
theorem Copying.createParent (copying : site.Copying tree) (lawful : conduct.Lawful)
    {names : List Bytes} (admits : site.Admits names) {result : Except PromotionFault Unit}
    (run : (createParent (site.stagingPath.below names)).Yields conduct tree result after)
    : site.Copying after
      ∧ ∀ place entry, tree.get? place = some entry → after.get? place = some entry := by
  rcases yields_createParent run with ⟨_, rfl⟩ | ⟨parent, answer, above, ended⟩
  · exact ⟨copying, fun _ _ found => found⟩
  obtain ⟨front, absolute⟩ := Path.parent_below admits.nonempty admits.proper above
  rw [written_stagingPath, List.append_assoc, List.singleton_append] at front
  rw [isAbsolute_stagingPath] at absolute
  have ends := lawful _ _ _ _ ended
  cases answer with
  | ok _ =>
      rw [← show (tree.createChain parent.ancestors).2 = after from congrArg Prod.snd ends]
      exact copying.createChain admits absolute front (List.Subset.refl _)
  | error _ =>
      obtain ⟨chain, suffix, rfl⟩ := ends
      exact copying.createChain admits absolute front suffix.subset

/-- A copy of a required file has been compared with the file of the draft. -/
structure Verified (site : PromotionSite) (draftRoot : Path) (path : String) (file : StagedFile)
    : Prop
    extends site.Binds file where
  path_eq : file.path = path
  source
    : ∃ tree content,
        site.Copying tree
        ∧ tree.readFile (draftRoot.below (SafePath.names path)) = .ok content
        ∧ file.digest = Sha256.hexDigest content

/-- What copying a required file comes to, whether it fails or not: nothing but that file is copied,
and a copy that is told has been compared and stands among the copies.
-/
structure Fetched (site : PromotionSite) (draftRoot : Path) (path : String) (tree : FileTree)
    (result : Except PromotionFault StagedFile) (after : FileTree)
    : Prop where
  recopied : site.Recopied [SafePath.names path] tree after
  told
    : ∀ file,
        result = .ok file
        → site.Verified draftRoot path file
          ∧ ∃ content mode,
              after.get? (site.copyPlace file) = some (.file content mode)
              ∧ file.digest = Sha256.hexDigest content

theorem Fetched.of_error {draftRoot : Path} {path : String} {fault : PromotionFault}
    (recopied : site.Recopied [SafePath.names path] tree after)
    : site.Fetched draftRoot path tree (.error fault) after :=
  ⟨recopied, by simp⟩

/-- Copying a required file, whether it fails or not. -/
theorem Copying.stageFile (copying : site.Copying tree) (lawful : conduct.Lawful)
    {route : PromotionRoute} (same : route.outputRoot = site.outputRoot) {path : String}
    (admits : SafePath.names path ≠ [] → site.Admits (SafePath.names path))
    {result : Except PromotionFault StagedFile}
    (run : (route.stageFile site.stagingPath path).Yields conduct tree result after)
    : site.Fetched route.draftRoot path tree result after := by
  have unchanged : site.Recopied [SafePath.names path] tree tree :=
    (Recopied.refl copying).mono (List.nil_subset _)
  by_cases named : SafePath.names path = []
  · obtain ⟨fault, stopped⟩ := PromotionRoute.stageFile_of_unnamed named
    obtain ⟨rfl, rfl⟩ := yields_throw.mp (stopped ▸ run)
    exact .of_error unchanged
  have admits := admits named
  let file (digest : String) : StagedFile :=
    ⟨path, site.stagingPath.below (SafePath.names path),
      route.outputRoot.below (SafePath.names path), digest⟩
  have binds : ∀ digest, site.Binds (file digest) :=
    fun digest => ⟨admits, rfl, by simp [file, same]⟩
  rw [PromotionRoute.stageFile_of_named named, yields_request_bind] at run
  -- The file of the draft is read.
  rcases run with ⟨fault, rfl, read⟩ | ⟨source, first, read, run⟩
  · obtain rfl := lawful _ _ _ _ read
    exact .of_error unchanged
  obtain ⟨rfl, read⟩ := lawful _ _ _ _ read
  -- The directory for the copy is made.
  rw [yields_bind] at run
  rcases run with ⟨fault, rfl, above⟩ | ⟨_, second, above, run⟩
  · obtain ⟨copying', keeps⟩ := copying.createParent lawful admits above
    exact .of_error ((Recopied.of_keeps copying' keeps).mono (List.nil_subset _))
  obtain ⟨copying', keeps⟩ := copying.createParent lawful admits above
  have readied : site.Recopied [] first second := .of_keeps copying' keeps
  -- The copy is written.
  rw [yields_request_bind] at run
  rcases run with ⟨fault, rfl, copied⟩ | ⟨_, third, copied, run⟩
  · obtain rfl | ⟨place, content, mode, written⟩ := lawful _ _ _ _ copied
    · exact .of_error (readied.mono (List.nil_subset _))
    · exact .of_error (readied.trans (copying'.recopied (binds "") written).1)
  obtain ⟨place, content, mode, written⟩ := lawful _ _ _ _ copied
  obtain ⟨rewritten, here⟩ := copying'.recopied (binds "") written
  have recopied := readied.trans rewritten
  -- The copy is read and compared.
  rw [yields_request_bind] at run
  rcases run with ⟨fault, rfl, again⟩ | ⟨copy, fourth, again, run⟩
  · obtain rfl := lawful _ _ _ _ again
    exact .of_error recopied
  obtain ⟨rfl, again⟩ := lawful _ _ _ _ again
  obtain ⟨place', mode', resolved', found⟩ := readFile_eq_ok.mp again
  obtain rfl := rewritten.copying.resolve_copy (binds "") resolved'
  simp only at run
  split at run
  · obtain ⟨fault, rfl, thrown⟩ | ⟨_, _, thrown, _⟩ := yields_bind.mp run
    · obtain ⟨_, rfl⟩ := yields_throw.mp thrown
      exact .of_error recopied
    · exact absurd (yields_throw.mp thrown).1 (by simp)
  · rename_i equal
    obtain ⟨rfl, rfl⟩ := yields_pure.mp run
    refine ⟨recopied, fun copied same => ?_⟩
    obtain rfl := Except.ok.inj same
    exact ⟨⟨binds _, rfl, _, source, copying, read, rfl⟩, _, _, found, (not_not.mp equal).symm⟩

-----------------------------------------------------------------------------------------
-- Copying all files
-----------------------------------------------------------------------------------------

/-- Copying the required files one after another, whether it fails or not, by induction on them. When
no two of them have the same names, each copy keeps the bytes that were compared.
-/
theorem Copying.stageAll (copying : site.Copying tree) (lawful : conduct.Lawful)
    {route : PromotionRoute} (same : route.outputRoot = site.outputRoot) {required : List String}
    (admits
      : ∀ path ∈ required, SafePath.names path ≠ [] → site.Admits (SafePath.names path))
    {result : Except PromotionFault (List StagedFile)}
    (run
      : PromotionStep.Yields conduct (required.mapM (route.stageFile site.stagingPath)) tree result
          after)
    : site.Recopied (required.map SafePath.names) tree after
      ∧ ∀ files,
          result = .ok files
          → List.Forall₂ (site.Verified route.draftRoot) required files
            ∧ (∀ file ∈ files, ∃ entry, after.get? (site.copyPlace file) = some entry ∧ entry.isFile)
            ∧ ((required.map SafePath.names).Nodup
              → ∀ file ∈ files,
                  ∃ content mode,
                    after.get? (site.copyPlace file) = some (.file content mode)
                    ∧ file.digest = Sha256.hexDigest content) := by
  induction required generalizing tree result with
  | nil =>
      obtain ⟨rfl, rfl⟩ := yields_mapM_nil.mp run
      refine ⟨.refl copying, ?_⟩
      intro files same
      obtain rfl := Except.ok.inj same
      exact ⟨.nil, by simp, by simp⟩
  | cons path rest ih =>
      simp only [List.mem_cons, forall_eq_or_imp] at admits
      rcases yields_mapM_cons.mp run with ⟨fault, stopped, first⟩ | ⟨file, between, first, run⟩
      · have fetched := copying.stageFile lawful same admits.1 first
        refine ⟨fetched.recopied.mono (by simp), ?_⟩
        intro files same
        simp [stopped] at same
      obtain ⟨recopied, kept⟩ := copying.stageFile lawful same admits.1 first
      obtain ⟨verified, content, mode, found, digest⟩ := kept file rfl
      have onward : ∀ {result}, PromotionStep.Yields conduct
          (rest.mapM (route.stageFile site.stagingPath)) between result after → _ :=
        fun run => ih recopied.copying admits.2 run
      rcases run with ⟨fault, stopped, others⟩ | ⟨files, stopped, others⟩
      · refine ⟨recopied.trans (onward others).1, ?_⟩
        intro files same
        simp [stopped] at same
      · obtain ⟨more, keptAll⟩ := onward others
        obtain ⟨verifiedAll, areFiles, digests⟩ := keptAll files rfl
        refine ⟨recopied.trans more, ?_⟩
        intro all same
        obtain rfl := Except.ok.inj (stopped.symm.trans same)
        refine ⟨.cons verified verifiedAll, ?_, ?_⟩
        · simp only [List.mem_cons, forall_eq_or_imp]
          exact ⟨more.files _ _ found rfl, areFiles⟩
        · intro distinct
          obtain ⟨fresh, distinct⟩ := List.nodup_cons.mp distinct
          simp only [List.mem_cons, forall_eq_or_imp]
          refine ⟨⟨content, mode, more.others _ _ _ ?_ found, digest⟩, digests distinct⟩
          rwa [verified.path_eq]

end PromotionSite

end Vetting
