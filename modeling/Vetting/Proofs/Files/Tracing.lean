import Vetting.Proofs.Files.Relocation

/-! What is known of the names along a walk, and where names lead that pass no links. A walk to
something can be taken again in every tree in which all of that still stands.
-/

namespace Vetting.FileTree

variable {tree other : FileTree} {follow : Bool} {links left : Nat} {place goal : Place}
  {names way : List Bytes}

-----------------------------------------------------------------------------------------
-- Names along a walk
-----------------------------------------------------------------------------------------

/-- No name along a walk is too long, by induction on the walk. -/
theorem Walked.short (walked : tree.Walked follow links place names goal)
    : ∀ name ∈ names, name.length ≤ nameLimit := by
  induction walked with
  | arrived => simp
  | ended _ short _ => simpa using short
  | entered _ short _ _ _ ih => exact List.forall_mem_cons.mpr ⟨short, ih⟩
  | turned _ short _ _ _ ih =>
      refine List.forall_mem_cons.mpr ⟨short, fun name member => ih name ?_⟩
      exact List.mem_append_right _ member

/-- The names along a walk to something are known, by induction on the walk. -/
theorem Walked.known (walked : tree.Walked follow links place names goal) {entry : Entry}
    (found : tree.get? goal = some entry)
    : ∀ name ∈ names, tree.Known name := by
  induction walked with
  | arrived => simp
  | ended _ _ _ => simpa using known_of_get? found
  | entered _ _ here _ _ ih => exact List.forall_mem_cons.mpr ⟨known_of_get? here, ih found⟩
  | turned _ _ here _ _ ih =>
      refine List.forall_mem_cons.mpr ⟨known_of_get? here, fun name member => ih found name ?_⟩
      exact List.mem_append_right _ member

/-- A walk to something can be taken where all of that still stands, by induction on the walk. -/
theorem Walked.kept
    (kept : ∀ spot entry, tree.get? spot = some entry → other.get? spot = some entry)
    (walked : tree.Walked follow links place names goal) {entry : Entry}
    (found : tree.get? goal = some entry)
    : other.Walked follow links place names goal := by
  induction walked with
  | arrived links place => exact .arrived links place
  | ended directory short free =>
      rcases free with free | ⟨unfollowed, target, link⟩
      · exact absurd found (by simp [free])
      · exact .ended (kept _ _ directory) short (Or.inr ⟨unfollowed, target, kept _ _ link⟩)
  | entered directory short here noLink _ ih =>
      exact .entered (kept _ _ directory) short (kept _ _ here) noLink (ih found)
  | turned directory short here followed _ ih =>
      exact .turned (kept _ _ directory) short (kept _ _ here) followed (ih found)

variable {path : Path} {content : Bytes}

/-- The names along the path of a file that can be read are known. -/
theorem known_of_readFile (read : tree.readFile path = .ok content)
    : ∀ name ∈ path.names, tree.Known name := by
  obtain ⟨place, mode, resolved, found⟩ := readFile_eq_ok.mp read
  exact (walked_of_walk (resolve_eq_ok.mp resolved).2).known found

/-- A file that can be read has the same bytes where all that stands is kept. -/
theorem readFile_kept (here : other.here = tree.here)
    (kept : ∀ spot entry, tree.get? spot = some entry → other.get? spot = some entry)
    (read : tree.readFile path = .ok content)
    : other.readFile path = .ok content := by
  obtain ⟨place, mode, resolved, found⟩ := readFile_eq_ok.mp read
  obtain ⟨usable, walked⟩ := resolve_eq_ok.mp resolved
  have again := ((walked_of_walk walked).kept kept found).walk
  exact readFile_eq_ok.mpr
    ⟨place, mode, resolve_eq_ok.mpr ⟨usable, here ▸ again⟩, kept _ _ found⟩

/-- A course is a walk in which every link is followed, by induction on it. -/
theorem Course.walked (course : tree.Course links place way left goal)
    : tree.Walked true links place way goal := by
  induction course with
  | stay links place => exact .arrived links place
  | enter directory short found _ ih => exact .entered directory short found (by simp) ih
  | turn directory short found _ ih => exact .turned directory short found (fun _ => rfl) ih

/-- No link stands where the first of some names lead one after another. -/
def LinkFree (tree : FileTree) (start : Place) (way : List Bytes) : Prop :=
  ∀ front,
    front ≠ [] → front <+: way → ∀ target, tree.get? (front.foldl step start) ≠ some (.link target)

theorem LinkFree.first {name : Bytes} (free : tree.LinkFree place (name :: way)) (target : Path)
    : tree.get? (step place name) ≠ some (.link target) :=
  free [name] (by simp) (by simp) target

theorem LinkFree.rest {name : Bytes} (free : tree.LinkFree place (name :: way))
    : tree.LinkFree (step place name) way :=
  fun front _ isFront => free (name :: front) (by simp) (by simpa using isFront)

theorem LinkFree.front {whole : List Bytes} (free : tree.LinkFree place whole)
    (isFront : way <+: whole)
    : tree.LinkFree place way :=
  fun front some inside => free front some (inside.trans isFront)

/-- In a tree of files and directories alone, no way passes a link. -/
theorem linkFree_of_entries (plain : ∀ e ∈ tree.entries, e.2.isDirectory ∨ e.2.isFile)
    : tree.LinkFree place way := by
  intro front _ _ target link
  have below : front.foldl step place ≠ [] := by
    intro root
    rw [root, get?_nil] at link
    exact absurd link (by simp)
  simpa [Entry.isDirectory, Entry.isFile] using plain _ (mem_of_get? below link)

/-- Names that pass no links lead where they do one after another, by induction on them. -/
theorem LinkFree.leads (free : tree.LinkFree place way)
    : tree.Leads place way (way.foldl step place) := by
  induction way generalizing place with
  | nil => exact .stay place
  | cons name rest ih => exact .enter free.first (ih free.rest)

/-- Names of what stands in directories are added to a place. -/
theorem foldl_step_of_isName (place : Place) (proper : ∀ name ∈ way, Path.IsName name)
    : way.foldl step place = place ++ way := by
  induction way generalizing place with
  | nil => simp
  | cons name rest ih =>
      obtain ⟨first, others⟩ := List.forall_mem_cons.mp proper
      rw [List.foldl_cons, step_of_isName place first, ih _ others, List.append_assoc,
        List.singleton_append]

/-- A way without links has none in a tree that has no others. -/
theorem Resembles.linkFree {hidden : List Bytes} {base : FileTree}
    (like : Resembles hidden base tree) (placeClear : Clear hidden place)
    (wayClear : Clear hidden way) (free : base.LinkFree place way)
    : tree.LinkFree place way := by
  intro front some isFront target link
  have clear : Clear hidden (front.foldl step place) :=
    placeClear.foldl_step (wayClear.subset isFront.subset)
  exact free front some isFront target (like.links _ _ clear link)

/-- A course without links can be taken wherever the directories still stand, by induction on it. -/
theorem Course.kept
    (kept
      : ∀ spot mode,
          tree.get? spot = some (.directory mode) → other.get? spot = some (.directory mode))
    (course : tree.Course links place way left goal) (free : tree.LinkFree place way)
    : other.Course links place way left goal := by
  induction course with
  | stay links place => exact .stay links place
  | enter directory short found _ ih =>
      exact .enter (kept _ _ directory) short (kept _ _ found) (ih free.rest)
  | turn _ _ found _ _ => exact absurd found (free.first _)

end Vetting.FileTree
