import Vetting.Proofs.Files.Entries
import Vetting.Proofs.Files.PathNames

/-! The ways along which paths lead through a tree. A way that has been walked in one tree is also
walked in a tree that has the same directories and links on it, and it leads to the same place
through every tree that turns off at the same links.
-/

namespace Vetting

/-- None of some hidden names is among names. -/
def Clear (hidden names : List Bytes) : Prop :=
  ∀ name ∈ names, name ∉ hidden

@[simp] theorem clear_nil (hidden : List Bytes) : Clear hidden [] := by
  simp [Clear]

@[simp] theorem clear_of_nothing (names : List Bytes) : Clear [] names := by
  simp [Clear]

@[simp] theorem clear_append {hidden front back : List Bytes}
    : Clear hidden (front ++ back) ↔ Clear hidden front ∧ Clear hidden back := by
  simp only [Clear, List.mem_append, or_imp, forall_and]

@[simp] theorem clear_cons {hidden rest : List Bytes} {name : Bytes}
    : Clear hidden (name :: rest) ↔ name ∉ hidden ∧ Clear hidden rest := by
  simp only [Clear, List.mem_cons, or_imp, forall_and, forall_eq]

@[simp] theorem clear_singleton {name : Bytes} {names : List Bytes}
    : Clear [name] names ↔ name ∉ names := by
  simp only [Clear, List.mem_singleton]
  exact ⟨fun clear member => clear name member rfl, fun absent _ member same => absent (same ▸ member)⟩

theorem Clear.subset {hidden names others : List Bytes} (clear : Clear hidden names)
    (included : others ⊆ names)
    : Clear hidden others :=
  fun name member => clear name (included member)

theorem Clear.step {hidden : List Bytes} {place : Place} {name : Bytes}
    (clear : Clear hidden place) (shown : name ∉ hidden)
    : Clear hidden (FileTree.step place name) := by
  unfold FileTree.step
  split
  · exact clear
  split
  · exact clear.subset (List.dropLast_subset place)
  · simp [clear, shown]

theorem Clear.foldl_step {hidden : List Bytes} {place : Place} {way : List Bytes}
    (placeClear : Clear hidden place) (wayClear : Clear hidden way)
    : Clear hidden (way.foldl FileTree.step place) := by
  induction way generalizing place with
  | nil => exact placeClear
  | cons name rest ih =>
      obtain ⟨nameClear, restClear⟩ := clear_cons.mp wayClear
      exact ih (placeClear.step nameClear) restClear

theorem Clear.start {hidden : List Bytes} {directory : Place} (path : Path)
    (clear : Clear hidden directory)
    : Clear hidden (path.start directory) := by
  unfold Path.start
  split
  · exact clear_nil hidden
  · exact clear

namespace FileTree

theorem step_of_isName (place : Place) {name : Bytes} (proper : Path.IsName name)
    : step place name = place ++ [name] := by
  simp [step, proper.notDot, proper.notDotDot]

/-- Every name of a way occurs in a tree, or is one of the names that stay or go up. -/
def Known (tree : FileTree) (name : Bytes) : Prop :=
  name = Path.dot ∨ name = Path.dotDot ∨ name ∈ tree.names

theorem known_of_get? {tree : FileTree} {place : Place} {name : Bytes} {entry : Entry}
    (found : tree.get? (step place name) = some entry)
    : tree.Known name := by
  unfold step at found
  split at found
  · exact Or.inl (by simpa using ‹(name == Path.dot) = true›)
  split at found
  · exact Or.inr (Or.inl (by simpa using ‹(name == Path.dotDot) = true›))
  · exact Or.inr (Or.inr (List.mem_flatMap.mpr
      ⟨_, mem_of_get? (by simp) found, by simp⟩))

/-- The names along links hide nothing, where nothing is hidden. -/
def LinksClear (tree : FileTree) (hidden : List Bytes) : Prop :=
  ∀ place target,
    Clear hidden place → tree.get? place = some (.link target) → Clear hidden target.names

theorem linksClear_of_not_mem {tree : FileTree} {hidden : List Bytes}
    (unused : ∀ name ∈ hidden, name ∉ tree.names)
    : tree.LinksClear hidden := by
  intro place target _ found name member
  have below : place ≠ [] := by
    rintro rfl
    simp at found
  exact fun isHidden => unused name isHidden
    (List.mem_flatMap.mpr ⟨_, mem_of_get? below found, by simp [Entry.linkNames, member]⟩)

-----------------------------------------------------------------------------------------
-- Single steps of a walk
-----------------------------------------------------------------------------------------

@[simp] theorem walk_nil (tree : FileTree) (follow : Bool) (links : Nat) (place : Place)
    : tree.walk follow links place [] = .ok place := by
  cases links <;> rfl

/-- A walk along a name and others, whatever number of links may be followed. -/
theorem walk_cons_eq (tree : FileTree) (follow : Bool) (links : Nat) (place : Place) (name : Bytes)
    (rest : List Bytes)
    : tree.walk follow links place (name :: rest)
      = match tree.get? place with
        | none => .error .missing
        | some (.directory _) =>
            if nameLimit < name.length then .error .nameTooLong
            else
              match tree.get? (step place name) with
              | some (.link target) =>
                  if rest.isEmpty && !follow then .ok (step place name)
                  else
                    match links with
                    | 0 => .error .tooManyLinks
                    | left + 1 => tree.walk follow left (target.start place) (target.names ++ rest)
              | some _ => tree.walk follow links (step place name) rest
              | none => if rest.isEmpty then .ok (step place name) else .error .missing
        | some _ => .error .notDirectory := by
  cases links <;> rfl

/-- What a walk does at its first name: it ends where nothing stands or a link is not followed, it
enters what is no link, or it turns off at a link.
-/
inductive Stride (tree : FileTree) (follow : Bool) (links : Nat) (place : Place) (name : Bytes)
    (rest : List Bytes) (goal : Place)
    : Prop
  | ended (last : rest = []) (here : goal = step place name)
    (free : tree.get? (step place name) = none
      ∨ follow = false ∧ ∃ target, tree.get? (step place name) = some (.link target))
  | entered {entry} (found : tree.get? (step place name) = some entry)
    (noLink : ∀ target, entry ≠ .link target)
    (onward : tree.walk follow links (step place name) rest = .ok goal)
  | turned {target left} (found : tree.get? (step place name) = some (.link target))
    (spent : links = left + 1) (followed : rest = [] → follow = true)
    (onward : tree.walk follow left (target.start place) (target.names ++ rest) = .ok goal)

/-- A walk arrives somewhere only from a directory, along a name that is not too long. -/
theorem walk_cons {tree : FileTree} {follow : Bool} {links : Nat} {place goal : Place}
    {name : Bytes} {rest : List Bytes}
    : tree.walk follow links place (name :: rest) = .ok goal
      ↔ (∃ mode, tree.get? place = some (.directory mode))
        ∧ name.length ≤ nameLimit
        ∧ tree.Stride follow links place name rest goal := by
  rw [walk_cons_eq]
  constructor
  · intro walked
    split at walked
    · exact absurd walked (by simp)
    · rename_i mode directory
      split at walked
      · exact absurd walked (by simp)
      · refine ⟨⟨mode, directory⟩, by omega, ?_⟩
        split at walked
        · rename_i target found
          split at walked
          · rename_i last
            simp only [Bool.and_eq_true, List.isEmpty_iff, Bool.not_eq_true'] at last
            exact .ended last.1 (Except.ok.inj walked).symm (Or.inr ⟨last.2, target, found⟩)
          · rename_i more
            split at walked
            · exact absurd walked (by simp)
            · refine .turned found rfl ?_ walked
              intro last
              simpa [last] using more
        · rename_i entry noLink found
          exact .entered found (fun target same => noLink target same) walked
        · rename_i found
          split at walked
          · rename_i last
            exact .ended (List.isEmpty_iff.mp last) (Except.ok.inj walked).symm (Or.inl found)
          · exact absurd walked (by simp)
    · exact absurd walked (by simp)
  · rintro ⟨⟨mode, directory⟩, short, stride⟩
    simp only [directory, if_neg (Nat.not_lt.mpr short)]
    cases stride with
    | ended last here free =>
        rcases free with free | ⟨unfollowed, target, found⟩
        · simp [free, last, here]
        · simp [found, last, here, unfollowed]
    | @entered entry found noLink onward =>
        cases entry <;> simp_all
    | turned found spent followed onward =>
        subst spent
        have more : ¬ (rest.isEmpty && !follow) = true := by
          intro both
          simp only [Bool.and_eq_true, List.isEmpty_iff, Bool.not_eq_true'] at both
          simp [followed both.1] at both
        simp [found, more, onward]

/-- A walk that arrives at a place, name by name. -/
inductive Walked (tree : FileTree) (follow : Bool) : Nat → Place → List Bytes → Place → Prop
  | arrived (links : Nat) (place : Place) : Walked tree follow links place [] place
  | ended {links place name mode} (directory : tree.get? place = some (.directory mode))
    (short : name.length ≤ nameLimit)
    (free : tree.get? (step place name) = none
      ∨ follow = false ∧ ∃ target, tree.get? (step place name) = some (.link target))
    : Walked tree follow links place [name] (step place name)
  | entered {links place name rest goal mode entry}
    (directory : tree.get? place = some (.directory mode)) (short : name.length ≤ nameLimit)
    (found : tree.get? (step place name) = some entry) (noLink : ∀ target, entry ≠ .link target)
    (onward : Walked tree follow links (step place name) rest goal)
    : Walked tree follow links place (name :: rest) goal
  | turned {links place name rest target goal mode}
    (directory : tree.get? place = some (.directory mode)) (short : name.length ≤ nameLimit)
    (found : tree.get? (step place name) = some (.link target))
    (followed : rest = [] → follow = true)
    (onward : Walked tree follow links (target.start place) (target.names ++ rest) goal)
    : Walked tree follow (links + 1) place (name :: rest) goal

/-- A walk that arrives does so name by name, by induction on the links that are left and then on the
names.
-/
theorem walked_of_walk {tree : FileTree} {follow : Bool} {links : Nat} {place goal : Place}
    {names : List Bytes} (walked : tree.walk follow links place names = .ok goal)
    : tree.Walked follow links place names goal := by
  induction links using Nat.strongRecOn generalizing place names with
  | ind links ih =>
      induction names generalizing place with
      | nil =>
          obtain rfl := Except.ok.inj ((walk_nil tree follow links place).symm.trans walked)
          exact .arrived links place
      | cons name rest inner =>
          obtain ⟨⟨mode, directory⟩, short, stride⟩ := walk_cons.mp walked
          cases stride with
          | ended last here free =>
              subst last here
              exact .ended directory short free
          | entered found noLink onward =>
              exact .entered directory short found noLink (inner onward)
          | turned found spent followed onward =>
              subst spent
              exact .turned directory short found followed (ih _ (by omega) onward)

theorem Walked.walk {tree : FileTree} {follow : Bool} {links : Nat} {place goal : Place}
    {names : List Bytes} (walked : tree.Walked follow links place names goal)
    : tree.walk follow links place names = .ok goal := by
  induction walked with
  | arrived links place => exact walk_nil ..
  | ended directory short free => exact walk_cons.mpr ⟨⟨_, directory⟩, short, .ended rfl rfl free⟩
  | entered directory short found noLink _ ih =>
      exact walk_cons.mpr ⟨⟨_, directory⟩, short, .entered found noLink ih⟩
  | turned directory short found followed _ ih =>
      exact walk_cons.mpr ⟨⟨_, directory⟩, short, .turned found rfl followed ih⟩

/-- A walk that has more names to go is in a directory. -/
theorem Walked.directory {tree : FileTree} {follow : Bool} {links : Nat} {place goal : Place}
    {names : List Bytes} (walked : tree.Walked follow links place names goal) (more : names ≠ [])
    : ∃ mode, tree.get? place = some (.directory mode) := by
  cases walked with
  | arrived => exact absurd rfl more
  | ended directory _ _ => exact ⟨_, directory⟩
  | entered directory _ _ _ _ => exact ⟨_, directory⟩
  | turned directory _ _ _ _ => exact ⟨_, directory⟩

-----------------------------------------------------------------------------------------
-- Courses: walks that go on
-----------------------------------------------------------------------------------------

/-- Walking along a way leads to a place from which the walk goes on, through directories only; of
the links that may be followed, some are left.
-/
inductive Course (tree : FileTree) : Nat → Place → List Bytes → Nat → Place → Prop
  | stay (links : Nat) (place : Place) : Course tree links place [] links place
  | enter {links place name rest left goal mode mode'}
    (directory : tree.get? place = some (.directory mode))
    (short : name.length ≤ nameLimit)
    (found : tree.get? (step place name) = some (.directory mode'))
    (onward : Course tree links (step place name) rest left goal)
    : Course tree links place (name :: rest) left goal
  | turn {links place name rest target left goal mode}
    (directory : tree.get? place = some (.directory mode))
    (short : name.length ≤ nameLimit)
    (found : tree.get? (step place name) = some (.link target))
    (onward : Course tree links (target.start place) (target.names ++ rest) left goal)
    : Course tree (links + 1) place (name :: rest) left goal

/-- A walk along more names follows a course along the first of them, by induction on the walk. -/
theorem course_of_walk {tree : FileTree} {follow : Bool} {links : Nat} {place goal : Place}
    {way rest : List Bytes} (more : rest ≠ [])
    (walked : tree.walk follow links place (way ++ rest) = .ok goal)
    : ∃ left middle,
        tree.Course links place way left middle ∧ tree.walk follow left middle rest = .ok goal := by
  replace walked := walked_of_walk walked
  generalize joined : way ++ rest = names at walked
  induction walked generalizing way with
  | arrived links place => exact absurd (List.append_eq_nil_iff.mp joined).2 more
  | @ended links place name mode directory short free =>
      rcases List.append_eq_cons_iff.mp joined with ⟨rfl, rfl⟩ | ⟨tail, rfl, none⟩
      · exact ⟨links, place, .stay links place, (Walked.ended directory short free).walk⟩
      · exact absurd (List.append_eq_nil_iff.mp none.symm).2 more
  | @entered links place name names goal mode entry directory short found noLink onward ih =>
      rcases List.append_eq_cons_iff.mp joined with ⟨rfl, rfl⟩ | ⟨tail, rfl, rfl⟩
      · exact ⟨links, place, .stay links place,
          (Walked.entered directory short found noLink onward).walk⟩
      · obtain ⟨left, middle, course, onwards⟩ := ih rfl
        obtain ⟨mode', next⟩ := onward.directory (by simp [more])
        exact ⟨left, middle, .enter directory short next course, onwards⟩
  | @turned links place name names target goal mode directory short found followed onward ih =>
      rcases List.append_eq_cons_iff.mp joined with ⟨rfl, rfl⟩ | ⟨tail, rfl, rfl⟩
      · exact ⟨links + 1, place, .stay _ place,
          (Walked.turned directory short found followed onward).walk⟩
      · obtain ⟨left, middle, course, onwards⟩ := ih (List.append_assoc ..)
        exact ⟨left, middle, .turn directory short found course, onwards⟩

/-- A walk that follows a course goes on from its end. -/
theorem Course.walk {tree : FileTree} {links left : Nat} {place middle : Place}
    {way : List Bytes} (course : tree.Course links place way left middle) {follow : Bool}
    {rest : List Bytes} (more : rest ≠ []) {goal : Place}
    : tree.walk follow links place (way ++ rest) = .ok goal
      ↔ tree.walk follow left middle rest = .ok goal := by
  induction course with
  | stay links place => simp
  | enter directory short found onward ih =>
      rw [← ih, List.cons_append, walk_cons]
      constructor
      · rintro ⟨_, _, stride⟩
        cases stride with
        | ended last _ _ => exact absurd last (by simp [more])
        | entered _ _ onward => exact onward
        | turned link _ _ _ => simp [found] at link
      · exact fun walked => ⟨⟨_, directory⟩, short, .entered found (by simp) walked⟩
  | turn directory short found onward ih =>
      rw [← ih, List.cons_append, walk_cons]
      constructor
      · rintro ⟨_, _, stride⟩
        cases stride with
        | ended last _ _ => exact absurd last (by simp [more])
        | entered here noLink _ =>
            rw [found] at here
            exact absurd (Option.some.inj here).symm (noLink _)
        | turned link spent _ walked =>
            obtain rfl := Nat.succ.inj spent
            rw [found] at link
            obtain rfl := Entry.link.inj (Option.some.inj link)
            simpa using walked
      · intro walked
        refine ⟨⟨_, directory⟩, short, .turned found rfl (by simp [more]) ?_⟩
        simpa using walked

/-- The names of a course are those of directories and links, or they stay or go up. -/
theorem Course.known {tree : FileTree} {links left : Nat} {place middle : Place}
    {way : List Bytes} (course : tree.Course links place way left middle)
    : ∀ name ∈ way, tree.Known name := by
  induction course with
  | stay => simp
  | enter _ _ found _ ih =>
      simp only [List.mem_cons, forall_eq_or_imp]
      exact ⟨known_of_get? found, ih⟩
  | turn _ _ found _ ih =>
      simp only [List.mem_cons, forall_eq_or_imp]
      exact ⟨known_of_get? found, fun name member => ih name (by simp [member])⟩

/-- A course that ends in a directory starts in one. -/
theorem Course.directory {tree : FileTree} {links left : Nat} {place middle : Place}
    {way : List Bytes} (course : tree.Course links place way left middle)
    (ends : ∃ mode, tree.get? middle = some (.directory mode))
    : ∃ mode, tree.get? place = some (.directory mode) := by
  cases course with
  | stay => exact ends
  | enter directory _ _ _ => exact ⟨_, directory⟩
  | turn directory _ _ _ => exact ⟨_, directory⟩

/-- A course goes through directories without links. -/
theorem Course.through {tree : FileTree} (links : Nat) {place : Place} {way : List Bytes}
    (proper : ∀ name ∈ way, Path.IsName name) (short : ∀ name ∈ way, name.length ≤ nameLimit)
    (directories
      : ∀ front, front <+: way → ∃ mode, tree.get? (place ++ front) = some (.directory mode))
    : tree.Course links place way links (place ++ way) := by
  induction way generalizing place with
  | nil => simpa using Course.stay links place
  | cons name rest ih =>
      simp only [List.mem_cons, forall_eq_or_imp] at proper short
      have step := step_of_isName place proper.1
      obtain ⟨mode, directory⟩ := directories [] (List.nil_prefix)
      obtain ⟨mode', next⟩ := directories [name] (by simp)
      rw [List.append_nil] at directory
      refine .enter directory short.1 (step ▸ next) ?_
      have split : place ++ name :: rest = (place ++ [name]) ++ rest := by simp
      rw [step, split]
      refine ih proper.2 short.2 fun front isFront => ?_
      simpa using directories (name :: front) (by simpa using isFront)

theorem Course.append {tree : FileTree} {links between left : Nat} {place middle goal : Place}
    {way rest : List Bytes} (first : tree.Course links place way between middle)
    (second : tree.Course between middle rest left goal)
    : tree.Course links place (way ++ rest) left goal := by
  induction first with
  | stay => exact second
  | enter directory short found _ ih => exact .enter directory short found (ih second)
  | turn directory short found _ ih =>
      rw [List.cons_append]
      refine .turn directory short found ?_
      rw [← List.append_assoc]
      exact ih second

-----------------------------------------------------------------------------------------
-- Courses in other trees
-----------------------------------------------------------------------------------------

/-- Where nothing is hidden, a tree has the directories and links of another one. -/
def Retains (hidden : List Bytes) (tree other : FileTree) : Prop :=
  ∀ place entry,
    Clear hidden place
    → (entry.isDirectory ∨ ∃ target, entry = .link target)
    → tree.get? place = some entry
    → other.get? place = some entry

/-- A course can be taken in every tree that retains the directories and links. -/
theorem Course.retained {hidden : List Bytes} {tree other : FileTree}
    (links : tree.LinksClear hidden) (retains : tree.Retains hidden other)
    {count left : Nat} {place middle : Place} {way : List Bytes}
    (course : tree.Course count place way left middle) (placeClear : Clear hidden place)
    (wayClear : Clear hidden way)
    : other.Course count place way left middle := by
  induction course with
  | stay links place => exact .stay links place
  | enter directory short found _ ih =>
      obtain ⟨nameClear, restClear⟩ := clear_cons.mp wayClear
      have nextClear := placeClear.step nameClear
      exact .enter (retains _ _ placeClear (Or.inl rfl) directory) short
        (retains _ _ nextClear (Or.inl rfl) found) (ih nextClear restClear)
  | turn directory short found _ ih =>
      obtain ⟨nameClear, restClear⟩ := clear_cons.mp wayClear
      exact .turn (retains _ _ placeClear (Or.inl rfl) directory) short
        (retains _ _ (placeClear.step nameClear) (Or.inr ⟨_, rfl⟩) found)
        (ih (placeClear.start _)
          (clear_append.mpr ⟨links _ _ (placeClear.step nameClear) found, restClear⟩))

/-- The place to which names lead once missing directories have been made: all links are followed,
and everything else is entered.
-/
inductive Leads (tree : FileTree) : Place → List Bytes → Place → Prop
  | stay (place : Place) : Leads tree place [] place
  | enter {place name rest goal}
    (noLink : ∀ target, tree.get? (step place name) ≠ some (.link target))
    (onward : Leads tree (step place name) rest goal)
    : Leads tree place (name :: rest) goal
  | turn {place name target rest goal}
    (link : tree.get? (step place name) = some (.link target))
    (onward : Leads tree (target.start place) (target.names ++ rest) goal)
    : Leads tree place (name :: rest) goal

/-- Names lead to one place. -/
theorem Leads.unique {tree : FileTree} {place goal other : Place} {names : List Bytes}
    (one : tree.Leads place names goal) (two : tree.Leads place names other)
    : goal = other := by
  induction one with
  | stay => cases two; rfl
  | enter noLink _ ih =>
      cases two with
      | enter _ onward => exact ih onward
      | turn link _ => exact absurd link (noLink _)
  | turn link _ ih =>
      cases two with
      | enter noLink _ => exact absurd link (noLink _)
      | turn other onward =>
          obtain rfl := Entry.link.inj (Option.some.inj (link.symm.trans other))
          exact ih onward

theorem Leads.append {tree : FileTree} {place middle goal : Place} {names rest : List Bytes}
    (first : tree.Leads place names middle) (second : tree.Leads middle rest goal)
    : tree.Leads place (names ++ rest) goal := by
  induction first with
  | stay => exact second
  | enter noLink _ ih => exact .enter noLink (ih second)
  | turn link _ ih =>
      rw [List.cons_append]
      refine .turn link ?_
      rw [← List.append_assoc]
      exact ih second

/-- Where nothing is hidden, the links of a tree are those of a base, and its directories stand
where the base has no links.
-/
structure Resembles (hidden : List Bytes) (base tree : FileTree) : Prop where
  here : tree.here = base.here
  links
    : ∀ place target,
        Clear hidden place
        → tree.get? place = some (.link target)
        → base.get? place = some (.link target)
  directories
    : ∀ place mode,
        Clear hidden place
        → tree.get? place = some (.directory mode)
        → ∀ target, base.get? place ≠ some (.link target)

theorem Resembles.refl (hidden : List Bytes) (tree : FileTree)
    : Resembles hidden tree tree := by
  refine ⟨rfl, fun _ _ _ found => found, fun place mode _ found target => ?_⟩
  simp [found]

/-- A tree that has nothing new resembles the base as before. -/
theorem Resembles.shrunk {hidden : List Bytes} {base tree after : FileTree}
    (like : Resembles hidden base tree) (here : after.here = tree.here)
    (old
      : ∀ place entry,
          Clear hidden place → after.get? place = some entry → tree.get? place = some entry)
    : Resembles hidden base after := by
  refine ⟨here.trans like.here, ?_, ?_⟩
  · exact fun place target clear found => like.links _ _ clear (old _ _ clear found)
  · exact fun place mode clear found => like.directories _ mode clear (old _ _ clear found)

/-- A course in a tree leads to its end by the base which the tree resembles. -/
theorem Course.leads {hidden : List Bytes} {base tree : FileTree}
    (clearLinks : base.LinksClear hidden) (like : Resembles hidden base tree)
    {links left : Nat} {place middle : Place} {way : List Bytes}
    (course : tree.Course links place way left middle) (placeClear : Clear hidden place)
    (wayClear : Clear hidden way)
    : base.Leads place way middle ∧ Clear hidden middle := by
  induction course with
  | stay links place => exact ⟨.stay place, placeClear⟩
  | enter _ _ found _ ih =>
      obtain ⟨nameClear, restClear⟩ := clear_cons.mp wayClear
      have nextClear := placeClear.step nameClear
      obtain ⟨leads, clear⟩ := ih nextClear restClear
      exact ⟨.enter (like.directories _ _ nextClear found) leads, clear⟩
  | turn _ _ found _ ih =>
      obtain ⟨nameClear, restClear⟩ := clear_cons.mp wayClear
      have nextClear := placeClear.step nameClear
      have link := like.links _ _ nextClear found
      obtain ⟨leads, clear⟩ :=
        ih (placeClear.start _) (clear_append.mpr ⟨clearLinks _ _ nextClear link, restClear⟩)
      exact ⟨.turn link leads, clear⟩

/-- A tree has no other links than the base which it resembles. -/
theorem Resembles.linksClear {hidden : List Bytes} {base tree : FileTree}
    (like : Resembles hidden base tree) (clearLinks : base.LinksClear hidden)
    : tree.LinksClear hidden :=
  fun place target clear link => clearLinks place target clear (like.links place target clear link)

-----------------------------------------------------------------------------------------
-- The places to which paths lead
-----------------------------------------------------------------------------------------

/-- What a path has to be, whatever the tree, so that it may lead somewhere. -/
structure Usable (path : Path) : Prop where
  noZero : path.bytes.contains 0 = false
  nonempty : path.isEmpty = false
  short : path.bytes.length < pathLimit

theorem resolve_eq_ok {tree : FileTree} {follow : Bool} {path : Path} {place : Place}
    : tree.resolve follow path = .ok place
      ↔ Usable path
        ∧ tree.walk follow linkLimit (path.start tree.here) path.names = .ok place := by
  unfold resolve
  constructor
  · intro resolved
    split at resolved
    · exact absurd resolved (by simp)
    split at resolved
    · exact absurd resolved (by simp)
    split at resolved
    · exact absurd resolved (by simp)
    · exact ⟨⟨by simp_all, by simp_all, by omega⟩, resolved⟩
  · rintro ⟨usable, walked⟩
    simp only [usable.noZero, usable.nonempty, Nat.not_le.mpr usable.short, if_false,
      Bool.false_eq_true, walked]

theorem walk_single {tree : FileTree} {links : Nat} {place goal : Place} {name : Bytes}
    : tree.walk false links place [name] = .ok goal
      ↔ (∃ mode, tree.get? place = some (.directory mode))
        ∧ name.length ≤ nameLimit
        ∧ goal = step place name := by
  rw [walk_cons]
  refine and_congr_right fun _ => and_congr_right fun _ => ?_
  constructor
  · intro stride
    cases stride with
    | ended _ here _ => exact here
    | entered _ _ onward => exact (Except.ok.inj (walk_nil .. ▸ onward)).symm
    | turned _ _ followed _ => exact absurd (followed rfl) (by simp)
  · rintro rfl
    cases found : tree.get? (step place name) with
    | none => exact .ended rfl rfl (Or.inl found)
    | some entry =>
        cases entry with
        | link target => exact .ended rfl rfl (Or.inr ⟨rfl, target, found⟩)
        | _ => exact .entered found (by simp) (walk_nil ..)

/-- A path whose last link is not followed leads from the end of a course along its last name. -/
theorem resolve_concat {tree : FileTree} {path : Path} {front : List Bytes} {last : Bytes}
    (names : path.names = front ++ [last]) {place : Place}
    : tree.resolve false path = .ok place
      ↔ Usable path
        ∧ ∃ left middle,
            tree.Course linkLimit (path.start tree.here) front left middle
            ∧ (∃ mode, tree.get? middle = some (.directory mode))
            ∧ last.length ≤ nameLimit
            ∧ place = step middle last := by
  rw [resolve_eq_ok, names]
  refine and_congr_right fun _ => ?_
  constructor
  · intro walked
    obtain ⟨left, middle, course, walked⟩ := course_of_walk (by simp) walked
    exact ⟨left, middle, course, walk_single.mp walked⟩
  · rintro ⟨left, middle, course, walked⟩
    exact (course.walk (by simp)).mpr (walk_single.mpr walked)

/-- The place at which a path ends once missing directories have been made; a link there is not
followed.
-/
def LeadsTo (tree : FileTree) (path : Path) (place : Place) : Prop :=
  ∃ front last middle,
    path.names = front ++ [last]
    ∧ tree.Leads (path.start tree.here) front middle
    ∧ place = step middle last

theorem LeadsTo.unique {tree : FileTree} {path : Path} {place other : Place}
    (one : tree.LeadsTo path place) (two : tree.LeadsTo path other)
    : place = other := by
  obtain ⟨front, last, middle, names, leads, rfl⟩ := one
  obtain ⟨front', last', middle', names', leads', rfl⟩ := two
  obtain ⟨rfl, same⟩ := List.append_inj' (names.symm.trans names') rfl
  obtain rfl := List.singleton_inj.mp same
  rw [leads.unique leads']

/-- Nothing stands where a walk ends only in a directory, by induction on the walk. -/
theorem WellFormed.walk_free {tree : FileTree} (wf : tree.WellFormed) {follow : Bool}
    {links : Nat} {place goal : Place} {names : List Bytes}
    (starts : names = [] → tree.get? place ≠ none)
    (walked : tree.walk follow links place names = .ok goal) (free : tree.get? goal = none)
    : ∃ directory name mode,
        goal = directory ++ [name] ∧ tree.get? directory = some (.directory mode) := by
  replace walked := walked_of_walk walked
  induction walked with
  | arrived links place => exact absurd free (starts rfl)
  | @ended links place name mode directory short _ =>
      unfold step at free ⊢
      split
      · rename_i stays
        simp [stays, directory] at free
      split
      · rename_i stays up
        simp only [stays, up, if_true, Bool.false_eq_true, if_false] at free
        by_cases root : place = []
        · simp [root] at free
        · obtain ⟨_, parent⟩ := wf.parent root directory
          simp [parent] at free
      · exact ⟨place, name, mode, rfl, directory⟩
  | entered directory short found noLink onward ih =>
      exact ih (fun _ => by simp [found]) free
  | @turned links place name rest target goal mode directory short found followed onward ih =>
      refine ih (fun _ => ?_) free
      unfold Path.start
      split
      · simp
      · simp [directory]

end FileTree

end Vetting
