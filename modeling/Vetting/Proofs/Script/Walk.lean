import Vetting.Script.Tree

/-! The walk over a syntax tree. A node is found by its path, the places of the nodes on the way to it
among their siblings, and paths are ordered as words are: each before those that go on behind it, and
siblings from left to right. The walk ends, and lists every node of the tree once, in the order of their
paths.
-/

namespace Vetting.Script

-----------------------------------------------------------------------------------------
-- Paths
-----------------------------------------------------------------------------------------

namespace SyntaxTree

/-- The node that a path leads to. -/
def at? : List Nat → SyntaxTree → Option SyntaxTree
  | [], t => some t
  | place :: path, t => t.children[place]?.bind (at? path)

/-- A list holds every node of a tree once, in the order of their paths. -/
def Lists (t : SyntaxTree) (nodes : List SyntaxTree) : Prop :=
  ∃ paths : List (List Nat),
    paths.Pairwise (· < ·)
    ∧ (∀ path, path ∈ paths ↔ ∃ n, t.at? path = some n)
    ∧ paths.map (fun path => t.at? path) = nodes.map some

mutual

/-- The paths to the nodes of a tree. -/
def paths : SyntaxTree → List (List Nat)
  | node _ _ _ _ _ _ children => [] :: pathsFrom 0 children

/-- The paths to the nodes of several siblings, the first of them in a place. -/
def pathsFrom : Nat → List SyntaxTree → List (List Nat)
  | _, [] => []
  | place, t :: rest => t.paths.map (place :: ·) ++ pathsFrom (place + 1) rest

end

mutual

/-- The listed paths are those that lead to a node, by induction on the tree. -/
theorem mem_paths (t : SyntaxTree) (path : List Nat)
    : path ∈ t.paths ↔ ∃ n, t.at? path = some n := by
  cases t with
  | node kind label row isError isMissing text children =>
      cases path with
      | nil => simp [paths, at?]
      | cons place path =>
          simp only [paths, List.mem_cons, reduceCtorEq, false_or, mem_pathsFrom children,
            Nat.zero_add, at?, SyntaxTree.children]
          constructor
          · rintro ⟨_, _, n, same, leads⟩
            obtain ⟨rfl, rfl⟩ := List.cons.inj same
            exact ⟨n, leads⟩
          · rintro ⟨n, leads⟩
            exact ⟨place, path, n, rfl, leads⟩
termination_by sizeOf t

theorem mem_pathsFrom (trees : List SyntaxTree) (first : Nat) (path : List Nat)
    : path ∈ pathsFrom first trees
      ↔ ∃ place below n, path = (first + place) :: below ∧ trees[place]?.bind (at? below) = some n := by
  cases trees with
  | nil => simp [pathsFrom]
  | cons t rest =>
      rw [pathsFrom, List.mem_append, List.mem_map, mem_pathsFrom rest]
      constructor
      · rintro (⟨below, listed, rfl⟩ | ⟨place, below, n, rfl, leads⟩)
        · obtain ⟨n, leads⟩ := (mem_paths t below).mp listed
          exact ⟨0, below, n, rfl, leads⟩
        · exact ⟨place + 1, below, n, by rw [Nat.add_right_comm]; rfl, leads⟩
      · rintro ⟨_ | place, below, n, rfl, leads⟩
        · exact .inl ⟨below, (mem_paths t below).mpr ⟨n, leads⟩, rfl⟩
        · exact .inr ⟨place, below, n, by rw [Nat.add_right_comm]; rfl, leads⟩
termination_by sizeOf trees

end

mutual

/-- They are in order, and so without repetition, by induction on the tree. -/
theorem pairwise_paths (t : SyntaxTree) : t.paths.Pairwise (· < ·) := by
  cases t with
  | node kind label row isError isMissing text children =>
      refine List.pairwise_cons.mpr ⟨fun path listed => ?_, pairwise_pathsFrom children 0⟩
      obtain ⟨place, below, _, rfl, _⟩ := (mem_pathsFrom children 0 path).mp listed
      exact List.nil_lt_cons _ _
termination_by sizeOf t

theorem pairwise_pathsFrom (trees : List SyntaxTree) (first : Nat)
    : (pathsFrom first trees).Pairwise (· < ·) := by
  cases trees with
  | nil => exact List.Pairwise.nil
  | cons t rest =>
      rw [pathsFrom, List.pairwise_append, List.pairwise_map]
      refine ⟨?_, pairwise_pathsFrom rest (first + 1), ?_⟩
      · exact (pairwise_paths t).imp fun before => List.cons_lt_cons_self.mpr before
      · intro path inFirst other inRest
        obtain ⟨below, _, rfl⟩ := List.mem_map.mp inFirst
        obtain ⟨place, _, _, rfl, _⟩ := (mem_pathsFrom rest (first + 1) other).mp inRest
        exact List.Lex.rel (by omega)
termination_by sizeOf trees

end

mutual

/-- They lead to the nodes of the tree, one after the other, by induction on it. -/
theorem map_paths (t : SyntaxTree)
    : t.paths.map (fun path => t.at? path) = t.preorder.map some := by
  cases t with
  | node kind label row isError isMissing text children =>
      refine congrArg (some _ :: ·) (map_pathsFrom children fun place below => ?_)
      rw [Nat.zero_add]
      rfl
termination_by sizeOf t

/-- So do those of several siblings, wherever these are looked up. -/
theorem map_pathsFrom (trees : List SyntaxTree) {first : Nat}
    {find : List Nat → Option SyntaxTree}
    (finds : ∀ place below, find ((first + place) :: below) = trees[place]?.bind (at? below))
    : (pathsFrom first trees).map find = (preorders trees).map some := by
  cases trees with
  | nil => rfl
  | cons t rest =>
      have here : (t.paths.map (first :: ·)).map find = t.preorder.map some := by
        rw [← map_paths t, List.map_map]
        exact List.map_congr_left fun below _ => finds 0 below
      have onward : (pathsFrom (first + 1) rest).map find = (preorders rest).map some := by
        refine map_pathsFrom rest fun place below => ?_
        rw [Nat.add_right_comm]
        exact finds (place + 1) below
      rw [pathsFrom, preorders, List.map_append, List.map_append, here, onward]
termination_by sizeOf trees

end

/-- The nodes of a tree in preorder are all of its nodes, in the order of their paths. -/
theorem lists_preorder (t : SyntaxTree) : t.Lists t.preorder :=
  ⟨t.paths, pairwise_paths t, mem_paths t, map_paths t⟩

-----------------------------------------------------------------------------------------
-- The first node with a property
-----------------------------------------------------------------------------------------

/-- The first node of a tree with a property: no path before the one to it leads to another. -/
def IsFirst (t : SyntaxTree) (holds : SyntaxTree → Prop) (n : SyntaxTree) : Prop :=
  ∃ path,
    t.at? path = some n
    ∧ holds n
    ∧ ∀ earlier < path, ∀ m, t.at? earlier = some m → ¬ holds m

variable {t n : SyntaxTree} {nodes : List SyntaxTree} {holds : SyntaxTree → Prop}

theorem Lists.mem_iff (lists : t.Lists nodes) : n ∈ nodes ↔ ∃ path, t.at? path = some n := by
  obtain ⟨paths, _, listed, found⟩ := lists
  have same : n ∈ nodes ↔ some n ∈ paths.map fun path => t.at? path := by simp [found]
  rw [same, List.mem_map]
  constructor
  · rintro ⟨path, _, leads⟩
    exact ⟨path, leads⟩
  · rintro ⟨path, leads⟩
    exact ⟨path, (listed path).mpr ⟨n, leads⟩, leads⟩

/-- What comes first in a list of all nodes is the first one. -/
theorem Lists.isFirst {front back : List SyntaxTree} (lists : t.Lists (front ++ n :: back))
    (here : holds n) (absent : ∀ m ∈ front, ¬ holds m)
    : t.IsFirst holds n := by
  obtain ⟨paths, ordered, listed, found⟩ := lists
  rw [List.map_append, List.map_cons] at found
  obtain ⟨before, rest, rfl, foundFront, foundRest⟩ := List.map_eq_append_iff.mp found
  obtain ⟨path, after, rfl, leads, _⟩ := List.map_eq_cons_iff.mp foundRest
  refine ⟨path, leads, here, fun earlier less m leadsEarlier holdsThere => ?_⟩
  -- A path before this one is listed before it.
  have inFront : earlier ∈ before := by
    have listedEarlier := (listed earlier).mpr ⟨m, leadsEarlier⟩
    have ordered := (List.pairwise_append.mp ordered).2.1
    rcases List.mem_append.mp listedEarlier with inFront | inRest
    · exact inFront
    · rcases List.mem_cons.mp inRest with rfl | behind
      · exact absurd less (List.lt_irrefl _)
      · have between := List.rel_of_pairwise_cons ordered behind
        exact absurd (List.lt_trans less between) (List.lt_irrefl _)
  have member : some m ∈ before.map fun path => t.at? path :=
    List.mem_map.mpr ⟨earlier, inFront, leadsEarlier⟩
  refine absent m ?_ holdsThere
  simpa [foundFront] using member

end SyntaxTree

-----------------------------------------------------------------------------------------
-- The walk
-----------------------------------------------------------------------------------------

namespace Cursor

mutual

/-- What the walk takes from a place on, when it ends: the node there, and then, further down or away
from it, what it takes from there on.
-/
inductive Takes : Cursor → List SyntaxTree → Prop
  | down {c d : Cursor} {nodes : List SyntaxTree} (child : c.firstChild? = some d)
      (onward : Takes d nodes) : Takes c (c.focus :: nodes)
  | away {c : Cursor} {nodes : List SyntaxTree} (childless : c.firstChild? = none)
      (onward : Leaves c nodes) : Takes c (c.focus :: nodes)

/-- What the walk takes when it leaves a place, when it ends: across to the next sibling, or up to the
parent and away from that. It ends where there is neither.
-/
inductive Leaves : Cursor → List SyntaxTree → Prop
  | across {c d : Cursor} {nodes : List SyntaxTree} (sibling : c.nextSibling? = some d)
      (onward : Takes d nodes) : Leaves c nodes
  | up {c d : Cursor} {nodes : List SyntaxTree} (last : c.nextSibling? = none)
      (parent : c.parent? = some d) (onward : Leaves d nodes) : Leaves c nodes
  | ended {c : Cursor} (last : c.nextSibling? = none) (top : c.parent? = none) : Leaves c []

end

mutual

/-- The walk takes a tree in preorder, and then what it takes when it leaves the tree, by induction on
the tree.
-/
theorem takes_preorder (t : SyntaxTree) {right : List SyntaxTree} {above : List Level}
    {nodes : List SyntaxTree} (onward : Leaves ⟨t, right, above⟩ nodes)
    : Takes ⟨t, right, above⟩ (t.preorder ++ nodes) := by
  cases t with
  | node kind label row isError isMissing text children =>
      cases children with
      | nil => exact .away rfl onward
      | cons child rest => exact .down rfl (takes_preorders child rest onward)
termination_by sizeOf t

/-- So it does with several siblings, when it is to leave their parent behind them. -/
theorem takes_preorders (t : SyntaxTree) (rest : List SyntaxTree) {parent : SyntaxTree}
    {right : List SyntaxTree} {above : List Level} {nodes : List SyntaxTree}
    (onward : Leaves ⟨parent, right, above⟩ nodes)
    : Takes ⟨t, rest, ⟨parent, right⟩ :: above⟩ (SyntaxTree.preorders (t :: rest) ++ nodes) := by
  rw [SyntaxTree.preorders, List.append_assoc]
  refine takes_preorder t ?_
  cases rest with
  | nil => exact .up rfl rfl onward
  | cons next rest => exact .across rfl (takes_preorders next rest onward)
termination_by sizeOf (t :: rest)

end

/-- The parent of a place stands one level higher. -/
theorem length_above_of_parent? {c d : Cursor} (parent : c.parent? = some d)
    : c.above.length = d.above.length + 1 := by
  obtain ⟨focus, right, _ | ⟨level, above⟩⟩ := c
  · cases parent
  · obtain rfl := Option.some.inj parent
    rfl

mutual

/-- Steps enough for what the walk takes are enough for it, by induction on the walk. -/
theorem Takes.visit_eq {c : Cursor} {nodes : List SyntaxTree}
    : Takes c nodes → ∀ {steps}, nodes.length ≤ steps → visit steps c = nodes
  | .down child onward, steps, enough => by
      cases steps with
      | zero => cases enough
      | succ steps =>
          have later := onward.visit_eq (Nat.le_of_succ_le_succ enough)
          simp only [visit, next?, child, later]
  | .away childless onward, steps, enough => by
      cases steps with
      | zero => cases enough
      | succ steps =>
          have later := onward.visit_eq (Nat.le_of_succ_le_succ enough) (Nat.le_refl c.above.length)
          simp only [visit, next?, childless]
          exact congrArg (_ :: ·) later

/-- Levels enough for the way up are enough for what it takes when it leaves a place. -/
theorem Leaves.visit_eq {c : Cursor} {nodes : List SyntaxTree}
    : Leaves c nodes
      → ∀ {steps}, nodes.length ≤ steps
      → ∀ {levels}, c.above.length ≤ levels
      → (match climb? levels c with
          | some d => visit steps d
          | none => [])
        = nodes
  | .across sibling onward, steps, enough, levels, _ => by
      have later := onward.visit_eq enough
      cases levels <;> simp only [climb?, sibling, later]
  | .up last parent onward, steps, enough, levels, high => by
      rw [length_above_of_parent? parent] at high
      cases levels with
      | zero => cases high
      | succ levels =>
          have later := onward.visit_eq enough (Nat.le_of_succ_le_succ high)
          simp only [climb?, last, parent, Option.bind_some, later]
  | .ended last top, steps, enough, levels, _ => by
      cases levels <;> simp [climb?, last, top]

end

/-- What the walk takes is settled by where it starts. -/
theorem Takes.unique {c : Cursor} {nodes others : List SyntaxTree} (takes : Takes c nodes)
    (also : Takes c others)
    : nodes = others := by
  rw [← takes.visit_eq (Nat.le_max_left nodes.length others.length),
    also.visit_eq (Nat.le_max_right nodes.length others.length)]

end Cursor

namespace SyntaxTree

mutual

theorem length_preorder (t : SyntaxTree) : t.preorder.length = t.size := by
  cases t with
  | node kind label row isError isMissing text children =>
      rw [preorder, size, List.length_cons, length_preorders children, Nat.add_comm]
termination_by sizeOf t

theorem length_preorders (trees : List SyntaxTree) : (preorders trees).length = sizes trees := by
  cases trees with
  | nil => rfl
  | cons t rest =>
      rw [preorders, sizes, List.length_append, length_preorder t, length_preorders rest]
termination_by sizeOf trees

end

/-- The walk over a tree takes it in preorder, and ends. -/
theorem takes_start (t : SyntaxTree) : (Cursor.start t).Takes t.preorder := by
  have takes := Cursor.takes_preorder t (Cursor.Leaves.ended (c := .start t) rfl rfl)
  rwa [List.append_nil] at takes

theorem nodes_eq (t : SyntaxTree) : t.nodes = t.preorder :=
  t.takes_start.visit_eq (Nat.le_of_eq t.length_preorder)

/-- The nodes of a tree are what the walk over it takes, and nothing else. -/
theorem takes_start_iff {t : SyntaxTree} {nodes : List SyntaxTree}
    : (Cursor.start t).Takes nodes ↔ nodes = t.nodes := by
  rw [nodes_eq]
  constructor
  · exact fun takes => takes.unique t.takes_start
  · rintro rfl
    exact t.takes_start

theorem lists_nodes (t : SyntaxTree) : t.Lists t.nodes :=
  t.nodes_eq ▸ t.lists_preorder

end SyntaxTree

end Vetting.Script
