import Vetting.Grammar.Tree

/-! Parse stacks that share their parts. A cell holds a state and links to the cells below it, each
link with the tree between the two; several versions of the stack, one for each reading that is
still followed, are tops in the same store of cells. Two versions in the same state at the same
position with the same cost can be merged into one cell with the links of both. -/

namespace Vetting.Grammar

variable {σ : Type}

/-- A link to a cell below, with the tree between; no tree marks the beginning of a repair. -/
structure Link (σ : Type) where
  target : Nat
  tree : Option (Tree σ)
  deriving Inhabited

/-- A cell of the shared stack. The state is none while text is being skipped. -/
structure Cell (σ : Type) where
  state : Option Nat
  position : Nat
  cost : Nat
  progress : Nat
  dynamic : Int
  links : List (Link σ)
  deriving Inhabited

/-- What a version is doing; a paused one waits with the token that it cannot take. -/
inductive Status (σ : Type) where
  | active
  | halted
  | paused (lookahead : Tree σ)
  deriving Inhabited

/-- A state below the top of a stack to which a repair may go back. -/
structure Landmark where
  position : Nat
  depth : Nat
  state : Option Nat
  deriving Inhabited

/-- A version of the stack. -/
structure Version (σ : Type) where
  cell : Nat
  status : Status σ
  /-- The progress that had been made at the last repair. -/
  baseline : Nat
  layout : σ
  landmarks : Option (List Landmark)
  deriving Inhabited

/-- All versions of a stack over their store of cells, and the best complete tree so far. -/
structure Stacks (σ : Type) where
  cells : Array (Cell σ)
  versions : Array (Version σ)
  finished : Option (Tree σ)
  accepted : Nat
  deriving Inhabited

/-- Whether a version is active. -/
def Version.isActive (v : Version σ) : Bool :=
  match v.status with
  | .active => true
  | _ => false

/-- Whether a version is paused. -/
def Version.isPaused (v : Version σ) : Bool :=
  match v.status with
  | .paused _ => true
  | _ => false

/-- Whether a version has been given up. -/
def Version.isHalted (v : Version σ) : Bool :=
  match v.status with
  | .halted => true
  | _ => false

namespace Stacks

variable [Inhabited σ]

/-- The version with a number. -/
def version (s : Stacks σ) (v : Nat) : Version σ :=
  s.versions[v]?.getD default

/-- The top cell of a version. -/
def top (s : Stacks σ) (v : Nat) : Cell σ :=
  s.cells[(s.version v).cell]?.getD default

/-- The state of a version. -/
def state (s : Stacks σ) (v : Nat) : Option Nat := (s.top v).state

/-- The position of a version. -/
def position (s : Stacks σ) (v : Nat) : Nat := (s.top v).position

/-- Changes a version. -/
def modify (s : Stacks σ) (v : Nat) (f : Version σ → Version σ) : Stacks σ :=
  { s with versions := s.versions.modify v f }

/-- Removes a version. -/
def remove (s : Stacks σ) (v : Nat) : Stacks σ :=
  { s with versions := s.versions.eraseIdxIfInBounds v }

/-- Gives a version up. -/
def halt (s : Stacks σ) (v : Nat) : Stacks σ :=
  s.modify v fun x => { x with status := .halted }

/-- Moves a version to a lower number, in place of the one that has it. -/
def renumber (s : Stacks σ) (source target : Nat) : Stacks σ :=
  if source = target then s
  else
    let moved := s.version source
    let replaced := s.version target
    let moved := { moved with landmarks := moved.landmarks.or replaced.landmarks }
    (s.modify target fun _ => moved).remove source

/-- Puts a tree on top of a version; without a tree, a repair begins. -/
def push (s : Stacks σ) (v : Nat) (tree : Option (Tree σ)) (state : Option Nat) : Stacks σ :=
  let below := (s.version v).cell
  let base := s.top v
  let cell : Cell σ :=
    match tree with
    | none => { base with state, links := [⟨below, none⟩] }
    | some t =>
        { state, position := t.info.stop, cost := base.cost + t.info.cost
          progress := base.progress + t.progress, dynamic := base.dynamic + t.info.dynamic
          links := [⟨below, tree⟩] }
  let id := s.cells.size
  let s := { s with cells := s.cells.push cell }
  s.modify v fun x =>
    { x with cell := id, baseline := if tree.isNone then cell.progress else x.baseline }

/-- What the repairs of a version have cost, with that of a repair that has just begun. -/
def cost (s : Stacks σ) (v : Nat) : Nat :=
  let cell := s.top v
  let begun := cell.state.isNone && (cell.links.head?.map fun l => l.tree.isNone).getD false
  cell.cost + (if (s.version v).isPaused || begun then repairCost else 0)

/-- Lowers the baseline of a version to its progress when a repair has gone back behind it. -/
def refresh (s : Stacks σ) (v : Nat) : Stacks σ :=
  let progress := (s.top v).progress
  s.modify v fun x => { x with baseline := min x.baseline progress }

/-- The progress of a version since its last repair. -/
def progressSince (s : Stacks σ) (v : Nat) : Nat :=
  (s.top v).progress - (s.version v).baseline

/-- Whether a version has taken any text since its last repair; `steps` bounds the descent. -/
def hasAdvancedFrom (s : Stacks σ) (src : Source) (baseline : Nat) : Nat → Nat → Bool
  | 0, _ => false
  | steps + 1, id =>
      let cell := s.cells[id]?.getD default
      match cell.links with
      | ⟨target, some t⟩ :: _ =>
          if src.byteAt t.info.lead < src.byteAt t.info.stop then true
          else if baseline < cell.progress && t.info.cost == 0 then
            hasAdvancedFrom s src baseline steps target
          else false
      | _ => false

/-- Whether a version has taken any text since its last repair. -/
def hasAdvanced (s : Stacks σ) (src : Source) (v : Nat) : Bool :=
  (s.top v).cost == 0
    || s.hasAdvancedFrom src (s.version v).baseline s.cells.size (s.version v).cell

/-- Whether two trees are the same for the purpose of sharing them. -/
def sameTree [DecidableEq σ] (a b : Option (Tree σ)) : Bool :=
  match a, b with
  | none, none => true
  | some x, some y =>
      let (i, j) := (x.info, y.info)
      i.mark == j.mark &&
        ((0 < i.cost && 0 < j.cost)
          || (i.lead == j.lead && i.start == j.start && i.stop == j.stop && i.extra == j.extra
            && x.children.length == y.children.length
            && (!x.children.isEmpty || x.layout == y.layout)))
  | _, _ => false

/-- The dynamic precedence that a link leads to. -/
def linkDynamic (s : Stacks σ) (link : Link σ) : Int :=
  (s.cells[link.target]?.getD default).dynamic + (link.tree.map fun t => t.info.dynamic).getD 0

/-- The most links that a cell may have. -/
def maxLinks : Nat := 8

mutual

/-- Adds a link to a cell. A link with the same tree is shared: when both lead to cells that can be
merged, the links of the second are added to the first. `steps` bounds the depth. -/
def addLink [DecidableEq σ] : Nat → Stacks σ → Nat → Link σ → Stacks σ
  | 0, s, _, _ => s
  | steps + 1, s, id, link =>
      if link.target = id then s
      else
        let cell := s.cells[id]?.getD default
        let below := s.cells[link.target]?.getD default
        let same (other : Link σ) : Bool :=
          sameTree other.tree link.tree &&
            (other.target == link.target ||
              (let c := s.cells[other.target]?.getD default
               c.state == below.state && c.position == below.position && c.cost == below.cost))
        match cell.links.find? same with
        | some other =>
            if other.target = link.target then
              let better :=
                match other.tree, link.tree with
                | some x, some y => decide (x.info.dynamic < y.info.dynamic)
                | _, _ => false
              if better then
                let links := cell.links.map fun l =>
                  if same l && l.target == link.target then link else l
                { s with
                  cells := s.cells.modify id fun c =>
                    { c with links, dynamic := s.linkDynamic link } }
              else s
            else
              let s := addLinks steps s other.target below.links
              let dynamic := s.linkDynamic link
              { s with
                cells := s.cells.modify id fun c => { c with dynamic := max c.dynamic dynamic } }
        | none =>
            if cell.links.length = maxLinks then s
            else
              let progress := below.progress + (link.tree.map Tree.progress).getD 0
              let dynamic := s.linkDynamic link
              { s with
                cells := s.cells.modify id fun c =>
                  { c with
                    links := c.links ++ [link]
                    progress := max c.progress progress
                    dynamic := max c.dynamic dynamic } }

/-- Adds several links to a cell. -/
def addLinks [DecidableEq σ] : Nat → Stacks σ → Nat → List (Link σ) → Stacks σ
  | 0, s, _, _ => s
  | steps + 1, s, id, links =>
      match links with
      | [] => s
      | link :: rest => addLinks steps (addLink steps s id link) id rest

end

/-- Whether two versions can be merged. -/
def canMerge [DecidableEq σ] (s : Stacks σ) (a b : Nat) : Bool :=
  let (x, y) := (s.top a, s.top b)
  (s.version a).isActive && (s.version b).isActive && x.state == y.state
    && x.position == y.position && x.cost == y.cost
    && (s.version a).layout == (s.version b).layout

/-- Merges the second version into the first when that is possible. -/
def merge? [DecidableEq σ] (s : Stacks σ) (a b : Nat) : Option (Stacks σ) :=
  if s.canMerge a b then
    let id := (s.version a).cell
    let s := addLinks (s.cells.size + maxLinks + 1) s id (s.top b).links
    let s :=
      if (s.state a).isNone then
        let progress := (s.top a).progress
        s.modify a fun x => { x with baseline := progress }
      else s
    some (s.remove b)
  else none

/-- A way down the stack: the cell reached, the trees passed, from left to right, and how many of
them were no extras. -/
structure Path (σ : Type) where
  cell : Nat
  trees : List (Tree σ)
  count : Nat

/-- The ways that lead one link further down. The way through the first link comes in the place of
the old one, the others after all ways of the round. -/
def Path.down (p : Path σ) (link : Link σ) : Path σ :=
  match link.tree with
  | some t =>
      { cell := link.target, trees := t :: p.trees
        count := if t.info.extra then p.count else p.count + 1 }
  | none => { p with cell := link.target, count := p.count + 1 }

/-- Follows all ways down in parallel. `judge` says whether a way is a result and whether it ends
there; `rounds` bounds their length. -/
def follow (s : Stacks σ) (judge : Path σ → Bool × Bool) :
    Nat → List (Path σ) → List (Path σ) → List (Path σ)
  | 0, _, results => results.reverse
  | rounds + 1, paths, results =>
      if paths.isEmpty then results.reverse
      else
        let (kept, forked, results) := paths.foldl
          (fun (acc : List (Path σ) × List (Path σ) × List (Path σ)) p =>
            let (kept, forked, results) := acc
            let (isResult, stops) := judge p
            let results := if isResult then p :: results else results
            match (s.cells[p.cell]?.getD default).links with
            | [] => (kept, forked, results)
            | first :: others =>
                if stops then (kept, forked, results)
                else
                  (p.down first :: kept, (others.map p.down).reverse ++ forked, results))
          ([], [], results)
        follow s judge rounds (kept.reverse ++ forked.reverse) results

/-- The results of following all ways down from the top of a version. -/
def waysDown (s : Stacks σ) (v : Nat) (judge : Path σ → Bool × Bool) : List (Path σ) :=
  s.follow judge (s.cells.size + 1) [⟨(s.version v).cell, [], 0⟩] []

/-- The trees that were taken off a version: the version that is left over, and the trees. -/
structure Slice (σ : Type) where
  version : Nat
  trees : List (Tree σ)

/-- Adds a version for each cell reached, after the existing ones. Ways to the same cell come
directly after each other and share a version. -/
def branch (s : Stacks σ) (origin : Nat) (paths : List (Path σ)) : List (Slice σ) × Stacks σ :=
  paths.foldl
    (fun (acc : List (Slice σ) × Stacks σ) p =>
      let (slices, s) := acc
      let isSame (slice : Slice σ) : Bool := (s.version slice.version).cell == p.cell
      if slices.any isSame then
        let after := slices.reverse.takeWhile (fun slice => !isSame slice)
        let before := slices.reverse.dropWhile (fun slice => !isSame slice)
        match before with
        | [] => (slices, s)
        | slice :: _ => (before.reverse ++ ⟨slice.version, p.trees⟩ :: after.reverse, s)
      else
        let o := s.version origin
        let fresh : Version σ :=
          { cell := p.cell, status := .active, baseline := o.baseline, layout := o.layout
            landmarks := none }
        (slices ++ [⟨s.versions.size, p.trees⟩],
          { s with versions := s.versions.push fresh }))
    ([], s)

/-- Takes a number of trees, extras not counted, off a version. -/
def popCount (s : Stacks σ) (v count : Nat) : List (Slice σ) × Stacks σ :=
  s.branch v (s.waysDown v fun p => (p.count == count, p.count == count))

/-- Takes all trees off a version. -/
def popAll (s : Stacks σ) (v : Nat) : List (Slice σ) × Stacks σ :=
  s.branch v (s.waysDown v fun p =>
    ((s.cells[p.cell]?.getD default).links.isEmpty, false))

/-- Takes the skipped text off the top of a version, when there is some. -/
def popError (s : Stacks σ) (v : Nat) : List (Tree σ) × Stacks σ :=
  let isError (t : Tree σ) : Bool := t.info.mark == .error
  if (s.top v).links.any (fun l => (l.tree.map isError).getD false) then
    let found := (s.top v).links.find? fun l => (l.tree.map isError).getD false
    match found with
    | some ⟨target, some t⟩ =>
        let (slices, s) := s.branch v [⟨target, [t], 1⟩]
        match slices with
        | slice :: _ => (slice.trees, s.renumber slice.version v)
        | [] => ([], s)
    | _ => ([], s)
  else ([], s)

/-- The deepest level that a repair goes back to. -/
def maxDepth : Nat := 16

/-- Collects the states below the top of a version, level by level, each once per level. -/
def collectLandmarks (s : Stacks σ) : Nat → List (Path σ) → List Landmark → List Landmark
  | 0, _, found => found.reverse
  | rounds + 1, paths, found =>
      if paths.isEmpty then found.reverse
      else
        let (kept, forked, found) := paths.foldl
          (fun (acc : List (Path σ) × List (Path σ) × List Landmark) p =>
            let (kept, forked, found) := acc
            if maxDepth < p.count then (kept, forked, found)
            else
              let cell := s.cells[p.cell]?.getD default
              let level := found.takeWhile fun l => p.count ≤ l.depth
              let known := level.any fun l => l.depth == p.count && l.state == cell.state
              let found :=
                if known then found else ⟨cell.position, p.count, cell.state⟩ :: found
              match cell.links with
              | [] => (kept, forked, found)
              | first :: others =>
                  (p.down first :: kept, (others.map p.down).reverse ++ forked, found))
          ([], [], found)
        collectLandmarks s rounds (kept.reverse ++ forked.reverse) found

/-- Notes the states below the top of a version, for the repair that begins. -/
def noteLandmarks (s : Stacks σ) (v : Nat) : Stacks σ :=
  let found := s.collectLandmarks (s.cells.size + 1) [⟨(s.version v).cell, [], 0⟩] []
  s.modify v fun x => { x with landmarks := some found }

end Stacks

end Vetting.Grammar
