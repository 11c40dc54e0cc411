import Vetting.Grammar.Table

/-! Parse trees with what repairs cost. A tree covers a span of the text; its cost is zero unless a
token was invented or text was skipped somewhere in it, and grows with the number of repairs and
with the amount of text and the number of visible trees that were skipped. -/

namespace Vetting.Grammar

/-- What a tree stands for. -/
inductive Mark where
  | token (id : Nat)
  | rule (id : Nat)
  /-- Skipped text that is complete. -/
  | error
  /-- Skipped text to which more may be added. -/
  | skipped
  deriving DecidableEq, Repr, Inhabited

/-- The text of a document, with the text from each position on and the number of bytes and of line
ends in front of it. -/
structure Source where
  chars : Array Char
  tails : Array (List Char)
  bytes : Array Nat
  rows : Array Nat
  deriving Inhabited

namespace Source

/-- Prepares a text. -/
def ofList (text : List Char) : Source :=
  let (bytes, rows) := text.foldl
    (fun (acc : Array Nat × Array Nat) c =>
      (acc.1.push (acc.1.back?.getD 0 + c.utf8Size),
        acc.2.push (acc.2.back?.getD 0 + (if c == '\n' then 1 else 0))))
    (#[0], #[0])
  ⟨text.toArray, tailsOf text #[], bytes, rows⟩
where
  /-- Collects the ends of a text, the longest first. -/
  tailsOf : List Char → Array (List Char) → Array (List Char)
    | [], acc => acc
    | c :: rest, acc => tailsOf rest (acc.push (c :: rest))

/-- The number of characters. -/
def size (s : Source) : Nat := s.chars.size

/-- The number of bytes in front of a position. -/
def byteAt (s : Source) (pos : Nat) : Nat := s.bytes[pos]?.getD 0

/-- The number of line ends in front of a position. -/
def rowAt (s : Source) (pos : Nat) : Nat := s.rows[pos]?.getD 0

/-- The text from a position on. -/
def rest (s : Source) (pos : Nat) : List Char := s.tails[pos]?.getD []

/-- The text between two positions. -/
def slice (s : Source) (start stop : Nat) : List Char :=
  (s.chars.extract start stop).toList

end Source

/-- What is known about a tree apart from its children. Positions count characters; `lead` is where
the blanks in front of the tree begin. -/
structure Info where
  mark : Mark
  production : Option Nat
  lead : Nat
  start : Nat
  stop : Nat
  cost : Nat
  dynamic : Int
  visible : Bool
  /-- The visible trees directly below, seen through hidden ones. -/
  visibleChildren : Nat
  /-- All visible trees below. -/
  visibleBelow : Nat
  extra : Bool
  missing : Bool
  /-- The keyword that a token was taken for. -/
  keyword : Bool
  deriving Inhabited

/-- A parse tree. `σ` is the state that the scanner of layout tokens is in after the last such token
of the tree. -/
inductive Tree (σ : Type) where
  | mk (info : Info) (layout : Option σ) (children : List (Tree σ))
  deriving Inhabited

/-- The cost of one repair. -/
def repairCost : Nat := 500
/-- The further cost of an invented token. -/
def missingCost : Nat := 110
/-- The cost of each visible tree that is skipped. -/
def skippedTreeCost : Nat := 100
/-- The cost of each byte that is skipped. -/
def skippedByteCost : Nat := 1
/-- The cost of each line that is skipped. -/
def skippedLineCost : Nat := 30

namespace Tree

variable {σ : Type}

/-- What is known about a tree. -/
def info : Tree σ → Info
  | mk info _ _ => info

/-- The scanner's state after the last layout token. -/
def layout : Tree σ → Option σ
  | mk _ layout _ => layout

/-- The children of a tree. -/
def children : Tree σ → List (Tree σ)
  | mk _ _ children => children

/-- Marks a tree as standing outside of its construct. -/
def setExtra (extra : Bool) : Tree σ → Tree σ
  | mk info layout children => mk { info with extra } layout children

/-- Whether a tree is an error without parts. -/
def isBareError (t : Tree σ) : Bool :=
  t.info.mark == .error && t.children.isEmpty

/-- A token. -/
def leaf (visible : Bool) (mark : Mark) (lead start stop : Nat) (layout : Option σ)
    (keyword extra : Bool) : Tree σ :=
  mk { mark, production := none, lead := lead, start, stop, cost := 0, dynamic := 0, visible
       visibleChildren := 0, visibleBelow := 0, extra, missing := false, keyword } layout []

/-- An invented token. -/
def missing (visible : Bool) (id pos : Nat) : Tree σ :=
  mk { mark := .token id, production := none, lead := pos, start := pos, stop := pos
       cost := repairCost + missingCost, dynamic := 0, visible, visibleChildren := 0
       visibleBelow := 0, extra := false, missing := true, keyword := false } none []

/-- What a node sums up over its children: how many children were no extras, and the sums. -/
structure Sums where
  place : Nat
  cost : Nat
  dynamic : Int
  visibleChildren : Nat
  visibleBelow : Nat

/-- Adds one child; `shown` says whether the child in a place is shown under a name of its own. -/
def Sums.add (isError : Bool) (shown : Nat → Bool) (sums : Sums) (child : Tree σ) : Sums :=
  let i := child.info
  let own := if i.mark == .skipped then 0 else i.cost
  let penalty :=
    if isError && !i.extra && !child.isBareError then
      if i.visible then skippedTreeCost
      else if child.children.isEmpty then 0
      else skippedTreeCost * i.visibleChildren
    else 0
  let renamed := !i.extra && shown sums.place
  let direct :=
    if renamed || i.visible then 1 else if child.children.isEmpty then 0 else i.visibleChildren
  { place := if i.extra then sums.place else sums.place + 1
    cost := sums.cost + own + penalty
    dynamic := sums.dynamic + i.dynamic
    visibleChildren := sums.visibleChildren + direct
    visibleBelow := sums.visibleBelow + i.visibleBelow + (if renamed || i.visible then 1 else 0) }

/-- A node over children; one without children is empty at a position. -/
def node (src : Source) (visible : Bool) (mark : Mark) (production : Option Nat)
    (shown : Nat → Bool) (dynamic : Int) (pos : Nat) (children : List (Tree σ)) : Tree σ :=
  let isError := mark == .error || mark == .skipped
  let lead := (children.head?.map fun c => c.info.lead).getD pos
  let start := (children.head?.map fun c => c.info.start).getD pos
  let stop := (children.getLast?.map fun c => c.info.stop).getD pos
  let sums := children.foldl (Sums.add isError shown) ⟨0, 0, 0, 0, 0⟩
  let spanCost :=
    if isError then
      repairCost + skippedByteCost * (src.byteAt stop - src.byteAt start)
        + skippedLineCost * (src.rowAt stop - src.rowAt start)
    else 0
  let layout := children.foldl (fun last c => c.layout.or last) none
  mk { mark, production, lead := lead, start, stop, cost := sums.cost + spanCost
       dynamic := sums.dynamic + dynamic, visible, visibleChildren := sums.visibleChildren
       visibleBelow := sums.visibleBelow, extra := false, missing := false, keyword := false }
    layout children

/-- What a tree counts towards the progress made since the last repair. -/
def progress (t : Tree σ) : Nat :=
  t.info.visibleBelow + (if t.info.visible then 1 else 0)
    + (if t.info.mark == .skipped then 1 else 0)

end Tree

/-- The order of marks: tokens, rules, errors. -/
def Mark.rank : Mark → Nat × Nat
  | .token id => (0, id)
  | .rule id => (1, id)
  | .error => (2, 0)
  | .skipped => (2, 1)

mutual

/-- Compares two trees by mark, number of children and children. -/
def Tree.order {σ : Type} : Tree σ → Tree σ → Ordering
  | .mk a _ cs, .mk b _ ds =>
      let (x, y) := (a.mark.rank, b.mark.rank)
      if x.1 < y.1 || (x.1 == y.1 && x.2 < y.2) then .lt
      else if y.1 < x.1 || (x.1 == y.1 && y.2 < x.2) then .gt
      else if cs.length < ds.length then .lt
      else if ds.length < cs.length then .gt
      else Tree.orderAll cs ds

/-- Compares two lists of trees. -/
def Tree.orderAll {σ : Type} : List (Tree σ) → List (Tree σ) → Ordering
  | c :: cs, d :: ds =>
      match Tree.order c d with
      | .eq => Tree.orderAll cs ds
      | other => other
  | _, _ => .eq

end

/-- Whether the second of two readings of the same text is the better one: the cheaper one, then
the one of higher dynamic precedence, then, without repairs, the one that comes first. -/
def Tree.prefersSecond {σ : Type} (a b : Tree σ) : Bool :=
  let (x, y) := (a.info, b.info)
  if y.cost < x.cost then true
  else if x.cost < y.cost then false
  else if x.dynamic < y.dynamic then true
  else if y.dynamic < x.dynamic then false
  else if 0 < x.cost then true
  else Tree.order a b == .gt

end Vetting.Grammar
