import Vetting.Script.Token

/-! The syntax tree of a script, and the walk over it. A cursor stands at a node and can move to the
first child, the next sibling and the parent; moving on whenever possible, it visits every node
once, each before its descendants and siblings from left to right. -/

namespace Vetting.Script

open Vetting.Grammar

/-- A node of a syntax tree. The label says which part of its parent it is. -/
inductive SyntaxTree where
  | node (kind : String) (label : Option String) (row : Nat) (isError isMissing : Bool)
      (text : String) (children : List SyntaxTree)
  deriving Inhabited

namespace SyntaxTree

/-- The kind of construct. -/
def kind : SyntaxTree → String
  | node kind _ _ _ _ _ _ => kind

/-- Which part of its parent a node is. -/
def label : SyntaxTree → Option String
  | node _ label _ _ _ _ _ => label

/-- The number of line ends in front of a node. -/
def row : SyntaxTree → Nat
  | node _ _ row _ _ _ _ => row

/-- Whether a node holds text that fits nowhere. -/
def isError : SyntaxTree → Bool
  | node _ _ _ isError _ _ _ => isError

/-- Whether a node stands for a token that the text lacks. -/
def isMissing : SyntaxTree → Bool
  | node _ _ _ _ isMissing _ _ => isMissing

/-- The text of a node. -/
def text : SyntaxTree → String
  | node _ _ _ _ _ text _ => text

/-- The nodes directly below. -/
def children : SyntaxTree → List SyntaxTree
  | node _ _ _ _ _ _ children => children

/-- The first child that is a part of a node. -/
def part? (t : SyntaxTree) (label : String) : Option SyntaxTree :=
  t.children.find? fun c => c.label == some label

/-- The children that are a part of a node. -/
def parts (t : SyntaxTree) (label : String) : List SyntaxTree :=
  t.children.filter fun c => c.label == some label

/-- Whether a node has a child of a kind. -/
def hasChild (t : SyntaxTree) (kind : String) : Bool :=
  t.children.any fun c => c.kind == kind

mutual

/-- The number of nodes of a tree. -/
def size : SyntaxTree → Nat
  | node _ _ _ _ _ _ children => 1 + sizes children

/-- The number of nodes of several trees. -/
def sizes : List SyntaxTree → Nat
  | [] => 0
  | t :: rest => t.size + sizes rest

end

mutual

/-- All nodes of a tree, each before its descendants, siblings from left to right. -/
def preorder : SyntaxTree → List SyntaxTree
  | node kind label row isError isMissing text children =>
      node kind label row isError isMissing text children :: preorders children

/-- All nodes of several trees. -/
def preorders : List SyntaxTree → List SyntaxTree
  | [] => []
  | t :: rest => t.preorder ++ preorders rest

end

end SyntaxTree

/-- The way back from a node to the nodes above it: each with its siblings to the right. -/
structure Level where
  parent : SyntaxTree
  right : List SyntaxTree

/-- A place in a syntax tree. -/
structure Cursor where
  focus : SyntaxTree
  right : List SyntaxTree
  above : List Level

namespace Cursor

/-- The top of a tree. -/
def start (t : SyntaxTree) : Cursor := ⟨t, [], []⟩

/-- Moves to the first child. -/
def firstChild? (c : Cursor) : Option Cursor :=
  match c.focus.children with
  | [] => none
  | t :: rest => some ⟨t, rest, ⟨c.focus, c.right⟩ :: c.above⟩

/-- Moves to the next sibling. -/
def nextSibling? (c : Cursor) : Option Cursor :=
  match c.right with
  | [] => none
  | t :: rest => some ⟨t, rest, c.above⟩

/-- Moves to the parent. -/
def parent? (c : Cursor) : Option Cursor :=
  match c.above with
  | [] => none
  | level :: rest => some ⟨level.parent, level.right, rest⟩

/-- Moves to the next sibling of the node or of the closest node above that has one; `levels` bounds
the way up. -/
def climb? : Nat → Cursor → Option Cursor
  | 0, c => c.nextSibling?
  | levels + 1, c =>
      match c.nextSibling? with
      | some d => some d
      | none => c.parent?.bind (climb? levels)

/-- Moves to the next node of the walk. -/
def next? (c : Cursor) : Option Cursor :=
  match c.firstChild? with
  | some d => some d
  | none => climb? c.above.length c

/-- The nodes from a place on, over at most a number of steps. -/
def visit : Nat → Cursor → List SyntaxTree
  | 0, _ => []
  | steps + 1, c =>
      c.focus ::
        match c.next? with
        | some d => visit steps d
        | none => []

end Cursor

/-- Every node of a tree, in the order of the walk. -/
def SyntaxTree.nodes (t : SyntaxTree) : List SyntaxTree :=
  Cursor.visit t.size (Cursor.start t)

mutual

/-- The visible nodes of a parse tree; a hidden one passes its label on to the nodes below it. -/
def treesOf (table : Table) (src : Source) (label newName : Option String) :
    Grammar.Tree Layout → List SyntaxTree
  | .mk info _ children =>
      let below := childrenOf table src info.production 0 children
      if info.visible || newName.isSome then
        let kind := match newName, info.mark with
          | some name, _ => name
          | none, .token id => table.spelled.tokens[id]?.getD ""
          | none, .rule id => table.spelled.rules[id]?.getD ""
          | none, _ => "ERROR"
        let text := String.ofList (src.slice info.start info.stop)
        [.node kind label (src.rowAt info.start) (info.mark == .error) info.missing text below]
      else
        below.map fun
          | .node kind own row isError isMissing text children =>
              .node kind (own.or label) row isError isMissing text children

/-- The visible nodes of the children of a production, the first of them in a place. -/
def childrenOf (table : Table) (src : Source) (production : Option Nat) :
    Nat → List (Grammar.Tree Layout) → List SyntaxTree
  | _, [] => []
  | place, child :: rest =>
      let extra := match child with
        | .mk info _ _ => info.extra
      let step := if extra then none else
        (production.bind fun p => table.spelled.productions[p]?).bind fun p => p.steps[place]?
      treesOf table src (step.bind Step.label) (step.bind Step.newName) child
        ++ childrenOf table src production (if extra then place else place + 1) rest

end

/-- A parsed script: its tree, and whether anything had to be repaired. -/
structure Parsed where
  tree : SyntaxTree
  hasError : Bool

/-- Parses a script. -/
def parse? (code : List Char) : Option Parsed := do
  let table := table.get
  let src := Source.ofList code
  let tree ← Grammar.parse? table (scanner table) src 0
  let root ← (treesOf table src none none tree).head?
  return ⟨root, tree.info.cost != 0⟩

end Vetting.Script
