import Vetting.Grammar.Production

/-! The parse table of a grammar. A state is a set of items, each a production with a position in it
and the set of tokens that may follow; a token set is a number whose bits are token numbers. Where
several actions are possible on a token, precedence and associativity remove those that lose, and
what remains stays as a genuine ambiguity, to be followed in parallel. -/

namespace Vetting.Grammar

/-- A set of tokens: bit `i` stands for token `i`. -/
abbrev TokenSet := Nat

/-- The set of one token. -/
def TokenSet.single (id : Nat) : TokenSet := 1 <<< id

/-- Whether a token is in a set. -/
def TokenSet.has (set : TokenSet) (id : Nat) : Bool := set.testBit id

/-- A production with a position in it. Only what still matters is kept: the steps that follow, and
of those before the position the precedence of the last one and the new names and labels. -/
structure ItemKey where
  index : Nat
  head : Nat
  dynamic : Int
  length : Nat
  prec : Option Int
  assoc : Option Assoc
  names : List (Option String × Option String)
  rest : List Step
  deriving DecidableEq, Repr, Hashable, Inhabited

/-- A numbered item, with what the table needs to know about it. -/
structure Item where
  key : ItemKey
  production : Nat
  /-- The symbol after the position. -/
  next : Option Symbol
  /-- The tokens that what follows `next` may start with; no rule but the first may be empty. -/
  after : TokenSet
  /-- Whether nothing follows `next`. -/
  last : Bool
  /-- The number of the item after `next`. -/
  succ : Nat
  deriving Inhabited

/-- What to do on a token. -/
inductive Action where
  /-- Take the token and go to a state; a repetition that could also be closed first is marked and
  not followed. -/
  | shift (state : Nat) (repetition : Bool)
  /-- Replace the last `length` trees by one tree of a rule. -/
  | reduce (head : Nat) (length : Nat) (dynamic : Int) (production : Nat)
  | accept
  deriving DecidableEq, Repr, Inhabited

/-- A state of the table. -/
structure State where
  actions : Array (List Action)
  goto : Array (Option Nat)
  deriving Inhabited

/-- A parse table. -/
structure Table where
  spelled : Spelled
  states : Array State
  /-- Whether nodes of a rule appear in the tree. -/
  showsRule : Nat → Bool
  /-- Whether a token appears in the tree. -/
  showsToken : Nat → Bool
  /-- The tokens that may stand anywhere. -/
  isExtra : Nat → Bool

instance : Inhabited Table :=
  ⟨⟨default, #[], fun _ => false, fun _ => false, fun _ => false⟩⟩

namespace Table

/-- One round of adding to each rule's set the tokens that its productions may start with. -/
def firstRound (g : Spelled) (first : Array TokenSet) : Array TokenSet :=
  g.productions.foldl
    (fun first p =>
      match p.steps.head?.map Step.symbol with
      | some (.token id) => first.modify p.head (· ||| TokenSet.single id)
      | some (.rule id) => first.modify p.head (· ||| (first[id]?.getD 0))
      | none => first)
    first

/-- Repeats the rounds until nothing changes; `rounds` bounds their number. -/
def firstSets (g : Spelled) : Nat → Array TokenSet → Array TokenSet
  | 0, first => first
  | rounds + 1, first =>
      let next := firstRound g first
      if next == first then first else firstSets g rounds next

/-- The tokens that a symbol may start with. -/
def firstOf (first : Array TokenSet) : Symbol → TokenSet
  | .token id => TokenSet.single id
  | .rule id => first[id]?.getD 0

/-- The key of a position in a production. -/
def keyAt (p : Production) (index : Nat) : ItemKey :=
  let before := p.steps.take index
  let previous := before.getLast?
  { index
    head := p.head
    dynamic := p.dynamic
    length := p.steps.length
    prec := previous.bind Step.prec
    assoc := previous.bind Step.assoc
    names := before.map fun s => (s.newName, s.label)
    rest := p.steps.drop index }

/-- The order of items: by position, rule, dynamic precedence, length, precedence. -/
def keyBefore (a b : ItemKey) : Bool :=
  let rank (k : ItemKey) : List Int :=
    [k.index, k.head, k.dynamic, k.length, k.prec.getD 0]
  !(rank b).lex (rank a) fun m n => m < n

/-- All items of a grammar in their order. The production of number `productions.size` is the whole
document followed by its end. -/
structure Items where
  items : Array Item
  /-- The first items of each rule's productions. -/
  starts : Array (List Nat)
  /-- The item in front of a whole document. -/
  whole : Nat

/-- Numbers the items. -/
def numberItems (g : Spelled) (first : Array TokenSet) : Items :=
  let wholeProduction : Production :=
    ⟨g.rules.size, [⟨.rule 0, none, none, none, none⟩], 0⟩
  let productions := g.productions.toList ++ [wholeProduction]
  let keyed := productions.zipIdx.flatMap fun (p, id) =>
    (List.range (p.steps.length + 1)).map fun i => (keyAt p i, id)
  let (distinct, _) := keyed.foldl
    (fun (acc : Array (ItemKey × Nat) × Std.HashMap ItemKey Unit) entry =>
      if acc.2.contains entry.1 then acc else (acc.1.push entry, acc.2.insert entry.1 ()))
    (#[], {})
  let sorted := distinct.toList.mergeSort (fun a b => keyBefore a.1 b.1)
  let ids : Std.HashMap ItemKey Nat :=
    sorted.zipIdx.foldl (fun ids entry => ids.insert entry.1.1 entry.2) {}
  let productionOf (id : Nat) : Production := productions.toArray[id]?.getD wholeProduction
  let items := sorted.map fun (key, id) =>
    let next := key.rest.head?.map Step.symbol
    let following := (key.rest.drop 1).head?.map Step.symbol
    ({ key
       production := id
       next
       after := (following.map (firstOf first)).getD 0
       last := following.isNone
       succ := (ids[keyAt (productionOf id) (key.index + 1)]?).getD 0 } : Item)
  let startOf (id : Nat) : Nat := (ids[keyAt (productionOf id) 0]?).getD 0
  { items := items.toArray
    starts := g.ofRule.map fun ps => (ps.map startOf).eraseDups
    whole := startOf g.productions.size }

/-- An item that enters a state because a rule may come next: its own follow set, and whether it
also inherits that of the item it comes from. -/
structure Entry where
  item : Nat
  follow : TokenSet
  inherits : Bool
  deriving Inhabited

/-- The rules that may come first in a rule, with their follow sets; `rounds` bounds the number of
rounds over the rules to be visited. -/
def reach (it : Items) : Nat → List Nat → Std.HashMap Nat (TokenSet × Bool) →
    Std.HashMap Nat (TokenSet × Bool)
  | 0, _, seen => seen
  | rounds + 1, todo, seen =>
      match todo with
      | [] => seen
      | rule :: rest =>
          let (follow, inherits) := (seen[rule]?).getD (0, false)
          let (rest, seen) := (it.starts[rule]?.getD []).foldl
            (fun (acc : List Nat × Std.HashMap Nat (TokenSet × Bool)) id =>
              let item := it.items[id]?.getD default
              match item.next with
              | some (.rule next) =>
                  let add := if item.last then item.after ||| follow else item.after
                  let inherit := item.last && inherits
                  match acc.2[next]? with
                  | none => (next :: acc.1, acc.2.insert next (add, inherit))
                  | some (oldAdd, oldInherit) =>
                      let add := oldAdd ||| add
                      let inherit := oldInherit || inherit
                      if add == oldAdd && inherit == oldInherit then acc
                      else (next :: acc.1, acc.2.insert next (add, inherit))
              | _ => acc)
            (rest, seen)
          reach it rounds rest seen

/-- The items that enter a state when a rule may come next. -/
def entriesOf (it : Items) (rule : Nat) : Array Entry :=
  let seen := reach it 100000 [rule] (({} : Std.HashMap Nat (TokenSet × Bool)).insert rule (0, true))
  seen.toList.foldl
    (fun acc entry =>
      (it.starts[entry.1]?.getD []).foldl (fun acc id => acc.push ⟨id, entry.2.1, entry.2.2⟩) acc)
    #[]

/-- The items of a state with the tokens that may follow each; zero for items outside of it. -/
def close (it : Items) (entries : Array (Array Entry)) (kernel : List (Nat × TokenSet)) :
    Array TokenSet :=
  kernel.foldl
    (fun sets (id, follow) =>
      let sets := sets.modify id (· ||| follow)
      let item := it.items[id]?.getD default
      match item.next with
      | some (.rule rule) =>
          let passed := if item.last then item.after ||| follow else item.after
          (entries[rule]?.getD #[]).foldl
            (fun sets e =>
              sets.modify e.item (· ||| (if e.inherits then e.follow ||| passed else e.follow)))
            sets
      | _ => sets)
    (Array.replicate it.items.size 0)

/-- Adds an item to a kernel, in order of item numbers. -/
def insertItem (id : Nat) (follow : TokenSet) : List (Nat × TokenSet) → List (Nat × TokenSet)
  | [] => [(id, follow)]
  | (other, set) :: rest =>
      if id < other then (id, follow) :: (other, set) :: rest
      else if id = other then (other, set ||| follow) :: rest
      else (other, set) :: insertItem id follow rest

/-- The reductions on one token, with their precedence and associativities. -/
structure Reductions where
  actions : List Action
  prec : Int
  assocs : List (Option Assoc)
  deriving Inhabited

/-- Adds a reduction unless its precedence is lower; one of higher precedence replaces the others. -/
def Reductions.add (r : Reductions) (action : Action) (prec : Int) (assoc : Option Assoc) :
    Reductions :=
  if r.actions.isEmpty || r.prec < prec then ⟨[action], prec, [assoc]⟩
  else if prec < r.prec then r
  else
    ⟨if r.actions.contains action then r.actions else r.actions ++ [action], prec,
      assoc :: r.assocs⟩

/-- Decides between the reductions on a token and taking it. The items that take the token count
when they are past their beginning; a higher precedence on one side wins, and on equal precedence
left-associative rules reduce and right-associative ones shift. A rule that only repeats itself is
marked, so that its repetitions are grouped in one way. -/
def settle (it : Items) (isRepetition : Nat → Bool) (first : Array TokenSet)
    (sets : Array TokenSet) (members : List Nat) (token : Nat) (r : Reductions) (target : Nat) :
    List Action :=
  let takers := members.filter fun id =>
    let item := it.items[id]?.getD default
    0 < item.key.index &&
      (match item.next with
       | some symbol => (firstOf first symbol).has token
       | none => false)
  let reducers := members.filter fun id =>
    let item := it.items[id]?.getD default
    item.next.isNone && (sets[id]?.getD 0).has token
  let headOf (id : Nat) : Nat := (it.items[id]?.getD default).key.head
  let heads := (takers ++ reducers).map headOf
  let selfRepeating :=
    match heads with
    | [] => false
    | h :: rest => isRepetition h && rest.all (· == h)
  if selfRepeating then r.actions ++ [.shift target true]
  else
    let precs := takers.map fun id => ((it.items[id]?.getD default).key.prec).getD 0
    let more := precs.any (fun p => r.prec < p)
    let less := precs.any (fun p => p < r.prec)
    if more && !less then [.shift target false]
    else if less && !more then r.actions
    else if !more && !less then
      if r.assocs.all (· == some .left) then r.actions
      else if r.assocs.all (· == some .right) then [.shift target false]
      else r.actions ++ [.shift target false]
    else r.actions ++ [.shift target false]

/-- States under construction: their kernels, and the number of each kernel. -/
structure Builder where
  kernels : Array (List (Nat × TokenSet))
  numbers : Std.HashMap (List (Nat × TokenSet)) Nat
  states : Array State

/-- The number of the state with a kernel, a new one if there is none yet. -/
def Builder.number (b : Builder) (kernel : List (Nat × TokenSet)) : Nat × Builder :=
  match b.numbers[kernel]? with
  | some id => (id, b)
  | none =>
      (b.kernels.size,
        { b with
          kernels := b.kernels.push kernel
          numbers := b.numbers.insert kernel b.kernels.size })

/-- Builds one state. -/
def buildState (g : Spelled) (it : Items) (first : Array TokenSet)
    (entries : Array (Array Entry)) (b : Builder) (kernel : List (Nat × TokenSet)) : Builder :=
  let sets := close it entries kernel
  let members := (List.range it.items.size).filter fun id => sets[id]?.getD 0 != 0
  let tokenCount := g.tokens.size
  let noReductions : Reductions := ⟨[], 0, []⟩
  let (byToken, byRule, reductions) := members.foldl
    (fun (acc : Array (List (Nat × TokenSet)) × Array (List (Nat × TokenSet))
        × Array Reductions) id =>
      let item := it.items[id]?.getD default
      let set := sets[id]?.getD 0
      match item.next with
      | some (.token t) => (acc.1.modify t (insertItem item.succ set), acc.2.1, acc.2.2)
      | some (.rule r) => (acc.1, acc.2.1.modify r (insertItem item.succ set), acc.2.2)
      | none =>
          let key := item.key
          let action : Action :=
            if key.head = g.rules.size then .accept
            else .reduce key.head key.length key.dynamic item.production
          let reductions := (List.range tokenCount).foldl
            (fun rs t =>
              if set.has t then rs.modify t (·.add action (key.prec.getD 0) key.assoc) else rs)
            acc.2.2
          (acc.1, acc.2.1, reductions))
    (Array.replicate tokenCount [], Array.replicate g.rules.size [],
      Array.replicate tokenCount noReductions)
  let (goto, b) := byRule.foldl
    (fun (acc : Array (Option Nat) × Builder) kernel =>
      if kernel.isEmpty then (acc.1.push none, acc.2)
      else
        let (id, b) := acc.2.number kernel
        (acc.1.push (some id), b))
    (#[], b)
  let (actions, b) := (List.range tokenCount).foldl
    (fun (acc : Array (List Action) × Builder) t =>
      let kernel := byToken[t]?.getD []
      let r := reductions[t]?.getD noReductions
      if kernel.isEmpty then (acc.1.push r.actions, acc.2)
      else
        let (target, b) := acc.2.number kernel
        if r.actions.isEmpty then (acc.1.push [.shift target false], b)
        else (acc.1.push (settle it g.repetitions first sets members t r target), b))
    (#[], b)
  { b with states := b.states.push ⟨actions, goto⟩ }

/-- Builds the states that are numbered but not built yet; `rounds` bounds their number. -/
def buildStates (g : Spelled) (it : Items) (first : Array TokenSet)
    (entries : Array (Array Entry)) : Nat → Builder → Builder
  | 0, b => b
  | rounds + 1, b =>
      match b.kernels[b.states.size]? with
      | none => b
      | some kernel =>
          buildStates g it first entries rounds (buildState g it first entries b kernel)

/-- The parse table of a grammar. -/
def build (grammar : RuleBook) : Table :=
  let g := grammar.spell
  let first := firstSets g 1000 (Array.replicate g.rules.size 0)
  let it := numberItems g first
  let entries := (Array.range g.rules.size).map (entriesOf it)
  let endSet := TokenSet.single (g.tokens.size - 1)
  let (_, start) := (⟨#[], {}, #[]⟩ : Builder).number [(it.whole, endSet)]
  let built := buildStates g it first entries 100000 start
  let hidden (name : String) : Bool :=
    grammar.hidden.contains name || name.startsWith "_"
  { spelled := g
    states := built.states
    showsRule := fun id => !(g.repetitions id) && !hidden (g.rules[id]?.getD "_")
    showsToken := fun id => id + 1 < g.tokens.size && !((g.tokens[id]?.getD "_").startsWith "_")
    isExtra := fun id => grammar.extras.contains (g.tokens[id]?.getD "") }

end Table

end Vetting.Grammar
