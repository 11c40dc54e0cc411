import Vetting.Grammar.Stack

/-! Parsing with repairs. All readings of a text are followed side by side. A reading that meets a
token it cannot take waits; when no other reading goes on, it is repaired, by inventing one token
that completes a construct, by going back to an earlier state and skipping what was read since, or
by skipping the token. The cheapest reading of the whole text is the result. -/

namespace Vetting.Grammar

/-- A token that a scanner found: none stands for text that is no token. -/
structure Lexeme (σ : Type) where
  token : Option Nat
  start : Nat
  stop : Nat
  /-- The scanner's state after a layout token. -/
  layout : Option σ
  keyword : Bool

/-- A scanner. `next` is given the text, a position, the layout state, the set of tokens that are
welcome (none during a repair) and whether text has been taken since the last repair. -/
structure Scanner (σ : Type) where
  initial : σ
  next : Source → Nat → σ → Option (Nat → Bool) → Bool → Lexeme σ

/-- How two versions compare. -/
inductive Preference where
  | takeLeft
  | preferLeft
  | none
  | preferRight
  | takeRight
  deriving DecidableEq

/-- What decides between two versions. -/
structure Standing where
  cost : Nat
  progress : Nat
  dynamic : Int
  inError : Bool

/-- The cost difference, times the progress made, that makes a version hopeless. -/
def hopeless : Nat := 16 * skippedTreeCost

/-- Compares two versions. -/
def Standing.compare (a b : Standing) : Preference :=
  if !a.inError && b.inError then
    if a.cost < b.cost then .takeLeft else .preferLeft
  else if a.inError && !b.inError then
    if b.cost < a.cost then .takeRight else .preferRight
  else if a.cost < b.cost then
    if hopeless < (b.cost - a.cost) * (1 + a.progress) then .takeLeft else .preferLeft
  else if b.cost < a.cost then
    if hopeless < (a.cost - b.cost) * (1 + b.progress) then .takeRight else .preferRight
  else if b.dynamic < a.dynamic then .preferLeft
  else if a.dynamic < b.dynamic then .preferRight
  else .none

/-- The number of versions that are followed. -/
def maxVersions : Nat := 6

/-- The number of versions that a reduction may lead to for the moment. -/
def maxBranches : Nat := 10

/-- What does not change during a parse. -/
structure Setting (σ : Type) where
  table : Table
  scanner : Scanner σ
  source : Source

namespace Setting

variable {σ : Type} [Inhabited σ] [DecidableEq σ]

/-- The number of the end token. -/
def endToken (p : Setting σ) : Nat := p.table.spelled.tokens.size - 1

/-- The actions of a state on a token; extras are not among them. -/
def actions (p : Setting σ) (state token : Nat) : List Action :=
  ((p.table.states[state]?.map fun s => s.actions[token]?.getD []).getD [])

/-- Whether a state can do something with a token. -/
def welcomes (p : Setting σ) (state token : Nat) : Bool :=
  p.table.isExtra token || !(p.actions state token).isEmpty

/-- The state after a token is taken in a state. -/
def afterToken? (p : Setting σ) (state token : Nat) : Option Nat :=
  if p.table.isExtra token then some state
  else
    match (p.actions state token).getLast? with
    | some (.shift target _) => some target
    | _ => none

/-- The state after a rule is completed in a state. -/
def afterRule? (p : Setting σ) (state : Option Nat) (rule : Nat) : Option Nat :=
  state.bind fun state => (p.table.states[state]?.bind fun s => s.goto[rule]?).join

/-- Whether the child in a place of a production is shown under another name. -/
def renames (p : Setting σ) (production : Nat) (place : Nat) : Bool :=
  ((p.table.spelled.productions[production]?.bind fun x => x.steps[place]?).bind
    fun step => step.newName).isSome

/-- A node of a rule. -/
def ruleNode (p : Setting σ) (head production : Nat) (dynamic : Int) (pos : Nat)
    (children : List (Tree σ)) : Tree σ :=
  Tree.node p.source (p.table.showsRule head) (.rule head) (some production)
    (p.renames production) dynamic pos children

/-- A node of skipped text. -/
def errorNode (p : Setting σ) (mark : Mark) (pos : Nat) (children : List (Tree σ)) : Tree σ :=
  Tree.node p.source (mark == .error) mark none (fun _ => false) 0 pos children

/-- The standing of a version; the baseline has to be up to date. -/
def standing (_ : Setting σ) (s : Stacks σ) (v : Nat) : Standing :=
  let paused := (s.version v).isPaused
  { cost := s.cost v + (if paused then skippedTreeCost else 0)
    progress := s.progressSince v
    dynamic := (s.top v).dynamic
    inError := paused || (s.state v).isNone }

/-- Whether another version makes it pointless to go on with a version at a cost. -/
def betterExists (p : Setting σ) (s : Stacks σ) (v cost : Nat) : Bool × Stacks σ :=
  match s.finished with
  | some t =>
      if t.info.cost ≤ cost then (true, s) else others s
  | none => others s
where
  /-- Looks at the other versions that have come at least as far. -/
  others (s : Stacks σ) : Bool × Stacks σ :=
    let s := s.refresh v
    let own : Standing := ⟨cost, s.progressSince v, (s.top v).dynamic, false⟩
    (List.range s.versions.size).foldl
      (fun (acc : Bool × Stacks σ) i =>
        let (found, s) := acc
        if found || i == v || !(s.version i).isActive || s.position i < s.position v then acc
        else
          let s := s.refresh i
          match own.compare (p.standing s i) with
          | .takeRight => (true, s)
          | .preferRight => (s.canMerge i v, s)
          | _ => (false, s))
      (false, s)

/-- Splits the extras off the end of a list of trees. -/
def splitExtras (trees : List (Tree σ)) : List (Tree σ) × List (Tree σ) :=
  let extras := (trees.reverse.takeWhile fun t => t.info.extra).reverse
  (trees.take (trees.length - extras.length), extras)

/-- Of several readings of the children of a node, all for the same version, the node of the best
one with the extras after it. -/
def bestNode (p : Setting σ) (build : List (Tree σ) → Tree σ) (first : Tree σ × List (Tree σ)) :
    List (List (Tree σ)) → Tree σ × List (Tree σ)
  | [] => first
  | trees :: rest =>
      let (children, extras) := splitExtras trees
      let candidate := build children
      let best := if Tree.prefersSecond first.1 candidate then (candidate, extras) else first
      bestNode p build best rest

/-- Pushes trees in the same state one after the other. -/
def pushAll (s : Stacks σ) (v : Nat) (state : Option Nat) (trees : List (Tree σ)) : Stacks σ :=
  trees.foldl (fun s t => s.push v (some t) state) s

/-- Merges a version into one of the versions in a list, if that is possible. -/
def mergeInto? (s : Stacks σ) (v : Nat) : List Nat → Option (Stacks σ)
  | [] => none
  | i :: rest =>
      match s.merge? i v with
      | some merged => some merged
      | none => mergeInto? s v rest

/-- Completes the slices of a reduction, the slices of one version together; `removed` counts the
versions that were merged away on the way. -/
def reduceSlices (p : Setting σ) (v head production : Nat) (dynamic : Int) :
    Nat → List (Stacks.Slice σ) → Nat → Stacks σ → Stacks σ
  | 0, _, _, s => s
  | rounds + 1, slices, removed, s =>
      match slices with
      | [] => s
      | slice :: rest =>
          let same := rest.takeWhile fun x => x.version == slice.version
          let rest := rest.dropWhile fun x => x.version == slice.version
          let number := slice.version - removed
          if maxBranches < number then
            reduceSlices p v head production dynamic rounds rest (removed + 1) (s.remove number)
          else
            let build := p.ruleNode head production dynamic (s.position number)
            let (children, extras) := splitExtras slice.trees
            let (node, extras) :=
              bestNode p build (build children, extras) (same.map fun x => x.trees)
            let next := p.afterRule? (s.state number) head
            let s := pushAll (s.push number (some node) next) number next extras
            let others := (List.range number).filter (· != v)
            match mergeInto? s number others with
            | some merged =>
                reduceSlices p v head production dynamic rounds rest (removed + 1) merged
            | none => reduceSlices p v head production dynamic rounds rest removed s

/-- Replaces the last trees of a version by a node, in new versions after the existing ones; gives
the first of them, if there is one. -/
def reduce (p : Setting σ) (s : Stacks σ) (v : Nat) (head length : Nat) (dynamic : Int)
    (production : Nat) : Option Nat × Stacks σ :=
  let before := s.versions.size
  let (slices, s) := s.popCount v length
  let s := p.reduceSlices v head production dynamic (slices.length + 1) slices 0 s
  (if before < s.versions.size then some before else none, s)

/-- Ends a version whose whole text has been read, and keeps its tree if it is the best so far. -/
def accept (p : Setting σ) (s : Stacks σ) (v : Nat) (lookahead : Tree σ) : Stacks σ :=
  let s := s.push v (some lookahead) none
  let existing := s.versions.size
  let (slices, s) := s.popAll v
  let s := slices.foldl
    (fun (s : Stacks σ) slice =>
      let after := (slice.trees.reverse.takeWhile fun t => t.info.extra).reverse
      match slice.trees.reverse.dropWhile fun t => t.info.extra with
      | [] => s
      | last :: before =>
          let children := before.reverse ++ last.children ++ after
          let i := last.info
          let root := Tree.node p.source i.visible i.mark i.production
            (fun place => (i.production.map fun x => p.renames x place).getD false) 0 0 children
          let finished :=
            match s.finished with
            | some t => if Tree.prefersSecond t root then root else t
            | none => root
          { s with finished := some finished, accepted := s.accepted + 1 })
    s
  ({ s with versions := s.versions.extract 0 existing }).halt v

/-- The reductions that are possible in a state, on one token or on any, each shape once, and
whether a token can be taken. -/
def possible (p : Setting σ) (state : Option Nat) (token : Option Nat) :
    List Action × Bool :=
  match state with
  | none => ([], true)
  | some state =>
      let tokens := match token with
        | some t => [t]
        | none => List.range p.endToken
      let all := tokens.flatMap (p.actions state)
      let shifts := all.any fun
        | .shift _ repetition => !repetition
        | _ => false
      let reductions := all.foldl
        (fun acc action =>
          match action with
          | .reduce head length _ _ =>
              let known := acc.any fun
                | .reduce h l _ _ => h == head && l == length
                | _ => false
              if length = 0 || known then acc else acc ++ [action]
          | _ => acc)
        []
      (reductions, shifts)

/-- Makes every reduction that is possible, on one token or on any, in a version and in those that
come from it; says whether the token can be taken afterwards. `first` is the number of versions
before; `rounds` bounds the number of rounds. -/
def reduceAll (p : Setting σ) (token : Option Nat) (start first : Nat) :
    Nat → Nat → Nat → Bool → Stacks σ → Bool × Stacks σ
  | 0, _, _, can, s => (can, s)
  | rounds + 1, round, v, can, s =>
      let count := s.versions.size
      if count ≤ v then (can, s)
      else
        match mergeInto? s v (List.range' first (v - first)) with
        | some merged => reduceAll p token start first rounds (round + 1) v can merged
        | none =>
            let (reductions, shifts) := p.possible (s.state v) token
            let (made, s) := reductions.foldl
              (fun (acc : Option Nat × Stacks σ) action =>
                match action with
                | .reduce head length dynamic production =>
                    p.reduce acc.2 v head length dynamic production
                | _ => acc)
              (none, s)
            match shifts, made with
            | false, some made =>
                if round < maxVersions then
                  reduceAll p token start first rounds (round + 1) v can (s.renumber made v)
                else
                  let s := if token.isSome then s.remove v else s
                  reduceAll p token start first rounds (round + 1)
                    (if v = start then count else v + 1) can s
            | _, _ =>
                let s := if !shifts && token.isSome then s.remove v else s
                reduceAll p token start first rounds (round + 1)
                  (if v = start then count else v + 1) (can || shifts) s

/-- The bound on the rounds of `reduceAll`. -/
def reductionRounds : Nat := 2000

/-- Makes every reduction that is possible in a version. -/
def reducePossible (p : Setting σ) (s : Stacks σ) (v : Nat) (token : Option Nat) :
    Bool × Stacks σ :=
  p.reduceAll token v s.versions.size reductionRounds 0 v false s

/-- Goes back to a state below the top of a version; what is above it becomes skipped text of a new
version. Says whether there is such a version. -/
def goBack (p : Setting σ) (s : Stacks σ) (v depth : Nat) (goal : Option Nat) :
    Bool × Stacks σ :=
  let (slices, s) := s.popCount v depth
  let (found, s) := slices.foldl
    (fun (acc : Option Nat × Stacks σ) slice =>
      let (previous, s) := acc
      if previous == some slice.version then acc
      else if s.state slice.version != goal then (previous, s.halt slice.version)
      else
        let (errors, s) := s.popError slice.version
        let trees := (errors.flatMap Tree.children) ++ slice.trees
        let (skipped, extras) := splitExtras trees
        let s :=
          if skipped.isEmpty then s
          else
            let node := (p.errorNode .error (s.position slice.version) skipped).setExtra true
            s.push slice.version (some node) goal
        (some slice.version, pushAll s slice.version goal extras))
    (none, s)
  (found.isSome, s)

/-- Looks for a state below the top in which a token is welcome and goes back to the first one that
is worth it. -/
def tryLandmarks (p : Setting σ) (v token cost progress existing : Nat) :
    List Landmark → Stacks σ → Bool × Stacks σ
  | [], s => (false, s)
  | mark :: rest, s =>
      let pos := s.position v
      let skip := tryLandmarks p v token cost progress existing rest
      match mark.state with
      | none => skip s
      | some state =>
          let taken := (List.range existing).any fun i =>
            s.state i == some state && s.position i == pos
          if mark.position == pos || taken then skip s
          else
            let newCost := cost + mark.depth * skippedTreeCost
              + (p.source.byteAt pos - p.source.byteAt mark.position) * skippedByteCost
              + (p.source.rowAt pos - p.source.rowAt mark.position) * skippedLineCost
            let (better, s) := p.betterExists s v newCost
            if better then (false, s)
            else if p.welcomes state token then
              let depth := if 0 < progress then mark.depth + 1 else mark.depth
              let (found, s) := p.goBack s v depth (some state)
              if found then (true, s) else skip s
            else skip s

/-- Removes the versions from a number on that are not active. -/
def removeInactive (s : Stacks σ) (first : Nat) : Stacks σ :=
  let kept := s.versions.toList.zipIdx.filter fun (v, i) => i < first || v.isActive
  { s with versions := (kept.map Prod.fst).toArray }

/-- Goes on with a repair when a token has been read: it may end the repair in an earlier state, and
otherwise it is skipped. -/
def recover (p : Setting σ) (s : Stacks σ) (v : Nat) (lookahead : Tree σ) : Stacks σ :=
  let existing := s.versions.size
  let pos := s.position v
  let s := s.refresh v
  let progress := s.progressSince v
  let cost := s.cost v
  let (found, s) :=
    match (s.version v).landmarks, lookahead.info.mark with
    | some marks, .token token => p.tryLandmarks v token cost progress existing marks s
    | _, _ => (false, s)
  let s := removeInactive s existing
  if found && maxVersions < s.versions.size then s.halt v
  else if lookahead.info.mark == .token p.endToken then
    let s := s.push v (some (p.errorNode .error pos [])) (some 0)
    p.accept s v lookahead
  else
    let i := lookahead.info
    let newCost := cost + skippedTreeCost
      + (p.source.byteAt i.stop - p.source.byteAt i.lead) * skippedByteCost
      + (p.source.rowAt i.stop - p.source.rowAt i.lead) * skippedLineCost
    let (better, s) := p.betterExists s v newCost
    if better then s.halt v
    else
      let isExtra := match i.mark with
        | .token t => p.table.isExtra t
        | _ => false
      let lookahead := if isExtra then lookahead.setExtra true else lookahead
      let skipped := p.errorNode .skipped pos [lookahead]
      let (skipped, s) :=
        if 0 < progress then
          let (slices, s) := s.popCount v 1
          match slices with
          | [] => (skipped, s)
          | slice :: _ =>
              let s := { s with versions := s.versions.extract 0 (slice.version + 1) }
              let s := s.renumber slice.version v
              (p.errorNode .skipped pos (slice.trees ++ [skipped]), s)
        else (skipped, s)
      let s := s.push v (some skipped) none
      match lookahead.layout with
      | some layout => s.modify v fun x => { x with layout }
      | none => s

/-- Looks for one token that a version lacks: after it, the lookahead completes a construct. -/
def inventToken (p : Setting σ) (s : Stacks σ) (v : Nat) (token : Nat) :
    List Nat → Option (Stacks σ)
  | [] => none
  | missing :: rest =>
      let after := (s.state v).bind fun state =>
        (p.afterToken? state missing).filter (· != state)
      let completes := match after with
        | some next =>
            match p.actions next token with
            | .reduce .. :: _ => true
            | _ => false
        | none => false
      if completes then
        let number := s.versions.size
        let copy := { s.version v with landmarks := none, status := .active }
        let pos := s.position v
        let t := { s with versions := s.versions.push copy }
        let t := t.push number (some (Tree.missing (p.table.showsToken missing) missing pos)) after
        let (can, t) := p.reducePossible t number (some token)
        if can then some t else inventToken p t v token rest
      else inventToken p s v token rest

/-- Starts the repair of the versions in a list: one of them may get a token that it lacks, and in
all of them skipping begins. -/
def beginSkipping (p : Setting σ) (lookahead : Tree σ) :
    List Nat → Bool → Stacks σ → Stacks σ
  | [], _, s => s
  | v :: rest, invented, s =>
      let (invented, s) :=
        match invented, lookahead.info.mark with
        | false, .token token =>
            match p.inventToken s v token (List.range p.endToken) with
            | some t => (true, t)
            | none => (false, s)
        | _, _ => (invented, s)
      beginSkipping p lookahead rest invented (s.push v none none)

/-- Merges versions into one, always the one with the second number. -/
def mergeAll (v other : Nat) : Nat → Stacks σ → Stacks σ
  | 0, s => s
  | count + 1, s =>
      match s.merge? v other with
      | some merged => mergeAll v other count merged
      | none => mergeAll v other count s

/-- Repairs a version that cannot take a token. -/
def repair (p : Setting σ) (s : Stacks σ) (v : Nat) (lookahead : Tree σ) : Stacks σ :=
  let before := s.versions.size
  let (_, s) := p.reducePossible s v none
  let count := s.versions.size
  let s := p.beginSkipping lookahead (v :: List.range' before (count - before)) false s
  let s := mergeAll v before (count - before) s
  let s := s.noteLandmarks v
  p.recover s v lookahead

/-- Takes a token. -/
def shift (_ : Setting σ) (s : Stacks σ) (v : Nat) (state : Option Nat) (token : Tree σ)
    (extra : Bool) : Stacks σ :=
  let s := s.push v (some (token.setExtra (extra || token.info.extra))) state
  match token.layout with
  | some layout => s.modify v fun x => { x with layout }
  | none => s

/-- What a list of actions leads to: a version that took the token, a last reduction, or nothing. -/
inductive Outcome (σ : Type) where
  | taken (s : Stacks σ)
  | reduced (version : Nat) (s : Stacks σ)
  | stuck (s : Stacks σ)

/-- Carries out the actions on a token in order. -/
def act (p : Setting σ) (v : Nat) (lookahead : Tree σ) :
    List Action → Option Nat → Stacks σ → Outcome σ
  | [], none, s => .stuck s
  | [], some made, s => .reduced made s
  | .shift state repetition :: rest, made, s =>
      if repetition then act p v lookahead rest made s
      else .taken (p.shift s v (some state) lookahead false)
  | .reduce head length dynamic production :: rest, made, s =>
      let (fresh, s) := p.reduce s v head length dynamic production
      act p v lookahead rest (fresh.or made) s
  | .accept :: _, _, s => .taken (p.accept s v lookahead)

/-- Reads one token in a version and carries out reductions until it is taken or refused; `rounds`
bounds the number of reductions. -/
def advanceOn (p : Setting σ) (word : Nat) (v : Nat) : Nat → Tree σ → Stacks σ → Stacks σ
  | 0, _, s => s.halt v
  | rounds + 1, lookahead, s =>
      match s.state v with
      | none => p.recover s v lookahead
      | some state =>
          let stuck (s : Stacks σ) : Stacks σ :=
            let progress := (s.top v).progress
            s.modify v fun x => { x with status := .paused lookahead, baseline := progress }
          match lookahead.info.mark with
          | .token token =>
              if p.table.isExtra token then p.shift s v (some state) lookahead true
              else
                match p.act v lookahead (p.actions state token) none s with
                | .taken s => s
                | .reduced made s => advanceOn p word v rounds lookahead (s.renumber made v)
                | .stuck s =>
                    if lookahead.info.keyword && token != word
                        && !(p.actions state word).isEmpty then
                      let renamed := { lookahead.info with mark := .token word }
                      advanceOn p word v rounds (.mk renamed lookahead.layout []) s
                    else stuck s
          | _ => stuck s

/-- Reads the next token of a version. -/
def lookahead (p : Setting σ) (s : Stacks σ) (v : Nat) : Tree σ :=
  let welcome := (s.state v).map fun state => p.welcomes state
  let pos := s.position v
  let lexeme := p.scanner.next p.source pos (s.version v).layout welcome
    (s.hasAdvanced p.source v)
  match lexeme.token with
  | some id =>
      Tree.leaf (p.table.showsToken id) (.token id) pos lexeme.start lexeme.stop lexeme.layout
        lexeme.keyword (id == p.endToken)
  | none => Tree.leaf true .error pos lexeme.start lexeme.stop none false false

/-- Advances a version until it has come further than all before it, or is no longer active;
`rounds` bounds the number of tokens. -/
def advance (p : Setting σ) (word v : Nat) : Nat → Nat → Stacks σ → Nat × Stacks σ
  | 0, last, s => (last, s)
  | rounds + 1, last, s =>
      if !(s.version v).isActive then (last, s)
      else
        let s := p.advanceOn word v 100000 (p.lookahead s v) s
        let pos := s.position v
        if last < pos || (0 < v && pos == last) then (pos, s)
        else advance p word v rounds last s

/-- Advances all versions, new ones included, one after the other. -/
def advanceAll (p : Setting σ) (word : Nat) : Nat → Nat → Nat → Stacks σ → Nat × Stacks σ
  | 0, _, last, s => (last, s)
  | rounds + 1, v, last, s =>
      if s.versions.size ≤ v then (last, s)
      else
        let (last, s) := p.advance word v 1000 last s
        advanceAll p word rounds (v + 1) last s

/-- Compares a version, whose standing is given, with those before it, from the first on. Gives the
number of the version to go on with. -/
def condenseAt (p : Setting σ) (own : Standing) : Nat → Nat → Nat → Stacks σ → Nat × Stacks σ
  | 0, i, _, s => (i + 1, s)
  | rounds + 1, i, j, s =>
      if i ≤ j then (i + 1, s)
      else
        let s := s.refresh j
        match (p.standing s j).compare own with
        | .takeLeft => (i, s.remove i)
        | .preferLeft | .none =>
            match s.merge? j i with
            | some merged => (i, merged)
            | none => condenseAt p own rounds i (j + 1) s
        | .preferRight =>
            match s.merge? j i with
            | some merged => (i, merged)
            | none =>
                let (a, b) := (s.version i, s.version j)
                condenseAt p own rounds i (j + 1)
                  ((s.modify i fun _ => b).modify j fun _ => a)
        | .takeRight => condenseAt p own rounds (i - 1) j (s.remove j)

/-- Orders the versions from the most to the least promising one, merging and removing on the way;
gives the least cost of a version that is not under repair. -/
def condenseAll (p : Setting σ) : Nat → Nat → Option Nat → Stacks σ → Option Nat × Stacks σ
  | 0, _, least, s => (least, s)
  | rounds + 1, i, least, s =>
      if s.versions.size ≤ i then (least, s)
      else if (s.version i).isHalted then condenseAll p rounds i least (s.remove i)
      else
        let s := s.refresh i
        let own := p.standing s i
        let least :=
          if own.inError then least
          else some (match least with | some c => min c own.cost | none => own.cost)
        let (i, s) := p.condenseAt own 1000 i 0 s
        condenseAll p rounds i least s

/-- Starts the repair of the first paused version unless one before it goes on, and removes the
other paused versions. -/
def resumeAt (p : Setting σ) : Nat → Nat → Nat → Bool → Option Nat → Stacks σ →
    Option Nat × Stacks σ
  | 0, _, _, _, least, s => (least, s)
  | rounds + 1, i, count, goesOn, least, s =>
      if count ≤ i then (least, s)
      else
        match (s.version i).status with
        | .paused token =>
            if !goesOn && s.accepted < maxVersions then
              let least := some (s.cost i)
              let s := s.modify i fun x => { x with status := .active }
              resumeAt p rounds (i + 1) count true least (p.repair s i token)
            else resumeAt p rounds i (count - 1) goesOn least (s.remove i)
        | _ => resumeAt p rounds (i + 1) count true least s

/-- Puts the versions in order and starts a repair where no version goes on. -/
def condense (p : Setting σ) (s : Stacks σ) : Option Nat × Stacks σ :=
  let (least, s) := p.condenseAll 1000 0 none s
  let s := { s with versions := s.versions.extract 0 maxVersions }
  p.resumeAt 1000 0 s.versions.size false least s

/-- Advances and condenses until no version is left or the finished tree is cheaper than every
version can become; `rounds` bounds the number of rounds. -/
def run (p : Setting σ) (word : Nat) : Nat → Nat → Stacks σ → Option (Tree σ)
  | 0, _, s => s.finished
  | rounds + 1, last, s =>
      let (last, s) := p.advanceAll word 1000 0 last s
      let (least, s) := p.condense s
      let done :=
        match s.finished, least with
        | some t, some c => t.info.cost < c
        | some _, none => true
        | none, _ => false
      if done || s.versions.isEmpty then s.finished else run p word rounds last s

end Setting

/-- Parses a text; none when no reading was completed within the bounds. `word` is the token of
identifiers, which a keyword falls back to where it is not welcome. -/
def parse? {σ : Type} [Inhabited σ] [DecidableEq σ] (table : Table) (scanner : Scanner σ)
    (source : Source) (word : Nat) : Option (Tree σ) :=
  let start : Stacks σ :=
    { cells := #[⟨some 0, 0, 0, 0, 0, []⟩]
      versions := #[⟨0, .active, 0, scanner.initial, none⟩]
      finished := none
      accepted := 0 }
  Setting.run ⟨table, scanner, source⟩ word (20 * source.size + 1000) 0 start

end Vetting.Grammar
