import Vetting.Grammar.Rule
import Std.Data.HashMap

/-! Productions. The rules of a grammar are unfolded into plain sequences of symbols: a repetition
becomes a rule of its own that is either one body or two shorter repetitions, choices become
separate productions, and each step of a production keeps the precedence it was written with. -/

namespace Vetting.Grammar

/-- A repetition that got a rule of its own. -/
structure Repetition where
  key : String
  name : String
  body : Rule

/-- The repetitions found so far, the last one first, and the number of those in the current rule. -/
structure Repetitions where
  found : List Repetition
  count : Nat

mutual

/-- Replaces the repetitions inside a rule by references to rules of their own; equal repetitions
share one. -/
def nameRepetitions (owner : String) : Rule → Repetitions → Rule × Repetitions
  | .seq parts, st =>
      let (parts, st) := nameAll owner parts st
      (.seq parts, st)
  | .choice options, st =>
      let (options, st) := nameAll owner options st
      (.choice options, st)
  | .many1 body, st =>
      let (body, st) := nameRepetitions owner body st
      match st.found.find? (fun r => r.key == body.key) with
      | some r => (.ref r.name, st)
      | none =>
          let name := owner ++ "_repeat" ++ toString (st.count + 1)
          let whole := .choice [.seq [.ref name, .ref name], body]
          (.ref name, ⟨⟨body.key, name, whole⟩ :: st.found, st.count + 1⟩)
  | .prec level assoc body, st =>
      let (body, st) := nameRepetitions owner body st
      (.prec level assoc body, st)
  | .dynamic level body, st =>
      let (body, st) := nameRepetitions owner body st
      (.dynamic level body, st)
  | .renamed name body, st =>
      let (body, st) := nameRepetitions owner body st
      (.renamed name body, st)
  | .label name body, st =>
      let (body, st) := nameRepetitions owner body st
      (.label name body, st)
  | rule, st => (rule, st)

/-- Replaces the repetitions inside several rules. -/
def nameAll (owner : String) : List Rule → Repetitions → List Rule × Repetitions
  | [], st => ([], st)
  | rule :: rest, st =>
      let (rule, st) := nameRepetitions owner rule st
      let (rest, st) := nameAll owner rest st
      (rule :: rest, st)

end

/-- A symbol of a production: a token or a rule, by number. -/
inductive Symbol where
  | token (id : Nat)
  | rule (id : Nat)
  deriving DecidableEq, Repr, Hashable, Inhabited

/-- A symbol in its place in a production. -/
structure Step where
  symbol : Symbol
  prec : Option Int
  assoc : Option Assoc
  newName : Option String
  label : Option String
  deriving DecidableEq, Repr, Hashable, Inhabited

/-- One way in which a rule can be spelled out. -/
structure Production where
  head : Nat
  steps : List Step
  dynamic : Int
  deriving DecidableEq, Repr, Inhabited

/-- What surrounds a part of a rule. -/
structure Surroundings where
  prec : Option Int
  assoc : Option Assoc
  newName : Option String
  label : Option String

/-- The steps read so far, last one first, and the dynamic precedence of largest size. -/
structure Flat where
  steps : List Step
  dynamic : Int

/-- Changes the step read last. -/
def Flat.mapLast (flat : Flat) (f : Step → Step) : Flat :=
  match flat.steps with
  | [] => flat
  | step :: rest => { flat with steps := f step :: rest }

mutual

/-- Adds the steps of a rule without choices. The last step of a part with a precedence of its own
counts as outside of that part, unless it ends the production. The truth value says whether a step
was added. -/
def flatten (number : Rule → Option Symbol) (env : Surroundings) (atEnd : Bool) :
    Rule → Flat → Flat × Bool
  | .seq parts, flat => flattenAll number env atEnd parts flat
  | .prec level assoc body, flat =>
      let inner := { env with prec := some level, assoc := assoc.or env.assoc }
      let (flat, added) := flatten number inner atEnd body flat
      if added && !atEnd then
        (flat.mapLast fun step =>
          { step with
            prec := env.prec
            assoc := if assoc.isSome then env.assoc else step.assoc }, added)
      else (flat, added)
  | .dynamic level body, flat =>
      let size := if flat.dynamic.natAbs < level.natAbs then level else flat.dynamic
      flatten number env atEnd body { flat with dynamic := size }
  | .renamed name body, flat => flatten number { env with newName := some name } atEnd body flat
  | .label name body, flat => flatten number { env with label := some name } atEnd body flat
  | .blank, flat => (flat, false)
  | rule, flat =>
      match number rule with
      | some symbol =>
          ({ flat with
             steps := ⟨symbol, env.prec, env.assoc, env.newName, env.label⟩ :: flat.steps }, true)
      | none => (flat, false)

/-- Adds the steps of several rules. -/
def flattenAll (number : Rule → Option Symbol) (env : Surroundings) (atEnd : Bool) :
    List Rule → Flat → Flat × Bool
  | [], flat => (flat, false)
  | rule :: rest, flat =>
      let (flat, first) := flatten number env (atEnd && rest.isEmpty) rule flat
      let (flat, others) := flattenAll number env atEnd rest flat
      (flat, first || others)

end

mutual

/-- The tokens of a rule, in the order in which they are written. -/
def tokensOf : Rule → List String
  | .token name => [name]
  | .seq parts => tokensOfAll parts
  | .choice options => tokensOfAll options
  | .many1 body => tokensOf body
  | .prec _ _ body => tokensOf body
  | .dynamic _ body => tokensOf body
  | .renamed _ body => tokensOf body
  | .label _ body => tokensOf body
  | _ => []

/-- The tokens of several rules. -/
def tokensOfAll : List Rule → List String
  | [] => []
  | rule :: rest => tokensOf rule ++ tokensOfAll rest

end

/-- Puts what an inlined rule stands for into the place of a step. -/
def Production.splice (outer : Production) (before : List Step) (step : Step) (after : List Step)
    (inner : Production) : Production :=
  let renamed := inner.steps.map fun s =>
    { s with newName := step.newName.or s.newName, label := step.label.or s.label }
  let placed :=
    match renamed.reverse with
    | [] => []
    | last :: rest =>
        ({ last with prec := last.prec.or step.prec, assoc := last.assoc.or step.assoc }
          :: rest).reverse
  { head := outer.head
    steps := before ++ placed ++ after
    dynamic := if outer.dynamic.natAbs < inner.dynamic.natAbs then inner.dynamic
      else outer.dynamic }

/-- Replaces the inlined rules of a production one after the other; `rounds` bounds their number. -/
def Production.inline (isInlined : Nat → Bool) (ofRule : Nat → List Production) :
    Nat → Production → List Production
  | 0, p => [p]
  | rounds + 1, p =>
      let hit (step : Step) : Bool :=
        match step.symbol with
        | .rule id => isInlined id
        | .token _ => false
      let before := p.steps.takeWhile (fun step => !hit step)
      match p.steps.dropWhile (fun step => !hit step) with
      | [] => [p]
      | step :: after =>
          let id := match step.symbol with | .rule id => id | .token id => id
          (ofRule id).flatMap fun inner =>
            Production.inline isInlined ofRule rounds (p.splice before step after inner)

/-- A grammar spelled out: numbered tokens and rules, and the productions of all rules. -/
structure Spelled where
  tokens : Array String
  rules : Array String
  tokenIds : Std.HashMap String Nat
  productions : Array Production
  ofRule : Array (List Nat)
  repetitions : Nat → Bool

instance : Inhabited Spelled := ⟨⟨#[], #[], {}, #[], #[], fun _ => false⟩⟩

/-- The name of the token that ends every document. -/
def endToken : String := "end of input"

/-- Spells a grammar out. Tokens are numbered in the order of their first use after `identifier`,
which comes first; layout tokens, extras and the end of the document come last. -/
def RuleBook.spell (g : RuleBook) : Spelled :=
  let (named, reps) := g.rules.foldl
    (fun (acc : List (String × Rule) × Repetitions) (entry : String × Rule) =>
      let (body, st) := nameRepetitions entry.1 entry.2 { acc.2 with count := 0 }
      ((entry.1, body) :: acc.1, st))
    ([], ⟨[], 0⟩)
  let rules := named.reverse ++ reps.found.reverse.map fun r => (r.name, r.body)
  let written := "identifier" :: (rules.flatMap fun r => tokensOf r.2)
  let ordered := written.filter (fun name => !g.layout.contains name) ++ g.layout ++ g.extras
  let tokens := (ordered ++ [endToken]).foldl
    (fun (acc : Array String × Std.HashMap String Nat) name =>
      if acc.2.contains name then acc else (acc.1.push name, acc.2.insert name acc.1.size))
    (#[], {})
  let names := (rules.map Prod.fst).toArray
  let ruleIds : Std.HashMap String Nat :=
    (names.toList.zipIdx).foldl (fun ids entry => ids.insert entry.1 entry.2) {}
  let number : Rule → Option Symbol
    | .token name => (tokens.2[name]?).map .token
    | .ref name => (ruleIds[name]?).map .rule
    | _ => none
  let spellRule (id : Nat) (body : Rule) : List Production :=
    (body.alternatives.map fun option =>
      let flat := (flatten number ⟨none, none, none, none⟩ true option ⟨[], 0⟩).1
      ({ head := id, steps := flat.steps.reverse, dynamic := flat.dynamic } : Production)).eraseDups
  let plain : Array (List Production) :=
    (rules.zipIdx.map fun entry => spellRule entry.2 entry.1.2).toArray
  let isInlined (id : Nat) : Bool := g.inlined.contains (names[id]?.getD "")
  let whole := (List.range names.size).map fun id =>
    if isInlined id then []
    else ((plain[id]?.getD []).flatMap
      (Production.inline isInlined (fun r => plain[r]?.getD []) 8)).eraseDups
  let numbered := whole.foldl
    (fun (acc : Array Production × Array (List Nat)) ps =>
      (acc.1 ++ ps.toArray, acc.2.push (List.range' acc.1.size ps.length)))
    (#[], #[])
  { tokens := tokens.1
    rules := names
    tokenIds := tokens.2
    productions := numbered.1
    ofRule := numbered.2
    repetitions := fun id => g.rules.length ≤ id }

end Vetting.Grammar
