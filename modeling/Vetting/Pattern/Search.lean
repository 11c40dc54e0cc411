import Vetting.Pattern.Basic

/-! Searching a text for a pattern. A search tries the places of a text from left to right, and at
each place the matches in their order, so what it finds is the first match at the leftmost place
where there is one. Later matches are looked for behind earlier ones. -/

namespace Vetting.Pattern

/-- A place in a text, and what groups have matched on the way to it. -/
structure Progress where
  /-- The character before the place. -/
  before : Option Char
  /-- The text from the place on. -/
  rest : List Char
  /-- What each group matched last, the latest first. -/
  groups : List (Nat × List Char)

/-- A way to go on from a place. -/
abbrev Continuation (β : Type) := Progress → Option β

/-- The answer of the first way to go on, or else that of the second. -/
def either {β : Type} (first second : Continuation β) : Continuation β := fun p =>
  match first p with
  | some answer => some answer
  | none => second p

/-- Runs a step a number of times in a row. -/
def rounds {β : Type} (body : Continuation β → Continuation β) :
    Nat → Continuation β → Continuation β
  | 0, next => next
  | n + 1, next => body (rounds body n next)

/-- Runs a step at most a number of times in a row, as often or as rarely as possible; a round that
matches nothing ends the repetition. -/
def moreRounds {β : Type} (body : Continuation β → Continuation β) (greedy : Bool) :
    Nat → Continuation β → Continuation β
  | 0, next => next
  | n + 1, next => fun p =>
      let again : Continuation β := body fun p' =>
        if p'.rest.length < p.rest.length then moreRounds body greedy n next p' else none
      if greedy then either again next p else either next again p

/-- Tries the matches of a pattern at a place in their order, and answers with the first one that
one can go on from. -/
def run {β : Type} : Pattern → Continuation β → Continuation β
  | empty, next => next
  | one member, next => fun p =>
      match p.rest with
      | [] => none
      | c :: rest => if member c then next { p with before := some c, rest := rest } else none
  | look condition, next => fun p =>
      if condition p.before p.rest.head? then next p else none
  | seq first second, next => run first (run second next)
  | alt first second, next => either (run first next) (run second next)
  | rep greedy least most body, next => fun p =>
      rounds (run body) least
        (fun q => moreRounds (run body) greedy
          ((most.map (· - least)).getD q.rest.length) next q) p
  | group index body, next => fun p =>
      run body (fun q =>
        next { q with
          groups := (index, p.rest.take (p.rest.length - q.rest.length)) :: q.groups }) p

/-- A match: the place behind it, and what its groups matched. -/
def matchAt? (pattern : Pattern) (before : Option Char) (text : List Char) : Option Progress :=
  run pattern some ⟨before, text, []⟩

/-- The first match at the leftmost place. -/
def search? (pattern : Pattern) (before : Option Char) (text : List Char) : Option Progress :=
  match matchAt? pattern before text, text with
  | some found, _ => some found
  | none, [] => none
  | none, c :: rest => search? pattern (some c) rest

/-- The matches of a pattern, each behind the one before it; `steps` bounds their number. -/
def searchAll (pattern : Pattern) : Nat → Option Char → List Char → List Progress
  | 0, _, _ => []
  | steps + 1, before, text =>
      match search? pattern before text with
      | none => []
      | some found =>
          if found.rest.length < text.length then
            found :: searchAll pattern steps found.before found.rest
          else
            match text with
            | [] => [found]
            | c :: rest => found :: searchAll pattern steps (some c) rest

/-- What a group matched, nothing when it took no part in the match. -/
def Progress.text (p : Progress) (index : Nat) : List Char :=
  (p.groups.lookup index).getD []

/-- The first match of a pattern in a text. -/
def first? (pattern : Pattern) (text : List Char) : Option Progress :=
  search? pattern none text

/-- All matches of a pattern in a text. -/
def all (pattern : Pattern) (text : List Char) : List Progress :=
  searchAll pattern (text.length + 1) none text

/-- Whether a pattern matches somewhere in a text. -/
def found (pattern : Pattern) (text : List Char) : Bool :=
  (first? pattern text).isSome

end Vetting.Pattern
