import Vetting.Pattern.Notation

/-! Reading patterns from text. A pattern is a choice of rows of repeated parts; a part is a
character, a class, an anchor or a group. Modes set inside a group hold to its end. The functions
that call each other take a bound on the number of calls, which the length of the text supplies. -/

namespace Vetting.Pattern

open Vetting.Text

/-- What is left to read, how it is read, and the names of the groups so far. -/
structure Source where
  rest : List Char
  mode : Mode
  names : List String

/-- A step of reading. -/
abbrev Reader := StateT Source (Except Fault)

namespace Reader

/-- Refuses the pattern. -/
def fail {α : Type} : Reader α :=
  throw .malformed

/-- The text that is left. -/
def rest : Reader (List Char) :=
  return (← get).rest

/-- The next character. -/
def next? : Reader (Option Char) :=
  return (← get).rest.head?

/-- How the pattern is read. -/
def mode : Reader Mode :=
  return (← get).mode

/-- Changes the text that is left. -/
def setRest (text : List Char) : Reader Unit :=
  modify fun s => { s with rest := text }

/-- Changes how the pattern is read. -/
def setMode (mode : Mode) : Reader Unit :=
  modify fun s => { s with mode := mode }

/-- Drops blanks and comments from the front; `steps` bounds their number. -/
def dropFiller : Nat → List Char → List Char
  | 0, text => text
  | steps + 1, text =>
      match text.dropWhile isBlank with
      | '#' :: rest => dropFiller steps ((rest.dropWhile (· != '\n')).drop 1)
      | rest => rest

/-- Skips blanks and comments where the mode says so. -/
def skip : Reader Unit := do
  if (← mode).verbose then
    let text ← rest
    setRest (dropFiller (text.length + 1) text)

/-- Goes past the next character. -/
def bump : Reader Unit := do
  setRest ((← rest).drop 1)

/-- Goes past the next character and what may be skipped behind it. -/
def bumpSkip : Reader Unit := do
  bump
  skip

/-- The next character, which has to exist. -/
def need : Reader Char := do
  match ← next? with
  | some c => return c
  | none => fail

/-- Goes past a text if it comes next. -/
def accept (text : String) : Reader Bool := do
  let left ← rest
  if text.toList.isPrefixOf left then
    setRest (left.drop text.length)
    return true
  else
    return false

/-- Collects characters as long as they pass a test; `steps` bounds their number. -/
def collect (test : Char → Bool) : Nat → Reader (List Char)
  | 0 => return []
  | steps + 1 => do
      match ← next? with
      | some c =>
          if test c then
            bumpSkip
            return c :: (← collect test steps)
          else return []
      | none => return []

/-- Collects characters as long as they pass a test. -/
def collectAll (test : Char → Bool) : Reader (List Char) := do
  collect test (← rest).length

/-- A number, which may stand between blanks; nothing when there are no digits. -/
def decimal? : Reader (Option Nat) := do
  setRest ((← rest).dropWhile isBlank)
  let digits ← collectAll Char.isDigit
  let _ ← collectAll isBlank
  if digits.isEmpty then return none
  let n := digits.foldl (fun n d => n * 10 + (d.toNat - '0'.toNat)) 0
  if n < UInt32.size then return some n else fail

/-- The value of a hexadecimal digit. -/
def hexValue? (c : Char) : Option Nat :=
  if c.isDigit then some (c.toNat - '0'.toNat)
  else if 'a' ≤ c && c ≤ 'f' then some (c.toNat - 'a'.toNat + 10)
  else if 'A' ≤ c && c ≤ 'F' then some (c.toNat - 'A'.toNat + 10)
  else none

/-- The character with a number in hexadecimal digits. -/
def hexChar (digits : List Char) : Reader Char := do
  match digits.mapM hexValue? with
  | some values =>
      let n := values.foldl (fun n v => n * 16 + v) 0
      if n.isValidChar then return Char.ofNat n else fail
  | none => fail

/-- Collects a fixed number of characters. -/
def exactly : Nat → Reader (List Char)
  | 0 => return []
  | n + 1 => do
      let c ← need
      bumpSkip
      return c :: (← exactly n)

/-- A character given by its number, behind the letter that announces it. -/
def hex (digits : Nat) : Reader Char := do
  bumpSkip
  if (← need) == '\x7b' then
    bumpSkip
    let found ← collectAll (· != '\x7d')
    let _ ← need
    bumpSkip
    if found.isEmpty then fail else hexChar found
  else
    let found ← exactly digits
    let c ← hexChar found
    if digits == 2 && 0x7F < c.toNat && !(← mode).wide then fail
    return c

/-- The parts of a property between braces: its name, its value if there is one, and whether the
value is excluded. -/
def splitProperty (text : List Char) : String × Option String × Bool :=
  let cut (sep : String) : Option (String × String) :=
    (splitOnce? sep.toList text).map fun parts =>
      (String.ofList parts.1, String.ofList parts.2)
  match cut "!=", cut ":", cut "=" with
  | some (name, value), _, _ => (name, some value, true)
  | none, some (name, value), _ => (name, some value, false)
  | none, none, some (name, value) => (name, some value, false)
  | none, none, none => (String.ofList text, none, false)
where
  /-- The text before and after the first occurrence of a separator. -/
  splitOnce? (sep : List Char) : List Char → Option (List Char × List Char)
    | [] => none
    | c :: rest =>
        if sep.isPrefixOf (c :: rest) then some ([], (c :: rest).drop sep.length)
        else (splitOnce? sep rest).map fun parts => (c :: parts.1, parts.2)

/-- A class given by a property, behind the letter that announces it. -/
def property (negated : Bool) : Reader CharClass := do
  bumpSkip
  let (name, value, excluded) ← do
    if (← need) == '\x7b' then
      bumpSkip
      let inside ← collectAll (· != '\x7d')
      let _ ← need
      bump
      pure (splitProperty inside)
    else
      let c ← need
      if c == '\\' then fail
      bumpSkip
      pure (String.singleton c, none, false)
  let mode ← mode
  if !mode.wide then fail
  let cls? := match value with
    | some value => valueClass? name value
    | none => propertyClass? name
  match cls? with
  | some cls => mode.finish (negated != excluded) cls
  | none => fail

/-- What a backslash and the characters behind it stand for. -/
inductive Escaped where
  | literal (c : Char)
  | cls (cls : CharClass) (room : Nat)
  | look (piece : Piece)

/-- Punctuation that has a meaning in patterns. -/
def isMeta (c : Char) : Bool :=
  "\\.+*?()|[]\x7b\x7d^$#&-~".toList.contains c

/-- Whether a backslash may stand before a character without giving it a meaning. -/
def isPlainEscape (c : Char) : Bool :=
  isMeta c || (c.toNat < 128 && !c.isAlphanum && c != '<' && c != '>')

/-- A word boundary, of a special kind if braces with the name of one follow. -/
def boundary : Reader Piece := do
  let mode ← mode
  let plain := mode.wordLook fun before after => before != after
  if (← next?) == some '\x7b' then
    let here ← rest
    bumpSkip
    let isKindChar (c : Char) : Bool := c.isAlpha || c == '-'
    if !isKindChar (← need) then
      setRest here
      return plain
    let kind ← collectAll isKindChar
    if (← need) != '\x7d' then fail
    bump
    match String.ofList kind with
    | "start" => return mode.wordLook fun before after => !before && after
    | "end" => return mode.wordLook fun before after => before && !after
    | "start-half" => return mode.wordLook fun before _ => !before
    | "end-half" => return mode.wordLook fun _ after => !after
    | _ => fail
  else return plain

/-- Reads a backslash and what belongs to it. -/
def escape : Reader Escaped := do
  bump
  let c ← need
  let mode ← mode
  match c with
  | 'x' => return .literal (← hex 2)
  | 'u' => return .literal (← hex 4)
  | 'U' => return .literal (← hex 8)
  | 'p' => return .cls (← property false) 20000
  | 'P' => return .cls (← property true) 20000
  | _ =>
      bump
      match mode.letterClass? c, mode.letterClass? c.toLower with
      | some (cls, room), _ => return .cls cls room
      | none, some (cls, room) =>
          if mode.wide then return .cls (fun d => !cls d) room else fail
      | none, none =>
          if isPlainEscape c then return .literal c
          match c with
          | 'a' => return .literal '\x07'
          | 'f' => return .literal '\x0c'
          | 't' => return .literal '\t'
          | 'n' => return .literal '\n'
          | 'r' => return .literal '\r'
          | 'v' => return .literal '\x0b'
          | 'A' => return .look (.ofLook fun before _ => before.isNone)
          | 'z' => return .look (.ofLook fun _ after => after.isNone)
          | 'b' => return .look (← boundary)
          | 'B' => return .look (mode.wordLook fun before after => before == after)
          | '<' => return .look (mode.wordLook fun before after => !before && after)
          | '>' => return .look (mode.wordLook fun before after => before && !after)
          | _ => fail

/-- A class between square brackets while it is read. -/
structure Bracket where
  member : CharClass
  room : Nat
  /-- How many levels of structure it has. -/
  depth : Nat

/-- The class without members. -/
def Bracket.nothing : Bracket :=
  ⟨fun _ => false, 32, 0⟩

/-- Adds characters to a class. -/
def Bracket.insert (b : Bracket) (cls : CharClass) (room : Nat) : Bracket :=
  { b with member := fun c => b.member c || cls c, room := b.room + room }

/-- A set operation between two classes. -/
inductive SetOp where
  | inter
  | diff
  | symm

/-- The class that an operation makes of two classes. -/
def SetOp.combine (op : SetOp) (a b : CharClass) : CharClass := fun c =>
  match op with
  | inter => a c && b c
  | diff => a c && !b c
  | symm => a c != b c

/-- Applies the operation that waits for its right side. -/
def close (left : Option (Bracket × SetOp)) (right : Bracket) : Reader Bracket := do
  match left with
  | none => return right
  | some (left, op) =>
      let mode ← mode
      let a ← mode.finish false left.member
      let b ← mode.finish false right.member
      return ⟨op.combine a b, left.room + right.room, max left.depth right.depth + 1⟩

/-- A character or class inside brackets. -/
def item : Reader Escaped := do
  let c ← need
  if c == '\\' then escape
  else
    bump
    return .literal c

/-- The character of an item that is one. -/
def itemChar (found : Escaped) : Reader Char := do
  match found with
  | .literal c => if c.toNat < 128 || (← mode).wide then return c else fail
  | _ => fail

/-- The character behind the next one, past what may be skipped. -/
def second? : Reader (Option Char) := do
  let behind := (← rest).drop 1
  if (← mode).verbose then return (dropFiller (behind.length + 1) behind).head?
  else return behind.head?

/-- Adds an item or a range of characters to a class. -/
def range (b : Bracket) : Reader Bracket := do
  let first ← item
  skip
  let c ← need
  let behind ← second?
  if c != '-' || behind == some ']' || behind == some '-' then
    match first with
    | .cls cls room => return b.insert cls room
    | .look _ => fail
    | .literal _ =>
        let x ← itemChar first
        return b.insert (· == x) 8
  else
    bumpSkip
    let _ ← need
    let last ← item
    let low ← itemChar first
    let high ← itemChar last
    if high < low then fail
    return b.insert (fun c => low ≤ c && c ≤ high) (if high.toNat < 128 then 8 else 200)

/-- A named class of ASCII between `[:` and `:]`, when that is what comes next. -/
def asciiItem? : Reader (Option CharClass) := do
  match ← rest with
  | '[' :: ':' :: text =>
      let (negated, text) := match text with
        | '^' :: text => (true, text)
        | _ => (false, text)
      let name := text.takeWhile (· != ':')
      match text.dropWhile (· != ':'), asciiClass? (String.ofList name) with
      | ':' :: ']' :: text, some cls =>
          let cls ← (← mode).finish negated cls
          setRest text
          return some cls
      | _, _ => return none
  | _ => return none

/-- Literal hyphens at the start of a class; `steps` bounds their number. -/
def hyphens : Nat → Bracket → Reader Bracket
  | 0, b => return b
  | steps + 1, b => do
      if (← need) == '-' then
        bumpSkip
        hyphens steps (b.insert (· == '-') 8)
      else return b

mutual

/-- A class between brackets, from its opening bracket on. -/
def bracket : Nat → Reader Bracket
  | 0 => fail
  | steps + 1 => do
      bumpSkip
      let negated := (← need) == '^'
      if negated then bumpSkip
      let b ← hyphens (← rest).length Bracket.nothing
      let b ← if (← need) == ']' && b.room == Bracket.nothing.room then
          bumpSkip
          let _ ← need
          pure (b.insert (· == ']') 8)
        else pure b
      let inside ← members steps none b
      let cls ← (← mode).finish negated inside.member
      return ⟨cls, inside.room, inside.depth + 1⟩

/-- The members of a class up to its closing bracket; the set operation on the left waits for
them. -/
def members : Nat → Option (Bracket × SetOp) → Bracket → Reader Bracket
  | 0, _, _ => fail
  | steps + 1, left, b => do
      skip
      match ← rest with
      | [] => fail
      | '[' :: _ =>
          match ← asciiItem? with
          | some cls => members steps left (b.insert cls 48)
          | none =>
              let inner ← bracket steps
              members steps left
                { b.insert inner.member inner.room with depth := max b.depth inner.depth }
      | ']' :: _ => do
          bump
          close left b
      | '&' :: '&' :: _ => do
          bump; bump
          members steps (some (← close left b, .inter)) .nothing
      | '-' :: '-' :: _ => do
          bump; bump
          members steps (some (← close left b, .diff)) .nothing
      | '~' :: '~' :: _ => do
          bump; bump
          members steps (some (← close left b, .symm)) .nothing
      | _ => do members steps left (← range b)

end

/-- The modes that are switched on and off up to the end of the list; each may occur once. -/
def modeList : Nat → Bool → List Char → Bool → Mode → Reader Mode
  | 0, _, _, _, _ => fail
  | steps + 1, value, seen, dangling, mode => do
      let c ← need
      if c == ':' || c == ')' then
        if dangling then fail else return mode
      if seen.contains c then fail
      bump
      let seen := c :: seen
      match c with
      | '-' => modeList steps false seen true mode
      | 'i' => modeList steps value seen false { mode with ignoresCase := value }
      | 'm' => modeList steps value seen false { mode with multiLine := value }
      | 's' => modeList steps value seen false { mode with dotAll := value }
      | 'U' => modeList steps value seen false { mode with swapsGreed := value }
      | 'u' => modeList steps value seen false { mode with wide := value }
      | 'R' => modeList steps value seen false { mode with crlf := value }
      | 'x' => modeList steps value seen false { mode with verbose := value }
      | _ => fail

/-- Whether a character may stand in the name of a group. -/
def isNameChar (first : Bool) (c : Char) : Bool :=
  let category := Category.ofChar c
  c == '_' || category.isLetter || category == .nl
    || (!first && (c == '.' || c == '[' || c == ']' || category == .nd || category == .no))

/-- The name of a group up to its closing angle bracket. -/
def groupName : Reader Unit := do
  let text ← rest
  let name := text.takeWhile (· != '>')
  if name.length == text.length || name.isEmpty then fail
  if !((name.take 1).all (isNameChar true) && name.all (isNameChar false)) then fail
  let name := String.ofList name
  let names := (← get).names
  if names.contains name then fail
  modify fun s => { s with rest := text.drop (name.length + 1), names := name :: names }

/-- The bounds of a repetition between braces, from the opening brace on. -/
def bounds : Reader (Nat × Option Nat) := do
  bumpSkip
  let _ ← need
  let least ← decimal?
  if (← need) == ',' then
    bumpSkip
    if (← need) == '\x7d' then
      match least with
      | some least => return (least, none)
      | none => fail
    else
      match least with
      | none => fail
      | some least =>
          match ← decimal? with
          | none => fail
          | some most => if most < least then fail else return (least, some most)
  else
    match least with
    | some n => return (n, some n)
    | none => fail

/-- Repeats the last part of a row; there has to be one, and it may not be a mode change. -/
def repeatLast (row : List (Option Piece)) (least : Nat) (most : Option Nat) (lazy : Bool) :
    Reader (List (Option Piece)) := do
  match row with
  | some body :: before =>
      return some (body.repeated (lazy == (← mode).swapsGreed) least most) :: before
  | _ => fail

/-- Goes past the question mark that makes a repetition lazy. -/
def lazyMark : Reader Bool :=
  accept "?"

/-- A part made of the items of a row, which stand last one first; mode changes count as parts. -/
def rowPiece (row : List (Option Piece)) : Piece :=
  Piece.inRow (row.reverse.map fun item => item.getD Piece.nothing)

mutual

/-- A choice of rows, up to a closing parenthesis or the end. -/
def alternatives : Nat → List Piece → Reader Piece
  | 0, _ => fail
  | steps + 1, before => do
      let branch ← row steps []
      if ← accept "|" then alternatives steps (branch :: before)
      else return Piece.inChoice (branch :: before).reverse

/-- A row of parts, which are collected last one first. -/
def row : Nat → List (Option Piece) → Reader Piece
  | 0, _ => fail
  | steps + 1, found => do
      skip
      match ← next? with
      | none => return rowPiece found
      | some '|' => return rowPiece found
      | some ')' => return rowPiece found
      | some '(' => do row steps ((← group steps) :: found)
      | some '[' => do
          let b ← bracket steps
          row steps (some { Piece.ofClass b.member b.room with depth := b.depth } :: found)
      | some '?' => do
          bump
          row steps (← repeatLast found 0 (some 1) (← lazyMark))
      | some '*' => do
          bump
          row steps (← repeatLast found 0 none (← lazyMark))
      | some '+' => do
          bump
          row steps (← repeatLast found 1 none (← lazyMark))
      | some '\x7b' => do
          match found with
          | some _ :: _ =>
              let (least, most) ← bounds
              if (← need) != '\x7d' then fail
              bumpSkip
              row steps (← repeatLast found least most (← lazyMark))
          | _ => fail
      | some '\\' => do
          match ← escape with
          | .literal c => row steps (some ((← mode).literal c) :: found)
          | .cls cls room => row steps (some (.ofClass cls room) :: found)
          | .look piece => row steps (some piece :: found)
      | some '.' => do
          bump
          row steps (some (← (← mode).dot) :: found)
      | some '^' => do
          bump
          row steps (some (← mode).startAnchor :: found)
      | some '$' => do
          bump
          row steps (some (← mode).endAnchor :: found)
      | some c => do
          bump
          row steps (some ((← mode).literal c) :: found)

/-- A group from its opening parenthesis on, or a change of modes for what follows. -/
def group : Nat → Reader (Option Piece)
  | 0 => fail
  | steps + 1 => do
      bumpSkip
      let outer ← mode
      if (← accept "?=") || (← accept "?!") || (← accept "?<=") || (← accept "?<!") then fail
      if ← accept "?P<" then
        groupName
        groupBody steps outer
      else if ← accept "?<" then
        groupName
        groupBody steps outer
      else if ← accept "?" then
        let start ← rest
        let inner ← modeList (start.length + 1) true [] false outer
        if ← accept ")" then
          if start.head? == some ')' then fail
          setMode inner
          return none
        else
          bump
          setMode inner
          groupBody steps outer
      else groupBody steps outer

/-- The inside of a group and its closing parenthesis. -/
def groupBody : Nat → Mode → Reader (Option Piece)
  | 0, _ => fail
  | steps + 1, outer => do
      let inside ← alternatives steps []
      if !(← accept ")") then fail
      setMode outer
      return some { inside with depth := inside.depth + 1, room := inside.room + 64 }

end

end Reader

/-- Reads a whole text as a pattern. -/
def parse (text : String) : Except Fault Pattern := do
  let chars := text.toList
  let (piece, left) ←
    (Reader.alternatives (4 * chars.length + 4) []).run ⟨chars, .initial, []⟩
  if !left.rest.isEmpty || nestLimit < piece.depth then .error .malformed
  else if sizeLimit < piece.room then .error .tooLarge
  else .ok piece.pattern

end Vetting.Pattern
