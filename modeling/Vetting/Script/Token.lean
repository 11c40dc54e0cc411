import Vetting.Script.Grammar
import Vetting.Script.Layout
import Vetting.Text.Letters

/-! Tokens of a script. At each place the longest token that is welcome there is taken; where none is,
any token at all, and where there is no token, the text up to the next one is no token. A word is a
keyword where that keyword is welcome and an identifier otherwise. -/

namespace Vetting.Script

open Vetting.Grammar

namespace Token

/-- The blanks between tokens. -/
def isGap (c : Char) : Bool :=
  c == ' ' || c == '\t' || c == '\n' || c == '\r' || c == '\x0c' || c.toNat == 0x200B
    || c.toNat == 0x2060 || c.toNat == 0xFEFF

/-- The operators and brackets, by their spelling. -/
def operators : List String :=
  ["...", "**=", "//=", ">>=", "<<=", "except*", ":=", "->", "**", "//", "<<", ">>", "<=", "==",
   "!=", ">=", "<>", "+=", "-=", "*=", "/=", "@=", "%=", "&=", "^=", "|=", ";", ".", "(", ")",
   ",", "*", ":", "=", "[", "]", "@", "-", "|", "\x7b", "\x7d", "+", "/", "%", "&", "^", "~",
   "<", ">"]

/-- The name of the token that is spelled like this. -/
def nameOf (spelling : String) : String :=
  if spelling == "..." then "ellipsis"
  else if spelling == "True" then "true"
  else if spelling == "False" then "false"
  else if spelling == "None" then "none"
  else spelling

/-- The words that are keywords somewhere. -/
def keywords : List String :=
  ["import", "from", "__future__", "as", "print", "assert", "return", "del", "raise", "pass",
   "break", "continue", "if", "elif", "else", "match", "case", "async", "for", "in", "while",
   "try", "except", "finally", "with", "def", "global", "nonlocal", "exec", "type", "class",
   "True", "False", "None", "_", "not", "and", "or", "is", "lambda", "yield", "await"]

/-- A token with its name and its place. -/
structure Found where
  name : String
  start : Nat
  stop : Nat

/-- Groups of digits, each with an underscore before it or not; gives the text after them, none when
there is no digit. -/
def underscoredDigits? (isDigit : Char → Bool) (s : List Char) : Option (List Char) :=
  go s.length s false
where
  /-- Reads on; the truth value says whether a digit has been read. -/
  go : Nat → List Char → Bool → Option (List Char)
    | 0, s, seen => if seen then some s else none
    | steps + 1, s, seen =>
        match s with
        | c :: rest =>
            if isDigit c then go steps rest true
            else if c == '_' && ((rest.head?.map isDigit).getD false) then go steps rest seen
            else if seen then some s else none
        | [] => if seen then some [] else none

/-- Decimal digits, each with an underscore after it or not, at least one digit first. -/
def decimalDigits? (s : List Char) : Option (List Char) :=
  match s with
  | c :: _ =>
      if c.isDigit then
        let rest := s.dropWhile fun c => c.isDigit
        some (skip rest.length rest)
      else none
  | [] => none
where
  /-- Skips an underscore and the digits after it, as often as possible. -/
  skip : Nat → List Char → List Char
    | 0, s => s
    | steps + 1, s =>
        match s with
        | '_' :: rest =>
            match rest with
            | c :: _ =>
                if c.isDigit then skip steps (rest.dropWhile fun c => c.isDigit) else rest
            | [] => rest
        | _ => s

/-- Drops one of some characters. -/
def dropOne (cs : List Char) (s : List Char) : List Char :=
  match s with
  | c :: rest => if cs.contains c then rest else s
  | [] => []

/-- The text after a whole number. -/
def integer? (s : List Char) : Option (List Char) :=
  let based (isDigit : Char → Bool) (rest : List Char) : Option (List Char) :=
    (underscoredDigits? isDigit rest).map (dropOne ['l', 'L'])
  let plain := (decimalDigits? s).map (dropOne ['l', 'L', 'j', 'J'])
  let isHex (c : Char) : Bool := c.isDigit || ('a' ≤ c && c ≤ 'f') || ('A' ≤ c && c ≤ 'F')
  let other :=
    match s with
    | '0' :: 'x' :: rest | '0' :: 'X' :: rest => based isHex rest
    | '0' :: 'o' :: rest | '0' :: 'O' :: rest => based (fun c => '0' ≤ c && c ≤ '7') rest
    | '0' :: 'b' :: rest | '0' :: 'B' :: rest => based (fun c => c == '0' || c == '1') rest
    | _ => none
  other.or plain

/-- The text after an exponent. -/
def exponent? (s : List Char) : Option (List Char) :=
  match s with
  | 'e' :: rest | 'E' :: rest => decimalDigits? (dropOne ['+', '-'] rest)
  | _ => none

/-- The text after a number with a point or an exponent. -/
def float? (s : List Char) : Option (List Char) :=
  let withExponent (rest : List Char) : List Char := (exponent? rest).getD rest
  let found :=
    match decimalDigits? s with
    | some rest =>
        match rest with
        | '.' :: rest => some (withExponent ((decimalDigits? rest).getD rest))
        | _ => exponent? rest
    | none =>
        match s with
        | '.' :: rest => (decimalDigits? rest).map withExponent
        | _ => none
  found.map (dropOne ['l', 'L', 'j', 'J'])

/-- The number of characters of an escape in a string. -/
def escapeLength? (s : List Char) : Option Nat :=
  let isHex (c : Char) : Bool := c.isDigit || ('a' ≤ c && c ≤ 'f') || ('A' ≤ c && c ≤ 'F')
  let digits (n : Nat) (rest : List Char) : Option Nat :=
    if n ≤ rest.length && (rest.take n).all isHex then some (n + 2) else none
  match s with
  | '\\' :: 'u' :: rest => digits 4 rest
  | '\\' :: 'U' :: rest => digits 8 rest
  | '\\' :: 'x' :: rest => digits 2 rest
  | '\\' :: '\r' :: '\n' :: _ => some 3
  | '\\' :: 'N' :: '\x7b' :: rest =>
      let name := rest.takeWhile (· != '\x7d')
      if name.isEmpty || name.length == rest.length then none else some (name.length + 4)
  | '\\' :: a :: rest =>
      if a.isDigit then
        if 2 ≤ rest.length && (rest.take 2).all Char.isDigit then some 4 else none
      else if ['\n', '\'', '"', 'a', 'b', 'f', 'r', 'n', 't', 'v', '\\'].contains a then some 2
      else none
  | _ => none

/-- The longer of two tokens, the first one of equally long ones. -/
def longer (a : Option Found) (b : Option Found) : Option Found :=
  match a, b with
  | some x, some y => if x.stop < y.stop then b else a
  | none, _ => b
  | _, none => a

/-- The tokens that continue the string that a place lies in. -/
def inString? (src : Source) (welcome : String → Bool) (pos : Nat) : Option Found :=
  let s := src.rest pos
  if s.head? == some '\\' then
    match (if welcome "escape_sequence" then escapeLength? s else none) with
    | some n => some ⟨"escape_sequence", pos, pos + n⟩
    | none =>
        if welcome "_not_escape_sequence" then some ⟨"_not_escape_sequence", pos, pos + 1⟩ else none
  else if welcome "_format_text" then
    let length := (s.takeWhile fun c =>
      c != '\x7b' && c != '\x7d' && c != '\n').length
    if length = 0 then none else some ⟨"_format_text", pos, pos + length⟩
  else none

/-- The position of the next character that is no blank. -/
def skipGap (src : Source) : Nat → Nat → Nat
  | 0, pos => pos
  | steps + 1, pos =>
      match src.chars[pos]? with
      | some c => if isGap c then skipGap src steps (pos + 1) else pos
      | none => pos

/-- The longest welcome token after the blanks at a position. -/
def plain? (src : Source) (welcome : String → Bool) (pos : Nat) : Option Found :=
  let start := skipGap src src.size pos
  let s := src.rest start
  match s with
  | [] => some ⟨endToken, src.size, src.size⟩
  | '#' :: _ => some ⟨"comment", start, start + (s.takeWhile (· != '\n')).length⟩
  | '\\' :: rest =>
      match rest with
      | '\n' :: _ => some ⟨"line_continuation", start, start + 2⟩
      | '\r' :: '\n' :: _ => some ⟨"line_continuation", start, start + 3⟩
      | [] => some ⟨"line_continuation", start, start + 1⟩
      | c :: _ => if c.toNat == 0 then some ⟨"line_continuation", start, start + 2⟩ else none
  | c :: rest =>
      let numeral := s.takeWhile fun c =>
        c.isAlphanum || c == '_' || c == '.' || c == '+' || c == '-'
      let number (name : String) (read : List Char → Option (List Char)) : Option Found :=
        if welcome name then
          (read numeral).map fun left => ⟨name, start, start + (numeral.length - left.length)⟩
        else none
      let word : Option Found :=
        if Text.isIdentifierStart c then
          some ⟨"identifier", start, start + 1 + (rest.takeWhile Text.isIdentifierPart).length⟩
        else none
      let conversion :=
        match s with
        | '!' :: k :: _ =>
            if welcome "type_conversion" && 'a' ≤ k && k ≤ 'z' then
              some ⟨"type_conversion", start, start + 2⟩
            else none
        | _ => none
      let longestOperator := operators.foldl
        (fun best o =>
          if o.toList.isPrefixOf s && welcome (nameOf o) then
            longer best (some ⟨nameOf o, start, start + o.length⟩)
          else best)
        none
      longer (longer (longer (longer (number "integer" integer?) (number "float" float?))
        longestOperator) word) conversion

/-- Whether a token that is not welcome starts with, or is the start of, one that is. -/
def clashes (welcome : String → Bool) (name : String) : Bool :=
  operators.any fun o =>
    nameOf o == name && operators.any fun other =>
      other != o && welcome (nameOf other)
        && (o.toList.isPrefixOf other.toList || other.toList.isPrefixOf o.toList)

/-- All tokens are welcome during a repair, except those that only continue a string. -/
def anyToken (name : String) : Bool :=
  name != "_format_text" && name != "escape_sequence" && name != "_not_escape_sequence"

end Token

/-- The scanner of scripts over a table of their grammar. -/
def scanner (table : Table) : Scanner Layout where
  initial := Layout.initial
  next src pos st welcome advanced :=
    let idOf (name : String) : Option Nat := table.spelled.tokenIds[name]?
    let isWelcome (name : String) : Bool :=
      match welcome with
      | none => Token.anyToken name
      | some allows => ((idOf name).map allows).getD false
    let layoutLexeme (t : Layout.Found) : Lexeme Layout :=
      ⟨idOf t.name, t.start, t.stop, some t.after, false⟩
    let plainLexeme (t : Token.Found) : Lexeme Layout :=
      if t.name == "identifier" then
        let text := String.ofList (src.slice t.start t.stop)
        if Token.keywords.contains text then
          let name := Token.nameOf text
          ⟨idOf (if welcome.isNone || isWelcome name then name else "identifier"), t.start, t.stop,
            none, true⟩
        else ⟨idOf "identifier", t.start, t.stop, none, false⟩
      else ⟨idOf t.name, t.start, t.stop, none, false⟩
    let layoutToken (repairing : Bool) (names : String → Bool) (pos : Nat) :
        Option Layout.Found :=
      (Layout.scan? src st names pos).filter fun t =>
        !(t.stop ≤ pos && (repairing || !advanced) && t.after == st)
    let first : Option (Lexeme Layout) :=
      match welcome with
      | none => none
      | some _ =>
          match layoutToken false isWelcome pos with
          | some t => some (layoutLexeme t)
          | none =>
              match (Token.inString? src isWelcome pos).or (Token.plain? src isWelcome pos) with
              | some t => some (plainLexeme t)
              | none =>
                  match Token.plain? src Token.anyToken pos with
                  | some t =>
                      if Token.clashes isWelcome t.name then none else some (plainLexeme t)
                  | none => none
    match first with
    | some lexeme => lexeme
    | none => search src layoutToken layoutLexeme plainLexeme pos
where
  /-- Looks for any token, and skips the text in front of it when there is some. -/
  search (src : Source) (layoutToken : Bool → (String → Bool) → Nat → Option Layout.Found)
      (layoutLexeme : Layout.Found → Lexeme Layout) (plainLexeme : Token.Found → Lexeme Layout)
      (pos : Nat) : Lexeme Layout :=
    let at? (pos : Nat) : Option (Lexeme Layout) :=
      match layoutToken true Token.anyToken pos with
      | some t => some (layoutLexeme t)
      | none => (Token.plain? src Token.anyToken pos).map plainLexeme
    match at? pos with
    | some lexeme => lexeme
    | none =>
        let start := Token.skipGap src src.size pos
        let stop := skip at? (src.size - start) (min (start + 1) src.size)
        ⟨none, start, stop, none, false⟩
  /-- The next position at which there is a token. -/
  skip (at? : Nat → Option (Lexeme Layout)) : Nat → Nat → Nat
    | 0, pos => pos
    | steps + 1, pos => if (at? pos).isSome then pos else skip at? steps (pos + 1)

/-- The parse table of scripts. -/
def table : Thunk Table :=
  Thunk.mk fun _ => Table.build grammar

end Vetting.Script
