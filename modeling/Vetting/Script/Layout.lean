import Vetting.Grammar.Parser

/-! Tokens that depend on the layout of a script: ends of lines, changes of indentation and the parts
of string literals. They depend on what is open at a place: the indentations of the enclosing
blocks and the delimiters of the enclosing strings. -/

namespace Vetting.Script

open Vetting.Grammar

/-- How a string literal was opened. -/
structure Delimiter where
  quote : Char
  format : Bool
  raw : Bool
  bytes : Bool
  triple : Bool
  deriving DecidableEq, Repr, Inhabited

/-- What is open: whether the innermost string may hold expressions, the strings and the
indentations, innermost ones first. -/
structure Layout where
  inFormat : Bool
  delimiters : List Delimiter
  indents : List Nat
  deriving DecidableEq, Repr, Inhabited

/-- A tabulator counts as this many spaces. -/
def tabWidth : Nat := 8

namespace Layout

/-- Nothing is open at the beginning. -/
def initial : Layout := ⟨false, [], [0]⟩

/-- A layout token: its name, where it starts and stops, and what is open after it. -/
structure Found where
  name : String
  start : Nat
  stop : Nat
  after : Layout

/-- The character at a position. -/
def charAt (src : Source) (pos : Nat) : Option Char := src.chars[pos]?

/-- The position after an escape in a raw string: a quote, a backslash or a line end belongs to
it. -/
def skipRawEscape (src : Source) (quote : Char) (pos : Nat) : Nat :=
  let pos :=
    match charAt src pos with
    | some c => if c == quote || c == '\\' then pos + 1 else pos
    | none => pos
  match charAt src pos with
  | some '\r' => if charAt src (pos + 1) == some '\n' then pos + 2 else pos + 1
  | some '\n' => pos + 1
  | _ => pos

/-- The result of reading on inside a string. -/
inductive Inside where
  | found (token : Found)
  | nothing
  /-- The text ended, or a character that no token holds was met, at a position. -/
  | ran (pos : Nat)

/-- Reads the content of the innermost string, or its end, from a position on. A backslash that
escapes something and a brace that opens an expression end the content; `begun` is where the token
starts. -/
def inString (src : Source) (st : Layout) (d : Delimiter) (begun : Nat) :
    Nat → Nat → Bool → Inside
  | 0, pos, _ => .ran pos
  | steps + 1, pos, hasContent =>
      let content (stop : Nat) : Inside := .found ⟨"_string_content", begun, stop, st⟩
      let contentIfAny (stop : Nat) : Inside := if hasContent then content stop else .nothing
      let closed (stop : Nat) : Inside :=
        .found ⟨"string_end", begun, stop,
          { st with inFormat := false, delimiters := st.delimiters.drop 1 }⟩
      match charAt src pos with
      | none => .ran pos
      | some c =>
          if c.toNat == 0 then .ran pos
          else if (c == '\x7b' || c == '\x7d') && d.format then contentIfAny pos
          else if c == '\\' then
            if d.raw then
              inString src st d begun steps (skipRawEscape src d.quote (pos + 1)) hasContent
            else if d.bytes then
              match charAt src (pos + 1) with
              | some e =>
                  if e == 'N' || e == 'u' || e == 'U' then
                    inString src st d begun steps (pos + 3) true
                  else contentIfAny pos
              | none => contentIfAny pos
            else contentIfAny pos
          else if c == d.quote then
            if d.triple then
              if charAt src (pos + 1) == some c && charAt src (pos + 2) == some c then
                if hasContent then content pos else closed (pos + 3)
              else content (pos + (if charAt src (pos + 1) == some c then 2 else 1))
            else if hasContent then content pos
            else closed (pos + 1)
          else if c == '\n' && hasContent && !d.triple then .nothing
          else inString src st d begun steps (pos + 1) true

/-- What lies between two tokens: where the next character is, whether a line ended, the
indentation of the last line, and that of the first comment on a line of its own. -/
structure Gap where
  pos : Nat
  lineEnded : Bool
  indent : Nat
  comment : Option Nat

/-- The position after the rest of a line. -/
def skipLine (src : Source) : Nat → Nat → Nat
  | 0, pos => pos
  | steps + 1, pos =>
      match charAt src pos with
      | some c => if c == '\n' || c.toNat == 0 then pos else skipLine src steps (pos + 1)
      | none => pos

/-- Skips blanks, joined lines and, where `comments` is set, comments. None when something stands in
the way: a comment behind other text or a backslash that joins nothing. -/
def gap? (src : Source) (comments : Bool) : Nat → Gap → Option Gap
  | 0, g => some g
  | steps + 1, g =>
      match charAt src g.pos with
      | none => some { g with indent := 0, lineEnded := true }
      | some c =>
          if c == '\n' then
            gap? src comments steps { g with pos := g.pos + 1, lineEnded := true, indent := 0 }
          else if c == ' ' then
            gap? src comments steps { g with pos := g.pos + 1, indent := g.indent + 1 }
          else if c == '\r' || c == '\x0c' then
            gap? src comments steps { g with pos := g.pos + 1, indent := 0 }
          else if c == '\t' then
            gap? src comments steps { g with pos := g.pos + 1, indent := g.indent + tabWidth }
          else if c == '#' && comments then
            if !g.lineEnded then none
            else
              let stop := skipLine src src.size g.pos
              gap? src comments steps
                { g with
                  pos := min (stop + 1) src.size
                  indent := 0
                  comment := g.comment.or (some g.indent) }
          else if c == '\\' then
            let pos := if charAt src (g.pos + 1) == some '\r' then g.pos + 2 else g.pos + 1
            match charAt src pos with
            | none => gap? src comments steps { g with pos := min pos src.size }
            | some '\n' => gap? src comments steps { g with pos := pos + 1 }
            | some _ => none
          else some g

/-- The opening of a string literal at a position: its letters and its quotes. -/
def stringStart? (src : Source) (st : Layout) (start : Nat) : Nat → Nat → Delimiter → Option Found
  | 0, _, _ => none
  | steps + 1, pos, d =>
      match charAt src pos with
      | none => none
      | some c =>
          if c == 'f' || c == 'F' then
            stringStart? src st start steps (pos + 1) { d with format := true }
          else if c == 'r' || c == 'R' then
            stringStart? src st start steps (pos + 1) { d with raw := true }
          else if c == 'b' || c == 'B' then
            stringStart? src st start steps (pos + 1) { d with bytes := true }
          else if c == 'u' || c == 'U' then stringStart? src st start steps (pos + 1) d
          else if c == '`' || c == '\'' || c == '"' then
            let triple :=
              c != '`' && charAt src (pos + 1) == some c && charAt src (pos + 2) == some c
            let d := { d with quote := c, triple }
            some ⟨"string_start", start, if triple then pos + 3 else pos + 1,
              { st with inFormat := d.format, delimiters := d :: st.delimiters }⟩
          else none

/-- A doubled brace in a string that may hold expressions stands for one brace. -/
def doubledBrace? (src : Source) (st : Layout) (pos : Nat) : Option Found :=
  match charAt src pos with
  | some c =>
      if charAt src (pos + 1) == some c then
        some ⟨"escape_interpolation", pos, pos + 2, st⟩
      else none
  | none => none

/-- Looks for a layout token between two places of other tokens. -/
def between? (src : Source) (st : Layout) (welcome : String → Bool) (repairing : Bool)
    (pos : Nat) : Option Found := do
  let comments := welcome "_indent" || welcome "_dedent" || welcome "_newline" || welcome "except"
  let g ← gap? src comments (src.size + 2) ⟨pos, false, 0, none⟩
  let next := charAt src g.pos
  let opensString := next == some '"' || next == some '\'' || next == some '`'
  let inBrackets := welcome "\x7d" || welcome ")" || welcome "]"
  let current := st.indents.head?.getD 0
  let commentInside := match g.comment with
    | some indent => decide (current ≤ indent)
    | none => false
  if g.lineEnded && !st.indents.isEmpty && welcome "_indent" && decide (current < g.indent) then
    some ⟨"_indent", pos, pos, { st with indents := g.indent :: st.indents }⟩
  else if g.lineEnded && !st.indents.isEmpty
      && (welcome "_dedent"
        || (!welcome "_newline" && !(welcome "string_start" && opensString) && !inBrackets))
      && decide (g.indent < current) && !st.inFormat && !commentInside then
    some ⟨"_dedent", pos, pos, { st with indents := st.indents.drop 1 }⟩
  else if g.lineEnded && welcome "_newline" && !repairing then
    some ⟨"_newline", pos, pos, st⟩
  else if g.comment.isNone && welcome "string_start" then
    stringStart? src st g.pos (src.size + 1) g.pos ⟨' ', false, false, false, false⟩
  else none

/-- Looks for a layout token at a position. Inside a string, its content comes first; during a
repair all tokens are welcome and strings are left alone. -/
def scan? (src : Source) (st : Layout) (welcome : String → Bool) (pos : Nat) : Option Found :=
  let repairing := welcome "_string_content" && welcome "_indent"
  let atBrace := match charAt src pos with
    | some c => c == '\x7b' || c == '\x7d'
    | none => false
  match st.delimiters with
  | d :: _ =>
      if welcome "escape_interpolation" && atBrace && !repairing && d.format then
        doubledBrace? src st pos
      else if welcome "_string_content" && !repairing then
        match inString src st d pos (src.size + 1) pos false with
        | .found token => some token
        | .nothing => none
        | .ran stop => between? src st welcome repairing stop
      else between? src st welcome repairing pos
  | [] => between? src st welcome repairing pos

end Layout

end Vetting.Script
