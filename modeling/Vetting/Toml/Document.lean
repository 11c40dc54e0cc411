import Vetting.Toml.Number
import Vetting.Toml.Table

/-! Documents of settings: keys with values, in tables with headers. The result is the document of
the whole as an object. A record in it is a table, or an array of its fields in their order, from
which the last ones may be missing; what stands behind all of them is passed over. -/

namespace Vetting.Toml

/-- The number of keys and values that may lie within each other. -/
def depthLimit : Nat := 80

/-- A key without dots. -/
def simpleKey? (s : List Char) : Option (String × List Char) :=
  let isBare (c : Char) := c.isAlphanum || c == '-' || c == '_'
  match s.takeWhile isBare with
  | [] => (quoted? s).map fun (text, rest) => (String.ofList text, rest)
  | name => some (String.ofList name, s.dropWhile isBare)

/-- The parts of a key with dots: those before the last one, and the last one. -/
def key? (s : List Char) : Option ((List String × String) × List Char) := do
  let (parts, rest) ← more s.length s []
  if depthLimit ≤ parts.length then none
  match parts with
  | [] => none
  | last :: before => return ((before.reverse, last), rest)
where
  /-- Adds parts to those before, the last one of which is given first. -/
  more : Nat → List Char → List String → Option (List String × List Char)
    | 0, _, _ => none
    | count + 1, s, parts => do
        let (part, rest) ← simpleKey? (skipGap s)
        match skipGap rest with
        | '.' :: after => more count after (part :: parts)
        | rest => return (part :: parts, rest)

/-- The values of an array, given how a value is read. -/
def arrayItems (value? : List Char → Option (Json × List Char)) :
    Nat → List Char → Option (List Json × List Char)
  | 0, _ => none
  | count + 1, s =>
      match skipLines s with
      | ']' :: rest => some ([], rest)
      | s => do
          let (item, rest) ← value? s
          match skipLines rest with
          | ',' :: rest =>
              let (items, rest) ← arrayItems value? count rest
              return (item :: items, rest)
          | ']' :: rest => return ([item], rest)
          | _ => none

/-- The keys and values of a table on one line, given how a value is read. -/
def inlineItems (value? : List Char → Option (Json × List Char)) :
    Nat → Items → List Char → Option (Items × List Char)
  | 0, _, _ => none
  | count + 1, items, s => do
      let ((path, key), rest) ← key? s
      let '=' :: rest := rest | none
      let (value, rest) ← value? (skipGap rest)
      let items ← Items.assign path key value .header items
      match skipGap rest with
      | ',' :: rest => inlineItems value? count items rest
      | '}' :: rest => return (items, rest)
      | _ => none

/-- The table on one line behind its opening brace. -/
def inlineTable? (value? : List Char → Option (Json × List Char)) (s : List Char) :
    Option (Json × List Char) :=
  match skipGap s with
  | '}' :: rest => some (.obj [], rest)
  | s => (inlineItems value? s.length [] s).map fun (items, rest) => (.obj (itemsToJson items), rest)

/-- A word that is a value. -/
def word? (s : List Char) : Option (Json × List Char) :=
  let words : List (String × Json) := [("true", .bool true), ("false", .bool false),
    ("inf", .real (1.0 / 0.0)), ("nan", .real (0.0 / 0.0))]
  words.findSome? fun (word, value) =>
    if word.toList.isPrefixOf s then some (value, s.drop word.length) else none

/-- A value that has at most so many others around it. -/
def value? : Nat → List Char → Option (Json × List Char)
  | depth, s =>
      match s with
      | '"' :: _ => (text? s).map fun (text, rest) => (.str (String.ofList text), rest)
      | '\'' :: _ => (text? s).map fun (text, rest) => (.str (String.ofList text), rest)
      | '[' :: rest =>
          match depth with
          | 0 => none
          | depth + 1 =>
              (arrayItems (value? depth) s.length rest).map fun (items, rest) => (.arr items, rest)
      | '{' :: rest =>
          match depth with
          | 0 => none
          | depth + 1 => inlineTable? (value? depth) rest
      | c :: _ => if c.isDigit || c == '+' || c == '-' then number? s else word? s
      | [] => none

/-- The header of a table: its parts, and whether more tables may have it. -/
def header? : List Char → Option ((Bool × List String × String) × List Char)
  | '[' :: '[' :: rest => do
      let ((path, key), rest) ← key? rest
      let ']' :: ']' :: rest := rest | none
      return ((true, path, key), ← lineEnd? rest)
  | '[' :: rest => do
      let ((path, key), rest) ← key? rest
      let ']' :: rest := rest | none
      return ((false, path, key), ← lineEnd? rest)
  | _ => none

/-- The lines of a document, with what has been read and the table to which keys belong. -/
def lines? : Nat → Items → List String → List Char → Option Items
  | 0, _, _, _ => none
  | count + 1, root, current, s =>
      match skipGap s with
      | [] => some root
      | '[' :: rest => do
          let ((several, path, key), rest) ← header? ('[' :: rest)
          let root ← if several then root.openNext path key else root.openTable path key
          lines? count root (path ++ [key]) rest
      | s =>
          match newline? (skipComment s) with
          | some rest => lines? count root current rest
          | none =>
              if (skipComment s).isEmpty then some root
              else do
                let ((path, key), rest) ← key? s
                let '=' :: rest := rest | none
                let (value, rest) ← value? (depthLimit - 1) (skipGap rest)
                let rest ← lineEnd? rest
                let root ← Items.change .above (Items.assign path key value) .header current root
                lines? count root current rest

/-- Reads a document. -/
def parse? (text : List Char) : Option Json :=
  let text := match text with
    | '\uFEFF' :: rest => rest
    | text => text
  (lines? (text.length + 1) [] [] text).map fun items => .obj (itemsToJson items)

/-- The values of the known fields of a record, in their order. -/
def record? (names : List String) : Json → Option (List (Option Json))
  | .obj fields => names.mapM (Json.fieldOnce? fields)
  | .arr items => some ((List.range names.length).map fun place => items[place]?)
  | _ => none

end Vetting.Toml
