import Vetting.Text.Search

/-! The words and operators of a small shell language. Quotes take the special meaning from the
characters between them; a dollar sign names a value unless it stands between single quotes. -/

namespace Vetting.Shell

/-- A part of a word: what it says, or the name of a value. -/
inductive Piece where
  | text (c : Char)
  | value (name : List Char)
  deriving DecidableEq, Repr

/-- A word. -/
abbrev Word := List Piece

/-- How an instruction depends on the one before it. -/
inductive Condition where
  | always
  | afterSuccess
  | afterFailure
  deriving DecidableEq, Repr

/-- A word, or what stands between words. -/
inductive Token where
  | word (pieces : Word)
  /-- The next instruction starts. -/
  | next (condition : Condition)
  | lineEnd
  /-- What goes to one stream goes to another one. -/
  | joinStreams (source target : Char)
  /-- What goes to a stream goes to the file that the next word names. -/
  | toFile (source : Char)
  /-- An operator that is not understood. -/
  | other (c : Char)
  deriving DecidableEq, Repr

/-- The name of a value at the start of a text, and the text behind it. -/
def nameAt (text : List Char) : List Char × List Char :=
  match text with
  | [] => ([], [])
  | c :: rest =>
      if c == '$' || c == '?' || c == '#' || c == '@' || c == '*' || c.isDigit then ([c], rest)
      else text.span fun c => c.isAlphanum || c == '_'

/-- Takes a dollar sign that stands before a text. -/
def dollar (rest : List Char) : Piece × List Char :=
  match rest with
  | '\x7b' :: inner =>
      let (name, behind) := inner.span (· != '\x7d')
      (.value name, behind.drop 1)
  | rest =>
      let (name, behind) := nameAt rest
      if name.isEmpty then (.text '$', rest) else (.value name, behind)

/-- Reads up to the closing double quote. -/
def readDouble : Nat → List Char → Word → Word × List Char
  | 0, rest, word => (word, rest)
  | _ + 1, [], word => (word, [])
  | fuel + 1, c :: rest, word =>
      if c == '"' then (word, rest)
      else if c == '$' then
        let (piece, behind) := dollar rest
        readDouble fuel behind (word ++ [piece])
      else if c == '\\' then
        match rest with
        | d :: behind =>
            if d == '\n' then readDouble fuel behind word
            else if d == '"' || d == '\\' || d == '$' || d == '\u0060' then
              readDouble fuel behind (word ++ [.text d])
            else readDouble fuel rest (word ++ [.text c])
        | [] => (word ++ [.text c], [])
      else readDouble fuel rest (word ++ [.text c])

/-- The characters that end a word. -/
def endsWord (c : Char) : Bool :=
  c == ' ' || c == '\t' || c == '\n' || c == ';' || c == '&' || c == '|' || c == '<' || c == '>'
    || c == '(' || c == ')'

/-- Reads a word. -/
def readWord : Nat → List Char → Word → Word × List Char
  | 0, rest, word => (word, rest)
  | _ + 1, [], word => (word, [])
  | fuel + 1, c :: rest, word =>
      if endsWord c then (word, c :: rest)
      else if c == '\'' then
        let (quoted, behind) := rest.span (· != '\'')
        readWord fuel (behind.drop 1) (word ++ quoted.map .text)
      else if c == '"' then
        let (quoted, behind) := readDouble (rest.length + 1) rest []
        readWord fuel behind (word ++ quoted)
      else if c == '$' then
        let (piece, behind) := dollar rest
        readWord fuel behind (word ++ [piece])
      else if c == '\\' then
        match rest with
        | '\n' :: behind => readWord fuel behind word
        | d :: behind => readWord fuel behind (word ++ [.text d])
        | [] => (word ++ [.text c], [])
      else readWord fuel rest (word ++ [.text c])

/-- Reads the redirection of a stream, of which the sign for it has been read. -/
def readStream (source : Char) (rest : List Char) : Token × List Char :=
  match rest with
  | '&' :: target :: behind => (.joinStreams source target, behind)
  | '>' :: behind => (.toFile source, behind)
  | rest => (.toFile source, rest)

/-- Reads the tokens of a text. -/
def tokens : Nat → List Char → List Token
  | 0, _ => []
  | _ + 1, [] => []
  | fuel + 1, text@(c :: rest) =>
      match text with
      | '\\' :: '\n' :: behind => tokens fuel behind
      | '&' :: '&' :: behind => .next .afterSuccess :: tokens fuel behind
      | '|' :: '|' :: behind => .next .afterFailure :: tokens fuel behind
      | '1' :: '>' :: behind | '2' :: '>' :: behind =>
          let (token, behind) := readStream c behind
          token :: tokens fuel behind
      | '>' :: behind =>
          let (token, behind) := readStream '1' behind
          token :: tokens fuel behind
      | _ =>
          if c == ' ' || c == '\t' then tokens fuel rest
          else if c == '\n' then .lineEnd :: tokens fuel rest
          else if c == ';' then .next .always :: tokens fuel rest
          else if c == '#' then tokens fuel (rest.dropWhile (· != '\n'))
          else if endsWord c then .other c :: tokens fuel rest
          else
            let (word, behind) := readWord (text.length + 1) text []
            .word word :: tokens fuel behind

end Vetting.Shell
