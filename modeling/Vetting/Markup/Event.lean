import Vetting.Markup.Fault
import Vetting.Text.Search

/-! The events of a text with markup: tags, the text between them, and what is neither. Reading
stops at the first fault; a closing tag has to bear the name of the element opened last. -/

namespace Vetting.Markup

open Vetting.Text

/-- A part of a text with markup, as it is written. -/
inductive Event where
  /-- The tag that opens an element, without its angle brackets. -/
  | opening (tag : List Char)
  /-- The tag of an element without content, without its slash. -/
  | empty (tag : List Char)
  /-- The name in a closing tag. -/
  | closing (name : List Char)
  /-- Text with references. -/
  | text (content : List Char)
  /-- Text without references. -/
  | cdata (content : List Char)
  /-- A comment, a declaration, a processing instruction or a document type. -/
  | aside
  deriving DecidableEq, Repr

/-- The blanks of markup. -/
def isSpace (c : Char) : Bool :=
  c == ' ' || c == '\t' || c == '\n' || c == '\r'

/-- The name at the start of a tag. -/
def tagName (tag : List Char) : List Char :=
  tag.takeWhile fun c => !isSpace c

/-- The text before and after the next `>` that is not quoted. -/
def splitTag? : Option Char → List Char → Option (List Char × List Char)
  | _, [] => none
  | quote, c :: rest =>
      if quote.isNone && c == '>' then some ([], rest)
      else
        let quote :=
          match quote with
          | none => if c == '\'' || c == '"' then some c else none
          | some q => if c == q then none else some q
        (splitTag? quote rest).map fun parts => (c :: parts.1, parts.2)

/-- The text before and after the first `>` whose text before it, last character first, passes a
test. -/
def splitBang? (closes : List Char → Bool) : List Char → List Char → Option (List Char × List Char)
  | _, [] => none
  | before, c :: rest =>
      if c == '>' && closes before then some (before.reverse, rest)
      else splitBang? closes (c :: before) rest

/-- The markup that starts with an exclamation mark. -/
inductive Bang where
  | cdata
  | comment
  | doctype

/-- The kind of markup with a character behind its exclamation mark. -/
def Bang.ofChar? (c : Option Char) : Option Bang :=
  match c with
  | some '[' => some .cdata
  | some '-' => some .comment
  | some 'D' => some .doctype
  | some 'd' => some .doctype
  | _ => none

/-- Whether the markup ends behind a text, given last character first. -/
def Bang.closes : Bang → List Char → Bool
  | cdata, before => [']', ']'].isPrefixOf before
  | comment, before => ['-', '-'].isPrefixOf before && 4 < byteLength before
  | doctype, before => countChar before '<' == countChar before '>'

/-- The fault of markup that is not finished. -/
def Bang.fault : Bang → SyntaxFault
  | cdata => .cdata
  | comment => .comment
  | doctype => .doctype

/-- Whether a text starts with a word, in any case of ASCII letters. -/
def startsWithAnyCase (word text : List Char) : Bool :=
  (text.take word.length).map Char.toLower == word.map Char.toLower

/-- Why reading stopped. -/
inductive Stop where
  | finished
  | syntactic (fault : SyntaxFault)
  | form (fault : FormFault)

/-- The event of finished markup behind an exclamation mark. -/
def Bang.event (bang : Bang) (content : List Char) : Except Stop Event :=
  match bang with
  | cdata =>
      if startsWithAnyCase "![CDATA[".toList content then
        .ok (.cdata ((content.drop 8).take (content.length - 10)))
      else .error (.syntactic .cdata)
  | comment =>
      if "!--".toList.isPrefixOf content then .ok .aside else .error (.syntactic .comment)
  | doctype =>
      if startsWithAnyCase "!DOCTYPE".toList content then
        if (content.drop 8).all isSpace then .error (.form .doctypeWithoutName) else .ok .aside
      else .error (.syntactic .doctype)

/-- Drops the blanks at the end of the name in a closing tag. -/
def closingName (content : List Char) : List Char :=
  let trimmed := (content.reverse.dropWhile isSpace).reverse
  if trimmed.isEmpty then content else trimmed

/-- The result of reading one piece of markup: what follows, and the event, or why there is none. -/
structure Step where
  rest : List Char
  opened : List (List Char)
  event : Except Stop Event

/-- Reads the markup behind a `<`, given the names of the open elements, the latest first. -/
def readMarkup (opened : List (List Char)) (text : List Char) : Step :=
  match text with
  | [] => ⟨[], opened, .error (.syntactic .tag)⟩
  | '!' :: behind =>
      match Bang.ofChar? behind.head? with
      | none => ⟨text, opened, .error (.syntactic .unknown)⟩
      | some bang =>
          match splitBang? bang.closes [] text with
          | none => ⟨[], opened, .error (.syntactic bang.fault)⟩
          | some (content, rest) => ⟨rest, opened, bang.event content⟩
  | '?' :: _ =>
      match splitOnce? ['?', '>'] text with
      | none => ⟨[], opened, .error (.syntactic .instruction)⟩
      | some (content, rest) =>
          ⟨rest, opened, if content.isEmpty then .error (.syntactic .instruction) else .ok .aside⟩
  | '/' :: _ =>
      match splitTag? none text with
      | none => ⟨[], opened, .error (.syntactic .tag)⟩
      | some (content, rest) =>
          let name := closingName (content.drop 1)
          match opened with
          | [] => ⟨rest, [], .error (.form (.unmatchedClose (String.ofList name)))⟩
          | expected :: outer =>
              if name == expected then ⟨rest, outer, .ok (.closing name)⟩
              else
                ⟨rest, outer, .error
                  (.form (.mismatchedClose (String.ofList expected) (String.ofList name)))⟩
  | _ =>
      match splitTag? none text with
      | none => ⟨[], opened, .error (.syntactic .tag)⟩
      | some (content, rest) =>
          if content.getLast? == some '/' then ⟨rest, opened, .ok (.empty content.dropLast)⟩
          else ⟨rest, tagName content :: opened, .ok (.opening content)⟩

/-- Why reading stopped, and with how many bytes left. -/
structure Ending where
  stop : Stop
  bytesLeft : Nat

/-- The events of a text up to its end or the first fault; `steps` bounds their number. -/
def readEvents : Nat → List (List Char) → List Char → List Event × Ending
  | 0, _, _ => ([], ⟨.finished, 0⟩)
  | steps + 1, opened, text =>
      let before := text.takeWhile (· != '<')
      let events := if before.isEmpty then [] else [Event.text before]
      match text.dropWhile (· != '<') with
      | [] => (events, ⟨.finished, 0⟩)
      | _ :: behind =>
          let step := readMarkup opened behind
          match step.event with
          | .ok event =>
              let (more, ending) := readEvents steps step.opened step.rest
              (events ++ event :: more, ending)
          | .error stop => (events, ⟨stop, byteLength step.rest⟩)

/-- The mark that may stand at the start of a text to tell its encoding. -/
def byteOrderMark : Char := '\uFEFF'

/-- The text behind a byte order mark. -/
def dropMark (text : List Char) : List Char :=
  if text.head? == some byteOrderMark then text.drop 1 else text

/-- The events of a whole text, and the fault that ended them, if one did. -/
def events (text : List Char) : List Event × Option Fault :=
  let text := dropMark text
  let (found, ending) := readEvents (text.length + 1) [] text
  let byte := byteLength text - ending.bytesLeft
  match ending.stop with
  | .finished => (found, none)
  | .syntactic fault => (found, some (.syntactic fault byte))
  | .form fault => (found, some (.form fault byte))

end Vetting.Markup
