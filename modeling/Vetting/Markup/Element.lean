import Vetting.Markup.Event
import Vetting.Markup.Reference
import Vetting.Text.Blank

/-! The tree of elements of a document. A document has one root, and outside of it there is nothing
but blank text and what is neither text nor an element. -/

namespace Vetting.Markup

open Vetting.Text

/-- An element: its name and attributes as written, the text directly inside it, and the elements
directly inside it. -/
inductive Element where
  | node (name : String) (attributes : List (String × String)) (text : String)
      (children : List Element)
  deriving Inhabited

namespace Element

/-- The name as written. -/
def name : Element → String
  | node name _ _ _ => name

/-- The attributes as written. -/
def attributes : Element → List (String × String)
  | node _ attributes _ _ => attributes

/-- The text directly inside. -/
def text : Element → String
  | node _ _ text _ => text

/-- The elements directly inside. -/
def children : Element → List Element
  | node _ _ _ children => children

/-- The part of a name behind its last colon. -/
def localPart (name : String) : String :=
  String.ofList ((splitChar ':' name.toList).getLastD [])

/-- The name without its qualification. -/
def localName (e : Element) : String :=
  localPart e.name

/-- The text directly inside, without the blanks around it. -/
def trimmedText (e : Element) : String :=
  trimString e.text

/-- The value of the attribute with a name. -/
def attribute? (e : Element) (key : String) : Option String :=
  (e.attributes.find? fun pair => pair.1 == key).map Prod.snd

/-- The first element directly inside with a name. -/
def child? (e : Element) (name : String) : Option Element :=
  e.children.find? fun c => c.localName == name

mutual

/-- An element and all elements inside it, each before those inside it. -/
def descendants : Element → List Element
  | node name attributes text children =>
      node name attributes text children :: listDescendants children

/-- The descendants of several elements. -/
def listDescendants : List Element → List Element
  | [] => []
  | e :: rest => descendants e ++ listDescendants rest

end

/-- The first element with a name, in the order of descendants. -/
def find? (e : Element) (name : String) : Option Element :=
  e.descendants.find? fun d => d.localName == name

end Element

/-- The bytes of a tag before a suffix of it. -/
def offset (tag rest : List Char) : Nat :=
  byteLength tag - byteLength rest

/-- An attribute of a tag: its key, where the key starts, and its value as written. -/
structure RawAttribute where
  key : List Char
  position : Nat
  value : List Char

/-- Reads the next attribute of a tag from a suffix of it that does not start with a blank, given
the attributes before it; answers with the text behind it. -/
def readAttribute (tag rest : List Char) (before : List RawAttribute) :
    Except AttributeFault (RawAttribute × List Char) := do
  let position := offset tag rest
  let isKeyEnd (c : Char) : Bool := c == '=' || isSpace c
  let key := rest.take 1 ++ (rest.drop 1).takeWhile fun c => !isKeyEnd c
  let behind := (rest.drop 1).dropWhile fun c => !isKeyEnd c
  let gap := behind.dropWhile isSpace
  match gap with
  | '=' :: value =>
      match before.find? fun a => a.key == key with
      | some previous => .error (.duplicated position previous.position)
      | none =>
          match value.dropWhile isSpace with
          | [] => .error (.expectedValue (byteLength tag))
          | quote :: inside =>
              if quote == '"' || quote == '\'' then
                match inside.dropWhile (· != quote) with
                | _ :: after => .ok (⟨key, position, inside.takeWhile (· != quote)⟩, after)
                | [] => .error (.expectedQuote (byteLength tag) quote)
              else .error (.unquotedValue (offset tag (quote :: inside)))
  | [] => .error (.expectedEquals (offset tag behind))
  | _ => .error (.expectedEquals (offset tag gap))

/-- The attributes of a tag from a suffix of it on; `steps` bounds their number. -/
def attributesFrom (tag : List Char) : Nat → List Char → List RawAttribute →
    Except Fault (List (String × String))
  | 0, _, _ => .ok []
  | steps + 1, text, before =>
      match text.dropWhile isSpace with
      | [] => .ok []
      | rest => do
          let (found, after) ←
            match readAttribute tag rest before with
            | .ok found => .ok found
            | .error fault => .error (.badAttribute (String.ofList (tagName tag)) fault)
          let key := String.ofList found.key
          let value ←
            match resolve found.value with
            | .ok value => .ok value
            | .error fault => .error (.badValue key fault)
          return (key, value) :: (← attributesFrom tag steps after (before ++ [found]))

/-- The attributes of a tag. -/
def attributes (tag : List Char) : Except Fault (List (String × String)) :=
  attributesFrom tag (tag.length + 1) (tag.drop (tagName tag).length) []

/-- An element that is not closed yet; what is inside it stands last first. -/
structure Open where
  name : String
  attributes : List (String × String)
  text : List String
  children : List Element

/-- The element with everything that has been read inside it. -/
def Open.close (o : Open) : Element :=
  .node o.name o.attributes (String.join o.text.reverse) o.children.reverse

/-- A document while it is read: the open elements, the innermost first, and the root once it is
closed. -/
structure Draft where
  opened : List Open
  root : Option Element

/-- Puts a finished element where it belongs. -/
def Draft.attach (draft : Draft) (element : Element) : Except Fault Draft :=
  match draft.opened with
  | parent :: outer =>
      .ok { draft with opened := { parent with children := element :: parent.children } :: outer }
  | [] =>
      if draft.root.isNone then .ok { draft with root := some element }
      else .error (.secondRoot (some element.name))

/-- Adds text to the innermost open element. -/
def Draft.addText (draft : Draft) (text : String) : Draft :=
  match draft.opened with
  | top :: outer => { draft with opened := { top with text := text :: top.text } :: outer }
  | [] => draft

/-- Takes in one event. -/
def Draft.add (draft : Draft) (event : Event) : Except Fault Draft :=
  match event with
  | .opening tag =>
      if draft.opened.isEmpty && draft.root.isSome then .error (.secondRoot none)
      else do
        let found ← attributes tag
        return { draft with
          opened := ⟨String.ofList (tagName tag), found, [], []⟩ :: draft.opened }
  | .empty tag => do
      let found ← attributes tag
      draft.attach (.node (String.ofList (tagName tag)) found "" [])
  | .closing name =>
      match draft.opened with
      | [] => .error (.unopened (String.ofList name))
      | top :: outer =>
          if top.name == String.ofList name then
            { draft with opened := outer }.attach top.close
          else .error (.misnested top.name (String.ofList name))
  | .text content =>
      match resolve content with
      | .error fault => .error (.badText fault)
      | .ok text =>
          if draft.opened.isEmpty && !allBlank text.toList then .error .textOutside
          else .ok (draft.addText text)
  | .cdata content => .ok (draft.addText (String.ofList content))
  | .aside => .ok draft

/-- The root of a finished document. -/
def Draft.finish (draft : Draft) : Except Fault Element :=
  match draft.opened with
  | top :: _ => .error (.unclosed top.name)
  | [] =>
      match draft.root with
      | some root => .ok root
      | none => .error .noRoot

/-- Builds the tree of elements from events. -/
def ofEvents (events : List Event) : Except Fault Draft :=
  events.foldlM Draft.add ⟨[], none⟩

/-- Reads a document. A fault in the events up to the point where reading stopped comes before the
fault that stopped it. -/
def parse (text : List Char) : Except Fault Element := do
  let (found, stopped) := events text
  let draft ← ofEvents found
  match stopped with
  | some fault => .error fault
  | none => draft.finish

end Vetting.Markup
