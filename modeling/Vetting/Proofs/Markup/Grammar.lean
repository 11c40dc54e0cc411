import Vetting.Markup.Element

/-! A grammar of documents. An element is spelled by the tag of an empty one, or by an opening tag,
a run of events that fills the element, and a closing tag of the same name; a document is spelled by
one element and what may stand around it. Runs are balanced whether or not they can be read, and one
whose attributes and references can be read fills an element.
-/

namespace Vetting.Markup

open Text

-----------------------------------------------------------------------------------------
-- Runs of events and what they spell
-----------------------------------------------------------------------------------------

/-- A run of events that fills an element with texts and with elements, both in their order. -/
inductive Fills : List Event → List String → List Element → Prop where
  | nil : Fills [] [] []
  | text {run : List Event} {texts : List String} {children : List Element} {content : List Char}
    {text : String} (filled : Fills run texts children) (resolved : resolve content = .ok text)
    : Fills (run ++ [.text content]) (texts ++ [text]) children
  | cdata {run : List Event} {texts : List String} {children : List Element} {content : List Char}
    (filled : Fills run texts children)
    : Fills (run ++ [.cdata content]) (texts ++ [String.ofList content]) children
  | aside {run : List Event} {texts : List String} {children : List Element}
    (filled : Fills run texts children)
    : Fills (run ++ [.aside]) texts children
  | empty {run : List Event} {texts : List String} {children : List Element} {tag : List Char}
    {found : List (String × String)} (filled : Fills run texts children)
    (read : attributes tag = .ok found)
    : Fills (run ++ [.empty tag]) texts
      (children ++ [.node (String.ofList (tagName tag)) found "" []])
  | enclosed {run inside : List Event} {texts within : List String}
    {children grandchildren : List Element} {tag : List Char} {found : List (String × String)}
    (filled : Fills run texts children) (read : attributes tag = .ok found)
    (filling : Fills inside within grandchildren)
    : Fills (run ++ .opening tag :: (inside ++ [.closing (tagName tag)])) texts
      (children ++ [.node (String.ofList (tagName tag)) found (String.join within) grandchildren])

/-- A run of events that spells an element. -/
inductive Spells : List Event → Element → Prop where
  | empty {tag : List Char} {found : List (String × String)} (read : attributes tag = .ok found)
    : Spells [.empty tag] (.node (String.ofList (tagName tag)) found "" [])
  | enclosed {inside : List Event} {within : List String} {children : List Element}
    {tag : List Char} {found : List (String × String)} (read : attributes tag = .ok found)
    (filling : Fills inside within children)
    : Spells (.opening tag :: (inside ++ [.closing (tagName tag)]))
      (.node (String.ofList (tagName tag)) found (String.join within) children)

/-- What fills an element may be followed by one more element. -/
theorem Fills.element {run more : List Event} {texts : List String} {children : List Element}
    {element : Element} (filled : Fills run texts children) (spelled : Spells more element)
    : Fills (run ++ more) texts (children ++ [element]) := by
  cases spelled with
  | empty read => exact .empty filled read
  | enclosed read filling => exact .enclosed filled read filling

/-- An event that may stand around the root: blank text, or a comment, a declaration, an instruction
or a document type.
-/
def Event.IsAround : Event → Prop
  | .text content => ∃ text, resolve content = .ok text ∧ allBlank text.toList = true
  | .aside => True
  | .cdata _ | .opening _ | .empty _ | .closing _ => False

/-- An event that leaves no trace outside of the root: what may stand there, and text without
references, which is not looked at there.
-/
def Event.LeavesNoTrace (event : Event) : Prop :=
  event.IsAround ∨ ∃ content, event = .cdata content

theorem Event.LeavesNoTrace.eq_text_or_cdata_or_aside {event : Event}
    (around : event.LeavesNoTrace)
    : (∃ content, event = .text content)
      ∨ (∃ content, event = .cdata content)
      ∨ event = .aside := by
  obtain around | loose := around
  · cases event with
    | opening | empty | closing | cdata => exact around.elim
    | text content => exact .inl ⟨content, rfl⟩
    | aside => exact .inr (.inr rfl)
  · exact .inr (.inl loose)

/-- Events that spell a document with a root. -/
def SpellsDocument (found : List Event) (root : Element) : Prop :=
  ∃ before run after,
    found = before ++ run ++ after
    ∧ (∀ event ∈ before, event.LeavesNoTrace)
    ∧ Spells run root
    ∧ ∀ event ∈ after, event.LeavesNoTrace

-----------------------------------------------------------------------------------------
-- Balanced runs
-----------------------------------------------------------------------------------------

/-- An event that neither opens nor closes an element. -/
def Event.IsLeaf : Event → Prop
  | .opening _ | .closing _ => False
  | .empty _ | .text _ | .cdata _ | .aside => True

/-- A run of events in which every element that is opened is closed by its name. -/
inductive Balanced : List Event → Prop where
  | nil : Balanced []
  | leaf {run : List Event} {event : Event} (balanced : Balanced run) (leaf : event.IsLeaf)
    : Balanced (run ++ [event])
  | enclosed {run inside : List Event} {tag : List Char} (balanced : Balanced run)
    (within : Balanced inside)
    : Balanced (run ++ .opening tag :: (inside ++ [.closing (tagName tag)]))

/-- The events of one element: the tag of an empty one, or an opening tag and the closing tag of the
same name around a balanced run.
-/
def IsElement (run : List Event) : Prop :=
  (∃ tag, run = [.empty tag])
  ∨ ∃ tag inside, Balanced inside ∧ run = .opening tag :: (inside ++ [.closing (tagName tag)])

/-- Events that are those of exactly one element, but for what may stand around it. -/
def OneElement (found : List Event) : Prop :=
  ∃ before run after,
    found = before ++ run ++ after
    ∧ (∀ event ∈ before, event.IsAround)
    ∧ IsElement run
    ∧ ∀ event ∈ after, event.IsAround

/-- An event that can be read: its attributes, and the references in its text. -/
def Event.IsLegible : Event → Prop
  | .opening tag | .empty tag => ∃ found, attributes tag = .ok found
  | .text content => ∃ text, resolve content = .ok text
  | .closing _ | .cdata _ | .aside => True

/-- What fills an element is balanced, by induction on it. -/
theorem Fills.balanced {run : List Event} {texts : List String} {children : List Element}
    (filled : Fills run texts children)
    : Balanced run := by
  induction filled with
  | nil => exact .nil
  | text _ _ ih | cdata _ ih | aside _ ih | empty _ _ ih => exact .leaf ih trivial
  | enclosed _ _ _ before within => exact .enclosed before within

theorem Spells.isElement {run : List Event} {element : Element} (spelled : Spells run element)
    : IsElement run := by
  cases spelled with
  | empty => exact .inl ⟨_, rfl⟩
  | enclosed _ filling => exact .inr ⟨_, _, filling.balanced, rfl⟩

/-- A balanced run that can be read fills an element, by induction on it. -/
theorem Balanced.fills {run : List Event} (balanced : Balanced run)
    (legible : ∀ event ∈ run, event.IsLegible)
    : ∃ texts children, Fills run texts children := by
  induction balanced with
  | nil => exact ⟨_, _, .nil⟩
  | @leaf run event _ leaf ih =>
      simp only [List.mem_append, List.mem_singleton] at legible
      obtain ⟨texts, children, filled⟩ := ih fun event member => legible event (.inl member)
      have last := legible event (.inr rfl)
      cases event with
      | opening | closing => exact leaf.elim
      | empty tag =>
          obtain ⟨found, read⟩ := last
          exact ⟨_, _, .empty filled read⟩
      | text content =>
          obtain ⟨text, resolved⟩ := last
          exact ⟨_, _, .text filled resolved⟩
      | cdata content => exact ⟨_, _, .cdata filled⟩
      | aside => exact ⟨_, _, .aside filled⟩
  | @enclosed run inside tag _ _ before within =>
      simp only [List.mem_append, List.mem_cons] at legible
      obtain ⟨texts, children, filled⟩ := before fun event member => legible event (.inl member)
      obtain ⟨found, read⟩ := legible (.opening tag) (.inr (.inl rfl))
      obtain ⟨_, _, filling⟩ := within fun event member =>
        legible event (.inr (.inr (.inl member)))
      exact ⟨_, _, .enclosed filled read filling⟩

theorem IsElement.spells {run : List Event} (single : IsElement run)
    (legible : ∀ event ∈ run, event.IsLegible)
    : ∃ element, Spells run element := by
  obtain ⟨tag, rfl⟩ | ⟨tag, inside, balanced, rfl⟩ := single
  · obtain ⟨found, read⟩ := legible (.empty tag) (by simp)
    exact ⟨_, .empty read⟩
  · obtain ⟨found, read⟩ := legible (.opening tag) (by simp)
    obtain ⟨_, _, filling⟩ := balanced.fills fun event member => legible event (by simp [member])
    exact ⟨_, .enclosed read filling⟩

-----------------------------------------------------------------------------------------
-- Levels
-----------------------------------------------------------------------------------------

/-- The number of open elements after an event, given the number before it. -/
def Event.level (start : Nat) : Event → Nat
  | .opening _ => start + 1
  | .closing _ => start - 1
  | .empty _ | .text _ | .cdata _ | .aside => start

/-- The number of open elements after a run of events, given the number before it. -/
def level (start : Nat) (run : List Event) : Nat :=
  run.foldl Event.level start

@[simp] theorem level_append (start : Nat) (run more : List Event)
    : level start (run ++ more) = level (level start run) more := by
  simp [level]

@[simp] theorem level_cons (start : Nat) (event : Event) (run : List Event)
    : level start (event :: run) = level (event.level start) run := rfl

@[simp] theorem level_nil (start : Nat) : level start [] = start := rfl

/-- What fills an element leaves open what was open before it, by induction on it. -/
theorem Fills.level_eq {run : List Event} {texts : List String} {children : List Element}
    (filled : Fills run texts children) (start : Nat)
    : level start run = start := by
  induction filled generalizing start with
  | nil => rfl
  | text _ _ ih | cdata _ ih | aside _ ih | empty _ _ ih => simp [ih, Event.level]
  | enclosed _ _ _ before within => simp [before, within, Event.level]

theorem Spells.level_eq {run : List Event} {element : Element} (spelled : Spells run element)
    (start : Nat)
    : level start run = start := by
  have filled : Fills ([] ++ run) [] ([] ++ [element]) := Fills.nil.element spelled
  exact filled.level_eq start

theorem Event.LeavesNoTrace.level_eq {event : Event} (around : event.LeavesNoTrace) (start : Nat)
    : event.level start = start := by
  obtain ⟨content, rfl⟩ | ⟨content, rfl⟩ | rfl := around.eq_text_or_cdata_or_aside <;> rfl

theorem level_of_leavesNoTrace {run : List Event} (around : ∀ event ∈ run, event.LeavesNoTrace)
    (start : Nat)
    : level start run = start := by
  induction run with
  | nil => rfl
  | cons event rest ih =>
      obtain ⟨here, others⟩ := List.forall_mem_cons.mp around
      rw [level_cons, here.level_eq, ih others]

/-- No text without references stands outside of all elements. -/
def NoLooseCData (found : List Event) : Prop :=
  ∀ before content after, found = before ++ .cdata content :: after → 0 < level 0 before

/-- Where no text without references stands outside of all elements, nothing but what may stand
around the root leaves no trace there.
-/
theorem NoLooseCData.isAround {before run after : List Event}
    (enclosed : NoLooseCData (before ++ run ++ after)) (outside : level 0 before = 0)
    (around : ∀ event ∈ run, event.LeavesNoTrace)
    : ∀ event ∈ run, event.IsAround := by
  intro event member
  refine (around event member).resolve_right ?_
  rintro ⟨content, rfl⟩
  obtain ⟨front, back, rfl⟩ := List.append_of_mem member
  have inside := enclosed (before ++ front) content (back ++ after) (by simp)
  have traceless : ∀ event ∈ front, event.LeavesNoTrace := fun event listed =>
    around event (List.mem_append_left _ listed)
  rw [level_append, outside, level_of_leavesNoTrace traceless] at inside
  exact Nat.lt_irrefl 0 inside

end Vetting.Markup
