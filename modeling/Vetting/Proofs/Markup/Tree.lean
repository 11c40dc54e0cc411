import Vetting.Proofs.Markup.Outline
import Vetting.Proofs.Results

/-! The tree of a document. While events are taken in, a draft holds what the events so far spell:
nothing, a finished root, or a chain of open elements with what fills each of them. So a sequence of
events has a tree exactly when the grammar spells it, and then the tree is the one that it spells.
-/

namespace Vetting.Markup

open Text

/-- The tree of a finished sequence of events. -/
def tree (found : List Event) : Except Fault Element :=
  ofEvents found >>= Draft.finish

-----------------------------------------------------------------------------------------
-- One event
-----------------------------------------------------------------------------------------

namespace Draft

variable {draft next : Draft} {tag content : List Char} {found : List (String × String)}
  {top : Open} {outer : List Open} {root : Option Element} {text : String} {element : Element}

/-- An element may start here: another one is open, or no root is finished. -/
def HasRoom (draft : Draft) : Prop :=
  draft.opened = [] → draft.root = none

/-- An opening tag is taken in when it has room and its attributes can be read. -/
theorem add_opening_eq_ok
    : draft.add (.opening tag) = .ok next
      ↔ draft.HasRoom
        ∧ ∃ found,
            attributes tag = .ok found
            ∧ { draft with opened := ⟨String.ofList (tagName tag), found, [], []⟩ :: draft.opened }
              = next := by
  have room_iff : ¬ (draft.opened.isEmpty && draft.root.isSome) = true ↔ draft.HasRoom := by
    simp [HasRoom]
  simp only [add]
  split
  · rename_i full
    exact ⟨nofun, fun ⟨room, _⟩ => absurd full (room_iff.mpr room)⟩
  · rename_i free
    rw [Except.bind_eq_ok]
    exact ⟨fun ⟨found, read, same⟩ => ⟨room_iff.mp free, found, read, Except.ok.inj same⟩,
      fun ⟨_, found, read, same⟩ => ⟨found, read, congrArg Except.ok same⟩⟩

theorem add_empty_eq (read : attributes tag = .ok found)
    : draft.add (.empty tag) = draft.attach (.node (String.ofList (tagName tag)) found "" []) := by
  simp only [add, read]
  rfl

/-- A closing tag is taken in when it bears the name of the innermost open element. -/
theorem add_closing_eq_ok
    : add ⟨top :: outer, root⟩ (.closing tag) = .ok next
      ↔ top.name = String.ofList tag ∧ attach ⟨outer, root⟩ top.close = .ok next := by
  simp only [add]
  split
  · rename_i same
    simp [beq_iff_eq.mp same]
  · rename_i other
    exact ⟨nofun, fun ⟨same, _⟩ => absurd (beq_iff_eq.mpr same) other⟩

theorem add_closing_eq (named : top.name = String.ofList tag)
    : add ⟨top :: outer, root⟩ (.closing tag) = attach ⟨outer, root⟩ top.close := by
  simp [add, named]

@[simp] theorem addText_outside
    : addText ⟨[], root⟩ text = ⟨[], root⟩ := rfl

@[simp] theorem addText_inside
    : addText ⟨top :: outer, root⟩ text = ⟨{ top with text := text :: top.text } :: outer, root⟩ :=
  rfl

/-- Text is taken in when its references can be resolved and it is blank outside of all elements. -/
theorem add_text_eq_ok
    : draft.add (.text content) = .ok next
      ↔ ∃ text,
          resolve content = .ok text
          ∧ (draft.opened = [] → allBlank text.toList = true)
          ∧ draft.addText text = next := by
  simp only [add]
  split
  · rename_i resolved
    simp [resolved]
  · rename_i text resolved
    split
    · simp_all
    · simp_all

theorem add_leavesNoTrace {event : Event} (around : event.LeavesNoTrace)
    : add ⟨[], root⟩ event = .ok ⟨[], root⟩ := by
  obtain around | ⟨content, rfl⟩ := around
  · cases event with
    | opening | empty | closing | cdata => exact around.elim
    | aside => rfl
    | text content =>
        obtain ⟨text, resolved, blank⟩ := around
        exact add_text_eq_ok.mpr ⟨text, resolved, fun _ => blank, rfl⟩
  · rfl

end Draft

-----------------------------------------------------------------------------------------
-- Taking in what the grammar spells
-----------------------------------------------------------------------------------------

/-- A run is taken in by an open element as the texts and children that it holds, last first. -/
def TakenIn (run : List Event) (texts : List String) (children : List Element) : Prop :=
  ∀ name found outer root,
    run.foldlM Draft.add ⟨⟨name, found, [], []⟩ :: outer, root⟩
      = .ok ⟨⟨name, found, texts.reverse, children.reverse⟩ :: outer, root⟩

/-- An element around a run that is taken in is attached where it starts. -/
theorem TakenIn.foldlM_enclosed {inside : List Event} {texts : List String}
    {children : List Element} {tag : List Char} {found : List (String × String)} {draft : Draft}
    (taken : TakenIn inside texts children) (read : attributes tag = .ok found)
    (room : draft.HasRoom)
    : (Event.opening tag :: (inside ++ [.closing (tagName tag)])).foldlM Draft.add draft
      = draft.attach (.node (String.ofList (tagName tag)) found (String.join texts) children) := by
  rw [List.foldlM_cons, Draft.add_opening_eq_ok.mpr ⟨room, _, read, rfl⟩, Except.ok_bind,
    List.foldlM_append, taken, Except.ok_bind, List.foldlM_cons, Draft.add_closing_eq rfl,
    Open.close]
  simp only [List.reverse_reverse, List.foldlM_nil, bind_pure]

/-- What fills an element is taken in, by induction on it. -/
theorem Fills.takenIn {run : List Event} {texts : List String} {children : List Element}
    (filled : Fills run texts children)
    : TakenIn run texts children := by
  intro name found outer root
  induction filled generalizing name found outer root with
  | nil => rfl
  | text _ resolved ih =>
      rw [List.foldlM_append, ih, List.reverse_concat]
      refine congrArg (· >>= pure) (Draft.add_text_eq_ok.mpr ⟨_, resolved, ?_, rfl⟩)
      exact nofun
  | cdata _ ih =>
      rw [List.foldlM_append, ih, List.reverse_concat]
      rfl
  | aside _ ih =>
      rw [List.foldlM_append, ih]
      rfl
  | empty _ read ih =>
      rw [List.foldlM_append, ih, List.reverse_concat]
      exact congrArg (· >>= pure) (Draft.add_empty_eq read)
  | enclosed _ read _ before within =>
      rw [List.foldlM_append, before, List.reverse_concat]
      exact TakenIn.foldlM_enclosed within read nofun

/-- The events that spell an element attach it where it starts. -/
theorem Spells.foldlM_eq {run : List Event} {element : Element} (spelled : Spells run element)
    {draft : Draft} (room : draft.HasRoom)
    : run.foldlM Draft.add draft = draft.attach element := by
  cases spelled with
  | empty read =>
      rw [List.foldlM_cons, Draft.add_empty_eq read]
      simp only [List.foldlM_nil, bind_pure]
  | enclosed read filling => exact filling.takenIn.foldlM_enclosed read room

/-- What leaves no trace outside of the root leaves a draft without open elements as it is, by
induction on it.
-/
theorem foldlM_leavesNoTrace {run : List Event} (around : ∀ event ∈ run, event.LeavesNoTrace)
    (root : Option Element)
    : run.foldlM Draft.add ⟨[], root⟩ = .ok ⟨[], root⟩ := by
  induction run with
  | nil => rfl
  | cons event rest ih =>
      obtain ⟨here, others⟩ := List.forall_mem_cons.mp around
      rw [List.foldlM_cons, Draft.add_leavesNoTrace here, Except.ok_bind, ih others]

/-- A document has the tree that the grammar spells. -/
theorem tree_of_spellsDocument {found : List Event} {root : Element}
    (spelled : SpellsDocument found root)
    : tree found = .ok root := by
  obtain ⟨before, run, after, rfl, front, element, back⟩ := spelled
  have attached : Draft.attach ⟨[], none⟩ root = .ok ⟨[], some root⟩ := rfl
  rw [tree, ofEvents, List.foldlM_append, List.foldlM_append, foldlM_leavesNoTrace front,
    Except.ok_bind, element.foldlM_eq fun _ => rfl, attached, Except.ok_bind,
    foldlM_leavesNoTrace back, Except.ok_bind, Draft.finish]

-----------------------------------------------------------------------------------------
-- What a draft holds
-----------------------------------------------------------------------------------------

/-- What a draft holds after some events: nothing, a finished root, or an open element inside what
it held when that one was opened, with what fills it so far.
-/
inductive Holds : List Event → Draft → Prop where
  | nothing {found : List Event} (around : ∀ event ∈ found, event.LeavesNoTrace)
    : Holds found ⟨[], none⟩
  | finished {found : List Event} {root : Element} (spelled : SpellsDocument found root)
    : Holds found ⟨[], some root⟩
  | inside {before run : List Event} {outer : List Open} {root : Option Element} {tag : List Char}
    {found : List (String × String)} {texts : List String} {children : List Element}
    (held : Holds before ⟨outer, root⟩) (room : Draft.HasRoom ⟨outer, root⟩)
    (read : attributes tag = .ok found) (filled : Fills run texts children)
    : Holds (before ++ .opening tag :: run)
      ⟨⟨String.ofList (tagName tag), found, texts.reverse, children.reverse⟩ :: outer, root⟩

variable {found run : List Event} {draft next : Draft} {element : Element} {event : Event}

/-- An element that is spelled next is attached to what a draft holds. -/
theorem Holds.attach (held : Holds found draft) (spelled : Spells run element)
    (attached : draft.attach element = .ok next)
    : Holds (found ++ run) next := by
  cases held with
  | nothing around =>
      obtain rfl := Except.ok.inj attached
      exact .finished ⟨found, run, [], by simp, around, spelled, by simp⟩
  | finished => exact nomatch attached
  | inside held room read filled =>
      obtain rfl := Except.ok.inj attached
      have more := Holds.inside held room read (filled.element spelled)
      rw [List.reverse_concat] at more
      simpa using more

/-- An event that leaves no trace changes nothing but the events that have been taken in. -/
theorem Holds.around {root : Option Element} (held : Holds found ⟨[], root⟩)
    (around : event.LeavesNoTrace)
    : Holds (found ++ [event]) ⟨[], root⟩ := by
  have last : ∀ other ∈ [event], other.LeavesNoTrace := by simpa using around
  cases held with
  | nothing before => exact .nothing (List.forall_mem_append.mpr ⟨before, last⟩)
  | finished spelled =>
      obtain ⟨before, run, after, rfl, front, element, back⟩ := spelled
      exact .finished ⟨before, run, after ++ [event], by simp, front, element,
        List.forall_mem_append.mpr ⟨back, last⟩⟩

/-- An event that is taken in adds to what a draft holds, by cases on the event. -/
theorem Holds.add (held : Holds found draft) (added : draft.add event = .ok next)
    : Holds (found ++ [event]) next := by
  have before := held
  cases event with
  | opening tag =>
      obtain ⟨room, attributes, read, rfl⟩ := Draft.add_opening_eq_ok.mp added
      exact .inside held room read .nil
  | empty tag =>
      obtain ⟨attributes, read, attached⟩ := Except.bind_eq_ok.mp added
      exact held.attach (.empty read) attached
  | closing name =>
      cases held with
      | nothing | finished => exact nomatch added
      | inside held room read filled =>
          obtain ⟨same, attached⟩ := Draft.add_closing_eq_ok.mp added
          obtain rfl := String.ofList_injective same
          have more := held.attach (.enclosed read filled) (by simpa [Open.close] using attached)
          simpa using more
  | text content =>
      obtain ⟨text, resolved, loose, rfl⟩ := Draft.add_text_eq_ok.mp added
      cases held with
      | nothing | finished => exact before.around (.inl ⟨text, resolved, loose rfl⟩)
      | inside held room read filled =>
          have more := Holds.inside held room read (filled.text resolved)
          rw [List.reverse_concat] at more
          simpa using more
  | cdata content =>
      obtain rfl := Except.ok.inj added
      cases held with
      | nothing | finished => exact before.around (.inr ⟨content, rfl⟩)
      | inside held room read filled =>
          have more := Holds.inside held room read (@Fills.cdata _ _ _ content filled)
          rw [List.reverse_concat] at more
          simpa using more
  | aside =>
      obtain rfl := Except.ok.inj added
      cases held with
      | nothing | finished => exact before.around (.inl trivial)
      | inside held room read filled =>
          simpa using Holds.inside held room read filled.aside

/-- What a draft holds after events that are taken in is what they spell, by induction on them. -/
theorem Holds.foldlM {events : List Event} (held : Holds found draft)
    (taken : events.foldlM Draft.add draft = .ok next)
    : Holds (found ++ events) next := by
  induction events generalizing found draft with
  | nil =>
      obtain rfl := Except.ok.inj taken
      simpa using held
  | cons event rest ih =>
      rw [List.foldlM_cons] at taken
      obtain ⟨between, added, onward⟩ := Except.bind_eq_ok.mp taken
      simpa using ih (held.add added) onward

/-- Events have a tree exactly when they spell a document, and it is the root that they spell. -/
theorem tree_eq_ok_iff {root : Element}
    : tree found = .ok root ↔ SpellsDocument found root := by
  refine ⟨fun built => ?_, tree_of_spellsDocument⟩
  obtain ⟨draft, taken, finished⟩ := Except.bind_eq_ok.mp built
  have start : Holds [] ⟨[], none⟩ := .nothing nofun
  have held : Holds found draft := start.foldlM taken
  cases held with
  | nothing | inside => exact nomatch finished
  | finished spelled =>
      obtain rfl := Except.ok.inj finished
      exact spelled

-----------------------------------------------------------------------------------------
-- Trees and documents
-----------------------------------------------------------------------------------------

/-- What spells a document is the events of one element and what may stand around it. -/
theorem SpellsDocument.oneElement {root : Element} (spelled : SpellsDocument found root)
    (enclosed : NoLooseCData found)
    : OneElement found := by
  obtain ⟨before, run, after, rfl, front, element, back⟩ := spelled
  have outside : level 0 before = 0 := level_of_leavesNoTrace front 0
  have ahead : NoLooseCData ([] ++ before ++ (run ++ after)) := by simpa using enclosed
  have behind : NoLooseCData (before ++ run ++ after ++ []) := by simpa using enclosed
  exact ⟨before, run, after, rfl, ahead.isAround rfl front, element.isElement,
    behind.isAround (by simp [outside, element.level_eq]) back⟩

/-- The events of one element and what may stand around it spell a document if they can be read. -/
theorem OneElement.spellsDocument (single : OneElement found)
    (legible : ∀ event ∈ found, event.IsLegible)
    : ∃ root, SpellsDocument found root := by
  obtain ⟨before, run, after, rfl, front, element, back⟩ := single
  obtain ⟨root, spelled⟩ := element.spells fun event member => legible event (by simp [member])
  exact ⟨root, before, run, after, rfl, fun event member => .inl (front event member), spelled,
    fun event member => .inl (back event member)⟩

/-- A root mirrors events when it has their brackets, and in the order of descendants the names and
attributes of its elements, their depths, and their texts are those of the events.
-/
structure Element.Mirrors (root : Element) (found : List Event) : Prop where
  brackets : SpellsDocument found root
  headings : root.descendants.map Element.heading = found.filterMap Event.heading?
  depths : root.depths 0 = startLevels 0 found
  texts : root.descendants.map Element.text = elementTexts found

/-- Events that can be read have a tree exactly when they are those of one element and what may
stand around it, and then the tree mirrors them; a text with these events is read as this tree.
-/
theorem tree_of_legible (legible : ∀ event ∈ found, event.IsLegible) (enclosed : NoLooseCData found)
    : ((∃ root, tree found = .ok root) ↔ OneElement found)
      ∧ (∀ root, tree found = .ok root → root.Mirrors found)
      ∧ ∀ text, events text = (found, none) → parse text = tree found := by
  refine ⟨⟨?_, ?_⟩, ?_, ?_⟩
  · rintro ⟨root, built⟩
    exact (tree_eq_ok_iff.mp built).oneElement enclosed
  · intro single
    obtain ⟨root, spelled⟩ := single.spellsDocument legible
    exact ⟨root, tree_eq_ok_iff.mpr spelled⟩
  · intro root built
    have spelled := tree_eq_ok_iff.mp built
    exact ⟨spelled, spelled.headings_eq, spelled.depths_eq, spelled.texts_eq⟩
  · intro text whole
    rw [parse, whole]
    rfl

/-- The events of an element with a text that is split by its children. -/
def splitText : List Event :=
  [.aside, .text ['\n'], .opening "a k=\"1\"".toList, .text ['x'], .empty ['b'],
    .text "&amp;".toList, .opening ['c'], .text ['z'], .closing ['c'], .cdata ['&'], .closing ['a'],
    .text ['\n']]

theorem tree_of_legible_splitText
    : (∀ event ∈ splitText, event.IsLegible)
      ∧ NoLooseCData splitText
      ∧ ∃ root,
          parse "<!--v1-->\n<a k=\"1\">x<b/>&amp;<c>z</c><![CDATA[&]]></a>\n".toList = .ok root
          ∧ root.Mirrors splitText := by
  have legible : ∀ event ∈ splitText, event.IsLegible := by
    simp only [splitText, List.forall_mem_cons]
    exact ⟨trivial, ⟨_, rfl⟩, ⟨_, rfl⟩, ⟨_, rfl⟩, ⟨_, rfl⟩, ⟨_, rfl⟩, ⟨_, rfl⟩, ⟨_, rfl⟩, trivial,
      trivial, trivial, ⟨_, rfl⟩, nofun⟩
  have enclosed : NoLooseCData splitText := by
    intro before content after split
    obtain ⟨rfl, -⟩ := by simpa [splitText, List.cons_eq_append_iff] using split
    decide
  have inside : Balanced
      ([] ++ [.text ['x']] ++ [.empty ['b']] ++ [.text "&amp;".toList]
        ++ .opening ['c'] :: ([] ++ [.text ['z']] ++ [.closing (tagName ['c'])])
        ++ [.cdata ['&']]) :=
    .leaf (.enclosed (.leaf (.leaf (.leaf .nil trivial) trivial) trivial) (.leaf .nil trivial))
      trivial
  have blank : (Event.text ['\n']).IsAround := ⟨_, rfl, rfl⟩
  have single : OneElement splitText :=
    ⟨[.aside, .text ['\n']], _, [.text ['\n']], rfl,
      List.forall_mem_cons.mpr ⟨trivial, List.forall_mem_singleton.mpr blank⟩,
      .inr ⟨"a k=\"1\"".toList, _, inside, rfl⟩, List.forall_mem_singleton.mpr blank⟩
  obtain ⟨built_iff, mirrored, read⟩ := tree_of_legible legible enclosed
  obtain ⟨root, built⟩ := built_iff.mpr single
  exact ⟨legible, enclosed, root, (read _ (by decide +kernel)).trans built, mirrored root built⟩

end Vetting.Markup
