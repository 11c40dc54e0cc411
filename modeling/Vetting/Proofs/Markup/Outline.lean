import Vetting.Proofs.Markup.Grammar

/-! The outline of a document. The elements of the root that is spelled, each before those inside
it, come from the tags that start an element, in the order of the events. Each lies as deep in the
tree as elements are open at its tag, and its text joins what stands directly inside of it.
-/

namespace Vetting.Markup

open Text

-----------------------------------------------------------------------------------------
-- Names and attributes
-----------------------------------------------------------------------------------------

/-- The name and the attributes of an element. -/
def Element.heading (element : Element) : String × List (String × String) :=
  (element.name, element.attributes)

/-- The name and the attributes of the element that starts with an event. -/
def Event.heading? : Event → Option (String × List (String × String))
  | .opening tag | .empty tag =>
      (attributes tag).toOption.map fun found => (String.ofList (tagName tag), found)
  | .closing _ | .text _ | .cdata _ | .aside => none

theorem Event.LeavesNoTrace.heading?_eq {event : Event} (around : event.LeavesNoTrace)
    : event.heading? = none := by
  obtain ⟨content, rfl⟩ | ⟨content, rfl⟩ | rfl := around.eq_text_or_cdata_or_aside <;> rfl

namespace Element

theorem listDescendants_append (ones others : List Element)
    : listDescendants (ones ++ others) = listDescendants ones ++ listDescendants others := by
  induction ones with
  | nil => rfl
  | cons one rest ih => simp [listDescendants, ih]

theorem listDescendants_singleton (element : Element)
    : listDescendants [element] = element.descendants := by
  simp [listDescendants]

theorem map_heading_descendants (name text : String) (found : List (String × String))
    (children : List Element)
    : (descendants (.node name found text children)).map heading
      = (name, found) :: (listDescendants children).map heading := by
  rw [descendants, List.map_cons]
  rfl

end Element

/-- What fills an element starts its elements in their order, by induction on it. -/
theorem Fills.headings_eq {run : List Event} {texts : List String} {children : List Element}
    (filled : Fills run texts children)
    : (Element.listDescendants children).map Element.heading = run.filterMap Event.heading? := by
  induction filled with
  | nil => rfl
  | text _ _ ih | cdata _ ih | aside _ ih => simp [ih, Event.heading?]
  | empty _ read ih =>
      rw [Element.listDescendants_append, Element.listDescendants_singleton, List.map_append, ih,
        Element.map_heading_descendants, List.filterMap_append]
      simp [Event.heading?, read, Except.toOption, Element.listDescendants]
  | enclosed _ read _ before within =>
      rw [Element.listDescendants_append, Element.listDescendants_singleton, List.map_append,
        before, Element.map_heading_descendants, within, List.filterMap_append]
      simp [List.filterMap_cons, Event.heading?, read, Except.toOption]

theorem SpellsDocument.headings_eq {found : List Event} {root : Element}
    (spelled : SpellsDocument found root)
    : root.descendants.map Element.heading = found.filterMap Event.heading? := by
  obtain ⟨before, run, after, rfl, front, element, back⟩ := spelled
  have inside := (Fills.nil.element element).headings_eq
  have none_of {around : List Event} (traceless : ∀ event ∈ around, event.LeavesNoTrace)
      : around.filterMap Event.heading? = [] :=
    List.filterMap_eq_nil_iff.mpr fun event member => (traceless event member).heading?_eq
  rw [List.nil_append, List.nil_append, Element.listDescendants_singleton] at inside
  simp [inside, none_of front, none_of back]

-----------------------------------------------------------------------------------------
-- Depths
-----------------------------------------------------------------------------------------

mutual

/-- The depths of an element and all elements inside it, given its own, in the order of descendants.
-/
def Element.depths (depth : Nat) : Element → List Nat
  | .node _ _ _ children => depth :: Element.listDepths (depth + 1) children

/-- The depths of several elements that lie equally deep and of all elements inside them. -/
def Element.listDepths (depth : Nat) : List Element → List Nat
  | [] => []
  | element :: rest => element.depths depth ++ Element.listDepths depth rest

end

/-- The number of open elements at the tag that starts an element, if the event is one. -/
def Event.startLevels (start : Nat) : Event → List Nat
  | .opening _ | .empty _ => [start]
  | .closing _ | .text _ | .cdata _ | .aside => []

/-- The number of open elements at each tag that starts an element, given the number before all. -/
def startLevels (start : Nat) : List Event → List Nat
  | [] => []
  | event :: rest => event.startLevels start ++ startLevels (event.level start) rest

theorem startLevels_append (start : Nat) (run more : List Event)
    : startLevels start (run ++ more)
      = startLevels start run ++ startLevels (level start run) more := by
  induction run generalizing start with
  | nil => rfl
  | cons event rest ih => simp [startLevels, ih]

theorem Element.listDepths_append (depth : Nat) (ones others : List Element)
    : listDepths depth (ones ++ others) = listDepths depth ones ++ listDepths depth others := by
  induction ones with
  | nil => rfl
  | cons one rest ih => simp [listDepths, ih]

theorem Element.listDepths_singleton (depth : Nat) (element : Element)
    : listDepths depth [element] = element.depths depth := by
  simp [listDepths]

theorem startLevels_of_leavesNoTrace {run : List Event}
    (around : ∀ event ∈ run, event.LeavesNoTrace) (start : Nat)
    : startLevels start run = [] := by
  induction run generalizing start with
  | nil => rfl
  | cons event rest ih =>
      obtain ⟨here, others⟩ := List.forall_mem_cons.mp around
      obtain ⟨content, rfl⟩ | ⟨content, rfl⟩ | rfl := here.eq_text_or_cdata_or_aside <;>
        exact ih others start

/-- What fills an element starts its elements where they lie in the tree, by induction on it. -/
theorem Fills.depths_eq {run : List Event} {texts : List String} {children : List Element}
    (filled : Fills run texts children) (start : Nat)
    : Element.listDepths start children = startLevels start run := by
  induction filled generalizing start with
  | nil => rfl
  | text filled _ ih | cdata filled ih | aside filled ih =>
      simp [ih, startLevels_append, startLevels, Event.startLevels]
  | empty filled _ ih =>
      simp [ih, startLevels_append, startLevels, Event.startLevels, filled.level_eq,
        Element.listDepths_append, Element.listDepths, Element.depths]
  | enclosed filled _ filling before within =>
      simp [before, within, startLevels_append, startLevels, Event.startLevels, Event.level,
        filled.level_eq, Element.listDepths_append, Element.listDepths, Element.depths]

theorem SpellsDocument.depths_eq {found : List Event} {root : Element}
    (spelled : SpellsDocument found root)
    : root.depths 0 = startLevels 0 found := by
  obtain ⟨before, run, after, rfl, front, element, back⟩ := spelled
  have inside := (Fills.nil.element element).depths_eq 0
  rw [List.nil_append, List.nil_append, Element.listDepths_singleton] at inside
  simp [inside, startLevels_append, startLevels_of_leavesNoTrace front,
    startLevels_of_leavesNoTrace back, level_of_leavesNoTrace front]

-----------------------------------------------------------------------------------------
-- Texts
-----------------------------------------------------------------------------------------

/-- The texts that stand directly inside an element, from events inside of it on up to its closing
tag, given how many elements are open inside of it before them.
-/
def directTexts : Nat → List Event → List String
  | _, [] => []
  | depth, .opening _ :: rest => directTexts (depth + 1) rest
  | 0, .closing _ :: _ => []
  | depth + 1, .closing _ :: rest => directTexts depth rest
  | 0, .text content :: rest => (resolve content).toOption.toList ++ directTexts 0 rest
  | 0, .cdata content :: rest => String.ofList content :: directTexts 0 rest
  | depth, _ :: rest => directTexts depth rest

/-- The text of each element that starts in some events. -/
def elementTexts : List Event → List String
  | [] => []
  | .opening _ :: rest => String.join (directTexts 0 rest) :: elementTexts rest
  | .empty _ :: rest => "" :: elementTexts rest
  | .closing _ :: rest | .text _ :: rest | .cdata _ :: rest | .aside :: rest => elementTexts rest

/-- What fills an element inside of another one has no text directly inside of that one. -/
theorem Fills.directTexts_deeper {run : List Event} {texts : List String} {children : List Element}
    (filled : Fills run texts children) (depth : Nat) (more : List Event)
    : directTexts (depth + 1) (run ++ more) = directTexts (depth + 1) more := by
  induction filled generalizing depth more with
  | nil => rfl
  | text _ _ ih | cdata _ ih | aside _ ih | empty _ _ ih => simp [ih, directTexts]
  | enclosed _ _ _ before within => simp [before, within, directTexts]

/-- What fills an element has its texts directly inside of it, by induction on it. -/
theorem Fills.directTexts_eq {run : List Event} {texts : List String} {children : List Element}
    (filled : Fills run texts children) (more : List Event)
    : directTexts 0 (run ++ more) = texts ++ directTexts 0 more := by
  induction filled generalizing more with
  | nil => rfl
  | text _ resolved ih => simp [ih, directTexts, resolved, Except.toOption]
  | cdata _ ih | aside _ ih | empty _ _ ih => simp [ih, directTexts]
  | enclosed _ _ filling before _ => simp [before, filling.directTexts_deeper, directTexts]

theorem Element.map_text_descendants (name text : String) (found : List (String × String))
    (children : List Element)
    : (descendants (.node name found text children)).map Element.text
      = text :: (listDescendants children).map Element.text := by
  rw [descendants, List.map_cons]
  rfl

/-- What fills an element starts elements with their texts, by induction on it. -/
theorem Fills.elementTexts_eq {run : List Event} {texts : List String} {children : List Element}
    (filled : Fills run texts children) (more : List Event)
    : elementTexts (run ++ more)
      = (Element.listDescendants children).map Element.text ++ elementTexts more := by
  induction filled generalizing more with
  | nil => rfl
  | text _ _ ih | cdata _ ih | aside _ ih => simp [ih, elementTexts]
  | empty _ _ ih =>
      simp [ih, elementTexts, Element.listDescendants_append, Element.map_text_descendants,
        Element.listDescendants]
  | enclosed _ _ filling before within =>
      simp [before, within, elementTexts, Element.listDescendants_append,
        Element.listDescendants_singleton, Element.map_text_descendants, filling.directTexts_eq,
        directTexts]

theorem elementTexts_of_leavesNoTrace {run : List Event}
    (around : ∀ event ∈ run, event.LeavesNoTrace) (more : List Event)
    : elementTexts (run ++ more) = elementTexts more := by
  induction run with
  | nil => rfl
  | cons event rest ih =>
      obtain ⟨here, others⟩ := List.forall_mem_cons.mp around
      obtain ⟨content, rfl⟩ | ⟨content, rfl⟩ | rfl := here.eq_text_or_cdata_or_aside <;>
        exact ih others

theorem SpellsDocument.texts_eq {found : List Event} {root : Element}
    (spelled : SpellsDocument found root)
    : root.descendants.map Element.text = elementTexts found := by
  obtain ⟨before, run, after, rfl, front, element, back⟩ := spelled
  have inside := (Fills.nil.element element).elementTexts_eq after
  have behind := elementTexts_of_leavesNoTrace back []
  rw [List.nil_append, List.nil_append, Element.listDescendants_singleton] at inside
  rw [List.append_nil] at behind
  simp [elementTexts_of_leavesNoTrace front, inside, behind, elementTexts]

end Vetting.Markup
