import Vetting.Proofs.Markup.Tree

/-! What surrounds the root of a document. A draft has as many open elements as the events so far have
left open, so what stands outside of all elements meets a draft without open ones. Text there is blank
in every document that is read. Text without references is passed over there, whatever it is, so it
alone can bring anything but blanks to the surroundings of a root.
-/

namespace Vetting.Markup

open Text

variable {found before after : List Event} {event : Event} {content : List Char} {root : Element}

-----------------------------------------------------------------------------------------
-- Open elements
-----------------------------------------------------------------------------------------

namespace Draft

variable {draft next : Draft} {element : Element}

theorem length_opened_attach (attached : draft.attach element = .ok next)
    : next.opened.length = draft.opened.length := by
  obtain ⟨_ | ⟨parent, outer⟩, root⟩ := draft
  · simp only [attach] at attached
    split at attached
    · obtain rfl := Except.ok.inj attached
      rfl
    · cases attached
  · obtain rfl := Except.ok.inj attached
    rfl

theorem length_opened_addText (draft : Draft) (text : String)
    : (draft.addText text).opened.length = draft.opened.length := by
  obtain ⟨_ | ⟨top, outer⟩, root⟩ := draft <;> rfl

/-- An event that is taken in opens and closes as many elements as its level tells, by cases on it. -/
theorem length_opened_add (added : draft.add event = .ok next)
    : next.opened.length = event.level draft.opened.length := by
  cases event with
  | opening tag =>
      obtain ⟨_, _, _, rfl⟩ := add_opening_eq_ok.mp added
      rfl
  | empty tag =>
      obtain ⟨_, _, attached⟩ := Except.bind_eq_ok.mp added
      exact length_opened_attach attached
  | closing name =>
      obtain ⟨_ | ⟨top, outer⟩, root⟩ := draft
      · cases added
      · obtain ⟨_, attached⟩ := add_closing_eq_ok.mp added
        exact length_opened_attach attached
  | text content =>
      obtain ⟨text, _, _, rfl⟩ := add_text_eq_ok.mp added
      exact length_opened_addText draft text
  | cdata content =>
      obtain rfl := Except.ok.inj added
      exact length_opened_addText draft _
  | aside =>
      obtain rfl := Except.ok.inj added
      rfl

/-- So do several events that are taken in, by induction on them. -/
theorem length_opened_foldlM (taken : found.foldlM add draft = .ok next)
    : next.opened.length = level draft.opened.length found := by
  induction found generalizing draft with
  | nil =>
      obtain rfl := Except.ok.inj taken
      rfl
  | cons event rest ih =>
      rw [List.foldlM_cons] at taken
      obtain ⟨between, added, onward⟩ := Except.bind_eq_ok.mp taken
      rw [ih onward, length_opened_add added, level_cons]

end Draft

/-- What is taken in before something outside of all elements leaves none open. -/
theorem opened_eq_nil {draft : Draft} (taken : ofEvents before = .ok draft)
    (outside : level 0 before = 0)
    : draft.opened = [] :=
  List.length_eq_zero_iff.mp ((Draft.length_opened_foldlM taken).trans outside)

-----------------------------------------------------------------------------------------
-- Outside of all elements
-----------------------------------------------------------------------------------------

/-- The characters that an event stands for: those of a text with its references resolved, or of one
without references.
-/
def Event.data? : Event → Option String
  | .text content => (resolve content).toOption
  | .cdata content => some (String.ofList content)
  | .opening _ | .empty _ | .closing _ | .aside => none

/-- An event stands among others where no element is open. -/
def StandsOutside (found : List Event) (event : Event) : Prop :=
  ∃ before after, found = before ++ event :: after ∧ level 0 before = 0

/-- Text outside of all elements is blank when there is a tree. -/
theorem blank_of_standsOutside (built : tree found = .ok root)
    (stands : StandsOutside found (.text content))
    : ∃ text, resolve content = .ok text ∧ allBlank text.toList = true := by
  obtain ⟨before, after, rfl, outside⟩ := stands
  obtain ⟨draft, taken, _⟩ := Except.bind_eq_ok.mp built
  rw [ofEvents, List.foldlM_append] at taken
  obtain ⟨between, front, onward⟩ := Except.bind_eq_ok.mp taken
  rw [List.foldlM_cons] at onward
  obtain ⟨_, added, _⟩ := Except.bind_eq_ok.mp onward
  obtain ⟨text, resolved, loose, _⟩ := Draft.add_text_eq_ok.mp added
  exact ⟨text, resolved, loose (opened_eq_nil front outside)⟩

/-- Text without references leaves the tree as it is outside of all elements. -/
theorem tree_cdata_outside (content : List Char) (after : List Event) (outside : level 0 before = 0)
    : tree (before ++ .cdata content :: after) = tree (before ++ after) := by
  simp only [tree, ofEvents, List.foldlM_append, List.foldlM_cons]
  cases taken : before.foldlM Draft.add ⟨[], none⟩ with
  | error fault => rfl
  | ok draft =>
      obtain ⟨opened, root⟩ := draft
      obtain rfl : opened = [] := opened_eq_nil taken outside
      rfl

theorem parse_eq_ok_iff {text : List Char}
    : parse text = .ok root ↔ (events text).2 = none ∧ tree (events text).1 = .ok root := by
  simp only [parse, tree]
  generalize events text = read
  obtain ⟨found, stopped⟩ := read
  cases built : ofEvents found with
  | error fault => simp [bind, Except.bind]
  | ok draft => cases stopped <;> simp [bind, Except.bind]

/-- In a document that is read, text outside of the root is blank. All characters outside of it are
blank exactly when those of all sections without references are; these are not looked at, so each of
them may be left out without a change to the tree.
-/
theorem surroundings_blank_iff {text : List Char} (read : parse text = .ok root)
    : (∀ content,
        StandsOutside (events text).1 (.text content)
        → ∃ data, resolve content = .ok data ∧ allBlank data.toList = true)
      ∧ ((∀ event data,
          StandsOutside (events text).1 event
          → event.data? = some data
          → allBlank data.toList = true)
        ↔ ∀ content,
          StandsOutside (events text).1 (.cdata content)
          → allBlank content = true)
      ∧ ∀ before content after,
          (events text).1 = before ++ .cdata content :: after
          → level 0 before = 0
          → tree (before ++ after) = .ok root := by
  obtain ⟨_, built⟩ := parse_eq_ok_iff.mp read
  refine ⟨fun content => blank_of_standsOutside built, ⟨?_, ?_⟩, ?_⟩
  · intro blank content stands
    have data := blank (.cdata content) _ stands rfl
    rwa [String.toList_ofList] at data
  · intro blank event data stands bears
    cases event with
    | opening | empty | closing | aside => cases bears
    | text content =>
        obtain ⟨text, resolved, loose⟩ := blank_of_standsOutside built stands
        rw [Event.data?, resolved] at bears
        obtain rfl := Option.some.inj bears
        exact loose
    | cdata content =>
        obtain rfl := Option.some.inj bears
        rw [String.toList_ofList]
        exact blank content stands
  · intro before content after split outside
    rw [split, tree_cdata_outside content after outside] at built
    exact built

/-- A root between blank text, a comment and a section without references. -/
def surroundedRoot : List Char := "<!--v1--> \n<a>x</a>&#32;<![CDATA[ \t]]>\n".toList

theorem surroundings_blank_iff_surrounded
    : ∃ root,
        parse surroundedRoot = .ok root
        ∧ ∀ event data,
          StandsOutside (events surroundedRoot).1 event
          → event.data? = some data
          → allBlank data.toList = true := by
  have found : events surroundedRoot
      = ([.aside, .text [' ', '\n'], .opening ['a'], .text ['x'], .closing ['a'],
          .text "&#32;".toList, .cdata [' ', '\t'], .text ['\n']], none) := by
    decide +kernel
  have read : ∃ root, parse surroundedRoot = .ok root := by
    rw [parse, found]
    exact ⟨_, rfl⟩
  obtain ⟨root, read⟩ := read
  refine ⟨root, read, (surroundings_blank_iff read).2.1.mpr ?_⟩
  rintro content ⟨before, after, split, _⟩
  obtain ⟨_, rfl, _⟩ := by simpa [found, List.cons_eq_append_iff] using split
  decide

/-- A section without references behind the root may hold anything, whereas the same as text is refused.
-/
theorem unread_behind_root
    : ∃ root,
        parse "<a/><![CDATA[junk]]>".toList = .ok root
        ∧ StandsOutside (events "<a/><![CDATA[junk]]>".toList).1 (.cdata "junk".toList)
        ∧ allBlank "junk".toList = false
        ∧ parse "<a/>junk".toList = .error .textOutside := by
  have found : events "<a/><![CDATA[junk]]>".toList
      = ([.empty ['a'], .cdata "junk".toList], none) := by
    decide +kernel
  refine ⟨.node "a" [] "" [], ?_, ?_, by decide, by rfl⟩
  · rw [parse, found]
    rfl
  · rw [found]
    exact ⟨[.empty ['a']], [], rfl, rfl⟩

end Vetting.Markup
