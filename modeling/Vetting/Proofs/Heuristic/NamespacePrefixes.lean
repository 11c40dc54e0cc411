import Mathlib.Data.List.Basic
import Vetting.Heuristic.Kinds
import Vetting.Proofs.Markup.Outline
import Vetting.Proofs.Text.Pieces

/-! Layouts under another prefix. Names count by what stands behind their last colon, and identifiers by
the prefixes that are bound somewhere in the tree, so a bound prefix may be replaced by an unused one
throughout a layout. What is written before a colon matters in one place only: `xmlns` makes a key a
declaration, and where it is itself bound, a declaration may be read as an identifier.
-/

namespace Vetting.AndroidLayout

open Text Markup

-----------------------------------------------------------------------------------------
-- Names with a prefix
-----------------------------------------------------------------------------------------

/-- A name is made of two parts around its first colon. -/
structure Splits (name front back : String) : Prop where
  written : name = front ++ ":" ++ back
  plain : ':' ∉ front.toList

variable {name front back value p q : String} {prefixes : List String}

theorem Splits.toList_eq (splits : Splits name front back)
    : name.toList = front.toList ++ ':' :: back.toList := by
  rw [splits.written, String.toList_append, String.toList_append, List.append_assoc]
  rfl

/-- A name with a colon in it has a first one. -/
theorem exists_splits (colon : ':' ∈ name.toList) : ∃ front back, Splits name front back := by
  obtain ⟨front, back, whole, plain⟩ := List.eq_append_cons_of_mem colon
  refine ⟨String.ofList front, String.ofList back, ?_, by rwa [String.toList_ofList]⟩
  rw [← String.toList_inj, whole]
  simp

/-- What stands before the first occurrence of a character is split off. -/
theorem splitOnce?_singleton {c : Char} {front : List Char} (absent : c ∉ front) (back : List Char)
    : splitOnce? [c] (front ++ c :: back) = some (front, back) :=
  (unbordered_singleton c).splitOnce?_eq (List.cons_ne_nil c [])
    (fun stands => absent (stands.subset List.mem_cons_self)) back

theorem splitOnce?_of_not_mem {c : Char} {text : List Char} (absent : c ∉ text)
    : splitOnce? [c] text = none :=
  splitOnce?_none (List.cons_ne_nil c []) fun stands => absent (stands.subset List.mem_cons_self)

theorem afterStart?_eq_some {start : String} {text rest : List Char}
    : afterStart? start text = some rest ↔ text = start.toList ++ rest := by
  rw [afterStart?, startsWith, Option.ite_none_right_eq_some, List.isPrefixOf_iff_prefix]
  constructor
  · rintro ⟨⟨_, rfl⟩, dropped⟩
    obtain rfl := Option.some.inj dropped
    rw [← String.length_toList, List.drop_left]
  · rintro rfl
    exact ⟨List.prefix_append _ _, by rw [← String.length_toList, List.drop_left]⟩

/-- The parts of a name around its first colon are unique. -/
theorem append_colon_inj {one two back rest : List Char} (plain : ':' ∉ one) (other : ':' ∉ two)
    (same : one ++ ':' :: back = two ++ ':' :: rest)
    : one = two ∧ back = rest := by
  have split := congrArg (splitOnce? [':']) same
  rw [splitOnce?_singleton plain, splitOnce?_singleton other] at split
  exact Prod.mk.inj (Option.some.inj split)

theorem Splits.afterStart?_eq (splits : Splits name front back) (plain : ':' ∉ p.toList)
    : afterStart? (p ++ ":") name.toList = if front = p then some back.toList else none := by
  have start : (p ++ ":").toList = p.toList ++ [':'] := String.toList_append
  split
  · rename_i same
    subst same
    rw [afterStart?_eq_some, splits.toList_eq, start]
    simp
  · rename_i other
    rw [Option.eq_none_iff_forall_ne_some]
    intro rest after
    rw [afterStart?_eq_some, splits.toList_eq, start, List.append_assoc] at after
    exact other (String.toList_inj.mp (append_colon_inj splits.plain plain after).1)

/-- The prefix of a name: what stands before its first colon. -/
def qualifier? (name : String) : Option String :=
  (splitOnce? [':'] name.toList).map fun parts => String.ofList parts.1

theorem Splits.qualifier?_eq (splits : Splits name front back) : qualifier? name = some front := by
  rw [qualifier?, splits.toList_eq, splitOnce?_singleton splits.plain]
  simp

theorem Splits.boundPrefix?_eq (splits : Splits name front back)
    : boundPrefix? (name, value)
      = if value = namespaceName ∧ front = "xmlns" then some back else none := by
  have after := splits.afterStart?_eq (p := "xmlns") (by decide)
  rw [show "xmlns" ++ ":" = "xmlns:" by rfl] at after
  rw [boundPrefix?, after]
  by_cases bound : value = namespaceName <;> by_cases declares : front = "xmlns" <;>
    simp [bound, declares]

theorem Splits.identifier?_eq (splits : Splits name front back)
    : identifier? prefixes (name, value)
      = if back = "id" ∧ front ∈ prefixes then some value else none := by
  rw [identifier?, splits.toList_eq, splitOnce?_singleton splits.plain]
  simp

theorem boundPrefix?_of_not_mem (colonless : ':' ∉ name.toList)
    : boundPrefix? (name, value) = none := by
  have other : afterStart? "xmlns:" name.toList = none := by
    rw [Option.eq_none_iff_forall_ne_some]
    intro rest after
    rw [afterStart?_eq_some] at after
    exact colonless (after ▸ by simp)
  rw [boundPrefix?, other]
  split <;> rfl

theorem identifier?_of_not_mem (colonless : ':' ∉ name.toList)
    : identifier? prefixes (name, value) = none := by
  rw [identifier?, splitOnce?_of_not_mem colonless]
  rfl

-----------------------------------------------------------------------------------------
-- Replacing a prefix
-----------------------------------------------------------------------------------------

/-- A prefix, or the one in its place. -/
def replaced (p q front : String) : String :=
  if front = p then q else front

/-- A name with one prefix in place of another. -/
def renamed (p q name : String) : String :=
  match afterStart? (p ++ ":") name.toList with
  | some rest => q ++ ":" ++ String.ofList rest
  | none => name

/-- The key of an attribute with one prefix in place of another, also where that is declared. -/
def renamedKey (p q key : String) : String :=
  if key == "xmlns:" ++ p then "xmlns:" ++ q else renamed p q key

mutual

/-- An element with one prefix in place of another. -/
def renamedElement (p q : String) : Element → Element
  | .node name attributes text children =>
      .node (renamed p q name) (attributes.map fun pair => (renamedKey p q pair.1, pair.2)) text
        (renamedElements p q children)

/-- Several elements with one prefix in place of another. -/
def renamedElements (p q : String) : List Element → List Element
  | [] => []
  | e :: rest => renamedElement p q e :: renamedElements p q rest

end

theorem Splits.renamed (splits : Splits name front back) (plain : ':' ∉ p.toList)
    (plain' : ':' ∉ q.toList)
    : Splits (renamed p q name) (replaced p q front) back := by
  rw [AndroidLayout.renamed, splits.afterStart?_eq plain, replaced]
  by_cases same : front = p
  · rw [if_pos same, if_pos same]
    exact ⟨by simp, plain'⟩
  · rw [if_neg same, if_neg same]
    exact splits

theorem renamed_of_not_mem (colonless : ':' ∉ name.toList) : renamed p q name = name := by
  have other : afterStart? (p ++ ":") name.toList = none := by
    rw [Option.eq_none_iff_forall_ne_some]
    intro rest after
    rw [afterStart?_eq_some, String.toList_append] at after
    exact colonless (after ▸ by simp)
  rw [renamed, other]

/-- A key that declares the prefix declares the new one, and any other is renamed like a name. -/
theorem Splits.renamedKey (splits : Splits name front back) (plain : ':' ∉ p.toList)
    (plain' : ':' ∉ q.toList)
    : if front = "xmlns" ∧ back = p then Splits (renamedKey p q name) "xmlns" q
      else Splits (renamedKey p q name) (replaced p q front) back := by
  have start : "xmlns:" ++ p = "xmlns" ++ ":" ++ p := by
    rw [show "xmlns" ++ ":" = "xmlns:" by rfl]
  have declares : name = "xmlns:" ++ p ↔ front = "xmlns" ∧ back = p := by
    constructor
    · intro same
      have declared : Splits name "xmlns" p := ⟨same.trans start, by decide⟩
      obtain ⟨first, second⟩ := append_colon_inj splits.plain declared.plain
        (splits.toList_eq.symm.trans declared.toList_eq)
      exact ⟨String.toList_inj.mp first, String.toList_inj.mp second⟩
    · rintro ⟨rfl, rfl⟩
      exact splits.written.trans start.symm
  split
  · rename_i declared
    rw [AndroidLayout.renamedKey, if_pos (beq_iff_eq.mpr (declares.mpr declared))]
    exact ⟨by rw [show "xmlns" ++ ":" = "xmlns:" by rfl], by decide⟩
  · rename_i other
    rw [AndroidLayout.renamedKey, if_neg (mt (declares.mp ∘ beq_iff_eq.mp) other)]
    exact splits.renamed plain plain'

theorem renamedKey_of_not_mem (colonless : ':' ∉ name.toList) : renamedKey p q name = name := by
  rw [renamedKey, if_neg, renamed_of_not_mem colonless]
  intro same
  rw [beq_iff_eq] at same
  exact colonless (same ▸ by simp)

-----------------------------------------------------------------------------------------
-- Bound prefixes and identifiers
-----------------------------------------------------------------------------------------

/-- A prefix can be replaced by another in some elements: both are without colons, one of the elements
binds it to the namespace of Android, and no key has the other one.
-/
structure Replaceable (p q : String) (elements : List Element) : Prop where
  plain : ':' ∉ p.toList
  plain' : ':' ∉ q.toList
  bound : p ∈ boundPrefixes elements
  unused : ∀ e ∈ elements, ∀ pair ∈ e.attributes, qualifier? pair.1 ≠ some q

/-- Neither the prefix of declarations is replaced, nor, where it is bound itself, is a declaration read
as an identifier.
-/
structure Unreserved (p q : String) (elements : List Element) : Prop where
  declares : p ≠ "xmlns"
  identifies : "xmlns" ∈ boundPrefixes elements → p ≠ "id" ∧ q ≠ "id"

variable {elements : List Element}

theorem mem_boundPrefixes
    : p ∈ boundPrefixes elements
      ↔ ∃ e ∈ elements, ∃ pair ∈ e.attributes, boundPrefix? pair = some p := by
  simp [boundPrefixes]

/-- The prefix of declarations is in use, since one of them binds the prefix. -/
theorem Replaceable.ne_xmlns (replaceable : Replaceable p q elements) : q ≠ "xmlns" := by
  obtain ⟨e, listed, ⟨key, value⟩, member, binds⟩ := mem_boundPrefixes.mp replaceable.bound
  rintro rfl
  by_cases colon : ':' ∈ key.toList
  · obtain ⟨front, back, splits⟩ := exists_splits colon
    rw [splits.boundPrefix?_eq, Option.ite_none_right_eq_some] at binds
    exact replaceable.unused e listed _ member (binds.1.2 ▸ splits.qualifier?_eq)
  · rw [boundPrefix?_of_not_mem colon] at binds
    cases binds

/-- A renamed key binds the new prefix where the key binds the old one. -/
theorem boundPrefix?_renamed (plain : ':' ∉ p.toList) (plain' : ':' ∉ q.toList)
    (other : p ≠ "xmlns") (other' : q ≠ "xmlns")
    : boundPrefix? (renamedKey p q name, value) = (boundPrefix? (name, value)).map (replaced p q) := by
  by_cases colon : ':' ∈ name.toList
  · obtain ⟨front, back, splits⟩ := exists_splits colon
    have parts := splits.renamedKey plain plain'
    rw [splits.boundPrefix?_eq]
    by_cases declares : front = "xmlns"
    · by_cases same : back = p
      · rw [if_pos ⟨declares, same⟩] at parts
        rw [parts.boundPrefix?_eq]
        by_cases bound : value = namespaceName <;> simp [bound, declares, same, replaced]
      · rw [if_neg (same ·.2), replaced, if_neg (declares ▸ Ne.symm other)] at parts
        rw [parts.boundPrefix?_eq]
        by_cases bound : value = namespaceName <;> simp [bound, declares, same, replaced]
    · rw [if_neg (declares ·.1)] at parts
      have apart : replaced p q front ≠ "xmlns" := by
        unfold replaced
        split
        · exact other'
        · exact declares
      rw [parts.boundPrefix?_eq]
      simp [declares, apart]
  · rw [renamedKey_of_not_mem colon, boundPrefix?_of_not_mem colon]
    rfl

/-- A prefix in use is bound after the replacement exactly when the old one was. -/
theorem Replaceable.mem_map_replaced (replaceable : Replaceable p q elements) (unused : front ≠ q)
    : replaced p q front ∈ "android" :: (boundPrefixes elements).map (replaced p q)
      ↔ front ∈ "android" :: boundPrefixes elements := by
  rw [List.mem_cons, List.mem_cons, List.mem_map]
  by_cases same : front = p
  · subst same
    exact iff_of_true (.inr ⟨front, replaceable.bound, rfl⟩) (.inr replaceable.bound)
  · rw [replaced, if_neg same]
    refine or_congr_right ⟨?_, fun bound => ⟨front, bound, if_neg same⟩⟩
    rintro ⟨x, bound, image⟩
    unfold replaced at image
    split at image
    · exact absurd image.symm unused
    · exact image ▸ bound

theorem identifier?_renamed (replaceable : Replaceable p q elements)
    (unreserved : Unreserved p q elements) (unused : qualifier? name ≠ some q)
    : identifier? ("android" :: (boundPrefixes elements).map (replaced p q))
        (renamedKey p q name, value)
      = identifier? ("android" :: boundPrefixes elements) (name, value) := by
  by_cases colon : ':' ∈ name.toList
  · obtain ⟨front, back, splits⟩ := exists_splits colon
    have parts := splits.renamedKey replaceable.plain replaceable.plain'
    rw [splits.qualifier?_eq] at unused
    have used : front ≠ q := fun same => unused (congrArg some same)
    have bound_iff := replaceable.mem_map_replaced used
    rw [splits.identifier?_eq]
    split at parts
    · -- A declaration of the prefix is an identifier neither before nor after.
      rename_i declared
      obtain ⟨rfl, rfl⟩ := declared
      rw [replaced, if_neg (Ne.symm unreserved.declares)] at bound_iff
      rw [parts.identifier?_eq]
      refine if_congr ?_ rfl rfl
      rw [bound_iff]
      refine and_congr_left fun bound => ?_
      have named := unreserved.identifies (by simpa using bound)
      exact iff_of_false named.2 named.1
    · rw [parts.identifier?_eq]
      exact if_congr (and_congr_right fun _ => bound_iff) rfl rfl
  · rw [renamedKey_of_not_mem colon, identifier?_of_not_mem colon, identifier?_of_not_mem colon]

-----------------------------------------------------------------------------------------
-- Renamed layouts
-----------------------------------------------------------------------------------------

theorem name_renamedElement (p q : String) (e : Element)
    : (renamedElement p q e).name = renamed p q e.name := by
  cases e
  rfl

theorem attributes_renamedElement (p q : String) (e : Element)
    : (renamedElement p q e).attributes
      = e.attributes.map fun pair => (renamedKey p q pair.1, pair.2) := by
  cases e
  rfl

mutual

/-- The elements of a renamed tree are those of the tree, renamed. -/
theorem descendants_renamedElement (p q : String) (e : Element)
    : (renamedElement p q e).descendants = e.descendants.map (renamedElement p q) := by
  cases e with
  | node name attributes text children =>
      rw [renamedElement, Element.descendants, Element.descendants, List.map_cons, renamedElement,
        listDescendants_renamedElements p q children]

theorem listDescendants_renamedElements (p q : String) (es : List Element)
    : Element.listDescendants (renamedElements p q es)
      = (Element.listDescendants es).map (renamedElement p q) := by
  cases es with
  | nil => rfl
  | cons e rest =>
      rw [renamedElements, Element.listDescendants, Element.listDescendants, List.map_append,
        descendants_renamedElement p q e, listDescendants_renamedElements p q rest]

end

/-- The part of a name behind its last colon does not depend on what is before the first one. -/
theorem localPart_renamed (plain : ':' ∉ p.toList) (plain' : ':' ∉ q.toList)
    : Element.localPart (renamed p q name) = Element.localPart name := by
  by_cases colon : ':' ∈ name.toList
  · obtain ⟨front, back, splits⟩ := exists_splits colon
    have parts := splits.renamed plain plain'
    have pieces : splitChar ':' back.toList ≠ [] := by
      rw [splitChar_eq]
      exact List.splitOn_ne_nil _ _
    simp only [Element.localPart, splits.toList_eq, parts.toList_eq, splitChar_append splits.plain,
      splitChar_append parts.plain, List.getLastD_eq_getLast?, List.getLast?_cons_of_ne_nil pieces]
  · rw [renamed_of_not_mem colon]

theorem shortName_renamedElement (plain : ':' ∉ p.toList) (plain' : ':' ∉ q.toList) (e : Element)
    : shortName (renamedElement p q e) = shortName e := by
  rw [shortName, shortName, Element.localName, Element.localName, name_renamedElement,
    localPart_renamed plain plain']

theorem boundPrefixes_renamed (plain : ':' ∉ p.toList) (plain' : ':' ∉ q.toList)
    (other : p ≠ "xmlns") (other' : q ≠ "xmlns") (elements : List Element)
    : boundPrefixes (elements.map (renamedElement p q))
      = (boundPrefixes elements).map (replaced p q) := by
  rw [boundPrefixes, boundPrefixes, List.flatMap_map, List.map_flatMap]
  refine congrArg (List.flatMap · elements) (funext fun e => ?_)
  rw [attributes_renamedElement, List.filterMap_map, List.map_filterMap]
  refine congrArg (List.filterMap · e.attributes) (funext fun pair => ?_)
  exact boundPrefix?_renamed plain plain' other other'

theorem identifiers_renamed (replaceable : Replaceable p q elements)
    (unreserved : Unreserved p q elements)
    : identifiers (elements.map (renamedElement p q)) = identifiers elements := by
  rw [identifiers, identifiers, boundPrefixes_renamed replaceable.plain replaceable.plain'
    unreserved.declares replaceable.ne_xmlns, List.filterMap_map]
  refine List.filterMap_congr fun e listed => ?_
  rw [Function.comp, attributes_renamedElement, ← List.head?_filterMap, ← List.head?_filterMap,
    List.filterMap_map]
  refine congrArg List.head? (List.filterMap_congr fun pair member => ?_)
  exact identifier?_renamed replaceable unreserved (replaceable.unused e listed pair member)

theorem assessTree_renamed {root : Element} (replaceable : Replaceable p q root.descendants)
    (unreserved : Unreserved p q root.descendants)
    : assessTree (renamedElement p q root) = assessTree root := by
  have short := shortName_renamedElement replaceable.plain replaceable.plain'
  have bound := boundPrefixes_renamed replaceable.plain replaceable.plain' unreserved.declares
    replaceable.ne_xmlns [root]
  have shown : ((root.descendants.map (renamedElement p q)).filter fun e =>
      widgets.contains (shortName e))
        = (root.descendants.filter fun e => widgets.contains (shortName e)).map
          (renamedElement p q) := by
    rw [List.filter_map]
    simp only [Function.comp_def, short]
  rw [List.map_singleton] at bound
  simp only [assessTree, descendants_renamedElement, identifiers_renamed replaceable unreserved, short,
    shown, bound, List.isEmpty_map, List.length_map]

/-- A layout is assessed alike when a prefix that it binds is replaced by one that it does not use,
unless the prefix of declarations is concerned; so texts of both trees have the same verdict at every
threshold.
-/
theorem replaced_prefix_unseen {root : Element} (replaceable : Replaceable p q root.descendants)
    (unreserved : Unreserved p q root.descendants)
    : assessTree (renamedElement p q root) = assessTree root
      ∧ ∀ content other,
          parse content = .ok root
          → parse other = .ok (renamedElement p q root)
          → ∀ (R : Type) [Scale R] (acceptAt : R),
            ArtifactKind.androidLayout.heuristic acceptAt other
              = ArtifactKind.androidLayout.heuristic acceptAt content := by
  have alike := assessTree_renamed replaceable unreserved
  refine ⟨alike, ?_⟩
  intro content other read read' R _ acceptAt
  simp only [ArtifactKind.heuristic, ArtifactKind.assess, assess, read, read', alike]

/-- A layout whose prefix gives way to that which is always looked for. -/
def reboundLayout : Element :=
  .node "a.b.LinearLayout" [("xmlns:a", namespaceName), ("xmlns:app", "app")] ""
    [.node "a:Button" [("app:id", "no"), ("a:id", "@+id/go")] "" [],
      .node "TextView" [("id", "x"), ("a:id", "label")] "" []]

theorem replaced_prefix_unseen_rebound
    : Replaceable "a" "android" reboundLayout.descendants
      ∧ Unreserved "a" "android" reboundLayout.descendants
      ∧ identifiers (renamedElement "a" "android" reboundLayout).descendants = ["@+id/go", "label"]
      ∧ assessTree (renamedElement "a" "android" reboundLayout) = assessTree reboundLayout := by
  have replaceable : Replaceable "a" "android" reboundLayout.descendants :=
    ⟨by decide, by decide, by decide +kernel, by decide +kernel⟩
  have unreserved : Unreserved "a" "android" reboundLayout.descendants :=
    ⟨by decide, by decide +kernel⟩
  exact ⟨replaceable, unreserved, by decide +kernel,
    (replaced_prefix_unseen replaceable unreserved).1⟩

/-- A layout that binds the prefix of declarations and another one. -/
def reservedLayout (name : String) : Element :=
  .node "LinearLayout" [("xmlns:xmlns", namespaceName), ("xmlns:" ++ name, namespaceName)] ""
    [.node "Button" [(name ++ ":id", "@+id/go")] "" []]

/-- Where the prefix of declarations is bound, a declaration may be an identifier under one name and
none under another; and where it is itself replaced, other declarations are lost.
-/
theorem replaced_reserved_prefix_seen
    : Replaceable "id" "x" (reservedLayout "id").descendants
      ∧ identifiers (reservedLayout "id").descendants = [namespaceName, "@+id/go"]
      ∧ identifiers (renamedElement "id" "x" (reservedLayout "id")).descendants = ["@+id/go"]
      ∧ assessTree (renamedElement "id" "x" (reservedLayout "id"))
        ≠ assessTree (reservedLayout "id")
      ∧ Replaceable "xmlns" "x" (reservedLayout "a").descendants
      ∧ identifiers (reservedLayout "a").descendants = ["@+id/go"]
      ∧ identifiers (renamedElement "xmlns" "x" (reservedLayout "a")).descendants = []
      ∧ assessTree (renamedElement "xmlns" "x" (reservedLayout "a"))
        ≠ assessTree (reservedLayout "a") := by
  refine ⟨⟨?_, ?_, ?_, ?_⟩, ?_, ?_, ?_, ⟨?_, ?_, ?_, ?_⟩, ?_, ?_, ?_⟩ <;> decide +kernel

end Vetting.AndroidLayout
