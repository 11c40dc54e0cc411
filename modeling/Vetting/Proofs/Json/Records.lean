import Vetting.Json.Value
import Vetting.Proofs.Results

/-! What a document says of the fields of a record. It is a table in which a field stands once or not at
all, or an array of the fields in their order, from which the last ones may be missing.
-/

namespace Vetting.Json

/-- What a record with some fields says of one of them: in a table its only value, in an array the one in
its place.
-/
inductive Holds (names : List String) (name : String) : Json → Option Json → Prop
  | missing {fields : List (String × Json)} (absent : ∀ field ∈ fields, field.1 ≠ name)
    : Holds names name (.obj fields) none
  | entry {before after : List (String × Json)} {value : Json}
    (once : ∀ field ∈ before ++ after, field.1 ≠ name)
    : Holds names name (.obj (before ++ (name, value) :: after)) (some value)
  | item {items : List Json} {place : Nat} (stands : names[place]? = some name)
    : Holds names name (.arr items) items[place]?

variable {names : List String} {name : String} {value : Option Json} {doc : Json}

theorem strings?_eq_some_iff {texts : List String}
    : doc.strings? = some texts ↔ doc = ofStrings texts := by
  cases doc with
  | arr items =>
      have each (item : Json) (text : String) : item.str? = some text ↔ item = .str text := by
        cases item <;> simp [str?]
      simp only [strings?, items?, Option.bind_some, Option.mapM_eq_some, each, ofStrings, arr.injEq]
      rw [← List.forall₂_eq_eq_eq, List.forall₂_map_right_iff]
  | _ => simp [strings?, items?, ofStrings]

end Vetting.Json
