/-! Documents of objects, arrays and scalars. Fields keep the order in which they were written;
whole numbers and other numbers are kept apart. A record is written as an object, in which a known
field may stand once and unknown fields are skipped, or as an array of its fields in their order,
from which the last ones may be missing. -/

namespace Vetting

/-- A document. -/
inductive Json where
  | null
  | bool (value : Bool)
  | int (value : Int)
  | real (value : Float)
  | str (value : String)
  | arr (items : List Json)
  | obj (fields : List (String × Json))
  deriving Inhabited

namespace Json

/-- The value of the last field with a name, as a later field replaces an earlier one. -/
def get? (doc : Json) (name : String) : Option Json :=
  match doc with
  | .obj fields => (fields.reverse.find? fun field => field.1 == name).map Prod.snd
  | _ => none

/-- The value of a field, none when it is missing or null. -/
def field? (doc : Json) (name : String) : Option Json :=
  match doc.get? name with
  | some .null => none
  | found => found

/-- A text. -/
def str? : Json → Option String
  | .str s => some s
  | _ => none

/-- A truth value. -/
def bool? : Json → Option Bool
  | .bool b => some b
  | _ => none

/-- A whole number. -/
def int? : Json → Option Int
  | .int n => some n
  | _ => none

/-- A whole number that is not negative. -/
def nat? : Json → Option Nat
  | .int n => if 0 ≤ n then some n.toNat else none
  | _ => none

/-- A number, whole or not. -/
def number? : Json → Option Float
  | .int n => some (Float.ofInt n)
  | .real x => some x
  | _ => none

/-- The items of an array. -/
def items? : Json → Option (List Json)
  | .arr items => some items
  | _ => none

/-- The fields of an object. -/
def fields? : Json → Option (List (String × Json))
  | .obj fields => some fields
  | _ => none

/-- An array of texts. -/
def strings? (doc : Json) : Option (List String) :=
  doc.items?.bind fun items => items.mapM str?

/-- An array of texts. -/
def ofStrings (texts : List String) : Json :=
  .arr (texts.map .str)

/-- An absent value is null. -/
def ofOption {α : Type} (encode : α → Json) (value : Option α) : Json :=
  (value.map encode).getD .null

/-- How often each known field may be looked up: the field's value when it stands there once, and
nothing when it is missing; fails when it stands there more than once. -/
def fieldOnce? (fields : List (String × Json)) (name : String) : Option (Option Json) :=
  match fields.filter fun field => field.1 == name with
  | [] => some none
  | [field] => some (some field.2)
  | _ => none

/-- The values of the known fields of a record, in their order. -/
def record? (names : List String) : Json → Option (List (Option Json))
  | .obj fields => names.mapM (fieldOnce? fields)
  | .arr items =>
      if items.length ≤ names.length then
        some (items.map some ++ List.replicate (names.length - items.length) none)
      else none
  | _ => none

/-- A record whose fields from `optional` on may be missing. -/
def recordFrom? (required : List String) (optional : List String) (doc : Json) :
    Option (List Json × List (Option Json)) := do
  let values ← record? (required ++ optional) doc
  let needed ← (values.take required.length).mapM id
  return (needed, values.drop required.length)

/-- A value that may be null. -/
def optional? {α : Type} (decode : Json → Option α) : Option Json → Option (Option α)
  | none => some none
  | some .null => some none
  | some value => (decode value).map some

/-- A name out of a list of names, which may also be written as the only field of an object. -/
def unitName? : Json → Option String
  | .str name => some name
  | .obj [(name, .null)] => some name
  | _ => none

end Json

end Vetting
