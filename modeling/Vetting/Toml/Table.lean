import Vetting.Json.Value

/-! Tables while a document is being read. A table is open to more keys as long as it has only been
named on the way to something else; which keys it then takes depends on how it came to be. -/

namespace Vetting.Toml

/-- How a table came to be. -/
inductive Origin where
  /-- It has a header, or it is the whole document. -/
  | header
  /-- A header of a table below it names it. -/
  | above
  /-- A key with dots names it. -/
  | dotted
  deriving DecidableEq, Repr

/-- What a key stands for. -/
inductive Item where
  | value (value : Json)
  | table (origin : Origin) (items : List (String × Item))
  /-- Tables with the same header, the last one first. -/
  | tables (tables : List (List (String × Item)))
  deriving Inhabited

/-- The keys of a table and what they stand for, in their order. -/
abbrev Items := List (String × Item)

namespace Items

/-- What a key stands for. -/
def get? (items : Items) (key : String) : Option Item :=
  (items.find? fun item => item.1 == key).map Prod.snd

/-- Sets what a key stands for. -/
def set (items : Items) (key : String) (item : Item) : Items :=
  if (items.get? key).isSome then
    items.map fun old => if old.1 == key then (key, item) else old
  else items ++ [(key, item)]

/-- Changes the table to which keys lead. Tables that are missing on the way are made, with an
origin. Keys with dots lead through such tables only that have no header; of tables with the same
header they lead to the last one. The change is told the origin of its table. -/
def change (made : Origin) (edit : Origin → Items → Option Items) :
    Origin → List String → Items → Option Items
  | origin, [], items => edit origin items
  | _, key :: rest, items =>
      match items.get? key with
      | none => (change made edit made rest []).map fun inner =>
          items.set key (.table made inner)
      | some (.value _) => none
      | some (.tables []) => none
      | some (.tables (last :: others)) =>
          (change made edit .header rest last).map fun inner =>
            items.set key (.tables (inner :: others))
      | some (.table origin inner) =>
          if made == .dotted && origin == .header then none
          else (change made edit origin rest inner).map fun inner =>
            items.set key (.table origin inner)

/-- Gives a key a value in the table to which a key with dots leads: such keys made that table, and
a key may be given a value once. -/
def add (path : List String) (key : String) (value : Json) (origin : Origin) (items : Items) :
    Option Items :=
  if !path.isEmpty && origin != .dotted then none
  else if (items.get? key).isSome then none
  else some (items.set key (.value value))

/-- Gives a key, which dots may lead to, a value. -/
def assign (path : List String) (key : String) (value : Json) (origin : Origin) (items : Items) :
    Option Items :=
  change .dotted (add path key value) origin path items

/-- Opens the table of a header. -/
def openTable (path : List String) (key : String) (root : Items) : Option Items :=
  change .above (fun _ items =>
    match items.get? key with
    | none => some (items.set key (.table .header []))
    | some (.table .above inner) => some (items.set key (.table .header inner))
    | some _ => none) .header path root

/-- Opens one more of the tables with the same header. -/
def openNext (path : List String) (key : String) (root : Items) : Option Items :=
  change .above (fun _ items =>
    match items.get? key with
    | none => some (items.set key (.tables [[]]))
    | some (.tables tables) => some (items.set key (.tables ([] :: tables)))
    | some _ => none) .header path root

end Items

mutual

/-- The document of what a key stands for. -/
def Item.toJson : Item → Json
  | .value value => value
  | .table _ items => .obj (itemsToJson items)
  | .tables tables => .arr (tablesToJson tables [])

/-- The documents of the keys of a table. -/
def itemsToJson : List (String × Item) → List (String × Json)
  | [] => []
  | (key, item) :: rest => (key, item.toJson) :: itemsToJson rest

/-- The documents of tables, the last one of which is given first. -/
def tablesToJson : List (List (String × Item)) → List Json → List Json
  | [], later => later
  | items :: earlier, later => tablesToJson earlier (.obj (itemsToJson items) :: later)

end

end Vetting.Toml
