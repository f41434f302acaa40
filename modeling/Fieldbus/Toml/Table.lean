import Fieldbus.Toml.Value

/-!
# Assembling tables

Tables come about in three ways: a header defines one, a longer header implies those on its way,
and a dotted key makes those on its way.  No key may be given twice, no header may define a table
twice, and a table that came about in one way cannot be continued in another.
-/

namespace Fieldbus.Toml

/-- How a table came about. -/
inductive Origin where
  /-- It lies on the way of a longer header. -/
  | implied
  /-- It lies on the way of a dotted key. -/
  | dotted
  /-- A header defines it. -/
  | defined
  deriving DecidableEq, Repr

/-- What a key of a growing table holds. -/
inductive Item where
  | leaf (value : Toml)
  | table (origin : Origin) (members : List (String × Item))
  /-- The tables that repeated headers with double brackets define, in order. -/
  | rows (tables : List (List (String × Item)))
  deriving Repr

/-- The members of a growing table. -/
abbrev Members := List (String × Item)

namespace Members

/-- Puts an item under a key, in place of what it held. -/
def put (key : String) (item : Item) : Members → Members
  | [] => [(key, item)]
  | (other, old) :: rest =>
    if key = other then (key, item) :: rest else (other, old) :: put key item rest

/-- Changes the table at the end of a path; tables that the path lacks come about with the origin
`way`.  A path cannot lead through a value, a dotted key not through a defined table; of repeated
tables the last is meant. -/
def update (way : Origin) (change : Origin → Members → Option Members) :
    List String → Origin → Members → Option Members
  | [], origin, members => change origin members
  | key :: path, _, members =>
    match members.lookup key with
    | none =>
      (update way change path way []).map fun inner => put key (.table way inner) members
    | some (.leaf _) => none
    | some (.table origin inner) =>
      if way = .dotted ∧ origin = .defined then none
      else (update way change path origin inner).map fun inner =>
        put key (.table origin inner) members
    | some (.rows tables) =>
      match tables.getLast? with
      | none => none
      | some last => (update way change path .defined last).map fun last =>
        put key (.rows (tables.dropLast ++ [last])) members

/-- Gives a value to a key, which may be dotted. -/
def addEntry (members : Members) (path : List String) (key : String) (value : Toml) :
    Option Members :=
  update .dotted (fun origin inner =>
    if (origin = .dotted) = path.isEmpty then none
    else if (inner.lookup key).isSome then none
    else some (inner ++ [(key, .leaf value)])) path .defined members

/-- A key, whose last part names the value and whose other parts lead to its table, and the
value. -/
structure Entry where
  path : List String
  key : String
  value : Toml

/-- Gives values to keys, one after the other. -/
def addEntries (members : Members) (entries : List Entry) : Option Members :=
  entries.foldlM (fun members entry => addEntry members entry.path entry.key entry.value) members

/-- Adds what stands under the header of a table. -/
def addTable (root : Members) (path : List String) (key : String) (entries : List Entry) :
    Option Members :=
  update .implied (fun _ parent => do
    let start ← match parent.lookup key with
      | none => some []
      | some (.table .implied inner) => some inner
      | some _ => none
    let inner ← addEntries start entries
    return put key (.table .defined inner) parent) path .defined root

/-- Adds what stands under a header with double brackets. -/
def addRow (root : Members) (path : List String) (key : String) (entries : List Entry) :
    Option Members :=
  update .implied (fun _ parent => do
    let tables ← match parent.lookup key with
      | none => some []
      | some (.rows tables) => some tables
      | some _ => none
    let row ← addEntries [] entries
    return put key (.rows (tables ++ [row])) parent) path .defined root

end Members

mutual

/-- The value of a finished item. -/
def Item.value : Item → Toml
  | .leaf value => value
  | .table _ members => .table (Item.values members)
  | .rows tables => .array (Item.rowValues tables)

/-- The values of the members of a finished table. -/
def Item.values : List (String × Item) → List (String × Toml)
  | [] => []
  | (key, item) :: rest => (key, item.value) :: Item.values rest

/-- The values of repeated tables. -/
def Item.rowValues : List (List (String × Item)) → List Toml
  | [] => []
  | members :: rest => .table (Item.values members) :: Item.rowValues rest

end

end Fieldbus.Toml
