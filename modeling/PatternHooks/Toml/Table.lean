import PatternHooks.Toml.Value

/-!
Tables under construction. A table may be opened once, and not after a dotted key has added to it;
dotted keys add only to tables that are not opened; values that are written out whole are never
added to.
-/

namespace PatternHooks.Toml

/-- What a table is so far: opened by its header, on the way to others only, or filled by dotted
keys. -/
inductive Standing where
  | opened
  | implied
  | dotted
  deriving DecidableEq

inductive Item where
  | value (v : Value)
  | table (standing : Standing) (members : List (String × Item))
  | rows (tables : List (List (String × Item)))

abbrev Items := List (String × Item)

namespace Items

/-- Changes the item of a key, or adds one at the end. -/
def alter (items : Items) (key : String) (f : Option Item → Option Item) : Option Items :=
  match items with
  | [] => (f none).map fun item => [(key, item)]
  | (k, item) :: rest =>
    if k = key then (f (some item)).map fun item => (k, item) :: rest
    else (alter rest key f).map fun rest => (k, item) :: rest

/-- Changes the table at the end of a path, making those on the way that are missing. A dotted path
does not lead through tables that have been opened, and fills those that it leads through. The last
row stands for its array. -/
def within (dotted : Bool) (f : Standing → Items → Option Items) :
    List String → Standing → Items → Option Items
  | [], standing, items => f standing items
  | key :: path, _, items =>
    items.alter key fun
      | none =>
        let standing := if dotted then .dotted else .implied
        (within dotted f path standing []).map (.table standing)
      | some (.table standing inner) =>
        if dotted && standing = .opened then none
        else
          let after := if dotted then .dotted else standing
          (within dotted f path standing inner).map (.table after)
      | some (.rows tables) =>
        match tables.getLast? with
        | none => none
        | some last =>
          (within dotted f path .opened last).map fun last => .rows (tables.dropLast ++ [last])
      | some (.value _) => none

/-- Gives a key its value. A dotted way does not end in a table that has been opened. -/
def insert (k : Key) (v : Value) : Standing → Items → Option Items :=
  within true (fun standing items =>
    if !k.parents.isEmpty && standing = .opened then none
    else items.alter k.name fun
      | none => some (.value v)
      | some _ => none) k.parents

/-- Opens a table, which may so far have been on the way to others only. -/
def openTable (k : Key) : Items → Option Items :=
  within false (fun _ items => items.alter k.name fun
    | none => some (.table .opened [])
    | some (.table .implied inner) => some (.table .opened inner)
    | some _ => none) k.parents .opened

/-- Adds a row to an array of tables. -/
def addRow (k : Key) : Items → Option Items :=
  within false (fun _ items => items.alter k.name fun
    | none => some (.rows [[]])
    | some (.rows tables) => some (.rows (tables ++ [[]]))
    | some _ => none) k.parents .opened

mutual

def finishItem : Item → Value
  | .value v => v
  | .table _ items => .table (finish items)
  | .rows tables => .list (finishRows tables)

/-- The members of a table that is complete. -/
def finish : List (String × Item) → List (String × Value)
  | [] => []
  | (key, item) :: items => (key, finishItem item) :: finish items

def finishRows : List (List (String × Item)) → List Value
  | [] => []
  | items :: tables => .table (finish items) :: finishRows tables

end

end Items

/-- The table of some pairs. -/
def ofPairs? (pairs : List (Key × Value)) : Option Value :=
  (pairs.foldlM (fun items (k, v) => Items.insert k v .opened items) []).map
    fun items => .table (Items.finish items)

/-- The members of the table that a document stands for. -/
def ofLines? (lines : List Line) : Option (List (String × Value)) :=
  let step (state : List String × Items) (line : Line) : Option (List String × Items) :=
    let (place, items) := state
    match line with
    | .header k => (Items.openTable k items).map (k.parents ++ [k.name], ·)
    | .row k => (Items.addRow k items).map (k.parents ++ [k.name], ·)
    | .pair k v => (Items.within false (Items.insert k v) place .opened items).map (place, ·)
  (lines.foldlM step ([], [])).map fun (_, items) => Items.finish items

end PatternHooks.Toml
