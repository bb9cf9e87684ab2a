import NameBinding.Json.Basic

/-!
# Tables addressed by dotted keys

A configuration text builds one table step by step: an assignment adds a value under a dotted
key, a header opens a table or adds a table to an array of tables. A path that leads through an
array of tables goes on in the last of them. Nothing is ever assigned twice.
-/

namespace NameBinding.Toml

/-- The entries of a table. -/
abbrev Table := List (String × Json)

/-- The value under a key. -/
def Table.find? (table : Table) (key : String) : Option Json :=
  (List.find? (fun entry => entry.1 == key) table).map (·.2)

/-- Sets the value under a key. -/
def Table.set (table : Table) (key : String) (value : Json) : Table :=
  if table.any (·.1 == key) then
    table.map fun entry => if entry.1 == key then (key, value) else entry
  else table ++ [(key, value)]

/-- Changes what stands at the end of a path, opening tables on the way. -/
def Table.update? (change : Option Json → Option Json) : List String → Table → Option Table
  | [], _ => none
  | [key], table => (change (table.find? key)).map (table.set key)
  | key :: path, table =>
    match table.find? key with
    | none => (update? change path []).map fun inner => table.set key (.obj inner)
    | some (.obj inner) => (update? change path inner).map fun inner => table.set key (.obj inner)
    | some (.arr items) =>
      match items.getLast? with
      | some (.obj inner) =>
        (update? change path inner).map fun inner =>
          table.set key (.arr (items.dropLast ++ [.obj inner]))
      | _ => none
    | some _ => none

/-- Adds a value where there is none. -/
def Table.assign? (table : Table) (path : List String) (value : Json) : Option Table :=
  table.update? (fun old => if old.isSome then none else some value) path

/-- Opens a table; one that assignments have opened before stays as it is. -/
def Table.open? (table : Table) (path : List String) : Option Table :=
  table.update? (fun
    | none => some (.obj [])
    | some (.obj inner) => some (.obj inner)
    | some _ => none) path

/-- Adds an empty table to an array of tables. -/
def Table.append? (table : Table) (path : List String) : Option Table :=
  table.update? (fun
    | none => some (.arr [.obj []])
    | some (.arr items) => some (.arr (items ++ [.obj []]))
    | some _ => none) path

end NameBinding.Toml
