/-!
# JSON values

The values that units, options and reports are exchanged as. Numbers keep apart the integers,
which ids, offsets and integer literals are made of, from all other numbers, which no field
accepts. The entries of an object are kept in the order in which they were written, and a key
may occur in them more than once.
-/

namespace NameBinding

/-- A JSON value. -/
inductive Json where
  | null
  | bool (value : Bool)
  /-- A number written with digits alone, minus zero apart. -/
  | int (value : Int)
  /-- Any other number, in the digits it was written with. -/
  | decimal (digits : String)
  | str (value : String)
  | arr (items : List Json)
  | obj (entries : List (String × Json))

namespace Json

mutual

/-- Number of levels of nesting; a value that holds no other has depth 1. -/
def depth : Json → Nat
  | arr items => depthAll items + 1
  | obj entries => depthEntries entries + 1
  | _ => 1

/-- The greatest depth among several values. -/
def depthAll : List Json → Nat
  | [] => 0
  | item :: rest => max item.depth (depthAll rest)

/-- The greatest depth among the values of an object. -/
def depthEntries : List (String × Json) → Nat
  | [] => 0
  | (_, value) :: rest => max value.depth (depthEntries rest)

end

/-- The last of the entries with each key, in order. -/
def lastEntries : List (String × Json) → List (String × Json)
  | [] => []
  | (key, value) :: rest =>
    if rest.any (·.1 == key) then lastEntries rest else (key, value) :: lastEntries rest

mutual

/-- The value in which the last entry with a key stands for all of them, at every level. -/
def distinct : Json → Json
  | arr items => arr (distinctAll items)
  | obj entries => obj (lastEntries (distinctEntries entries))
  | value => value

/-- `distinct` for several values. -/
def distinctAll : List Json → List Json
  | [] => []
  | item :: rest => item.distinct :: distinctAll rest

/-- `distinct` for the values of an object. -/
def distinctEntries : List (String × Json) → List (String × Json)
  | [] => []
  | (key, value) :: rest => (key, value.distinct) :: distinctEntries rest

end

mutual

/-- The value with the entries of every object in the order of their keys. -/
def inKeyOrder : Json → Json
  | arr items => arr (inKeyOrderAll items)
  | obj entries => obj ((inKeyOrderEntries entries).mergeSort fun a b => a.1 ≤ b.1)
  | value => value

/-- `inKeyOrder` for several values. -/
def inKeyOrderAll : List Json → List Json
  | [] => []
  | item :: rest => item.inKeyOrder :: inKeyOrderAll rest

/-- `inKeyOrder` for the values of an object. -/
def inKeyOrderEntries : List (String × Json) → List (String × Json)
  | [] => []
  | (key, value) :: rest => (key, value.inKeyOrder) :: inKeyOrderEntries rest

end

end Json

end NameBinding
