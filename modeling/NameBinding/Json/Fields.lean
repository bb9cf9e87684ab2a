import NameBinding.Json.Basic

/-!
# Reading and writing the fields of an object

The fields of a structure are the entries of an object. A field is read by its key: the key may
stand anywhere, entries with other keys are passed over, and a key that stands twice is refused.
A field is required, optional (left out or null when there is no value) or has a default (left
out, but never null). Scalars are read strictly: an id is an integer of 32 bits without sign, a
character is a string of one code point.
-/

namespace NameBinding.Json

/-- The entries of an object. -/
def entries? : Json → Option (List (String × Json))
  | obj entries => some entries
  | _ => none

/-- A string. -/
def string? : Json → Option String
  | str value => some value
  | _ => none

/-- A truth value. -/
def bool? : Json → Option Bool
  | bool value => some value
  | _ => none

/-- An integer from 0 to 2 ^ 32 - 1. -/
def word? : Json → Option UInt32
  | int value =>
    if 0 ≤ value ∧ value < UInt32.size then some (UInt32.ofNat value.toNat) else none
  | _ => none

/-- An integer from -2 ^ 63 to 2 ^ 63 - 1. -/
def int64? : Json → Option Int64
  | int value =>
    if Int64.minValue.toInt ≤ value ∧ value ≤ Int64.maxValue.toInt then some (Int64.ofInt value)
    else none
  | _ => none

/-- A string of exactly one character. -/
def char? : Json → Option Char
  | str value =>
    match value.toList with
    | [c] => some c
    | _ => none
  | _ => none

/-- An array whose items are all read by `read`. -/
def list? {α : Type} (read : Json → Option α) : Json → Option (List α)
  | arr items => items.mapM read
  | _ => none

/-- The value under a key: `some none` without such an entry, `none` if there are several. -/
def field? (entries : List (String × Json)) (key : String) : Option (Option Json) :=
  match entries.filter (·.1 == key) with
  | [] => some none
  | [(_, value)] => some (some value)
  | _ => none

/-- A field that must be there. -/
def required? {α : Type} (entries : List (String × Json)) (key : String) (read : Json → Option α) :
    Option α :=
  match field? entries key with
  | some (some value) => read value
  | _ => none

/-- A field that is absent when it is left out or null. -/
def optional? {α : Type} (entries : List (String × Json)) (key : String) (read : Json → Option α) :
    Option (Option α) :=
  match field? entries key with
  | some none | some (some null) => some none
  | some (some value) => (read value).map some
  | none => none

/-- A field that has the value `default` when it is left out. -/
def defaulted? {α : Type} (entries : List (String × Json)) (key : String) (default : α)
    (read : Json → Option α) : Option α :=
  match field? entries key with
  | some none => some default
  | some (some value) => read value
  | none => none

/-- Whether every entry has one of the given keys. -/
def onlyKeys (entries : List (String × Json)) (keys : List String) : Bool :=
  entries.all fun entry => keys.contains entry.1

/-- A number of 32 bits. -/
def ofWord (value : UInt32) : Json := int value.toNat

/-- A natural number. -/
def ofNat (value : Nat) : Json := int value

/-- A value that may be missing, with null for none. -/
def ofOption {α : Type} (write : α → Json) : Option α → Json
  | none => null
  | some value => write value

/-- The entry of an optional field, left out when there is no value. -/
def entryOption {α : Type} (key : String) (write : α → Json) : Option α → List (String × Json)
  | none => []
  | some value => [(key, write value)]

end NameBinding.Json
