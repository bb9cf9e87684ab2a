import NameBinding.Json.Fields

/-!
# Reading back written fields

A written object is a list of entries with constant keys, among them the entries of optional
fields, which are there or not. What stands under a key is found entry by entry: an entry with
another key is passed over, and so is an optional field with another key. Scalars are read back
from what is written for them.
-/

namespace NameBinding.Json

variable {α β : Type} {key other : String} {value : Json} {entries : List (String × Json)}
  {default : α} {read : Json → Option α} {write : α → Json} {writeOther : β → Json} {levels : Nat}

/-- A reading goes on with what its first step yields. -/
theorem bind_of_eq_some {first : Option α} {item : α} {rest : α → Option β}
    (found : first = some item) : (first >>= rest) = rest item := by
  rw [found]
  rfl

/-! ### What stands under a key -/

@[simp] theorem field?_nil : field? [] key = some none := by simp [field?]

/-- An entry with another key is passed over. -/
@[simp] theorem field?_cons_of_ne (differs : other ≠ key) :
    field? ((other, value) :: entries) key = field? entries key := by
  simp [field?, differs]

/-- An entry is found under its key when no further entry has that key. -/
@[simp] theorem field?_cons_self (single : field? entries key = some none) :
    field? ((key, value) :: entries) key = some (some value) := by
  unfold field? at single ⊢
  rw [List.filter_cons_of_pos (by simp)]
  cases found : entries.filter (·.1 == key) with
  | nil => rfl
  | cons entry others =>
    rw [found] at single
    rcases others with _ | _ <;> simp at single

/-- An optional field with another key is passed over. -/
@[simp] theorem field?_entryOption_of_ne {field : Option β} (differs : other ≠ key) :
    field? (entryOption other writeOther field ++ entries) key = field? entries key := by
  cases field with
  | none => rfl
  | some _ => exact field?_cons_of_ne differs

/-! ### Required fields and fields with a default -/

@[simp] theorem required?_cons_of_ne (differs : other ≠ key) :
    required? ((other, value) :: entries) key read = required? entries key read := by
  rw [required?, required?, field?_cons_of_ne differs]

@[simp] theorem required?_entryOption_of_ne {field : Option β} (differs : other ≠ key) :
    required? (entryOption other writeOther field ++ entries) key read =
      required? entries key read := by
  rw [required?, required?, field?_entryOption_of_ne differs]

@[simp] theorem required?_cons_self (single : field? entries key = some none) :
    required? ((key, value) :: entries) key read = read value := by
  rw [required?, field?_cons_self single]

@[simp] theorem defaulted?_nil : defaulted? [] key default read = some default := by
  rw [defaulted?, field?_nil]

@[simp] theorem defaulted?_cons_of_ne (differs : other ≠ key) :
    defaulted? ((other, value) :: entries) key default read =
      defaulted? entries key default read := by
  rw [defaulted?, defaulted?, field?_cons_of_ne differs]

@[simp] theorem defaulted?_entryOption_of_ne {field : Option β} (differs : other ≠ key) :
    defaulted? (entryOption other writeOther field ++ entries) key default read =
      defaulted? entries key default read := by
  rw [defaulted?, defaulted?, field?_entryOption_of_ne differs]

@[simp] theorem defaulted?_cons_self (single : field? entries key = some none) :
    defaulted? ((key, value) :: entries) key default read = read value := by
  rw [defaulted?, field?_cons_self single]

/-! ### Optional fields -/

@[simp] theorem optional?_nil : optional? [] key read = some none := by
  rw [optional?, field?_nil]

@[simp] theorem optional?_cons_of_ne (differs : other ≠ key) :
    optional? ((other, value) :: entries) key read = optional? entries key read := by
  rw [optional?, optional?, field?_cons_of_ne differs]

@[simp] theorem optional?_entryOption_of_ne {field : Option β} (differs : other ≠ key) :
    optional? (entryOption other writeOther field ++ entries) key read =
      optional? entries key read := by
  rw [optional?, optional?, field?_entryOption_of_ne differs]

/-- An optional field that is there is read unless it is null. -/
@[simp] theorem optional?_cons_self (single : field? entries key = some none)
    (proper : value ≠ null) :
    optional? ((key, value) :: entries) key read = (read value).map some := by
  rw [optional?, field?_cons_self single]
  cases value with
  | null => exact absurd rfl proper
  | _ => rfl

/-! ### Scalars -/

@[simp] theorem entries?_obj : (obj entries).entries? = some entries := by rw [entries?]

@[simp] theorem string?_str (text : String) : (str text).string? = some text := by rw [string?]

@[simp] theorem bool?_bool (flag : Bool) : (bool flag).bool? = some flag := by rw [bool?]

@[simp] theorem word?_ofWord (word : UInt32) : (ofWord word).word? = some word := by
  have small : word.toNat < UInt32.size := word.toNat_lt
  rw [ofWord, word?, if_pos ⟨Int.natCast_nonneg _, by exact_mod_cast small⟩, Int.toNat_natCast]
  simp

@[simp] theorem int64?_toInt (value : Int64) : (int value.toInt).int64? = some value := by
  rw [int64?, if_pos ⟨value.minValue_le_toInt, value.toInt_le⟩]
  simp

@[simp] theorem char?_singleton (c : Char) : (str (String.singleton c)).char? = some c := by
  simp [char?]

/-! ### Items read back one by one -/

/-- An array is read item by item. -/
theorem list?_arr_cons (item : Json) (rest : List Json) :
    list? read (arr (item :: rest)) =
      (read item).bind fun first => (list? read (arr rest)).map (first :: ·) := by
  rw [list?, list?, List.mapM_cons]
  cases read item <;> cases rest.mapM read <;> rfl

/-- Every item is read back from what is written for it, which is never null. -/
structure ReadsBack (read : Json → Option α) (write : α → Json) : Prop where
  same (item : α) : read (write item) = some item
  proper (item : α) : write item ≠ null

/-- Texts are read back. -/
theorem readsBack_string : ReadsBack string? str := ⟨string?_str, nofun⟩

/-- An optional field is read back, whether there is a value or not. -/
theorem ReadsBack.optional?_eq (back : ReadsBack read write) {field : Option α}
    (single : field? entries key = some none) :
    optional? (entryOption key write field ++ entries) key read = some field := by
  cases field with
  | none => rw [entryOption, List.nil_append, optional?, single]
  | some item =>
    rw [entryOption, List.singleton_append, optional?_cons_self single (back.proper item),
      back.same, Option.map_some]

/-- A list is read back item by item. -/
theorem ReadsBack.list?_eq (back : ReadsBack read write) (items : List α) :
    list? read (arr (items.map write)) = some items := by
  induction items with
  | nil => rfl
  | cons item rest ih =>
    rw [List.map_cons, list?_arr_cons, back.same, ih]
    rfl

/-- Writing and reading undo each other as far as they can: every item is read back from what is
written for it, and what has been read stays the same when it is written and read once more, so
one form is written for all values that are read alike. -/
structure RoundTrips (read : Json → Option α) (write : α → Json) : Prop where
  back (item : α) : read (write item) = some item
  settled (value : Json) : ((read value).bind fun item => read (write item)) = read value
  normal (value : Json) : (((read value).map write).bind fun written => (read written).map write) =
    (read value).map write

/-- What is read back makes the round trip. -/
theorem ReadsBack.roundTrips (back : ReadsBack read write) : RoundTrips read write where
  back := back.same
  settled value := by cases read value <;> simp [back.same]
  normal value := by cases read value <;> simp [back.same]

/-! ### Levels of nesting -/

/-- The value under a key lies within the depth of the entries. -/
theorem depthEntries_le_of_mem (among : (key, value) ∈ entries) :
    value.depth ≤ depthEntries entries := by
  induction entries with
  | nil => cases among
  | cons entry rest ih =>
    rw [depthEntries]
    rcases List.mem_cons.mp among with rfl | later
    · exact Nat.le_max_left ..
    · exact Nat.le_trans (ih later) (Nat.le_max_right ..)

/-- The value under a key of an object lies one level further down. -/
theorem depth_le_of_entry (deep : (obj entries).depth ≤ levels + 1) (key : String)
    (among : (key, value) ∈ entries) : value.depth ≤ levels :=
  Nat.le_trans (depthEntries_le_of_mem among) (Nat.le_of_succ_le_succ deep)

/-- Further entries make no value shallower. -/
theorem depth_obj_le_append (front : List (String × Json)) :
    (obj entries).depth ≤ (obj (front ++ entries)).depth := by
  induction front with
  | nil => exact Nat.le_refl _
  | cons entry rest ih =>
    simp only [depth, List.cons_append, depthEntries] at ih ⊢
    omega

/-- An array is within some levels exactly if its first item and the others are. -/
theorem depthAll_cons_le_iff {items : List Json} :
    depthAll (value :: items) ≤ levels ↔ value.depth ≤ levels ∧ depthAll items ≤ levels := by
  rw [depthAll, Nat.max_le]

/-- The items of an array under a key lie further down, too. -/
theorem depthAll_le_of_entry {items : List Json} (deep : (obj entries).depth ≤ levels + 1)
    (key : String) (among : (key, arr items) ∈ entries) : depthAll items ≤ levels :=
  Nat.le_of_succ_le (depth_le_of_entry deep key among)

end NameBinding.Json
