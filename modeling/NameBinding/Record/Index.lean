import NameBinding.Record.Info

/-!
# The record index

All records known to an analysis, in the order in which they were added. A qualified name denotes
the first record that was added under it; later ones are reached by id alone and are listed as
collisions. Superclass links are followed by name, each name at most once, so cycles are cut.
-/

namespace NameBinding

/-- Two records under one qualified name: the first one keeps it. -/
structure RecordCollision where
  /-- The name. -/
  name : String
  /-- Id of the record that keeps the name. -/
  kept : NodeId
  /-- Where the record that keeps the name was written. -/
  keptSpan : Span
  /-- Id of the record that lost the name. -/
  dropped : NodeId
deriving DecidableEq, Repr

/-- Outcome of a search for a field. -/
inductive FieldLookup where
  /-- The field, and the record that declares it. -/
  | found (owner : RecordInfo) (field : FieldInfo)
  /-- The record to start from is not known. -/
  | unknownRecord
  /-- The search came upon a record that is unknown or keeps its fields to itself. -/
  | external
  /-- Every record on the way is known and lacks the field. -/
  | notFound
deriving DecidableEq, Repr

/-- The records known to an analysis. -/
structure RecordIndex where
  /-- The records, in the order in which they were added. -/
  records : List RecordInfo := []
deriving DecidableEq, Repr

namespace RecordIndex

/-- The record that owns a qualified name. -/
def get? (index : RecordIndex) (name : String) : Option RecordInfo :=
  index.records.find? (·.name == name)

/-- The record with the given id; of several the last one that was added. -/
def recordById? (index : RecordIndex) (id : NodeId) : Option RecordInfo :=
  index.records.reverse.find? (·.id == id)

/-- All fields of all records, in the order in which they were added. -/
def fields (index : RecordIndex) : List FieldInfo :=
  index.records.flatMap fun record => record.fields.getD []

/-- The field with the given id; of several the last one that was added. -/
def fieldById? (index : RecordIndex) (id : NodeId) : Option FieldInfo :=
  index.fields.reverse.find? (·.id == id)

/-- The collisions among records that are added after the records `before`. -/
def collisionsAfter (before : List RecordInfo) : List RecordInfo → List RecordCollision
  | [] => []
  | record :: rest =>
    match before.find? (·.name == record.name) with
    | none => collisionsAfter (before ++ [record]) rest
    | some kept =>
      ⟨record.name, kept.id, kept.span, record.id⟩ :: collisionsAfter (before ++ [record]) rest

/-- The records that lost their name to an earlier record, in order. -/
def collisions (index : RecordIndex) : List RecordCollision := collisionsAfter [] index.records

/-- The number of records whose names are not among the given ones. -/
def unvisited (index : RecordIndex) (visited : List String) : Nat :=
  (index.records.filter fun record => !visited.contains record.name).length

/-- Visiting a record leaves fewer records to visit. -/
theorem unvisited_lt {index : RecordIndex} {visited : List String} {name : String}
    {record : RecordInfo} (found : index.get? name = some record)
    (new : visited.contains name = false) :
    index.unvisited (name :: visited) < index.unvisited visited := by
  have member := List.mem_of_find?_eq_some found
  have named : record.name = name := by simpa using List.find?_some found
  unfold unvisited
  rw [← List.countP_eq_length_filter, ← List.countP_eq_length_filter]
  obtain ⟨before, after, split⟩ := List.append_of_mem member
  have weaker : ∀ records : List RecordInfo,
      records.countP (fun r => !(name :: visited).contains r.name) ≤
        records.countP (fun r => !visited.contains r.name) := fun records =>
    List.countP_mono_left fun r _ => by simp
  have gone : ¬(!(name :: visited).contains record.name) = true := by simp [named]
  have counted : (!visited.contains record.name) = true := by simpa [named] using new
  have skip := List.countP_cons_of_neg (p := fun r : RecordInfo => !(name :: visited).contains r.name)
    (l := after) gone
  have count := List.countP_cons_of_pos (p := fun r : RecordInfo => !visited.contains r.name)
    (l := after) counted
  rw [split, List.countP_append, List.countP_append, skip, count]
  have := weaker before
  have := weaker after
  omega

/-- The names met when links are followed from `next` on: each name is listed once, and the walk
ends at a name that has been visited, at a name that is not known, or where there is no link. -/
def trail (index : RecordIndex) (link : RecordInfo → Option String) (visited : List String)
    (next : Option String) : List String :=
  match next with
  | none => []
  | some name =>
    if _new : visited.contains name then []
    else
      match _found : index.get? name with
      | none => [name]
      | some record => name :: index.trail link (name :: visited) (link record)
termination_by index.unvisited visited
decreasing_by exact unvisited_lt _found (by simpa using _new)

/-- Names of the superclasses of a record, nearest first. A name that is not known ends the list
and is part of it. -/
def ancestors (index : RecordIndex) (record : RecordInfo) : List String :=
  index.trail (·.superclass) [record.name] record.superclass

/-- Names of the superclasses of the record that owns a name. -/
def superclassChain (index : RecordIndex) (name : String) : List String :=
  match index.get? name with
  | none => []
  | some record => index.ancestors record

/-- Names of a record and of the known records around it, innermost first. -/
def enclosing (index : RecordIndex) (record : RecordInfo) : List String :=
  record.name ::
    (index.trail (·.outer) [record.name] record.outer).filter fun name => (index.get? name).isSome

/-- Searches the records in turn; `none` stands for a record that is not known. -/
def searchField (name : String) : List (Option RecordInfo) → FieldLookup
  | [] => .notFound
  | none :: _ => .external
  | some record :: rest =>
    match record.fields with
    | none => .external
    | some _ =>
      match record.field? name with
      | some field => .found record field
      | none => searchField name rest

/-- The field of that name on a record or, failing that, on its nearest ancestor that has it. The
record at hand need not own its qualified name. -/
def findFieldIn (index : RecordIndex) (record : RecordInfo) (name : String) : FieldLookup :=
  searchField name (some record :: (index.ancestors record).map index.get?)

/-- The field of that name on the record that owns a qualified name, or on its ancestors. -/
def findField (index : RecordIndex) (recordName name : String) : FieldLookup :=
  match index.get? recordName with
  | none => .unknownRecord
  | some record => index.findFieldIn record name

/-- The record that a type name denotes in a context: the first candidate that is known. -/
def resolveType? (index : RecordIndex) (name : String) (context : TypeContext) :
    Option RecordInfo :=
  (context.candidates name).findSome? index.get?

/-- The qualified name of the record that a type name denotes, or the name itself. -/
def qualifiedName (index : RecordIndex) (context : TypeContext) (name : String) : String :=
  match index.resolveType? name context with
  | some record => record.name
  | none => name

end RecordIndex

end NameBinding
