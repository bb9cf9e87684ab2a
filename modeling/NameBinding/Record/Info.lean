import NameBinding.Json.Fields
import NameBinding.Record.Name
import NameBinding.Syntax.Basic

/-!
# Records as seen from elsewhere

What other records and other units can know of a record: its names, its superclass and its
fields with their types. Records come from the analysed units or are supplied from outside; an
outside record may keep its fields to itself.
-/

namespace NameBinding

open Json

/-- A field of a record. -/
structure FieldInfo where
  /-- Identity of the field. -/
  id : NodeId
  /-- Name of the field. -/
  name : String
  /-- Qualified name of its record type when that is known, else the type as written. -/
  type : String
  /-- Set for static fields. -/
  isStatic : Bool
deriving DecidableEq, Repr

/-- What a use that reaches the field denotes. -/
def FieldInfo.resolution (field : FieldInfo) : Resolution :=
  ⟨field.id, if field.isStatic then .staticField else .field⟩

/-- Where a record comes from. -/
inductive RecordOrigin where
  /-- It is declared in the unit of this name. -/
  | unit (name : String)
  /-- It is supplied from outside. -/
  | external
deriving DecidableEq, Repr

/-- A record. -/
structure RecordInfo where
  /-- Identity of the record. -/
  id : NodeId
  /-- Qualified name. -/
  name : String
  /-- Name without qualifier. -/
  simpleName : String
  /-- Qualified name of the record around it. -/
  outer : Option String
  /-- Qualified name of the superclass when that is known, else the name as written. -/
  superclass : Option String
  /-- The fields it declares itself; `none` when they are not available. -/
  fields : Option (List FieldInfo)
  /-- Where it comes from. -/
  origin : RecordOrigin
  /-- Where it was written. -/
  span : Span
deriving DecidableEq, Repr

/-- The first field of that name that the record declares itself. -/
def RecordInfo.field? (record : RecordInfo) (name : String) : Option FieldInfo :=
  record.fields.bind (·.find? (·.name == name))

/-- A field of an outside record. -/
structure ExternalField where
  /-- Name of the field. -/
  name : String
  /-- Type as written. -/
  type : String
  /-- Set for static fields. -/
  isStatic : Bool := false
deriving DecidableEq, Repr

/-- A record supplied from outside. -/
structure ExternalRecord where
  /-- Qualified name. -/
  name : String
  /-- The superclass as written. -/
  superclass : Option String := none
  /-- The fields; left out for an opaque record. -/
  fields : Option (List ExternalField) := none
deriving DecidableEq, Repr

/-- A field of an outside record needs its name and type. -/
def ExternalField.ofJson? (value : Json) : Option ExternalField := do
  let entries ← value.entries?
  let name ← required? entries "name" string?
  let type ← required? entries "type" string?
  let isStatic ← defaulted? entries "static" false bool?
  some { name, type, isStatic }

/-- An outside record needs its name. -/
def ExternalRecord.ofJson? (value : Json) : Option ExternalRecord := do
  let entries ← value.entries?
  let name ← required? entries "name" string?
  let superclass ← optional? entries "superclass" string?
  let fields ← optional? entries "fields" (list? ExternalField.ofJson?)
  some { name, superclass, fields }

/-- The context that a type name is written in. -/
structure TypeContext where
  /-- The package of the unit. -/
  package : Option String := none
  /-- The imports of the unit. -/
  imports : List String := []
  /-- Qualified names of the records around it, innermost first. -/
  enclosing : List String := []
deriving DecidableEq, Repr

namespace TypeContext

/-- The ending of an import that stands for every record of a package. -/
def wildcard : String := ".*"

/-- The name that an import of a single record gives to a type name: the import itself, if the
type name starts with its last segment, followed by the rest of the type name. -/
def importedName? (name importName : String) : Option String :=
  let (head, rest) := RecordName.splitHead name
  if (RecordName.dropEnding? wildcard importName).isSome then none
  else if RecordName.lastSegment importName = head then
    some (match rest with
      | none => importName
      | some rest => importName ++ "." ++ rest)
  else none

/-- The qualified names that a type name may stand for, in order of preference: a record nested
in one of the records around it, a record of the package, an imported record, a record of an
imported package, and the name itself. -/
def candidates (context : TypeContext) (name : String) : List String :=
  context.enclosing.map (fun record => RecordName.qualify (some record) name) ++
    [RecordName.qualify context.package name] ++
    context.imports.filterMap (importedName? name) ++
    (context.imports.filterMap (RecordName.dropEnding? wildcard)).map
      (fun package => RecordName.qualify (some package) name) ++
    [name]

end TypeContext

end NameBinding
