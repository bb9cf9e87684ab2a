import NameBinding.Record.Index

/-!
# Collecting records into an index

Records are collected with their types as written: those of the units in source order, nested
and local ones included, and those supplied from outside. When the collection is complete, every
superclass and field type that names a known record is replaced by the qualified name of that
record, all at once or in place, slot by slot. Records declared in the header of a `for` loop are
not collected.
-/

namespace NameBinding

/-- A record with its types as written, and the context they were written in. -/
structure WrittenRecord where
  /-- The record; its superclass and field types are as written. -/
  info : RecordInfo
  /-- Package of its unit. -/
  package : Option String
  /-- Imports of its unit. -/
  imports : List String
deriving DecidableEq, Repr

/-- A field with its type as written. -/
def Field.info (field : Field) : FieldInfo :=
  ⟨field.id, field.name, field.type.name, field.isStatic⟩

/-- A record of a unit with its types as written, under a qualified name and inside the record
`outer`. -/
def Record.written (unit : TranslationUnit) (name : String) (outer : Option String)
    (decl : Record) : WrittenRecord where
  info :=
    { id := decl.id
      name
      simpleName := decl.name
      outer
      superclass := decl.superclass.map (·.name)
      fields := some (decl.fields.map Field.info)
      origin := .unit unit.name
      span := decl.span }
  package := unit.package
  imports := unit.imports

mutual

/-- The records declared in a statement that stands in the record `around`, at any block depth. -/
def Stmt.writtenRecords (unit : TranslationUnit) (around : String) : Stmt → List WrittenRecord
  | .localVar _ | .expr _ | .ret .. => []
  | .block block => block.writtenRecords unit around
  | .ifElse _ thenBranch none _ => thenBranch.writtenRecords unit around
  | .ifElse _ thenBranch (some elseBranch) _ =>
    thenBranch.writtenRecords unit around ++ elseBranch.writtenRecords unit around
  | .forLoop _ _ _ _ body _ => body.writtenRecords unit around
  | .forEach _ _ _ body _ => body.writtenRecords unit around
  | .whileLoop _ _ body _ => body.writtenRecords unit around
  | .tryCatch body catches none _ =>
    body.writtenRecords unit around ++ CatchClause.writtenRecordsAll unit around catches
  | .tryCatch body catches (some finalizer) _ =>
    body.writtenRecords unit around ++ CatchClause.writtenRecordsAll unit around catches ++
      finalizer.writtenRecords unit around
  | .record decl =>
    decl.writtenRecords unit (RecordName.ofLocal around decl.id decl.name) (some around)

/-- The records declared in a list of statements. -/
def Stmt.writtenRecordsAll (unit : TranslationUnit) (around : String) :
    List Stmt → List WrittenRecord
  | [] => []
  | s :: rest => s.writtenRecords unit around ++ Stmt.writtenRecordsAll unit around rest

/-- The records declared in a block. -/
def Block.writtenRecords (unit : TranslationUnit) (around : String) : Block → List WrittenRecord
  | ⟨_, statements, _⟩ => Stmt.writtenRecordsAll unit around statements

/-- The records declared in the bodies of catch clauses. -/
def CatchClause.writtenRecordsAll (unit : TranslationUnit) (around : String) :
    List CatchClause → List WrittenRecord
  | [] => []
  | ⟨_, _, _, body, _⟩ :: rest =>
    body.writtenRecords unit around ++ CatchClause.writtenRecordsAll unit around rest

/-- The records declared in the bodies of methods. -/
def Method.writtenRecordsAll (unit : TranslationUnit) (around : String) :
    List Method → List WrittenRecord
  | [] => []
  | ⟨_, _, _, _, _, none, _⟩ :: rest => Method.writtenRecordsAll unit around rest
  | ⟨_, _, _, _, _, some body, _⟩ :: rest =>
    body.writtenRecords unit around ++ Method.writtenRecordsAll unit around rest

/-- A record, then the records nested in it, then those local to its methods. -/
def Record.writtenRecords (unit : TranslationUnit) (name : String) (outer : Option String) :
    Record → List WrittenRecord
  | ⟨id, simpleName, superclass, isStatic, fields, methods, records, span⟩ =>
    let decl : Record := ⟨id, simpleName, superclass, isStatic, fields, methods, records, span⟩
    decl.written unit name outer :: Record.writtenRecordsAll unit (some name) (some name) records ++
      Method.writtenRecordsAll unit name methods

/-- Records whose names are qualified by `qualifier`, with those inside them. -/
def Record.writtenRecordsAll (unit : TranslationUnit) (qualifier outer : Option String) :
    List Record → List WrittenRecord
  | [] => []
  | r :: rest =>
    r.writtenRecords unit (RecordName.qualify qualifier r.name) outer ++
      Record.writtenRecordsAll unit qualifier outer rest

end

/-- The records of a unit: each before the records nested in it, those before the records local
to its methods. -/
def TranslationUnit.writtenRecords (unit : TranslationUnit) : List WrittenRecord :=
  Record.writtenRecordsAll unit unit.package none unit.records

/-- Records collected so far. -/
structure RecordCollection where
  /-- The records, in the order in which they were added. -/
  records : List WrittenRecord := []
  /-- The number of the next id for what comes from outside. Ids are handed out from the greatest
  number downwards, away from those of a front end. -/
  nextExternal : UInt32 := 0xFFFFFFFF
deriving DecidableEq, Repr

namespace RecordCollection

/-- Adds the records of a unit. -/
def addUnit (collection : RecordCollection) (unit : TranslationUnit) : RecordCollection :=
  { collection with records := collection.records ++ unit.writtenRecords }

/-- The id of an outside record or field: the `k`-th one handed out after `first`. -/
def externalId (first : UInt32) (k : Nat) : NodeId := ⟨first - UInt32.ofNat k⟩

/-- An outside record under the id `first`, its fields under the ids below. -/
def externalInfo (first : UInt32) (record : ExternalRecord) : RecordInfo where
  id := externalId first 0
  name := record.name
  simpleName := RecordName.lastSegment record.name
  outer := none
  superclass := record.superclass
  fields := record.fields.map fun fields => fields.mapIdx fun k field =>
    ⟨externalId first (k + 1), field.name, field.type, field.isStatic⟩
  origin := .external
  span := {}

/-- Adds an outside record and tells the id it was given. -/
def addExternal (collection : RecordCollection) (record : ExternalRecord) :
    NodeId × RecordCollection :=
  let first := collection.nextExternal
  let used := (record.fields.getD []).length + 1
  (externalId first 0,
    { records := collection.records ++ [⟨externalInfo first record, none, []⟩]
      nextExternal := first - UInt32.ofNat used })

/-- Adds several outside records, in order. -/
def addExternals (collection : RecordCollection) (records : List ExternalRecord) :
    RecordCollection :=
  records.foldl (fun collection record => (collection.addExternal record).2) collection

/-- The records with their types as written. -/
def asWritten (collection : RecordCollection) : RecordIndex := ⟨collection.records.map (·.info)⟩

/-- The context that the types of a collected record were written in. -/
def contextOf (collection : RecordCollection) (record : WrittenRecord) : TypeContext :=
  ⟨record.package, record.imports, collection.asWritten.enclosing record.info⟩

/-- A collected record with the types that name known records in full. -/
def settle (collection : RecordCollection) (record : WrittenRecord) : RecordInfo :=
  let full := collection.asWritten.qualifiedName (collection.contextOf record)
  { record.info with
    superclass := record.info.superclass.map full
    fields := record.info.fields.map fun fields =>
      fields.map fun field => { field with type := full field.type } }

/-- Completes the collection. -/
def finish (collection : RecordCollection) : RecordIndex :=
  ⟨collection.records.map collection.settle⟩

/-- A collected record before its completion: it has no superclass yet, and the types of its fields
are as written. -/
def unsettled (record : WrittenRecord) : RecordInfo := { record.info with superclass := none }

/-- Completes the record in one slot of an index. The types written on it are looked up in the index
as it stands. -/
def settleAt (index : RecordIndex) (slot : Nat) (record : WrittenRecord) : RecordIndex :=
  match index.records[slot]? with
  | none => index
  | some info =>
    let context : TypeContext := ⟨record.package, record.imports, index.enclosing info⟩
    let full := index.qualifiedName context
    let settled : RecordInfo :=
      { info with
        superclass := record.info.superclass.map full
        fields := info.fields.map fun fields =>
          fields.zipWith (fun field written => { field with type := full written.type })
            (record.info.fields.getD []) }
    ⟨index.records.set slot settled⟩

/-- Completes the collection in place: all records enter the index as they are, and then one slot
after the other is completed. -/
def finishInPlace (collection : RecordCollection) : RecordIndex :=
  collection.records.zipIdx.foldl (fun index (record, slot) => settleAt index slot record)
    ⟨collection.records.map unsettled⟩

end RecordCollection

/-- The index over the records of some units and of outside records, in that order. -/
def RecordIndex.ofProgram (units : List TranslationUnit) (externals : List ExternalRecord) :
    RecordIndex :=
  ((units.foldl RecordCollection.addUnit {}).addExternals externals).finish

/-- The index over the records of some units alone. -/
def RecordIndex.build (units : List TranslationUnit) : RecordIndex := .ofProgram units []

end NameBinding
