import Mathlib.Algebra.Group.Nat.Defs
import NameBinding.Proofs.KeyedLists
import NameBinding.Proofs.Nesting
import NameBinding.Record.Collect

/-!
# The index of a program

The index over some units and outside records lists every record of the units that does not stand
in a loop header, then the outside records. Completing it changes no id, no name and no flag. If
all ids are distinct, a field or record is found under its id.
-/

namespace NameBinding

/-! ### The records of a unit -/

/-- The record that a step adds to the index; those in the headers of loops are passed over. -/
def Step.written? (unit : TranslationUnit) : Step → Option WrittenRecord
  | record _ site =>
    if site.inHeader then none else some (site.decl.written unit site.name site.outer)
  | _ => none

/-- The records that steps add to the index. -/
def writtenOf (unit : TranslationUnit) (steps : List Step) : List WrittenRecord :=
  steps.filterMap (Step.written? unit)

/-- What is collected at a position: nothing in the header of a loop. -/
def collectedAt (inHeader : Bool) (records : List WrittenRecord) : List WrittenRecord :=
  if inHeader then [] else records

/-- What is collected at a position is collected part by part. -/
theorem collectedAt_append (inHeader : Bool) (xs ys : List WrittenRecord) :
    collectedAt inHeader (xs ++ ys) = collectedAt inHeader xs ++ collectedAt inHeader ys := by
  cases inHeader <;> rfl

theorem collectedAt_nil (inHeader : Bool) : collectedAt inHeader [] = [] := by
  cases inHeader <;> rfl

section writtenOf

variable {unit : TranslationUnit} {place : Place} {steps : List Step}

@[simp] theorem writtenOf_nil : writtenOf unit [] = [] := rfl

@[simp] theorem writtenOf_append (xs ys : List Step) :
    writtenOf unit (xs ++ ys) = writtenOf unit xs ++ writtenOf unit ys := List.filterMap_append

@[simp] theorem writtenOf_opens (header : ScopeHeader) (span : Span) :
    writtenOf unit (.opens place header span :: steps) = writtenOf unit steps := rfl

@[simp] theorem writtenOf_declares (item : Variable) :
    writtenOf unit (.declares place item :: steps) = writtenOf unit steps := rfl

@[simp] theorem writtenOf_position_uses (position : Position) (value : Expr) :
    writtenOf unit (position.uses value :: steps) = writtenOf unit steps := rfl

@[simp] theorem writtenOf_usesOption (position : Position) (value : Option Expr) :
    writtenOf unit (position.usesOption value) = [] := by
  cases value <;> rfl

@[simp] theorem writtenOf_map_uses (position : Position) (values : List Expr) :
    writtenOf unit (values.map position.uses) = [] := by
  induction values with
  | nil => rfl
  | cons value rest ih => exact ih

@[simp] theorem writtenOf_parameters (parameters : List Parameter) :
    writtenOf unit (parameters.map fun parameter => .declares place parameter.declared) = [] := by
  induction parameters with
  | nil => rfl
  | cons parameter rest ih => exact ih

/-- A record is added by the step that declares it, unless it stands in a header. -/
theorem writtenOf_record (site : RecordSite) :
    writtenOf unit (.record place site :: steps) =
      collectedAt site.inHeader [site.decl.written unit site.name site.outer] ++
        writtenOf unit steps := by
  cases h : site.inHeader <;> simp [writtenOf, Step.written?, collectedAt, h]

@[simp] theorem writtenOf_fields (fields : List Field) :
    writtenOf unit (fields.flatMap (Field.outline place)) = [] := by
  induction fields with
  | nil => rfl
  | cons field rest ih =>
    rw [List.flatMap_cons, writtenOf_append, ih]
    cases h : field.initializer <;> simp [Field.outline, h, writtenOf, Step.written?]

end writtenOf

mutual

/-- The records collected from a statement are those of its outline. -/
theorem Stmt.writtenOf_outline (unit : TranslationUnit) (position : Position) :
    (s : Stmt) → writtenOf unit (s.outline .recordsFirst position) =
      collectedAt position.inHeader (s.writtenRecords unit position.record)
  | .localVar decl => by
    rw [Stmt.outline, Stmt.writtenRecords, writtenOf_declares, writtenOf_usesOption,
      collectedAt_nil]
  | .expr value => by
    rw [Stmt.outline, Stmt.writtenRecords, writtenOf_position_uses, writtenOf_nil,
      collectedAt_nil]
  | .ret value _ => by
    rw [Stmt.outline, Stmt.writtenRecords, writtenOf_usesOption, collectedAt_nil]
  | .block block => by
    rw [Stmt.outline, Stmt.writtenRecords]
    exact Block.writtenOf_outline unit position block
  | .ifElse condition thenBranch none _ => by
    rw [Stmt.outline, Stmt.writtenRecords, writtenOf_position_uses]
    exact Stmt.writtenOf_outline unit position thenBranch
  | .ifElse condition thenBranch (some elseBranch) _ => by
    rw [Stmt.outline, Stmt.writtenRecords, writtenOf_append, writtenOf_position_uses,
      collectedAt_append, Stmt.writtenOf_outline unit position thenBranch,
      Stmt.writtenOf_outline unit position elseBranch]
  | .forLoop id init condition update body span => by
    rw [Stmt.outline, Stmt.writtenRecords]
    simp only [writtenOf_append, writtenOf_opens, writtenOf_usesOption, writtenOf_map_uses,
      List.append_nil]
    rw [Stmt.writtenOf_outlineAll unit _ init,
      Stmt.writtenOf_outline unit (position.inside id) body]
    rfl
  | .forEach id item iterable body span => by
    rw [Stmt.outline, Stmt.writtenRecords, writtenOf_opens, writtenOf_declares,
      writtenOf_position_uses]
    exact Stmt.writtenOf_outline unit (position.inside id) body
  | .whileLoop id condition body span => by
    rw [Stmt.outline, Stmt.writtenRecords, writtenOf_opens, writtenOf_position_uses]
    exact Stmt.writtenOf_outline unit (position.inside id) body
  | .tryCatch body catches none _ => by
    rw [Stmt.outline, Stmt.writtenRecords, writtenOf_append, collectedAt_append,
      Block.writtenOf_outline unit position body,
      CatchClause.writtenOf_outlineAll unit position catches]
  | .tryCatch body catches (some finalizer) _ => by
    rw [Stmt.outline, Stmt.writtenRecords, writtenOf_append, writtenOf_append, collectedAt_append,
      collectedAt_append, Block.writtenOf_outline unit position body,
      CatchClause.writtenOf_outlineAll unit position catches,
      Block.writtenOf_outline unit position finalizer]
  | .record decl => by
    rw [Stmt.outline, Stmt.writtenRecords]
    exact Record.writtenOf_outline unit position.place _ _ position.inHeader decl

/-- The records collected from statements are those of their outline. -/
theorem Stmt.writtenOf_outlineAll (unit : TranslationUnit) (position : Position) :
    (statements : List Stmt) →
      writtenOf unit (Stmt.outlineAll .recordsFirst position statements) =
        collectedAt position.inHeader (Stmt.writtenRecordsAll unit position.record statements)
  | [] => by rw [Stmt.outlineAll, Stmt.writtenRecordsAll, writtenOf_nil, collectedAt_nil]
  | s :: rest => by
    rw [Stmt.outlineAll, Stmt.writtenRecordsAll, writtenOf_append, collectedAt_append,
      Stmt.writtenOf_outline unit position s, Stmt.writtenOf_outlineAll unit position rest]

/-- The records collected from a block are those of its outline. -/
theorem Block.writtenOf_outline (unit : TranslationUnit) (position : Position) :
    (block : Block) → writtenOf unit (block.outline .recordsFirst position) =
      collectedAt position.inHeader (block.writtenRecords unit position.record)
  | ⟨id, statements, span⟩ => by
    rw [Block.outline, Block.writtenRecords, writtenOf_opens]
    exact Stmt.writtenOf_outlineAll unit (position.inside id) statements

/-- The records collected from catch clauses are those of their outline. -/
theorem CatchClause.writtenOf_outlineAll (unit : TranslationUnit) (position : Position) :
    (catches : List CatchClause) →
      writtenOf unit (CatchClause.outlineAll .recordsFirst position catches) =
        collectedAt position.inHeader (CatchClause.writtenRecordsAll unit position.record catches)
  | [] => by
    rw [CatchClause.outlineAll, CatchClause.writtenRecordsAll, writtenOf_nil, collectedAt_nil]
  | ⟨id, parameter, _, body, span⟩ :: rest => by
    rw [CatchClause.outlineAll, CatchClause.writtenRecordsAll, writtenOf_append, writtenOf_opens,
      writtenOf_declares, collectedAt_append,
      Block.writtenOf_outline unit (position.inside id) body,
      CatchClause.writtenOf_outlineAll unit position rest]
    rfl

/-- The records collected from methods are those of their outline. -/
theorem Method.writtenOf_outlineAll (unit : TranslationUnit) (position : Position) :
    (methods : List Method) →
      writtenOf unit (Method.outlineAll .recordsFirst position methods) =
        collectedAt position.inHeader (Method.writtenRecordsAll unit position.record methods)
  | [] => by rw [Method.outlineAll, Method.writtenRecordsAll, writtenOf_nil, collectedAt_nil]
  | ⟨id, _, isStatic, _, parameters, none, span⟩ :: rest => by
    rw [Method.outlineAll, Method.writtenRecordsAll, writtenOf_append, writtenOf_opens,
      writtenOf_parameters, List.nil_append]
    exact Method.writtenOf_outlineAll unit position rest
  | ⟨id, _, isStatic, _, parameters, some body, span⟩ :: rest => by
    rw [Method.outlineAll, Method.writtenRecordsAll, writtenOf_append, List.cons_append,
      writtenOf_opens, writtenOf_append, writtenOf_parameters, List.nil_append,
      collectedAt_append, Block.writtenOf_outline unit (position.inside id) body,
      Method.writtenOf_outlineAll unit position rest]
    rfl

/-- The records collected from a record are those of its outline. -/
theorem Record.writtenOf_outline (unit : TranslationUnit) (within : Place) (name : String)
    (outer : Option String) (inHeader : Bool) :
    (decl : Record) →
      writtenOf unit (decl.outline .recordsFirst within name outer inHeader) =
        collectedAt inHeader (decl.writtenRecords unit name outer)
  | ⟨id, simpleName, superclass, isStatic, fields, methods, records, span⟩ => by
    rw [Record.outline, Record.writtenRecords, List.cons_append, writtenOf_record,
      writtenOf_append, writtenOf_append, writtenOf_fields, List.nil_append,
      Record.writtenOf_outlineAll unit (.node id) (some name) (some name) inHeader records,
      Method.writtenOf_outlineAll unit ⟨.node id, name, inHeader⟩ methods,
      ← collectedAt_append, ← collectedAt_append]
    rfl

/-- The records collected from records are those of their outline. -/
theorem Record.writtenOf_outlineAll (unit : TranslationUnit) (within : Place)
    (qualifier outer : Option String) (inHeader : Bool) :
    (records : List Record) →
      writtenOf unit (Record.outlineAll .recordsFirst within qualifier outer inHeader records) =
        collectedAt inHeader (Record.writtenRecordsAll unit qualifier outer records)
  | [] => by rw [Record.outlineAll, Record.writtenRecordsAll, writtenOf_nil, collectedAt_nil]
  | r :: rest => by
    rw [Record.outlineAll, Record.writtenRecordsAll, writtenOf_append, collectedAt_append,
      Record.writtenOf_outline unit within _ _ _ r,
      Record.writtenOf_outlineAll unit within qualifier outer inHeader rest]

end

/-- The records collected from a unit are those of its outline. -/
theorem TranslationUnit.writtenOf_outline (unit : TranslationUnit) :
    writtenOf unit (unit.outline .recordsFirst) = unit.writtenRecords :=
  Record.writtenOf_outlineAll unit .unit unit.package none false unit.records

/-! ### Ids -/

/-- The ids of a collected record and of its fields. -/
def WrittenRecord.ids (record : WrittenRecord) : List NodeId :=
  record.info.id :: (record.info.fields.getD []).map (·.id)

/-- The ids of a written record are its own and those of its fields. -/
theorem Record.ids_written (unit : TranslationUnit) (name : String) (outer : Option String)
    (decl : Record) :
    (decl.written unit name outer).ids = decl.id :: decl.fields.map (·.id) := by
  simp [Record.written, WrittenRecord.ids, Field.info]

/-- The steps of fields declare the ids of the fields. -/
theorem filterMap_declared?_fields (place : Place) (fields : List Field) :
    (fields.flatMap (Field.outline place)).filterMap Step.declared? = fields.map (·.id) := by
  induction fields with
  | nil => rfl
  | cons field rest ih =>
    rw [List.flatMap_cons, List.filterMap_append, ih]
    cases h : field.initializer <;> simp [Field.outline, h, Step.declared?, Field.declared]

/-- What steps add to the index they declare, in the same order. -/
theorem Nests.ids_sublist {place : Place} {steps : List Step} (unit : TranslationUnit)
    (h : Nests place steps) :
    ((writtenOf unit steps).flatMap WrittenRecord.ids).Sublist
      (steps.filterMap Step.declared?) := by
  induction h with
  | nil => exact List.Sublist.refl _
  | append _ _ ihx ihy =>
    rw [writtenOf_append, List.flatMap_append, List.filterMap_append]
    exact ihx.append ihy
  | declares _ _ => exact List.nil_sublist _
  | uses => exact List.nil_sublist _
  | opens _ _ ih => exact ih
  | loopOver _ _ _ ihv ihb =>
    rw [writtenOf_append, writtenOf_opens, List.flatMap_append, List.filterMap_append]
    exact ihv.append ihb
  | @record place site inner _ ih =>
    rw [writtenOf_append, writtenOf_record, writtenOf_fields, List.append_nil,
      List.flatMap_append, List.filterMap_append]
    refine List.Sublist.append ?_ ih
    have declared : (Step.record place site ::
        site.decl.fields.flatMap (Field.outline (.node site.decl.id))).filterMap Step.declared? =
        site.decl.id :: site.decl.fields.map (·.id) := by
      rw [← filterMap_declared?_fields (.node site.decl.id)]
      rfl
    rw [declared]
    cases header : site.inHeader with
    | true => exact List.nil_sublist _
    | false =>
      simp only [collectedAt, Bool.false_eq_true, if_false, List.flatMap_cons, List.flatMap_nil,
        List.append_nil, Record.ids_written]
      exact List.Sublist.refl _

/-- The ids that a unit adds to an index are among those that it declares. -/
theorem TranslationUnit.ids_sublist (unit : TranslationUnit) :
    (unit.writtenRecords.flatMap WrittenRecord.ids).Sublist unit.declaredIds := by
  rw [← unit.writtenOf_outline]
  exact unit.outline_nests.ids_sublist unit

namespace RecordCollection

variable {units : List TranslationUnit} {externals : List ExternalRecord}

/-- The outside records as they are collected when `first` is the number of the next id. -/
def externalRecords (first : UInt32) : List ExternalRecord → List WrittenRecord
  | [] => []
  | record :: rest =>
    ⟨externalInfo first record, none, []⟩ ::
      externalRecords (first - UInt32.ofNat ((record.fields.getD []).length + 1)) rest

/-- Units are added one behind the other. -/
theorem addUnits_eq (collection : RecordCollection) (units : List TranslationUnit) :
    units.foldl addUnit collection =
      { collection with
        records := collection.records ++ units.flatMap TranslationUnit.writtenRecords } := by
  induction units generalizing collection with
  | nil => simp
  | cons unit rest ih => simp [ih, addUnit]

/-- Outside records are added one behind the other. -/
theorem addExternals_records (collection : RecordCollection) (externals : List ExternalRecord) :
    (collection.addExternals externals).records =
      collection.records ++ externalRecords collection.nextExternal externals := by
  unfold addExternals
  induction externals generalizing collection with
  | nil => simp [externalRecords]
  | cons record rest ih =>
    rw [List.foldl_cons, ih, externalRecords]
    simp [addExternal]

/-- The ids that are handed out to outside records and their fields. -/
def handedOut (externals : List ExternalRecord) : List NodeId :=
  (({} : RecordCollection).addExternals externals).records.flatMap WrittenRecord.ids

/-- Handing out `used` ids and then going on is going on further. -/
theorem externalId_sub (first : UInt32) (used k : Nat) :
    externalId (first - UInt32.ofNat used) k = externalId first (used + k) := by
  have same : first - UInt32.ofNat used - UInt32.ofNat k = first - UInt32.ofNat (used + k) := by
    apply UInt32.toNat_inj.mp
    simp only [UInt32.toNat_sub, UInt32.toNat_ofNat']
    omega
  rw [externalId, externalId, same]

/-- Within the range of ids no two are the same. -/
theorem externalId_injective {first : UInt32} {i j : Nat} (hi : i < 2 ^ 32) (hj : j < 2 ^ 32)
    (h : externalId first i = externalId first j) : i = j := by
  have same := congrArg (·.number.toNat) h
  simp only [externalId, UInt32.toNat_sub, UInt32.toNat_ofNat'] at same
  omega

/-- The ids of one outside record are the next ones. -/
theorem ids_externalInfo (first : UInt32) (record : ExternalRecord) :
    WrittenRecord.ids ⟨externalInfo first record, none, []⟩ =
      (List.range ((record.fields.getD []).length + 1)).map (externalId first) := by
  rw [List.range_succ_eq_map, List.map_cons, List.map_map, WrittenRecord.ids]
  congr 1
  cases fields : record.fields with
  | none => simp [externalInfo, fields]
  | some fields =>
    apply List.ext_getElem
    · simp [externalInfo, *]
    · simp [externalInfo, *]

/-- Ids are handed out one after the other. -/
theorem ids_externalRecords (first : UInt32) (externals : List ExternalRecord) :
    ∃ count, (externalRecords first externals).flatMap WrittenRecord.ids =
      (List.range count).map (externalId first) := by
  induction externals generalizing first with
  | nil => exact ⟨0, rfl⟩
  | cons record rest ih =>
    obtain ⟨count, later⟩ := ih (first - UInt32.ofNat ((record.fields.getD []).length + 1))
    refine ⟨(record.fields.getD []).length + 1 + count, ?_⟩
    have split := List.range_add (n := (record.fields.getD []).length + 1) (m := count)
    rw [externalRecords, List.flatMap_cons, ids_externalInfo, later, split, List.map_append,
      List.map_map]
    congr 1
    exact List.map_congr_left fun k _ => externalId_sub first _ k

/-- Ids are handed out one after the other, from the greatest number downwards. -/
theorem handedOut_eq (externals : List ExternalRecord) :
    ∃ count, handedOut externals =
      (List.range count).map (externalId ({} : RecordCollection).nextExternal) := by
  rw [handedOut, addExternals_records]
  exact ids_externalRecords _ externals

/-- As long as there are ids left, none is handed out twice. -/
theorem handedOut_nodup (enough : (handedOut externals).length ≤ 2 ^ 32) :
    (handedOut externals).Nodup := by
  obtain ⟨count, ids⟩ := handedOut_eq externals
  rw [ids] at enough ⊢
  rw [List.length_map, List.length_range] at enough
  refine List.Nodup.map_on (fun i hi j hj same => ?_) List.nodup_range
  rw [List.mem_range] at hi hj
  exact externalId_injective (by omega) (by omega) same

/-- Once there are no ids left, all have been handed out. -/
theorem mem_handedOut (spent : 2 ^ 32 < (handedOut externals).length) (id : NodeId) :
    id ∈ handedOut externals := by
  obtain ⟨count, ids⟩ := handedOut_eq externals
  rw [ids] at spent ⊢
  rw [List.length_map, List.length_range] at spent
  let first := ({} : RecordCollection).nextExternal
  let k := (first - id.number).toNat
  have hk : k < count := by
    have := (first - id.number).toNat_lt
    omega
  have same : externalId first k = id := by
    have back : first - (first - id.number) = id.number := by
      apply UInt32.toNat_inj.mp
      have := first.toNat_lt
      have := id.number.toNat_lt
      simp only [UInt32.toNat_sub]
      omega
    rw [externalId, UInt32.ofNat_toNat, back]
  exact List.mem_map.mpr ⟨k, List.mem_range.mpr hk, same⟩

/-- The collection over a program. -/
def ofProgram (units : List TranslationUnit) (externals : List ExternalRecord) :
    RecordCollection :=
  (units.foldl addUnit {}).addExternals externals

/-- A program is collected in order: its units first, then the outside records. -/
theorem ofProgram_records :
    (ofProgram units externals).records = units.flatMap TranslationUnit.writtenRecords ++
      externalRecords (({} : RecordCollection).nextExternal) externals := by
  rw [ofProgram, addExternals_records, addUnits_eq]
  rfl

/-- The ids that units add are among those that they declare. -/
theorem flatMap_ids_sublist (units : List TranslationUnit) :
    ((units.flatMap TranslationUnit.writtenRecords).flatMap WrittenRecord.ids).Sublist
      (units.flatMap TranslationUnit.declaredIds) := by
  induction units with
  | nil => exact List.Sublist.refl _
  | cons unit rest ih =>
    rw [List.flatMap_cons, List.flatMap_append, List.flatMap_cons]
    exact unit.ids_sublist.append ih

/-- If the declared ids and the ids handed out are distinct, so are those of the collection. -/
theorem ofProgram_ids_nodup
    (distinct : (units.flatMap TranslationUnit.declaredIds ++ handedOut externals).Nodup) :
    ((ofProgram units externals).records.flatMap WrittenRecord.ids).Nodup := by
  refine distinct.sublist ?_
  rw [ofProgram_records, List.flatMap_append]
  refine List.Sublist.append ?_ ?_
  · exact flatMap_ids_sublist units
  · rw [handedOut, addExternals_records]
    exact List.Sublist.refl _

end RecordCollection

/-! ### Completing the index -/

namespace RecordCollection

variable {collection : RecordCollection} {record : WrittenRecord}

/-- A field of a record when the collection is complete. -/
def settleField (collection : RecordCollection) (record : WrittenRecord) (field : FieldInfo) :
    FieldInfo :=
  let full := collection.asWritten.qualifiedName (collection.contextOf record)
  { field with type := full field.type }

/-- The fields of a completed record are its fields, each completed. -/
theorem settle_fields : (collection.settle record).fields.getD [] =
    (record.info.fields.getD []).map (collection.settleField record) := by
  unfold settle settleField
  cases record.info.fields <;> simp

/-- Completing a record changes no field but for its type. -/
theorem exists_settled_field {field : FieldInfo} (h : field ∈ record.info.fields.getD []) :
    ∃ settled ∈ (collection.settle record).fields.getD [],
      settled.id = field.id ∧ settled.isStatic = field.isStatic := by
  rw [settle_fields]
  exact ⟨_, List.mem_map_of_mem h, rfl, rfl⟩

/-- They keep their ids. -/
theorem settle_field_ids : ((collection.settle record).fields.getD []).map (·.id) =
    (record.info.fields.getD []).map (·.id) := by
  rw [settle_fields, List.map_map]
  rfl

/-- The fields of completed records have ids of the collection. -/
theorem settled_ids_sublist (records : List WrittenRecord) :
    (((records.map collection.settle).flatMap fun info => info.fields.getD []).map (·.id)).Sublist
      (records.flatMap WrittenRecord.ids) := by
  induction records with
  | nil => exact List.Sublist.refl _
  | cons record rest ih =>
    rw [List.map_cons, List.flatMap_cons, List.map_append, settle_field_ids, List.flatMap_cons]
    exact (List.sublist_cons_self _ _).append ih

end RecordCollection

namespace RecordIndex

variable {index : RecordIndex} {units : List TranslationUnit} {externals : List ExternalRecord}

/-- If no two fields have one id, each of them is found under its id. -/
theorem fieldById?_of_mem (distinct : (index.fields.map (·.id)).Nodup) {field : FieldInfo}
    (h : field ∈ index.fields) : index.fieldById? field.id = some field := by
  have reversed : (index.fields.reverse.map (·.id)).Nodup := by
    rw [List.map_reverse, List.nodup_reverse]
    exact distinct
  exact find?_key (·.id) reversed (List.mem_reverse.mpr h)

/-- If no two records have one id, each of them is found under its id. -/
theorem recordById?_of_mem (distinct : (index.records.map (·.id)).Nodup) {record : RecordInfo}
    (h : record ∈ index.records) : index.recordById? record.id = some record := by
  have reversed : (index.records.reverse.map (·.id)).Nodup := by
    rw [List.map_reverse, List.nodup_reverse]
    exact distinct
  exact find?_key (·.id) reversed (List.mem_reverse.mpr h)

/-- A record is found under its id, if not this one then another. -/
theorem exists_recordById?_of_mem {record : RecordInfo} (h : record ∈ index.records) :
    ∃ found, index.recordById? record.id = some found := by
  cases found : index.recordById? record.id with
  | none =>
    have absent := List.find?_eq_none.mp found record (List.mem_reverse.mpr h)
    simp at absent
  | some other => exact ⟨other, rfl⟩

/-- The ids of a program are distinct: no two declarations have one id, and no id that is handed
out to an outside record or its fields is declared. -/
structure DistinctIds (units : List TranslationUnit) (externals : List ExternalRecord) : Prop where
  declared : (units.flatMap TranslationUnit.declaredIds).Nodup
  apart : ∀ id ∈ RecordCollection.handedOut externals,
    id ∉ units.flatMap TranslationUnit.declaredIds

/-- In a program that declares anything no id is handed out twice. -/
theorem DistinctIds.handedOut_nodup (distinct : DistinctIds units externals) {id : NodeId}
    (declares : id ∈ units.flatMap TranslationUnit.declaredIds) :
    (RecordCollection.handedOut externals).Nodup := by
  apply RecordCollection.handedOut_nodup
  by_contra spent
  exact distinct.apart id (RecordCollection.mem_handedOut (by omega) id) declares

/-- In the index of a program with distinct ids that declares anything no two fields have one
id. -/
theorem ofProgram_fields_nodup (distinct : DistinctIds units externals) {id : NodeId}
    (declares : id ∈ units.flatMap TranslationUnit.declaredIds) :
    ((ofProgram units externals).fields.map (·.id)).Nodup := by
  have all : (units.flatMap TranslationUnit.declaredIds ++
      RecordCollection.handedOut externals).Nodup := by
    rw [List.nodup_append]
    refine ⟨distinct.declared, distinct.handedOut_nodup declares, ?_⟩
    rintro id declared other handed rfl
    exact distinct.apart id handed declared
  exact (RecordCollection.ofProgram_ids_nodup all).sublist
    (RecordCollection.settled_ids_sublist _)

/-- The records of the units, loop headers apart, are in the index with their fields. -/
theorem exists_of_recordSite (externals : List ExternalRecord) {unit : TranslationUnit}
    (member : unit ∈ units) {site : RecordSite} (h : site ∈ unit.recordSites)
    (header : site.inHeader = false) :
    ∃ record ∈ (ofProgram units externals).records, record.id = site.decl.id ∧
      ∀ field ∈ site.decl.fields, ∃ info ∈ record.fields.getD [],
        info.id = field.id ∧ info.isStatic = field.isStatic := by
  obtain ⟨within, listed⟩ := TranslationUnit.mem_recordSites.mp h
  have written : site.decl.written unit site.name site.outer ∈ unit.writtenRecords := by
    rw [← unit.writtenOf_outline]
    exact List.mem_filterMap.mpr ⟨_, listed, by simp [Step.written?, header]⟩
  have collected : site.decl.written unit site.name site.outer ∈
      (RecordCollection.ofProgram units externals).records := by
    rw [RecordCollection.ofProgram_records]
    exact List.mem_append_left _ (List.mem_flatMap.mpr ⟨unit, member, written⟩)
  refine ⟨_, List.mem_map_of_mem collected, rfl, fun field hf => ?_⟩
  have info : field.info ∈ (site.decl.written unit site.name site.outer).info.fields.getD [] :=
    List.mem_map_of_mem hf
  obtain ⟨settled, hs, id, static⟩ := RecordCollection.exists_settled_field info
  exact ⟨settled, hs, id, static⟩

end RecordIndex

end NameBinding
