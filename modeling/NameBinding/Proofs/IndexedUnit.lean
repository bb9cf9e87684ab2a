import NameBinding.Proofs.ProgramIndex

/-!
# A unit in the index of its program

The records of a unit enter the index in the order of its outline, those in loop headers apart.
With distinct ids the index of a program tells the records of one unit apart from all others: a
record under an id that the unit declares comes from the record of the unit that declares it, and
there is one under the id of every record of the unit that does not stand in a loop header.
-/

namespace NameBinding

variable {units : List TranslationUnit} {externals : List ExternalRecord} {unit : TranslationUnit}
  {site : RecordSite}

namespace TranslationUnit

/-- Records are declared. -/
theorem declaredId_of_site (h : site ∈ unit.recordSites) : site.decl.id ∈ unit.declaredIds := by
  obtain ⟨within, listed⟩ := mem_recordSites.mp h
  exact List.mem_filterMap.mpr ⟨_, listed, rfl⟩

/-- The ids of records are some of the ids that steps declare. -/
theorem site_ids_sublist (steps : List Step) :
    ((steps.filterMap Step.site?).map (·.decl.id)).Sublist (steps.filterMap Step.declared?) := by
  induction steps with
  | nil => exact List.Sublist.refl _
  | cons item rest ih =>
    cases item with
    | record within site => exact ih.cons_cons _
    | declares within item => exact ih.cons _
    | opens within header span => exact ih
    | uses within inStatic value => exact ih

/-- If ids are distinct, a record of a unit is known by its id. -/
theorem site_eq_of_id (distinct : unit.declaredIds.Nodup) {other : RecordSite}
    (h : site ∈ unit.recordSites) (h' : other ∈ unit.recordSites)
    (same : site.decl.id = other.decl.id) : site = other := by
  have ids : (unit.recordSites.map (·.decl.id)).Nodup :=
    distinct.sublist (site_ids_sublist (unit.outline .recordsFirst))
  exact List.inj_on_of_nodup_map ids h h' same

/-- The records of a unit that enter an index: all but those in the headers of `for` loops. -/
def indexedSites (unit : TranslationUnit) : List RecordSite :=
  unit.recordSites.filter fun site => !site.inHeader

/-- The records that enter an index are those outside of the headers of loops. -/
theorem mem_indexedSites :
    site ∈ unit.indexedSites ↔ site ∈ unit.recordSites ∧ site.inHeader = false := by
  rw [indexedSites, List.mem_filter, Bool.not_eq_true']

/-- The indexed records of a unit are collected in the order in which they stand in its outline. -/
theorem writtenRecords_eq (unit : TranslationUnit) :
    unit.writtenRecords =
      unit.indexedSites.map fun site => site.decl.written unit site.name site.outer := by
  have listed : ∀ steps : List Step, writtenOf unit steps =
      ((steps.filterMap Step.site?).filter fun site => !site.inHeader).map
        fun site => site.decl.written unit site.name site.outer := by
    intro steps
    induction steps with
    | nil => rfl
    | cons item rest ih =>
      cases item with
      | record within site =>
        rw [writtenOf_record, ih, List.filterMap_cons]
        cases header : site.inHeader <;> simp [Step.site?, collectedAt, header]
      | declares within item => exact ih
      | opens within header span => exact ih
      | uses within inStatic value => exact ih
  rw [← unit.writtenOf_outline]
  exact listed _

/-- The collected records of a unit are those that do not stand in loop headers. -/
theorem mem_writtenRecords {written : WrittenRecord} :
    written ∈ unit.writtenRecords ↔
      ∃ site ∈ unit.recordSites, site.inHeader = false ∧
        written = site.decl.written unit site.name site.outer := by
  rw [writtenRecords_eq, List.mem_map]
  constructor
  · rintro ⟨site, indexed, rfl⟩
    obtain ⟨listed, header⟩ := mem_indexedSites.mp indexed
    exact ⟨site, listed, header, rfl⟩
  · rintro ⟨site, listed, header, rfl⟩
    exact ⟨site, mem_indexedSites.mpr ⟨listed, header⟩, rfl⟩

end TranslationUnit

namespace RecordIndex

/-- The record of the index that a record of a unit becomes. -/
def ofSite (units : List TranslationUnit) (externals : List ExternalRecord)
    (unit : TranslationUnit) (site : RecordSite) : RecordInfo :=
  (RecordCollection.ofProgram units externals).settle
    (site.decl.written unit site.name site.outer)

section ofSite

variable (units externals unit site)

@[simp] theorem ofSite_id : (ofSite units externals unit site).id = site.decl.id := rfl

@[simp] theorem ofSite_name : (ofSite units externals unit site).name = site.name := rfl

@[simp] theorem ofSite_outer : (ofSite units externals unit site).outer = site.outer := rfl

/-- The fields keep their order, ids, names and flags. -/
theorem ofSite_fields : (ofSite units externals unit site).fields =
    some (site.decl.fields.map fun field =>
      (RecordCollection.ofProgram units externals).settleField
        (site.decl.written unit site.name site.outer) field.info) := by
  simp [ofSite, RecordCollection.settle, RecordCollection.settleField, Record.written]

end ofSite

/-- A record of a unit that does not stand in a loop header is in the index. -/
theorem ofSite_mem (externals : List ExternalRecord) (member : unit ∈ units)
    (h : site ∈ unit.recordSites) (header : site.inHeader = false) :
    ofSite units externals unit site ∈ (ofProgram units externals).records := by
  have written := TranslationUnit.mem_writtenRecords.mpr ⟨site, h, header, rfl⟩
  have collected : site.decl.written unit site.name site.outer ∈
      (RecordCollection.ofProgram units externals).records := by
    rw [RecordCollection.ofProgram_records]
    exact List.mem_append_left _ (List.mem_flatMap.mpr ⟨unit, member, written⟩)
  exact List.mem_map_of_mem collected

/-- The records of outside have the ids that are handed out to them. -/
theorem external_id {written : WrittenRecord}
    (h : written ∈ RecordCollection.externalRecords
      (({} : RecordCollection).nextExternal) externals) :
    written.info.id ∈ RecordCollection.handedOut externals := by
  rw [RecordCollection.handedOut, RecordCollection.addExternals_records]
  exact List.mem_flatMap.mpr ⟨written, List.mem_append_right _ h, List.mem_cons_self⟩

/-- With distinct ids, units that declare one id are the same. -/
theorem DistinctIds.unit_eq (distinct : DistinctIds units externals) {other : TranslationUnit}
    (member : unit ∈ units) (member' : other ∈ units) {id : NodeId} (h : id ∈ unit.declaredIds)
    (h' : id ∈ other.declaredIds) : unit = other :=
  eq_of_mem_flatMap distinct.declared member member' h h'

/-- The ids of one unit are distinct. -/
theorem DistinctIds.unit_nodup (distinct : DistinctIds units externals) (member : unit ∈ units) :
    unit.declaredIds.Nodup :=
  (List.nodup_flatMap.mp distinct.declared).1 unit member

/-- A record under an id that a unit declares comes from a record of the unit. -/
theorem exists_site_of_declared (distinct : DistinctIds units externals) (member : unit ∈ units)
    {record : RecordInfo} (indexed : record ∈ (ofProgram units externals).records)
    (declared : record.id ∈ unit.declaredIds) :
    ∃ site ∈ unit.recordSites, site.inHeader = false ∧
      record = ofSite units externals unit site := by
  obtain ⟨written, collected, rfl⟩ := List.mem_map.mp indexed
  have listed : written ∈ (RecordCollection.ofProgram units externals).records := collected
  rw [RecordCollection.ofProgram_records] at listed
  rcases List.mem_append.mp listed with inside | outside
  · obtain ⟨other, member', own⟩ := List.mem_flatMap.mp inside
    obtain ⟨site, h, header, rfl⟩ := TranslationUnit.mem_writtenRecords.mp own
    have same : unit = other :=
      distinct.unit_eq member member' declared (TranslationUnit.declaredId_of_site h)
    subst same
    exact ⟨site, h, header, rfl⟩
  · have handed : written.info.id ∈ RecordCollection.handedOut externals := external_id outside
    exact absurd (List.mem_flatMap.mpr ⟨unit, member, declared⟩)
      (distinct.apart written.info.id handed)

/-- A record of a unit is found under its id, unless it stands in a loop header. -/
theorem recordById?_site (distinct : DistinctIds units externals) (member : unit ∈ units)
    (h : site ∈ unit.recordSites) :
    (ofProgram units externals).recordById? site.decl.id =
      if site.inHeader then none else some (ofSite units externals unit site) := by
  have nodup := distinct.unit_nodup member
  have only : ∀ record, (ofProgram units externals).recordById? site.decl.id = some record →
      site.inHeader = false ∧ record = ofSite units externals unit site := by
    intro record found
    obtain ⟨reversed, id⟩ := of_find?_key found
    have declared : record.id ∈ unit.declaredIds := by
      rw [id]
      exact TranslationUnit.declaredId_of_site h
    obtain ⟨other, h', header, rfl⟩ :=
      exists_site_of_declared distinct member (List.mem_reverse.mp reversed) declared
    cases TranslationUnit.site_eq_of_id nodup h' h id
    exact ⟨header, rfl⟩
  cases header : site.inHeader with
  | true =>
    cases found : (ofProgram units externals).recordById? site.decl.id with
    | none => rfl
    | some record =>
      have outside := (only record found).1
      rw [header] at outside
      cases outside
  | false =>
    obtain ⟨record, found⟩ := exists_recordById?_of_mem (ofSite_mem externals member h header)
    rw [ofSite_id] at found
    rw [found, (only record found).2]
    rfl

end RecordIndex

end NameBinding
