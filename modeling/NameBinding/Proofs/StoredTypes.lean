import NameBinding.Proofs.IndexedUnit

/-!
# Types as they are stored

Completing an index changes types, never names. So a name is known before just when it is known
after, and a type name that denotes a record of the finished index is stored as the name of this
record.
-/

namespace NameBinding

namespace RecordIndex

variable {index : RecordIndex} {name : String} {record : RecordInfo} {context : TypeContext}

/-- What is found under a name has this name. -/
theorem name_of_get? (found : index.get? name = some record) : record.name = name :=
  (of_find?_key found).2

/-- The name of every record of the index is known. -/
theorem get?_ne_none_of_mem (member : record ∈ index.records) :
    index.get? record.name ≠ none := by
  intro absent
  have other := List.find?_eq_none.mp absent record member
  exact other (beq_self_eq_true record.name)

/-- A type name denotes the first candidate that is known. -/
theorem resolveType?_of_candidate {before after : List String} {candidate : String}
    (split : context.candidates name = before ++ candidate :: after)
    (unknown : ∀ other ∈ before, index.get? other = none)
    (found : index.get? candidate = some record) :
    index.resolveType? name context = some record := by
  have skipped : before.findSome? index.get? = none := List.findSome?_eq_none_iff.mpr unknown
  rw [resolveType?, split, List.findSome?_append, skipped, List.findSome?_cons, found]
  rfl

end RecordIndex

namespace RecordCollection

variable {collection : RecordCollection} {context : TypeContext} {name : String}
  {record : RecordInfo}

/-- A name belongs to the same record before the index is completed and after. -/
theorem exists_of_finish_get? (found : collection.finish.get? name = some record) :
    ∃ written ∈ collection.records, collection.asWritten.get? name = some written.info ∧
      record = collection.settle written := by
  rw [finish, RecordIndex.get?, List.find?_map] at found
  obtain ⟨written, first, rfl⟩ := Option.map_eq_some_iff.mp found
  refine ⟨written, List.mem_of_find?_eq_some first, ?_, rfl⟩
  rw [asWritten, RecordIndex.get?, List.find?_map]
  exact congrArg (Option.map WrittenRecord.info) first

/-- The records found under a name before and after have the same name. -/
theorem finish_get?_name (collection : RecordCollection) (name : String) :
    (collection.finish.get? name).map (·.name) = (collection.asWritten.get? name).map (·.name) := by
  rw [finish, asWritten, RecordIndex.get?, RecordIndex.get?, List.find?_map, List.find?_map,
    Option.map_map, Option.map_map]
  rfl

/-- A type name is stored as the name of the record that it denotes in the finished index. -/
theorem qualifiedName_of_resolveType?
    (denotes : collection.finish.resolveType? name context = some record) :
    collection.asWritten.qualifiedName context name = record.name := by
  have same : (collection.finish.resolveType? name context).map (·.name) =
      (collection.asWritten.resolveType? name context).map (·.name) := by
    rw [RecordIndex.resolveType?, RecordIndex.resolveType?, List.map_findSome?, List.map_findSome?]
    exact congrArg (List.findSome? · _) (funext collection.finish_get?_name)
  rw [denotes, Option.map_some] at same
  obtain ⟨early, found, named⟩ := Option.map_eq_some_iff.mp same.symm
  rw [RecordIndex.qualifiedName, found]
  exact named

end RecordCollection

namespace RecordIndex

variable {units : List TranslationUnit} {externals : List ExternalRecord} {unit : TranslationUnit}
  {site : RecordSite}

/-- What the index of a program stores for a type name that is written on a record of a unit. -/
def storedName (units : List TranslationUnit) (externals : List ExternalRecord)
    (unit : TranslationUnit) (site : RecordSite) (name : String) : String :=
  let collection := RecordCollection.ofProgram units externals
  collection.asWritten.qualifiedName
    (collection.contextOf (site.decl.written unit site.name site.outer)) name

/-- The superclass of a record is stored under the name that it denotes. -/
theorem ofSite_superclass (units : List TranslationUnit) (externals : List ExternalRecord)
    (unit : TranslationUnit) (site : RecordSite) :
    (ofSite units externals unit site).superclass =
      site.decl.superclass.map fun type => storedName units externals unit site type.name := by
  rw [ofSite, RecordCollection.settle, Record.written, Option.map_map]
  rfl

/-- A field of a unit is found under its id, its type under the name that it denotes. -/
theorem fieldById?_site (distinct : DistinctIds units externals) (member : unit ∈ units)
    (h : site ∈ unit.recordSites) (header : site.inHeader = false) {field : Field}
    (own : field ∈ site.decl.fields) :
    ∃ info, (ofProgram units externals).fieldById? field.id = some info ∧
      info.type = storedName units externals unit site field.type.name := by
  let info := (RecordCollection.ofProgram units externals).settleField
    (site.decl.written unit site.name site.outer) field.info
  have listed : info ∈ (ofSite units externals unit site).fields.getD [] := by
    rw [ofSite_fields]
    exact List.mem_map_of_mem own
  have indexed : info ∈ (ofProgram units externals).fields :=
    List.mem_flatMap.mpr ⟨_, ofSite_mem externals member h header, listed⟩
  have declares : site.decl.id ∈ units.flatMap TranslationUnit.declaredIds :=
    List.mem_flatMap.mpr ⟨unit, member, TranslationUnit.declaredId_of_site h⟩
  exact ⟨info, fieldById?_of_mem (ofProgram_fields_nodup distinct declares) indexed, rfl⟩

end RecordIndex

end NameBinding
