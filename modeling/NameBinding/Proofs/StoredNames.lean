import NameBinding.Proofs.CollectedRecords
import NameBinding.Proofs.CompletedInPlace

/-!
# Stored type names

When a collection is completed, a type name that denotes a known record is replaced by the qualified
name of this record; any other is stored as written. Looking up what is stored then gives what the
written name denotes in its context, in the completed index: a name that was replaced leads to the
record that owns the qualified name, which is the one that was meant, and a name that was kept is
not known, because the name itself is among the candidates that were tried.
-/

namespace NameBinding

namespace RecordIndex

variable {index : RecordIndex} {context : TypeContext} {name : String} {record : RecordInfo}

/-- The record that a type name denotes owns its qualified name. -/
theorem get?_of_resolveType? (denotes : index.resolveType? name context = some record) :
    index.get? record.name = some record := by
  obtain ⟨candidate, _, found⟩ := List.exists_of_findSome?_eq_some denotes
  rw [name_of_get? found, found]

/-- A type name that denotes nothing is no qualified name. -/
theorem get?_eq_none_of_resolveType? (denotes : index.resolveType? name context = none) :
    index.get? name = none := by
  have last : name ∈ context.candidates name :=
    List.mem_append_right _ (List.mem_singleton_self name)
  exact List.findSome?_eq_none_iff.mp denotes name last

/-- Looking up the full name of what a type name denotes is finding what it denotes. -/
theorem get?_qualifiedName (index : RecordIndex) (context : TypeContext) (name : String) :
    index.get? (index.qualifiedName context name) = index.resolveType? name context := by
  unfold qualifiedName
  cases denotes : index.resolveType? name context with
  | none => exact get?_eq_none_of_resolveType? denotes
  | some record => exact get?_of_resolveType? denotes

/-- A name that is stored in an index leads to what the written name denotes in its context. -/
def KeepsMeaningOf (index : RecordIndex) (context : TypeContext) (written stored : String) : Prop :=
  index.get? stored = index.resolveType? written context

/-- A stored record is the written one but for the names of its superclass and of the types of its
fields, and these keep their meaning. -/
structure Stores (index : RecordIndex) (context : TypeContext) (written stored : RecordInfo) :
    Prop where
  untyped : stored.untyped = written.untyped
  superclass : Option.Rel (index.KeepsMeaningOf context) written.superclass stored.superclass
  fields : Option.Rel (List.Forall₂ fun field info =>
    info.untyped = field.untyped ∧ index.KeepsMeaningOf context field.type info.type)
    written.fields stored.fields

end RecordIndex

/-- A record is added by a call: with the package and the imports of the unit that declares it, or
from outside and without any. -/
inductive Addition.Writes : Addition → WrittenRecord → Prop
  | unit {unit : TranslationUnit} {site : RecordSite} : site ∈ unit.indexedSites →
    Writes (.unit unit)
      ⟨(site.decl.written unit site.name site.outer).info, unit.package, unit.imports⟩
  | external (next : UInt32) (record : ExternalRecord) :
    Writes (.external record) ⟨RecordCollection.externalInfo next record, none, []⟩

namespace RecordCollection

/-- A call adds the records that it writes behind those that were collected before. -/
theorem mem_add {collection : RecordCollection} {addition : Addition} {written : WrittenRecord}
    (listed : written ∈ (collection.add addition).records) :
    written ∈ collection.records ∨ addition.Writes written := by
  cases addition with
  | unit unit =>
    rcases List.mem_append.mp listed with earlier | added
    · exact .inl earlier
    · rw [unit.writtenRecords_eq] at added
      obtain ⟨site, indexed, rfl⟩ := List.mem_map.mp added
      exact .inr (.unit indexed)
  | external record =>
    rcases List.mem_append.mp listed with earlier | added
    · exact .inl earlier
    · rw [List.mem_singleton.mp added]
      exact .inr (.external _ record)

/-- Every collected record was written by one of the calls. -/
theorem exists_addition (additions : List Addition) :
    ∀ written ∈ (ofAdditions additions).records,
      ∃ addition ∈ additions, addition.Writes written := by
  refine List.foldlRecOn (motive := fun collection : RecordCollection =>
    ∀ written ∈ collection.records, ∃ addition ∈ additions, addition.Writes written)
    additions add (by simp) ?_
  intro collection before addition member written listed
  rcases mem_add listed with earlier | writes
  · exact before written earlier
  · exact ⟨addition, member, writes⟩

variable (collection : RecordCollection) (record : WrittenRecord)

/-- Completing a collection changes types alone. -/
theorem finish_sameHeaders : collection.finish.SameHeaders collection.asWritten := by
  rw [RecordIndex.SameHeaders, finish, asWritten, List.map_map, List.map_map]
  rfl

/-- Names are stored as they would be by the completed index. -/
theorem qualifiedName_finish :
    collection.asWritten.qualifiedName = collection.finish.qualifiedName :=
  collection.finish_sameHeaders.qualifiedName_eq.symm

/-- Completing a collection does not change which records stand around a record. -/
theorem enclosing_finish : collection.asWritten.enclosing record.info =
    collection.finish.enclosing (collection.settle record) :=
  (collection.finish_sameHeaders.enclosing_eq (collection.settle record)).symm

/-- What is stored for a type name leads to what the name denotes in the completed index. -/
theorem keepsMeaningOf_qualifiedName (context : TypeContext) (name : String) :
    collection.finish.KeepsMeaningOf context name
      (collection.asWritten.qualifiedName context name) := by
  rw [qualifiedName_finish]
  exact collection.finish.get?_qualifiedName context name

/-- A completed record stores what was collected. -/
theorem stores_settle :
    collection.finish.Stores (collection.contextOf record) record.info
      (collection.settle record) where
  untyped := collection.settle_untyped record
  superclass := by
    rw [settle]
    cases record.info.superclass with
    | none => exact .none
    | some superclass => exact .some (collection.keepsMeaningOf_qualifiedName _ superclass)
  fields := by
    rw [settle]
    cases record.info.fields with
    | none => exact .none
    | some fields =>
      refine .some (List.forall₂_map_right_iff.mpr (List.forall₂_same.mpr fun field _ => ?_))
      exact ⟨rfl, collection.keepsMeaningOf_qualifiedName _ field.type⟩

end RecordCollection

/-- Every record of a completed index stores the types that were written on it under names that lead
to what was meant: to the record that the written name denotes in the completed index, for the
package and the imports it was written with and the records around it, or to none if it denotes
none. The records around it are the same before and after. -/
theorem stored_names_keep_meaning (additions : List Addition) :
    let collection := RecordCollection.ofAdditions additions
    List.Forall₂ (fun written stored =>
        (∃ addition ∈ additions, addition.Writes written) ∧
        collection.asWritten.enclosing written.info = collection.finish.enclosing stored ∧
        collection.finish.Stores
          ⟨written.package, written.imports, collection.asWritten.enclosing written.info⟩
          written.info stored)
      collection.records collection.finish.records := by
  intro collection
  rw [RecordCollection.finish, List.forall₂_map_right_iff, List.forall₂_same]
  intro written listed
  exact ⟨RecordCollection.exists_addition additions written listed,
    collection.enclosing_finish written, collection.stores_settle written⟩

end NameBinding
