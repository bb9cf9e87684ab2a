import NameBinding.Proofs.IndexOrder

/-!
# Completing an index in place

A collection can be completed slot by slot, and each slot is then read off an index in which the
slots before it are rewritten. Rewriting changes types alone: every record keeps its name and the
record it stands in, and no type name is looked up by anything else. So every slot is completed as
it would be from the index as it was written, and the pass ends in the completed index.
-/

namespace NameBinding

namespace RecordIndex

variable {index other third : RecordIndex}

/-- Slot by slot, the records of two indexes have the same names and stand in the same records. -/
def SameHeaders (index other : RecordIndex) : Prop :=
  (index.records.map fun record => (record.name, record.outer)) =
    other.records.map fun record => (record.name, record.outer)

namespace SameHeaders

theorem trans (same : index.SameHeaders other) (further : other.SameHeaders third) :
    index.SameHeaders third :=
  Eq.trans same further

/-- Under a name both indexes find records that stand in the same record, or nothing. -/
theorem get?_outer (same : index.SameHeaders other) (name : String) :
    (index.get? name).map (·.outer) = (other.get? name).map (·.outer) := by
  have byHeader : ∀ i : RecordIndex, (i.get? name).map (·.outer) =
      ((i.records.map fun record => (record.name, record.outer)).find? (·.1 == name)).map
        Prod.snd := by
    intro i
    rw [List.find?_map, Option.map_map]
    rfl
  rw [byHeader, byHeader, same]

/-- Type names have the same full names in both. -/
theorem qualifiedName_eq (same : index.SameHeaders other) :
    index.qualifiedName = other.qualifiedName := by
  refine RecordCollection.qualifiedName_congr fun name => ?_
  have known := congrArg Option.isSome (same.get?_outer name)
  rwa [Option.isSome_map, Option.isSome_map] at known

/-- A record stands inside the same records in both. -/
theorem enclosing_eq (same : index.SameHeaders other) (record : RecordInfo) :
    index.enclosing record = other.enclosing record :=
  enclosing_congr same.get?_outer record

end SameHeaders

end RecordIndex

namespace RecordCollection

variable (collection : RecordCollection) {index : RecordIndex} {slot : Nat} {record : WrittenRecord}

/-- Completing a slot keeps the names of all records and the records they stand in. -/
theorem settleAt_sameHeaders (index : RecordIndex) (slot : Nat) (record : WrittenRecord) :
    (settleAt index slot record).SameHeaders index := by
  unfold settleAt RecordIndex.SameHeaders
  cases found : index.records[slot]? with
  | none => rfl
  | some info =>
    obtain ⟨inside, rfl⟩ := List.getElem?_eq_some_iff.mp found
    have header : (index.records.map fun record => (record.name, record.outer)).set slot
        (index.records[slot].name, index.records[slot].outer) =
          index.records.map fun record => (record.name, record.outer) := by
      rw [← List.map_set (f := fun record : RecordInfo => (record.name, record.outer)),
        List.set_getElem_self]
    rw [List.map_set]
    exact header

/-- A slot that was not touched is completed as it would be from the index as it was written. -/
theorem settleAt_unsettled (same : index.SameHeaders collection.asWritten)
    (untouched : index.records[slot]? = some (unsettled record)) :
    settleAt index slot record = ⟨index.records.set slot (collection.settle record)⟩ := by
  have around : index.enclosing (unsettled record) = collection.asWritten.enclosing record.info :=
    same.enclosing_eq record.info
  rw [settleAt, untouched]
  simp only [around, same.qualifiedName_eq]
  rw [settle, contextOf, unsettled]
  cases record.info.fields with
  | none => rfl
  | some fields => simp only [Option.map_some, Option.getD_some, List.zipWith_self]

/-- Completing the slots behind some completed ones, one after the other, completes all of them. -/
theorem foldl_settleAt (done rest : List WrittenRecord)
    (same : index.SameHeaders collection.asWritten)
    (standing : index.records = done.map collection.settle ++ rest.map unsettled) :
    (rest.zipIdx done.length).foldl (fun index (record, slot) => settleAt index slot record) index =
      ⟨(done ++ rest).map collection.settle⟩ := by
  induction rest generalizing done index with
  | nil =>
    rw [List.append_nil]
    exact congrArg RecordIndex.mk (standing.trans (List.append_nil _))
  | cons record rest ih =>
    have untouched : index.records[done.length]? = some (unsettled record) := by
      simp [standing]
    have step := collection.settleAt_unsettled same untouched
    have later := (settleAt_sameHeaders index done.length record).trans same
    rw [List.zipIdx_cons, List.foldl_cons]
    have further := ih (done ++ [record]) later (by simp [step, standing])
    simpa using further

/-- Completing a collection in place ends in the completed index. -/
theorem finishInPlace_eq_finish : collection.finishInPlace = collection.finish := by
  have start : (⟨collection.records.map unsettled⟩ : RecordIndex).SameHeaders
      collection.asWritten := by
    rw [RecordIndex.SameHeaders, asWritten, List.map_map, List.map_map]
    rfl
  exact collection.foldl_settleAt [] collection.records start rfl

end RecordCollection

end NameBinding
