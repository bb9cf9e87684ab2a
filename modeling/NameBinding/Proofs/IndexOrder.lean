import NameBinding.Proofs.AlikeIndexes
import NameBinding.Proofs.ProgramIndex
import NameBinding.Proofs.ReorderedLists

/-!
# The order in which records are collected

Completing a collection asks only which names are known and which records stand around which. So
where no two records share a name, the order in which they were collected shows in no stored type;
where ids are distinct as well, it shows in no answer of the index.
-/

namespace NameBinding

/-! ### Indexes without clashes -/

namespace RecordIndex

variable {index other : RecordIndex} {R : RecordInfo → RecordInfo → Prop}

/-- No two records have one id or one qualified name, and no two fields have one id. -/
structure Distinct (index : RecordIndex) : Prop where
  ids : (index.records.map (·.id)).Nodup
  fieldIds : (index.fields.map (·.id)).Nodup
  names : (index.records.map (·.name)).Nodup

/-- No collision is listed among records whose names are new and distinct. -/
theorem collisionsAfter_eq_nil_iff {before records : List RecordInfo} :
    collisionsAfter before records = [] ↔
      (records.map (·.name)).Nodup ∧ ∀ record ∈ records, ∀ earlier ∈ before,
        earlier.name ≠ record.name := by
  induction records generalizing before with
  | nil => simp [collisionsAfter]
  | cons record rest ih =>
    rw [collisionsAfter]
    cases found : before.find? (·.name == record.name) with
    | some kept =>
      obtain ⟨member, same⟩ := of_find?_key found
      refine iff_of_false (List.cons_ne_nil _ _) fun ⟨_, apart⟩ => ?_
      exact apart record List.mem_cons_self kept member same
    | none =>
      have new : ∀ earlier ∈ before, earlier.name ≠ record.name := fun earlier member same =>
        absurd (beq_iff_eq.mpr same) (List.find?_eq_none.mp found earlier member)
      rw [ih, List.map_cons, List.nodup_cons, List.forall_mem_cons]
      simp only [List.mem_append, List.mem_singleton, or_imp, forall_and, forall_eq, List.mem_map,
        not_exists, not_and]
      constructor
      · rintro ⟨distinct, apart, after⟩
        exact ⟨⟨fun later member same => after later member same.symm, distinct⟩, new, apart⟩
      · rintro ⟨⟨after, distinct⟩, _, apart⟩
        exact ⟨distinct, apart, fun later member same => after later member same.symm⟩

/-- An index lists no collisions exactly if no two records have one name. -/
theorem collisions_eq_nil_iff : index.collisions = [] ↔ (index.records.map (·.name)).Nodup := by
  rw [collisions, collisionsAfter_eq_nil_iff]
  simp

/-- Indexes that list related records, in whatever order, answer alike if nothing clashes. -/
theorem answersAlike_of_reordered (reordered : Reordered R index.records other.records)
    (alike : ∀ r s, R r s → r.Alike s)
    (fields : ∀ r s, R r s → (r.fields.getD []).Perm (s.fields.getD []))
    (distinct : index.Distinct) : AnswersAlike R index other where
  alike := alike
  get? := reordered.find?_rel (fun r s related => (alike r s related).name) distinct.names
  recordById? := by
    refine reordered.reverse.find?_rel (fun r s related => (alike r s related).id) ?_
    rw [List.map_reverse, List.nodup_reverse]
    exact distinct.ids
  fieldById? := by
    have listed : Reordered Eq index.fields other.fields :=
      reordered.flatMap fun r s related => .of_perm (fun _ => rfl) (fields r s related)
    have apart : (index.fields.reverse.map (·.id)).Nodup := by
      rw [List.map_reverse, List.nodup_reverse]
      exact distinct.fieldIds
    exact fun id => eq_of_optionRel
      (listed.reverse.find?_rel (fun _ _ same => congrArg FieldInfo.id same) apart id)

end RecordIndex

/-! ### Completing reordered collections -/

/-- Two records that agree up to the order of their fields. -/
structure RecordInfo.Reshuffled (r s : RecordInfo) : Prop extends r.Alike s where
  outer : r.outer = s.outer
  fields : (r.fields.getD []).Perm (s.fields.getD [])

/-- Two collected records that agree up to the order of their fields. -/
structure WrittenRecord.Reshuffled (w v : WrittenRecord) : Prop where
  info : w.info.Reshuffled v.info
  package : w.package = v.package
  imports : w.imports = v.imports

theorem WrittenRecord.Reshuffled.refl (w : WrittenRecord) : w.Reshuffled w :=
  ⟨⟨.refl w.info, rfl, .rfl⟩, rfl, rfl⟩

namespace RecordCollection

variable {collection other : RecordCollection} {S : WrittenRecord → WrittenRecord → Prop}
  {R : RecordInfo → RecordInfo → Prop}

/-- Type names are stored alike where the same names are known. -/
theorem qualifiedName_congr {index other : RecordIndex}
    (same : ∀ name, (index.get? name).isSome = (other.get? name).isSome) :
    index.qualifiedName = other.qualifiedName := by
  have named : (fun candidate => (index.get? candidate).map (·.name)) =
      fun candidate => (other.get? candidate).map (·.name) := by
    funext candidate
    have known := same candidate
    cases found : index.get? candidate with
    | none =>
      rw [found, Option.isSome_none] at known
      rw [Option.isNone_iff_eq_none.mp (Option.isSome_eq_false_iff.mp known.symm)]
    | some record =>
      rw [found, Option.isSome_some] at known
      obtain ⟨record', found'⟩ := Option.isSome_iff_exists.mp known.symm
      rw [found', Option.map_some, Option.map_some, (of_find?_key found).2, (of_find?_key found').2]
  have byName : ∀ (index : RecordIndex) context name, index.qualifiedName context name =
      ((context.candidates name).findSome? fun c => (index.get? c).map (·.name)).getD name := by
    intro index context name
    have resolved : (index.resolveType? name context).map (·.name) =
        (context.candidates name).findSome? fun c => (index.get? c).map (·.name) := by
      rw [RecordIndex.resolveType?, List.map_findSome?]
      rfl
    rw [← resolved, RecordIndex.qualifiedName]
    cases index.resolveType? name context <;> rfl
  funext context name
  rw [byName, byName, named]

/-- Completing a record asks only which names are known and which records stand around which. -/
theorem settle_congr (same : ∀ name, (collection.asWritten.get? name).map (·.outer) =
      (other.asWritten.get? name).map (·.outer)) : collection.settle = other.settle := by
  have known : ∀ name, (collection.asWritten.get? name).isSome =
      (other.asWritten.get? name).isSome := by
    intro name
    rw [← Option.isSome_map (f := (·.outer)), same, Option.isSome_map]
  have contexts : collection.contextOf = other.contextOf := by
    funext record
    rw [contextOf, contextOf, RecordIndex.enclosing_congr same]
  funext record
  unfold settle
  rw [contexts, qualifiedName_congr known]

/-- Where no two records share a name, the order of collecting does not show in what is stored. -/
theorem settle_eq_of_reordered (reordered : Reordered S collection.records other.records)
    (agree : ∀ w v, S w v → w.info.name = v.info.name ∧ w.info.outer = v.info.outer)
    (distinct : (collection.records.map (·.info.name)).Nodup) :
    collection.settle = other.settle := by
  refine settle_congr fun name => ?_
  have found := reordered.find?_rel (fun w v related => (agree w v related).1) distinct name
  rw [asWritten, asWritten, RecordIndex.get?, RecordIndex.get?, List.find?_map, List.find?_map,
    Option.map_map, Option.map_map]
  simp only [Function.comp_def]
  exact map_eq_of_optionRel found fun w v related => (agree w v related).2

/-- Completed records have the names they were collected under. -/
theorem finish_names (collection : RecordCollection) :
    collection.finish.records.map (·.name) = collection.records.map (·.info.name) := by
  rw [finish, List.map_map]
  rfl

/-- Reordered collections are completed to reordered indexes. -/
theorem finish_reordered (reordered : Reordered S collection.records other.records)
    (agree : ∀ w v, S w v → w.info.name = v.info.name ∧ w.info.outer = v.info.outer)
    (distinct : collection.finish.Distinct)
    (keeps : ∀ w v, S w v → R (collection.settle w) (collection.settle v)) :
    Reordered R collection.finish.records other.finish.records := by
  have names := distinct.names
  rw [finish_names] at names
  rw [finish, finish, ← settle_eq_of_reordered reordered agree names]
  exact reordered.map keeps

/-- The context of a record does not depend on its fields. -/
theorem contextOf_reshuffled {w v : WrittenRecord} (h : w.Reshuffled v) :
    collection.contextOf w = collection.contextOf v := by
  unfold contextOf RecordIndex.enclosing
  rw [h.package, h.imports, h.info.name, h.info.outer]

/-- Searching the fields of a completed record is searching those that were collected. -/
theorem settle_field? (collection : RecordCollection) (w : WrittenRecord) (name : String) :
    (collection.settle w).field? name = (w.info.field? name).map (collection.settleField w) := by
  unfold RecordInfo.field? settle settleField
  cases w.info.fields with
  | none => rfl
  | some fields =>
    simp only [Option.map_some, Option.bind_some, List.find?_map]
    rfl

/-- Records that agree up to the order of their fields do so when they are completed. -/
theorem settle_reshuffled {w v : WrittenRecord} (h : w.Reshuffled v) :
    (collection.settle w).Reshuffled (collection.settle v) := by
  have fields : collection.settleField w = collection.settleField v := by
    unfold settleField
    rw [contextOf_reshuffled h]
  refine ⟨⟨h.info.id, h.info.name, h.info.simpleName, ?_, ?_, fun name => ?_⟩, h.info.outer, ?_⟩
  · rw [settle, settle, contextOf_reshuffled h, h.info.superclass]
  · rw [settle, settle, Option.isSome_map, Option.isSome_map, h.info.available]
  · rw [settle_field?, settle_field?, h.info.field?, fields]
  · rw [settle_fields, settle_fields, fields]
    exact h.info.fields.map _

end RecordCollection

end NameBinding
