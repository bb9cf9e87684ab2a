import NameBinding.Proofs.IndexedUnit

/-!
# What an index keeps

An index is filled by calls that each add the records of a unit or one outside record. Whatever
the order of the calls, if no two ids are the same the index has every record that was added and
finds it and its fields by id, also where its name went to an earlier record. A name belongs to
the first record that was added under it, and each later one is listed as a collision.
-/

namespace NameBinding

/-! ### Records and the types they store -/

/-- A field without its type. -/
def FieldInfo.untyped (field : FieldInfo) : FieldInfo := { field with type := "" }

namespace RecordInfo

/-- A record without the names that are replaced when a collection is completed: those of its
superclass and of the types of its fields. -/
def untyped (record : RecordInfo) : RecordInfo :=
  { record with
    superclass := record.superclass.map fun _ => ""
    fields := record.fields.map fun fields => fields.map FieldInfo.untyped }

/-- The ids of a record and of its fields. -/
def ids (record : RecordInfo) : List NodeId := record.id :: (record.fields.getD []).map (·.id)

/-- The collision that a record has with the first of some records under its name, unless it is
that record itself. -/
def lostTo? (records : List RecordInfo) (record : RecordInfo) : Option RecordCollision :=
  (records.find? (·.name == record.name)).bind fun first =>
    if first.id = record.id then none else some ⟨record.name, first.id, first.span, record.id⟩

end RecordInfo

namespace RecordCollection

variable (collection : RecordCollection) (record : WrittenRecord)

/-- Completing a record replaces nothing but names of types. -/
theorem settle_untyped : (collection.settle record).untyped = record.info.untyped := by
  unfold settle RecordInfo.untyped
  simp only [Option.map_map, Function.comp_def, List.map_map]
  rfl

/-- Completing a field replaces nothing but the name of its type. -/
theorem settleField_untyped (field : FieldInfo) :
    (collection.settleField record field).untyped = field.untyped := rfl

end RecordCollection

/-! ### Collisions -/

namespace RecordIndex

/-- With distinct ids, the collisions among records that come after others are those with the
first record of each name. -/
theorem collisionsAfter_eq (before records : List RecordInfo)
    (distinct : ((before ++ records).map (·.id)).Nodup) :
    collisionsAfter before records =
      records.filterMap (RecordInfo.lostTo? (before ++ records)) := by
  induction records generalizing before with
  | nil => rfl
  | cons record rest ih =>
    have split : before ++ record :: rest = before ++ [record] ++ rest := by simp
    have later := ih (before ++ [record]) (split ▸ distinct)
    rw [← split] at later
    rw [collisionsAfter, List.filterMap_cons, later, RecordInfo.lostTo?, List.find?_append]
    cases found : before.find? (·.name == record.name) with
    | none =>
      have own : (record :: rest).find? (·.name == record.name) = some record :=
        List.find?_cons_of_pos (beq_self_eq_true record.name)
      rw [own]
      simp
    | some first =>
      have earlier : first.id ≠ record.id := by
        rw [List.map_append, List.nodup_append] at distinct
        exact distinct.2.2 _ (List.mem_map_of_mem (of_find?_key found).1) _ List.mem_cons_self
      simp [earlier]

/-- The collisions of an index are those with the first record of each name. -/
theorem collisions_eq {index : RecordIndex} (distinct : (index.records.map (·.id)).Nodup) :
    index.collisions = index.records.filterMap (RecordInfo.lostTo? index.records) :=
  collisionsAfter_eq [] index.records distinct

/-- Which records collide depends on their ids, names and spans alone. -/
theorem filterMap_lostTo?_congr {α : Type} {f g : α → RecordInfo} (items : List α)
    (id : ∀ x, (f x).id = (g x).id) (name : ∀ x, (f x).name = (g x).name)
    (span : ∀ x, (f x).span = (g x).span) :
    (items.map f).filterMap (RecordInfo.lostTo? (items.map f)) =
      (items.map g).filterMap (RecordInfo.lostTo? (items.map g)) := by
  rw [List.filterMap_map, List.filterMap_map]
  refine List.filterMap_congr fun x _ => ?_
  simp only [RecordInfo.lostTo?, List.find?_map, Option.bind_map, Function.comp_def, id, name, span]

end RecordIndex

/-! ### What is added -/

/-- One call that adds to a collection. -/
inductive Addition where
  /-- The records of a unit are added. -/
  | unit (unit : TranslationUnit)
  /-- A record from outside is added. -/
  | external (record : ExternalRecord)

/-- The records that some calls add, in order and with their types as written, if `next` is the
number of the next id for what comes from outside. -/
def Addition.recordsFrom (next : UInt32) : List Addition → List RecordInfo
  | [] => []
  | unit u :: rest =>
    u.indexedSites.map (fun site => (site.decl.written u site.name site.outer).info) ++
      recordsFrom next rest
  | external record :: rest =>
    RecordCollection.externalInfo next record ::
      recordsFrom (next - UInt32.ofNat ((record.fields.getD []).length + 1)) rest

/-- The records that some calls add to an empty collection. -/
def Addition.records (additions : List Addition) : List RecordInfo :=
  recordsFrom ({} : RecordCollection).nextExternal additions

namespace RecordCollection

/-- A collection after one more call. -/
def add (collection : RecordCollection) : Addition → RecordCollection
  | .unit unit => collection.addUnit unit
  | .external record => (collection.addExternal record).2

/-- The collection after some calls. -/
def ofAdditions (additions : List Addition) : RecordCollection := additions.foldl add {}

/-- What calls add to a collection stands behind what it had. -/
theorem foldl_add_records (collection : RecordCollection) (additions : List Addition) :
    (additions.foldl add collection).records.map (·.info) =
      collection.records.map (·.info) ++
        Addition.recordsFrom collection.nextExternal additions := by
  induction additions generalizing collection with
  | nil => exact (List.append_nil _).symm
  | cons addition rest ih =>
    rw [List.foldl_cons, ih]
    cases addition with
    | unit unit =>
      rw [add, addUnit, unit.writtenRecords_eq, Addition.recordsFrom, List.map_append,
        List.map_map, List.append_assoc]
      rfl
    | external record =>
      rw [add, addExternal, Addition.recordsFrom, List.map_append, List.append_assoc]
      rfl

/-- A collection has the records that the calls add, in order. -/
theorem ofAdditions_records (additions : List Addition) :
    (ofAdditions additions).records.map (·.info) = Addition.records additions :=
  foldl_add_records {} additions

end RecordCollection

/-! ### What an index keeps -/

/-- Among records, `record` is the first one under its name. -/
def FirstNamed (records : List RecordInfo) (record : RecordInfo) : Prop :=
  ∃ before after, records = before ++ record :: after ∧ ∀ r ∈ before, r.name ≠ record.name

/-- The first record under a name is the one that is found. -/
theorem FirstNamed.find?_eq {records : List RecordInfo} {record : RecordInfo}
    (first : FirstNamed records record) :
    records.find? (·.name == record.name) = some record := by
  obtain ⟨before, after, split, others⟩ := first
  refine List.find?_eq_some_iff_append.mpr ⟨beq_self_eq_true _, before, after, split, ?_⟩
  intro other member
  simpa using others other member

/-- An index has the records that were added, first come, first named. -/
structure RecordIndex.Keeps (index : RecordIndex) (added : List RecordInfo) : Prop where
  /-- Every record that was added counts. -/
  length : index.records.length = added.length
  /-- Every record that was added is found by its id. -/
  byId : ∀ record ∈ added, ∃ found,
    index.recordById? record.id = some found ∧ found.untyped = record.untyped
  /-- Every field of a record that was added is found by its id. -/
  fieldById : ∀ record ∈ added, ∀ field ∈ record.fields.getD [], ∃ found,
    index.fieldById? field.id = some found ∧ found.untyped = field.untyped
  /-- The first record that was added under a name owns it. -/
  named : ∀ record, FirstNamed added record → ∃ found,
    index.get? record.name = some found ∧ found.untyped = record.untyped
  /-- A name that no record was added under is not known. -/
  unnamed : ∀ name, (∀ record ∈ added, record.name ≠ name) → index.get? name = none
  /-- The later records of each name are listed in the order in which they were added, each with
  the first one. -/
  collisions : index.collisions = added.filterMap (RecordInfo.lostTo? added)

namespace RecordCollection

variable {collection : RecordCollection}

/-- A name is owned by the first record that was collected under it. -/
theorem finish_get? (collection : RecordCollection) (name : String) :
    collection.finish.get? name =
      (collection.records.find? (·.info.name == name)).map collection.settle := by
  rw [RecordIndex.get?, finish, List.find?_map]
  rfl

/-- If no two ids of a collection are the same, nor are those of its records when it is complete,
nor those of their fields. -/
theorem finish_ids_nodup
    (distinct : ((collection.records.map (·.info)).flatMap RecordInfo.ids).Nodup) :
    (collection.finish.records.map (·.id)).Nodup ∧
      (collection.finish.fields.map (·.id)).Nodup := by
  rw [List.flatMap_map] at distinct
  refine ⟨distinct.sublist ?_, distinct.sublist (settled_ids_sublist _)⟩
  rw [finish, List.map_map]
  induction collection.records with
  | nil => exact List.Sublist.refl _
  | cons record rest ih =>
    rw [List.map_cons, List.flatMap_cons]
    exact (ih.trans (List.sublist_append_right _ _)).cons_cons _

/-- A completed collection without repeated ids keeps all that was collected. -/
theorem finish_keeps
    (distinct : ((collection.records.map (·.info)).flatMap RecordInfo.ids).Nodup) :
    collection.finish.Keeps (collection.records.map (·.info)) where
  length := by rw [finish, List.length_map, List.length_map]
  byId := by
    intro record added
    obtain ⟨written, collected, rfl⟩ := List.mem_map.mp added
    have found := RecordIndex.recordById?_of_mem (finish_ids_nodup distinct).1
      (List.mem_map_of_mem collected)
    exact ⟨_, found, collection.settle_untyped written⟩
  fieldById := by
    intro record added field declared
    obtain ⟨written, collected, rfl⟩ := List.mem_map.mp added
    have listed : collection.settleField written field ∈ collection.finish.fields := by
      refine List.mem_flatMap.mpr ⟨_, List.mem_map_of_mem collected, ?_⟩
      rw [settle_fields]
      exact List.mem_map_of_mem declared
    have found := RecordIndex.fieldById?_of_mem (finish_ids_nodup distinct).2 listed
    exact ⟨_, found, collection.settleField_untyped written field⟩
  named := by
    intro record first
    have found := first.find?_eq
    rw [List.find?_map] at found
    obtain ⟨written, owner, rfl⟩ := Option.map_eq_some_iff.mp found
    have known : collection.finish.get? written.info.name = some (collection.settle written) :=
      (collection.finish_get? written.info.name).trans (congrArg _ owner)
    exact ⟨_, known, collection.settle_untyped written⟩
  unnamed := by
    intro name new
    rw [finish_get?, Option.map_eq_none_iff, List.find?_eq_none]
    intro written collected same
    exact new _ (List.mem_map_of_mem collected) (beq_iff_eq.mp same)
  collisions := by
    rw [RecordIndex.collisions_eq (finish_ids_nodup distinct).1]
    exact RecordIndex.filterMap_lostTo?_congr _ (fun _ => rfl) (fun _ => rfl) fun _ => rfl

end RecordCollection

/-- An index that is filled by some calls keeps all that they add, if no two ids are the same. -/
theorem index_keeps_additions (additions : List Addition)
    (distinct : ((Addition.records additions).flatMap RecordInfo.ids).Nodup) :
    (RecordCollection.ofAdditions additions).finish.Keeps (Addition.records additions) := by
  rw [← RecordCollection.ofAdditions_records] at distinct ⊢
  exact RecordCollection.finish_keeps distinct

/-- A unit with a nested and a local record, an outside record under the name of the nested one,
and a unit whose record is called like the first. -/
def clashingAdditions : List Addition :=
  let x (id : UInt32) : Field := ⟨⟨id⟩, "x", ⟨"B", {}⟩, false, none, {}⟩
  let inner : Record := ⟨⟨5⟩, "B", none, false, [x 6], [], [], ⟨20, 25⟩⟩
  let body : Block := ⟨⟨4⟩, [.record inner], {}⟩
  let nested : Record := ⟨⟨2⟩, "B", none, false, [], [], [], ⟨10, 15⟩⟩
  let method : Method := ⟨⟨3⟩, "m", false, false, [], some body, {}⟩
  let around : Record := ⟨⟨1⟩, "A", none, false, [], [method], [nested], ⟨5, 30⟩⟩
  let again : Record := ⟨⟨7⟩, "A", none, false, [x 8], [], [], ⟨2, 9⟩⟩
  [.unit { id := ⟨0⟩, name := "First", records := [around] },
    .external ⟨"A.B", none, some [⟨"y", "A", true⟩]⟩,
    .unit { id := ⟨9⟩, name := "Second", records := [again] }]

theorem index_keeps_additions_sample :
    ((Addition.records clashingAdditions).flatMap RecordInfo.ids).Nodup ∧
      (RecordCollection.ofAdditions clashingAdditions).finish.Keeps
        (Addition.records clashingAdditions) ∧
      (RecordCollection.ofAdditions clashingAdditions).finish.collisions =
        [⟨"A.B", ⟨2⟩, ⟨10, 15⟩, ⟨0xFFFFFFFF⟩⟩, ⟨"A", ⟨1⟩, ⟨5, 30⟩, ⟨7⟩⟩] := by
  have distinct : ((Addition.records clashingAdditions).flatMap RecordInfo.ids).Nodup := by
    decide +kernel
  exact ⟨distinct, index_keeps_additions clashingAdditions distinct, by decide +kernel⟩

end NameBinding
