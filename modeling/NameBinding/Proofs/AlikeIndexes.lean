import NameBinding.Proofs.EnclosingRecords
import NameBinding.Proofs.ReorderedLists

/-!
# Indexes that answer alike

Two indexes answer alike if they know the same names and ids, and what they know under them is
related: it may be equal, or equal up to the order of fields. Superclass chains, searches for fields
and type names are put together from such answers, so they come out related as well.
-/

namespace NameBinding

/-- Two records that agree in all that name resolution asks of a record; their fields may be in
different orders. -/
structure RecordInfo.Alike (r s : RecordInfo) : Prop where
  id : r.id = s.id
  name : r.name = s.name
  simpleName : r.simpleName = s.simpleName
  superclass : r.superclass = s.superclass
  available : r.fields.isSome = s.fields.isSome
  field? : ∀ name, r.field? name = s.field? name

theorem RecordInfo.Alike.refl (r : RecordInfo) : r.Alike r :=
  ⟨rfl, rfl, rfl, rfl, rfl, fun _ => rfl⟩

/-- Two outcomes of a search for a field: the field is found on related records or is missed for
one reason. -/
inductive FieldLookup.Rel (R : RecordInfo → RecordInfo → Prop) : FieldLookup → FieldLookup → Prop
  | found {r s : RecordInfo} (owners : R r s) (field : FieldInfo) :
    Rel R (.found r field) (.found s field)
  | unknownRecord : Rel R .unknownRecord .unknownRecord
  | external : Rel R .external .external
  | notFound : Rel R .notFound .notFound

namespace RecordIndex

variable {index other : RecordIndex} {R : RecordInfo → RecordInfo → Prop}

section trail

variable {link : RecordInfo → Option String} {visited : List String} {name : String}

/-- A name that has been met is not followed. -/
theorem trail_seen (seen : visited.contains name = true) :
    index.trail link visited (some name) = [] := by
  rw [trail]
  simp only [seen, dite_true]

/-- A new name that is not known ends the trail. -/
theorem trail_unknown (new : ¬visited.contains name = true) (absent : index.get? name = none) :
    index.trail link visited (some name) = [name] := by
  rw [trail, dif_neg new]
  split
  · rfl
  · rename_i record found
    rw [absent] at found
    cases found

/-- Following links meets the same names where the same names are known with the same links. -/
theorem trail_congr (same : ∀ name, (index.get? name).map link = (other.get? name).map link)
    (visited : List String) (next : Option String) :
    index.trail link visited next = other.trail link visited next := by
  fun_induction index.trail link visited next with
  | case1 visited => exact trail_none.symm
  | case2 visited name seen => exact (trail_seen seen).symm
  | case3 visited name new found =>
    have unknown := same name
    rw [found, Option.map_none] at unknown
    exact (trail_unknown new (Option.map_eq_none_iff.mp unknown.symm)).symm
  | case4 visited name new record found ih =>
    have known := same name
    rw [found, Option.map_some] at known
    obtain ⟨record', found', linked⟩ := Option.map_eq_some_iff.mp known.symm
    have fresh : name ∉ visited := fun seen => new (List.contains_iff_mem.mpr seen)
    rw [ih, trail_known fresh found', linked]

end trail

/-- The records around a record are the same where the same names are known inside the same
records. -/
theorem enclosing_congr (same : ∀ name, (index.get? name).map (·.outer) =
      (other.get? name).map (·.outer)) (record : RecordInfo) :
    index.enclosing record = other.enclosing record := by
  have known : (fun name => (index.get? name).isSome) = fun name => (other.get? name).isSome := by
    funext name
    rw [← Option.isSome_map (f := (·.outer)), same, Option.isSome_map]
  rw [enclosing, enclosing, trail_congr same, known]

/-- Two indexes that answer alike, up to a relation of records. -/
structure AnswersAlike (R : RecordInfo → RecordInfo → Prop) (index other : RecordIndex) : Prop where
  alike : ∀ r s, R r s → r.Alike s
  get? : ∀ name, Option.Rel R (index.get? name) (other.get? name)
  recordById? : ∀ id, Option.Rel R (index.recordById? id) (other.recordById? id)
  fieldById? : ∀ id, index.fieldById? id = other.fieldById? id

section

variable (answers : AnswersAlike R index other) {r s : RecordInfo}

/-- Related records searched in turn give related outcomes. -/
theorem searchField_rel (alike : ∀ r s, R r s → r.Alike s) (name : String)
    {xs ys : List (Option RecordInfo)} (related : List.Forall₂ (Option.Rel R) xs ys) :
    FieldLookup.Rel R (searchField name xs) (searchField name ys) := by
  induction related with
  | nil => exact .notFound
  | cons first _ ih =>
    cases first with
    | none => exact .external
    | @some r s first =>
      have available := (alike r s first).available
      have field := (alike r s first).field? name
      unfold searchField
      cases fields : r.fields with
      | none =>
        rw [fields] at available
        have hidden : s.fields = none := by simpa using available.symm
        simp only [hidden]
        exact .external
      | some own =>
        rw [fields] at available
        obtain ⟨own', fields'⟩ := Option.isSome_iff_exists.mp available.symm
        simp only [fields', field]
        cases s.field? name with
        | none => exact ih
        | some field => exact .found first field

include answers

/-- Related records have the same superclass chain. -/
theorem ancestors_eq (related : R r s) : index.ancestors r = other.ancestors s := by
  unfold ancestors
  rw [(answers.alike _ _ related).name, (answers.alike _ _ related).superclass]
  exact trail_congr (fun name => map_eq_of_optionRel (answers.get? name) fun _ _ related =>
    (answers.alike _ _ related).superclass) _ _

/-- A search for a field finds related records and the same field. -/
theorem findFieldIn_rel (related : R r s) (name : String) :
    FieldLookup.Rel R (index.findFieldIn r name) (other.findFieldIn s name) := by
  unfold findFieldIn
  rw [ancestors_eq answers related]
  refine searchField_rel answers.alike name (.cons (.some related) ?_)
  rw [List.forall₂_map_left_iff, List.forall₂_map_right_iff, List.forall₂_same]
  exact fun ancestor _ => answers.get? ancestor

/-- The same of a search that starts from a qualified name. -/
theorem findField_rel (record name : String) :
    FieldLookup.Rel R (index.findField record name) (other.findField record name) := by
  unfold findField
  have known := answers.get? record
  generalize index.get? record = x, other.get? record = y at known ⊢
  cases known with
  | none => exact .unknownRecord
  | some related => exact findFieldIn_rel answers related name

/-- A name has the same superclass chain in both. -/
theorem superclassChain_eq (record : String) :
    index.superclassChain record = other.superclassChain record := by
  unfold superclassChain
  have known := answers.get? record
  generalize index.get? record = x, other.get? record = y at known ⊢
  cases known with
  | none => rfl
  | some related => exact ancestors_eq answers related

/-- A type name denotes related records in one context. -/
theorem resolveType?_rel (name : String) (context : TypeContext) :
    Option.Rel R (index.resolveType? name context) (other.resolveType? name context) := by
  unfold resolveType?
  induction context.candidates name with
  | nil => exact .none
  | cons candidate rest ih =>
    rw [List.findSome?_cons, List.findSome?_cons]
    have known := answers.get? candidate
    generalize index.get? candidate = x, other.get? candidate = y at known ⊢
    cases known with
    | none => exact ih
    | some related => exact .some related

end

end RecordIndex

end NameBinding
