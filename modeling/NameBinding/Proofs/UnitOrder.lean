import NameBinding.Analysis
import NameBinding.Proofs.AlikeScenes
import NameBinding.Proofs.IndexOrder

/-!
# The order of units

The index of a program lists the records of its units in the order in which the units are given.
Where nothing clashes this order shows in no answer of the index, and the analysis of a unit asks
the index and nothing else about other units.
-/

namespace NameBinding

/-! ### Analysing a unit against indexes that answer alike -/

/-- Uses that are noted at one scope in both logs are the same uses. -/
theorem UseEntry.eq_of_moved {scope : ScopeId} {entry other : UseEntry}
    (moved : UseEntry.Moved scope scope entry other) : entry = other := by
  cases moved <;> rfl

/-- Computations that agree up to equality agree. -/
theorem Outcomes.eq {α : Type} {T : α → α → Prop} {x y : Except Issue α} (h : Outcomes T x y)
    (same : ∀ a b, T a b → a = b) : x = y := by
  cases h with
  | error issue => rfl
  | ok related => rw [same _ _ related]

variable {R : RecordInfo → RecordInfo → Prop} {index other : RecordIndex}

/-- The uses of a step do not tell apart indexes that answer alike. -/
theorem Scene.resolveStep_eq (scene : Scene)
    (answers : RecordIndex.AnswersAlike R scene.index other) (item : Step) :
    scene.resolveStep item = resolveStep { scene with index := other } item := by
  have scenes : Scene.Alike R scene { scene with index := other } :=
    ⟨answers, rfl, rfl, fun _ => rfl⟩
  cases item with
  | record within site => rfl
  | opens within header span => rfl
  | declares within item => rfl
  | uses within inStatic value =>
    have around : scene.SameAround { scene with index := other } (scene.tree.placeOf within)
        (scene.tree.placeOf within) := List.forall₂_same.mpr fun s _ => .refl s
    refine (scenes.uses_rel around inStatic value).eq fun log log' moved => ?_
    have same := moved.imp fun _ _ => UseEntry.eq_of_moved
    rwa [List.forall₂_eq_eq_eq] at same

/-- The uses of a unit do not tell apart indexes that answer alike. -/
theorem resolveReferences_eq_of_answersAlike (answers : RecordIndex.AnswersAlike R index other)
    (unit : TranslationUnit) (tree : ScopeTree) (table : DeclTable) :
    resolveReferences unit tree table index = resolveReferences unit tree table other := by
  rw [resolveReferences_eq, resolveReferences_eq]
  induction unit.outline .recordsFirst with
  | nil => rfl
  | cons item rest ih =>
    rw [Scene.resolveSteps, Scene.resolveSteps,
      Scene.resolveStep_eq ⟨tree, table, index, unit.package, unit.imports⟩ answers, ih]

/-- An index without collisions raises no issues of its own. -/
theorem collisionIssues_eq_nil (tree : ScopeTree) (none : index.collisions = []) :
    collisionIssues tree index = [] := by
  rw [collisionIssues, none, List.filterMap_nil]

/-- The analysis of a unit does not tell apart indexes without collisions that answer alike. -/
theorem resolveUnit_eq_of_answersAlike (answers : RecordIndex.AnswersAlike R index other)
    (none : index.collisions = []) (none' : other.collisions = []) (unit : TranslationUnit)
    (options : Options) : resolveUnit unit index options = resolveUnit unit other options := by
  unfold resolveUnit
  simp only [resolveReferences_eq_of_answersAlike answers, collisionIssues_eq_nil _ none,
    collisionIssues_eq_nil _ none']

/-! ### Reordered programs -/

variable {units others : List TranslationUnit}

/-- A reordered list of units has a reordered index. -/
theorem RecordIndex.build_reordered (reordered : units.Perm others)
    (distinct : (RecordIndex.build units).Distinct) :
    (build units).records.Perm (build others).records := by
  let collection (units : List TranslationUnit) := RecordCollection.ofProgram units []
  have records : (collection units).records.Perm (collection others).records := by
    rw [RecordCollection.ofProgram_records, RecordCollection.ofProgram_records]
    exact (reordered.flatMap_right _).append_right _
  have written : Reordered Eq (collection units).records (collection others).records :=
    .of_perm (fun _ => rfl) records
  have completed : Reordered Eq (build units).records (build others).records :=
    RecordCollection.finish_reordered written (fun _ _ same => same ▸ ⟨rfl, rfl⟩) distinct
      fun _ _ same => congrArg _ same
  exact completed.perm

/-- A reordered list of units has an index that answers alike, by the same records. -/
theorem RecordIndex.build_answersAlike (reordered : units.Perm others)
    (distinct : (RecordIndex.build units).Distinct) :
    AnswersAlike Eq (build units) (build others) :=
  answersAlike_of_reordered (.of_perm (fun _ => rfl) (build_reordered reordered distinct))
    (fun r _ same => same ▸ .refl r) (fun _ _ same => same ▸ .rfl) distinct

/-- Outcomes that are related by equality are equal. -/
theorem FieldLookup.Rel.eq {x y : FieldLookup} (h : FieldLookup.Rel Eq x y) : x = y := by
  cases h with
  | found owners field => rw [owners]
  | unknownRecord | external | notFound => rfl

/-- The order in which units are given does not matter: where no two records share an id or a
qualified name and no two fields share an id, the indexes over the units in any two orders give
the same answers, and every unit is analysed to the same end against either. -/
theorem unit_order_irrelevant (reordered : units.Perm others)
    (distinct : (RecordIndex.build units).Distinct) :
    (∀ name, (RecordIndex.build units).get? name = (RecordIndex.build others).get? name) ∧
    (∀ id, (RecordIndex.build units).recordById? id =
      (RecordIndex.build others).recordById? id) ∧
    (∀ id, (RecordIndex.build units).fieldById? id = (RecordIndex.build others).fieldById? id) ∧
    (∀ name, (RecordIndex.build units).superclassChain name =
      (RecordIndex.build others).superclassChain name) ∧
    (∀ record name, (RecordIndex.build units).findField record name =
      (RecordIndex.build others).findField record name) ∧
    (∀ name context, (RecordIndex.build units).resolveType? name context =
      (RecordIndex.build others).resolveType? name context) ∧
    ∀ unit options, resolveUnit unit (.build units) options =
      resolveUnit unit (.build others) options := by
  have answers := RecordIndex.build_answersAlike reordered distinct
  have names : ((RecordIndex.build others).records.map (·.name)).Nodup :=
    ((RecordIndex.build_reordered reordered distinct).map _).nodup_iff.mp distinct.names
  refine ⟨fun name => eq_of_optionRel (answers.get? name),
    fun id => eq_of_optionRel (answers.recordById? id), answers.fieldById?,
    RecordIndex.superclassChain_eq answers,
    fun record name => (RecordIndex.findField_rel answers record name).eq,
    fun name context => eq_of_optionRel (RecordIndex.resolveType?_rel answers name context), ?_⟩
  exact resolveUnit_eq_of_answersAlike answers
    (RecordIndex.collisions_eq_nil_iff.mpr distinct.names)
    (RecordIndex.collisions_eq_nil_iff.mpr names)

/-- A unit whose record is the superclass of a record of `derivedUnit`. -/
def baseUnit : TranslationUnit :=
  let size : Field := { id := ⟨3⟩, name := "size", type := { name := "int" } }
  { id := ⟨1⟩, name := "Base", records := [⟨⟨2⟩, "Base", none, false, [size], [], [], {}⟩] }

/-- A unit that uses a field its record inherits from `baseUnit`. -/
def derivedUnit : TranslationUnit :=
  let body : Block := ⟨⟨13⟩, [.expr (.reference { id := ⟨14⟩, name := "size" })], {}⟩
  let method : Method := ⟨⟨12⟩, "get", false, false, [], some body, {}⟩
  { id := ⟨10⟩, name := "Derived"
    records := [⟨⟨11⟩, "Derived", some { name := "Base" }, false, [], [method], [], {}⟩] }

theorem unit_order_irrelevant_sample :
    [baseUnit, derivedUnit].Perm [derivedUnit, baseUnit] ∧
    (RecordIndex.build [baseUnit, derivedUnit]).Distinct ∧
    (RecordIndex.build [baseUnit, derivedUnit]).findField "Derived" "size" =
      (RecordIndex.build [derivedUnit, baseUnit]).findField "Derived" "size" ∧
    resolveUnit derivedUnit (.build [baseUnit, derivedUnit]) {} =
      resolveUnit derivedUnit (.build [derivedUnit, baseUnit]) {} ∧
    (∃ analysis, resolveUnit derivedUnit (.build [derivedUnit, baseUnit]) {} = .ok analysis ∧
      analysis.resolutions.reference? ⟨14⟩ = some ⟨some ⟨⟨3⟩, .field⟩, some ⟨⟨11⟩, .this⟩⟩) := by
  have distinct : (RecordIndex.build [baseUnit, derivedUnit]).Distinct :=
    ⟨by decide +kernel, by decide +kernel, by decide +kernel⟩
  have reordered : [baseUnit, derivedUnit].Perm [derivedUnit, baseUnit] := .swap ..
  obtain ⟨_, _, _, _, fields, _, analyses⟩ := unit_order_irrelevant reordered distinct
  have found : (resolveUnit derivedUnit (.build [derivedUnit, baseUnit]) {}).toOption.map
      (fun analysis => analysis.resolutions.reference? ⟨14⟩) =
      some (some ⟨some ⟨⟨3⟩, .field⟩, some ⟨⟨11⟩, .this⟩⟩) := by decide +kernel
  exact ⟨reordered, distinct, fields "Derived" "size", analyses derivedUnit {},
    exists_ok_of_toOption_map found⟩

end NameBinding
