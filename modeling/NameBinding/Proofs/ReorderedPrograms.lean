import NameBinding.Proofs.CorrespondingScopes
import NameBinding.Proofs.IndexOrder

/-!
# Programs in which one unit is replaced

A unit gives way to one with the same steps in another order. If no name is declared twice in the
unit, the fields of each record have distinct names, so their order does not show. So the index of
the program answers as before.
-/

namespace NameBinding

variable {unit other : TranslationUnit} {tree : ScopeTree} {state : Registration}

/-- If nothing is reported, the fields of a record have distinct names. -/
theorem registered_field_names_nodup (built : ScopeTree.build unit = .ok tree)
    (registered : registerDeclarations unit tree = .ok state) (clean : state.issues = [])
    {site : RecordSite} (listed : site ∈ unit.recordSites) :
    (site.decl.fields.map (·.name)).Nodup := by
  have traced := registered_traced built registered
  have accounts := registered_accounts built registered
  obtain ⟨within, member⟩ := TranslationUnit.mem_recordSites.mp listed
  obtain ⟨s, hs, _, owner⟩ := ScopeTree.build_recordsOpened built within site member
  obtain ⟨t, ht, alike⟩ := traced.shape.exists_mem hs
  have id : t.id = s.id := congrArg (·.2.1) alike
  have part := registered_fields_sublist built registered listed hs owner
  have ids : (site.decl.fields.map (·.id)).Nodup := by
    have own := (registered_entries_nodup built registered).sublist (part.map _)
    rwa [List.map_map] at own
  have holds : ∀ field ∈ site.decl.fields,
      t.varBinding? field.name = some (field.declared.declaration s.id).binding := by
    intro field hf
    have hd := part.subset (List.mem_map_of_mem (f := fun f => f.declared.declaration s.id) hf)
    have held := accounts.holder?_eq clean hd
    rw [Registration.holder?_of_scope traced.formed ht id.symm, Scope.holder?, if_neg] at held
    · exact held
    · rw [Declaration.bindingKind_eq_record_iff]
      exact DeclKind.noConfusion
  refine ids.of_map.map_on fun field hf field' hf' same => ?_
  have both := holds field hf
  rw [same, holds field' hf', Option.some_inj] at both
  exact List.inj_on_of_nodup_map ids hf hf' (congrArg Binding.target both).symm

/-- Records in one place of two units are collected alike up to the order of their fields. -/
theorem RecordSite.Alike.written {site site' : RecordSite} (alike : site.Alike site')
    (reorders : unit.Reorders other) (distinct : (site.decl.fields.map (·.name)).Nodup) :
    (site.decl.written unit site.name site.outer).Reshuffled
      (site'.decl.written other site'.name site'.outer) where
  info :=
    { id := alike.id
      name := alike.name
      simpleName := alike.simpleName
      superclass := congrArg (Option.map TypeRef.name) alike.superclass
      available := rfl
      field? := by
        have fields : Reordered Eq (site.decl.fields.map Field.info)
            (site'.decl.fields.map Field.info) := .of_perm (fun _ => rfl) (alike.fields.map _)
        have names : ((site.decl.fields.map Field.info).map (·.name)).Nodup := by
          rw [List.map_map]
          exact distinct
        intro name
        exact eq_of_optionRel
          (fields.find?_rel (fun _ _ same => congrArg FieldInfo.name same) names name)
      outer := alike.outer
      fields := alike.fields.map _ }
  package := reorders.package
  imports := reorders.imports

/-- The records of the units are collected alike up to order. -/
theorem TranslationUnit.Reorders.writtenRecords (reorders : unit.Reorders other)
    (names : ∀ site ∈ unit.recordSites, (site.decl.fields.map (·.name)).Nodup) :
    Reordered WrittenRecord.Reshuffled unit.writtenRecords other.writtenRecords := by
  rw [← unit.writtenOf_outline, ← other.writtenOf_outline]
  refine (reorders.outline .recordsFirst).with_mem.filterMap fun item item' ⟨member, alike⟩ => ?_
  cases alike with
  | @record within site site' alike =>
    rw [Step.written?, Step.written?, alike.inHeader]
    cases site'.inHeader with
    | true => exact .none
    | false =>
      exact .some (alike.written reorders
        (names site (TranslationUnit.mem_recordSites.mpr ⟨within, member⟩)))
  | opens | declares | uses => exact .none

/-- The index of a program answers as before when one of its units gives way to one with the same
steps. -/
theorem RecordIndex.ofProgram_answersAlike {before after : List TranslationUnit}
    {externals : List ExternalRecord} (reorders : unit.Reorders other)
    (names : ∀ site ∈ unit.recordSites, (site.decl.fields.map (·.name)).Nodup)
    (distinct : (RecordIndex.ofProgram (before ++ unit :: after) externals).Distinct) :
    AnswersAlike RecordInfo.Reshuffled (ofProgram (before ++ unit :: after) externals)
      (ofProgram (before ++ other :: after) externals) := by
  have collected : Reordered WrittenRecord.Reshuffled
      (RecordCollection.ofProgram (before ++ unit :: after) externals).records
      (RecordCollection.ofProgram (before ++ other :: after) externals).records := by
    have same := Reordered.refl WrittenRecord.Reshuffled.refl
    rw [RecordCollection.ofProgram_records, RecordCollection.ofProgram_records,
      List.flatMap_append, List.flatMap_append, List.flatMap_cons, List.flatMap_cons]
    exact ((same _).append ((reorders.writtenRecords names).append (same _))).append (same _)
  have completed : Reordered RecordInfo.Reshuffled
      (ofProgram (before ++ unit :: after) externals).records
      (ofProgram (before ++ other :: after) externals).records :=
    RecordCollection.finish_reordered collected
      (fun _ _ reshuffled => ⟨reshuffled.info.name, reshuffled.info.outer⟩) distinct
      fun _ _ => RecordCollection.settle_reshuffled
  exact answersAlike_of_reordered completed (fun _ _ reshuffled => reshuffled.toAlike)
    (fun _ _ reshuffled => reshuffled.fields) distinct

end NameBinding
