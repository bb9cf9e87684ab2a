import NameBinding.Proofs.CollectedRecords
import NameBinding.Proofs.IssueSources
import NameBinding.Proofs.MalformedUnits
import NameBinding.Proofs.RecordAgreement

/-!
# Names that other units have taken

Units of a program may claim one qualified name. The first record that was indexed under it keeps
the name; each later record in another unit is reported, once and in its own unit, beside what
registration reports there. The unit that keeps the name hears nothing of it. Only records in the
headers of `for` loops escape, as they do not enter the index.
-/

namespace NameBinding

variable {units : List TranslationUnit} {unit : TranslationUnit} {site : RecordSite}

/-! ### Who owns a name -/

/-- The nodes that own the scopes of a unit. -/
def TranslationUnit.scopeOwners (unit : TranslationUnit) : List NodeId :=
  unit.id :: unit.openings.map (·.header.owner)

/-- The records of a program that enter its index, in order and each with its unit. -/
def indexedSitesOf (units : List TranslationUnit) : List (TranslationUnit × RecordSite) :=
  units.flatMap fun unit => unit.indexedSites.map (unit, ·)

/-- The record that was indexed first under a qualified name, with its unit. -/
def firstOwner? (units : List TranslationUnit) (name : String) :
    Option (TranslationUnit × RecordSite) :=
  (indexedSitesOf units).find? (·.2.name == name)

/-- The issue of a record of a unit whose qualified name belongs to a record of another unit. -/
def TranslationUnit.lostName? (units : List TranslationUnit) (unit : TranslationUnit)
    (site : RecordSite) : Option Issue :=
  (firstOwner? units site.name).bind fun first =>
    if first.1.id = unit.id then none
    else some ⟨.duplicate site.name first.2.decl.span, site.decl.span⟩

/-- The issues of the records of a unit whose qualified names belong to other units. -/
def TranslationUnit.lostNames (units : List TranslationUnit) (unit : TranslationUnit) :
    List Issue :=
  unit.indexedSites.filterMap (unit.lostName? units)

/-- The indexed records of a program are those of its units. -/
theorem mem_indexedSitesOf {entry : TranslationUnit × RecordSite} :
    entry ∈ indexedSitesOf units ↔ entry.1 ∈ units ∧ entry.2 ∈ entry.1.indexedSites := by
  obtain ⟨unit, site⟩ := entry
  simp [indexedSitesOf]

namespace TranslationUnit

/-- A record opens a scope. -/
theorem scopeOwner_of_site (h : site ∈ unit.recordSites) : site.decl.id ∈ unit.scopeOwners := by
  obtain ⟨within, listed⟩ := mem_recordSites.mp h
  have opens := mem_openingsOf.mpr ⟨_, unit.outline_perm.mem_iff.mp listed, rfl⟩
  exact List.mem_cons_of_mem _ (List.mem_map_of_mem opens)

/-- The ids of records are some of the owners of the scopes that steps open. -/
theorem site_owners_sublist (steps : List Step) :
    ((steps.filterMap Step.site?).map (·.decl.id)).Sublist
      ((openingsOf steps).map (·.header.owner)) := by
  induction steps with
  | nil => exact List.Sublist.refl _
  | cons item rest ih =>
    cases item with
    | record within site => exact ih.cons_cons _
    | opens within header span => exact ih.cons _
    | declares within item => exact ih
    | uses within inStatic value => exact ih

/-- If no two scopes have one owner, no two records have one id. -/
theorem recordSites_nodup (distinct : unit.scopeOwners.Nodup) :
    (unit.recordSites.map (·.decl.id)).Nodup := by
  have owners : (unit.openings.map (·.header.owner)).Nodup := (List.nodup_cons.mp distinct).2
  have reordered := (unit.outline_perm.filterMap Step.opening?).map (·.header.owner)
  exact (reordered.nodup_iff.mpr owners).sublist
    (site_owners_sublist (unit.outline .recordsFirst))

/-- So no two records that enter the index have one id. -/
theorem indexedSites_nodup (distinct : unit.scopeOwners.Nodup) :
    (unit.indexedSites.map (·.decl.id)).Nodup :=
  (recordSites_nodup distinct).sublist (List.filter_sublist.map _)

end TranslationUnit

/-- The unit that owns a name has lost no record of this name. -/
theorem lostNames_of_owner {name : String} {first : RecordSite}
    (owns : firstOwner? units name = some (unit, first)) :
    ∀ issue ∈ unit.lostNames units, ∀ span, issue.cause ≠ .duplicate name span := by
  intro issue listed span cause
  obtain ⟨site, _, lost⟩ := List.mem_filterMap.mp listed
  obtain ⟨kept, found, issued⟩ := Option.bind_eq_some_iff.mp lost
  by_cases own : kept.1.id = unit.id
  · rw [if_pos own] at issued
    cases issued
  · rw [if_neg own] at issued
    cases issued
    cases cause
    cases found.symm.trans owns
    exact own rfl

/-! ### Programs whose scopes have distinct owners -/

/-- No two scopes of a program have one owner. -/
def DistinctOwners (units : List TranslationUnit) : Prop :=
  (units.flatMap TranslationUnit.scopeOwners).Nodup

namespace DistinctOwners

variable (distinct : DistinctOwners units)

include distinct

/-- The units have distinct ids. -/
theorem unit_ids : (units.map (·.id)).Nodup := by
  refine List.pairwise_map.mpr ((List.nodup_flatMap.mp distinct).2.imp ?_)
  intro unit other disjoint same
  exact disjoint List.mem_cons_self (same ▸ List.mem_cons_self)

/-- Records that enter the index have distinct ids. -/
theorem site_ids : ((indexedSitesOf units).map (·.2.decl.id)).Nodup := by
  obtain ⟨each, apart⟩ := List.nodup_flatMap.mp distinct
  have byUnit : (indexedSitesOf units).map (·.2.decl.id) =
      units.flatMap fun unit => unit.indexedSites.map (·.decl.id) := by
    simp only [indexedSitesOf, List.map_flatMap, List.map_map, Function.comp_def]
  have opened : ∀ {unit : TranslationUnit} {id}, id ∈ unit.indexedSites.map (·.decl.id) →
      id ∈ unit.scopeOwners := by
    intro unit id listed
    obtain ⟨site, h, rfl⟩ := List.mem_map.mp listed
    exact TranslationUnit.scopeOwner_of_site (TranslationUnit.mem_indexedSites.mp h).1
  rw [byUnit, List.nodup_flatMap]
  refine ⟨fun unit member => TranslationUnit.indexedSites_nodup (each unit member), ?_⟩
  exact apart.imp fun disjoint id first second => disjoint (opened first) (opened second)

/-- The scope of a record lies in the unit of the record and in no other. -/
theorem owns_iff (member : unit ∈ units) {entry : TranslationUnit × RecordSite}
    (listed : entry ∈ indexedSitesOf units) :
    entry.2.decl.id ∈ unit.scopeOwners ↔ entry.1.id = unit.id := by
  obtain ⟨member', h⟩ := mem_indexedSitesOf.mp listed
  have opened := TranslationUnit.scopeOwner_of_site (TranslationUnit.mem_indexedSites.mp h).1
  constructor
  · intro owned
    rw [eq_of_mem_flatMap distinct member' member opened owned]
  · intro same
    have one := List.inj_on_of_nodup_map distinct.unit_ids member' member same
    rw [← one]
    exact opened

end DistinctOwners

namespace RecordIndex

/-- The index of a program without outside records, record by record. -/
theorem build_records (units : List TranslationUnit) :
    (build units).records =
      (indexedSitesOf units).map fun entry => ofSite units [] entry.1 entry.2 := by
  have listed : (RecordCollection.ofProgram units []).records =
      (indexedSitesOf units).map fun entry =>
        entry.2.decl.written entry.1 entry.2.name entry.2.outer := by
    rw [RecordCollection.ofProgram_records, RecordCollection.externalRecords, List.append_nil,
      indexedSitesOf, List.map_flatMap]
    refine List.flatMap_congr fun unit _ => ?_
    rw [unit.writtenRecords_eq, List.map_map]
    rfl
  have complete : (build units).records = (RecordCollection.ofProgram units []).records.map
      (RecordCollection.ofProgram units []).settle := rfl
  rw [complete, listed, List.map_map]
  rfl

/-- The index knows a name by its first owner. -/
theorem build_get? (units : List TranslationUnit) (name : String) :
    (build units).get? name =
      (firstOwner? units name).map fun first => ofSite units [] first.1 first.2 := by
  rw [get?, build_records, List.find?_map]
  rfl

/-- The collision of a record of a program is one with the first owner of its name. -/
theorem lostTo?_ofSite (units : List TranslationUnit) (entry : TranslationUnit × RecordSite) :
    (ofSite units [] entry.1 entry.2).lostTo? (build units).records =
      (firstOwner? units entry.2.name).bind fun first =>
        if first.2.decl.id = entry.2.decl.id then none
        else some ⟨entry.2.name, first.2.decl.id, first.2.decl.span, entry.2.decl.id⟩ := by
  rw [RecordInfo.lostTo?, ofSite_name, ← get?, build_get?, Option.bind_map]
  rfl

/-- The records of the index have distinct ids. -/
theorem build_ids_nodup (distinct : DistinctOwners units) :
    ((build units).records.map (·.id)).Nodup := by
  rw [build_records, List.map_map]
  exact distinct.site_ids

end RecordIndex

/-! ### The issues of a unit -/

/-- The scopes of a registered tree belong to the owners that its unit lists. -/
theorem ScopeTree.scopeOf?_isSome_iff {tree later : ScopeTree} (built : build unit = .ok tree)
    (same : tree.SameShape later) {node : NodeId} :
    (later.scopeOf? node).isSome ↔ node ∈ unit.scopeOwners := by
  rw [same.scopeOf?_eq, Option.isSome_iff_ne_none, Ne,
    (build_formed built).scopeOf?_eq_none_iff_not_mem, not_not, build_owners built,
    TranslationUnit.scopeOwners]

section collisionIssues

variable {tree later : ScopeTree} (distinct : DistinctOwners units) (member : unit ∈ units)
  (built : ScopeTree.build unit = .ok tree) (same : tree.SameShape later)

include distinct member built same

/-- A collision between two records of a program is reported in a unit that has the later one and
not the first one. -/
theorem collisionIssue?_of_entries {entry kept : TranslationUnit × RecordSite}
    (listed : entry ∈ indexedSitesOf units) (first : kept ∈ indexedSitesOf units) (name : String) :
    collisionIssue? later (.build units)
        ⟨name, kept.2.decl.id, kept.2.decl.span, entry.2.decl.id⟩ =
      if entry.1.id = unit.id ∧ kept.1.id ≠ unit.id then
        some ⟨.duplicate name kept.2.decl.span, entry.2.decl.span⟩ else none := by
  have opened : ∀ {e : TranslationUnit × RecordSite}, e ∈ indexedSitesOf units →
      (later.scopeOf? e.2.decl.id).isSome = decide (e.1.id = unit.id) := by
    intro e member'
    rw [Bool.eq_iff_iff, ScopeTree.scopeOf?_isSome_iff built same,
      distinct.owns_iff member member', decide_eq_true_iff]
  have indexed : RecordIndex.ofSite units [] entry.1 entry.2 ∈
      (RecordIndex.build units).records := by
    rw [RecordIndex.build_records]
    exact List.mem_map_of_mem listed
  have found : (RecordIndex.build units).recordById? entry.2.decl.id =
      some (RecordIndex.ofSite units [] entry.1 entry.2) :=
    RecordIndex.recordById?_of_mem (RecordIndex.build_ids_nodup distinct) indexed
  simp only [collisionIssue?, opened listed, ← Option.not_isSome, opened first, found,
    Bool.and_eq_true, decide_eq_true_eq, Bool.not_eq_true', decide_eq_false_iff_not]
  rfl

/-- The collision of a record is reported in its own unit, if the name belongs to another one. -/
theorem collisionIssue?_of_entry {entry : TranslationUnit × RecordSite}
    (listed : entry ∈ indexedSitesOf units) :
    ((RecordIndex.ofSite units [] entry.1 entry.2).lostTo? (RecordIndex.build units).records).bind
        (collisionIssue? later (.build units)) =
      if entry.1.id = unit.id then unit.lostName? units entry.2 else none := by
  rw [RecordIndex.lostTo?_ofSite, TranslationUnit.lostName?]
  cases found : firstOwner? units entry.2.name with
  | none => simp
  | some kept =>
    have first : kept ∈ indexedSitesOf units := List.mem_of_find?_eq_some found
    have issue := collisionIssue?_of_entries distinct member built same listed first entry.2.name
    by_cases one : kept.2.decl.id = entry.2.decl.id
    · have own : kept = entry := List.inj_on_of_nodup_map distinct.site_ids first listed one
      subst own
      by_cases here : kept.1.id = unit.id <;> simp [here]
    · by_cases here : entry.1.id = unit.id
      · by_cases keeps : kept.1.id = unit.id <;> simp [one, issue, here, keeps]
      · simp [one, issue, here]

/-- What the index reports to a unit are the names that its records have lost to other units. -/
theorem collisionIssues_eq : collisionIssues later (.build units) = unit.lostNames units := by
  have byUnit : ∀ other ∈ units, other.id ≠ unit.id →
      other.indexedSites.filterMap (fun site =>
        if other.id = unit.id then unit.lostName? units site else none) = [] := by
    intro other _ different
    simp only [if_neg different, List.filterMap_none]
  rw [collisionIssues, RecordIndex.collisions_eq (RecordIndex.build_ids_nodup distinct)]
  nth_rewrite 2 [RecordIndex.build_records]
  rw [List.filterMap_map, List.filterMap_filterMap]
  refine (List.filterMap_congr fun entry listed =>
    collisionIssue?_of_entry distinct member built same listed).trans ?_
  rw [indexedSitesOf, List.filterMap_flatMap]
  simp only [List.filterMap_map, Function.comp_def]
  rw [flatMap_key (·.id) distinct.unit_ids member byUnit]
  simp only [if_true]
  rfl

end collisionIssues

/-- Whether an issue reports a name that is taken. -/
def Issue.isDuplicate (issue : Issue) : Bool :=
  match issue.cause with
  | .duplicate .. => true
  | .unresolved .. | .malformed .. | .ambiguousShadow .. | .staticContext .. => false

/-- Issues about names that are taken all stay. -/
theorem filter_isDuplicate_eq_self {issues : List Issue}
    (duplicates : ∀ issue ∈ issues, ∃ name first, issue.cause = .duplicate name first) :
    issues.filter Issue.isDuplicate = issues := by
  rw [List.filter_eq_self]
  intro issue listed
  obtain ⟨name, first, cause⟩ := duplicates issue listed
  rw [Issue.isDuplicate, cause]

/-- Uses do not give rise to reports of taken names. -/
theorem UseLog.filter_isDuplicate (log : UseLog) (reportUnresolved : Bool) :
    (log.issues reportUnresolved).filter Issue.isDuplicate = [] := by
  rw [List.filter_eq_nil_iff]
  intro issue listed
  rcases UseLog.issues_cause issue listed with ⟨name, reason, cause⟩ | ⟨name, cause⟩ <;>
    simp [Issue.isDuplicate, cause]

/-- Neither do shadows. -/
theorem shadowsOf_filter_isDuplicate (options : Options) (tree : ScopeTree) (log : UseLog) :
    (shadowsOf options tree log).filter Issue.isDuplicate = [] := by
  rw [List.filter_eq_nil_iff]
  intro issue listed
  obtain ⟨name, other, cause⟩ := shadowsOf_ambiguousShadow issue listed
  simp [Issue.isDuplicate, cause]

/-- A name that another unit has taken is reported by the unit that lost it, and only there. In a
program whose scopes have distinct owners, the taken names that a unit reports are those of its
registration and, for each of its indexed records whose qualified name was first indexed for a
record of another unit, one with this name, the span of that first record and the span of its own.
The unit that owns a name reports none for it. -/
theorem taken_names_reported_by_loser {options : Options} {analysis : UnitAnalysis}
    (distinct : DistinctOwners units) (member : unit ∈ units)
    (run : resolveUnit unit (.build units) options = .ok analysis) :
    ∃ tree state, ScopeTree.build unit = .ok tree ∧ registerDeclarations unit tree = .ok state ∧
      analysis.issues.filter Issue.isDuplicate =
        inSourceOrder (state.issues ++ unit.lostNames units) ∧
      ∀ name first, firstOwner? units name = some (unit, first) →
        ∀ issue ∈ unit.lostNames units, ∀ span, issue.cause ≠ .duplicate name span := by
  obtain ⟨tree, state, log, phases⟩ := UnitAnalysis.exists_phases run
  have shape := (registered_traced phases.built phases.registered).shape
  have lost := collisionIssues_eq distinct member phases.built shape
  refine ⟨tree, state, phases.built, phases.registered, ?_, fun _ _ => lostNames_of_owner⟩
  rw [phases.issues_eq run, filter_inSourceOrder, List.filter_append, List.filter_append,
    List.filter_append, log.filter_isDuplicate, shadowsOf_filter_isDuplicate,
    filter_isDuplicate_eq_self (registered_reportsDuplicates phases.registered),
    filter_isDuplicate_eq_self collisionIssues_duplicate, lost, List.append_nil, List.append_nil]

/-- A unit with two records of one name, a record nested in the first of them. -/
def claimingUnit : TranslationUnit :=
  let nested : Record := ⟨⟨32⟩, "B", none, false, [], [], [], ⟨12, 15⟩⟩
  { id := ⟨30⟩, name := "Third"
    records := [⟨⟨31⟩, "A", none, false, [], [], [nested], ⟨10, 20⟩⟩,
      ⟨⟨33⟩, "A", none, false, [], [], [], ⟨30, 35⟩⟩] }

/-- The first unit takes the name of the record, the second that of the nested one. -/
def claimingUnits : List TranslationUnit :=
  [{ id := ⟨10⟩, name := "First", records := [⟨⟨11⟩, "A", none, false, [], [], [], ⟨1, 4⟩⟩] },
    { id := ⟨20⟩, name := "Second", package := some "A"
      records := [⟨⟨21⟩, "B", none, false, [], [], [], ⟨5, 8⟩⟩] },
    claimingUnit]

/-- The third unit loses both names, one of them for two records. -/
theorem taken_names_reported_by_loser_sample :
    DistinctOwners claimingUnits ∧ claimingUnit ∈ claimingUnits ∧
      ∃ analysis tree state,
        resolveUnit claimingUnit (.build claimingUnits) {} = .ok analysis ∧
          ScopeTree.build claimingUnit = .ok tree ∧
          registerDeclarations claimingUnit tree = .ok state ∧
          analysis.issues.filter Issue.isDuplicate = inSourceOrder (state.issues ++
            [⟨.duplicate "A" ⟨1, 4⟩, ⟨10, 20⟩⟩, ⟨.duplicate "A.B" ⟨5, 8⟩, ⟨12, 15⟩⟩,
              ⟨.duplicate "A" ⟨1, 4⟩, ⟨30, 35⟩⟩]) := by
  have distinct : DistinctOwners claimingUnits := by
    unfold DistinctOwners
    decide +kernel
  have member : claimingUnit ∈ claimingUnits := by simp [claimingUnits]
  have lost : claimingUnit.lostNames claimingUnits =
      [⟨.duplicate "A" ⟨1, 4⟩, ⟨10, 20⟩⟩, ⟨.duplicate "A.B" ⟨5, 8⟩, ⟨12, 15⟩⟩,
        ⟨.duplicate "A" ⟨1, 4⟩, ⟨30, 35⟩⟩] := by decide +kernel
  have succeeds : (resolveUnit claimingUnit (.build claimingUnits) {}).toOption.map (·.unit) =
      some "Third" := by decide +kernel
  obtain ⟨analysis, run, _⟩ := exists_ok_of_toOption_map succeeds
  obtain ⟨tree, state, built, registered, issues, _⟩ :=
    taken_names_reported_by_loser distinct member run
  exact ⟨distinct, member, analysis, tree, state, run, built, registered, lost ▸ issues⟩

/-- A unit whose record is called like the record in the header of a loop of another unit. -/
def headerClash : List TranslationUnit :=
  [{ id := ⟨10⟩, name := "First", records := [⟨⟨11⟩, "A$5L", none, false, [], [], [], ⟨3, 9⟩⟩] },
    headerUnit]

/-- A record in the header of a loop whose qualified name belongs to another unit goes
unreported. -/
theorem taken_header_name_unreported :
    DistinctOwners headerClash ∧
      (∃ site ∈ headerUnit.recordSites, site.name = "A$5L") ∧
      (firstOwner? headerClash "A$5L").map (·.1.id) = some ⟨10⟩ ∧
      ∃ analysis, resolveUnit headerUnit (.build headerClash) {} = .ok analysis ∧
        analysis.issues = [] := by
  have distinct : DistinctOwners headerClash := by
    unfold DistinctOwners
    decide +kernel
  have named : "A$5L" ∈ headerUnit.recordSites.map (·.name) := by decide +kernel
  have unreported : (resolveUnit headerUnit (.build headerClash) {}).toOption.map (·.issues) =
      some [] := by decide +kernel
  exact ⟨distinct, List.mem_map.mp named, by decide +kernel, exists_ok_of_toOption_map unreported⟩

end NameBinding
