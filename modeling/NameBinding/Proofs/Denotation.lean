import NameBinding.Proofs.ProgramIndex
import NameBinding.Proofs.RegisteredUnit
import NameBinding.Proofs.UseOrigins

/-!
# Resolutions denote what they say

Whatever is found for a use, in whichever way, exists and is of the kind that the resolution
tells: a field is in the index and static or not as told, a record is in the index, a parameter
or local is in the table of the unit. The scopes and the index are built by different walks; they
agree because both follow the outline, and distinct ids keep what is found under an id apart.
-/

namespace NameBinding

/-- What a resolution denotes exists and is of its kind. -/
def Resolution.Denotes (index : RecordIndex) (table : DeclTable) (r : Resolution) : Prop :=
  match r.kind with
  | .field => ∃ field, index.fieldById? r.target = some field ∧ field.isStatic = false
  | .staticField => ∃ field, index.fieldById? r.target = some field ∧ field.isStatic = true
  | .this | .outerThis | .record => ∃ record, index.recordById? r.target = some record
  | .parameter => ∃ d, table.get? r.target = some d ∧ d.kind = .parameter
  | .localVar => ∃ d, table.get? r.target = some d ∧ (d.kind = .localVar ∨ d.kind = .caught)

/-- The field that a search ends at is a field of one of the records searched. -/
theorem RecordIndex.mem_of_searchField {name : String} {records : List (Option RecordInfo)}
    {owner : RecordInfo} {field : FieldInfo}
    (h : searchField name records = .found owner field) :
    some owner ∈ records ∧ field ∈ owner.fields.getD [] := by
  induction records with
  | nil => cases h
  | cons first rest ih =>
    cases first with
    | none => cases h
    | some record =>
      rw [searchField] at h
      split at h
      · cases h
      · rename_i fields known
        split at h
        · rename_i found
          cases h
          rw [RecordInfo.field?, known] at found
          rw [known]
          exact ⟨List.mem_cons_self, List.mem_of_find?_eq_some found⟩
        · obtain ⟨member, rest⟩ := ih h
          exact ⟨List.mem_cons_of_mem _ member, rest⟩

/-- The field that is found in a record of the index is a field of the index. -/
theorem RecordIndex.mem_fields_of_findFieldIn {index : RecordIndex} {record owner : RecordInfo}
    {name : String} {field : FieldInfo} (known : record ∈ index.records)
    (h : index.findFieldIn record name = .found owner field) : field ∈ index.fields := by
  obtain ⟨member, declares⟩ := mem_of_searchField h
  refine List.mem_flatMap.mpr ⟨owner, ?_, declares⟩
  rcases List.mem_cons.mp member with same | member
  · cases same
    exact known
  · obtain ⟨ancestor, _, found⟩ := List.mem_map.mp member
    exact mem_of_get? found

namespace Scene

variable {scene : Scene} {scope : ScopeId} {name : String} {use : Span} {inStatic : Bool}
  {level : Nat} {receiver : Bool} {t : Scope} {hit : Hit}

/-- The scopes, the table and the index of a scene agree with each other. -/
structure Agrees (scene : Scene) : Prop where
  /-- Record scopes belong to records of the index. -/
  records : ∀ s ∈ scene.tree.scopes, s.kind = .record →
    ∃ record, scene.index.recordById? s.owner = some record
  /-- What scopes bind as variables exists. -/
  vars : ∀ t ∈ scene.tree.scopes, ∀ b ∈ t.vars, b.resolution.Denotes scene.index scene.table
  /-- What scopes bind as record names are records of the index. -/
  types : ∀ t ∈ scene.tree.scopes, ∀ b ∈ t.types,
    ∃ record, scene.index.recordById? b.target = some record
  /-- The fields of the index are found under their ids. -/
  fields : ∀ field ∈ scene.index.fields, scene.index.fieldById? field.id = some field

/-- What a hit tells exists. -/
structure Known (scene : Scene) (hit : Hit) : Prop where
  resolved : hit.resolved.Denotes scene.index scene.table
  implicitBase : ∀ base ∈ hit.implicitBase, base.Denotes scene.index scene.table

namespace Agrees

/-- A field of the index denotes itself. -/
theorem field (h : scene.Agrees) {field : FieldInfo} (member : field ∈ scene.index.fields) :
    field.resolution.Denotes scene.index scene.table := by
  have found := h.fields field member
  unfold FieldInfo.resolution Resolution.Denotes
  cases static : field.isStatic with
  | false => exact ⟨field, found, static⟩
  | true => exact ⟨field, found, static⟩

/-- A record of the index is found under its id. -/
theorem record (scene : Scene) {record : RecordInfo} (member : record ∈ scene.index.records) :
    Resolution.Denotes scene.index scene.table ⟨record.id, .record⟩ :=
  RecordIndex.exists_recordById?_of_mem member

/-- A hit on a field goes through the record of the scope. -/
theorem ofField (h : scene.Agrees) (ht : t ∈ scene.tree.scopes) (kind : t.kind = .record)
    {field : Resolution} (denotes : field.Denotes scene.index scene.table) :
    scene.Known (.ofField t.owner level receiver field) := by
  refine ⟨denotes, ?_⟩
  obtain ⟨record, found⟩ := h.records t ht kind
  rintro base ⟨⟩
  unfold Resolution.Denotes
  cases receiver with
  | false => exact ⟨record, found⟩
  | true =>
    by_cases first : level = 0
    · simp only [first]
      exact ⟨record, found⟩
    · simp only [first]
      exact ⟨record, found⟩

/-- A hit on a variable that is understood without a receiver. -/
theorem plain (h : scene.Agrees) (ht : t ∈ scene.tree.scopes) {b : Binding} {staticContext : Bool}
    (bound : t.varBinding? name = some b) :
    scene.Known { resolved := b.resolution, staticContext } where
  resolved := h.vars t ht b (List.mem_of_find?_eq_some bound)
  implicitBase := by rintro base ⟨⟩

/-- What a scope offers exists. -/
theorem offer? (h : scene.Agrees) (ht : t ∈ scene.tree.scopes)
    (offered : scene.offer? name use level receiver t = some hit) : scene.Known hit := by
  unfold Scene.offer? at offered
  cases kind : t.kind with
  | record =>
    simp only [kind] at offered
    cases bound : t.varBinding? name with
    | none =>
      simp only [bound] at offered
      unfold inherited? at offered
      split at offered
      · cases offered
      · rename_i record known
        split at offered
        · rename_i declarer field found
          cases offered
          have member := RecordIndex.mem_of_recordById? known
          exact h.ofField ht kind (h.field (RecordIndex.mem_fields_of_findFieldIn member found))
        · cases offered
    | some b =>
      simp only [bound] at offered
      split at offered
      · cases offered
        exact h.ofField ht kind (h.vars t ht b (List.mem_of_find?_eq_some bound))
      · cases offered
        exact h.plain ht bound
  | block =>
    simp only [kind] at offered
    cases bound : t.varBinding? name with
    | none => simp [bound] at offered
    | some b =>
      simp only [bound] at offered
      split at offered
      · cases offered
        exact h.plain ht bound
      · cases offered
  | _ =>
    simp only [kind] at offered
    obtain ⟨b, bound, rfl⟩ := Option.map_eq_some_iff.mp offered
    exact h.plain ht bound

/-- What a search along a chain finds exists. -/
theorem searchVariable? (h : scene.Agrees) {scopes : List Scope}
    (inTree : ∀ s ∈ scopes, s ∈ scene.tree.scopes)
    (found : scene.searchVariable? name use level receiver scopes = some hit) :
    scene.Known hit := by
  induction scopes generalizing level receiver with
  | nil =>
    rw [Scene.searchVariable?] at found
    cases found
  | cons s rest ih =>
    rw [Scene.searchVariable?] at found
    split at found
    · rename_i offered
      cases found
      exact h.offer? (inTree s List.mem_cons_self) offered
    · exact ih (fun other member => inTree other (List.mem_cons_of_mem _ member)) found

/-- The innermost record of a chain is a record of the index. -/
theorem innermostRecord? (h : scene.Agrees) {scopes : List Scope} {owner : NodeId}
    {reachable : Bool} (inTree : ∀ s ∈ scopes, s ∈ scene.tree.scopes)
    (found : innermostRecord? receiver scopes = some (owner, reachable)) :
    ∃ record, scene.index.recordById? owner = some record := by
  induction scopes generalizing receiver with
  | nil => simp [Scene.innermostRecord?] at found
  | cons s rest ih =>
    rw [Scene.innermostRecord?] at found
    split at found
    · rename_i kind
      cases found
      exact h.records s (inTree s List.mem_cons_self) kind
    · exact ih (fun other member => inTree other (List.mem_cons_of_mem _ member)) found

/-- What a bare name is found to denote exists. -/
theorem lookup? (h : scene.Agrees) (found : scene.lookup? scope name use inStatic = some hit) :
    scene.Known hit := by
  have inTree : ∀ s ∈ scene.tree.chain scope, s ∈ scene.tree.scopes :=
    fun s => ScopeTree.mem_of_mem_chain
  unfold Scene.lookup? at found
  split at found
  · rename_i search
    cases found
    exact h.searchVariable? inTree search
  · split at found
    · rename_i b bound
      cases found
      obtain ⟨t, ht, offered⟩ := List.exists_of_findSome?_eq_some bound
      obtain ⟨named, _⟩ := Option.filter_eq_some_iff.mp offered
      exact ⟨h.types t (inTree t ht) b (List.mem_of_find?_eq_some named), by rintro base ⟨⟩⟩
    · unfold ownReceiver? at found
      split at found
      · rename_i owner reachable qualifier innermost ending
        split at found
        · split at found
          · cases found
            exact ⟨h.innermostRecord? inTree innermost, by rintro base ⟨⟩⟩
          · cases found
        · cases found
      · cases found

/-- What a name is found to denote as a base exists. -/
theorem lookupBase (h : scene.Agrees)
    (found : (scene.lookupBase scope name use inStatic).1 = some hit) : scene.Known hit := by
  unfold Scene.lookupBase at found
  split at found
  · rename_i other elsewhere
    cases found
    exact h.lookup? elsewhere
  · split at found
    · rename_i record named
      cases found
      exact ⟨Agrees.record scene (mem_of_typeNamed? named), by rintro base ⟨⟩⟩
    · cases found

/-- What a member of a record is found to denote exists. -/
theorem findMember (h : scene.Agrees) {base : BaseRecord}
    (known : base.record ∈ scene.index.records) {member : String} {r : Resolution}
    (found : (scene.findMember base member).resolved = some r) :
    r.Denotes scene.index scene.table := by
  unfold Scene.findMember at found
  split at found
  · rename_i field search
    cases found
    exact h.field (RecordIndex.mem_fields_of_findFieldIn known search)
  · dsimp only at found
    split at found
    · rename_i record nested
      cases found
      split at nested
      · exact Agrees.record scene (RecordIndex.mem_of_get? nested)
      · cases nested
    · cases found

/-- What a member access is found to denote exists. -/
theorem findAccess (h : scene.Agrees) {base : Option BaseRecord} (known : scene.KnownBase base)
    {access : MemberName} {r : Resolution}
    (found : (scene.findAccess scope inStatic base access).2.resolved = some r) :
    r.Denotes scene.index scene.table := by
  unfold Scene.findAccess at found
  split at found
  · cases found
  · rename_i base
    split at found
    · unfold findReceiver at found
      split at found
      · dsimp only at found
        split at found
        · rename_i hit looked
          cases found
          exact (h.lookup? looked).resolved
        · cases found
      · cases found
    · exact h.findMember (known base rfl) found

/-- Everything that an explained entry tells exists. -/
theorem entry (h : scene.Agrees) :
    (entry : UseEntry) → scene.Explains entry →
      (∀ site ∈ entry.reference?, ∀ hit ∈ site.hit, scene.Known hit) ∧
        ∀ site ∈ entry.member?, ∀ r ∈ site.finding.resolved, r.Denotes scene.index scene.table
  | .reference site, explained => by
    refine ⟨?_, by rintro other ⟨⟩⟩
    rintro other ⟨⟩ hit found
    obtain ⟨_, inStatic, asValue | asBase⟩ := explained
    · exact h.lookup? (asValue ▸ found)
    · exact h.lookupBase (asBase ▸ found)
  | .member site, explained => by
    refine ⟨by rintro other ⟨⟩, ?_⟩
    rintro other ⟨⟩ r found
    rcases explained with ⟨record, member, same⟩ | ⟨inStatic, base, access, known, same⟩
    · rw [same] at found
      cases found
      exact Agrees.record scene member
    · rw [same] at found
      exact h.findAccess known found

end Agrees

end Scene

/-! ### From the log to the slots -/

/-- An entry that is put is there, and all others were there before. -/
theorem mem_putEntry {α β : Type} [DecidableEq α] {key : α} {value : β} {entries : List (α × β)}
    {entry : α × β} (h : entry ∈ putEntry key value entries) :
    entry = (key, value) ∨ entry ∈ entries := by
  induction entries with
  | nil => exact .inl (List.mem_singleton.mp h)
  | cons first rest ih =>
    obtain ⟨k, v⟩ := first
    rw [putEntry] at h
    split at h
    · rcases List.mem_cons.mp h with h | h
      · exact .inl h
      · exact .inr (List.mem_cons_of_mem _ h)
    · rcases List.mem_cons.mp h with h | h
      · exact .inr (h ▸ List.mem_cons_self)
      · exact (ih h).imp_right (List.mem_cons_of_mem _)

/-- All resolutions that are to be written into slots have a property. -/
structure Resolutions.All (P : Resolution → Prop) (resolutions : Resolutions) : Prop where
  references : ∀ entry ∈ resolutions.references,
    (∀ r ∈ entry.2.resolved, P r) ∧ ∀ base ∈ entry.2.implicitBase, P base
  members : ∀ entry ∈ resolutions.members, P entry.2

/-- What holds of everything in a log holds of everything that is written into slots. -/
theorem Resolutions.all_ofLog {P : Resolution → Prop} {log : UseLog}
    (references : ∀ site ∈ log.references, ∀ hit ∈ site.hit,
      P hit.resolved ∧ ∀ base ∈ hit.implicitBase, P base)
    (members : ∀ site ∈ log.members, ∀ r ∈ site.finding.resolved, P r) :
    (Resolutions.ofLog log).All P := by
  refine List.foldlRecOn log Resolutions.record ⟨by simp, by simp⟩ fun slots all entry logged => ?_
  cases entry with
  | reference site =>
    have listed : site ∈ log.references := List.mem_filterMap.mpr ⟨_, logged, rfl⟩
    refine ⟨fun slot member => ?_, all.members⟩
    rcases mem_putEntry member with rfl | member
    · constructor
      · intro r found
        obtain ⟨hit, looked, rfl⟩ := Option.map_eq_some_iff.mp found
        exact (references site listed hit looked).1
      · intro base found
        obtain ⟨hit, looked, found⟩ := Option.bind_eq_some_iff.mp found
        exact (references site listed hit looked).2 base found
    · exact all.references slot member
  | member site =>
    have listed : site ∈ log.members := List.mem_filterMap.mpr ⟨_, logged, rfl⟩
    cases found : site.finding.resolved with
    | none =>
      have same : slots.record (.member site) = slots := by rw [Resolutions.record, found]
      rw [same]
      exact all
    | some r =>
      have same : slots.record (.member site) =
          { slots with members := putEntry site.id r slots.members } := by
        rw [Resolutions.record, found]
      rw [same]
      refine ⟨all.references, fun slot member => ?_⟩
      rcases mem_putEntry member with rfl | member
      · exact members site listed r found
      · exact all.members slot member

/-! ### Programs -/

section

variable {units : List TranslationUnit} {externals : List ExternalRecord} {unit : TranslationUnit}
  {tree : ScopeTree} {state : Registration} {id : NodeId}

/-- A unit without records has no uses. -/
theorem resolveReferences_empty (h : unit.records = []) (tree : ScopeTree) (table : DeclTable)
    (index : RecordIndex) : resolveReferences unit tree table index = .ok [] := by
  rw [resolveReferences, h]
  rfl

/-- A unit with records declares something. -/
theorem TranslationUnit.exists_declaredId (h : unit.records ≠ []) :
    ∃ id, id ∈ unit.declaredIds := by
  cases records : unit.records with
  | nil => exact absurd records h
  | cons r rest =>
    refine ⟨r.id, ?_⟩
    rw [declaredIds, outline, records, Record.outlineAll]
    cases r
    exact List.mem_cons_self

/-- A receiver denotes something if its record is known. -/
theorem denotes_of_receiver {index : RecordIndex} {table : DeclTable} {b : Binding}
    (receiver : b.kind.isReceiver = true)
    (known : ∃ record, index.recordById? b.target = some record) :
    b.resolution.Denotes index table := by
  unfold Resolution.Denotes Binding.resolution
  cases kind : b.kind <;> simp [kind, BindingKind.isReceiver] at receiver
  · exact known
  · exact known

/-- A declared variable that the index knows if it is a field denotes itself. -/
theorem denotes_of_declared {index : RecordIndex} {d : Declaration}
    (found : state.table.get? d.id = some d) (noRecord : d.kind ≠ .record)
    (field : d.kind = .field → ∃ info, index.fieldById? d.id = some info ∧
      info.isStatic = d.isStatic) :
    d.binding.resolution.Denotes index state.table := by
  unfold Resolution.Denotes Binding.resolution Declaration.binding Declaration.bindingKind
  cases kind : d.kind with
  | field =>
    obtain ⟨info, known, same⟩ := field kind
    cases static : d.isStatic with
    | false => exact ⟨info, known, same.trans static⟩
    | true => exact ⟨info, known, same.trans static⟩
  | parameter => exact ⟨d, found, kind⟩
  | localVar => exact ⟨d, found, .inl kind⟩
  | caught => exact ⟨d, found, .inr kind⟩
  | record => exact absurd kind noRecord

/-- A field of the unit is known to the index as what it is. -/
theorem field_known (distinct : RecordIndex.DistinctIds units externals)
    (declares : id ∈ units.flatMap TranslationUnit.declaredIds)
    (member : unit ∈ units) (headers : ∀ site ∈ unit.recordSites, site.inHeader = false)
    (built : ScopeTree.build unit = .ok tree)
    (registered : registerDeclarations unit tree = .ok state) {d : Declaration}
    (hd : d ∈ state.table.entries) (kind : d.kind = .field) :
    ∃ info, (RecordIndex.ofProgram units externals).fieldById? d.id = some info ∧
      info.isStatic = d.isStatic := by
  obtain ⟨within, site, outlined, ⟨own, hown, same⟩, _⟩ :=
    registered_field_scope built registered hd kind
  have listed := TranslationUnit.mem_recordSites.mpr ⟨within, outlined⟩
  obtain ⟨record, hr, _, fields⟩ :=
    RecordIndex.exists_of_recordSite externals member listed (headers site listed)
  obtain ⟨info, hinfo, own_id, static⟩ := fields own hown
  have indexed : info ∈ (RecordIndex.ofProgram units externals).fields :=
    List.mem_flatMap.mpr ⟨record, hr, hinfo⟩
  have nodup := RecordIndex.ofProgram_fields_nodup distinct declares
  have found := RecordIndex.fieldById?_of_mem nodup indexed
  rw [own_id] at found
  rw [same]
  exact ⟨info, found, static⟩

/-- In a program with distinct ids that declares anything the scopes of a unit agree with the
index, provided that no record of the unit stands in the header of a loop. -/
theorem agrees_of_program (distinct : RecordIndex.DistinctIds units externals)
    (declares : id ∈ units.flatMap TranslationUnit.declaredIds)
    (member : unit ∈ units) (headers : ∀ site ∈ unit.recordSites, site.inHeader = false)
    (built : ScopeTree.build unit = .ok tree)
    (registered : registerDeclarations unit tree = .ok state) :
    Scene.Agrees ⟨state.tree, state.table, .ofProgram units externals, unit.package,
      unit.imports⟩ := by
  have traced := registered_traced built registered
  have known : ∀ site ∈ unit.recordSites,
      ∃ record, (RecordIndex.ofProgram units externals).recordById? site.decl.id = some record := by
    intro site listed
    obtain ⟨record, hr, same, _⟩ :=
      RecordIndex.exists_of_recordSite externals member listed (headers site listed)
    rw [← same]
    exact RecordIndex.exists_recordById?_of_mem hr
  refine ⟨?_, ?_, ?_, ?_⟩
  · intro s hs kind
    obtain ⟨site, listed, owner⟩ := registered_record_scope built registered hs kind
    exact owner ▸ known site listed
  · intro t ht b hb
    obtain ⟨noRecord, ⟨receiver, s, hs, kind, owner⟩ | ⟨d, hd, rfl, _⟩⟩ := traced.vars t ht b hb
    · obtain ⟨site, listed, own⟩ := build_record_site built hs kind
      exact denotes_of_receiver receiver (owner ▸ own ▸ known site listed)
    · refine denotes_of_declared (registered_get? built registered hd)
        (fun kind => noRecord (Declaration.bindingKind_eq_record_iff.mpr kind)) ?_
      exact field_known distinct declares member headers built registered hd
  · intro t ht b hb
    obtain ⟨kind, ⟨receiver, _⟩ | ⟨d, hd, rfl, _⟩⟩ := traced.types t ht b hb
    · rw [kind] at receiver
      cases receiver
    · obtain ⟨site, listed, same⟩ :=
        registered_record_site registered hd (Declaration.bindingKind_eq_record_iff.mp kind)
      obtain ⟨record, found⟩ := known site listed
      rw [same] at found
      exact ⟨record, found⟩
  · have nodup := RecordIndex.ofProgram_fields_nodup distinct declares
    exact fun field => RecordIndex.fieldById?_of_mem nodup

end

/-- In a program with distinct ids and no records in the headers of loops, every resolution of a
unit denotes something that exists and is of its kind. -/
theorem resolutions_denote {units : List TranslationUnit} {externals : List ExternalRecord}
    (distinct : RecordIndex.DistinctIds units externals)
    (headers : ∀ unit ∈ units, ∀ site ∈ unit.recordSites, site.inHeader = false)
    {unit : TranslationUnit} (member : unit ∈ units) {options : Options} {analysis : UnitAnalysis}
    (run : resolveUnit unit (.ofProgram units externals) options = .ok analysis) :
    analysis.resolutions.All
      (Resolution.Denotes (.ofProgram units externals) analysis.declarations) := by
  obtain ⟨tree, built, run⟩ := bind_eq_ok_iff.mp run
  obtain ⟨state, registered, run⟩ := bind_eq_ok_iff.mp run
  obtain ⟨log, resolved, run⟩ := bind_eq_ok_iff.mp run
  cases run
  by_cases empty : unit.records = []
  · rw [resolveReferences_empty empty] at resolved
    cases resolved
    exact ⟨by rintro slot ⟨⟩, by rintro slot ⟨⟩⟩
  · obtain ⟨id, declares⟩ := TranslationUnit.exists_declaredId empty
    have declares := List.mem_flatMap.mpr ⟨unit, member, declares⟩
    have agrees := agrees_of_program distinct declares member (headers unit member) built registered
    refine Resolutions.all_ofLog ?_ ?_
    · intro site listed hit found
      obtain ⟨entry, logged, reference⟩ := List.mem_filterMap.mp listed
      have known := (agrees.entry entry (resolveReferences_explained resolved entry logged)).1
        site reference hit found
      exact ⟨known.resolved, known.implicitBase⟩
    · intro site listed r found
      obtain ⟨entry, logged, access⟩ := List.mem_filterMap.mp listed
      exact (agrees.entry entry (resolveReferences_explained resolved entry logged)).2
        site access r found

/-- An outside record with a field. -/
def sampleOutside : ExternalRecord where
  name := "outside.Base"
  superclass := none
  fields := some [⟨"limit", "int", true⟩]

theorem resolutions_denote_sample :
    ∃ analysis, RecordIndex.DistinctIds [sampleUnit] [sampleOutside] ∧
      resolveUnit sampleUnit (.ofProgram [sampleUnit] [sampleOutside]) {} = .ok analysis ∧
      analysis.resolutions.references.length = 3 ∧
      analysis.resolutions.All
        (Resolution.Denotes (.ofProgram [sampleUnit] [sampleOutside]) analysis.declarations) := by
  have distinct : RecordIndex.DistinctIds [sampleUnit] [sampleOutside] :=
    ⟨by decide +kernel, by decide +kernel⟩
  have headers : ∀ unit ∈ [sampleUnit], ∀ site ∈ unit.recordSites, site.inHeader = false := by
    decide +kernel
  have counted : (resolveUnit sampleUnit (.ofProgram [sampleUnit] [sampleOutside]) {}).toOption.map
      (·.resolutions.references.length) = some 3 := by decide +kernel
  obtain ⟨analysis, run, three⟩ := Option.map_eq_some_iff.mp counted
  have run := eq_ok_of_toOption run
  exact ⟨analysis, distinct, run, three,
    resolutions_denote distinct headers List.mem_cons_self run⟩

end NameBinding
