import NameBinding.Proofs.MalformedUnits
import NameBinding.Proofs.ScopeSurroundings

/-!
# A registered unit

What is known of the scopes and the table of a unit once its declarations are registered: the
table lists the declarations of the unit, each id once; what the scopes bind is traced back to
it; fields are declared in the scopes of their records and nowhere else.
-/

namespace NameBinding

namespace ScopeTree

variable {unit : TranslationUnit} {tree : ScopeTree}

/-- Scopes that mirror constructs bind nothing yet. -/
theorem empty_of_mirrors {opened : List Scope} {openings : List Opening}
    (mirrors : List.Forall₂ tree.Mirrors opened openings) :
    ∀ s ∈ opened, s.vars = [] ∧ s.types = [] := by
  induction mirrors with
  | nil => simp
  | cons mirror _ ih =>
    intro s hs
    rcases List.mem_cons.mp hs with rfl | hs
    · exact ⟨mirror.vars, mirror.types⟩
    · exact ih s hs

/-- Nothing is bound in a tree that has just been built. -/
theorem build_empty (built : build unit = .ok tree) :
    ∀ s ∈ tree.scopes, s.vars = [] ∧ s.types = [] := by
  obtain ⟨opened, scopes, mirrors⟩ := build_adds_mirrors built
  intro s hs
  rw [scopes] at hs
  rcases List.mem_append.mp hs with hs | hs
  · rw [List.mem_singleton.mp hs]
    exact ⟨rfl, rfl⟩
  · exact empty_of_mirrors mirrors s hs

/-- The records of a unit have opened record scopes. -/
theorem build_recordsOpened (built : build unit = .ok tree) :
    Registration.RecordsOpened tree (unit.outline .recordsFirst) := by
  intro within site member
  have listed : (⟨.record, site.decl.id, site.decl.isStatic, some site.name⟩ : ScopeHeader) ∈
      tree.scopes.map (·.toScopeHeader) := by
    rw [build_headers built]
    have opening := mem_openingsOf.mpr
      ⟨_, unit.outline_perm.mem_iff.mp member, rfl⟩
    exact List.mem_cons_of_mem _ (List.mem_map_of_mem (f := Opening.header) opening)
  obtain ⟨s, hs, same⟩ := List.mem_map.mp listed
  have kind : s.kind = .record := congrArg ScopeHeader.kind same
  have owner : s.owner = site.decl.id := congrArg ScopeHeader.owner same
  exact ⟨s, hs, kind, owner⟩

end ScopeTree

variable {unit : TranslationUnit} {tree : ScopeTree} {state : Registration}

/-- What is bound in a registered unit is traced back. -/
theorem registered_traced (built : ScopeTree.build unit = .ok tree)
    (registered : registerDeclarations unit tree = .ok state) :
    Registration.Traced tree state := by
  rw [registerDeclarations_eq] at registered
  refine Registration.steps_traced (ScopeTree.build_recordsOpened built) ?_ registered
  refine ⟨ScopeTree.SameShape.refl tree, ScopeTree.build_formed built, ?_, ?_⟩
  · intro t ht b hb
    rw [(ScopeTree.build_empty built t ht).1] at hb
    cases hb
  · intro t ht b hb
    rw [(ScopeTree.build_empty built t ht).2] at hb
    cases hb

/-- What is around a place of a unit can still be read off its scope once names are bound. -/
theorem registered_surroundings (built : ScopeTree.build unit = .ok tree)
    (registered : registerDeclarations unit tree = .ok state) {around : Surroundings}
    {within : Place} (surrounds : tree.Surrounds around within) :
    ∃ t ∈ state.tree.scopes, t.id = tree.placeOf within ∧
      around = ⟨t.kind, state.tree.recordAround t.id⟩ := by
  obtain ⟨s, hs, placed, kind, record⟩ := surrounds
  have shape := (registered_traced built registered).shape
  obtain ⟨t, ht, alike⟩ := shape.exists_mem hs
  have header : t.toScopeHeader = s.toScopeHeader := congrArg (·.1) alike
  have sameId : t.id = s.id := congrArg (·.2.1) alike
  have sameKind : around.kind = t.kind := by rw [header, kind]
  have sameRecord : around.record = state.tree.recordAround t.id := by
    rw [sameId, shape.recordAround_eq, record]
  refine ⟨t, ht, ?_, ?_⟩
  · rw [sameId]
    exact (ScopeTree.placeOf_eq placed).symm
  · rw [← sameKind, ← sameRecord]

/-- The table of a registered unit lists the declarations of the unit. -/
theorem registered_entries (registered : registerDeclarations unit tree = .ok state) :
    state.table.entries =
      (unit.outline .recordsFirst).filterMap (Step.declaration? tree) := by
  rw [registerDeclarations_eq] at registered
  exact Registration.steps_entries registered

/-- An entry of the table declares a record or a variable of the unit. -/
theorem registered_cases (registered : registerDeclarations unit tree = .ok state)
    {d : Declaration} (hd : d ∈ state.table.entries) :
    (∃ within site, .record within site ∈ unit.outline .recordsFirst ∧
      d = site.declaration (tree.recordNameOf site.decl.id) (tree.placeOf within)) ∨
    ∃ within item, .declares within item ∈ unit.outline .recordsFirst ∧
      d = item.declaration (tree.placeOf within) := by
  rw [registered_entries registered] at hd
  obtain ⟨item, member, declares⟩ := List.mem_filterMap.mp hd
  cases item with
  | record within site =>
    cases declares
    exact .inl ⟨within, site, member, rfl⟩
  | declares within item =>
    cases declares
    exact .inr ⟨within, item, member, rfl⟩
  | opens within header span => cases declares
  | uses within inStatic value => cases declares

/-- No node of a registered unit has declared twice. -/
theorem registered_nodup (built : ScopeTree.build unit = .ok tree)
    (registered : registerDeclarations unit tree = .ok state) : unit.declaredIds.Nodup := by
  by_contra twice
  obtain ⟨issue, failed⟩ := (registerDeclarations_fails_iff built).mpr (.inr twice)
  rw [registered] at failed
  cases failed

/-- The table lists the ids that the unit declares. -/
theorem registered_ids (registered : registerDeclarations unit tree = .ok state) :
    state.ids = unit.declaredIds := by
  rw [Registration.ids, registered_entries registered, List.map_filterMap,
    TranslationUnit.declaredIds]
  congr 1
  funext item
  exact (Step.declared?_eq tree item).symm

/-- No two entries of the table have one id. -/
theorem registered_entries_nodup (built : ScopeTree.build unit = .ok tree)
    (registered : registerDeclarations unit tree = .ok state) :
    (state.table.entries.map (·.id)).Nodup := by
  have ids : state.table.entries.map (·.id) = unit.declaredIds := registered_ids registered
  rw [ids]
  exact registered_nodup built registered

/-- Every entry of the table is found under its id. -/
theorem registered_get? (built : ScopeTree.build unit = .ok tree)
    (registered : registerDeclarations unit tree = .ok state) {d : Declaration}
    (hd : d ∈ state.table.entries) : state.table.get? d.id = some d :=
  find?_key Declaration.id (registered_entries_nodup built registered) hd

/-- Fields are declared in the scopes of their records. -/
theorem registered_field_scope (built : ScopeTree.build unit = .ok tree)
    (registered : registerDeclarations unit tree = .ok state) {d : Declaration}
    (hd : d ∈ state.table.entries) (field : d.kind = .field) :
    ∃ within site, .record within site ∈ unit.outline .recordsFirst ∧
      (∃ field ∈ site.decl.fields, d = field.declared.declaration d.scope) ∧
      ∃ s ∈ tree.scopes, s.kind = .record ∧ s.owner = site.decl.id ∧ d.scope = s.id := by
  rcases registered_cases registered hd with ⟨_, _, _, rfl⟩ | ⟨within, item, member, rfl⟩
  · cases field
  · obtain ⟨_, fits⟩ := unit.outline_nests.fits _ member
    obtain ⟨around, site, listed, rfl, own, hown, rfl⟩ := fits field
    obtain ⟨s, hs, kind, owner⟩ := ScopeTree.build_recordsOpened built around site listed
    refine ⟨around, site, listed, ⟨own, hown, rfl⟩, s, hs, kind, owner, ?_⟩
    have there : tree.scopeAt? (.node site.decl.id) = some s.id :=
      owner ▸ (ScopeTree.build_formed built).scopeOf?_owner hs
    exact ScopeTree.placeOf_eq there

/-- Records are declared by the records of the unit. -/
theorem registered_record_site (registered : registerDeclarations unit tree = .ok state)
    {d : Declaration} (hd : d ∈ state.table.entries) (record : d.kind = .record) :
    ∃ site ∈ unit.recordSites, site.decl.id = d.id := by
  rcases registered_cases registered hd with
    ⟨within, site, member, rfl⟩ | ⟨within, item, member, rfl⟩
  · exact ⟨site, TranslationUnit.mem_recordSites.mpr ⟨within, member⟩, rfl⟩
  · exact absurd record (unit.outline_nests.fits _ member).1

/-- Record scopes are opened by the records of the unit. -/
theorem build_record_site (built : ScopeTree.build unit = .ok tree) {s : Scope}
    (hs : s ∈ tree.scopes) (record : s.kind = .record) :
    ∃ site ∈ unit.recordSites, site.decl.id = s.owner := by
  have header : s.toScopeHeader ∈ tree.scopes.map (·.toScopeHeader) := List.mem_map_of_mem hs
  rw [ScopeTree.build_headers built] at header
  rcases List.mem_cons.mp header with same | listed
  · rw [same] at record
    cases record
  · obtain ⟨opening, member, same⟩ := List.mem_map.mp listed
    rcases TranslationUnit.opening_cases member with
      ⟨within, site, outlined, header, _⟩ | ⟨plain, _⟩
    · rw [header] at same
      exact ⟨site, TranslationUnit.mem_recordSites.mpr ⟨within, outlined⟩,
        congrArg ScopeHeader.owner same⟩
    · rw [← same] at record
      exact absurd record plain.not_record

/-- Record scopes keep belonging to the records of the unit when names are bound. -/
theorem registered_record_scope (built : ScopeTree.build unit = .ok tree)
    (registered : registerDeclarations unit tree = .ok state) {s : Scope}
    (hs : s ∈ state.tree.scopes) (record : s.kind = .record) :
    ∃ site ∈ unit.recordSites, site.decl.id = s.owner := by
  obtain ⟨u, hu, alike⟩ := (registered_traced built registered).shape.symm.exists_mem hs
  have header : u.toScopeHeader = s.toScopeHeader := congrArg (·.1) alike
  have kind : u.kind = .record := by rw [header, record]
  obtain ⟨site, member, owner⟩ := build_record_site built hu kind
  have same : u.owner = s.owner := congrArg ScopeHeader.owner header
  exact ⟨site, member, owner.trans same⟩

/-- A declaration is bound as a record name exactly if it declares a record. -/
theorem Declaration.bindingKind_eq_record_iff {d : Declaration} :
    d.bindingKind = .record ↔ d.kind = .record := by
  unfold Declaration.bindingKind
  cases d.kind <;> simp
  split <;> simp

/-- What is bound as a field was declared as one. -/
theorem Declaration.kind_of_isField {d : Declaration} (h : d.bindingKind.isField = true) :
    d.kind = .field := by
  unfold Declaration.bindingKind at h
  cases kind : d.kind <;> simp [kind, BindingKind.isField] at h ⊢

/-- Only the scopes of records bind fields. -/
theorem registered_field_binding (built : ScopeTree.build unit = .ok tree)
    (registered : registerDeclarations unit tree = .ok state) {t : Scope}
    (ht : t ∈ state.tree.scopes) {b : Binding} (hb : b ∈ t.vars) (field : b.kind.isField = true) :
    t.kind = .record := by
  have traced := registered_traced built registered
  obtain ⟨_, ⟨receiver, _⟩ | ⟨d, hd, rfl, here⟩⟩ := traced.vars t ht b hb
  · cases kind : b.kind <;>
      simp [kind, BindingKind.isField, BindingKind.isReceiver] at field receiver
  · obtain ⟨_, _, _, _, s, hs, kind, _, same⟩ :=
      registered_field_scope built registered hd (Declaration.kind_of_isField field)
    obtain ⟨u, hu, alike⟩ := traced.shape.symm.exists_mem ht
    have id : u.id = t.id := congrArg (·.2.1) alike
    have sameId : u.id = s.id := by rw [id, ← here, same]
    have sameScope : u = s := (ScopeTree.build_formed built).eq_of_id hu hs sameId
    have header : u.toScopeHeader = t.toScopeHeader := congrArg (·.1) alike
    rw [← header, sameScope, kind]

end NameBinding
