import NameBinding.Proofs.NearestScope
import NameBinding.Proofs.ReorderedUnits

/-!
# Corresponding scopes

In two units with the same steps, the scopes that one node has opened correspond: they stand in the
same surroundings, the same declarations belong into them, and the same receivers are bound there.
If no name is declared twice, every declaration holds its name, so corresponding scopes bind the
same names; a lookup cannot tell them apart.
-/

namespace NameBinding

variable {unit other : TranslationUnit} {tree tree' : ScopeTree} {state state' : Registration}
  {s s' : Scope}

/-- The scope of a registered unit is where its owner is. -/
theorem registered_placeOf_owner (built : ScopeTree.build unit = .ok tree)
    (registered : registerDeclarations unit tree = .ok state) (hs : s ∈ state.tree.scopes) :
    tree.placeOf (.node s.owner) = s.id := by
  have traced := registered_traced built registered
  rw [← traced.shape.placeOf_eq]
  exact ScopeTree.placeOf_eq (traced.formed.scopeOf?_owner hs)

/-- There is a scope where a place of a registered unit is. -/
theorem registered_exists_at (built : ScopeTree.build unit = .ok tree)
    (registered : registerDeclarations unit tree = .ok state) (place : Place) :
    ∃ s ∈ state.tree.scopes, s.id = tree.placeOf place := by
  have traced := registered_traced built registered
  obtain ⟨s, found⟩ := traced.formed.exists_scope_placeOf place
  rw [traced.shape.placeOf_eq] at found
  exact ⟨s, ScopeTree.mem_of_scope? found, traced.formed.id_eq found⟩

/-- The construct of a scope comes first among those around it. -/
theorem ScopeTree.Formed.head_headersFrom (formed : tree.Formed) (hs : s ∈ tree.scopes) :
    (tree.headersFrom s.id).head? = some s.toScopeHeader := by
  obtain ⟨around, chain⟩ := formed.exists_chain_self hs
  rw [ScopeTree.headersFrom, chain]
  rfl

/-- If nothing is reported, every declaration holds its name. -/
theorem Registration.Accounts.holder?_eq (accounts : state.Accounts) (clean : state.issues = [])
    {d : Declaration} (hd : d ∈ state.table.entries) : state.holder? d = some d.binding := by
  obtain ⟨before, after, split⟩ := List.append_of_mem hd
  obtain ⟨first, held, _⟩ := accounts.held before d after split
  have unreported : state.report? d = none := by
    have none := accounts.issues.symm.trans clean
    rw [List.filterMap_eq_nil_iff] at none
    exact none d hd
  unfold Registration.report? at unreported
  simp only [held] at unreported
  split at unreported
  · rename_i same
    rw [held, same]
  · cases unreported

/-- What holds the name of a declaration in a tree holds it in the scope of the declaration. -/
theorem Registration.holder?_of_scope (formed : state.tree.Formed) (hs : s ∈ state.tree.scopes)
    {d : Declaration} (here : d.scope = s.id) :
    state.holder? d = s.holder? d.bindingKind d.name := by
  rw [Registration.holder?, ScopeTree.holder?, here, formed.scope?_id hs, Option.bind_some]

/-- What a scope binds under a name is told by the namespace. -/
theorem Scope.holder?_congr {kind kind' : BindingKind} (same : kind = .record ↔ kind' = .record)
    (name : String) : s.holder? kind name = s.holder? kind' name := by
  simp only [Scope.holder?, same]

/-- What holds a name in a scope of a registered unit is one of the receivers that belong there, or
a declaration that belongs there. -/
theorem registered_holder?_cases (built : ScopeTree.build unit = .ok tree)
    (registered : registerDeclarations unit tree = .ok state) (hs : s ∈ state.tree.scopes)
    {kind : BindingKind} {name : String} {b : Binding} (held : s.holder? kind name = some b) :
    (s.kind = .record ∧ kind ≠ .record ∧
      (state.receiversOf s).find? (·.name == name) = some b) ∨
    ∃ d ∈ state.table.entries, d.scope = s.id ∧ d.binding = b ∧ d.name = name ∧
      (d.bindingKind = .record ↔ kind = .record) := by
  have traced := registered_traced built registered
  by_cases record : kind = .record
  · rw [Scope.holder?, if_pos record] at held
    obtain ⟨hb, named⟩ := of_find?_key held
    obtain ⟨bound, ⟨receiver, _⟩ | ⟨d, hd, rfl, here⟩⟩ := traced.types s hs b hb
    · rw [bound] at receiver
      cases receiver
    · exact .inr ⟨d, hd, here, rfl, named, iff_of_true bound record⟩
  · rw [Scope.holder?, if_neg record] at held
    obtain ⟨hb, named⟩ := of_find?_key held
    obtain ⟨bound, ⟨receiver, _⟩ | ⟨d, hd, rfl, here⟩⟩ := traced.vars s hs b hb
    · have sort : s.kind = .record := by
        by_contra other
        rw [(registered_receiversInRecords built registered).plain s hs other b hb] at receiver
        cases receiver
      exact .inl ⟨sort, record, (registered_receiver_iff built registered hs sort).mp
        ⟨held, receiver⟩⟩
    · exact .inr ⟨d, hd, here, rfl, named, iff_of_false bound record⟩

namespace BothRegistered

variable (both : BothRegistered unit other tree tree' state state')

section scopes

variable (hs : s ∈ state.tree.scopes) (hs' : s' ∈ state'.tree.scopes)
  (owner : s.owner = s'.owner)

include both

/-- At one place there are corresponding scopes. -/
theorem exists_at (place : Place) :
    ∃ u ∈ state.tree.scopes, ∃ u' ∈ state'.tree.scopes, u.id = tree.placeOf place ∧
      u'.id = tree'.placeOf place ∧ u.owner = u'.owner := by
  obtain ⟨u, hu, here⟩ := registered_exists_at both.built both.registered place
  obtain ⟨u', hu', here'⟩ := registered_exists_at both.built' both.registered' place
  have heads := congrArg List.head? (both.headersFrom_placeOf place)
  rw [← here, ← here', both.formed.head_headersFrom hu, both.formed'.head_headersFrom hu',
    Option.some_inj] at heads
  exact ⟨u, hu, u', hu', here, here', congrArg ScopeHeader.owner heads⟩

include hs hs' owner

/-- Corresponding scopes have the same surroundings. -/
theorem headersFrom_eq : state.tree.headersFrom s.id = state'.tree.headersFrom s'.id := by
  have around := both.headersFrom_placeOf (.node s.owner)
  rw [registered_placeOf_owner both.built both.registered hs, owner,
    registered_placeOf_owner both.built' both.registered' hs'] at around
  exact around

/-- Corresponding scopes have been opened by the same construct. -/
theorem header_eq : s.toScopeHeader = s'.toScopeHeader := by
  have heads := congrArg List.head? (both.headersFrom_eq hs hs' owner)
  rw [both.formed.head_headersFrom hs, both.formed'.head_headersFrom hs',
    Option.some_inj] at heads
  exact heads

/-- The same declarations belong into corresponding scopes. -/
theorem scope_iff {d d' : Declaration} (placed : d.Placed tree tree' d') :
    d.scope = s.id ↔ d'.scope = s'.id := by
  obtain ⟨place, here, here'⟩ := placed.placed
  obtain ⟨u, hu, u', hu', at_place, at_place', same⟩ := both.exists_at place
  rw [here, here', ← at_place, ← at_place']
  constructor
  · intro id
    rw [both.formed.eq_of_id hu hs id, owner] at same
    rw [both.formed'.eq_of_owner hu' hs' same.symm]
  · intro id
    rw [both.formed'.eq_of_id hu' hs' id, ← owner] at same
    rw [both.formed.eq_of_owner hu hs same]

/-- The same outer records can be reached from corresponding scopes. -/
theorem outersOf_eq : state.tree.outersOf s = state'.tree.outersOf s' := by
  have around := congrArg List.tail (both.headersFrom_eq hs hs' owner)
  unfold ScopeTree.headersFrom at around
  rw [← List.map_tail, ← List.map_tail] at around
  unfold ScopeTree.outersOf
  rw [both.header_eq hs hs' owner, reachableOuters_eq_of_headers around]

omit hs hs' owner in
/-- What is told by the name, the type and the span of a declaration is told alike. -/
theorem map_get?_eq {β : Type} (f : String × Option String × Span → β) (id : NodeId) :
    (state.table.get? id).map (fun d => f d.asked) =
      (state'.table.get? id).map (fun d => f d.asked) := by
  have asked := congrArg (Option.map f) (both.asked_get?_eq id)
  rw [Option.map_map, Option.map_map] at asked
  exact asked

/-- The same receivers belong into corresponding scopes. -/
theorem receiversOf_eq : state.receiversOf s = state'.receiversOf s' := by
  have outers : state.outerReceiver? = state'.outerReceiver? := funext fun id =>
    both.map_get?_eq
      (fun asked => (⟨asked.1 ++ ".this", id, .outerThis, asked.2.2⟩ : Binding)) id
  have own := both.map_get?_eq
    (fun asked => (⟨"this", s.owner, .this, asked.2.2⟩ : Binding)) s.owner
  unfold Registration.receiversOf
  rw [← owner, ← both.outersOf_eq hs hs' owner, outers]
  exact congrArg (·.toList ++ _) own

/-- What holds a name in a scope of the second unit holds it in the corresponding scope of the
first, where every declaration holds its name. -/
theorem holder?_of_counterpart (clean : state.issues = []) {kind : BindingKind} {name : String}
    {b : Binding} (held : s'.holder? kind name = some b) : s.holder? kind name = some b := by
  rcases registered_holder?_cases both.built' both.registered' hs' held with
    ⟨sort, noRecord, found⟩ | ⟨d', hd', here', rfl, rfl, namespaces⟩
  · rw [← both.receiversOf_eq hs hs' owner] at found
    rw [← both.header_eq hs hs' owner] at sort
    rw [Scope.holder?, if_neg noRecord]
    exact ((registered_receiver_iff both.built both.registered hs sort).mpr found).1
  · obtain ⟨d, hd, placed⟩ := both.entries_reordered.exists_left hd'
    have here := (both.scope_iff hs hs' owner placed).mpr here'
    have binds := (registered_accounts both.built both.registered).holder?_eq clean hd
    rw [Registration.holder?_of_scope both.formed hs here, placed.binding_eq] at binds
    rwa [placed.bindingKind_eq, placed.name_eq, Scope.holder?_congr namespaces] at binds

/-- A name that is free in a scope of the second unit is free in the corresponding scope of the
first. -/
theorem holder?_eq_none {kind : BindingKind} {name : String}
    (free : s'.holder? kind name = none) : s.holder? kind name = none := by
  by_contra bound
  obtain ⟨b, held⟩ := Option.ne_none_iff_exists'.mp bound
  rcases registered_holder?_cases both.built both.registered hs held with
    ⟨sort, noRecord, found⟩ | ⟨d, hd, here, rfl, rfl, namespaces⟩
  · rw [both.receiversOf_eq hs hs' owner] at found
    rw [both.header_eq hs hs' owner] at sort
    have offered :=
      ((registered_receiver_iff both.built' both.registered' hs' sort).mpr found).1
    rw [Scope.holder?, if_neg noRecord, offered] at free
    cases free
  · obtain ⟨d', hd', placed⟩ := both.entries_reordered.exists_right hd
    have here' := (both.scope_iff hs hs' owner placed).mp here
    obtain ⟨before, after, split⟩ := List.append_of_mem hd'
    obtain ⟨first, holds, _⟩ :=
      (registered_accounts both.built' both.registered').held before d' after split
    rw [Registration.holder?_of_scope both.formed' hs' here', ← placed.bindingKind_eq,
      ← placed.name_eq, Scope.holder?_congr namespaces, free] at holds
    cases holds

/-- Corresponding scopes bind the same names, if no name is declared twice. -/
theorem scope_alike (clean : state.issues = []) : s.Alike s' := by
  have holders : ∀ kind name, s.holder? kind name = s'.holder? kind name := by
    intro kind name
    cases held : s'.holder? kind name with
    | none => exact both.holder?_eq_none hs hs' owner held
    | some b => exact both.holder?_of_counterpart hs hs' owner clean held
  exact ⟨both.header_eq hs hs' owner, holders .localVar, holders .record⟩

end scopes

include both

/-- The same names are bound around a place of both units. -/
theorem sameAround (clean : state.issues = []) {index index' : RecordIndex} (place : Place) :
    Scene.SameAround (state.scene unit index) (state'.scene other index')
      (state.tree.placeOf place) (state'.tree.placeOf place) := by
  have headers := both.headersFrom_placeOf place
  rw [← (registered_traced both.built both.registered).shape.placeOf_eq,
    ← (registered_traced both.built' both.registered').shape.placeOf_eq] at headers
  unfold ScopeTree.headersFrom at headers
  rw [← List.forall₂_eq_eq_eq, List.forall₂_map_left_iff, List.forall₂_map_right_iff] at headers
  have first := (List.forall₂_and_left _ _).mpr
    ⟨fun s (hs : s ∈ _) => ScopeTree.mem_of_mem_chain hs, headers⟩
  have second := (List.forall₂_and_left _ _).mpr
    ⟨fun s (hs : s ∈ _) => ScopeTree.mem_of_mem_chain hs, first.flip⟩
  exact second.flip.imp fun s s' ⟨hs', hs, header⟩ =>
    both.scope_alike hs hs' (congrArg ScopeHeader.owner header) clean

/-- The scenes of the units look alike, if their indexes do. -/
theorem scene_alike {R : RecordInfo → RecordInfo → Prop} {index index' : RecordIndex}
    (answers : RecordIndex.AnswersAlike R index index') :
    Scene.Alike R (state.scene unit index) (state'.scene other index') where
  index := answers
  package := both.reorders.package
  imports := both.reorders.imports
  table := both.asked_get?_eq

end BothRegistered

end NameBinding
