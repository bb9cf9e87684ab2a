import NameBinding.Proofs.AlikeScenes
import NameBinding.Proofs.ReceiverBindings
import NameBinding.Proofs.ShuffledUnits

/-!
# Units with the same steps in another order

Two units whose outlines list the same steps, in whatever order, are built and registered together
or not at all. Their scopes stand in the same surroundings, though numbered differently. If no name
is declared twice, each name is bound by the only declaration or the first receiver of this name, so
the scopes bind the same names as well.
-/

namespace NameBinding

/-- Two units whose outlines list the same steps, in whatever order. -/
structure TranslationUnit.Reorders (unit other : TranslationUnit) : Prop where
  id : unit.id = other.id
  package : unit.package = other.package
  imports : unit.imports = other.imports
  outline : ∀ order, Reordered Step.Alike (unit.outline order) (other.outline order)

/-- A unit whose members are shuffled has the same steps in another order. -/
theorem TranslationUnit.Shuffled.reorders {unit other : TranslationUnit}
    (shuffled : unit.Shuffled other) : unit.Reorders other where
  id := by rw [shuffled.same]
  package := by rw [shuffled.same]
  imports := by rw [shuffled.same]
  outline := shuffled.outline

variable {unit other : TranslationUnit} {tree tree' : ScopeTree} {state state' : Registration}

/-! ### What the units list -/

namespace TranslationUnit.Reorders

/-- The same scopes are opened. -/
theorem openings_perm (h : unit.Reorders other) : unit.openings.Perm other.openings := by
  refine (h.outline .methodsFirst).filterMap_perm fun item item' alike => ?_
  cases alike with
  | record within alike =>
    simp only [Step.opening?, alike.id, alike.isStatic, alike.name, alike.simpleName, alike.span]
  | opens | declares | uses => rfl

/-- The same ids are declared. -/
theorem declaredIds_perm (h : unit.Reorders other) : unit.declaredIds.Perm other.declaredIds := by
  refine (h.outline .recordsFirst).filterMap_perm fun item item' alike => ?_
  cases alike with
  | record within alike => simp only [Step.declared?, alike.id]
  | opens | declares | uses => rfl

/-- The same variables are declared. -/
theorem declaredVariables_perm (h : unit.Reorders other) :
    unit.declaredVariables.Perm other.declaredVariables := by
  refine (h.outline .recordsFirst).filterMap_perm fun item item' alike => ?_
  cases alike with
  | record | opens | declares | uses => rfl

/-- The records correspond up to the order of their members. -/
theorem recordSites (h : unit.Reorders other) :
    Reordered RecordSite.Alike unit.recordSites other.recordSites := by
  refine (h.outline .recordsFirst).filterMap fun item item' alike => ?_
  cases alike with
  | record within alike => exact .some alike
  | opens | declares | uses => exact .none

/-- If one of the units has a tree, so has the other. -/
theorem exists_build (h : unit.Reorders other) (built : ScopeTree.build unit = .ok tree) :
    ∃ tree', ScopeTree.build other = .ok tree' := by
  by_contra failed
  have malformed := ScopeTree.build_fails_iff.mp (fails_iff_not_succeeds.mpr failed)
  have sound : ¬∃ issue, ScopeTree.build unit = .error issue := by
    rw [built]
    rintro ⟨issue, failed⟩
    cases failed
  refine sound (ScopeTree.build_fails_iff.mpr (malformed.imp ?_ (mt fun distinct => ?_)))
  · rintro ⟨site', listed, nameless⟩
    obtain ⟨site, member, alike⟩ := h.recordSites.exists_left listed
    exact ⟨site, member, alike.simpleName.trans nameless⟩
  · rw [h.id] at distinct
    exact ((h.openings_perm.map _).cons _).nodup_iff.mp distinct

/-- If the declarations of one of the units are registered, so are those of the other. -/
theorem exists_registered (h : unit.Reorders other) (built : ScopeTree.build unit = .ok tree)
    (built' : ScopeTree.build other = .ok tree')
    (registered : registerDeclarations unit tree = .ok state) :
    ∃ state', registerDeclarations other tree' = .ok state' := by
  by_contra failed
  have malformed := (registerDeclarations_fails_iff built').mp (fails_iff_not_succeeds.mpr failed)
  have sound : ¬∃ issue, registerDeclarations unit tree = .error issue := by
    rw [registered]
    rintro ⟨issue, failed⟩
    cases failed
  refine sound ((registerDeclarations_fails_iff built).mpr
    (malformed.imp ?_ (mt fun distinct => ?_)))
  · rintro ⟨item, listed, nameless⟩
    exact ⟨item, h.declaredVariables_perm.mem_iff.mpr listed, nameless⟩
  · exact h.declaredIds_perm.nodup_iff.mp distinct

end TranslationUnit.Reorders

/-! ### Surroundings -/

namespace ScopeTree

/-- The constructs around a scope, innermost first. -/
def headersFrom (tree : ScopeTree) (id : ScopeId) : List ScopeHeader :=
  (tree.chain id).map (·.toScopeHeader)

/-- Binding names does not change the headers from a scope on. -/
theorem SameShape.headersFrom_eq {later : ScopeTree} (h : tree.SameShape later) (id : ScopeId) :
    later.headersFrom id = tree.headersFrom id := by
  have byFrame : ∀ t : ScopeTree, t.headersFrom id = ((t.chain id).map frame).map (·.1) := by
    intro t
    rw [headersFrom, List.map_map]
    rfl
  rw [byFrame, byFrame, h.chain]

/-- A place is where the scope of its owner is. -/
theorem placeOf_owner (built : build unit = .ok tree) (place : Place) :
    tree.placeOf (.node (place.owner unit.id)) = tree.placeOf place := by
  rw [placeOf, placeOf, build_scopeAt?_eq built place]
  rfl

/-- The scopes of units with the same steps stand in the same surroundings. -/
theorem headersFrom_owner (h : unit.Reorders other) (built : build unit = .ok tree)
    (built' : build other = .ok tree') :
    ∀ s ∈ tree.scopes,
      tree.headersFrom s.id = tree'.headersFrom (tree'.placeOf (.node s.owner)) := by
  have formed := build_formed built
  obtain ⟨opened, scopes, mirrors⟩ := build_adds_mirrors built
  have sort : ∀ s ∈ tree.scopes,
      s = { kind := .global, owner := unit.id, id := .global, parent := none } ∨
        ∃ opening ∈ unit.openings, tree.Mirrors s opening := by
    intro s hs
    rw [scopes] at hs
    refine (List.mem_append.mp hs).imp List.mem_singleton.mp fun hs => ?_
    exact exists_left_of_forall₂ mirrors.flip s hs
  refine formed.outward_induction (fun s hs top => ?_) fun s hs p hp parent around => ?_
  · rcases sort s hs with rfl | ⟨opening, _, mirror⟩
    · obtain ⟨opened', scopes', _⟩ := build_adds_mirrors built'
      have first : tree'.scope? .global =
          some { kind := .global, owner := other.id, id := .global, parent := none } := by
        rw [scope?, scopes']
        rfl
      have whole : tree'.placeOf (.node unit.id) = .global :=
        placeOf_eq (by rw [h.id]; exact build_scopeOf?_unit built')
      rw [headersFrom, headersFrom, whole, Formed.chain_of_parent_none first rfl,
        Formed.chain_of_parent_none (formed.scope?_id hs) rfl, h.id]
    · obtain ⟨q, inside, _⟩ := mirror.parent
      rw [top] at inside
      cases inside
  · rcases sort s hs with rfl | ⟨opening, listed, mirror⟩
    · cases parent
    · obtain ⟨s', _, header, placed, chain⟩ := (build_shows built' opening
        (h.openings_perm.mem_iff.mp listed)).exists_chain (build_formed built')
      obtain ⟨q, inside, here⟩ := mirror.parent
      rw [parent, Option.some_inj] at inside
      have owner : p.owner = opening.within.owner unit.id := by
        rw [← inside, build_scopeAt?_eq built] at here
        obtain ⟨r, hr, same⟩ := formed.scope?_of_scopeOf? here
        rw [formed.scope?_id hp, Option.some_inj] at hr
        rw [hr, same]
      have own : s.owner = opening.header.owner := congrArg ScopeHeader.owner mirror.header
      rw [owner, h.id, placeOf_owner built'] at around
      rw [own, placed]
      unfold headersFrom at around ⊢
      rw [chain, formed.chain_of_parent (formed.scope?_id hs) parent, List.map_cons, List.map_cons,
        around, mirror.header, header]

/-- Units with the same steps have opened scopes by the same nodes. -/
theorem headers_perm (h : unit.Reorders other) (built : build unit = .ok tree)
    (built' : build other = .ok tree') :
    (tree.scopes.map (·.toScopeHeader)).Perm (tree'.scopes.map (·.toScopeHeader)) := by
  rw [build_headers built, build_headers built', h.id]
  exact (h.openings_perm.map _).cons _

/-- What a node has opened, as its header tells. -/
theorem Formed.recordNameOf_eq (formed : tree.Formed) (node : NodeId) :
    tree.recordNameOf node =
      ((tree.scopes.map (·.toScopeHeader)).find? (·.owner == node)).bind (·.recordName) := by
  rw [recordNameOf, formed.scopeOf?_eq_find?, List.find?_map]
  simp only [Function.comp_def]
  cases found : tree.scopes.find? (·.owner == node) with
  | none => rfl
  | some s =>
    simp only [Option.map_some, Option.bind_some]
    rw [formed.scope?_id (List.mem_of_find?_eq_some found), Option.bind_some]

/-- Records have the same names in the trees of units with the same steps. -/
theorem recordNameOf_eq (h : unit.Reorders other) (built : build unit = .ok tree)
    (built' : build other = .ok tree') (node : NodeId) :
    tree.recordNameOf node = tree'.recordNameOf node := by
  have distinct : ((tree.scopes.map (·.toScopeHeader)).map (·.owner)).Nodup := by
    rw [List.map_map]
    exact (build_formed built).owners
  have reordered : Reordered Eq (tree.scopes.map (·.toScopeHeader))
      (tree'.scopes.map (·.toScopeHeader)) :=
    .of_perm (fun _ => rfl) (headers_perm h built built')
  have found := eq_of_optionRel
    (reordered.find?_rel (fun _ _ same => congrArg ScopeHeader.owner same) distinct node)
  rw [(build_formed built).recordNameOf_eq, (build_formed built').recordNameOf_eq, found]

/-- The places of units with the same steps have the same surroundings. -/
theorem headersFrom_placeOf (h : unit.Reorders other) (built : build unit = .ok tree)
    (built' : build other = .ok tree') (place : Place) :
    tree.headersFrom (tree.placeOf place) = tree'.headersFrom (tree'.placeOf place) := by
  have formed := build_formed built
  have opened : ∀ place scope, tree.scopeAt? place = some scope →
      tree.headersFrom scope = tree'.headersFrom (tree'.placeOf place) := by
    intro place scope here
    rw [build_scopeAt?_eq built] at here
    obtain ⟨s, found, owner⟩ := formed.scope?_of_scopeOf? here
    have same := headersFrom_owner h built built' s (mem_of_scope? found)
    obtain ⟨t, ht, again⟩ := formed.exists_of_scopeOf? here
    rw [owner, h.id, placeOf_owner built'] at same
    have id : s.id = scope := by
      rw [← again.2, formed.eq_of_owner (mem_of_scope? found) ht (owner.trans again.1.symm)]
    rw [← id, same]
  cases here : tree.scopeAt? place with
  | some scope => rw [placeOf_eq here, opened place scope here]
  | none =>
    have absent : tree'.scopeAt? place = none := by
      rw [build_scopeAt?_eq built, formed.scopeOf?_eq_none_iff_not_mem] at here
      rw [build_scopeAt?_eq built', (build_formed built').scopeOf?_eq_none_iff_not_mem, ← h.id]
      have owners := (headers_perm h built built').map (·.owner)
      rw [List.map_map, List.map_map] at owners
      exact fun member => here (owners.mem_iff.mpr member)
    rw [placeOf, placeOf, here, absent]
    exact opened .unit .global rfl

end ScopeTree

/-! ### Declarations -/

/-- A declaration as it is entered for two units: in the scopes of one place. -/
structure Declaration.Placed (tree tree' : ScopeTree) (d d' : Declaration) : Prop where
  same : d' = { d with scope := d'.scope }
  placed : ∃ place, d.scope = tree.placeOf place ∧ d'.scope = tree'.placeOf place

namespace Declaration.Placed

variable {d d' : Declaration}

/-- Both declarations have the same id. -/
theorem id_eq (h : Placed tree tree' d d') : d.id = d'.id := by rw [h.same]

/-- Both declarations have the same name. -/
theorem name_eq (h : Placed tree tree' d d') : d.name = d'.name := by rw [h.same]

/-- Both are asked for the same things. -/
theorem asked_eq (h : Placed tree tree' d d') : d.asked = d'.asked := by
  rw [h.same]
  rfl

/-- Both are bound in the same way. -/
theorem binding_eq (h : Placed tree tree' d d') : d.binding = d'.binding := by
  rw [h.same]
  rfl

/-- Both are bound as the same kind. -/
theorem bindingKind_eq (h : Placed tree tree' d d') : d.bindingKind = d'.bindingKind :=
  congrArg Binding.kind h.binding_eq

end Declaration.Placed

/-- Two units with the same steps, with their trees and their declarations. -/
structure BothRegistered (unit other : TranslationUnit) (tree tree' : ScopeTree)
    (state state' : Registration) : Prop where
  reorders : unit.Reorders other
  built : ScopeTree.build unit = .ok tree
  registered : registerDeclarations unit tree = .ok state
  built' : ScopeTree.build other = .ok tree'
  registered' : registerDeclarations other tree' = .ok state'

namespace BothRegistered

variable (both : BothRegistered unit other tree tree' state state')

include both

/-- The tree of the first unit is formed. -/
theorem formed : state.tree.Formed := (registered_traced both.built both.registered).formed

/-- So is that of the other. -/
theorem formed' : state'.tree.Formed := (registered_traced both.built' both.registered').formed

/-- The registered scopes have the same surroundings. -/
theorem headersFrom_placeOf (place : Place) :
    state.tree.headersFrom (tree.placeOf place) =
      state'.tree.headersFrom (tree'.placeOf place) := by
  rw [(registered_traced both.built both.registered).shape.headersFrom_eq,
    (registered_traced both.built' both.registered').shape.headersFrom_eq,
    ScopeTree.headersFrom_placeOf both.reorders both.built both.built']

/-- The declarations correspond. -/
theorem entries_reordered :
    Reordered (Declaration.Placed tree tree') state.table.entries state'.table.entries := by
  rw [registered_entries both.registered, registered_entries both.registered']
  refine (both.reorders.outline .recordsFirst).filterMap fun item item' alike => ?_
  cases alike with
  | @record within site site' alike =>
    refine .some ⟨?_, within, rfl, rfl⟩
    simp only [RecordSite.declaration, ← alike.id, ← alike.simpleName, ← alike.isStatic,
      ← alike.span, ScopeTree.recordNameOf_eq both.reorders both.built both.built']
  | declares within item => exact .some ⟨rfl, within, rfl, rfl⟩
  | opens | uses => exact .none

/-- The tables answer what lookups ask alike. -/
theorem asked_get?_eq (id : NodeId) :
    (state.table.get? id).map Declaration.asked = (state'.table.get? id).map Declaration.asked := by
  have distinct := registered_entries_nodup both.built both.registered
  have found := both.entries_reordered.find?_rel (fun _ _ placed => placed.id_eq) distinct id
  exact map_eq_of_optionRel found fun _ _ placed => placed.asked_eq

end BothRegistered

end NameBinding
