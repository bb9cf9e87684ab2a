import NameBinding.Proofs.ReorderedPrograms
import NameBinding.Proofs.UseCoverage

/-!
# The order of members

The members of a record may refer to each other wherever they stand. If nothing clashes, permuting
the fields, methods and nested records of the records of a unit changes the order in which its uses
are looked up and the numbers of the scopes they are looked up from, and nothing else: the uses are
the same and denote the same.
-/

namespace NameBinding

/-- Two entries that tell the same of one use, whatever the numbers of their scopes. -/
def UseEntry.SameUse (entry other : UseEntry) : Prop :=
  ∃ scope place, UseEntry.Moved scope place entry other

/-- What goes on alike from a result has a related result. -/
theorem Outcomes.of_ok {α β : Type} {T : α → β → Prop} {x : Except Issue α} {y : Except Issue β}
    (h : Outcomes T x y) {a : α} (run : x = .ok a) : ∃ b, y = .ok b ∧ T a b := by
  cases h with
  | error issue => cases run
  | ok related =>
    cases run
    exact ⟨_, rfl, related⟩

namespace Scene

variable {scene other : Scene} {log : UseLog}

/-- Steps that are resolved in another order leave the same entries in another order. -/
theorem resolveSteps_perm {steps reordered : List Step} (perm : steps.Perm reordered)
    (run : scene.resolveSteps steps = .ok log) :
    ∃ log', scene.resolveSteps reordered = .ok log' ∧ log.Perm log' := by
  induction perm generalizing log with
  | nil => exact ⟨log, run, .rfl⟩
  | cons item _ ih =>
    obtain ⟨first, second, head, tail, rfl⟩ := resolveSteps_cons_eq_ok_iff.mp run
    obtain ⟨second', tail', perm⟩ := ih tail
    exact ⟨_, resolveSteps_cons_eq_ok_iff.mpr ⟨first, second', head, tail', rfl⟩,
      perm.append_left first⟩
  | swap item next rest =>
    obtain ⟨first, _, head, tail, rfl⟩ := resolveSteps_cons_eq_ok_iff.mp run
    obtain ⟨second, third, head', last, rfl⟩ := resolveSteps_cons_eq_ok_iff.mp tail
    refine ⟨_, resolveSteps_cons_eq_ok_iff.mpr ⟨second, _, head',
      resolveSteps_cons_eq_ok_iff.mpr ⟨first, third, head, last, rfl⟩, rfl⟩, ?_⟩
    rw [← List.append_assoc, ← List.append_assoc]
    exact List.perm_append_comm.append_right third
  | trans _ _ ih ih' =>
    obtain ⟨middle, run', perm⟩ := ih run
    obtain ⟨log', run'', perm'⟩ := ih' run'
    exact ⟨log', run'', perm.trans perm'⟩

/-- If step by step the entries of two scenes are related, so are those of all steps. -/
theorem resolveSteps_rel {T : UseEntry → UseEntry → Prop} {steps others : List Step}
    (related : List.Forall₂ (fun item item' => ∀ part, scene.resolveStep item = .ok part →
      ∃ part', other.resolveStep item' = .ok part' ∧ List.Forall₂ T part part') steps others)
    (run : scene.resolveSteps steps = .ok log) :
    ∃ log', other.resolveSteps others = .ok log' ∧ List.Forall₂ T log log' := by
  induction related generalizing log with
  | nil =>
    cases run
    exact ⟨[], rfl, .nil⟩
  | cons each _ ih =>
    obtain ⟨first, second, head, tail, rfl⟩ := resolveSteps_cons_eq_ok_iff.mp run
    obtain ⟨first', head', related⟩ := each first head
    obtain ⟨second', tail', others⟩ := ih tail
    exact ⟨_, resolveSteps_cons_eq_ok_iff.mpr ⟨first', second', head', tail', rfl⟩,
      List.rel_append related others⟩

end Scene

/-! ### The uses of units with the same steps -/

namespace BothRegistered

variable {unit other : TranslationUnit} {tree tree' : ScopeTree} {state state' : Registration}
  {index index' : RecordIndex} {R : RecordInfo → RecordInfo → Prop}
  (both : BothRegistered unit other tree tree' state state')

include both

/-- A node that has opened a scope in one tree has opened one in the other. -/
theorem exists_scopeOf {node : NodeId} {span : Span} {scope : ScopeId}
    (found : state.tree.scopeOf node span = .ok scope) :
    ∃ scope', state'.tree.scopeOf node span = .ok scope' := by
  obtain ⟨s, hs, owner, _⟩ := both.formed.exists_of_scopeOf?
    (ScopeTree.scopeOf_eq_ok_iff.mp found)
  obtain ⟨u, hu, u', hu', here, _, same⟩ := both.exists_at (.node s.owner)
  rw [registered_placeOf_owner both.built both.registered hs] at here
  rw [both.formed.eq_of_id hu hs here, owner] at same
  refine ⟨u'.id, ScopeTree.scopeOf_eq_ok_iff.mpr ?_⟩
  rw [same]
  exact both.formed'.scopeOf?_owner hu'

/-- A step has the same uses in both units. -/
theorem resolveStep_rel (clean : state.issues = [])
    (answers : RecordIndex.AnswersAlike R index index') {item item' : Step}
    (alike : item.Alike item') {part : UseLog}
    (run : (state.scene unit index).resolveStep item = .ok part) :
    ∃ part', (state'.scene other index').resolveStep item' = .ok part' ∧
      List.Forall₂ UseEntry.SameUse part part' := by
  cases alike with
  | record within alike =>
    obtain ⟨scope, found, done⟩ := bind_eq_ok_iff.mp run
    obtain ⟨scope', found'⟩ := both.exists_scopeOf found
    cases done
    rw [alike.id, alike.span] at found'
    exact ⟨[], bind_eq_ok_iff.mpr ⟨scope', found', rfl⟩, .nil⟩
  | opens within header span =>
    rw [Scene.resolveStep] at run ⊢
    split at run
    · cases run
      rename_i unasked
      exact ⟨[], if_pos unasked, .nil⟩
    · obtain ⟨scope, found, done⟩ := bind_eq_ok_iff.mp run
      obtain ⟨scope', found'⟩ := both.exists_scopeOf found
      cases done
      rename_i asked
      exact ⟨[], (if_neg asked).trans (bind_eq_ok_iff.mpr ⟨scope', found', rfl⟩), .nil⟩
  | declares within item =>
    cases run
    exact ⟨[], rfl, .nil⟩
  | uses within inStatic value =>
    have outcomes := (both.scene_alike answers).uses_rel (both.sameAround clean within) inStatic
      value
    obtain ⟨part', run', moved⟩ := outcomes.of_ok run
    exact ⟨part', run', moved.imp fun _ _ moved => ⟨_, _, moved⟩⟩

/-- The units have the same uses, in whatever order. -/
theorem resolveReferences_reordered (clean : state.issues = [])
    (answers : RecordIndex.AnswersAlike R index index') {log : UseLog}
    (run : resolveReferences unit state.tree state.table index = .ok log) :
    ∃ log', resolveReferences other state'.tree state'.table index' = .ok log' ∧
      Reordered UseEntry.SameUse log log' := by
  rw [resolveReferences_eq] at run
  rw [resolveReferences_eq]
  obtain ⟨steps, perm, paired⟩ := both.reorders.outline .recordsFirst
  obtain ⟨middle, run, reordered⟩ := Scene.resolveSteps_perm perm run
  obtain ⟨log', run', same⟩ := Scene.resolveSteps_rel (paired.imp fun _ _ alike _ taken =>
    both.resolveStep_rel clean answers alike taken) run
  exact ⟨log', run', middle, reordered, same⟩

end BothRegistered

/-! ### What goes into the slots -/

/-- A value under a key is that of the first entry with this key. -/
theorem valueAt?_eq_find? {α β : Type} [DecidableEq α] (key : α) (entries : List (α × β)) :
    valueAt? key entries = (entries.find? (·.1 == key)).map Prod.snd := by
  induction entries with
  | nil => rfl
  | cons entry rest ih =>
    by_cases here : entry.1 = key <;> simp [valueAt?, here, ih]

/-- If the keys are distinct, the order of the entries does not matter. -/
theorem valueAt?_of_perm {α β : Type} [DecidableEq α] {entries others : List (α × β)}
    (perm : entries.Perm others) (distinct : (entries.map Prod.fst).Nodup) (key : α) :
    valueAt? key entries = valueAt? key others := by
  have reordered : Reordered Eq entries others := .of_perm (fun _ => rfl) perm
  rw [valueAt?_eq_find?, valueAt?_eq_find?, eq_of_optionRel
    (reordered.find?_rel (fun _ _ same => congrArg Prod.fst same) distinct key)]

namespace UseLog

variable {log log' : UseLog} (same : Reordered UseEntry.SameUse log log')

include same

/-- The same uses have the same ids. -/
theorem ids_perm : (log.map fun entry => entry.use.id).Perm
    (log'.map fun entry => entry.use.id) := by
  refine same.map_perm fun entry other ⟨scope, place, moved⟩ => ?_
  cases moved <;> rfl

/-- The same bare names leave the same slots. -/
theorem reference_slots_perm : (log.references.map fun site => (site.id, site.slots)).Perm
    (log'.references.map fun site => (site.id, site.slots)) := by
  unfold references
  rw [List.map_filterMap, List.map_filterMap]
  refine same.filterMap_perm fun entry other ⟨scope, place, moved⟩ => ?_
  cases moved <;> rfl

/-- The same member accesses leave the same slots. -/
theorem member_slots_perm : (log.members.filterMap MemberSite.slot?).Perm
    (log'.members.filterMap MemberSite.slot?) := by
  unfold members
  rw [List.filterMap_filterMap, List.filterMap_filterMap]
  refine same.filterMap_perm fun entry other ⟨scope, place, moved⟩ => ?_
  cases moved <;> rfl

/-- If the uses have distinct ids, every slot is filled alike. -/
theorem slots_eq (distinct : (log.map fun entry => entry.use.id).Nodup) (id : NodeId) :
    (Resolutions.ofLog log).reference? id = (Resolutions.ofLog log').reference? id ∧
      (Resolutions.ofLog log).member? id = (Resolutions.ofLog log').member? id := by
  have distinct' := (ids_perm same).nodup_iff.mp distinct
  have references := distinct.sublist log.reference_ids_sublist
  have members := distinct.sublist log.member_ids_sublist
  unfold Resolutions.reference? Resolutions.member?
  rw [Resolutions.references_ofLog references, Resolutions.members_ofLog members,
    Resolutions.references_ofLog (distinct'.sublist log'.reference_ids_sublist),
    Resolutions.members_ofLog (distinct'.sublist log'.member_ids_sublist)]
  constructor
  · refine valueAt?_of_perm (reference_slots_perm same) ?_ id
    rw [List.map_map]
    exact references
  · exact valueAt?_of_perm (member_slots_perm same)
      (members.sublist (MemberSite.slot_ids_sublist _)) id

end UseLog

/-! ### Analysing shuffled units -/

/-- A unit that goes through all phases is analysed. -/
theorem exists_analysis {unit : TranslationUnit} {tree : ScopeTree} {state : Registration}
    {index : RecordIndex} {log : UseLog} (built : ScopeTree.build unit = .ok tree)
    (registered : registerDeclarations unit tree = .ok state)
    (resolved : resolveReferences unit state.tree state.table index = .ok log) (options : Options) :
    ∃ analysis, resolveUnit unit index options = .ok analysis ∧ analysis.tree = state.tree ∧
      analysis.declarations = state.table ∧ analysis.resolutions = .ofLog log := by
  rw [resolveUnit, built, ok_bind, registered, ok_bind, resolved, ok_bind]
  exact ⟨_, rfl, rfl, rfl, rfl⟩

/-- The order of members does not matter. Let the fields, methods and nested records of any records
of a unit be permuted, and let the index be built anew over the same program. If the unit is
resolved, registration reports nothing, and no ids or qualified names clash in the index, then the
permuted unit is resolved as well and its uses denote the same. The slots go by id, so they are the
same if no two uses have one id. -/
theorem member_order_irrelevant {unit other : TranslationUnit} {before after : List TranslationUnit}
    {externals : List ExternalRecord} {index rebuilt : RecordIndex} {options : Options}
    {analysis : UnitAnalysis} (shuffled : unit.Shuffled other)
    (indexed : index = .ofProgram (before ++ unit :: after) externals)
    (reindexed : rebuilt = .ofProgram (before ++ other :: after) externals)
    (ids : (index.records.map (·.id)).Nodup) (fieldIds : (index.fields.map (·.id)).Nodup)
    (collisions : index.collisions = [])
    (clean : ∀ tree state, ScopeTree.build unit = .ok tree →
      registerDeclarations unit tree = .ok state → state.issues = [])
    (run : resolveUnit unit index options = .ok analysis) :
    ∃ analysis', resolveUnit other rebuilt options = .ok analysis' ∧
      (∃ log log', resolveReferences unit analysis.tree analysis.declarations index = .ok log ∧
        analysis.resolutions = .ofLog log ∧
        resolveReferences other analysis'.tree analysis'.declarations rebuilt = .ok log' ∧
        analysis'.resolutions = .ofLog log' ∧ Reordered UseEntry.SameUse log log') ∧
      (unit.useIds.Nodup → ∀ id,
        analysis'.resolutions.reference? id = analysis.resolutions.reference? id ∧
        analysis'.resolutions.member? id = analysis.resolutions.member? id) := by
  subst indexed reindexed
  obtain ⟨tree, built, run⟩ := bind_eq_ok_iff.mp run
  obtain ⟨state, registered, run⟩ := bind_eq_ok_iff.mp run
  obtain ⟨log, resolved, run⟩ := bind_eq_ok_iff.mp run
  cases run
  have reorders := shuffled.reorders
  obtain ⟨tree', built'⟩ := reorders.exists_build built
  obtain ⟨state', registered'⟩ := reorders.exists_registered built built' registered
  have both : BothRegistered unit other tree tree' state state' :=
    ⟨reorders, built, registered, built', registered'⟩
  have nothing := clean tree state built registered
  have names : ∀ site ∈ unit.recordSites, (site.decl.fields.map (·.name)).Nodup := fun _ listed =>
    registered_field_names_nodup built registered nothing listed
  have answers := RecordIndex.ofProgram_answersAlike reorders names
    ⟨ids, fieldIds, RecordIndex.collisions_eq_nil_iff.mp collisions⟩
  obtain ⟨log', resolved', same⟩ := both.resolveReferences_reordered nothing answers resolved
  obtain ⟨analysis', run', tree, table, slots⟩ :=
    exists_analysis built' registered' resolved' options
  refine ⟨analysis', run', ⟨log, log', resolved, rfl, ?_, slots, same⟩, fun distinct id => ?_⟩
  · rw [tree, table]
    exact resolved'
  · obtain ⟨bases, accounts⟩ := resolveReferences_accounts resolved
    obtain ⟨references, members⟩ := UseLog.slots_eq same (accounts.parts_nodup distinct).1 id
    rw [slots]
    exact ⟨references.symm, members.symm⟩

/-- A record whose members refer to each other, arranged in some order: a field starts with another
field, a method reaches into a nested record, and a nested record inherits from the outer one. -/
def memberUnit (arrange : ∀ {α : Type}, List α → List α) : TranslationUnit :=
  let int : TypeRef := { name := "int" }
  let use (id : UInt32) (name : String) : Expr := .reference { id := ⟨id⟩, name }
  let x : Field := { id := ⟨2⟩, name := "x", type := int, initializer := some (use 20 "inner") }
  let inner : Field := { id := ⟨3⟩, name := "inner", type := { name := "B" } }
  let y : Field := { id := ⟨8⟩, name := "y", type := int }
  let get : Method := ⟨⟨4⟩, "get", false, false, [],
    some ⟨⟨5⟩, [.expr (.member (use 21 "inner") { id := ⟨22⟩, name := "y" })], {}⟩, {}⟩
  let clear : Method := ⟨⟨6⟩, "clear", false, false, [], none, {}⟩
  let b : Record := ⟨⟨7⟩, "B", none, false, [y], [], [], {}⟩
  let c : Record := ⟨⟨9⟩, "C", some { name := "A" }, false, [], [], [], {}⟩
  { id := ⟨0⟩, name := "Members"
    records := [⟨⟨1⟩, "A", none, false, arrange [x, inner], arrange [get, clear],
      arrange [b, c], {}⟩] }

/-- Reversing the members of the record shuffles the unit. -/
theorem memberUnit_shuffled : (memberUnit id).Shuffled (memberUnit List.reverse) where
  same := rfl
  records := by
    have empty (id : NodeId) (name : String) (superclass : Option TypeRef) (fields : List Field) :
        Record.Shuffled ⟨id, name, superclass, false, fields, [], [], {}⟩
          ⟨id, name, superclass, false, fields, [], [], {}⟩ :=
      .mk id name superclass false {} .rfl .rfl .nil .rfl .nil
    refine .cons (.mk ⟨1⟩ "A" none false {} (List.reverse_perm _).symm (List.reverse_perm _).symm ?_
      (List.reverse_perm _).symm (.cons (empty ..) (.cons (empty ..) .nil))) .nil
    exact .bodiless _ _ _ _ _ _ (.cons _ _ _ _ _ _ (.mk _ _ (.cons (.expr _) .nil)) .nil)

theorem member_order_irrelevant_sample :
    ∃ analysis', resolveUnit (memberUnit List.reverse) (.build [memberUnit List.reverse]) {} =
        .ok analysis' ∧
      analysis'.resolutions.reference? ⟨20⟩ = some ⟨some ⟨⟨3⟩, .field⟩, some ⟨⟨1⟩, .this⟩⟩ ∧
      analysis'.resolutions.reference? ⟨21⟩ = some ⟨some ⟨⟨3⟩, .field⟩, some ⟨⟨1⟩, .this⟩⟩ ∧
      analysis'.resolutions.member? ⟨22⟩ = some ⟨⟨8⟩, .field⟩ := by
  have found : (resolveUnit (memberUnit id) (.build [memberUnit id]) {}).toOption.map
      (fun analysis => (analysis.resolutions.reference? ⟨20⟩, analysis.resolutions.reference? ⟨21⟩,
        analysis.resolutions.member? ⟨22⟩)) =
      some (some ⟨some ⟨⟨3⟩, .field⟩, some ⟨⟨1⟩, .this⟩⟩,
        some ⟨some ⟨⟨3⟩, .field⟩, some ⟨⟨1⟩, .this⟩⟩, some ⟨⟨8⟩, .field⟩) := by decide +kernel
  have reported : (ScopeTree.build (memberUnit id)).toOption.map (fun tree =>
      (registerDeclarations (memberUnit id) tree).toOption.map (·.issues)) =
      some (some []) := by decide +kernel
  have clean : ∀ tree state, ScopeTree.build (memberUnit id) = .ok tree →
      registerDeclarations (memberUnit id) tree = .ok state → state.issues = [] := by
    intro tree state built registered
    rw [built] at reported
    have nothing : (registerDeclarations (memberUnit id) tree).toOption.map (·.issues) = some [] :=
      Option.some.inj reported
    rw [registered] at nothing
    exact Option.some.inj nothing
  obtain ⟨analysis, run, slots⟩ := exists_ok_of_toOption_map found
  have indexed : ∀ unit, RecordIndex.build [unit] = .ofProgram ([] ++ unit :: []) [] := fun _ => rfl
  obtain ⟨analysis', run', _, same⟩ := member_order_irrelevant memberUnit_shuffled (indexed _)
    (indexed _) (by decide +kernel) (by decide +kernel) (by decide +kernel) clean run
  have alike := same (by decide +kernel)
  obtain ⟨first, rest⟩ := Prod.mk.inj slots
  obtain ⟨second, third⟩ := Prod.mk.inj rest
  exact ⟨analysis', run', (alike ⟨20⟩).1.trans first, (alike ⟨21⟩).1.trans second,
    (alike ⟨22⟩).2.trans third⟩

end NameBinding
