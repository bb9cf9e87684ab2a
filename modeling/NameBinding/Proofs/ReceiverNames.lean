import NameBinding.Proofs.ImplicitBase
import NameBinding.Proofs.MemberAccesses
import NameBinding.Proofs.OuterReceivers
import NameBinding.Proofs.ReceiverBindings

/-!
# The receiver of a named record

Behind the name of a record, `this` is the receiver of the record. It is looked up once more by the
simple name of the record, though, and not by the record itself. So it is the receiver of this
record as long as no other record around has its simple name, and as long as nothing but receivers
is called like it. A record of that simple name in another package is mistaken for the one around
(`namesake_receiver_found`).
-/

namespace NameBinding

/-- A field is no receiver. -/
theorem BindingKind.isReceiver_of_isField {kind : BindingKind} (h : kind.isField = true) :
    kind.isReceiver = false := by
  cases kind <;> first | rfl | cases h

/-- What an ending is put behind stands before it. -/
theorem RecordName.dropEnding?_append (ending name : String) :
    dropEnding? ending (name ++ ending) = some name := by
  have ends : ending.toList.isSuffixOf (name ++ ending).toList = true := by
    rw [List.isSuffixOf_iff_suffix, String.toList_append]
    exact List.suffix_append _ _
  rw [dropEnding?, if_pos ends]
  simp

namespace ScopeTree

/-- The innermost record around a scope. -/
def innermostOwner? (tree : ScopeTree) (scope : ScopeId) : Option NodeId :=
  ((tree.chain scope).find? (·.kind == .record)).map (·.owner)

/-- A record stands around a scope. -/
def Encloses (tree : ScopeTree) (record : NodeId) (scope : ScopeId) : Prop :=
  ∃ t ∈ tree.chain scope, t.kind = .record ∧ t.owner = record

variable {tree : ScopeTree} {scope : ScopeId}

/-- The innermost record is not one of those around a record scope. -/
theorem Formed.innermostOwner?_ne (formed : tree.Formed) {s t : Scope}
    (hs : s ∈ tree.chain scope) (record : s.kind = .record) (ht : t ∈ (tree.chain s.id).tail) :
    tree.innermostOwner? scope ≠ some t.owner := by
  obtain ⟨start, member, rfl⟩ := formed.exists_of_mem_chain hs
  obtain ⟨before, after, split⟩ := List.append_of_mem hs
  rw [formed.chain_of_split member split, List.tail_cons] at ht
  obtain ⟨between, further, rfl⟩ := List.append_of_mem ht
  have whole : tree.chain start.id = (before ++ s :: between) ++ t :: further := by
    rw [split, List.append_assoc, List.cons_append]
  intro innermost
  obtain ⟨u, first, owner⟩ := Option.map_eq_some_iff.mp innermost
  have nearer : u ∈ before ++ s :: between := by
    rw [whole, List.find?_append] at first
    rcases Option.or_eq_some_iff.mp first with nearer | ⟨none, -⟩
    · exact List.mem_of_find?_eq_some nearer
    · exact absurd (beq_iff_eq.mpr record)
        (List.find?_eq_none.mp none s (List.mem_append_right _ List.mem_cons_self))
  have inTree : ∀ v ∈ (before ++ s :: between) ++ t :: further, v ∈ tree.scopes :=
    fun v hv => mem_of_mem_chain (whole ▸ hv)
  have same : u = t := formed.eq_of_owner (inTree u (List.mem_append_left _ nearer))
    (inTree t (List.mem_append_right _ List.mem_cons_self)) owner
  exact formed.ne_of_split whole u nearer (congrArg (·.id) same)

/-- What stands around a scope stands around every scope inside. -/
theorem Formed.mem_chain_of_mem_tail (formed : tree.Formed) {s t : Scope}
    (hs : s ∈ tree.chain scope) (ht : t ∈ (tree.chain s.id).tail) : t ∈ tree.chain scope := by
  obtain ⟨start, member, rfl⟩ := formed.exists_of_mem_chain hs
  obtain ⟨before, after, split⟩ := List.append_of_mem hs
  rw [formed.chain_of_split member split, List.tail_cons] at ht
  rw [split]
  exact List.mem_append_right _ (List.mem_cons_of_mem _ ht)

end ScopeTree

namespace Scene

variable {scene : Scene} {unit : TranslationUnit} {scope : ScopeId} {inStatic : Bool}
  {record : RecordInfo} {name : String} {use : Span} {hit : Hit}

/-- Nothing around a scope has this name but receivers. -/
structure OnlyReceivers (scene : Scene) (scope : ScopeId) (name : String) : Prop where
  types : ∀ t ∈ scene.tree.chain scope, t.typeBinding? name = none
  vars : ∀ t ∈ scene.tree.chain scope, ∀ b ∈ t.varBinding? name, b.kind.isReceiver = true
  fields : ∀ t ∈ scene.tree.chain scope, t.kind = .record →
    scene.inherited? t.owner name 0 true = none

/-- The records around a scope that have the simple name of a record are this record. -/
def NoNamesake (scene : Scene) (unit : TranslationUnit) (scope : ScopeId) (record : RecordInfo) :
    Prop :=
  ∀ t ∈ scene.tree.chain scope, t.kind = .record →
    unit.simpleName? t.owner = some record.simpleName → t.owner = record.id

instance (scene : Scene) (scope : ScopeId) (name : String) :
    Decidable (scene.OnlyReceivers scope name) :=
  decidable_of_iff
    ((∀ t ∈ scene.tree.chain scope, t.typeBinding? name = none) ∧
      (∀ t ∈ scene.tree.chain scope, ∀ b ∈ t.varBinding? name, b.kind.isReceiver = true) ∧
      ∀ t ∈ scene.tree.chain scope, t.kind = .record →
        scene.inherited? t.owner name 0 true = none)
    ⟨fun ⟨types, vars, fields⟩ => ⟨types, vars, fields⟩, fun h => ⟨h.types, h.vars, h.fields⟩⟩

instance (scene : Scene) (unit : TranslationUnit) (scope : ScopeId) (record : RecordInfo) :
    Decidable (scene.NoNamesake unit scope record) :=
  inferInstanceAs (Decidable (∀ t ∈ scene.tree.chain scope, t.kind = .record →
    unit.simpleName? t.owner = some record.simpleName → t.owner = record.id))

/-- A record of this simple name stands around a scope and can be reached from there: it is the
innermost one, or it is among the outer records of one inside. -/
def Reaches (scene : Scene) (unit : TranslationUnit) (scope : ScopeId) (record : NodeId)
    (name : String) : Prop :=
  ∃ t ∈ scene.tree.chain scope, t.kind = .record ∧ t.owner = record ∧
    unit.simpleName? t.owner = some name ∧
    (scene.tree.innermostOwner? scope = some t.owner ∨
      ∃ s ∈ scene.tree.chain scope, s.kind = .record ∧ t.owner ∈ scene.tree.outersOf s)

/-- What `this` is found to be behind the name of a record: the receiver of this record, `this`
itself in the innermost record, and nothing where the record does not stand around. -/
structure FindsReceiver (scene : Scene) (unit : TranslationUnit) (record : RecordInfo)
    (site : MemberSite) : Prop where
  own : ∀ resolution, site.finding.resolved = some resolution →
    resolution = ⟨record.id,
      if scene.tree.innermostOwner? site.scope = some record.id then .this else .outerThis⟩
  outside : ¬scene.tree.Encloses record.id site.scope → site.finding.resolved = none
  reached : scene.Reaches unit site.scope record.id record.simpleName →
    site.finding.resolved.isSome

/-- Behind the name of a record `this` is looked up by the simple name of the record. -/
theorem findAccess_receiver {access : MemberName} (isThis : access.name = "this") :
    scene.findAccess scope inStatic (some ⟨record, true⟩) access =
      (record.simpleName ++ ".this",
        (scene.lookup? scope (record.simpleName ++ ".this") access.span inStatic).elim
          (.missing .noBinding) fun hit => .member hit.resolved hit.staticContext) := by
  rw [findAccess, if_pos isThis, findReceiver, if_pos rfl]
  cases looked : scene.lookup? scope (record.simpleName ++ ".this") access.span inStatic <;>
    simp [looked]

/-- Behind the name of a record `this` denotes what it is looked up as. -/
theorem findAccess_this {access : MemberName} (isThis : access.name = "this") :
    (scene.findAccess scope inStatic (some ⟨record, true⟩) access).2.resolved =
      (scene.lookup? scope (record.simpleName ++ ".this") access.span inStatic).map
        (·.resolved) := by
  rw [findAccess_receiver isThis]
  cases scene.lookup? scope (record.simpleName ++ ".this") access.span inStatic <;> rfl

/-- A name that a scope around offers is found. -/
theorem lookup?_isSome_of_offers {t : Scope} (ht : t ∈ scene.tree.chain scope)
    (offers : t.Offers scene.index name use) : (scene.lookup? scope name use inStatic).isSome := by
  rw [Option.isSome_iff_ne_none]
  intro missing
  rw [lookup?_eq, Option.or_eq_none_iff] at missing
  exact searchVariable?_eq_none_iff.mp missing.1 t ht offers

/-- Where some scope is a record there is an innermost one. -/
theorem exists_innermostRecord? {scopes : List Scope} {s : Scope} (receiver : Bool)
    (first : scopes.find? (·.kind == .record) = some s) :
    ∃ reachable, innermostRecord? receiver scopes = some (s.owner, reachable) := by
  induction scopes generalizing receiver with
  | nil => cases first
  | cons t rest ih =>
    rw [innermostRecord?]
    by_cases kind : t.kind = .record
    · rw [List.find?_cons_of_pos (by simp [kind])] at first
      cases first
      exact ⟨receiver, if_pos kind⟩
    · rw [List.find?_cons_of_neg (by simp [kind])] at first
      rw [if_neg kind]
      exact ih _ first

/-- In a record its own receiver can be spelled out. -/
theorem ownReceiver?_isSome {s : Scope} {d : Declaration}
    (first : (scene.tree.chain scope).find? (·.kind == .record) = some s)
    (declared : scene.table.get? s.owner = some d) :
    (scene.ownReceiver? scope (d.name ++ ".this") inStatic).isSome := by
  obtain ⟨reachable, innermost⟩ := exists_innermostRecord? (!inStatic) first
  rw [ownReceiver?, innermost, RecordName.dropEnding?_append]
  simp [declared]

end Scene

/-- This is the receiver of a record of this simple name around a scope: `this` itself in the
innermost record. -/
def ReceiverAround (unit : TranslationUnit) (tree : ScopeTree) (scope : ScopeId) (name : String)
    (resolution : Resolution) : Prop :=
  ∃ t ∈ tree.chain scope, t.kind = .record ∧ unit.simpleName? t.owner = some name ∧
    resolution = ⟨t.owner, if tree.innermostOwner? scope = some t.owner then .this else .outerThis⟩

section

variable {unit : TranslationUnit} {tree : ScopeTree} {state : Registration} {index : RecordIndex}
  {scope : ScopeId} {name : String} {use : Span} {inStatic : Bool} {hit : Hit}

/-- A receiver that is bound by the simple name of a record belongs to an outer record of this
simple name. -/
theorem registered_bound_receiver (built : ScopeTree.build unit = .ok tree)
    (registered : registerDeclarations unit tree = .ok state) {t : Scope}
    (inChain : t ∈ state.tree.chain scope) {b : Binding}
    (bound : t.varBinding? (name ++ ".this") = some b) (receiver : b.kind.isReceiver = true) :
    ReceiverAround unit state.tree scope name b.resolution := by
  have formed := (registered_traced built registered).formed
  have ht := ScopeTree.mem_of_mem_chain inChain
  have sort : t.kind = .record := by
    by_contra other
    have plain := (registered_receiversInRecords built registered).plain t ht other b
      (Scope.mem_of_varBinding? bound).1
    rw [receiver] at plain
    cases plain
  obtain ⟨d, hd, reached, named, rfl⟩ :=
    (registered_receiversHeld built registered ht sort).exists_outer bound receiver
  obtain ⟨u, around, record, owner⟩ := ScopeTree.exists_of_mem_outersOf reached
  have further := formed.mem_chain_of_mem_tail inChain around
  obtain ⟨d', hd', id', name'⟩ := registered_simpleName built registered
    (ScopeTree.mem_of_mem_chain further) record
  obtain rfl := registered_eq_of_id built registered hd hd' (id'.trans owner)
  refine ⟨u, further, record, named ▸ name', ?_⟩
  rw [if_neg (formed.innermostOwner?_ne inChain sort around), owner]
  rfl

/-- The receiver of the innermost record is spelled by the simple name of this record. -/
theorem registered_own_receiver (built : ScopeTree.build unit = .ok tree)
    (registered : registerDeclarations unit tree = .ok state)
    (own : (state.scene unit index).ownReceiver? scope (name ++ ".this") inStatic = some hit) :
    ReceiverAround unit state.tree scope name hit.resolved := by
  obtain ⟨s, d, first, declared, named, denotes⟩ := Scene.ownReceiver?_eq_some own
  have isRecord := List.find?_some first
  have sort : s.kind = .record := beq_iff_eq.mp isRecord
  have inChain : s ∈ state.tree.chain scope := List.mem_of_find?_eq_some first
  obtain ⟨d', hd', id, simple⟩ :=
    registered_simpleName built registered (ScopeTree.mem_of_mem_chain inChain) sort
  have same : d' = d := by
    have again := registered_get? built registered hd'
    rw [id] at again
    exact Option.some.inj (again.symm.trans declared)
  have innermost : state.tree.innermostOwner? scope = some s.owner :=
    congrArg (·.map (·.owner)) first
  have spelled : d'.name = name := by rw [same]; simpa using named.symm
  exact ⟨s, inChain, sort, spelled ▸ simple, by rw [denotes, if_pos innermost]⟩

/-- The receiver that is found by the simple name of a record belongs to a record around of this
simple name. -/
theorem registered_lookup_receiver (built : ScopeTree.build unit = .ok tree)
    (registered : registerDeclarations unit tree = .ok state)
    (only : (state.scene unit index).OnlyReceivers scope (name ++ ".this"))
    (found : (state.scene unit index).lookup? scope (name ++ ".this") use inStatic = some hit) :
    ReceiverAround unit state.tree scope name hit.resolved := by
  rw [Scene.lookup?_eq] at found
  rcases Option.or_eq_some_iff.mp found with search | ⟨-, later⟩
  · obtain ⟨before, t, after, chain, offered⟩ := Scene.exists_split_of_search search
    have inChain : t ∈ state.tree.chain scope := by
      have whole : state.tree.chain scope = before ++ t :: after := chain
      rw [whole]
      exact List.mem_append_right _ List.mem_cons_self
    cases Scene.offer_of_offer? offered with
    | bound bound same _ _ =>
      rw [same]
      exact registered_bound_receiver built registered inChain bound (only.vars t inChain _ bound)
    | own _ bound isField =>
      have receiver := only.vars t inChain _ bound
      rw [BindingKind.isReceiver_of_isField isField] at receiver
      cases receiver
    | @inherited record declarer field sort known declares =>
      have inherits :
          ((state.scene unit index).inherited? t.owner (name ++ ".this") 0 true).isSome :=
        Scene.inherited?_isSome_iff.mpr ⟨record, declarer, field, known, declares⟩
      rw [only.fields t inChain sort] at inherits
      cases inherits
  · have unbound : (state.scene unit index).typeBinding? scope (name ++ ".this") use = none :=
      List.findSome?_eq_none_iff.mpr fun t ht => by rw [Scene.offeredType?, only.types t ht]; rfl
    rw [unbound, Option.map_none, Option.none_or] at later
    exact registered_own_receiver built registered later

/-- The receiver of a record that can be reached is found by its simple name. -/
theorem registered_lookup_isSome (built : ScopeTree.build unit = .ok tree)
    (registered : registerDeclarations unit tree = .ok state) {record : NodeId}
    (reached : (state.scene unit index).Reaches unit scope record name) :
    ((state.scene unit index).lookup? scope (name ++ ".this") use inStatic).isSome := by
  obtain ⟨t, inChain, sort, -, simple, reached⟩ := reached
  obtain ⟨d, hd, id, named⟩ :=
    registered_simpleName built registered (ScopeTree.mem_of_mem_chain inChain) sort
  obtain rfl : d.name = name := Option.some.inj (named.symm.trans simple)
  rcases reached with innermost | ⟨s, around, record, outer⟩
  · obtain ⟨s, first, owner⟩ := Option.map_eq_some_iff.mp innermost
    have declared : (state.scene unit index).table.get? s.owner = some d := by
      rw [owner, ← id]
      exact registered_get? built registered hd
    have own : ((state.scene unit index).ownReceiver? scope (d.name ++ ".this") inStatic).isSome :=
      Scene.ownReceiver?_isSome first declared
    rw [Scene.lookup?_eq, Option.isSome_or, Option.isSome_or, own]
    simp
  · rw [← id] at outer
    have held := registered_receiversHeld built registered (ScopeTree.mem_of_mem_chain around)
      record
    obtain ⟨b, bound, -⟩ := held.exists_binding
      (fun other ho same => registered_eq_of_id built registered hd ho same) outer
    have offers : s.Offers index (d.name ++ ".this") use := by
      unfold Scope.Offers
      rw [record]
      exact .inl ⟨b, bound⟩
    exact Scene.lookup?_isSome_of_offers around offers

end

/-- In every unit that is resolved, `this` behind the name of a record is the receiver of this
record, wherever no namesake stands around and nothing else has the name of the receiver; every
member access in the log is searched on its base, as here, or taken whole. -/
theorem named_receivers_found {unit : TranslationUnit} {index : RecordIndex} {options : Options}
    {analysis : UnitAnalysis} (run : resolveUnit unit index options = .ok analysis) :
    (∀ base access inStatic record site,
      (analysis.scene unit index).Searches unit base access inStatic (some ⟨record, true⟩) site →
      access.name = "this" →
      (analysis.scene unit index).NoNamesake unit site.scope record →
      (analysis.scene unit index).OnlyReceivers site.scope (record.simpleName ++ ".this") →
      (analysis.scene unit index).FindsReceiver unit record site) ∧
    ∃ log, resolveReferences unit analysis.tree analysis.declarations index = .ok log ∧
      analysis.resolutions = .ofLog log ∧
      ∀ site ∈ log.members,
        (∃ base access inStatic record,
          (analysis.scene unit index).TakesWhole unit base access inStatic record site) ∨
        ∃ base access inStatic below,
          (analysis.scene unit index).Searches unit base access inStatic below site := by
  obtain ⟨tree, state, log, phases⟩ := UnitAnalysis.exists_phases run
  refine ⟨fun base access inStatic record site searched receiver noNamesake only => ?_,
    log, phases.resolved_eq, phases.resolutions_eq, fun site => phases.taken_or_searched⟩
  rw [phases.scene_eq] at searched noNamesake only ⊢
  have finding : site.finding.resolved = ((state.scene unit index).lookup? site.scope
      (record.simpleName ++ ".this") access.span inStatic).map (·.resolved) := by
    rw [← Scene.findAccess_this receiver]
    exact congrArg (·.finding.resolved) searched.entry
  have around : ∀ resolution, site.finding.resolved = some resolution →
      state.tree.Encloses record.id site.scope ∧ resolution = ⟨record.id,
        if state.tree.innermostOwner? site.scope = some record.id then .this else .outerThis⟩ := by
    intro resolution found
    obtain ⟨hit, looked, rfl⟩ := Option.map_eq_some_iff.mp (finding ▸ found)
    obtain ⟨t, inChain, sort, simple, denotes⟩ :=
      registered_lookup_receiver phases.built phases.registered only looked
    have own : t.owner = record.id := noNamesake t inChain sort simple
    rw [own] at denotes
    exact ⟨⟨t, inChain, sort, own⟩, denotes⟩
  refine ⟨fun resolution found => (around resolution found).2, fun outside => ?_, fun reached => ?_⟩
  · rw [Option.eq_none_iff_forall_ne_some]
    exact fun resolution found => outside (around resolution found).1
  · rw [finding, Option.isSome_map]
    exact registered_lookup_isSome phases.built phases.registered reached

/-- A method of a record nested in `A` that reads `this` behind a base. -/
def receiverUnit (base : Expr) : TranslationUnit :=
  let read : Stmt := .expr (.member base { id := ⟨7⟩, name := "this" })
  let method : Method := ⟨⟨3⟩, "m", false, false, [], some ⟨⟨4⟩, [read], {}⟩, {}⟩
  { id := ⟨0⟩, name := "Receivers", package := some "p"
    records := [⟨⟨1⟩, "A", none, false, [], [], [⟨⟨2⟩, "B", none, false, [], [method], [], {}⟩], {}⟩] }

/-- A record of the simple name `A` in another package. -/
def namesakeUnit : TranslationUnit :=
  { id := ⟨10⟩, name := "Namesake", package := some "q"
    records := [⟨⟨11⟩, "A", none, false, [], [], [], {}⟩] }

/-- The method of the unit searches `this` behind the given base. -/
theorem receiverUnit_searches {base : Expr} {scene : Scene} {below : Option BaseRecord}
    {label : String} {finding : MemberFinding} (place : scene.tree.placeOf (.node ⟨4⟩) = ⟨4⟩)
    (resolved : (scene.resolve ⟨4⟩ false .base base).toOption.map (·.base) = some below)
    (found : scene.findAccess ⟨4⟩ false below { id := ⟨7⟩, name := "this" } = (label, finding)) :
    scene.Searches (receiverUnit base) base { id := ⟨7⟩, name := "this" } false below
      ⟨⟨7⟩, label, ⟨4⟩, {}, finding⟩ where
  written := by
    refine ⟨.node ⟨4⟩, .member base { id := ⟨7⟩, name := "this" }, ?_, place, ?_⟩
    · simp [receiverUnit, TranslationUnit.outline, Record.outlineAll, Record.outline,
        Method.outlineAll, Block.outline, Stmt.outlineAll, Stmt.outline, Position.uses,
        Position.inside]
    · rw [Expr.walk]
      exact List.mem_cons_self
  named := by decide
  base := exists_ok_of_toOption_map resolved
  entry := by rw [found]

theorem named_receivers_found_sample :
    ∃ analysis record site, resolveUnit (receiverUnit (.reference { id := ⟨5⟩, name := "A" }))
        (.build [receiverUnit (.reference { id := ⟨5⟩, name := "A" }), namesakeUnit]) {} =
          .ok analysis ∧
      (analysis.scene (receiverUnit (.reference { id := ⟨5⟩, name := "A" }))
        (.build [receiverUnit (.reference { id := ⟨5⟩, name := "A" }), namesakeUnit])).FindsReceiver
          (receiverUnit (.reference { id := ⟨5⟩, name := "A" })) record site ∧
      record.name = "p.A" ∧ site.finding.resolved = some ⟨⟨1⟩, .outerThis⟩ := by
  let base : Expr := .reference { id := ⟨5⟩, name := "A" }
  let record : RecordInfo :=
    ⟨⟨1⟩, "p.A", "A", none, none, some [], .unit "Receivers", {}⟩
  let finding : MemberFinding := .member ⟨⟨1⟩, .outerThis⟩ false
  have seen : (resolveUnit (receiverUnit base) (.build [receiverUnit base, namesakeUnit])
      {}).toOption.map (fun analysis =>
        let scene := analysis.scene (receiverUnit base) (.build [receiverUnit base, namesakeUnit])
        (analysis.tree.placeOf (.node ⟨4⟩),
        (scene.resolve ⟨4⟩ false .base base).toOption.map (·.base),
        decide (scene.findAccess ⟨4⟩ false (some ⟨record, true⟩) { id := ⟨7⟩, name := "this" } =
            ("A.this", finding) ∧
          scene.NoNamesake (receiverUnit base) ⟨4⟩ record ∧
          scene.OnlyReceivers ⟨4⟩ "A.this"))) =
      some (⟨4⟩, some (some ⟨record, true⟩), true) := by
    decide +kernel
  obtain ⟨analysis, run, facts⟩ := exists_ok_of_toOption_map seen
  obtain ⟨place, facts⟩ := Prod.mk.inj facts
  obtain ⟨resolved, facts⟩ := Prod.mk.inj facts
  obtain ⟨found, noNamesake, only⟩ := of_decide_eq_true facts
  have searched := receiverUnit_searches place resolved found
  exact ⟨analysis, record, _, run,
    (named_receivers_found run).1 _ _ _ _ _ searched rfl noNamesake only, rfl, rfl⟩

/-- Behind the full name of a record of another package `this` is the receiver of the record around
that has the same simple name. -/
theorem namesake_receiver_found :
    ∃ base analysis record site,
      resolveUnit (receiverUnit base) (.build [receiverUnit base, namesakeUnit]) {} =
        .ok analysis ∧
      (analysis.scene (receiverUnit base)
        (.build [receiverUnit base, namesakeUnit])).Searches (receiverUnit base) base
          { id := ⟨7⟩, name := "this" } false (some ⟨record, true⟩) site ∧
      record.name = "q.A" ∧ ¬analysis.tree.Encloses record.id site.scope ∧
      site.finding.resolved = some ⟨⟨1⟩, .outerThis⟩ := by
  let base : Expr := .member (.reference { id := ⟨5⟩, name := "q" }) { id := ⟨6⟩, name := "A" }
  let record : RecordInfo :=
    ⟨⟨11⟩, "q.A", "A", none, none, some [], .unit "Namesake", {}⟩
  let finding : MemberFinding := .member ⟨⟨1⟩, .outerThis⟩ false
  have seen : (resolveUnit (receiverUnit base) (.build [receiverUnit base, namesakeUnit])
      {}).toOption.map (fun analysis =>
        let scene := analysis.scene (receiverUnit base) (.build [receiverUnit base, namesakeUnit])
        (analysis.tree.placeOf (.node ⟨4⟩),
        (scene.resolve ⟨4⟩ false .base base).toOption.map (·.base),
        decide (scene.findAccess ⟨4⟩ false (some ⟨record, true⟩) { id := ⟨7⟩, name := "this" } =
            ("A.this", finding) ∧
          ∀ t ∈ analysis.tree.chain ⟨4⟩, t.kind = .record → t.owner ≠ ⟨11⟩))) =
      some (⟨4⟩, some (some ⟨record, true⟩), true) := by
    decide +kernel
  obtain ⟨analysis, run, facts⟩ := exists_ok_of_toOption_map seen
  obtain ⟨place, facts⟩ := Prod.mk.inj facts
  obtain ⟨resolved, facts⟩ := Prod.mk.inj facts
  obtain ⟨found, elsewhere⟩ := of_decide_eq_true facts
  exact ⟨base, analysis, record, _, run, receiverUnit_searches place resolved found, rfl,
    fun ⟨t, ht, sort, owner⟩ => elsewhere t ht sort owner, rfl⟩

end NameBinding
