import NameBinding.Proofs.BoundReceivers
import NameBinding.Proofs.StaticBoundary

/-!
# Registration and resolution agree on outer receivers

Two walks decide which enclosing records can be reached from a record: registration binds their
receivers in its scope, resolution counts the static boundaries that it passes on the way out. For
every field that is reached through an outer record they agree, whichever way nested, static and
local records alternate.
-/

namespace NameBinding

/-- The outer records that can be reached are those that no static record or method cuts off. -/
theorem mem_reachableOuters_iff {between after : List Scope} {t : Scope} (record : t.kind = .record)
    (sorts : ∀ s ∈ between, s.isStatic = true → s.kind = .method ∨ s.kind = .record)
    (others : ∀ s ∈ between, s.owner ≠ t.owner) :
    t.owner ∈ reachableOuters (between ++ t :: after) ↔ ∀ s ∈ between, s.isStatic = false := by
  induction between with
  | nil => simp [reachableOuters, record]
  | cons s rest ih =>
    have further := ih (fun u hu => sorts u (List.mem_cons_of_mem _ hu))
      (fun u hu => others u (List.mem_cons_of_mem _ hu))
    have other : t.owner ≠ s.owner := (others s List.mem_cons_self).symm
    have sort := sorts s List.mem_cons_self
    rw [List.cons_append, reachableOuters]
    simp only [List.forall_mem_cons, ← further]
    cases isStatic : s.isStatic with
    | true =>
      rcases sort isStatic with kind | kind
      · simp [kind]
      · simp [kind, other]
    | false => cases kind : s.kind <;> simp [other]

namespace ScopeTree

variable {tree : ScopeTree} {id : ScopeId}

/-- The innermost record of a chain that goes on to another record comes before it. -/
theorem Formed.exists_split_of_enclosingRecord? (formed : tree.Formed) {before after : List Scope}
    {t inner : Scope} (split : tree.chain id = before ++ t :: after) (hi : inner ∈ tree.scopes)
    (innermost : tree.enclosingRecord? id = some inner.id) (record : t.kind = .record)
    (other : t ≠ inner) :
    ∃ near between, before = near ++ inner :: between ∧ inner.kind = .record ∧
      (∀ s ∈ near, s.kind ≠ .record) ∧
      tree.chain inner.id = inner :: (between ++ t :: after) := by
  obtain ⟨found, first, sameId⟩ := Option.map_eq_some_iff.mp innermost
  have inTree : found ∈ tree.scopes := mem_of_mem_chain (List.mem_of_find?_eq_some first)
  have same : found = inner := formed.eq_of_id inTree hi sameId
  subst same
  rw [split, List.find?_append, List.find?_cons_of_pos (by simp [record])] at first
  have nearer : before.find? (·.kind == .record) = some found := by
    rcases Option.or_eq_some_iff.mp first with nearer | ⟨_, last⟩
    · exact nearer
    · exact absurd (Option.some.inj last) other
  obtain ⟨isRecord, near, between, rfl, none⟩ := List.find?_eq_some_iff_append.mp nearer
  have inChain : found ∈ tree.chain id := by
    rw [split]
    simp
  obtain ⟨start, hs, rfl⟩ := formed.exists_of_mem_chain inChain
  refine ⟨near, between, rfl, by simpa using isRecord, fun s hn => by simpa using none s hn, ?_⟩
  have further : tree.chain start.id = near ++ found :: (between ++ t :: after) := by
    rw [split, List.append_assoc, List.cons_append]
  exact formed.chain_of_split hs further

/-- An outer record can be reached from a record exactly if the record is not static and nothing
static lies between. -/
theorem Formed.mem_outersOf_iff (formed : tree.Formed)
    (sorts : ∀ s ∈ tree.scopes, s.isStatic = true → s.kind = .method ∨ s.kind = .record)
    {inner t : Scope} {between after : List Scope}
    (split : tree.chain inner.id = inner :: (between ++ t :: after)) (record : t.kind = .record) :
    t.owner ∈ tree.outersOf inner ↔
      inner.isStatic = false ∧ ∀ s ∈ between, s.isStatic = false := by
  have inTree : ∀ s ∈ between ++ t :: after, s ∈ tree.scopes := fun s hs =>
    mem_of_mem_chain (split ▸ List.mem_cons_of_mem _ hs)
  have further : ∀ s ∈ between, s ∈ tree.scopes := fun s hs =>
    inTree s (List.mem_append_left _ hs)
  have whole : tree.chain inner.id = (inner :: between) ++ t :: after := split
  have others : ∀ s ∈ between, s.owner ≠ t.owner := by
    intro s hs same
    have equal : s = t := formed.eq_of_owner (further s hs) (inTree t (by simp)) same
    exact formed.ne_of_split whole s (List.mem_cons_of_mem _ hs) (congrArg (·.id) equal)
  rw [outersOf, split, List.tail_cons]
  cases inner.isStatic with
  | true => simp
  | false =>
    simp [mem_reachableOuters_iff record (fun s hs => sorts s (further s hs)) others]

end ScopeTree

/-- The name of an outer receiver is not the one of the own receiver. -/
theorem append_this_ne (name : String) : name ++ ".this" ≠ "this" := by
  intro same
  have lengths := congrArg String.length same
  rw [String.length_append] at lengths
  have five : ".this".length = 5 := rfl
  have four : "this".length = 4 := rfl
  omega

/-- A receiver that a scope holds under the name of an outer one belongs to a declared record of
this simple name that can be reached. -/
theorem Scope.HoldsReceivers.exists_outer {t : Scope} {entries : List Declaration}
    {outers : List NodeId} (h : t.HoldsReceivers entries outers) {name : String} {b : Binding}
    (bound : t.varBinding? (name ++ ".this") = some b) (receiver : b.kind.isReceiver = true) :
    ∃ d ∈ entries, d.id ∈ outers ∧ d.name = name ∧ b = d.outerReceiver := by
  obtain ⟨ds, known, ids, held⟩ := h
  obtain ⟨offers, otherwise⟩ := held _ (append_this_ne name)
  cases first : (ds.map (·.outerReceiver)).find? (·.name == name ++ ".this") with
  | none =>
    rw [otherwise first b bound] at receiver
    cases receiver
  | some r =>
    obtain rfl : r = b := Option.some.inj ((offers r first).symm.trans bound)
    obtain ⟨d, listed, rfl⟩ := List.mem_map.mp (List.mem_of_find?_eq_some first)
    have found := List.find?_some first
    have named : d.name ++ ".this" = name ++ ".this" := beq_iff_eq.mp found
    exact ⟨d, known listed, ids ▸ List.mem_map_of_mem listed, by simpa using named, rfl⟩

/-- Under the name of a declared record that can be reached an outer receiver is bound. -/
theorem Scope.HoldsReceivers.exists_binding {t : Scope} {entries : List Declaration}
    {outers : List NodeId} (h : t.HoldsReceivers entries outers) {d : Declaration}
    (declared : ∀ other ∈ entries, other.id = d.id → other = d) (reached : d.id ∈ outers) :
    ∃ b, t.varBinding? (d.name ++ ".this") = some b ∧ b.kind = .outerThis := by
  obtain ⟨ds, known, ids, held⟩ := h
  obtain ⟨offers, -⟩ := held _ (append_this_ne d.name)
  obtain ⟨other, listed, id⟩ := List.mem_map.mp (ids ▸ reached)
  obtain rfl := declared other (known listed) id
  have isSome : ((ds.map (·.outerReceiver)).find? (·.name == other.name ++ ".this")).isSome :=
    List.find?_isSome.mpr ⟨_, List.mem_map_of_mem listed, beq_self_eq_true _⟩
  obtain ⟨r, first⟩ := Option.isSome_iff_exists.mp isSome
  obtain ⟨_, _, rfl⟩ := List.mem_map.mp (List.mem_of_find?_eq_some first)
  exact ⟨_, offers _ first, rfl⟩

/-- Under the name of an outer record, a scope that holds receivers binds the receiver of this
record exactly if the record is among those that can be reached, provided that no other of these
has its name. -/
theorem Scope.HoldsReceivers.binds_iff {t : Scope} {entries : List Declaration}
    {outers : List NodeId} (h : t.HoldsReceivers entries outers) {d : Declaration}
    (only : ∀ other ∈ entries, other.id ∈ outers → other.name = d.name → other.id = d.id)
    (declared : ∀ other ∈ entries, other.id = d.id → other = d) :
    (∃ b, t.varBinding? (d.name ++ ".this") = some b ∧ b.target = d.id ∧ b.kind = .outerThis) ↔
      d.id ∈ outers := by
  constructor
  · rintro ⟨b, bound, target, kind⟩
    obtain ⟨other, _, reached, _, rfl⟩ := h.exists_outer bound (by rw [kind]; rfl)
    exact target ▸ reached
  · intro reached
    obtain ⟨b, bound, kind⟩ := h.exists_binding declared reached
    obtain ⟨nearest, known, inside, named, rfl⟩ := h.exists_outer bound (by rw [kind]; rfl)
    exact ⟨_, bound, only nearest known inside named, rfl⟩

/-! ### Agreement -/

/-- The simple name of the record of a unit with this id. -/
def TranslationUnit.simpleName? (unit : TranslationUnit) (id : NodeId) : Option String :=
  (unit.recordSites.find? (·.decl.id == id)).map (·.decl.name)

variable {unit : TranslationUnit} {tree : ScopeTree} {state : Registration}

/-- The record of a scope is declared under its simple name. -/
theorem registered_simpleName (built : ScopeTree.build unit = .ok tree)
    (registered : registerDeclarations unit tree = .ok state) {t : Scope}
    (ht : t ∈ state.tree.scopes) (record : t.kind = .record) :
    ∃ d ∈ state.table.entries, d.id = t.owner ∧ unit.simpleName? t.owner = some d.name := by
  obtain ⟨known, listed, id⟩ := registered_record_scope built registered ht record
  have isSome : (unit.recordSites.find? (·.decl.id == t.owner)).isSome := by
    rw [List.find?_isSome]
    exact ⟨known, listed, beq_iff_eq.mpr id⟩
  obtain ⟨site, found⟩ := Option.isSome_iff_exists.mp isSome
  have own : site.decl.id = t.owner := by
    have same := List.find?_some found
    exact beq_iff_eq.mp same
  obtain ⟨within, member⟩ := TranslationUnit.mem_recordSites.mp (List.mem_of_find?_eq_some found)
  refine ⟨site.declaration (tree.recordNameOf site.decl.id) (tree.placeOf within), ?_, own, ?_⟩
  · rw [registered_entries registered]
    exact List.mem_filterMap.mpr ⟨_, member, rfl⟩
  · rw [TranslationUnit.simpleName?, found]
    rfl

/-- The records around a scope have pairwise distinct simple names. -/
def ScopeTree.DistinctAround (tree : ScopeTree) (unit : TranslationUnit) (scope : ScopeId) : Prop :=
  (((tree.chain scope).filter (·.kind == .record)).map fun s => unit.simpleName? s.owner).Nodup

/-- Records around a scope that have the same simple name open the same scope. -/
theorem ScopeTree.DistinctAround.eq {scope : ScopeId} (h : tree.DistinctAround unit scope)
    {s t : Scope} (hs : s ∈ tree.chain scope) (ht : t ∈ tree.chain scope)
    (record : s.kind = .record) (record' : t.kind = .record)
    (same : unit.simpleName? s.owner = unit.simpleName? t.owner) : s = t :=
  List.inj_on_of_nodup_map h (List.mem_filter.mpr ⟨hs, beq_iff_eq.mpr record⟩)
    (List.mem_filter.mpr ⟨ht, beq_iff_eq.mpr record'⟩) same

/-- In a registered unit no two declarations have the same id. -/
theorem registered_eq_of_id (built : ScopeTree.build unit = .ok tree)
    (registered : registerDeclarations unit tree = .ok state) {d other : Declaration}
    (hd : d ∈ state.table.entries) (ho : other ∈ state.table.entries) (same : other.id = d.id) :
    other = d := by
  have found := registered_get? built registered ho
  rw [same, registered_get? built registered hd] at found
  exact (Option.some.inj found).symm

/-- The scope of a record binds the receiver of a record around it exactly if this one can be
reached, where the records around a use inside have distinct simple names. -/
theorem registered_binds_outer_iff (built : ScopeTree.build unit = .ok tree)
    (registered : registerDeclarations unit tree = .ok state) {scope : ScopeId} {inner t : Scope}
    (hi : inner ∈ state.tree.scopes) (sort : inner.kind = .record)
    (around : (state.tree.chain inner.id).tail ⊆ state.tree.chain scope)
    (ht : t ∈ state.tree.chain scope) (record : t.kind = .record)
    (distinct : state.tree.DistinctAround unit scope) :
    ∃ name, unit.simpleName? t.owner = some name ∧
      ((∃ b, inner.varBinding? (name ++ ".this") = some b ∧ b.target = t.owner ∧
        b.kind = .outerThis) ↔ t.owner ∈ state.tree.outersOf inner) := by
  obtain ⟨d, hd, id, name⟩ :=
    registered_simpleName built registered (ScopeTree.mem_of_mem_chain ht) record
  have held := registered_receiversHeld built registered hi sort
  refine ⟨d.name, name, ?_⟩
  rw [← id]
  refine held.binds_iff (fun other ho reached named => ?_)
    (fun other ho same => registered_eq_of_id built registered hd ho same)
  obtain ⟨u, hu, record', own⟩ := ScopeTree.exists_of_mem_outersOf reached
  have inChain := around hu
  obtain ⟨d', hd', id', name'⟩ :=
    registered_simpleName built registered (ScopeTree.mem_of_mem_chain inChain) record'
  have sameDecl : d' = other := registered_eq_of_id built registered ho hd' (id'.trans own)
  have sameName : unit.simpleName? u.owner = unit.simpleName? t.owner := by
    rw [name', name, sameDecl, named]
  have sameScope : u = t := distinct.eq inChain ht record' record sameName
  rw [← own, sameScope, id]

/-- A bare name that is written in the expression of a step, outside the initializers of static
fields and outside the static methods of its innermost record, and that denotes a field which is
reached through another record: the outer receiver is understood before it exactly if the
innermost record binds this receiver. -/
def ReferenceSite.ReceiversAgree (site : ReferenceSite) (unit : TranslationUnit) (tree : ScopeTree)
    (item : Step) : Prop :=
  ∃ within inStatic value, item = .uses within inStatic value ∧ site.WrittenIn tree within value ∧
    (inStatic = false → ∀ hit base, site.hit = some hit → hit.resolved.kind.isField = true →
      hit.implicitBase = some base → ∀ inner ∈ tree.scopes, ∀ t ∈ tree.scopes,
      tree.enclosingRecord? site.scope = some inner.id →
      t.kind = .record → t.owner = base.target → t ≠ inner → tree.DistinctAround unit site.scope →
      (∀ s ∈ (tree.chain site.scope).takeWhile (·.id != inner.id),
        s.kind = .method → s.isStatic = false) →
      ∃ name, unit.simpleName? t.owner = some name ∧
        (base = ⟨t.owner, .outerThis⟩ ↔ ∃ b, inner.varBinding? (name ++ ".this") = some b ∧
          b.target = t.owner ∧ b.kind = .outerThis))

/-- Behind a record that is not the innermost one a field is understood behind an outer receiver if
there is a receiver at all. -/
theorem Hit.base_eq_outerThis_iff {owner : NodeId} {level : Nat} {receiver : Bool}
    {field base : Resolution} (outer : level ≠ 0)
    (understood : (Hit.ofField owner level receiver field).implicitBase = some base) :
    base = ⟨owner, .outerThis⟩ ↔ receiver = true := by
  cases understood
  cases receiver <;> simp [outer]

/-- In a registered unit the receivers that are bound and those that are understood agree. -/
theorem receiversAgree_of_foundAt {index : RecordIndex} {item : Step} {site : ReferenceSite}
    (built : ScopeTree.build unit = .ok tree)
    (registered : registerDeclarations unit tree = .ok state)
    (found : (state.scene unit index).FoundAt item (.reference site)) :
    site.ReceiversAgree unit state.tree item := by
  obtain ⟨within, inStatic, value, rfl, found⟩ := found
  refine ⟨within, inStatic, value, rfl, found.writtenIn, ?_⟩
  rintro rfl hit base isHit isField understood inner hi t ht innermost record target other distinct
    noStaticMethod
  have formed := (registered_traced built registered).formed
  have sorts : ∀ s ∈ state.tree.scopes, s.isStatic = true → s.kind = .method ∨ s.kind = .record :=
    fun s hs => registered_static built registered hs
  obtain ⟨before, t', after, chain, record', offered⟩ :=
    registered_split_of_isField built registered found isHit isField
  have inChain : t' ∈ state.tree.chain site.scope :=
    chain ▸ List.mem_append_right _ List.mem_cons_self
  have same : t = t' := by
    refine formed.eq_of_owner ht (ScopeTree.mem_of_mem_chain inChain) (target.trans ?_)
    rw [offered] at understood
    cases understood
    rfl
  subst same
  obtain ⟨near, between, rfl, sort, noRecord, further⟩ :=
    formed.exists_split_of_enclosingRecord? chain hi innermost record other
  have around : (state.tree.chain inner.id).tail ⊆ state.tree.chain site.scope := by
    rw [further, chain]
    intro s hs
    simpa using Or.inr (Or.inr hs)
  obtain ⟨name, named, bound⟩ :=
    registered_binds_outer_iff built registered hi sort around inChain record distinct
  have split : state.tree.chain site.scope = near ++ inner :: (between ++ t :: after) := by
    rw [chain, List.append_assoc, List.cons_append]
  rw [formed.takeWhile_chain split] at noStaticMethod
  have nearby : ∀ s ∈ near, s.isStatic = false := by
    intro s hs
    by_contra isStatic
    have member : s ∈ state.tree.chain site.scope := split ▸ List.mem_append_left _ hs
    rcases sorts s (ScopeTree.mem_of_mem_chain member) (by simpa using isStatic) with
      method | record
    · exact isStatic (noStaticMethod s hs method)
    · exact noRecord s hs record
  have passed : (near ++ inner :: between).countP (·.kind == .record) ≠ 0 := by
    rw [List.countP_append, List.countP_cons_of_pos (by simp [sort])]
    omega
  have reached : base = ⟨t.owner, .outerThis⟩ ↔
      inner.isStatic = false ∧ ∀ s ∈ between, s.isStatic = false := by
    rw [offered] at understood
    rw [Hit.base_eq_outerThis_iff passed understood]
    simpa using fun _ _ => nearby
  exact ⟨name, named, by rw [bound, reached, formed.mem_outersOf_iff sorts further record]⟩

/-- In every unit that is resolved, registration and resolution agree on the outer receivers that
can be reached from a use, one step after the other; the flagged steps are the initializers of
static fields. -/
theorem outer_receivers_agree {index : RecordIndex} {options : Options} {analysis : UnitAnalysis}
    (run : resolveUnit unit index options = .ok analysis) :
    (∀ within value, .uses within true value ∈ unit.outline .recordsFirst ↔
      ∃ site ∈ unit.recordSites, within = .node site.decl.id ∧
        ∃ field ∈ site.decl.fields, field.isStatic = true ∧ field.initializer = some value) ∧
    ∃ log parts, resolveReferences unit analysis.tree analysis.declarations index = .ok log ∧
      analysis.resolutions = .ofLog log ∧ log = parts.flatten ∧
      List.Forall₂ (fun item (part : UseLog) =>
        ∀ site ∈ part.references, site.ReceiversAgree unit analysis.tree item)
        (unit.outline .recordsFirst) parts := by
  obtain ⟨tree, state, log, phases⟩ := UnitAnalysis.exists_phases run
  obtain ⟨parts, whole, steps⟩ := phases.exists_parts
  refine ⟨fun within value => TranslationUnit.mem_static_uses, log, parts, phases.resolved_eq,
    phases.resolutions_eq, whole, ?_⟩
  rw [phases.tree_eq]
  exact steps.imp fun item part found site listed =>
    receiversAgree_of_foundAt phases.built phases.registered (found site listed)

theorem outer_receivers_agree_sample :
    ∃ analysis, ∃ log : UseLog, ∃ parts : List UseLog,
      resolveUnit boundaryUnit (.build [boundaryUnit]) {} = .ok analysis ∧
      log.references.filterMap (fun site => site.hit.bind (·.implicitBase)) =
        [⟨⟨1⟩, .record⟩, ⟨⟨1⟩, .outerThis⟩, ⟨⟨1⟩, .record⟩, ⟨⟨1⟩, .this⟩, ⟨⟨1⟩, .record⟩] ∧
      (analysis.tree.scopes.filter (·.kind == .record)).map (fun s =>
        (boundaryUnit.simpleName? s.owner, (s.varBinding? "A.this").map (·.resolution))) =
        [(some "A", none), (some "B", some ⟨⟨1⟩, .outerThis⟩), (some "C", none)] ∧
      log = parts.flatten ∧
      List.Forall₂ (fun item (part : UseLog) =>
        ∀ site ∈ part.references, site.ReceiversAgree boundaryUnit analysis.tree item)
        (boundaryUnit.outline .recordsFirst) parts := by
  have counted : (resolveUnit boundaryUnit (.build [boundaryUnit]) {}).toOption.map
      (fun analysis => ((resolveReferences boundaryUnit analysis.tree analysis.declarations
        (.build [boundaryUnit])).toOption.map fun log =>
          log.references.filterMap fun site => site.hit.bind (·.implicitBase),
        (analysis.tree.scopes.filter (·.kind == .record)).map fun s =>
          (boundaryUnit.simpleName? s.owner, (s.varBinding? "A.this").map (·.resolution)))) =
      some (some [⟨⟨1⟩, .record⟩, ⟨⟨1⟩, .outerThis⟩, ⟨⟨1⟩, .record⟩, ⟨⟨1⟩, .this⟩, ⟨⟨1⟩, .record⟩],
        [(some "A", none), (some "B", some ⟨⟨1⟩, .outerThis⟩), (some "C", none)]) := by
    decide +kernel
  obtain ⟨analysis, run, both⟩ := exists_ok_of_toOption_map counted
  obtain ⟨logged, bound⟩ := Prod.mk.inj both
  obtain ⟨other, resolved, bases⟩ := exists_ok_of_toOption_map logged
  obtain ⟨_, log, parts, again, _, whole, agree⟩ := outer_receivers_agree run
  cases resolved.symm.trans again
  exact ⟨analysis, other, parts, run, bases, bound, whole, agree⟩

end NameBinding
