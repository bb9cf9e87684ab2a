import NameBinding.Proofs.DeclarationAccounts

/-!
# The receivers in a scope

The scope of a record binds its own receiver, then those of the outer records it can reach, before
anything is declared in it; no other scope binds a receiver. So the receivers of a registered unit
are told by its declarations and by what stands around the record, whatever the order of
registration.
-/

namespace NameBinding

/-! ### What comes before a record -/

/-- Whatever nests at a place still does when it is cut off in front of a record. -/
theorem Nests.before_record {place within : Place} {steps before after : List Step}
    {site : RecordSite} (h : Nests place steps)
    (split : steps = before ++ .record within site :: after) : Nests place before := by
  induction h generalizing before after with
  | nil => exact absurd split.symm (List.append_ne_nil_of_right_ne_nil _ (List.cons_ne_nil _ _))
  | append hx _ ihx ihy =>
    rcases split_of_append split with ⟨more, rfl, further⟩ | ⟨more, first⟩
    · exact hx.append (ihy further)
    · exact ihx first
  | declares _ _ =>
    cases before with
    | nil => cases split
    | cons item before => simp at split
  | uses =>
    cases before with
    | nil => cases split
    | cons item before => simp at split
  | opens plain _ ih =>
    cases before with
    | nil => cases split
    | cons item before =>
      obtain ⟨rfl, rest⟩ := List.cons.inj split
      exact .opens plain (ih rest)
  | loopOver plain hl _ ihl ihb =>
    cases before with
    | nil => cases split
    | cons item before =>
      obtain ⟨rfl, inner⟩ := List.cons.inj split
      rcases split_of_append inner with ⟨more, rfl, tail⟩ | ⟨more, first⟩
      · cases more with
        | nil => cases tail
        | cons item more =>
          obtain ⟨rfl, body⟩ := List.cons.inj tail
          exact .loopOver plain hl (ihb body)
      · exact .opens plain (ihl first)
  | record _ ih =>
    cases before with
    | nil => exact .nil
    | cons item before =>
      obtain ⟨rfl, inner⟩ := List.cons.inj split
      rcases split_of_append inner with ⟨more, rfl, tail⟩ | ⟨more, fields⟩
      · exact .record (ih tail)
      · have listed : .record within site ∈ before ++ .record within site :: more :=
          List.mem_append_right before List.mem_cons_self
        rw [← fields] at listed
        exact absurd listed Field.record_not_mem_outline

namespace Registration

variable {base : ScopeTree} {state next : Registration}

/-! ### Names that are held -/

section holder

variable {id : ScopeId} {kind : BindingKind} {name : String} {first : Binding}

/-- A declaration leaves what a scope holds under a name. -/
theorem holder?_of_declaration {decl : Declaration} (taken : state.declare decl = .ok next)
    (held : state.tree.holder? id kind name = some first) :
    next.tree.holder? id kind name = some first := by
  obtain ⟨_, _, ⟨tree, took, rfl⟩ | ⟨_, _, rfl⟩⟩ := declare_eq_ok_iff.mp taken
  · exact ScopeTree.holder?_of_declare took held
  · exact held

/-- Receivers leave it as well. -/
theorem holder?_of_receivers (scope : ScopeId) (decl : Record)
    (held : state.tree.holder? id kind name = some first) :
    (state.bindReceivers scope decl).tree.holder? id kind name = some first := by
  refine bindReceivers_preserves (fun s => s.tree.holder? id kind name = some first) scope decl
    (fun s binding held => ?_) held
  unfold bindReceiver
  cases took : s.tree.declare scope binding with
  | ok tree => exact ScopeTree.holder?_of_declare took held
  | error first => exact held

/-- Registering leaves every name that is held with its holder. -/
theorem holder?_of_steps {outline : List Step} (run : state.steps outline = .ok next)
    (held : state.tree.holder? id kind name = some first) :
    next.tree.holder? id kind name = some first :=
  steps_preserves (fun s : Registration => s.tree.holder? id kind name = some first)
    (fun held declared => holder?_of_declaration declared held)
    (fun scope decl held => holder?_of_receivers scope decl held) held run

end holder

/-! ### The receivers of a record -/

/-- Binding the receivers of a record offers them in its scope, its own one first. -/
theorem bindReceivers_receives (formed : state.tree.Formed) (scope : ScopeId) (decl : Record) :
    ∃ outers : List Binding, ∀ u ∈ (state.bindReceivers scope decl).tree.scopes,
      ∃ s ∈ state.tree.scopes,
        s.Receives u scope (⟨"this", decl.id, .this, decl.span⟩ :: outers) := by
  refine ⟨_, foldl_bindReceiver_receives (fun b member => ?_) formed⟩
  rcases List.mem_cons.mp member with rfl | member
  · simp
  · obtain ⟨outer, _, named⟩ := List.mem_filterMap.mp member
    obtain ⟨d, _, rfl⟩ := Option.map_eq_some_iff.mp named
    simp

/-- When a record is declared, its own receiver is bound in its scope, if nothing is bound there
yet. -/
theorem ReceiversHeld.binds_this {within : Place} {site : RecordSite}
    (h : ReceiversHeld base state) {s : Scope} (hs : s ∈ base.scopes)
    (owner : s.owner = site.decl.id) (sort : s.kind = .record)
    (taken : state.step (.record within site) = .ok next) :
    next.tree.holder? s.id .this "this" =
      some ⟨"this", site.decl.id, .this, site.decl.span⟩ := by
  obtain ⟨scope, bound, found, declared, rfl⟩ := step_record_eq_ok_iff.mp taken
  have opened : scope = s.id := by
    rw [h.shape.scopeOf?_eq, ← owner, (h.shape.symm.formed h.formed).scopeOf?_owner hs] at found
    exact (Option.some.inj found).symm
  have formed := (declare_sameShape declared).formed h.formed
  obtain ⟨v, hv, alike⟩ := ((h.shape.trans (declare_sameShape declared)).trans
    (bound.bindReceivers_sameShape scope site.decl)).exists_mem hs
  obtain ⟨outers, receives⟩ := bindReceivers_receives formed scope site.decl
  obtain ⟨u, hu, received⟩ := receives v hv
  obtain ⟨t, ht, alike', vars⟩ := declare_record_scopes h.formed rfl declared u hu
  have header : t.toScopeHeader = s.toScopeHeader :=
    congrArg (·.1) ((received.frame_eq.trans alike').symm.trans alike)
  have id : u.id = s.id := congrArg (·.2.1) (received.frame_eq.symm.trans alike)
  have unbound : t.vars = [] := by
    refine h.untouched t ht (by rw [header, sort]) ?_
    rw [header, owner]
    exact not_recorded_of_declare declared
  have offered := received.here (id.trans opened.symm) "this"
  rw [Scope.varBinding?, Scope.varBinding?, vars, unbound, List.find?_nil, Option.none_or,
    List.find?_cons_of_pos rfl] at offered
  have there := ((bound.bindReceivers_sameShape scope site.decl).formed formed).scope?_id hv
  have sameId : v.id = s.id := congrArg (·.2.1) alike
  rw [sameId] at there
  rw [ScopeTree.holder?, there, Option.bind_some]
  exact offered

/-- Receivers are bound in the scopes of records only. -/
structure ReceiversInRecords (base : ScopeTree) (state : Registration) : Prop where
  shape : base.SameShape state.tree
  formed : state.tree.Formed
  plain : ∀ t ∈ state.tree.scopes, t.kind ≠ .record → ∀ b ∈ t.vars, b.kind.isReceiver = false

namespace ReceiversInRecords

/-- Declarations are no receivers. -/
theorem declare {decl : Declaration} (h : ReceiversInRecords base state)
    (taken : state.declare decl = .ok next) : ReceiversInRecords base next := by
  have same := declare_sameShape taken
  refine ⟨h.shape.trans same, same.formed h.formed, fun t ht sort b hb => ?_⟩
  obtain ⟨_, _, ⟨tree, took, rfl⟩ | ⟨first, _, rfl⟩⟩ := declare_eq_ok_iff.mp taken
  · obtain ⟨s, hs, alike, rfl | ⟨_, rfl⟩⟩ := h.formed.mem_of_declare took ht
    · exact h.plain t hs sort b hb
    · have header : (s.bind decl.binding).toScopeHeader = s.toScopeHeader := congrArg (·.1) alike
      rcases ScopeTree.mem_vars_bind hb with hb | ⟨rfl, _⟩
      · exact h.plain s hs (header ▸ sort) b hb
      · exact decl.not_isReceiver
  · exact h.plain t ht sort b hb

/-- The receivers of a record are bound in the scope that the record has opened. -/
theorem bindReceivers {scope : ScopeId} {decl : Record} (h : ReceiversInRecords base state)
    (own : ∀ s ∈ state.tree.scopes, s.id = scope → s.kind = .record) :
    ReceiversInRecords base (state.bindReceivers scope decl) := by
  have same := state.bindReceivers_sameShape scope decl
  obtain ⟨outers, receives⟩ := bindReceivers_receives h.formed scope decl
  refine ⟨h.shape.trans same, same.formed h.formed, fun t ht sort b hb => ?_⟩
  obtain ⟨s, hs, received⟩ := receives t ht
  have header : t.toScopeHeader = s.toScopeHeader := congrArg (·.1) received.frame_eq
  rw [header] at sort
  rw [received.elsewhere fun here => sort (own s hs here)] at hb
  exact h.plain s hs sort b hb

/-- Registering steps binds no receivers elsewhere. -/
theorem steps {outline : List Step} (opened : RecordsOpened base outline)
    (h : ReceiversInRecords base state) (run : state.steps outline = .ok next) :
    ReceiversInRecords base next := by
  refine foldlM_preserves (ReceiversInRecords base) (fun s held item member t taken => ?_) h run
  cases item with
  | record within site =>
    obtain ⟨scope, bound, found, declared, rfl⟩ := step_record_eq_ok_iff.mp taken
    refine (held.declare declared).bindReceivers fun u hu here => ?_
    have shape := held.shape.trans (declare_sameShape declared)
    obtain ⟨r, hr, sort, owner⟩ := opened within site member
    rw [held.shape.scopeOf?_eq, ← owner, (held.shape.symm.formed held.formed).scopeOf?_owner hr,
      Option.some_inj] at found
    obtain ⟨v, hv, alike⟩ := shape.exists_mem hr
    have id : v.id = r.id := congrArg (·.2.1) alike
    have header : v.toScopeHeader = r.toScopeHeader := congrArg (·.1) alike
    have same : u = v :=
      (shape.formed (held.shape.symm.formed held.formed)).eq_of_id hu hv
        (here.trans (found.symm.trans id.symm))
    rw [same, header, sort]
  | opens within header span => exact eq_of_step_opens taken ▸ held
  | declares within item => exact held.declare taken
  | uses within inStatic value =>
    cases taken
    exact held

end ReceiversInRecords

end Registration

variable {unit : TranslationUnit} {tree : ScopeTree} {state : Registration} {t : Scope}
  {name : String} {b : Binding}

/-- In a registered unit the scope of a record binds the receiver of the record. -/
theorem registered_binds_this (built : ScopeTree.build unit = .ok tree)
    (registered : registerDeclarations unit tree = .ok state) (ht : t ∈ state.tree.scopes)
    (sort : t.kind = .record) :
    ∃ d ∈ state.table.entries, d.id = t.owner ∧
      t.varBinding? "this" = some ⟨"this", d.id, .this, d.span⟩ := by
  have traced := registered_traced built registered
  obtain ⟨site, listed, owner⟩ := registered_record_scope built registered ht sort
  obtain ⟨within, member⟩ := TranslationUnit.mem_recordSites.mp listed
  refine ⟨site.declaration (tree.recordNameOf site.decl.id) (tree.placeOf within), ?_, owner, ?_⟩
  · rw [registered_entries registered]
    exact List.mem_filterMap.mpr ⟨_, member, rfl⟩
  obtain ⟨before, after, split⟩ := List.append_of_mem member
  rw [registerDeclarations_eq, split, Registration.steps_append] at registered
  obtain ⟨middle, first, rest⟩ := bind_eq_ok_iff.mp registered
  obtain ⟨next, taken, last⟩ := bind_eq_ok_iff.mp rest
  have held := receiversHeld_of_build built (unit.outline_nests.before_record split)
    (split ▸ List.subset_append_left _ _) first
  obtain ⟨s, hs, alike⟩ := traced.shape.symm.exists_mem ht
  have header : s.toScopeHeader = t.toScopeHeader := congrArg (·.1) alike
  have id : s.id = t.id := congrArg (·.2.1) alike
  have bound := held.binds_this hs (by rw [header, owner]) (by rw [header, sort]) taken
  have kept := Registration.holder?_of_steps last bound
  rw [id, ScopeTree.holder?, traced.formed.scope?_id ht, Option.bind_some] at kept
  exact kept

/-- In a registered unit no receiver is bound but in the scopes of records. -/
theorem registered_receiversInRecords (built : ScopeTree.build unit = .ok tree)
    (registered : registerDeclarations unit tree = .ok state) :
    state.ReceiversInRecords tree := by
  rw [registerDeclarations_eq] at registered
  refine Registration.ReceiversInRecords.steps (ScopeTree.build_recordsOpened built)
    ⟨.refl tree, ScopeTree.build_formed built, fun t ht _ b hb => ?_⟩ registered
  rw [(ScopeTree.build_empty built t ht).1] at hb
  cases hb

/-- The receivers that belong into the scope of a record: its own one, then those of the outer
records that it can reach, nearest first. -/
def Registration.receiversOf (state : Registration) (t : Scope) : List Binding :=
  ((state.table.get? t.owner).map fun d => ⟨"this", t.owner, .this, d.span⟩).toList ++
    (state.tree.outersOf t).filterMap state.outerReceiver?

/-- Outer receivers are told by the declarations of their records. -/
theorem outerReceivers_eq (built : ScopeTree.build unit = .ok tree)
    (registered : registerDeclarations unit tree = .ok state) {ds : List Declaration}
    (declared : ds ⊆ state.table.entries) :
    (ds.map (·.id)).filterMap state.outerReceiver? = ds.map (·.outerReceiver) := by
  rw [List.filterMap_map, ← List.filterMap_eq_map']
  refine List.filterMap_congr fun d hd => ?_
  rw [Function.comp_apply, Registration.outerReceiver?,
    registered_get? built registered (declared hd), Option.map_some]
  rfl

/-- The scope of a record binds the receivers that belong there, the first one of each name, and
no others. -/
theorem registered_receiver_iff (built : ScopeTree.build unit = .ok tree)
    (registered : registerDeclarations unit tree = .ok state) (ht : t ∈ state.tree.scopes)
    (sort : t.kind = .record) :
    t.varBinding? name = some b ∧ b.kind.isReceiver = true ↔
      (state.receiversOf t).find? (·.name == name) = some b := by
  obtain ⟨own, hown, owner, this⟩ := registered_binds_this built registered ht sort
  obtain ⟨ds, declared, ids, held⟩ := registered_receiversHeld built registered ht sort
  have receivers : state.receiversOf t =
      ⟨"this", own.id, .this, own.span⟩ :: ds.map (·.outerReceiver) := by
    rw [Registration.receiversOf, ← ids, outerReceivers_eq built registered declared, ← owner,
      registered_get? built registered hown]
    rfl
  rw [receivers]
  by_cases named : name = "this"
  · subst named
    rw [this, List.find?_cons_of_pos rfl, and_iff_left_of_imp]
    intro same
    rw [← Option.some.inj same]
    rfl
  · have differs : ("this" == name) = false := beq_eq_false_iff_ne.mpr fun same => named same.symm
    rw [List.find?_cons_of_neg (by simp [differs])]
    obtain ⟨offered, others⟩ := held name named
    constructor
    · rintro ⟨bound, receiver⟩
      cases found : (ds.map (·.outerReceiver)).find? (·.name == name) with
      | none => rw [others found b bound] at receiver; cases receiver
      | some r => rw [← offered r found, bound]
    · intro found
      obtain ⟨d, _, rfl⟩ := List.mem_map.mp (List.mem_of_find?_eq_some found)
      exact ⟨offered _ found, rfl⟩

end NameBinding
