import NameBinding.Proofs.FirstDeclared

/-!
# The receivers that a record binds

When a record is declared, all records around it have been declared before, so the receivers of
those it can reach are bound in its scope at once and under their names. What is declared in the
scope later comes after them. So the scope of a record binds the receiver of an enclosing record
exactly if this one can be reached and no nearer one has its name.
-/

namespace NameBinding

open ScopeTree (frame)

/-- The receiver of an enclosing record, as it is declared. -/
def Declaration.outerReceiver (d : Declaration) : Binding :=
  ⟨d.name ++ ".this", d.id, .outerThis, d.span⟩

/-- No declaration is bound as a receiver. -/
theorem Declaration.not_isReceiver (d : Declaration) : d.binding.kind.isReceiver = false := by
  unfold binding bindingKind
  cases d.kind with
  | field => cases d.isStatic <;> rfl
  | _ => rfl

/-! ### The records that can be reached -/

/-- The outer records that can be reached are told by the headers of the scopes. -/
theorem reachableOuters_eq_of_headers {xs ys : List Scope}
    (same : xs.map (·.toScopeHeader) = ys.map (·.toScopeHeader)) :
    reachableOuters xs = reachableOuters ys := by
  induction xs generalizing ys with
  | nil =>
    cases ys with
    | nil => rfl
    | cons y rest => cases same
  | cons x xs ih =>
    cases ys with
    | nil => cases same
    | cons y ys =>
      rw [List.map_cons, List.map_cons] at same
      obtain ⟨header, rest⟩ := List.cons.inj same
      unfold reachableOuters
      rw [header, ih rest]

/-- The outer records that are in reach depend on the frames of the scopes alone. -/
theorem reachableOuters_eq_of_frames {xs ys : List Scope} (same : xs.map frame = ys.map frame) :
    reachableOuters xs = reachableOuters ys := by
  have headers := congrArg (List.map (·.1)) same
  rw [List.map_map, List.map_map] at headers
  exact reachableOuters_eq_of_headers headers

/-- The outer records whose receivers belong into the scope of a record. -/
def ScopeTree.outersOf (tree : ScopeTree) (t : Scope) : List NodeId :=
  if t.isStatic then [] else reachableOuters (tree.chain t.id).tail

/-- The same of the outer records around a scope of a tree. -/
theorem ScopeTree.SameShape.outersOf_eq {tree later : ScopeTree} (h : tree.SameShape later)
    {s t : Scope} (alike : frame t = frame s) : later.outersOf t = tree.outersOf s := by
  have header : t.toScopeHeader = s.toScopeHeader := congrArg (·.1) alike
  have id : t.id = s.id := congrArg (·.2.1) alike
  have tails : (later.chain s.id).tail.map frame = (tree.chain s.id).tail.map frame := by
    rw [List.map_tail, List.map_tail, h.chain]
  rw [outersOf, outersOf, header, id, reachableOuters_eq_of_frames tails]

/-- Outer records that can be reached have scopes around the record. -/
theorem ScopeTree.exists_of_mem_outersOf {tree : ScopeTree} {t : Scope} {owner : NodeId}
    (h : owner ∈ tree.outersOf t) :
    ∃ s ∈ (tree.chain t.id).tail, s.kind = .record ∧ s.owner = owner := by
  unfold outersOf at h
  split at h
  · cases h
  · exact Registration.exists_of_mem_reachableOuters h

/-- Around the scope of a construct there is what is around the place of the construct. -/
theorem ScopeTree.Shows.exists_chain {tree : ScopeTree} {opening : Opening}
    (shown : tree.Shows opening) (formed : tree.Formed) :
    ∃ s ∈ tree.scopes, s.toScopeHeader = opening.header ∧
      tree.placeOf (.node opening.header.owner) = s.id ∧
      tree.chain s.id = s :: tree.chain (tree.placeOf opening.within) := by
  obtain ⟨s, hs, mirror⟩ := shown
  obtain ⟨p, parent, here⟩ := mirror.parent
  refine ⟨s, hs, mirror.header, ?_, ?_⟩
  · rw [← mirror.header]
    exact placeOf_eq (formed.scopeOf?_owner hs)
  · rw [formed.chain_of_parent (formed.scope?_id hs) parent, placeOf_eq here]

/-! ### Binding receivers -/

/-- The scope `u` is `s` after receivers have been bound in the scope with this id: they are
offered under their names, behind what was bound before. -/
structure Scope.Receives (s u : Scope) (id : ScopeId) (receivers : List Binding) : Prop where
  frame_eq : frame u = frame s
  elsewhere : s.id ≠ id → u = s
  here : s.id = id → ∀ name, u.varBinding? name =
    (s.varBinding? name).or (receivers.find? (·.name == name))

/-- A scope that stays as it is receives nothing. -/
theorem Scope.Receives.nil (s : Scope) (id : ScopeId) : s.Receives s id [] :=
  ⟨rfl, fun _ => rfl, fun _ name => by simp⟩

/-- What a scope receives in two stages it receives in all. -/
theorem Scope.Receives.trans {s t u : Scope} {id : ScopeId} {xs ys : List Binding}
    (first : s.Receives t id xs) (second : t.Receives u id ys) : s.Receives u id (xs ++ ys) := by
  have sameId : t.id = s.id := congrArg (·.2.1) first.frame_eq
  refine ⟨second.frame_eq.trans first.frame_eq, fun other => ?_, fun same name => ?_⟩
  · rw [second.elsewhere (by rw [sameId]; exact other), first.elsewhere other]
  · rw [second.here (sameId.trans same), first.here same, List.find?_append, Option.or_assoc]

namespace Registration

variable {base : ScopeTree} {state next : Registration} {scope : ScopeId}

/-- Every scope receives what is bound. -/
theorem bindReceiver_receives (formed : state.tree.Formed) {binding : Binding}
    (noRecord : binding.kind ≠ .record) :
    ∀ u ∈ (state.bindReceiver scope binding).tree.scopes,
      ∃ s ∈ state.tree.scopes, s.Receives u scope [binding] := by
  intro u hu
  unfold bindReceiver at hu
  cases took : state.tree.declare scope binding with
  | ok tree =>
    simp only [took] at hu
    obtain ⟨s, hs, alike, unchanged | ⟨here, bound⟩⟩ := formed.mem_of_declare took hu
    · refine ⟨s, hs, alike, fun _ => unchanged, fun here name => ?_⟩
      subst unchanged
      obtain ⟨t, ht, id, became⟩ := formed.exists_of_declare took hu
      have same : t = u := formed.eq_of_id ht hs id
      subst same
      rw [if_pos here] at became
      have offered := t.varBinding?_bind binding name
      rw [← became] at offered
      simpa [noRecord, List.find?_singleton] using offered
    · refine ⟨s, hs, alike, fun other => absurd here other, fun _ name => ?_⟩
      rw [bound, Scope.varBinding?_bind]
      simp [noRecord, List.find?_singleton]
  | error first =>
    simp only [took] at hu
    refine ⟨u, hu, rfl, fun _ => rfl, fun here name => ?_⟩
    have taken := ScopeTree.declare_eq_error_iff.mp took
    rw [← here, formed.scope?_id hu, Option.bind_some, Scope.holder?, if_neg noRecord] at taken
    by_cases named : binding.name = name
    · rw [← named, taken, Option.some_or]
    · simp [named]

/-- Binding one receiver after the other. -/
theorem foldl_bindReceiver_receives {receivers : List Binding}
    (noRecord : ∀ b ∈ receivers, b.kind ≠ .record) (formed : state.tree.Formed) :
    ∀ u ∈ (receivers.foldl (fun s b => s.bindReceiver scope b) state).tree.scopes,
      ∃ s ∈ state.tree.scopes, s.Receives u scope receivers := by
  induction receivers generalizing state with
  | nil => exact fun u hu => ⟨u, hu, .nil u scope⟩
  | cons binding rest ih =>
    intro u hu
    have shape := state.bindReceiver_sameShape scope binding
    obtain ⟨t, ht, later⟩ := ih (fun b hb => noRecord b (List.mem_cons_of_mem _ hb))
      (shape.formed formed) u hu
    obtain ⟨s, hs, first⟩ := bindReceiver_receives formed (noRecord binding List.mem_cons_self) t ht
    exact ⟨s, hs, first.trans later⟩

/-! ### The invariant -/

/-- A record with this id has been declared. -/
def Recorded (state : Registration) (id : NodeId) : Prop :=
  ∃ d ∈ state.table.entries, d.kind = .record ∧ d.id = id

/-- What is recorded stays recorded. -/
theorem Recorded.mono {id : NodeId} (h : state.Recorded id)
    (grown : state.table.entries ⊆ next.table.entries) : next.Recorded id := by
  obtain ⟨d, hd, rest⟩ := h
  exact ⟨d, grown hd, rest⟩

end Registration

/-- A scope binds the receivers of outer records: each is offered under its name, the first one of
a name, and there are no other receivers but `this`. -/
def Scope.HoldsReceivers (t : Scope) (entries : List Declaration) (outers : List NodeId) : Prop :=
  ∃ ds : List Declaration, ds ⊆ entries ∧ ds.map (·.id) = outers ∧ ∀ name, name ≠ "this" →
    (∀ r, (ds.map (·.outerReceiver)).find? (·.name == name) = some r →
      t.varBinding? name = some r) ∧
    ((ds.map (·.outerReceiver)).find? (·.name == name) = none →
      ∀ b, t.varBinding? name = some b → b.kind.isReceiver = false)

/-- A scope holds its receivers whatever is recorded later. -/
theorem Scope.HoldsReceivers.mono {t : Scope} {entries more : List Declaration}
    {outers : List NodeId} (h : t.HoldsReceivers entries outers) (grown : entries ⊆ more) :
    t.HoldsReceivers more outers := by
  obtain ⟨ds, declared, rest⟩ := h
  exact ⟨ds, List.Subset.trans declared grown, rest⟩

/-- It holds them whatever else changes in the scope. -/
theorem Scope.HoldsReceivers.of_vars {t u : Scope} {entries : List Declaration}
    {outers : List NodeId} (h : t.HoldsReceivers entries outers) (same : u.vars = t.vars) :
    u.HoldsReceivers entries outers := by
  have alike : u.varBinding? = t.varBinding? := by
    funext name
    rw [varBinding?, varBinding?, same]
  unfold HoldsReceivers
  rw [alike]
  exact h

/-- Declaring a variable in a scope leaves its receivers alone. -/
theorem Scope.HoldsReceivers.bind {t : Scope} {entries : List Declaration} {outers : List NodeId}
    {d : Declaration} (h : t.HoldsReceivers entries outers) :
    (t.bind d.binding).HoldsReceivers entries outers := by
  obtain ⟨ds, declared, ids, held⟩ := h
  refine ⟨ds, declared, ids, fun name notThis => ⟨fun r first => ?_, fun none b bound => ?_⟩⟩
  · rw [varBinding?_bind, (held name notThis).1 r first, Option.some_or]
  · rw [varBinding?_bind] at bound
    rcases Option.or_eq_some_iff.mp bound with before | ⟨_, new⟩
    · exact (held name notThis).2 none b before
    · split at new
      · cases new
        exact d.not_isReceiver
      · cases new

namespace Registration

variable {base : ScopeTree} {state next : Registration} {scope : ScopeId}

/-- Records that have been declared hold the receivers of the outer records they can reach; nothing
is bound in the scope of a record that has not been declared yet. -/
structure ReceiversHeld (base : ScopeTree) (state : Registration) : Prop where
  shape : base.SameShape state.tree
  formed : state.tree.Formed
  untouched : ∀ t ∈ state.tree.scopes, t.kind = .record → ¬state.Recorded t.owner → t.vars = []
  held : ∀ t ∈ state.tree.scopes, t.kind = .record → state.Recorded t.owner →
    t.HoldsReceivers state.table.entries (state.tree.outersOf t)

/-- A record that has been declared is found in the table. -/
theorem Recorded.get?_isSome {id : NodeId} (h : state.Recorded id) :
    (state.table.get? id).isSome = true := by
  obtain ⟨d, hd, _, rfl⟩ := h
  rw [DeclTable.get?, List.find?_isSome]
  exact ⟨d, hd, beq_self_eq_true _⟩

/-- What is being declared has not been recorded before. -/
theorem not_recorded_of_declare {decl : Declaration} (taken : state.declare decl = .ok next) :
    ¬state.Recorded decl.id := by
  intro recorded
  obtain ⟨_, fresh, _⟩ := declare_eq_ok_iff.mp taken
  have known := recorded.get?_isSome
  rw [fresh] at known
  cases known

/-- Outer records that are found in the table have receivers, named after their declarations. -/
theorem exists_outerReceivers (state : Registration) {outers : List NodeId}
    (known : ∀ outer ∈ outers, (state.table.get? outer).isSome = true) :
    ∃ ds : List Declaration, ds ⊆ state.table.entries ∧ ds.map (·.id) = outers ∧
      outers.filterMap state.outerReceiver? = ds.map (·.outerReceiver) := by
  induction outers with
  | nil => exact ⟨[], List.nil_subset _, rfl, rfl⟩
  | cons outer rest ih =>
    obtain ⟨ds, declared, ids, receivers⟩ := ih fun o ho => known o (List.mem_cons_of_mem _ ho)
    obtain ⟨d, found⟩ := Option.isSome_iff_exists.mp (known outer List.mem_cons_self)
    obtain ⟨hd, id⟩ := of_find?_key found
    refine ⟨d :: ds, List.cons_subset.mpr ⟨hd, declared⟩, by rw [List.map_cons, ids, id], ?_⟩
    have first : state.outerReceiver? outer = some d.outerReceiver := by
      rw [outerReceiver?, found, Option.map_some, Declaration.outerReceiver, id]
    rw [List.filterMap_cons_some first, List.map_cons, receivers]

/-- The name of a record is no variable. -/
theorem declare_record_scopes (formed : state.tree.Formed) {decl : Declaration}
    (record : decl.kind = .record) (taken : state.declare decl = .ok next) :
    ∀ u ∈ next.tree.scopes, ∃ s ∈ state.tree.scopes, frame u = frame s ∧ u.vars = s.vars := by
  intro u hu
  obtain ⟨_, _, ⟨tree, took, rfl⟩ | ⟨first, _, rfl⟩⟩ := declare_eq_ok_iff.mp taken
  · obtain ⟨s, hs, alike, rfl | ⟨_, rfl⟩⟩ := formed.mem_of_declare took hu
    · exact ⟨u, hs, rfl, rfl⟩
    · have bound : decl.binding.kind = .record := Declaration.bindingKind_eq_record_iff.mpr record
      exact ⟨s, hs, alike, by rw [Scope.bind, if_pos bound]⟩
  · exact ⟨u, hu, rfl, rfl⟩

namespace ReceiversHeld

/-- Declaring a variable in a scope that is no record's, or that of a declared record, leaves the
receivers alone. -/
theorem declare {decl : Declaration} (h : ReceiversHeld base state)
    (noRecord : decl.kind ≠ .record)
    (here : ∀ t ∈ state.tree.scopes, t.id = decl.scope → t.kind = .record →
      state.Recorded t.owner)
    (taken : state.declare decl = .ok next) : ReceiversHeld base next := by
  have entries := declare_table taken
  have grown : state.table.entries ⊆ next.table.entries :=
    entries ▸ List.subset_append_left _ _
  have recorded : ∀ id, next.Recorded id → state.Recorded id := by
    rintro id ⟨d, hd, record, rfl⟩
    rw [entries] at hd
    rcases List.mem_append.mp hd with hd | hd
    · exact ⟨d, hd, record, rfl⟩
    · rw [List.mem_singleton.mp hd] at record
      exact absurd record noRecord
  have same := declare_sameShape taken
  have each : ∀ u ∈ next.tree.scopes, ∃ s ∈ state.tree.scopes, frame u = frame s ∧
      (u = s ∨ s.id = decl.scope ∧ u = s.bind decl.binding) := by
    obtain ⟨_, _, ⟨tree, took, rfl⟩ | ⟨first, _, rfl⟩⟩ := declare_eq_ok_iff.mp taken
    · exact fun u hu => h.formed.mem_of_declare took hu
    · exact fun u hu => ⟨u, hu, rfl, .inl rfl⟩
  refine ⟨h.shape.trans same, same.formed h.formed, fun u hu record new => ?_,
    fun u hu record old => ?_⟩
  · obtain ⟨s, hs, alike, became⟩ := each u hu
    have header : u.toScopeHeader = s.toScopeHeader := congrArg (·.1) alike
    rw [header] at record new
    have unrecorded : ¬state.Recorded s.owner := fun old => new (old.mono grown)
    rcases became with rfl | ⟨there, rfl⟩
    · exact h.untouched u hs record unrecorded
    · exact absurd (here s hs there record) unrecorded
  · obtain ⟨s, hs, alike, became⟩ := each u hu
    have header : u.toScopeHeader = s.toScopeHeader := congrArg (·.1) alike
    rw [header] at record old
    rw [same.outersOf_eq alike]
    have before := (h.held s hs record (recorded _ old)).mono grown
    rcases became with rfl | ⟨_, rfl⟩
    · exact before
    · exact before.bind

/-- Declaring a record binds the receivers of its outer records in its own scope, if the records
around it have been declared, and no variables elsewhere. -/
theorem scopes_of_record {within : Place} {site : RecordSite} (h : ReceiversHeld base state)
    {s : Scope} (hs : s ∈ base.scopes) (owner : s.owner = site.decl.id)
    (isStatic : s.isStatic = site.decl.isStatic)
    (around : ∀ u ∈ (base.chain s.id).tail, u.kind = .record → state.Recorded u.owner)
    (taken : state.step (.record within site) = .ok next) :
    ∃ ds : List Declaration, ds ⊆ next.table.entries ∧ ds.map (·.id) = base.outersOf s ∧
      ∀ v ∈ next.tree.scopes, ∃ t ∈ state.tree.scopes, frame v = frame t ∧
        (t.owner ≠ site.decl.id → v.vars = t.vars) ∧
        (t.owner = site.decl.id → ∀ name, name ≠ "this" → v.varBinding? name =
          (t.varBinding? name).or ((ds.map (·.outerReceiver)).find? (·.name == name))) := by
  obtain ⟨scope, bound, found, declared, rfl⟩ := step_record_eq_ok_iff.mp taken
  have formed : base.Formed := h.shape.symm.formed h.formed
  have shape : base.SameShape bound.tree := h.shape.trans (declare_sameShape declared)
  have opened : scope = s.id := by
    rw [h.shape.scopeOf?_eq, ← owner, formed.scopeOf?_owner hs] at found
    exact (Option.some.inj found).symm
  subst opened
  have outers : (if site.decl.isStatic then [] else
      reachableOuters (bound.tree.chain s.id).tail) = base.outersOf s := by
    have tails : (bound.tree.chain s.id).tail.map frame = (base.chain s.id).tail.map frame := by
      rw [List.map_tail, List.map_tail, shape.chain]
    rw [ScopeTree.outersOf, isStatic, reachableOuters_eq_of_frames tails]
  have grown : state.table.entries ⊆ bound.table.entries :=
    declare_table declared ▸ List.subset_append_left _ _
  have recorded : ∀ outer ∈ base.outersOf s, (bound.table.get? outer).isSome = true := by
    intro outer member
    obtain ⟨u, hu, sort, rfl⟩ := ScopeTree.exists_of_mem_outersOf member
    exact ((around u hu sort).mono grown).get?_isSome
  obtain ⟨ds, known, ids, receivers⟩ := bound.exists_outerReceivers recorded
  refine ⟨ds, by rw [bindReceivers_table]; exact known, ids, fun v hv => ?_⟩
  rw [bindReceivers, outers, receivers] at hv
  obtain ⟨u, hu, received⟩ := foldl_bindReceiver_receives (by simp [Declaration.outerReceiver])
    ((declare_sameShape declared).formed h.formed) v hv
  obtain ⟨t, ht, alike, vars⟩ := declare_record_scopes h.formed rfl declared u hu
  have here : u.id = s.id ↔ t.owner = site.decl.id := by
    obtain ⟨t', ht', alike'⟩ := h.shape.symm.exists_mem ht
    have sameId : t'.id = u.id := (congrArg (·.2.1) (alike.trans alike'.symm)).symm
    have sameOwner : t'.owner = t.owner := congrArg (·.1.owner) alike'
    rw [← sameId, ← sameOwner, ← owner]
    exact ⟨fun same => congrArg (·.owner) (formed.eq_of_id ht' hs same),
      fun same => congrArg (·.id) (formed.eq_of_owner ht' hs same)⟩
  refine ⟨t, ht, received.frame_eq.trans alike, fun other => ?_, fun own name notThis => ?_⟩
  · rw [received.elsewhere (mt here.mp other), vars]
  · have differs : ("this" == name) = false := beq_eq_false_iff_ne.mpr notThis.symm
    rw [received.here (here.mpr own), List.find?_cons_of_neg (by simp [differs]),
      Scope.varBinding?, Scope.varBinding?, vars]

/-- Declaring a record keeps the receivers held, if the records around it have been declared. -/
theorem record {within : Place} {site : RecordSite} (h : ReceiversHeld base state) {s : Scope}
    (hs : s ∈ base.scopes) (owner : s.owner = site.decl.id)
    (isStatic : s.isStatic = site.decl.isStatic)
    (around : ∀ u ∈ (base.chain s.id).tail, u.kind = .record → state.Recorded u.owner)
    (taken : state.step (.record within site) = .ok next) : ReceiversHeld base next := by
  have formed : base.Formed := h.shape.symm.formed h.formed
  have shape := step_sameShape taken
  have entries := step_entries taken
  have grown : state.table.entries ⊆ next.table.entries :=
    entries ▸ List.subset_append_left _ _
  have fresh : ¬state.Recorded site.decl.id := by
    obtain ⟨_, _, _, declared, _⟩ := step_record_eq_ok_iff.mp taken
    exact not_recorded_of_declare declared
  have recorded : ∀ id, next.Recorded id ↔ state.Recorded id ∨ id = site.decl.id := by
    intro id
    simp only [Recorded, entries, Step.declaration?, Option.toList_some, List.mem_append,
      List.mem_singleton, or_and_right, exists_or, exists_eq_left]
    exact or_congr_right ⟨fun own => own.2.symm, fun own => ⟨rfl, own.symm⟩⟩
  obtain ⟨ds, declared, ids, each⟩ := h.scopes_of_record hs owner isStatic around taken
  refine ⟨h.shape.trans shape, shape.formed h.formed, fun v hv sort new => ?_,
    fun v hv sort old => ?_⟩
  · obtain ⟨t, ht, alike, elsewhere, _⟩ := each v hv
    have header : v.toScopeHeader = t.toScopeHeader := congrArg (·.1) alike
    rw [header] at sort new
    rw [recorded, not_or] at new
    rw [elsewhere new.2]
    exact h.untouched t ht sort new.1
  · obtain ⟨t, ht, alike, elsewhere, here⟩ := each v hv
    have header : v.toScopeHeader = t.toScopeHeader := congrArg (·.1) alike
    rw [header] at sort old
    by_cases own : t.owner = site.decl.id
    · obtain ⟨t', ht', alike'⟩ := h.shape.symm.exists_mem ht
      have same : t' = s :=
        formed.eq_of_owner ht' hs ((congrArg (·.1.owner) alike').trans (own.trans owner.symm))
      have unbound : ∀ name, t.varBinding? name = none := by
        intro name
        rw [Scope.varBinding?, h.untouched t ht sort (own ▸ fresh), List.find?_nil]
      have outers : next.tree.outersOf v = base.outersOf s :=
        (h.shape.trans shape).outersOf_eq (alike.trans (same ▸ alike'.symm))
      rw [outers]
      refine ⟨ds, declared, ids, fun name notThis => ?_⟩
      have bound := here own name notThis
      rw [unbound, Option.none_or] at bound
      rw [bound]
      exact ⟨fun r first => first, fun none b first => by rw [none] at first; cases first⟩
    · have before : state.Recorded t.owner := ((recorded _).mp old).resolve_right own
      rw [shape.outersOf_eq alike]
      exact ((h.held t ht sort before).mono grown).of_vars (elsewhere own)

end ReceiversHeld

/-- The records around a place have been declared. -/
def AroundRecorded (base : ScopeTree) (place : Place) (state : Registration) : Prop :=
  ∀ u ∈ base.chain (base.placeOf place), u.kind = .record → state.Recorded u.owner

/-- Around a place, what is recorded stays recorded. -/
theorem AroundRecorded.mono {place : Place} (h : AroundRecorded base place state)
    (grown : state.table.entries ⊆ next.table.entries) : AroundRecorded base place next :=
  fun u hu sort => (h u hu sort).mono grown

/-- Variables that are declared at a place leave the receivers held. -/
theorem ReceiversHeld.variables {place : Place} {items : List Step} (h : ReceiversHeld base state)
    (around : AroundRecorded base place state)
    (plain : ∀ item ∈ items, (∃ v, v.kind ≠ .record ∧ item = .declares place v) ∨
      ∃ inStatic value, item = .uses place inStatic value)
    (run : state.steps items = .ok next) : ReceiversHeld base next := by
  refine (foldlM_preserves (fun s => ReceiversHeld base s ∧ AroundRecorded base place s)
    (fun s kept item member t taken => ?_) ⟨h, around⟩ run).1
  obtain ⟨held, known⟩ := kept
  have grown : s.table.entries ⊆ t.table.entries :=
    step_entries taken ▸ List.subset_append_left _ _
  refine ⟨?_, known.mono grown⟩
  rcases plain item member with ⟨v, noRecord, rfl⟩ | ⟨inStatic, value, rfl⟩
  · refine held.declare noRecord (fun u hu here sort => ?_) taken
    obtain ⟨u', hu', alike⟩ := held.shape.symm.exists_mem hu
    have header : u'.toScopeHeader = u.toScopeHeader := congrArg (·.1) alike
    have placed : u'.id = base.placeOf place := by
      have id : u'.id = u.id := congrArg (·.2.1) alike
      rw [id, here, ← held.shape.placeOf_eq]
      rfl
    rw [← header] at sort ⊢
    refine known u' ?_ sort
    rw [← placed]
    exact (held.shape.symm.formed held.formed).mem_chain_self hu'
  · cases taken
    exact held

/-- Inside a construct that is no record there are the same records around. -/
theorem AroundRecorded.inside_plain {opening : Opening} (formed : base.Formed)
    (shown : base.Shows opening) (plain : opening.header.kind ≠ .record)
    (h : AroundRecorded base opening.within state) :
    AroundRecorded base (.node opening.header.owner) state := by
  obtain ⟨s, _, header, placed, chain⟩ := shown.exists_chain formed
  intro u hu sort
  rw [placed, chain] at hu
  rcases List.mem_cons.mp hu with rfl | hu
  · rw [header] at sort
    exact absurd sort plain
  · exact h u hu sort

/-- Opening a scope registers nothing. -/
theorem steps_opens {place : Place} {header : ScopeHeader} {span : Span} {items : List Step}
    (run : state.steps (.opens place header span :: items) = .ok next) :
    state.steps items = .ok next := by
  rw [steps_cons] at run
  obtain ⟨middle, opened, rest⟩ := bind_eq_ok_iff.mp run
  exact eq_of_step_opens opened ▸ rest

/-- The fields of a record are variables. -/
theorem plain_of_mem_fields {place : Place} {fields : List Field} :
    ∀ item ∈ fields.flatMap (Field.outline place),
      (∃ v : Variable, v.kind ≠ .record ∧ item = .declares place v) ∨
        ∃ inStatic value, item = .uses place inStatic value := by
  intro item member
  obtain ⟨field, _, member⟩ := List.mem_flatMap.mp member
  rcases List.mem_cons.mp member with rfl | member
  · exact .inl ⟨field.declared, by simp [Field.declared], rfl⟩
  · cases initializer : field.initializer with
    | none => simp [initializer] at member
    | some value =>
      rw [initializer] at member
      exact .inr ⟨_, _, List.mem_singleton.mp member⟩

/-- Registering what nests at a place keeps the receivers held, if the records around the place
have been declared. -/
theorem steps_receiversHeld {place : Place} {items : List Step} (nests : Nests place items)
    (formed : base.Formed) (shown : ∀ opening ∈ openingsOf items, base.Shows opening)
    (h : ReceiversHeld base state) (around : AroundRecorded base place state)
    (run : state.steps items = .ok next) : ReceiversHeld base next := by
  induction nests generalizing state next with
  | nil =>
    cases run
    exact h
  | append _ _ ihx ihy =>
    rw [openingsOf_append] at shown
    rw [steps_append] at run
    obtain ⟨middle, first, second⟩ := bind_eq_ok_iff.mp run
    have grown : state.table.entries ⊆ middle.table.entries :=
      steps_entries first ▸ List.subset_append_left _ _
    have kept := ihx (fun o ho => shown o (List.mem_append_left _ ho)) h around first
    exact ihy (fun o ho => shown o (List.mem_append_right _ ho)) kept (around.mono grown) second
  | declares _ noRecord =>
    refine h.variables around (fun item member => ?_) run
    exact .inl ⟨_, noRecord, List.mem_singleton.mp member⟩
  | uses =>
    cases run
    exact h
  | opens plain _ ih =>
    rw [openingsOf_opens] at shown
    have inside := around.inside_plain formed (shown _ List.mem_cons_self) plain.not_record
    exact ih (fun o ho => shown o (List.mem_cons_of_mem _ ho)) h inside (steps_opens run)
  | loopOver plain _ _ ihv ihb =>
    rw [openingsOf_append, openingsOf_opens, openingsOf_uses, List.cons_append] at shown
    have inside := around.inside_plain formed (shown _ List.mem_cons_self) plain.not_record
    have further := fun opening listed => shown opening (List.mem_cons_of_mem _ listed)
    rw [List.cons_append] at run
    have run := steps_opens run
    rw [steps_append] at run
    obtain ⟨middle, first, second⟩ := bind_eq_ok_iff.mp run
    have grown : state.table.entries ⊆ middle.table.entries :=
      steps_entries first ▸ List.subset_append_left _ _
    have kept := ihv (fun o ho => further o (List.mem_append_left _ ho)) h inside first
    exact ihb (fun o ho => further o (List.mem_append_right _ ho)) kept (inside.mono grown) second
  | @record place site inner _ ih =>
    rw [openingsOf_append, openingsOf_record, openingsOf_fields, List.singleton_append] at shown
    obtain ⟨s, hs, header, placed, chain⟩ := (shown _ List.mem_cons_self).exists_chain formed
    have owner : s.owner = site.decl.id := congrArg (·.owner) header
    have isStatic : s.isStatic = site.decl.isStatic := congrArg (·.isStatic) header
    rw [List.cons_append, steps_cons] at run
    obtain ⟨opened, taken, run⟩ := bind_eq_ok_iff.mp run
    rw [steps_append] at run
    obtain ⟨middle, first, second⟩ := bind_eq_ok_iff.mp run
    have grown : state.table.entries ⊆ opened.table.entries :=
      step_entries taken ▸ List.subset_append_left _ _
    have further : opened.table.entries ⊆ middle.table.entries :=
      steps_entries first ▸ List.subset_append_left _ _
    have recorded := h.record hs owner isStatic (by rw [chain]; exact around) taken
    have inside : AroundRecorded base (.node site.decl.id) opened := by
      intro u hu sort
      rw [placed, chain] at hu
      rcases List.mem_cons.mp hu with rfl | hu
      · refine ⟨site.declaration (state.tree.recordNameOf site.decl.id)
          (state.tree.placeOf place), ?_, rfl, owner.symm⟩
        rw [step_entries taken]
        exact List.mem_append_right _ (List.mem_singleton_self _)
      · exact (around u hu sort).mono grown
    have fields := recorded.variables inside plain_of_mem_fields first
    exact ih (fun o ho => shown o (List.mem_cons_of_mem _ ho)) fields (inside.mono further) second

end Registration

variable {unit : TranslationUnit} {tree : ScopeTree} {state : Registration}

/-- The record scopes of a registered unit have been opened by records that are declared. -/
theorem registered_recorded (built : ScopeTree.build unit = .ok tree)
    (registered : registerDeclarations unit tree = .ok state) {t : Scope}
    (ht : t ∈ state.tree.scopes) (sort : t.kind = .record) : state.Recorded t.owner := by
  obtain ⟨site, listed, owner⟩ := registered_record_scope built registered ht sort
  obtain ⟨within, member⟩ := TranslationUnit.mem_recordSites.mp listed
  refine ⟨site.declaration (tree.recordNameOf site.decl.id) (tree.placeOf within), ?_, rfl, owner⟩
  rw [registered_entries registered]
  exact List.mem_filterMap.mpr ⟨_, member, rfl⟩

/-- Registering what nests at the top level of a unit keeps the receivers held. -/
theorem receiversHeld_of_build (built : ScopeTree.build unit = .ok tree) {items : List Step}
    (nests : Nests .unit items) (listed : items ⊆ unit.outline .recordsFirst)
    (run : Registration.steps { tree } items = .ok state) :
    Registration.ReceiversHeld tree state := by
  have formed := ScopeTree.build_formed built
  have start : Registration.ReceiversHeld tree { tree } := by
    refine ⟨.refl tree, formed, fun u hu _ _ => (ScopeTree.build_empty built u hu).1, ?_⟩
    rintro u _ _ ⟨d, hd, _⟩
    cases hd
  have around : Registration.AroundRecorded tree .unit { tree } := by
    obtain ⟨opened, scopes, _⟩ := ScopeTree.build_adds_mirrors built
    have first : tree.scope? .global =
        some { kind := .global, owner := unit.id, id := .global, parent := none } := by
      rw [ScopeTree.scope?, scopes]
      rfl
    intro u hu global
    have whole : u ∈ tree.chain .global := hu
    rw [ScopeTree.Formed.chain_of_parent_none first rfl] at whole
    rw [List.mem_singleton.mp whole] at global
    cases global
  have shown : ∀ opening ∈ openingsOf items, tree.Shows opening := by
    intro opening opened
    obtain ⟨item, member, opens⟩ := mem_openingsOf.mp opened
    exact ScopeTree.build_shows built opening
      (mem_openingsOf.mpr ⟨item, unit.outline_perm.mem_iff.mp (listed member), opens⟩)
  exact Registration.steps_receiversHeld nests formed shown start around run

/-- In a registered unit every record scope holds the receivers of the outer records that can be
reached from it. -/
theorem registered_receiversHeld (built : ScopeTree.build unit = .ok tree)
    (registered : registerDeclarations unit tree = .ok state) {t : Scope}
    (ht : t ∈ state.tree.scopes) (sort : t.kind = .record) :
    t.HoldsReceivers state.table.entries (state.tree.outersOf t) := by
  have recorded := registered_recorded built registered ht sort
  rw [registerDeclarations_eq] at registered
  exact (receiversHeld_of_build built unit.outline_nests (List.Subset.refl _) registered).held
    t ht sort recorded

end NameBinding
