import NameBinding.Proofs.BoundReceivers
import NameBinding.Proofs.FirstDeclared

/-!
# The accounts of registration

Registration makes one entry for each declaration of a unit, in the scope of the construct that it
belongs to, and each entry is accounted for once: its name is bound to it, or it is reported as a
duplicate of an earlier declaration that holds the name. So the entries are as many as the
bindings, receivers left out, and the reports together.
-/

namespace NameBinding

/-! ### Holders of names -/

/-- Binding a record name offers it under its name, behind what is bound before. -/
theorem Scope.typeBinding?_bind (s : Scope) (b : Binding) (name : String) :
    (s.bind b).typeBinding? name =
      (s.typeBinding? name).or (if b.kind = .record ∧ b.name = name then some b else none) := by
  unfold Scope.bind
  by_cases record : b.kind = .record
  · by_cases same : b.name = name <;> simp [record, same, typeBinding?, List.find?_append]
  · simp [record, typeBinding?]

/-- A name that is held stays held when something is bound. -/
theorem Scope.holder?_bind_of_some {s : Scope} {kind : BindingKind} {name : String}
    {first : Binding} (held : s.holder? kind name = some first) (b : Binding) :
    (s.bind b).holder? kind name = some first := by
  unfold Scope.holder? at held ⊢
  by_cases record : kind = .record
  · rw [if_pos record] at held ⊢
    rw [Scope.typeBinding?_bind, held, Option.some_or]
  · rw [if_neg record] at held ⊢
    rw [Scope.varBinding?_bind, held, Option.some_or]

/-- A name that is free is held by what is bound under it. -/
theorem Scope.holder?_bind_self {s : Scope} {b : Binding} (free : s.holder? b.kind b.name = none) :
    (s.bind b).holder? b.kind b.name = some b := by
  unfold Scope.holder? at free ⊢
  by_cases record : b.kind = .record
  · rw [if_pos record] at free ⊢
    rw [Scope.typeBinding?_bind, free, if_pos ⟨record, rfl⟩, Option.none_or]
  · rw [if_neg record] at free ⊢
    rw [Scope.varBinding?_bind, free, if_pos ⟨record, rfl⟩, Option.none_or]

/-- Binding adds one binding. -/
theorem Scope.bind_perm (s : Scope) (b : Binding) :
    ((s.bind b).vars ++ (s.bind b).types).Perm (b :: (s.vars ++ s.types)) := by
  unfold Scope.bind
  split
  · rw [← List.append_assoc]
    exact List.perm_append_singleton b _
  · rw [List.append_assoc]
    exact List.perm_middle

/-- What holds a name in a scope is bound there. -/
theorem Scope.mem_of_holder? {s : Scope} {kind : BindingKind} {name : String} {b : Binding}
    (held : s.holder? kind name = some b) : b ∈ s.vars ++ s.types := by
  unfold Scope.holder? at held
  split at held
  · exact List.mem_append_right _ (List.mem_of_find?_eq_some held)
  · exact List.mem_append_left _ (List.mem_of_find?_eq_some held)

namespace ScopeTree

variable {tree later : ScopeTree} {scope other : ScopeId} {binding first : Binding}

/-- The binding that holds a name in a scope, in the namespace of bindings of a kind. -/
def holder? (tree : ScopeTree) (scope : ScopeId) (kind : BindingKind) (name : String) :
    Option Binding :=
  (tree.scope? scope).bind (·.holder? kind name)

/-- Everything that is bound in a tree. -/
def bindings (tree : ScopeTree) : List Binding := tree.scopes.flatMap fun s => s.vars ++ s.types

/-- The scopes after a name is bound in one of them. -/
theorem scope?_of_declare (h : tree.declare scope binding = .ok later) (id : ScopeId) :
    later.scope? id =
      (tree.scope? id).map fun s => if scope.index = id.index then s.bind binding else s := by
  obtain ⟨_, rfl⟩ := declare_eq_ok_iff.mp h
  rw [scope?, scope?, List.getElem?_modify]
  split <;> cases tree.scopes[id.index]? <;> rfl

/-- Names that are held stay held. -/
theorem holder?_of_declare {id : ScopeId} {kind : BindingKind} {name : String}
    (h : tree.declare scope binding = .ok later) (held : tree.holder? id kind name = some first) :
    later.holder? id kind name = some first := by
  obtain ⟨s, hs, held⟩ := Option.bind_eq_some_iff.mp held
  rw [holder?, scope?_of_declare h, hs, Option.map_some, Option.bind_some]
  split
  · exact Scope.holder?_bind_of_some held binding
  · exact held

/-- A name that is bound is held by its binding. -/
theorem holder?_declared {s : Scope} (hs : tree.scope? scope = some s)
    (h : tree.declare scope binding = .ok later) :
    later.holder? scope binding.kind binding.name = some binding := by
  have free := (declare_eq_ok_iff.mp h).1
  rw [hs, Option.bind_some] at free
  rw [holder?, scope?_of_declare h, hs, Option.map_some, Option.bind_some, if_pos rfl]
  exact Scope.holder?_bind_self free

/-- What a scope is found to hold is among the bindings of the tree. -/
theorem mem_bindings_of_holder? {kind : BindingKind} {name : String}
    (held : tree.holder? scope kind name = some first) : first ∈ tree.bindings := by
  obtain ⟨s, hs, held⟩ := Option.bind_eq_some_iff.mp held
  exact List.mem_flatMap.mpr ⟨s, mem_of_scope? hs, Scope.mem_of_holder? held⟩

/-- Binding a name in one scope adds one binding to the tree. -/
theorem bindings_perm_of_declare {s : Scope} (hs : tree.scope? scope = some s)
    (h : tree.declare scope binding = .ok later) :
    later.bindings.Perm (binding :: tree.bindings) := by
  obtain ⟨_, rfl⟩ := declare_eq_ok_iff.mp h
  obtain ⟨inside, here⟩ := List.getElem?_eq_some_iff.mp hs
  have split := List.take_append_drop scope.index tree.scopes
  rw [List.drop_eq_getElem_cons inside, here] at split
  rw [bindings, bindings, List.modify_eq_take_cons_drop inside, here, List.flatMap_append,
    List.flatMap_cons]
  conv_rhs => rw [← split, List.flatMap_append, List.flatMap_cons]
  refine (List.Perm.append_left _ ((s.bind_perm binding).append_right _)).trans ?_
  rw [List.cons_append]
  exact List.perm_middle

/-- The scope of a place is there. -/
theorem Formed.exists_scope_placeOf (formed : tree.Formed) (place : Place) :
    ∃ s, tree.scope? (tree.placeOf place) = some s := by
  have inside : (tree.placeOf place).index < tree.size := by
    unfold placeOf
    cases at_place : tree.scopeAt? place with
    | none => exact formed.size_pos
    | some id => exact formed.lt_of_scopeAt? at_place
  exact ⟨_, List.getElem?_eq_getElem inside⟩

end ScopeTree

/-! ### One account for each declaration -/

namespace Registration

variable {state next : Registration} {decl : Declaration} {outline : List Step}

/-- The binding that holds the name of a declaration in its scope and namespace. -/
def holder? (state : Registration) (d : Declaration) : Option Binding :=
  state.tree.holder? d.scope d.bindingKind d.name

/-- The report on a declaration: there is one if its name is held by something else. -/
def report? (state : Registration) (d : Declaration) : Option Issue :=
  match state.holder? d with
  | none => none
  | some first =>
    if first = d.binding then none else some ⟨.duplicate d.name first.definedAt, d.span⟩

/-- The name of a declaration is bound to it, or to something declared before. -/
def HeldAfter (state : Registration) (before : List Declaration) (d : Declaration) : Prop :=
  ∃ first, state.holder? d = some first ∧
    (first = d.binding ∨ first.target ≠ d.id ∧ ∃ earlier ∈ before, earlier.id = first.target)

/-- All declarations so far are accounted for. -/
structure Accounts (state : Registration) : Prop where
  formed : state.tree.Formed
  /-- Whatever is bound stands for a declaration so far, receivers included. -/
  known : ∀ b ∈ state.tree.bindings, b.target ∈ state.ids
  held : ∀ before d after, state.table.entries = before ++ d :: after → state.HeldAfter before d
  issues : state.issues = state.table.entries.filterMap state.report?
  balance : state.table.size =
    state.tree.bindings.countP (fun b => !b.kind.isReceiver) + state.issues.length

/-- Names that are held stay held by the same binding. -/
def Keeps (state next : Registration) : Prop :=
  ∀ d first, state.holder? d = some first → next.holder? d = some first

/-- A later state still holds what was held after a declaration. -/
theorem HeldAfter.mono {before : List Declaration} {d : Declaration} (h : state.HeldAfter before d)
    (keeps : state.Keeps next) : next.HeldAfter before d := by
  obtain ⟨first, held, origin⟩ := h
  exact ⟨first, keeps d first held, origin⟩

/-- A name that is held is reported as before. -/
theorem report?_of_keeps {before : List Declaration} {d : Declaration}
    (h : state.HeldAfter before d) (keeps : state.Keeps next) :
    next.report? d = state.report? d := by
  obtain ⟨first, held, _⟩ := h
  unfold report?
  rw [held, keeps d first held]

namespace Accounts

/-- With one declaration more, and with what was held held as before, the names of all declarations
are held if that of the new one is. -/
theorem held_append (h : Accounts state) (keeps : state.Keeps next)
    (entries : next.table.entries = state.table.entries ++ [decl])
    (here : next.HeldAfter state.table.entries decl) (before : List Declaration) (d : Declaration)
    (after : List Declaration) (split : next.table.entries = before ++ d :: after) :
    next.HeldAfter before d := by
  rw [entries] at split
  rcases split_of_append_singleton split with ⟨rfl, rfl⟩ | ⟨rest, split⟩
  · exact here
  · exact (h.held before d rest split).mono keeps

/-- With one declaration more, and with what was held held as before, only the new one is reported
besides. -/
theorem reports_append (h : Accounts state) (keeps : state.Keeps next)
    (entries : next.table.entries = state.table.entries ++ [decl]) :
    next.table.entries.filterMap next.report? =
      state.issues ++ (next.report? decl).toList := by
  have same : ∀ d ∈ state.table.entries, next.report? d = state.report? d := by
    intro d hd
    obtain ⟨before, after, split⟩ := List.append_of_mem hd
    exact report?_of_keeps (h.held before d after split) keeps
  rw [entries, List.filterMap_append, List.filterMap_congr same, h.issues]
  cases reported : next.report? decl <;> simp [reported]

/-- A declaration is accounted for when it is recorded. -/
theorem declare (h : Accounts state) (placed : ∃ s, state.tree.scope? decl.scope = some s)
    (taken : state.declare decl = .ok next) : Accounts next := by
  obtain ⟨s, hs⟩ := placed
  obtain ⟨_, unused, outcome⟩ := declare_eq_ok_iff.mp taken
  have new : decl.id ∉ state.ids := get?_eq_none_iff.mp unused
  have entries : next.table.entries = state.table.entries ++ [decl] := declare_table taken
  have ids : next.ids = state.ids ++ [decl.id] := by rw [ids, entries, List.map_append]; rfl
  have size : next.table.size = state.table.size + 1 := by
    rw [DeclTable.size, entries, List.length_append]
    rfl
  rcases outcome with ⟨tree, took, rfl⟩ | ⟨first, kept, rfl⟩
  · have bound : tree.holder? decl.scope decl.bindingKind decl.name = some decl.binding :=
      ScopeTree.holder?_declared hs took
    have keeps : state.Keeps ⟨tree, ⟨state.table.entries ++ [decl]⟩, state.issues⟩ :=
      fun _ _ => ScopeTree.holder?_of_declare took
    have unreported :
        report? ⟨tree, ⟨state.table.entries ++ [decl]⟩, state.issues⟩ decl = none := by
      unfold report? holder?
      simp only [bound, if_pos]
    have perm := ScopeTree.bindings_perm_of_declare hs took
    refine ⟨(ScopeTree.declare_sameShape took).formed h.formed, ?_,
      h.held_append keeps entries ⟨decl.binding, bound, .inl rfl⟩, ?_, ?_⟩
    · intro b hb
      rw [ids]
      rcases List.mem_cons.mp (perm.mem_iff.mp hb) with rfl | hb
      · exact List.mem_append_right _ (List.mem_singleton_self _)
      · exact List.mem_append_left _ (h.known b hb)
    · rw [h.reports_append keeps entries, unreported, Option.toList_none, List.append_nil]
    · have more : tree.bindings.countP (fun b => !b.kind.isReceiver) =
          state.tree.bindings.countP (fun b => !b.kind.isReceiver) + 1 := by
        rw [perm.countP_eq, List.countP_cons_of_pos]
        rw [decl.not_isReceiver]
        rfl
      calc DeclTable.size ⟨state.table.entries ++ [decl]⟩
          = state.table.size + 1 := size
        _ = state.tree.bindings.countP (fun b => !b.kind.isReceiver) + 1 +
            state.issues.length := by rw [h.balance, Nat.add_right_comm]
        _ = tree.bindings.countP (fun b => !b.kind.isReceiver) + state.issues.length := by
          rw [more]
  · have holds : state.tree.holder? decl.scope decl.bindingKind decl.name = some first :=
      ScopeTree.declare_eq_error_iff.mp kept
    have earlier : first.target ∈ state.ids :=
      h.known first (ScopeTree.mem_bindings_of_holder? holds)
    have other : first.target ≠ decl.id := fun same => new (same ▸ earlier)
    obtain ⟨e, he, named⟩ := List.mem_map.mp earlier
    have keeps : state.Keeps ⟨state.tree, ⟨state.table.entries ++ [decl]⟩, state.issues ++
        [⟨.duplicate decl.name first.definedAt, decl.span⟩]⟩ := fun _ _ held => held
    have different : first ≠ decl.binding := fun same => other (congrArg Binding.target same)
    have reported : report? ⟨state.tree, ⟨state.table.entries ++ [decl]⟩, state.issues ++
        [⟨.duplicate decl.name first.definedAt, decl.span⟩]⟩ decl =
        some ⟨.duplicate decl.name first.definedAt, decl.span⟩ := by
      unfold report? holder?
      simp only [holds, if_neg different]
    refine ⟨h.formed, fun b hb => ids ▸ List.mem_append_left _ (h.known b hb),
      h.held_append keeps entries ⟨first, holds, .inr ⟨other, e, he, named⟩⟩, ?_, ?_⟩
    · rw [h.reports_append keeps entries, reported, Option.toList_some]
    · rw [size, h.balance, List.length_append, List.length_singleton, Nat.add_assoc]

/-- Receivers are bound besides; they leave the accounts as they are. -/
theorem bindReceiver {scope : ScopeId} {binding : Binding} (h : Accounts state)
    (placed : ∃ s, state.tree.scope? scope = some s)
    (receiver : binding.kind.isReceiver = true) (known : binding.target ∈ state.ids) :
    Accounts (state.bindReceiver scope binding) := by
  obtain ⟨s, hs⟩ := placed
  unfold Registration.bindReceiver
  cases took : state.tree.declare scope binding with
  | error first => exact h
  | ok tree =>
    have keeps : state.Keeps { state with tree } := fun d first => ScopeTree.holder?_of_declare took
    have perm := ScopeTree.bindings_perm_of_declare hs took
    refine ⟨(ScopeTree.declare_sameShape took).formed h.formed, ?_, ?_, ?_, ?_⟩
    · intro b hb
      rcases List.mem_cons.mp (perm.mem_iff.mp hb) with rfl | hb
      · exact known
      · exact h.known b hb
    · exact fun before d after split => (h.held before d after split).mono keeps
    · refine h.issues.trans (List.filterMap_congr fun d hd => ?_)
      obtain ⟨before, after, split⟩ := List.append_of_mem hd
      exact (report?_of_keeps (h.held before d after split) keeps).symm
    · have same : tree.bindings.countP (fun b => !b.kind.isReceiver) =
          state.tree.bindings.countP (fun b => !b.kind.isReceiver) := by
        rw [perm.countP_eq, List.countP_cons_of_neg]
        rw [receiver]
        exact Bool.false_ne_true
      rw [same]
      exact h.balance

/-- The receivers of a record that has been recorded leave the accounts as they are. -/
theorem bindReceivers {scope : ScopeId} {record : Record} (h : Accounts state)
    (placed : ∃ s, state.tree.scope? scope = some s) (recorded : record.id ∈ state.ids) :
    Accounts (state.bindReceivers scope record) := by
  have known : ∀ binding ∈ (⟨"this", record.id, .this, record.span⟩ : Binding) ::
      (if record.isStatic then [] else reachableOuters (state.tree.chain scope).tail).filterMap
        state.outerReceiver?,
      binding.kind.isReceiver = true ∧ binding.target ∈ state.ids := by
    intro binding member
    rcases List.mem_cons.mp member with rfl | member
    · exact ⟨rfl, recorded⟩
    · obtain ⟨owner, _, named⟩ := List.mem_filterMap.mp member
      obtain ⟨d, found, rfl⟩ := Option.map_eq_some_iff.mp named
      obtain ⟨hd, id⟩ := of_find?_key found
      exact ⟨rfl, List.mem_map.mpr ⟨d, hd, id⟩⟩
  have invariant : Accounts (state.bindReceivers scope record) ∧
      state.tree.SameShape (state.bindReceivers scope record).tree ∧
      (state.bindReceivers scope record).ids = state.ids := by
    refine List.foldlRecOn (motive := fun s : Registration =>
      Accounts s ∧ state.tree.SameShape s.tree ∧ s.ids = state.ids) _ _
      ⟨h, ScopeTree.SameShape.refl _, rfl⟩ ?_
    rintro s ⟨accounts, shape, same⟩ binding member
    obtain ⟨receiver, target⟩ := known binding member
    refine ⟨accounts.bindReceiver ?_ receiver (same ▸ target),
      shape.trans (s.bindReceiver_sameShape scope binding), ?_⟩
    · obtain ⟨t, ht⟩ := placed
      obtain ⟨u, hu, _⟩ := shape.getElem? ht
      exact ⟨u, hu⟩
    · unfold Registration.bindReceiver
      cases s.tree.declare scope binding <;> exact same
  exact invariant.1

/-- A step leaves everything accounted for. -/
theorem step {item : Step} (h : Accounts state) (taken : state.step item = .ok next) :
    Accounts next := by
  cases item with
  | record within site =>
    obtain ⟨scope, bound, found, declared, rfl⟩ := step_record_eq_ok_iff.mp taken
    have accounts := h.declare (h.formed.exists_scope_placeOf within) declared
    have shape := declare_sameShape declared
    obtain ⟨s, hs, _⟩ := h.formed.scope?_of_scopeOf? found
    obtain ⟨u, hu, _⟩ := shape.getElem? hs
    refine accounts.bindReceivers ⟨u, hu⟩ ?_
    rw [ids, declare_table declared, List.map_append]
    exact List.mem_append_right _ (List.mem_singleton_self _)
  | opens within header span => exact eq_of_step_opens taken ▸ h
  | declares within item => exact h.declare (h.formed.exists_scope_placeOf within) taken
  | uses within inStatic value =>
    cases taken
    exact h

/-- Registering steps leaves everything accounted for. -/
theorem steps (h : Accounts state) (run : state.steps outline = .ok next) : Accounts next :=
  foldlM_preserves Accounts (fun _ accounts _ _ _ taken => accounts.step taken) h run

end Accounts

end Registration

variable {unit : TranslationUnit} {tree : ScopeTree} {state : Registration}

/-- The declarations of a registered unit are accounted for. -/
theorem registered_accounts (built : ScopeTree.build unit = .ok tree)
    (registered : registerDeclarations unit tree = .ok state) : state.Accounts := by
  rw [registerDeclarations_eq] at registered
  have nothing : tree.bindings = [] := by
    refine List.flatMap_eq_nil_iff.mpr fun s hs => ?_
    obtain ⟨vars, types⟩ := ScopeTree.build_empty built s hs
    rw [vars, types, List.append_nil]
  refine Registration.Accounts.steps ⟨ScopeTree.build_formed built, ?_, ?_, rfl, ?_⟩ registered
  · intro b hb
    rw [nothing] at hb
    cases hb
  · intro before d after split
    exact absurd split.symm (List.append_ne_nil_of_right_ne_nil _ (List.cons_ne_nil _ _))
  · rw [nothing]
    rfl

/-! ### Declaring nodes and their owners -/

/-- A declaring node, with the place of the construct that it belongs to. -/
structure DeclarationSite where
  /-- The place of the construct that owns the name. -/
  within : Place
  /-- The node. -/
  id : NodeId
  /-- The declared name. -/
  name : String
  /-- What is declared. -/
  kind : DeclKind
  /-- Set for static fields and static records. -/
  isStatic : Bool
  /-- Where it was written. -/
  span : Span

/-- The declaring node of a step. -/
def Step.declarationSite? : Step → Option DeclarationSite
  | .record within site =>
    some ⟨within, site.decl.id, site.decl.name, .record, site.decl.isStatic, site.decl.span⟩
  | .declares within item =>
    some ⟨within, item.id, item.name, item.kind, item.isStatic, item.span⟩
  | _ => none

/-- The declaring nodes of a unit, in the order of registration: records, fields, parameters,
locals, loop variables and caught variables. -/
def TranslationUnit.declarationSites (unit : TranslationUnit) : List DeclarationSite :=
  (unit.outline .recordsFirst).filterMap Step.declarationSite?

/-- The sorts of declarations that the scopes of a kind own. -/
def ScopeKind.Owns : ScopeKind → DeclKind → Prop
  | .global, sort => sort = .record
  | .record, sort => sort = .field ∨ sort = .record
  | .method, sort => sort = .parameter
  | .block, sort => sort = .localVar ∨ sort = .record
  | .loop, sort => sort = .localVar ∨ sort = .record
  | .handler, sort => sort = .caught

/-- An entry records a declaring node in the scope that the owner of the node has opened. -/
structure ScopeTree.Enters (tree : ScopeTree) (site : DeclarationSite) (d : Declaration) :
    Prop where
  id : d.id = site.id
  name : d.name = site.name
  kind : d.kind = site.kind
  isStatic : d.isStatic = site.isStatic
  span : d.span = site.span
  owner : ∃ s ∈ tree.scopes, tree.scopeAt? site.within = some s.id ∧ d.scope = s.id ∧
    s.kind.Owns site.kind

/-- The step of a declaring node is entered under the owner of the node. -/
theorem enters_of_sits (built : ScopeTree.build unit = .ok tree)
    (registered : registerDeclarations unit tree = .ok state) {item : Step}
    (member : item ∈ unit.outline .recordsFirst) :
    Option.Rel state.tree.Enters item.declarationSite? (item.declaration? tree) := by
  have traced := registered_traced built registered
  have sits := ScopeTree.build_sits built item member
  have placed : ∀ {around : Surroundings} {within : Place}, tree.Surrounds around within →
      ∃ s ∈ state.tree.scopes, state.tree.scopeAt? within = some s.id ∧
        tree.placeOf within = s.id ∧ s.kind = around.kind := by
    intro around within surrounds
    obtain ⟨t, ht, here, rfl⟩ := registered_surroundings built registered surrounds
    obtain ⟨s, _, found, _⟩ := surrounds
    refine ⟨t, ht, ?_, here.symm, rfl⟩
    rw [traced.shape.scopeAt?_eq, found, here, ScopeTree.placeOf_eq found]
  cases item with
  | record within site =>
    obtain ⟨around, surrounds, named⟩ := sits
    obtain ⟨s, hs, found, here, kind⟩ := placed surrounds
    refine .some ⟨rfl, rfl, rfl, rfl, rfl, s, hs, found, here, ?_⟩
    have name := named.name
    rw [kind]
    cases sort : around.kind <;> simp [sort, ScopeKind.Owns] at name ⊢
  | declares within item =>
    rcases sits with field | ⟨around, surrounds, takes⟩
    · obtain ⟨_, fits⟩ := unit.outline_nests.fits _ member
      obtain ⟨around, site, listed, rfl, _⟩ := fits field
      obtain ⟨s, hs, kind, owner⟩ := ScopeTree.build_recordsOpened built around site listed
      have found : tree.scopeAt? (.node site.decl.id) = some s.id :=
        owner ▸ (ScopeTree.build_formed built).scopeOf?_owner hs
      obtain ⟨t, ht, alike⟩ := traced.shape.exists_mem hs
      have sameId : t.id = s.id := congrArg (·.2.1) alike
      have sameKind : t.kind = s.kind := congrArg (·.1.kind) alike
      refine .some ⟨rfl, rfl, rfl, rfl, rfl, t, ht, ?_, ?_, ?_⟩
      · rw [traced.shape.scopeAt?_eq, found, sameId]
      · rw [sameId]
        exact ScopeTree.placeOf_eq found
      · rw [sameKind, kind]
        exact .inl field
    · obtain ⟨s, hs, found, here, kind⟩ := placed surrounds
      refine .some ⟨rfl, rfl, rfl, rfl, rfl, s, hs, found, here, ?_⟩
      rw [kind]
      cases sort : around.kind <;> simp_all [ScopeKind.Takes, ScopeKind.Owns]
  | opens within header span => exact .none
  | uses within inStatic value => exact .none

/-- Listings of one list that are related item by item are related. -/
theorem forall₂_filterMap {α β γ : Type} {R : β → γ → Prop} {f : α → Option β} {g : α → Option γ}
    {xs : List α} (related : ∀ x ∈ xs, Option.Rel R (f x) (g x)) :
    List.Forall₂ R (xs.filterMap f) (xs.filterMap g) := by
  induction xs with
  | nil => exact .nil
  | cons x rest ih =>
    have others := ih fun y hy => related y (List.mem_cons_of_mem _ hy)
    have first := related x List.mem_cons_self
    cases hf : f x <;> cases hg : g x <;> rw [hf, hg] at first
    · rw [List.filterMap_cons_none hf, List.filterMap_cons_none hg]
      exact others
    · cases first
    · cases first
    · obtain ⟨same⟩ := first
      rw [List.filterMap_cons_some hf, List.filterMap_cons_some hg]
      exact .cons same others

/-- Registration loses nothing and duplicates nothing. It makes one entry for each declaring node,
in order, in the scope of the construct that the node belongs to. The name of an entry is bound to
it or is held by an earlier declaration. The reports are, in order, one for each entry whose name is
not bound to it, and the entries are as many as the bindings, receivers left out, and the reports
together. -/
theorem registration_accounts (built : ScopeTree.build unit = .ok tree)
    (registered : registerDeclarations unit tree = .ok state) :
    List.Forall₂ state.tree.Enters unit.declarationSites state.table.entries ∧
    (state.table.entries.map (·.id)).Nodup ∧
    (∀ before d after, state.table.entries = before ++ d :: after →
      ∃ first, state.tree.holder? d.scope d.bindingKind d.name = some first ∧
        (first = d.binding ∧ state.report? d = none ∨
          first.target ≠ d.id ∧ (∃ earlier ∈ before, earlier.id = first.target) ∧
            state.report? d = some ⟨.duplicate d.name first.definedAt, d.span⟩)) ∧
    state.issues = state.table.entries.filterMap state.report? ∧
    state.table.size =
      state.tree.bindings.countP (fun b => !b.kind.isReceiver) + state.issues.length := by
  have accounts := registered_accounts built registered
  refine ⟨?_, registered_entries_nodup built registered, fun before d after split => ?_,
    accounts.issues, accounts.balance⟩
  · rw [registered_entries registered]
    exact forall₂_filterMap fun item member => enters_of_sits built registered member
  · obtain ⟨first, held, origin⟩ := accounts.held before d after split
    refine ⟨first, held, ?_⟩
    rcases origin with rfl | ⟨other, earlier⟩
    · left
      refine ⟨rfl, ?_⟩
      unfold Registration.report?
      simp only [held, if_pos]
    · right
      have different : first ≠ d.binding := fun same => other (congrArg Binding.target same)
      refine ⟨other, earlier, ?_⟩
      unfold Registration.report?
      simp only [held, if_neg different]

/-- A record whose names clash: two fields `x`, a field in the place of the receiver, two locals `v`
and two nested records `B`. -/
def clashingUnit : TranslationUnit :=
  let int : TypeRef := { name := "int" }
  let field (id : UInt32) (name : String) : Field := { id := ⟨id⟩, name, type := int }
  let item (id : UInt32) (name : String) : LocalDecl := { id := ⟨id⟩, name, type := int }
  let empty (id : UInt32) (name : String) : Record := ⟨⟨id⟩, name, none, false, [], [], [], {}⟩
  let clause : CatchClause := ⟨⟨11⟩, item 12 "v", [], ⟨⟨13⟩, [.record (empty 14 "B")], {}⟩, {}⟩
  let body : Block := ⟨⟨7⟩, [.localVar (item 8 "v"), .localVar (item 9 "v"),
    .tryCatch ⟨⟨10⟩, [], {}⟩ [clause] none {}], {}⟩
  let parameter : Parameter := { id := ⟨6⟩, name := "x", type := int }
  { id := ⟨0⟩, name := "Clashing"
    records := [⟨⟨1⟩, "A", none, false, [field 2 "x", field 3 "this", field 4 "x"],
      [⟨⟨5⟩, "m", false, false, [parameter], some body, {}⟩], [empty 15 "B", empty 16 "B"], {}⟩] }

theorem registration_accounts_sample :
    ∃ tree state, ScopeTree.build clashingUnit = .ok tree ∧
      registerDeclarations clashingUnit tree = .ok state ∧
      state.table.entries.map (fun d => (d.id.number, d.scope.index)) =
        [(1, 0), (2, 1), (3, 1), (4, 1), (15, 1), (16, 1), (6, 2), (8, 3), (9, 3), (12, 5),
          (14, 6)] ∧
      (state.table.entries.filter fun d => (state.report? d).isSome).map (·.id.number) =
        [3, 4, 16, 9] ∧
      List.Forall₂ state.tree.Enters clashingUnit.declarationSites state.table.entries ∧
      state.issues = state.table.entries.filterMap state.report? ∧
      state.table.size =
        state.tree.bindings.countP (fun b => !b.kind.isReceiver) + state.issues.length := by
  have ran : (ScopeTree.build clashingUnit).toOption.map (fun tree =>
      (registerDeclarations clashingUnit tree).toOption.map fun state =>
        (state.table.entries.map (fun d => (d.id.number, d.scope.index)),
          (state.table.entries.filter fun d => (state.report? d).isSome).map (·.id.number))) =
      some (some ([(1, 0), (2, 1), (3, 1), (4, 1), (15, 1), (16, 1), (6, 2), (8, 3), (9, 3),
        (12, 5), (14, 6)], [3, 4, 16, 9])) := by
    decide +kernel
  obtain ⟨tree, built, ran⟩ := exists_ok_of_toOption_map ran
  obtain ⟨state, registered, outcome⟩ := exists_ok_of_toOption_map ran
  obtain ⟨scopes, reported⟩ := Prod.mk.inj outcome
  obtain ⟨entered, _, _, issues, balance⟩ := registration_accounts built registered
  exact ⟨tree, state, built, registered, scopes, reported, entered, issues, balance⟩

end NameBinding
