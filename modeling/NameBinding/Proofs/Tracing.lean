import NameBinding.Proofs.Registering

/-!
# Where declarations and bindings come from

The table of a registered unit lists the declarations of its outline, in order. Whatever a scope
binds is traced back: a variable or a record name to an entry of the table that belongs to this
very scope, everything else to the receiver of a record.
-/

namespace NameBinding

namespace ScopeTree

variable {tree later : ScopeTree}

/-- The record name of the scope that a node has opened. -/
def recordNameOf (tree : ScopeTree) (node : NodeId) : Option String :=
  (tree.scopeOf? node).bind fun scope => (tree.scope? scope).bind (·.recordName)

/-- Scopes keep their record names when names are bound. -/
theorem SameShape.recordNameOf_eq (h : tree.SameShape later) (node : NodeId) :
    later.recordNameOf node = tree.recordNameOf node := by
  have byFrame : ∀ (t : ScopeTree) (id : ScopeId), (t.scope? id).bind (·.recordName) =
      ((t.scopes.map frame)[id.index]?).bind (·.1.recordName) := by
    intro t id
    rw [List.getElem?_map, scope?]
    cases t.scopes[id.index]? <;> rfl
  rw [recordNameOf, recordNameOf, h.scopeOf?_eq]
  congr 1
  funext id
  rw [byFrame, byFrame, h.frames]

end ScopeTree

/-- The declaration that a step makes in a tree. -/
def Step.declaration? (tree : ScopeTree) : Step → Option Declaration
  | record within site =>
    some (site.declaration (tree.recordNameOf site.decl.id) (tree.placeOf within))
  | declares within item => some (item.declaration (tree.placeOf within))
  | _ => none

/-- What a step declares depends on the shape of the tree alone. -/
theorem Step.declaration?_sameShape {tree later : ScopeTree} (same : tree.SameShape later)
    (item : Step) : item.declaration? later = item.declaration? tree := by
  cases item with
  | record within site => rw [declaration?, declaration?, same.recordNameOf_eq, same.placeOf_eq]
  | declares within item => rw [declaration?, declaration?, same.placeOf_eq]
  | opens within header span => rfl
  | uses within inStatic value => rfl

/-- The id that a step declares is the id of its declaration. -/
theorem Step.declared?_eq (tree : ScopeTree) (item : Step) :
    item.declared? = (item.declaration? tree).map (·.id) := by
  cases item <;> rfl

namespace Registration

variable {state next : Registration} {item : Step} {outline : List Step}

/-- The ids of the declarations so far. -/
def ids (state : Registration) : List NodeId := state.table.entries.map (·.id)

/-- The table knows nothing under an id exactly if it was not declared. -/
theorem get?_eq_none_iff {id : NodeId} : state.table.get? id = none ↔ id ∉ state.ids := by
  simp [DeclTable.get?, ids]

/-- Receivers are no declarations. -/
theorem bindReceivers_table (state : Registration) (scope : ScopeId) (decl : Record) :
    (state.bindReceivers scope decl).table = state.table := by
  refine bindReceivers_preserves (fun s => s.table = state.table) scope decl ?_ rfl
  intro s binding same
  unfold bindReceiver
  cases s.tree.declare scope binding with
  | ok tree => exact same
  | error first => exact same

/-- A declaration is entered last. -/
theorem declare_table {decl : Declaration} (h : state.declare decl = .ok next) :
    next.table.entries = state.table.entries ++ [decl] := by
  obtain ⟨_, _, ⟨tree, _, rfl⟩ | ⟨first, _, rfl⟩⟩ := declare_eq_ok_iff.mp h <;> rfl

/-- A step adds its declaration to the table. -/
theorem step_entries (h : state.step item = .ok next) :
    next.table.entries = state.table.entries ++ (item.declaration? state.tree).toList := by
  cases item with
  | record within site =>
    obtain ⟨scope, bound, found, declared, rfl⟩ := step_record_eq_ok_iff.mp h
    rw [bindReceivers_table, declare_table declared, Step.declaration?, ScopeTree.recordNameOf,
      found]
    rfl
  | opens within header span =>
    rw [eq_of_step_opens h]
    exact (List.append_nil _).symm
  | declares within item =>
    rw [declare_table h]
    rfl
  | uses within inStatic value =>
    cases h
    exact (List.append_nil _).symm

/-- The table lists the declarations of the outline, in order. -/
theorem steps_entries (h : state.steps outline = .ok next) :
    next.table.entries =
      state.table.entries ++ outline.filterMap (Step.declaration? state.tree) := by
  induction outline generalizing state with
  | nil =>
    cases h
    exact (List.append_nil _).symm
  | cons item rest ih =>
    rw [steps_cons] at h
    obtain ⟨middle, taken, h⟩ := bind_eq_ok_iff.mp h
    have sameDeclarations : Step.declaration? middle.tree = Step.declaration? state.tree :=
      funext (Step.declaration?_sameShape (step_sameShape taken))
    rw [ih h, step_entries taken, sameDeclarations, List.append_assoc]
    cases declares : item.declaration? state.tree <;> simp [declares]

/-- A step adds the id that it declares. -/
theorem step_ids (h : state.step item = .ok next) :
    next.ids = state.ids ++ item.declared?.toList := by
  rw [ids, step_entries h, List.map_append, Step.declared?_eq state.tree]
  cases item.declaration? state.tree <;> rfl

/-! ### Bindings -/

/-- The binding of a receiver: it stands for a record that has a scope in the tree. -/
def IsReceiver (tree : ScopeTree) (b : Binding) : Prop :=
  b.kind.isReceiver = true ∧ ∃ s ∈ tree.scopes, s.kind = .record ∧ s.owner = b.target

/-- A binding in a scope comes from a declaration that belongs to this scope, or it is that of a
receiver. -/
def Origin (base : ScopeTree) (entries : List Declaration) (scope : ScopeId) (b : Binding) : Prop :=
  IsReceiver base b ∨ ∃ d ∈ entries, d.binding = b ∧ d.scope = scope

/-- A binding comes from where it came from, whatever is declared later. -/
theorem Origin.mono {base : ScopeTree} {entries more : List Declaration} {scope : ScopeId}
    {b : Binding} (h : Origin base entries scope b) (grown : entries ⊆ more) :
    Origin base more scope b :=
  h.imp_right fun ⟨d, hd, rest⟩ => ⟨d, grown hd, rest⟩

/-- Everything that has been bound in the scopes of a tree is traced back. -/
structure Traced (base : ScopeTree) (state : Registration) : Prop where
  shape : base.SameShape state.tree
  formed : state.tree.Formed
  vars : ∀ t ∈ state.tree.scopes, ∀ b ∈ t.vars,
    b.kind ≠ .record ∧ Origin base state.table.entries t.id b
  types : ∀ t ∈ state.tree.scopes, ∀ b ∈ t.types,
    b.kind = .record ∧ Origin base state.table.entries t.id b

namespace Traced

variable {base : ScopeTree} {scope : ScopeId} {binding : Binding}

/-- What is traced stays traced when further declarations are recorded. -/
theorem kept (h : Traced base state) (same : next.tree = state.tree)
    (grown : state.table.entries ⊆ next.table.entries) : Traced base next where
  shape := same ▸ h.shape
  formed := same ▸ h.formed
  vars t ht b hb := (h.vars t (same ▸ ht) b hb).imp_right (·.mono grown)
  types t ht b hb := (h.types t (same ▸ ht) b hb).imp_right (·.mono grown)

/-- What is traced stays traced when one more name is bound whose origin is known. -/
theorem bound (h : Traced base state) (took : state.tree.declare scope binding = .ok next.tree)
    (grown : state.table.entries ⊆ next.table.entries)
    (origin : Origin base next.table.entries scope binding) : Traced base next where
  shape := h.shape.trans (ScopeTree.declare_sameShape took)
  formed := (ScopeTree.declare_sameShape took).formed h.formed
  vars t ht b hb := by
    obtain ⟨s, hs, same, rfl | ⟨here, rfl⟩⟩ := h.formed.mem_of_declare took ht
    · exact (h.vars t hs b hb).imp_right (·.mono grown)
    · have sameId : (s.bind binding).id = s.id := congrArg (·.2.1) same
      rw [sameId]
      rcases ScopeTree.mem_vars_bind hb with hb | ⟨rfl, kind⟩
      · exact (h.vars s hs b hb).imp_right (·.mono grown)
      · exact ⟨kind, here ▸ origin⟩
  types t ht b hb := by
    obtain ⟨s, hs, same, rfl | ⟨here, rfl⟩⟩ := h.formed.mem_of_declare took ht
    · exact (h.types t hs b hb).imp_right (·.mono grown)
    · have sameId : (s.bind binding).id = s.id := congrArg (·.2.1) same
      rw [sameId]
      rcases ScopeTree.mem_types_bind hb with hb | ⟨rfl, kind⟩
      · exact (h.types s hs b hb).imp_right (·.mono grown)
      · exact ⟨kind, here ▸ origin⟩

/-- Recording a declaration leaves everything traced. -/
theorem declare {decl : Declaration} (h : Traced base state)
    (taken : state.declare decl = .ok next) : Traced base next := by
  have entries := declare_table taken
  have grown : state.table.entries ⊆ next.table.entries :=
    entries ▸ List.subset_append_left _ _
  have new : decl ∈ next.table.entries :=
    entries ▸ List.mem_append_right _ (List.mem_singleton_self _)
  obtain ⟨_, _, ⟨tree, took, rfl⟩ | ⟨first, _, rfl⟩⟩ := declare_eq_ok_iff.mp taken
  · exact h.bound took grown (.inr ⟨decl, new, rfl, rfl⟩)
  · exact h.kept rfl grown

/-- Binding a receiver leaves everything traced. -/
theorem bindReceiver (h : Traced base state) (receiver : IsReceiver base binding) :
    Traced base (state.bindReceiver scope binding) := by
  unfold Registration.bindReceiver
  cases took : state.tree.declare scope binding with
  | ok tree => exact h.bound took (List.Subset.refl _) (.inl receiver)
  | error first => exact h

end Traced

/-- The outer records of a record have scopes around it. -/
theorem exists_of_mem_reachableOuters {owner : NodeId} {scopes : List Scope}
    (h : owner ∈ reachableOuters scopes) : ∃ s ∈ scopes, s.kind = .record ∧ s.owner = owner := by
  induction scopes with
  | nil => simp [reachableOuters] at h
  | cons s rest ih =>
    have further : owner ∈ reachableOuters rest →
        ∃ t ∈ s :: rest, t.kind = .record ∧ t.owner = owner := by
      intro member
      obtain ⟨t, ht, found⟩ := ih member
      exact ⟨t, List.mem_cons_of_mem _ ht, found⟩
    unfold reachableOuters at h
    split at h
    · split at h
      · simp at h
      · exact further h
    · rename_i kind
      rcases List.mem_cons.mp h with rfl | h
      · exact ⟨s, List.mem_cons_self, kind, rfl⟩
      · split at h
        · simp at h
        · exact further h
    · exact further h

/-- Binding the receivers of a record leaves everything traced. -/
theorem Traced.bindReceivers {base : ScopeTree} {scope : ScopeId} {decl : Record}
    (h : Traced base state) (own : ∃ s ∈ base.scopes, s.kind = .record ∧ s.owner = decl.id) :
    Traced base (state.bindReceivers scope decl) := by
  have outer : ∀ owner ∈ reachableOuters (state.tree.chain scope).tail,
      ∀ b ∈ state.outerReceiver? owner, IsReceiver base b := by
    intro owner member b hb
    obtain ⟨d, _, rfl⟩ := Option.map_eq_some_iff.mp hb
    obtain ⟨s, hs, kind, same⟩ := exists_of_mem_reachableOuters member
    obtain ⟨t, ht, alike⟩ :=
      h.shape.symm.exists_mem (ScopeTree.mem_of_mem_chain (List.mem_of_mem_tail hs))
    have header : t.toScopeHeader = s.toScopeHeader := congrArg (·.1) alike
    have sameKind : t.kind = s.kind := congrArg ScopeHeader.kind header
    have sameOwner : t.owner = s.owner := congrArg ScopeHeader.owner header
    exact ⟨rfl, t, ht, sameKind.trans kind, sameOwner.trans same⟩
  refine List.foldlRecOn _ _ h fun s traced binding member => traced.bindReceiver ?_
  rcases List.mem_cons.mp member with rfl | member
  · exact ⟨rfl, own⟩
  · obtain ⟨owner, listed, hb⟩ := List.mem_filterMap.mp member
    split at listed
    · simp at listed
    · exact outer owner listed binding hb

/-- The records among the steps have opened record scopes. -/
def RecordsOpened (tree : ScopeTree) (outline : List Step) : Prop :=
  ∀ within site, .record within site ∈ outline →
    ∃ s ∈ tree.scopes, s.kind = .record ∧ s.owner = site.decl.id

/-- A registered outline leaves everything traced. -/
theorem steps_traced {base : ScopeTree} (opened : RecordsOpened base outline)
    (h : Traced base state) (run : state.steps outline = .ok next) : Traced base next := by
  refine foldlM_preserves (Traced base) ?_ h run
  intro s traced item member t taken
  cases item with
  | record within site =>
    obtain ⟨scope, bound, _, declared, rfl⟩ := step_record_eq_ok_iff.mp taken
    exact (traced.declare declared).bindReceivers (opened within site member)
  | opens within header span => exact eq_of_step_opens taken ▸ traced
  | declares within item => exact traced.declare taken
  | uses within inStatic value =>
    cases taken
    exact traced

end Registration

end NameBinding
