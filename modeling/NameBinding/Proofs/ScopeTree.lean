import NameBinding.Proofs.KeyedLists
import NameBinding.Scope.Tree

/-!
# The shape of a scope tree

A tree that grows by opening scopes stays formed: ids are positions, parents come first, and a
node opens one scope at most. In a formed tree a scope is found by its id and by its owner, the
chain of a scope runs outwards to the scope of the unit, and opening further scopes disturbs
none of this. Binding names changes what scopes hold, never the shape of the tree.
-/

namespace NameBinding

namespace ScopeTree

variable {tree later : ScopeTree} {id parent : ScopeId} {node : NodeId} {s : Scope}
  {header : ScopeHeader}

/-- The invariant of every tree that is built by opening scopes. -/
structure Formed (tree : ScopeTree) : Prop where
  /-- The scope of the unit is always there. -/
  nonempty : tree.scopes ≠ []
  /-- Ids are positions. -/
  id_eq : ∀ {i : Nat} {s : Scope}, tree.scopes[i]? = some s → s.id = ⟨i⟩
  /-- A parent is opened before the scopes inside it. -/
  parent_lt : ∀ {i : Nat} {s : Scope} {p : ScopeId},
    tree.scopes[i]? = some s → s.parent = some p → p.index < i
  /-- Only the scope of the unit has no parent. -/
  parent_none : ∀ {i : Nat} {s : Scope},
    tree.scopes[i]? = some s → (s.parent = none ↔ i = 0)
  /-- A node opens one scope at most. -/
  owners : (tree.scopes.map (·.owner)).Nodup
  /-- The table of nodes leads to the scopes that they have opened. -/
  opened_eq : tree.opened = tree.scopes.map fun s => (s.owner, s.id)

/-- The scope that a construct opens inside `parent` as the next scope of the tree. -/
def nextScope (tree : ScopeTree) (parent : ScopeId) (header : ScopeHeader) : Scope :=
  { header with id := ⟨tree.size⟩, parent := some parent }

/-- The tree with one more scope inside `parent`. -/
def push (tree : ScopeTree) (parent : ScopeId) (header : ScopeHeader) : ScopeTree :=
  { scopes := tree.scopes ++ [tree.nextScope parent header]
    inside := tree.inside.modify parent.index (· ++ [⟨tree.size⟩]) ++ [[]]
    opened := tree.opened ++ [(header.owner, ⟨tree.size⟩)] }

/-- Opening a scope pushes it, unless its node has opened one before. -/
theorem addScope_eq (tree : ScopeTree) (parent : ScopeId) (header : ScopeHeader) :
    tree.addScope parent header =
      match tree.scopeOf? header.owner with
      | some existing => .error existing
      | none => .ok (tree.push parent header, ⟨tree.size⟩) := by
  unfold addScope
  cases tree.scopeOf? header.owner <;> rfl

/-- A scope that is found by its id is one of the tree. -/
theorem mem_of_scope? (hs : tree.scope? id = some s) : s ∈ tree.scopes :=
  List.mem_of_getElem? hs

/-- An id under which a scope is found lies in the range of the tree. -/
theorem index_lt_of_scope? (hs : tree.scope? id = some s) : id.index < tree.size :=
  (List.getElem?_eq_some_iff.mp hs).1

/-- The scopes after a push are those before it and the next one. -/
theorem getElem?_push {i : Nat} :
    (tree.push parent header).scopes[i]? = some s ↔
      tree.scopes[i]? = some s ∨ i = tree.size ∧ s = tree.nextScope parent header := by
  simp only [push, List.getElem?_append, List.getElem?_singleton, size]
  split
  · rename_i hi
    constructor
    · exact Or.inl
    · rintro (old | ⟨rfl, _⟩)
      · exact old
      · omega
  · rename_i hi
    rw [List.getElem?_eq_none (by omega)]
    split
    · rename_i hz
      have : i = tree.scopes.length := by omega
      simp [this, eq_comm]
    · rename_i hz
      have : i ≠ tree.scopes.length := by omega
      simp [this]

/-- The pushed scope is found under the next id. -/
theorem scope?_push : (tree.push parent header).scope? ⟨tree.size⟩ =
    some (tree.nextScope parent header) :=
  getElem?_push.mpr (.inr ⟨rfl, rfl⟩)

namespace Formed

/-- In a formed tree the scope of a node is the scope with that owner. -/
theorem scopeOf?_eq_find? (formed : tree.Formed) (node : NodeId) :
    tree.scopeOf? node = (tree.scopes.find? (·.owner == node)).map (·.id) := by
  rw [scopeOf?, formed.opened_eq, List.find?_map, Option.map_map]
  rfl

/-- A node has opened no scope when no scope of the tree is its own. -/
theorem scopeOf?_eq_none_iff (formed : tree.Formed) :
    tree.scopeOf? node = none ↔ ∀ s ∈ tree.scopes, s.owner ≠ node := by
  simp [formed.scopeOf?_eq_find?]

/-- The scope that a node is found to have opened is a scope of the tree with that owner. -/
theorem exists_of_scopeOf? (formed : tree.Formed) (h : tree.scopeOf? node = some id) :
    ∃ s ∈ tree.scopes, s.owner = node ∧ s.id = id := by
  rw [formed.scopeOf?_eq_find?] at h
  obtain ⟨s, found, same⟩ := Option.map_eq_some_iff.mp h
  obtain ⟨member, owner⟩ := of_find?_key found
  exact ⟨s, member, owner, same⟩

/-- A scope of a formed tree is found by its id. -/
theorem scope?_id (formed : tree.Formed) (hs : s ∈ tree.scopes) : tree.scope? s.id = some s := by
  obtain ⟨i, hi⟩ := List.mem_iff_getElem?.mp hs
  rw [formed.id_eq hi]
  exact hi

/-- In a formed tree a scope is known by its id. -/
theorem eq_of_id (formed : tree.Formed) {t : Scope} (hs : s ∈ tree.scopes) (ht : t ∈ tree.scopes)
    (same : s.id = t.id) : s = t := by
  have found := formed.scope?_id hs
  rw [same, formed.scope?_id ht] at found
  exact (Option.some.inj found).symm

/-- In a formed tree a scope is known by its owner. -/
theorem eq_of_owner (formed : tree.Formed) {t : Scope} (hs : s ∈ tree.scopes)
    (ht : t ∈ tree.scopes) (same : s.owner = t.owner) : s = t :=
  List.inj_on_of_nodup_map formed.owners hs ht same

/-- A formed tree is not empty. -/
theorem size_pos (formed : tree.Formed) : 0 < tree.size :=
  List.length_pos_iff.mpr formed.nonempty

/-- A formed tree finds the scope that a node has opened. -/
theorem scopeOf?_owner (formed : tree.Formed) (hs : s ∈ tree.scopes) :
    tree.scopeOf? s.owner = some s.id := by
  rw [formed.scopeOf?_eq_find?, find?_key (·.owner) formed.owners hs, Option.map_some]

/-- The scope that a node has opened is there under its id. -/
theorem scope?_of_scopeOf? (formed : tree.Formed) (h : tree.scopeOf? node = some id) :
    ∃ s, tree.scope? id = some s ∧ s.owner = node := by
  obtain ⟨s, hs, owner, rfl⟩ := formed.exists_of_scopeOf? h
  exact ⟨s, formed.scope?_id hs, owner⟩

/-- Opening a scope for a new node inside a scope of the tree keeps the tree formed. -/
theorem push (formed : tree.Formed) (hp : parent.index < tree.size)
    (fresh : tree.scopeOf? header.owner = none) : (tree.push parent header).Formed where
  nonempty := by simp [ScopeTree.push]
  id_eq {i s} hi := by
    rcases getElem?_push.mp hi with old | ⟨rfl, rfl⟩
    · exact formed.id_eq old
    · rfl
  parent_lt {i s p} hi hparent := by
    rcases getElem?_push.mp hi with old | ⟨rfl, rfl⟩
    · exact formed.parent_lt old hparent
    · cases hparent
      exact hp
  parent_none {i s} hi := by
    rcases getElem?_push.mp hi with old | ⟨rfl, rfl⟩
    · exact formed.parent_none old
    · have := formed.size_pos
      simp only [nextScope, reduceCtorEq, false_iff]
      omega
  owners := by
    have other := formed.scopeOf?_eq_none_iff.mp fresh
    simp only [ScopeTree.push, List.map_append, List.map_cons, List.map_nil]
    refine List.nodup_append.mpr ⟨formed.owners, List.nodup_singleton _, ?_⟩
    intro owner hs last hl
    obtain ⟨t, ht, rfl⟩ := List.mem_map.mp hs
    rw [List.mem_singleton.mp hl]
    exact other t ht
  opened_eq := by
    simp [ScopeTree.push, formed.opened_eq, nextScope]

end Formed

/-- The tree of a unit starts with the scope of the unit and nothing else. -/
theorem getElem?_ofUnit {unit : NodeId} {i : Nat} (h : (ofUnit unit).scopes[i]? = some s) :
    i = 0 ∧ s = { kind := .global, owner := unit, id := .global, parent := none } := by
  simpa [ofUnit, List.getElem?_singleton, eq_comm] using h

/-- The tree that holds only the scope of the unit is formed. -/
theorem ofUnit_formed (unit : NodeId) : (ofUnit unit).Formed where
  nonempty := by simp [ofUnit]
  id_eq {i s} hi := by
    obtain ⟨rfl, rfl⟩ := getElem?_ofUnit hi
    rfl
  parent_lt {i s p} hi hparent := by
    obtain ⟨rfl, rfl⟩ := getElem?_ofUnit hi
    cases hparent
  parent_none {i s} hi := by
    obtain ⟨rfl, rfl⟩ := getElem?_ofUnit hi
    simp
  owners := by simp [ofUnit]
  opened_eq := rfl

/-! ### Growing trees -/

/-- Further scopes have been opened. -/
structure GrowsTo (tree later : ScopeTree) : Prop where
  /-- The scopes are still there. -/
  scopes : tree.scopes <+: later.scopes
  /-- The nodes still have their scopes. -/
  opened : tree.opened <+: later.opened

/-- A tree grows to itself. -/
theorem GrowsTo.refl (tree : ScopeTree) : tree.GrowsTo tree :=
  ⟨List.prefix_rfl, List.prefix_rfl⟩

/-- What grows in two stages grows. -/
theorem GrowsTo.trans {last : ScopeTree} (h : tree.GrowsTo later) (h' : later.GrowsTo last) :
    tree.GrowsTo last :=
  ⟨h.scopes.trans h'.scopes, h.opened.trans h'.opened⟩

/-- A tree grows when a scope is opened. -/
theorem growsTo_push : tree.GrowsTo (tree.push parent header) :=
  ⟨List.prefix_append _ _, List.prefix_append _ _⟩

/-- A scope stays where it is when further scopes are opened. -/
theorem scope?_of_grown (grown : tree.GrowsTo later) (hs : tree.scope? id = some s) :
    later.scope? id = some s := by
  obtain ⟨more, hmore⟩ := grown.scopes
  rw [scope?, ← hmore, List.getElem?_append_left (index_lt_of_scope? hs)]
  exact hs

/-- A node keeps the scope it has opened when further scopes are opened. -/
theorem scopeOf?_of_grown (grown : tree.GrowsTo later)
    (h : tree.scopeOf? node = some id) : later.scopeOf? node = some id := by
  obtain ⟨s, found, rfl⟩ := Option.map_eq_some_iff.mp h
  obtain ⟨more, hmore⟩ := grown.opened
  simp [scopeOf?, ← hmore, List.find?_append, found]

/-! ### Chains -/

namespace Formed

/-- The scope of the unit ends every chain. -/
theorem chain_of_parent_none (hs : tree.scope? id = some s) (hp : s.parent = none) :
    tree.chain id = [s] := by
  rw [chain, hs]
  simp [hp]

/-- A chain goes on with the chain of the parent. -/
theorem chain_of_parent (formed : tree.Formed) (hs : tree.scope? id = some s)
    (hp : s.parent = some parent) : tree.chain id = s :: tree.chain parent := by
  rw [chain, hs]
  simp [hp, formed.parent_lt hs hp]

end Formed

/-- A chain holds scopes of the tree only. -/
theorem mem_of_mem_chain (h : s ∈ tree.chain id) : s ∈ tree.scopes := by
  fun_induction chain tree id with
  | case1 => simp at h
  | case2 id t ht => 
    rw [List.mem_singleton.mp h]
    exact mem_of_scope? ht
  | case3 id t ht parent hp lt ih =>
    rcases List.mem_cons.mp h with rfl | h
    · exact mem_of_scope? ht
    · exact ih h
  | case4 id t ht =>
    rw [List.mem_singleton.mp h]
    exact mem_of_scope? ht

/-- The parent of a scope of a formed tree is there. -/
theorem Formed.scope?_parent (formed : tree.Formed) (hs : tree.scope? id = some s)
    (hp : s.parent = some parent) : ∃ t, tree.scope? parent = some t := by
  have hlt := formed.parent_lt hs hp
  have hid := index_lt_of_scope? hs
  exact ⟨_, List.getElem?_eq_getElem (Nat.lt_trans hlt hid)⟩

/-- What holds of a scope without parent and goes over from parents to the scopes inside them
holds of all scopes. -/
theorem Formed.outward_induction (formed : tree.Formed) {P : Scope → Prop}
    (top : ∀ s ∈ tree.scopes, s.parent = none → P s)
    (inside : ∀ s ∈ tree.scopes, ∀ p ∈ tree.scopes, s.parent = some p.id → P p → P s) :
    ∀ s ∈ tree.scopes, P s := by
  intro s hs
  generalize position : s.id.index = n
  induction n using Nat.strongRecOn generalizing s with
  | ind n ih =>
    have here := formed.scope?_id hs
    cases hp : s.parent with
    | none => exact top s hs hp
    | some parent =>
      obtain ⟨p, found⟩ := formed.scope?_parent here hp
      have sameId : p.id = parent := formed.id_eq found
      have before : parent.index < s.id.index := formed.parent_lt here hp
      have earlier : p.id.index < n := by
        rw [sameId]
        omega
      have member := mem_of_scope? found
      exact inside s hs p member (sameId ▸ hp) (ih p.id.index earlier p member rfl)

/-- No scope of a chain comes after the one where the chain starts. -/
theorem Formed.index_le_of_mem_chain (formed : tree.Formed) (hs : s ∈ tree.scopes) :
    ∀ t ∈ tree.chain s.id, t.id.index ≤ s.id.index := by
  refine formed.outward_induction (P := fun s => ∀ t ∈ tree.chain s.id, t.id.index ≤ s.id.index)
    ?_ ?_ s hs
  · intro s hs hp t ht
    rw [chain_of_parent_none (formed.scope?_id hs) hp] at ht
    exact Nat.le_of_eq (by rw [List.mem_singleton.mp ht])
  · intro s hs p _ hp ih t ht
    rw [formed.chain_of_parent (formed.scope?_id hs) hp] at ht
    rcases List.mem_cons.mp ht with rfl | ht
    · exact Nat.le_refl _
    · have before : p.id.index < s.id.index := formed.parent_lt (formed.scope?_id hs) hp
      have further := ih t ht
      omega

/-- From a scope of a chain on, the chain is that of this scope. -/
theorem Formed.chain_of_split (formed : tree.Formed) (hs : s ∈ tree.scopes) {t : Scope}
    {before after : List Scope} (split : tree.chain s.id = before ++ t :: after) :
    tree.chain t.id = t :: after := by
  refine formed.outward_induction (P := fun s => ∀ before,
    tree.chain s.id = before ++ t :: after → tree.chain t.id = t :: after) ?_ ?_ s hs before split
  · intro s hs hp before split
    have own := chain_of_parent_none (formed.scope?_id hs) hp
    cases before with
    | nil =>
      rw [own] at split
      cases split
      exact own
    | cons first rest =>
      rw [own] at split
      simp at split
  · intro s hs p _ hp ih before split
    have own := formed.chain_of_parent (formed.scope?_id hs) hp
    cases before with
    | nil =>
      rw [own] at split
      cases split
      exact own
    | cons first rest =>
      rw [own] at split
      exact ih rest (List.cons.inj split).2

/-- A chain starts at a scope of the tree. -/
theorem Formed.exists_of_mem_chain (formed : tree.Formed) (h : s ∈ tree.chain id) :
    ∃ start ∈ tree.scopes, start.id = id := by
  unfold chain at h
  cases found : tree.scope? id with
  | none => simp [found] at h
  | some start => exact ⟨start, mem_of_scope? found, formed.id_eq found⟩

/-- A chain starts with the scope whose chain it is. -/
theorem Formed.exists_chain_self (formed : tree.Formed) (hs : s ∈ tree.scopes) :
    ∃ around, tree.chain s.id = s :: around := by
  cases hp : s.parent with
  | none => exact ⟨[], chain_of_parent_none (formed.scope?_id hs) hp⟩
  | some parent => exact ⟨_, formed.chain_of_parent (formed.scope?_id hs) hp⟩

/-- A scope is on its own chain. -/
theorem Formed.mem_chain_self (formed : tree.Formed) (hs : s ∈ tree.scopes) :
    s ∈ tree.chain s.id := by
  obtain ⟨around, chain⟩ := formed.exists_chain_self hs
  rw [chain]
  exact List.mem_cons_self

/-- A scope stands in a chain only once. -/
theorem Formed.chain_nodup (formed : tree.Formed) (hs : s ∈ tree.scopes) :
    ((tree.chain s.id).map (·.id)).Nodup := by
  refine formed.outward_induction (P := fun s => ((tree.chain s.id).map (·.id)).Nodup)
    ?_ ?_ s hs
  · intro s hs hp
    rw [chain_of_parent_none (formed.scope?_id hs) hp]
    exact List.nodup_singleton _
  · intro s hs p hp parent ih
    rw [formed.chain_of_parent (formed.scope?_id hs) parent, List.map_cons, List.nodup_cons]
    refine ⟨fun again => ?_, ih⟩
    obtain ⟨t, ht, same⟩ := List.mem_map.mp again
    have before : p.id.index < s.id.index := formed.parent_lt (formed.scope?_id hs) parent
    have further := formed.index_le_of_mem_chain hp t ht
    rw [same] at further
    omega

section split

variable {t : Scope} {before after : List Scope}

/-- No scope of a chain before one of its scopes has the id of this one. -/
theorem Formed.ne_of_split (formed : tree.Formed) (split : tree.chain id = before ++ t :: after) :
    ∀ s ∈ before, s.id ≠ t.id := by
  intro s hs same
  have inChain : t ∈ tree.chain id := split ▸ List.mem_append_right _ List.mem_cons_self
  obtain ⟨start, member, rfl⟩ := formed.exists_of_mem_chain inChain
  have distinct := formed.chain_nodup member
  rw [split, List.map_append, List.map_cons, List.nodup_append] at distinct
  exact distinct.2.2 s.id (List.mem_map_of_mem hs) t.id List.mem_cons_self same

/-- The scopes of a chain up to one of them. -/
theorem Formed.takeWhile_chain (formed : tree.Formed)
    (split : tree.chain id = before ++ t :: after) :
    (tree.chain id).takeWhile (·.id != t.id) = before := by
  have others : ∀ s ∈ before, (s.id != t.id) = true :=
    fun s hs => bne_iff_ne.mpr (formed.ne_of_split split s hs)
  rw [split, List.takeWhile_append_of_pos others, List.takeWhile_cons_of_neg (by simp),
    List.append_nil]

/-- A record scope of a chain is the innermost one exactly if no record scope comes before. -/
theorem Formed.enclosingRecord?_of_split (formed : tree.Formed)
    (split : tree.chain id = before ++ t :: after) (record : t.kind = .record) :
    tree.enclosingRecord? id = some t.id ↔ before.countP (·.kind == .record) = 0 := by
  rw [enclosingRecord?, split, List.find?_append, List.find?_cons_of_pos (by simp [record])]
  cases first : before.find? (·.kind == .record) with
  | none => simpa [List.countP_eq_zero] using first
  | some s =>
    have hs : s ∈ before := List.mem_of_find?_eq_some first
    have isRecord := List.find?_some first
    have other := formed.ne_of_split split s hs
    have counted : before.countP (·.kind == .record) ≠ 0 :=
      Nat.pos_iff_ne_zero.mp (List.countP_pos_iff.mpr ⟨s, hs, isRecord⟩)
    simp [other, counted]

end split

/-- The chain of a scope is settled when the scope is opened. -/
theorem Formed.chain_of_grown (formed : tree.Formed) (grown : tree.GrowsTo later)
    (hs : tree.scope? id = some s) : later.chain id = tree.chain id := by
  fun_induction chain tree id generalizing s with
  | case1 id missing =>
    rw [missing] at hs
    cases hs
  | case2 id t ht hp =>
    exact chain_of_parent_none (scope?_of_grown grown ht) hp
  | case3 id t ht parent hp lt ih =>
    obtain ⟨u, hu⟩ := formed.scope?_parent ht hp
    rw [chain, scope?_of_grown grown ht]
    simp only [hp, if_pos lt, ih hu]
  | case4 id t ht parent hp notLt =>
    exact absurd (formed.parent_lt ht hp) notLt

/-! ### Binding names -/

/-- What is known of a scope apart from the names bound in it. -/
def frame (s : Scope) : ScopeHeader × ScopeId × Option ScopeId := (s.toScopeHeader, s.id, s.parent)

/-- The trees have the same scopes, apart from the names bound in them. -/
structure SameShape (tree later : ScopeTree) : Prop where
  frames : later.scopes.map frame = tree.scopes.map frame
  inside : later.inside = tree.inside
  opened : later.opened = tree.opened

namespace SameShape

/-- A tree has the shape that it has. -/
theorem refl (tree : ScopeTree) : tree.SameShape tree := ⟨rfl, rfl, rfl⟩

/-- Sameness of shape can be turned around. -/
theorem symm (h : tree.SameShape later) : later.SameShape tree :=
  ⟨h.frames.symm, h.inside.symm, h.opened.symm⟩

/-- Trees of the same shape as a third one have the same shape. -/
theorem trans {last : ScopeTree} (h : tree.SameShape later) (h' : later.SameShape last) :
    tree.SameShape last :=
  ⟨h'.frames.trans h.frames, h'.inside.trans h.inside, h'.opened.trans h.opened⟩

/-- Trees of the same shape have as many scopes. -/
theorem size_eq (h : tree.SameShape later) : later.size = tree.size := by
  simpa [size] using congrArg List.length h.frames

/-- Each scope has its counterpart at the same position. -/
theorem getElem? (h : tree.SameShape later) {i : Nat} (hs : tree.scopes[i]? = some s) :
    ∃ t, later.scopes[i]? = some t ∧ frame t = frame s := by
  have same : (later.scopes[i]?).map frame = some (frame s) := by
    rw [← List.getElem?_map, h.frames, List.getElem?_map, hs]
    rfl
  exact Option.map_eq_some_iff.mp same

/-- Nodes own the same scopes. -/
theorem scopeOf?_eq (h : tree.SameShape later) (node : NodeId) :
    later.scopeOf? node = tree.scopeOf? node := by
  rw [scopeOf?, scopeOf?, h.opened]

/-- The trees keep the same shape invariant. -/
theorem formed (h : tree.SameShape later) (formed : tree.Formed) : later.Formed where
  nonempty := by
    intro empty
    have size := h.size_eq
    have pos := formed.size_pos
    simp only [ScopeTree.size, empty, List.length_nil] at size pos
    omega
  id_eq {i s} hs := by
    obtain ⟨t, ht, same⟩ := h.symm.getElem? hs
    rw [← formed.id_eq ht]
    exact (congrArg (·.2.1) same).symm
  parent_lt {i s p} hs hp := by
    obtain ⟨t, ht, same⟩ := h.symm.getElem? hs
    exact formed.parent_lt ht ((congrArg (·.2.2) same).trans hp)
  parent_none {i s} hs := by
    obtain ⟨t, ht, same⟩ := h.symm.getElem? hs
    rw [← formed.parent_none ht]
    exact Eq.congr_left (congrArg (·.2.2) same).symm
  owners := by
    have byFrame : ∀ t : ScopeTree, t.scopes.map (·.owner) =
        (t.scopes.map frame).map (·.1.owner) := by
      intro t
      rw [List.map_map]
      rfl
    rw [byFrame, h.frames, ← byFrame]
    exact formed.owners
  opened_eq := by
    have byFrame : ∀ t : ScopeTree, (t.scopes.map fun s => (s.owner, s.id)) =
        (t.scopes.map frame).map fun f => (f.1.owner, f.2.1) := by
      intro t
      rw [List.map_map]
      rfl
    rw [h.opened, byFrame, h.frames, ← byFrame]
    exact formed.opened_eq

/-- Chains run through the same scopes. -/
theorem chain (h : tree.SameShape later) (id : ScopeId) :
    (later.chain id).map frame = (tree.chain id).map frame := by
  fun_induction ScopeTree.chain tree id with
  | case1 id missing =>
    have gone : later.scope? id = none := by
      rw [scope?, List.getElem?_eq_none_iff] at missing ⊢
      exact Nat.le_trans (Nat.le_of_eq h.size_eq) missing
    rw [ScopeTree.chain, gone]
  | case2 id s hs hp =>
    obtain ⟨t, ht, same⟩ := h.getElem? hs
    have parent : t.parent = none := (congrArg (·.2.2) same).trans hp
    rw [Formed.chain_of_parent_none ht parent]
    simp [same]
  | case3 id s hs p hp lt ih =>
    obtain ⟨t, ht, same⟩ := h.getElem? hs
    have parent : t.parent = some p := (congrArg (·.2.2) same).trans hp
    rw [ScopeTree.chain, show later.scope? id = some t from ht]
    simp only [parent, if_pos lt, List.map_cons, same, ih]
  | case4 id s hs p hp notLt =>
    obtain ⟨t, ht, same⟩ := h.getElem? hs
    have parent : t.parent = some p := (congrArg (·.2.2) same).trans hp
    rw [ScopeTree.chain, show later.scope? id = some t from ht]
    simp [parent, if_neg notLt, same]

end SameShape

/-- Binding a name leaves the frame of a scope. -/
theorem frame_bind (s : Scope) (binding : Binding) : frame (s.bind binding) = frame s := by
  unfold Scope.bind
  split <;> rfl

/-- A name is bound by adding it to the scope, unless it is held there. -/
theorem declare_eq_ok_iff {binding : Binding} :
    tree.declare id binding = .ok later ↔
      (tree.scope? id).bind (·.holder? binding.kind binding.name) = none ∧
        later = { tree with scopes := tree.scopes.modify id.index (·.bind binding) } := by
  unfold declare
  cases (tree.scope? id).bind (·.holder? binding.kind binding.name) with
  | some existing => simp
  | none => simp [eq_comm]

/-- Binding a name keeps the shape of the tree. -/
theorem declare_sameShape {binding : Binding} (h : tree.declare id binding = .ok later) :
    tree.SameShape later := by
  obtain ⟨_, rfl⟩ := declare_eq_ok_iff.mp h
  refine ⟨List.ext_getElem? ?_, rfl, rfl⟩
  intro i
  simp only [List.getElem?_map, List.getElem?_modify]
  split
  · cases tree.scopes[i]? <;> simp [frame_bind]
  · simp

/-- After a name is bound, the scopes are those before, but for the one that binds it now. -/
theorem Formed.mem_of_declare (formed : tree.Formed) {binding : Binding}
    (h : tree.declare id binding = .ok later) {t : Scope} (ht : t ∈ later.scopes) :
    ∃ s ∈ tree.scopes, frame t = frame s ∧ (t = s ∨ s.id = id ∧ t = s.bind binding) := by
  obtain ⟨_, rfl⟩ := declare_eq_ok_iff.mp h
  obtain ⟨i, hi⟩ := List.mem_iff_getElem?.mp ht
  rw [List.getElem?_modify] at hi
  obtain ⟨s, hs, rfl⟩ := Option.map_eq_some_iff.mp hi
  refine ⟨s, List.mem_of_getElem? hs, ?_⟩
  split
  · rename_i same
    refine ⟨frame_bind s binding, .inr ⟨?_, rfl⟩⟩
    rw [formed.id_eq hs, ← same]
  · exact ⟨rfl, .inl rfl⟩

/-- A variable of a scope in which something was bound was there before, or it was bound. -/
theorem mem_vars_bind {binding b : Binding} (hb : b ∈ (s.bind binding).vars) :
    b ∈ s.vars ∨ b = binding ∧ binding.kind ≠ .record := by
  unfold Scope.bind at hb
  split at hb
  · exact .inl hb
  · rename_i kind
    rcases List.mem_append.mp hb with hb | hb
    · exact .inl hb
    · exact .inr ⟨List.mem_singleton.mp hb, kind⟩

/-- The same of the records of a scope. -/
theorem mem_types_bind {binding b : Binding} (hb : b ∈ (s.bind binding).types) :
    b ∈ s.types ∨ b = binding ∧ binding.kind = .record := by
  unfold Scope.bind at hb
  split at hb
  · rename_i kind
    rcases List.mem_append.mp hb with hb | hb
    · exact .inl hb
    · exact .inr ⟨List.mem_singleton.mp hb, kind⟩
  · exact .inl hb

/-- Scopes have their counterparts in a tree of the same shape. -/
theorem SameShape.exists_mem (h : tree.SameShape later) (hs : s ∈ tree.scopes) :
    ∃ t ∈ later.scopes, frame t = frame s := by
  obtain ⟨i, hi⟩ := List.mem_iff_getElem?.mp hs
  obtain ⟨t, ht, same⟩ := h.getElem? hi
  exact ⟨t, List.mem_of_getElem? ht, same⟩

end ScopeTree

end NameBinding
