import Mathlib.Data.List.Perm.Subperm
import Mathlib.Data.List.TakeWhile
import NameBinding.Proofs.ScopeTree

/-!
# Trees that grow call by call

Two calls change a tree: one opens a scope, the other binds a name. A run makes calls one after
the other, each naming a scope that is there at that moment; a refused call leaves the tree as it
is. One call keeps the tree formed and the lists of children linked to the parents, so a run of
any length does. The main result reads off all that follows from this (`run_isTree`): the parents
form a tree below the scope of the unit, the lists of children and the table of nodes tell the
same as the scopes, every walk outwards ends at the scope of the unit, and what lies around what
is a partial order.
-/

namespace NameBinding

namespace ScopeTree

variable {tree later : ScopeTree} {id parent a b c : ScopeId} {unit node : NodeId} {s t : Scope}
  {header : ScopeHeader}

/-! ### Calls and runs -/

/-- A call that changes a tree. -/
inductive Call where
  /-- Opens a scope inside `parent`. -/
  | opens (parent : ScopeId) (header : ScopeHeader)
  /-- Binds a name in `scope`. -/
  | binds (scope : ScopeId) (binding : Binding)

/-- The scope that a call names. -/
def Call.scope : Call → ScopeId
  | opens parent _ => parent
  | binds scope _ => scope

/-- The tree after a call; a refused call leaves it as it is. -/
def perform (tree : ScopeTree) : Call → ScopeTree
  | .opens parent header =>
    match tree.addScope parent header with
    | .ok (later, _) => later
    | .error _ => tree
  | .binds scope binding =>
    match tree.declare scope binding with
    | .ok later => later
    | .error _ => tree

/-- The tree after several calls, one after the other. -/
def run (tree : ScopeTree) (calls : List Call) : ScopeTree := calls.foldl perform tree

/-- Each of the calls names a scope that is there when the call is made. -/
def Admits (tree : ScopeTree) : List Call → Prop
  | [] => True
  | call :: rest => call.scope.index < tree.size ∧ (tree.perform call).Admits rest

instance decidableAdmits (tree : ScopeTree) : (calls : List Call) → Decidable (tree.Admits calls)
  | [] => .isTrue trivial
  | call :: rest =>
    have := decidableAdmits (tree.perform call) rest
    inferInstanceAs (Decidable (call.scope.index < tree.size ∧ (tree.perform call).Admits rest))

/-- Opening a scope adds it, unless its owner has opened one before. -/
theorem perform_opens : tree.perform (.opens parent header) =
    if tree.scopeOf? header.owner = none then tree.push parent header else tree := by
  rw [perform, addScope_eq]
  cases tree.scopeOf? header.owner <;> rfl

/-- Opening a scope is refused with the scope that the node has opened before. -/
theorem addScope_eq_error_iff :
    tree.addScope parent header = .error id ↔ tree.scopeOf? header.owner = some id := by
  rw [addScope_eq]
  cases tree.scopeOf? header.owner <;> simp

/-- A call that is refused leaves the tree as it is. -/
theorem perform_opens_of_taken (taken : tree.addScope parent header = .error id) :
    tree.perform (.opens parent header) = tree := by
  simp [perform, taken]

/-- What holds at the start and is kept by every call that opens a scope or binds a name holds
after every run. -/
theorem run_induction {P : ScopeTree → Prop} {calls : List Call} (placed : tree.Admits calls)
    (start : P tree)
    (pushed : ∀ (tree : ScopeTree) parent header, P tree → parent.index < tree.size →
      tree.scopeOf? header.owner = none → P (tree.push parent header))
    (declared : ∀ (tree later : ScopeTree) scope binding, P tree → scope.index < tree.size →
      tree.declare scope binding = .ok later → P later) :
    P (tree.run calls) := by
  induction calls generalizing tree with
  | nil => exact start
  | cons call rest ih =>
    refine ih placed.2 ?_
    cases call with
    | opens parent header =>
      rw [perform_opens]
      split
      · next fresh => exact pushed tree parent header start placed.1 fresh
      · exact start
    | binds scope binding =>
      simp only [perform]
      cases outcome : tree.declare scope binding with
      | error _ => exact start
      | ok later => exact declared tree later scope binding start placed.1 outcome

/-! ### Lists of children -/

/-- The scopes that have `id` as their parent, in the order of opening. -/
def insideOf (tree : ScopeTree) (id : ScopeId) : List ScopeId :=
  (tree.scopes.filter (·.parent == some id)).map (·.id)

/-- The lists of children tell the same as the parents. -/
def Linked (tree : ScopeTree) : Prop := tree.inside = tree.scopes.map fun s => tree.insideOf s.id

/-- In the tree of a unit the lists of children are linked. -/
theorem ofUnit_linked (unit : NodeId) : (ofUnit unit).Linked := by
  simp [Linked, ofUnit, insideOf]

/-- The next scope joins those inside its parent. -/
theorem insideOf_push (id : ScopeId) :
    (tree.push parent header).insideOf id =
      tree.insideOf id ++ if id = parent then [⟨tree.size⟩] else [] := by
  rw [insideOf, push, List.filter_append, List.map_append, insideOf]
  congr 1
  by_cases same : id = parent
  · simp [nextScope, same]
  · simp [nextScope, same, Ne.symm same]

/-- Only scopes opened later lie inside a scope. -/
theorem Formed.insideOf_eq_nil (formed : tree.Formed) (last : tree.size ≤ id.index) :
    tree.insideOf id = [] := by
  rw [insideOf, List.map_eq_nil_iff, List.filter_eq_nil_iff]
  intro s hs child
  have found := formed.scope?_id hs
  have before : id.index < s.id.index := formed.parent_lt found (beq_iff_eq.mp child)
  have inTree := index_lt_of_scope? found
  omega

namespace Linked

/-- The list of children that is kept for a scope. -/
theorem children_eq (linked : tree.Linked) (hs : tree.scope? id = some s) (same : s.id = id) :
    tree.children id = tree.insideOf id := by
  rw [children, linked, List.getElem?_map, show tree.scopes[id.index]? = some s from hs,
    Option.map_some, Option.getD_some, same]

/-- Opening a scope inside a scope of the tree keeps the lists linked. -/
theorem push (linked : tree.Linked) (formed : tree.Formed) (hp : parent.index < tree.size) :
    (tree.push parent header).Linked := by
  have own : (tree.push parent header).insideOf ⟨tree.size⟩ = [] := by
    have notParent : (⟨tree.size⟩ : ScopeId) ≠ parent := by
      rintro rfl
      exact Nat.lt_irrefl _ hp
    have fresh : tree.insideOf ⟨tree.size⟩ = [] := formed.insideOf_eq_nil (Nat.le_refl _)
    rw [insideOf_push, fresh, if_neg notParent, List.append_nil]
  have others : tree.inside.modify parent.index (· ++ [⟨tree.size⟩]) =
      tree.scopes.map fun s => (tree.push parent header).insideOf s.id := by
    apply List.ext_getElem?
    intro i
    rw [List.getElem?_modify, linked, List.getElem?_map, List.getElem?_map]
    cases hs : tree.scopes[i]? with
    | none => rfl
    | some s =>
      have here : s.id = ⟨i⟩ := formed.id_eq hs
      simp only [Option.map_some, insideOf_push, here]
      by_cases same : parent.index = i
      · subst same
        simp
      · have other : (⟨i⟩ : ScopeId) ≠ parent := by
          rintro rfl
          exact same rfl
        simp [same, other]
  unfold Linked
  rw [show (tree.push parent header).scopes = tree.scopes ++ [tree.nextScope parent header] from
    rfl, List.map_append, List.map_singleton, ← others]
  exact congrArg (fun list => _ ++ [list]) own.symm

/-- Binding a name keeps the lists linked. -/
theorem of_sameShape (linked : tree.Linked) (same : tree.SameShape later) : later.Linked := by
  have byFrame : ∀ t : ScopeTree, (t.scopes.map fun s => t.insideOf s.id) =
      (t.scopes.map frame).map fun f =>
        ((t.scopes.map frame).filter (·.2.2 == some f.2.1)).map (·.2.1) := by
    intro t
    simp only [List.map_map, List.filter_map, insideOf, Function.comp_def, frame]
  unfold Linked at linked ⊢
  rw [same.inside, linked, byFrame, byFrame, same.frames]

end Linked

namespace Formed

/-- Scopes are listed in the order of their ids. -/
theorem scopes_increasing (formed : tree.Formed) :
    tree.scopes.Pairwise fun earlier later => earlier.id.index < later.id.index := by
  rw [List.pairwise_iff_getElem]
  intro i j hi hj lt
  rw [formed.id_eq (List.getElem?_eq_getElem hi), formed.id_eq (List.getElem?_eq_getElem hj)]
  exact lt

/-- The scopes inside a scope are listed in the order of opening. -/
theorem insideOf_increasing (formed : tree.Formed) (id : ScopeId) :
    (tree.insideOf id).Pairwise fun earlier later => earlier.index < later.index :=
  List.pairwise_map.mpr (formed.scopes_increasing.filter _)

/-- Inside a scope are those that have it as their parent. -/
theorem mem_insideOf_iff (formed : tree.Formed) (hs : s ∈ tree.scopes) :
    s.id ∈ tree.insideOf id ↔ s.parent = some id := by
  rw [insideOf, List.mem_map]
  constructor
  · rintro ⟨t, ht, same⟩
    obtain ⟨member, parent⟩ := List.mem_filter.mp ht
    rw [← formed.eq_of_id member hs same]
    exact beq_iff_eq.mp parent
  · intro parent
    exact ⟨s, List.mem_filter.mpr ⟨hs, beq_iff_eq.mpr parent⟩, rfl⟩

/-- A scope stands once among those inside its parent and nowhere else. -/
theorem count_insideOf (formed : tree.Formed) (hs : s ∈ tree.scopes) (id : ScopeId) :
    (tree.insideOf id).count s.id = if s.parent = some id then 1 else 0 := by
  have distinct : (tree.insideOf id).Nodup :=
    (formed.insideOf_increasing id).imp fun lt same => by
      rw [same] at lt
      exact Nat.lt_irrefl _ lt
  rw [distinct.count]
  exact if_congr (formed.mem_insideOf_iff hs) rfl rfl

/-- There are no more scopes than node ids, since every scope has an owner of its own. -/
theorem size_le (formed : tree.Formed) : tree.size ≤ UInt32.size := by
  have distinct : (tree.scopes.map (·.owner.number.toNat)).Nodup := by
    have numbers := formed.owners.map
      (f := fun node : NodeId => node.number.toNat) (fun x y same => by
        cases x
        cases y
        exact congrArg NodeId.mk (UInt32.toNat.inj same))
    rwa [List.map_map] at numbers
  have bounded : tree.scopes.map (·.owner.number.toNat) ⊆ List.range UInt32.size := by
    intro number h
    obtain ⟨s, _, rfl⟩ := List.mem_map.mp h
    exact List.mem_range.mpr s.owner.number.toNat_lt
  have counted := (distinct.subperm bounded).length_le
  rwa [List.length_map, List.length_range] at counted

/-- A node has opened a scope if the scope is there and the node owns it. -/
theorem scopeOf?_eq_some_iff (formed : tree.Formed) :
    tree.scopeOf? node = some id ↔ ∃ s, tree.scope? id = some s ∧ s.owner = node := by
  constructor
  · exact formed.scope?_of_scopeOf?
  · rintro ⟨s, found, rfl⟩
    rw [formed.scopeOf?_owner (mem_of_scope? found)]
    exact congrArg some (formed.id_eq found)

end Formed

/-! ### What is around what -/

namespace Formed

/-- Walking outwards goes on at the parent and ends where there is none. -/
theorem chain_eq (formed : tree.Formed) (hs : s ∈ tree.scopes) :
    tree.chain s.id = s :: (s.parent.map tree.chain).getD [] := by
  cases hp : s.parent with
  | none => exact chain_of_parent_none (formed.scope?_id hs) hp
  | some parent => exact formed.chain_of_parent (formed.scope?_id hs) hp

/-- Scopes opened later stand further in. -/
theorem chain_decreasing (formed : tree.Formed) (hs : s ∈ tree.scopes) :
    (tree.chain s.id).Pairwise fun inner outer => outer.id.index < inner.id.index := by
  refine formed.outward_induction (P := fun s => (tree.chain s.id).Pairwise _) ?_ ?_ s hs
  · intro s hs hp
    rw [chain_of_parent_none (formed.scope?_id hs) hp]
    exact List.pairwise_singleton _ _
  · intro s hs p hp parent ih
    rw [formed.chain_of_parent (formed.scope?_id hs) parent]
    refine List.pairwise_cons.mpr ⟨fun t ht => ?_, ih⟩
    have before : p.id.index < s.id.index := formed.parent_lt (formed.scope?_id hs) parent
    exact Nat.lt_of_le_of_lt (formed.index_le_of_mem_chain hp t ht) before

/-- Every chain ends at the scope of the unit. -/
theorem getLast?_chain (formed : tree.Formed) (hs : s ∈ tree.scopes) :
    (tree.chain s.id).getLast? = tree.scope? .global := by
  refine formed.outward_induction (P := fun s => (tree.chain s.id).getLast? = _) ?_ ?_ s hs
  · intro s hs hp
    have here := formed.scope?_id hs
    have first : s.id.index = 0 := (formed.parent_none here).mp hp
    rw [chain_of_parent_none here hp, List.getLast?_singleton, ← here]
    exact congrArg tree.scope? (congrArg ScopeId.mk first)
  · intro s hs p hp parent ih
    obtain ⟨around, own⟩ := formed.exists_chain_self hp
    rw [formed.chain_of_parent (formed.scope?_id hs) parent, own, List.getLast?_cons_cons, ← own,
      ih]

end Formed

/-- A scope is an ancestor of another one exactly if it is on its chain. -/
theorem isAncestor_iff : tree.isAncestor a b = true ↔ ∃ s ∈ tree.chain b, s.id = a := by
  simp [isAncestor]

namespace Formed

/-- A scope around another one was not opened after it. -/
theorem index_le_of_isAncestor (formed : tree.Formed) (h : tree.isAncestor a b = true) :
    a.index ≤ b.index := by
  obtain ⟨s, hs, rfl⟩ := isAncestor_iff.mp h
  obtain ⟨start, member, rfl⟩ := formed.exists_of_mem_chain hs
  exact formed.index_le_of_mem_chain member s hs

/-- A scope is an ancestor of itself. -/
theorem isAncestor_self (formed : tree.Formed) (hs : s ∈ tree.scopes) :
    tree.isAncestor s.id s.id = true :=
  isAncestor_iff.mpr ⟨s, formed.mem_chain_self hs, rfl⟩

/-- Scopes that are ancestors of each other are one. -/
theorem eq_of_isAncestor (formed : tree.Formed) (h : tree.isAncestor a b = true)
    (back : tree.isAncestor b a = true) : a = b := by
  have outer := formed.index_le_of_isAncestor h
  have inner := formed.index_le_of_isAncestor back
  exact congrArg ScopeId.mk (Nat.le_antisymm outer inner)

/-- An ancestor of an ancestor is an ancestor. -/
theorem isAncestor_trans (formed : tree.Formed) (h : tree.isAncestor a b = true)
    (further : tree.isAncestor b c = true) : tree.isAncestor a c = true := by
  obtain ⟨outer, inMiddle, rfl⟩ := isAncestor_iff.mp h
  obtain ⟨middle, inInner, rfl⟩ := isAncestor_iff.mp further
  obtain ⟨start, member, rfl⟩ := formed.exists_of_mem_chain inInner
  obtain ⟨before, after, split⟩ := List.append_of_mem inInner
  rw [formed.chain_of_split member split] at inMiddle
  refine isAncestor_iff.mpr ⟨outer, ?_, rfl⟩
  rw [split]
  exact List.mem_append_right _ inMiddle

/-- The scope of the unit is an ancestor of every scope. -/
theorem isAncestor_global (formed : tree.Formed) (hs : s ∈ tree.scopes) :
    tree.isAncestor .global s.id = true := by
  have last := formed.getLast?_chain hs
  cases root : tree.scope? .global with
  | none =>
    obtain ⟨around, own⟩ := formed.exists_chain_self hs
    rw [root, own] at last
    simp at last
  | some g =>
    rw [root] at last
    exact isAncestor_iff.mpr ⟨g, List.mem_of_getLast? last, formed.id_eq root⟩

end Formed

/-- The innermost record around a scope is the first record scope of its chain. -/
theorem enclosingRecord?_eq_some_iff :
    tree.enclosingRecord? id = some a ↔
      ∃ before t after, tree.chain id = before ++ t :: after ∧ t.id = a ∧ t.kind = .record ∧
        ∀ u ∈ before, u.kind ≠ .record := by
  rw [enclosingRecord?, Option.map_eq_some_iff]
  constructor
  · rintro ⟨t, found, same⟩
    obtain ⟨kind, before, after, split, others⟩ := List.find?_eq_some_iff_append.mp found
    exact ⟨before, t, after, split, same, by simpa using kind, by simpa using others⟩
  · rintro ⟨before, t, after, split, same, kind, others⟩
    refine ⟨t, List.find?_eq_some_iff_append.mpr ⟨by simpa using kind, before, after, split, ?_⟩,
      same⟩
    simpa using others

/-- The method around a scope is the first method scope of its chain, unless a record scope comes
before. -/
theorem enclosingMethod?_eq_some_iff :
    tree.enclosingMethod? id = some a ↔
      ∃ before t after, tree.chain id = before ++ t :: after ∧ t.id = a ∧ t.kind = .method ∧
        ∀ u ∈ before, u.kind ≠ .record ∧ u.kind ≠ .method := by
  rw [enclosingMethod?, Option.map_eq_some_iff]
  constructor
  · rintro ⟨t, found, same⟩
    obtain ⟨kind, before, after, split, others⟩ := List.find?_eq_some_iff_append.mp found
    have passed : ∀ u ∈ before, u.kind ≠ .record := by
      intro u hu
      have inPrefix : u ∈ (tree.chain id).takeWhile (·.kind != .record) :=
        split ▸ List.mem_append_left _ hu
      simpa using List.mem_takeWhile_imp inPrefix
    have whole := List.takeWhile_append_dropWhile (p := (·.kind != .record)) (l := tree.chain id)
    rw [split, List.append_assoc, List.cons_append] at whole
    exact ⟨before, t, _, whole.symm, same, by simpa using kind,
      fun u hu => ⟨passed u hu, by simpa using others u hu⟩⟩
  · rintro ⟨before, t, after, split, same, kind, others⟩
    have noRecord : ∀ u ∈ before, (u.kind != .record) = true := fun u hu => by
      simpa using (others u hu).1
    refine ⟨t, List.find?_eq_some_iff_append.mpr ⟨by simpa using kind, before,
      after.takeWhile (·.kind != .record), ?_, fun u hu => by simpa using (others u hu).2⟩, same⟩
    rw [split, List.takeWhile_append_of_pos noRecord, List.takeWhile_cons_of_pos (by simp [kind])]

/-! ### Runs -/

/-- What every run keeps: the tree is formed, its lists of children are linked to the parents, and
the scope of the unit is where it was. -/
structure Kept (tree : ScopeTree) (unit : NodeId) : Prop where
  formed : tree.Formed
  linked : tree.Linked
  root : ∃ s, tree.scope? .global = some s ∧ s.kind = .global ∧ s.owner = unit

/-- The tree of a unit has what every run keeps. -/
theorem ofUnit_kept (unit : NodeId) : (ofUnit unit).Kept unit :=
  ⟨ofUnit_formed unit, ofUnit_linked unit, _, rfl, rfl, rfl⟩

namespace Kept

/-- Opening a scope keeps it. -/
theorem push (kept : tree.Kept unit) (hp : parent.index < tree.size)
    (fresh : tree.scopeOf? header.owner = none) : (tree.push parent header).Kept unit := by
  obtain ⟨s, found, kind, owner⟩ := kept.root
  exact ⟨kept.formed.push hp fresh, kept.linked.push kept.formed hp, s,
    scope?_of_grown growsTo_push found, kind, owner⟩

/-- Binding a name keeps it. -/
theorem declare {binding : Binding} (kept : tree.Kept unit)
    (h : tree.declare id binding = .ok later) : later.Kept unit := by
  have same := declare_sameShape h
  obtain ⟨s, found, kind, owner⟩ := kept.root
  obtain ⟨t, there, alike⟩ := same.getElem? found
  have header : t.toScopeHeader = s.toScopeHeader := congrArg (·.1) alike
  refine ⟨same.formed kept.formed, kept.linked.of_sameShape same, t, there, ?_, ?_⟩
  · exact (congrArg ScopeHeader.kind header).trans kind
  · exact (congrArg ScopeHeader.owner header).trans owner

end Kept

/-- So every run keeps it. -/
theorem run_kept {calls : List Call} (placed : (ofUnit unit).Admits calls) :
    ((ofUnit unit).run calls).Kept unit :=
  run_induction (P := (Kept · unit)) placed (ofUnit_kept unit)
    (fun _ _ _ kept hp fresh => kept.push hp fresh) (fun _ _ _ _ kept _ h => kept.declare h)

/-- The scopes of a unit form a tree, and everything that is kept of it or asked of it agrees. -/
structure IsTree (tree : ScopeTree) (unit : NodeId) : Prop where
  /-- The first scope is that of the unit. -/
  root : ∃ s, tree.scope? .global = some s ∧ s.kind = .global ∧ s.owner = unit ∧ s.parent = none
  /-- Ids are positions. -/
  id_eq : ∀ (i : Nat) (s : Scope), tree.scopes[i]? = some s → s.id = ⟨i⟩
  /-- The positions fit in 32 bits. -/
  size_le : tree.size ≤ UInt32.size
  /-- Every other scope has a parent, which was opened before it. -/
  parent : ∀ s ∈ tree.scopes, s.id ≠ .global →
    ∃ p ∈ tree.scopes, s.parent = some p.id ∧ p.id.index < s.id.index
  /-- A scope stands once in the list of its parent and in no other list. -/
  counted : ∀ s ∈ tree.scopes, ∀ p ∈ tree.scopes,
    (tree.children p.id).count s.id = if s.parent = some p.id then 1 else 0
  /-- The lists hold scopes of the tree only. -/
  known : ∀ p ∈ tree.scopes, ∀ id ∈ tree.children p.id, ∃ s ∈ tree.scopes, s.id = id
  /-- The lists are in the order of opening. -/
  ordered : ∀ p ∈ tree.scopes,
    (tree.children p.id).Pairwise fun earlier later => earlier.index < later.index
  /-- The table of nodes leads to the scopes that they own, to each scope from one node. -/
  owners : ∀ node id, tree.scopeOf? node = some id ↔
    ∃ s, tree.scope? id = some s ∧ s.owner = node
  /-- Opening a scope is refused with the scope that its owner holds. -/
  refused : ∀ parent header id, tree.addScope parent header = .error id ↔
    tree.scopeOf? header.owner = some id
  /-- A refusal changes nothing. -/
  unchanged : ∀ parent header id, tree.addScope parent header = .error id →
    tree.perform (.opens parent header) = tree
  /-- A chain is a scope followed by the chain of its parent. -/
  chain_eq : ∀ s ∈ tree.scopes, tree.chain s.id = s :: (s.parent.map tree.chain).getD []
  /-- Ids decrease along a chain. -/
  decreasing : ∀ s ∈ tree.scopes,
    (tree.chain s.id).Pairwise fun inner outer => outer.id.index < inner.id.index
  /-- A chain ends at the scope of the unit. -/
  ends : ∀ s ∈ tree.scopes, (tree.chain s.id).getLast? = tree.scope? .global
  /-- Lying around is a partial order. -/
  reflexive : ∀ s ∈ tree.scopes, tree.isAncestor s.id s.id = true
  /-- No two scopes lie around each other. -/
  antisymmetric : ∀ a b, tree.isAncestor a b = true → tree.isAncestor b a = true → a = b
  /-- What lies around an outer scope lies around the inner one. -/
  transitive : ∀ a b c, tree.isAncestor a b = true → tree.isAncestor b c = true →
    tree.isAncestor a c = true
  /-- The scope of the unit lies around every scope. -/
  least : ∀ s ∈ tree.scopes, tree.isAncestor .global s.id = true
  /-- The innermost record is the first record scope of the chain. -/
  record : ∀ id a, tree.enclosingRecord? id = some a ↔
    ∃ before t after, tree.chain id = before ++ t :: after ∧ t.id = a ∧ t.kind = .record ∧
      ∀ u ∈ before, u.kind ≠ .record
  /-- The method around a scope is the first method scope of the chain before any record scope. -/
  method : ∀ id a, tree.enclosingMethod? id = some a ↔
    ∃ before t after, tree.chain id = before ++ t :: after ∧ t.id = a ∧ t.kind = .method ∧
      ∀ u ∈ before, u.kind ≠ .record ∧ u.kind ≠ .method

/-- All of it follows from what every run keeps. -/
theorem Kept.isTree (kept : tree.Kept unit) : tree.IsTree unit where
  root := by
    obtain ⟨s, found, kind, owner⟩ := kept.root
    exact ⟨s, found, kind, owner, (kept.formed.parent_none found).mpr rfl⟩
  id_eq _ _ := kept.formed.id_eq
  size_le := kept.formed.size_le
  parent := by
    intro s hs inner
    have here := kept.formed.scope?_id hs
    cases hp : s.parent with
    | none => exact absurd (congrArg ScopeId.mk ((kept.formed.parent_none here).mp hp)) inner
    | some parent =>
      obtain ⟨p, found⟩ := kept.formed.scope?_parent here hp
      have same : p.id = parent := kept.formed.id_eq found
      refine ⟨p, mem_of_scope? found, congrArg some same.symm, ?_⟩
      rw [same]
      exact kept.formed.parent_lt here hp
  counted := by
    intro s hs p hp
    rw [kept.linked.children_eq (kept.formed.scope?_id hp) rfl]
    exact kept.formed.count_insideOf hs p.id
  known := by
    intro p hp id member
    rw [kept.linked.children_eq (kept.formed.scope?_id hp) rfl] at member
    obtain ⟨s, hs, same⟩ := List.mem_map.mp member
    exact ⟨s, (List.mem_filter.mp hs).1, same⟩
  ordered := by
    intro p hp
    rw [kept.linked.children_eq (kept.formed.scope?_id hp) rfl]
    exact kept.formed.insideOf_increasing p.id
  owners _ _ := kept.formed.scopeOf?_eq_some_iff
  refused _ _ _ := addScope_eq_error_iff
  unchanged _ _ _ := perform_opens_of_taken
  chain_eq _ := kept.formed.chain_eq
  decreasing _ := kept.formed.chain_decreasing
  ends _ := kept.formed.getLast?_chain
  reflexive _ := kept.formed.isAncestor_self
  antisymmetric _ _ := kept.formed.eq_of_isAncestor
  transitive _ _ _ := kept.formed.isAncestor_trans
  least _ := kept.formed.isAncestor_global
  record _ _ := enclosingRecord?_eq_some_iff
  method _ _ := enclosingMethod?_eq_some_iff

/-- However a tree grows from the scope of a unit, it stays a tree. -/
theorem run_isTree (unit : NodeId) (calls : List Call) (placed : (ofUnit unit).Admits calls) :
    ((ofUnit unit).run calls).IsTree unit :=
  (run_kept placed).isTree

/-- A record with a method, in it a block with a local record and a loop; the method is opened a
second time in vain. -/
def sampleCalls : List Call :=
  let x : Binding := ⟨"x", ⟨3⟩, .parameter, {}⟩
  [.opens .global { kind := .record, owner := ⟨1⟩ },
    .opens ⟨1⟩ { kind := .method, owner := ⟨2⟩ }, .binds ⟨2⟩ x,
    .opens ⟨2⟩ { kind := .block, owner := ⟨4⟩ },
    .opens .global { kind := .method, owner := ⟨2⟩ },
    .opens ⟨3⟩ { kind := .record, owner := ⟨5⟩ }, .binds ⟨2⟩ x,
    .opens ⟨2⟩ { kind := .loop, owner := ⟨6⟩ }]

theorem run_isTree_sample :
    (ofUnit ⟨0⟩).Admits sampleCalls ∧ ((ofUnit ⟨0⟩).run sampleCalls).IsTree ⟨0⟩ ∧
      ((ofUnit ⟨0⟩).run sampleCalls).children ⟨2⟩ = [⟨3⟩, ⟨5⟩] :=
  have placed : (ofUnit ⟨0⟩).Admits sampleCalls := by decide
  ⟨placed, run_isTree ⟨0⟩ sampleCalls placed, by decide⟩

end ScopeTree

end NameBinding
