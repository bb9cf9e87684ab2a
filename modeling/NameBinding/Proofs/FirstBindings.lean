import NameBinding.Proofs.DeclarationAccounts
import NameBinding.Proofs.TreeCalls

/-!
# What a call is felt by

In a tree that grows call by call, a scope holds a name by the first binding that was declared
for it there, in the namespace of the binding; later declarations of the name answer with this
binding and change nothing. A name is looked up in the scopes of the chain, nearest first, so a
declaration is felt only from scopes below its own, and only where no scope on the way binds the
name (`run_bindsFirst`). Opening a scope is felt by no lookup at all.
-/

namespace NameBinding

/-- A binding joins what is bound in its namespace before. -/
theorem Scope.holder?_bind (s : Scope) (b : Binding) (kind : BindingKind)
    (name : String) :
    (s.bind b).holder? kind name = (s.holder? kind name).or
      (if (b.kind = .record ↔ kind = .record) ∧ b.name = name then some b else none) := by
  unfold Scope.holder?
  by_cases record : kind = .record
  · rw [if_pos record, if_pos record, Scope.typeBinding?_bind]
    simp only [record, iff_true]
  · rw [if_neg record, if_neg record, Scope.varBinding?_bind]
    simp only [record, iff_false, ne_eq]

/-- Searches agree if they agree at every item that the first one comes to in vain. -/
theorem findSome?_congr_reached {α β : Type} {f g : α → Option β} {xs : List α}
    (agree : ∀ before x after, xs = before ++ x :: after → (∀ y ∈ before, f y = none) →
      f x = g x) : xs.findSome? f = xs.findSome? g := by
  induction xs with
  | nil => rfl
  | cons x rest ih =>
    have here : f x = g x := agree [] x rest rfl (by simp)
    rw [List.findSome?_cons, List.findSome?_cons, ← here]
    cases missing : f x with
    | some _ => rfl
    | none =>
      refine ih fun before y after split others =>
        agree (x :: before) y after (by rw [split]; rfl) ?_
      intro z hz
      rcases List.mem_cons.mp hz with rfl | hz
      · exact missing
      · exact others z hz

namespace ScopeTree

variable {tree later : ScopeTree} {id scope parent : ScopeId} {kind : BindingKind}
  {name : String} {b first : Binding} {s : Scope} {header : ScopeHeader}

/-! ### The first binding -/

/-- The binding that a call declares for a name in a scope, if it does so in the namespace of
bindings of a kind. -/
def Call.binding? (id : ScopeId) (kind : BindingKind) (name : String) : Call → Option Binding
  | opens .. => none
  | binds scope b =>
    if scope = id ∧ (b.kind = .record ↔ kind = .record) ∧ b.name = name then some b else none

/-- The first binding that calls declare for a name in a scope and namespace. -/
def firstBinding? (calls : List Call) (id : ScopeId) (kind : BindingKind) (name : String) :
    Option Binding :=
  calls.findSome? (Call.binding? id kind name)

/-- All bindings of one namespace look for the same holder. -/
theorem holder?_congr {other : BindingKind} (same : other = .record ↔ kind = .record) :
    tree.holder? id other name = tree.holder? id kind name := by
  unfold holder? Scope.holder?
  simp only [same]

/-- In the next scope nothing is bound. -/
theorem holder?_push : (tree.push parent header).holder? id kind name =
    tree.holder? id kind name := by
  unfold holder?
  cases hs : tree.scope? id with
  | some s => rw [scope?_of_grown growsTo_push hs]
  | none =>
    cases ht : (tree.push parent header).scope? id with
    | none => rfl
    | some t =>
      rcases getElem?_push.mp ht with old | ⟨_, rfl⟩
      · rw [scope?, old] at hs
        cases hs
      · simp [nextScope, Scope.holder?, Scope.typeBinding?, Scope.varBinding?]

/-- What a call does to the holders of names: what it declares comes after what is there. -/
theorem holder?_perform {call : Call} (placed : call.scope.index < tree.size) :
    (tree.perform call).holder? id kind name =
      (tree.holder? id kind name).or (call.binding? id kind name) := by
  cases call with
  | opens parent header =>
    rw [Call.binding?, Option.or_none, perform_opens]
    split
    · exact holder?_push
    · rfl
  | binds scope b =>
    obtain ⟨s, hs⟩ : ∃ s, tree.scope? scope = some s := ⟨_, List.getElem?_eq_getElem placed⟩
    rw [perform, Call.binding?]
    cases outcome : tree.declare scope b with
    | error first =>
      have held : tree.holder? scope b.kind b.name = some first := declare_eq_error_iff.mp outcome
      by_cases about : scope = id ∧ (b.kind = .record ↔ kind = .record) ∧ b.name = name
      · obtain ⟨rfl, same, rfl⟩ := about
        simp only [← holder?_congr same, held, Option.some_or]
      · rw [if_neg about, Option.or_none]
    | ok later =>
      simp only [holder?, scope?_of_declare outcome]
      by_cases here : scope = id
      · subst here
        simp only [hs, Option.map_some, Option.bind_some, if_true, true_and, Scope.holder?_bind]
      · have apart : scope.index ≠ id.index := fun same => here (congrArg ScopeId.mk same)
        simp only [apart, here, if_false, false_and, Option.or_none, Option.map_id']

/-- After a run a name is held by what held it before, else by what was declared first. -/
theorem holder?_run {calls : List Call} (placed : tree.Admits calls) :
    (tree.run calls).holder? id kind name =
      (tree.holder? id kind name).or (firstBinding? calls id kind name) := by
  induction calls generalizing tree with
  | nil => simp [run, firstBinding?]
  | cons call rest ih =>
    rw [show tree.run (call :: rest) = (tree.perform call).run rest from rfl, ih placed.2,
      holder?_perform placed.1, Option.or_assoc, firstBinding?, firstBinding?, List.findSome?_cons]
    cases call.binding? id kind name <;> rfl

/-- At first no name is held. -/
theorem holder?_ofUnit (unit : NodeId) : (ofUnit unit).holder? id kind name = none := by
  unfold holder?
  cases found : (ofUnit unit).scope? id with
  | none => rfl
  | some s =>
    obtain ⟨_, rfl⟩ := getElem?_ofUnit found
    simp [Scope.holder?, Scope.typeBinding?, Scope.varBinding?]

/-! ### Lookups -/

/-- A name is looked up as the variable of the nearest scope that binds it. -/
theorem lookup?_eq_some_iff :
    tree.lookup? id name = some (scope, b) ↔
      ∃ before t after, tree.chain id = before ++ t :: after ∧ t.id = scope ∧
        t.varBinding? name = some b ∧ ∀ u ∈ before, u.varBinding? name = none := by
  rw [lookup?, List.findSome?_eq_some_iff]
  constructor
  · rintro ⟨before, t, after, split, found, others⟩
    obtain ⟨held, bound, same⟩ := Option.map_eq_some_iff.mp found
    cases same
    exact ⟨before, t, after, split, rfl, bound, by simpa using others⟩
  · rintro ⟨before, t, after, split, rfl, bound, others⟩
    exact ⟨before, t, after, split, by simp [bound], by simpa using others⟩

/-- Opening a scope is not felt in the scopes that are there. -/
theorem Formed.lookup?_push (formed : tree.Formed) (inside : id.index < tree.size) :
    (tree.push parent header).lookup? id name = tree.lookup? id name := by
  rw [lookup?, lookup?, formed.chain_of_grown growsTo_push (List.getElem?_eq_getElem inside)]

/-- After a name is bound, a chain runs through the same scopes, one of them with the binding. -/
theorem Formed.chain_of_declare (formed : tree.Formed) (h : tree.declare scope b = .ok later)
    (id : ScopeId) :
    later.chain id = (tree.chain id).map fun s => if s.id = scope then s.bind b else s := by
  have bound : ∀ {id s}, tree.scope? id = some s →
      later.scope? id = some (if s.id = scope then s.bind b else s) := by
    intro id s hs
    have same : s.id = scope ↔ scope.index = id.index := by
      rw [show s.id = id from formed.id_eq hs]
      exact ⟨fun same => same ▸ rfl, fun same => congrArg ScopeId.mk same.symm⟩
    rw [scope?_of_declare h, hs, Option.map_some]
    simp only [same]
  have sameParent : ∀ s : Scope, (if s.id = scope then s.bind b else s).parent = s.parent := by
    intro s
    split
    · exact congrArg (·.2.2) (frame_bind s b)
    · rfl
  fun_induction chain tree id with
  | case1 id missing =>
    have gone : later.scope? id = none := by rw [scope?_of_declare h, missing, Option.map_none]
    rw [chain, gone]
    rfl
  | case2 id s hs hp =>
    exact Formed.chain_of_parent_none (bound hs) ((sameParent s).trans hp)
  | case3 id s hs parent hp lt ih =>
    rw [chain, bound hs]
    simp only [sameParent, hp, if_pos lt, ih, List.map_cons]
  | case4 id s hs parent hp notLt =>
    exact absurd (formed.parent_lt hs hp) notLt

/-- What a lookup finds after a name is bound. -/
theorem Formed.lookup?_of_declare (formed : tree.Formed) (h : tree.declare scope b = .ok later) :
    later.lookup? id name = (tree.chain id).findSome? fun s =>
      ((s.varBinding? name).or
        (if s.id = scope ∧ b.kind ≠ .record ∧ b.name = name then some b else none)).map
          (s.id, ·) := by
  rw [lookup?, formed.chain_of_declare h, List.findSome?_map]
  congr 1
  funext s
  by_cases here : s.id = scope
  · have sameId : (s.bind b).id = s.id := congrArg (·.2.1) (frame_bind s b)
    simp [here, sameId, Scope.varBinding?_bind]
  · simp [here]

/-- The call is felt by a lookup: it binds the name as a variable, in a scope of the chain, and no
scope of the chain up to there has bound the name before. -/
def Felt (tree : ScopeTree) (scope : ScopeId) (b : Binding) (id : ScopeId) (name : String) : Prop :=
  b.kind ≠ .record ∧ b.name = name ∧ ∃ before t after, tree.chain id = before ++ t :: after ∧
    t.id = scope ∧ t.varBinding? name = none ∧ ∀ u ∈ before, u.varBinding? name = none

/-- A declaration that is felt is what the lookup finds. -/
theorem Formed.lookup?_of_felt (formed : tree.Formed) (h : tree.declare scope b = .ok later)
    (felt : tree.Felt scope b id name) : later.lookup? id name = some (scope, b) := by
  obtain ⟨kind, named, before, t, after, split, rfl, free, others⟩ := felt
  rw [formed.lookup?_of_declare h, List.findSome?_eq_some_iff]
  refine ⟨before, t, after, split, by simp [free, kind, named], fun u hu => ?_⟩
  have apart := formed.ne_of_split split u hu
  simp [others u hu, apart]

/-- A declaration that is not felt leaves what the lookup finds. -/
theorem Formed.lookup?_of_not_felt (formed : tree.Formed) (h : tree.declare scope b = .ok later)
    (notFelt : ¬tree.Felt scope b id name) : later.lookup? id name = tree.lookup? id name := by
  rw [formed.lookup?_of_declare h, lookup?]
  symm
  apply findSome?_congr_reached
  intro before s after split others
  have passed : ∀ u ∈ before, u.varBinding? name = none := by simpa using others
  cases bound : s.varBinding? name with
  | some _ => rfl
  | none =>
    have elsewhere : ¬(s.id = scope ∧ b.kind ≠ .record ∧ b.name = name) := by
      rintro ⟨here, kind, named⟩
      exact notFelt ⟨kind, named, before, s, after, split, here, bound, passed⟩
    rw [if_neg elsewhere, Option.none_or]

/-- Exactly the declarations that are felt change a lookup. -/
theorem Formed.lookup?_perform_ne_iff (formed : tree.Formed) :
    (tree.perform (.binds scope b)).lookup? id name ≠ tree.lookup? id name ↔
      (∃ later, tree.declare scope b = .ok later) ∧ tree.Felt scope b id name := by
  rw [perform]
  cases outcome : tree.declare scope b with
  | error first => simp
  | ok later =>
    simp only [Except.ok.injEq, exists_eq', true_and]
    constructor
    · intro changed
      by_contra notFelt
      exact changed (formed.lookup?_of_not_felt outcome notFelt)
    · intro felt same
      rw [formed.lookup?_of_felt outcome felt] at same
      obtain ⟨_, _, before, t, after, split, here, free, others⟩ := felt
      obtain ⟨before', t', after', split', here', bound, others'⟩ :=
        lookup?_eq_some_iff.mp same.symm
      have atSame : t' = t := by
        have member : t ∈ tree.chain id := split ▸ List.mem_append_right _ List.mem_cons_self
        have member' : t' ∈ tree.chain id := split' ▸ List.mem_append_right _ List.mem_cons_self
        exact formed.eq_of_id (mem_of_mem_chain member') (mem_of_mem_chain member)
          (here'.trans here.symm)
      rw [atSame, free] at bound
      cases bound

/-! ### Runs -/

/-- In the tree that calls lead to, the first declaration of a name holds it, and a declaration is
felt only below its scope. -/
structure BindsFirst (tree : ScopeTree) (calls : List Call) : Prop where
  /-- A scope binds a variable name to the first binding declared for it, whose kind is any but
  that of records. -/
  varFirst : ∀ s ∈ tree.scopes, ∀ kind ≠ .record, ∀ name,
    s.varBinding? name = firstBinding? calls s.id kind name
  /-- A scope binds a record name to the first binding declared for it. -/
  typeFirst : ∀ s ∈ tree.scopes, ∀ name,
    s.typeBinding? name = firstBinding? calls s.id .record name
  /-- A declaration is refused by the first binding of its name, if there is one. -/
  refused : ∀ scope b first, tree.declare scope b = .error first ↔
    firstBinding? calls scope b.kind b.name = some first
  /-- A refusal changes nothing. -/
  unchanged : ∀ scope b first, tree.declare scope b = .error first →
    tree.perform (.binds scope b) = tree
  /-- The first binding stays, whatever calls follow. -/
  forGood : ∀ more, tree.Admits more → ∀ id kind name first,
    firstBinding? calls id kind name = some first →
    (tree.run more).holder? id kind name = some first
  /-- A lookup finds the variable of the nearest scope that binds the name, with that scope. -/
  nearest : ∀ id name scope b, tree.lookup? id name = some (scope, b) ↔
    ∃ before t after, tree.chain id = before ++ t :: after ∧ t.id = scope ∧
      t.varBinding? name = some b ∧ ∀ u ∈ before, u.varBinding? name = none
  /-- A declaration changes a lookup if and only if it succeeds and is felt there. -/
  felt : ∀ scope b id name,
    (tree.perform (.binds scope b)).lookup? id name ≠ tree.lookup? id name ↔
      (∃ later, tree.declare scope b = .ok later) ∧ tree.Felt scope b id name
  /-- Opening a scope changes no lookup. -/
  opened : ∀ parent header id name, parent.index < tree.size → id.index < tree.size →
    (tree.perform (.opens parent header)).lookup? id name = tree.lookup? id name

/-- However a tree grows from the scope of a unit, the first declaration of a name wins for good,
and a declaration is felt only below its scope. -/
theorem run_bindsFirst (unit : NodeId) (calls : List Call) (placed : (ofUnit unit).Admits calls) :
    ((ofUnit unit).run calls).BindsFirst calls := by
  have formed := (run_kept placed).formed
  have held : ∀ id kind name, ((ofUnit unit).run calls).holder? id kind name =
      firstBinding? calls id kind name := by
    intro id kind name
    rw [holder?_run placed, holder?_ofUnit, Option.none_or]
  have ofScope : ∀ s ∈ ((ofUnit unit).run calls).scopes, ∀ kind name,
      s.holder? kind name = firstBinding? calls s.id kind name := by
    intro s hs kind name
    rw [← held, holder?, formed.scope?_id hs, Option.bind_some]
  refine ⟨?_, ?_, ?_, ?_, ?_, fun _ _ _ _ => lookup?_eq_some_iff,
    fun _ _ _ _ => formed.lookup?_perform_ne_iff, ?_⟩
  · intro s hs kind noRecord name
    rw [← ofScope s hs, Scope.holder?, if_neg noRecord]
  · intro s hs name
    rw [← ofScope s hs, Scope.holder?, if_pos rfl]
  · intro scope b first
    rw [declare_eq_error_iff, ← held, holder?]
  · intro scope b first refused
    simp [perform, refused]
  · intro more placed id kind name first found
    rw [holder?_run placed, held, found, Option.some_or]
  · intro parent header id name _ inside
    rw [perform_opens]
    split
    · exact formed.lookup?_push inside
    · rfl

/-- Two blocks, one inside the other: the outer one binds a variable that the scope of the unit
binds as well, refuses a second one and binds a record of the same name. -/
def shadowingCalls : List Call :=
  let x (id : UInt32) (kind : BindingKind) : Binding := ⟨"x", ⟨id⟩, kind, {}⟩
  [.opens .global { kind := .block, owner := ⟨1⟩ },
    .opens ⟨1⟩ { kind := .block, owner := ⟨2⟩ }, .binds .global (x 3 .localVar),
    .binds ⟨1⟩ (x 4 .localVar), .binds ⟨1⟩ (x 5 .parameter), .binds ⟨1⟩ (x 6 .record)]

/-- Inside the inner block the name denotes the first variable of the outer one. -/
theorem run_bindsFirst_sample :
    (ofUnit ⟨0⟩).Admits shadowingCalls ∧
      ((ofUnit ⟨0⟩).run shadowingCalls).BindsFirst shadowingCalls ∧
      ((ofUnit ⟨0⟩).run shadowingCalls).lookup? ⟨2⟩ "x" =
        some (⟨1⟩, ⟨"x", ⟨4⟩, .localVar, {}⟩) :=
  have placed : (ofUnit ⟨0⟩).Admits shadowingCalls := by decide
  ⟨placed, run_bindsFirst ⟨0⟩ shadowingCalls placed, by decide +kernel⟩

end ScopeTree

end NameBinding
