import NameBinding.Proofs.RegisteredUnit
import NameBinding.Proofs.TreeCalls
import NameBinding.Shadow

/-!
# Locals of sibling scopes

A use is warned about if a scope off its chain binds a local of its name in the same method. The
search for this local goes through all scopes of the tree. The locals of a tree can also be grouped
first, in a table by method and name, so that a use looks at the locals of its own method and name
only. The table lists the names of one scope in no particular order, but a scope holds a name once:
both ways lead to the same warnings, those that the definition of a sibling local asks for.
-/

namespace NameBinding

/-! ### Names are held once -/

/-- A scope binds no variable name twice, and records alone in the namespace of records. -/
structure Scope.HoldsOnce (s : Scope) : Prop where
  vars : (s.vars.map (·.name)).Nodup
  types : ∀ b ∈ s.types, b.kind = .record

/-- A scope that binds a name that was free still holds each name once. -/
theorem Scope.HoldsOnce.bind {s : Scope} {binding : Binding} (once : s.HoldsOnce)
    (free : s.holder? binding.kind binding.name = none) : (s.bind binding).HoldsOnce := by
  refine ⟨?_, fun b hb => ?_⟩
  · unfold Scope.holder? at free
    unfold Scope.bind
    split
    · exact once.vars
    · rename_i kind
      rw [if_neg kind, Scope.varBinding?, List.find?_eq_none] at free
      have new : binding.name ∉ s.vars.map (·.name) := by
        intro held
        obtain ⟨b, hb, same⟩ := List.mem_map.mp held
        exact free b hb (beq_iff_eq.mpr same)
      rw [List.map_append]
      exact (List.perm_append_singleton _ _).nodup_iff.mpr (List.nodup_cons.mpr ⟨new, once.vars⟩)
  · rcases ScopeTree.mem_types_bind hb with hb | ⟨rfl, kind⟩
    · exact once.types b hb
    · exact kind

namespace Registration

variable {state next : Registration}

/-- The tree is formed and its scopes hold names once. -/
structure HoldsOnce (state : Registration) : Prop where
  formed : state.tree.Formed
  once : ∀ s ∈ state.tree.scopes, s.HoldsOnce

namespace HoldsOnce

variable {scope : ScopeId} {binding : Binding} {decl : Declaration}

/-- A name is bound only in a scope where it is free. -/
theorem bound (h : HoldsOnce state) (took : state.tree.declare scope binding = .ok next.tree) :
    HoldsOnce next := by
  refine ⟨(ScopeTree.declare_sameShape took).formed h.formed, fun t ht => ?_⟩
  obtain ⟨free, _⟩ := ScopeTree.declare_eq_ok_iff.mp took
  obtain ⟨s, hs, _, rfl | ⟨rfl, rfl⟩⟩ := h.formed.mem_of_declare took ht
  · exact h.once t hs
  · rw [h.formed.scope?_id hs, Option.bind_some] at free
    exact (h.once s hs).bind free

/-- Declarations leave names held once. -/
theorem declare (h : HoldsOnce state) (taken : state.declare decl = .ok next) :
    HoldsOnce next := by
  obtain ⟨_, _, ⟨tree, took, rfl⟩ | ⟨first, _, rfl⟩⟩ := declare_eq_ok_iff.mp taken
  · exact h.bound took
  · exact ⟨h.formed, h.once⟩

/-- So do receivers. -/
theorem bindReceiver (h : HoldsOnce state) : HoldsOnce (state.bindReceiver scope binding) := by
  unfold Registration.bindReceiver
  cases took : state.tree.declare scope binding with
  | ok tree => exact h.bound took
  | error first => exact h

end HoldsOnce

end Registration

section registered

variable {unit : TranslationUnit} {tree : ScopeTree} {state : Registration}

/-- The scopes of a registered unit hold names once. -/
theorem registered_holdsOnce (built : ScopeTree.build unit = .ok tree)
    (registered : registerDeclarations unit tree = .ok state) : state.HoldsOnce := by
  rw [registerDeclarations_eq] at registered
  refine Registration.steps_preserves Registration.HoldsOnce (fun h taken => h.declare taken)
    (fun scope decl h => Registration.bindReceivers_preserves _ scope decl
      (fun _ _ h => h.bindReceiver) h)
    ⟨ScopeTree.build_formed built, fun s hs => ?_⟩ registered
  obtain ⟨noVars, noTypes⟩ := ScopeTree.build_empty built s hs
  exact ⟨by simp [noVars], by simp [noTypes]⟩

end registered

/-! ### Locals grouped by method and name -/

namespace MethodLocals

variable {table : MethodLocals} {method scope : ScopeId}

/-- A local that is added is listed last under its method and name, and nothing else changes. -/
theorem called_add (binding : Binding) (around : ScopeId) (name : String) :
    (table.add method scope binding).called around name =
      table.called around name ++
        if method = around ∧ binding.name = name then [(scope, binding)] else [] := by
  unfold called add
  rw [valueAt?_putEntry]
  by_cases same : method = around ∧ binding.name = name
  · obtain ⟨rfl, rfl⟩ := same
    simp [called]
  · rw [if_neg same, if_neg (by rwa [Prod.mk.injEq]), List.append_nil]

/-- Locals of a scope are added one after the other. -/
theorem called_foldl (locals : List Binding) (around : ScopeId) (name : String) :
    (locals.foldl (add method scope) table).called around name =
      table.called around name ++
        if method = around then (locals.filter (·.name == name)).map (scope, ·) else [] := by
  induction locals generalizing table with
  | nil => simp
  | cons binding rest ih =>
    rw [List.foldl_cons, ih, called_add, List.append_assoc, List.filter_cons]
    by_cases here : method = around <;> by_cases named : binding.name = name <;> simp [here, named]

end MethodLocals

namespace ScopeTree

variable {tree : ScopeTree} {order : Scope → List Binding} {site : ReferenceSite}

/-- The order lists what a scope binds, variables and records, each once. -/
def Lists (tree : ScopeTree) (order : Scope → List Binding) : Prop :=
  ∀ s ∈ tree.scopes, (order s).Perm (s.vars ++ s.types)

/-- A scope holds one variable of a name. -/
theorem filter_vars {s : Scope} (once : s.HoldsOnce) (name : String) :
    s.vars.filter (·.name == name) = (s.varBinding? name).toList := by
  cases found : s.varBinding? name with
  | none => exact List.filter_eq_nil_iff.mpr (List.find?_eq_none.mp found)
  | some b =>
    obtain ⟨hb, rfl⟩ := of_find?_key found
    exact filter_key (·.name) once.vars hb

/-- So there is at most one local of a name, and the order of the others does not matter. -/
theorem filter_locals {s : Scope} (once : s.HoldsOnce) {listed : List Binding}
    (perm : listed.Perm (s.vars ++ s.types)) (name : String) :
    (listed.filter (·.kind == .localVar)).filter (·.name == name) =
      ((s.varBinding? name).filter (·.kind == .localVar)).toList := by
  have noTypes : s.types.filter (·.kind == .localVar) = [] := by
    rw [List.filter_eq_nil_iff]
    intro b hb
    rw [once.types b hb]
    decide
  have locals := perm.filter (·.kind == .localVar)
  rw [List.filter_append, noTypes, List.append_nil] at locals
  have reordered := locals.filter (·.name == name)
  rw [List.filter_comm _ _ s.vars, filter_vars once, ← Option.toList_filter] at reordered
  cases found : (s.varBinding? name).filter (·.kind == .localVar) with
  | none =>
    rw [found] at reordered
    exact reordered.eq_nil
  | some b =>
    rw [found] at reordered
    exact List.perm_singleton.mp reordered

/-- A scope adds the local of a name that it binds in a method, if there is one. -/
theorem called_groupScope {s : Scope} (once : s.HoldsOnce)
    (listed : (order s).Perm (s.vars ++ s.types)) (table : MethodLocals) (method : ScopeId)
    (name : String) :
    (tree.groupScope order table s).called method name =
      table.called method name ++ (tree.localIn? method name s).toList.map (s.id, ·) := by
  unfold groupScope localIn?
  cases s.kind with
  | block | loop | handler =>
    cases around : tree.enclosingMethod? s.id with
    | none => simp
    | some m =>
      simp only [MethodLocals.called_foldl, filter_locals once listed]
      by_cases same : m = method <;> simp [same]
  | global | record | method => simp

/-- The table lists the locals of a method and name in the order of the scopes. -/
theorem called_methodLocals (once : ∀ s ∈ tree.scopes, s.HoldsOnce) (listed : tree.Lists order)
    (method : ScopeId) (name : String) :
    (tree.methodLocals order).called method name =
      tree.scopes.flatMap fun s => (tree.localIn? method name s).toList.map (s.id, ·) := by
  have run : ∀ scopes ⊆ tree.scopes, ∀ table : MethodLocals,
      (scopes.foldl (tree.groupScope order) table).called method name =
        table.called method name ++
          scopes.flatMap fun s => (tree.localIn? method name s).toList.map (s.id, ·) := by
    intro scopes
    induction scopes with
    | nil => simp
    | cons s rest ih =>
      intro part table
      obtain ⟨hs, others⟩ := List.cons_subset.mp part
      rw [List.foldl_cons, ih others, called_groupScope (once s hs) (listed s hs),
        List.flatMap_cons, List.append_assoc]
  exact run tree.scopes (List.Subset.refl _) []

/-- The search among grouped locals and the search through all scopes find the same local. -/
theorem groupedLocal?_eq (once : ∀ s ∈ tree.scopes, s.HoldsOnce) (listed : tree.Lists order)
    (method : ScopeId) (site : ReferenceSite) :
    tree.groupedLocal? (tree.methodLocals order) method site = tree.otherLocal? method site := by
  have missing : ∀ (found : Option (List (ScopeId × Binding))) (p : ScopeId × Binding → Bool),
      (found.bind fun candidates => (candidates.find? p).map (·.2)) =
        ((found.getD []).find? p).map (·.2) := by
    rintro (_ | candidates) p <;> rfl
  have inScope : ∀ (bound : Option Binding) (id : ScopeId) (p : ScopeId × Binding → Bool),
      ((bound.toList.map (id, ·)).find? p).map (·.2) = bound.filter (p ⟨id, ·⟩) := by
    rintro (_ | binding) id p
    · rfl
    · by_cases taken : p (id, binding) = true <;> simp [taken, Option.filter]
  have candidates := called_methodLocals once listed method site.name
  unfold MethodLocals.called at candidates
  rw [groupedLocal?, missing, candidates, List.find?_flatMap, List.map_findSome?, otherLocal?]
  congr 1
  funext s
  exact inScope _ s.id _

/-- So the grouped locals lead to the same warnings. -/
theorem groupedIssues_eq (once : ∀ s ∈ tree.scopes, s.HoldsOnce) (listed : tree.Lists order)
    (sites : List ReferenceSite) : tree.groupedIssues order sites = tree.shadowIssues sites := by
  unfold groupedIssues shadowIssues
  congr 1
  funext site
  unfold groupedIssue? shadowIssue?
  congr 1
  funext method
  rw [groupedLocal?_eq once listed]

end ScopeTree

/-! ### What a warning says -/

namespace ScopeTree

variable {tree : ScopeTree} {site : ReferenceSite}

/-- The scope `id` lies in a method: outward from it no record and no other method comes first. -/
def LiesIn (tree : ScopeTree) (id method : ScopeId) : Prop :=
  ∃ before m after, tree.chain id = before ++ m :: after ∧ m.id = method ∧ m.kind = .method ∧
    ∀ s ∈ before, s.kind ≠ .record ∧ s.kind ≠ .method

/-- The scope `t`, off the chain of a use in a method, binds a local of the same method under the
name of the use, and the use does not denote it. -/
structure SiblingLocal (tree : ScopeTree) (method : ScopeId) (site : ReferenceSite) (t : Scope)
    (other : Binding) : Prop where
  opened : t ∈ tree.scopes
  kind : t.kind = .block ∨ t.kind = .loop ∨ t.kind = .handler
  inside : tree.LiesIn t.id method
  off : t ∉ tree.chain site.scope
  bound : other ∈ t.vars
  name : other.name = site.name
  isLocal : other.kind = .localVar
  unmeant : ∀ resolution, site.resolved = some resolution → resolution.target ≠ other.target

/-- The issue warns about a use in a method. It points at the sibling local in the scope that was
opened first. -/
def Warns (tree : ScopeTree) (site : ReferenceSite) (issue : Issue) : Prop :=
  ∃ method t other, tree.LiesIn site.scope method ∧ tree.SiblingLocal method site t other ∧
    (∀ u another, tree.SiblingLocal method site u another → t.id.index ≤ u.id.index) ∧
    issue = ⟨.ambiguousShadow site.name other.definedAt, site.span⟩

/-- The variable that is found under a name is the only one of this name. -/
theorem varBinding?_eq_some_iff {s : Scope} (once : s.HoldsOnce) {name : String} {b : Binding} :
    s.varBinding? name = some b ↔ b ∈ s.vars ∧ b.name = name := by
  constructor
  · exact of_find?_key
  · rintro ⟨hb, rfl⟩
    exact find?_key (·.name) once.vars hb

/-- The local that the search takes from a scope is the sibling local that the scope binds. -/
theorem siblingLocal_iff (formed : tree.Formed) {t : Scope} (ht : t ∈ tree.scopes)
    (once : t.HoldsOnce) {method : ScopeId} {other : Binding} :
    ((tree.localIn? method site.name t).filter fun binding =>
      some binding.target != site.resolved.map (·.target) &&
        !tree.isAncestor t.id site.scope) = some other ↔
      tree.SiblingLocal method site t other := by
  have off : tree.isAncestor t.id site.scope = false ↔ t ∉ tree.chain site.scope := by
    rw [← not_iff_not, Bool.not_eq_false, not_not, isAncestor_iff]
    constructor
    · rintro ⟨s, hs, same⟩
      rwa [← formed.eq_of_id (mem_of_mem_chain hs) ht same]
    · exact fun h => ⟨t, h, rfl⟩
  have unmeant : (some other.target != site.resolved.map (·.target)) = true ↔
      ∀ resolution, site.resolved = some resolution → resolution.target ≠ other.target := by
    cases site.resolved with
    | none => simp
    | some resolution =>
      simp only [Option.map_some, bne_iff_ne, Ne, Option.some.injEq, forall_eq']
      exact ne_comm
  have found : tree.localIn? method site.name t = some other ↔
      (t.kind = .block ∨ t.kind = .loop ∨ t.kind = .handler) ∧ tree.LiesIn t.id method ∧
        other ∈ t.vars ∧ other.name = site.name ∧ other.kind = .localVar := by
    unfold localIn? LiesIn
    rw [← enclosingMethod?_eq_some_iff]
    cases t.kind with
    | block | loop | handler =>
      simp only [Option.filter_eq_some_iff, varBinding?_eq_some_iff once, Bool.and_eq_true,
        beq_iff_eq]
      tauto
    | global | record | method => simp
  rw [Option.filter_eq_some_iff, found, Bool.and_eq_true, unmeant, Bool.not_eq_true', off]
  constructor
  · rintro ⟨⟨kind, inside, bound, name, isLocal⟩, other, apart⟩
    exact ⟨ht, kind, inside, apart, bound, name, isLocal, other⟩
  · intro h
    exact ⟨⟨h.kind, h.inside, h.bound, h.name, h.isLocal⟩, h.unmeant, h.off⟩

/-- The search finds the sibling local in the scope that was opened first. -/
theorem otherLocal?_eq_some_iff (formed : tree.Formed) (once : ∀ s ∈ tree.scopes, s.HoldsOnce)
    {method : ScopeId} {other : Binding} :
    tree.otherLocal? method site = some other ↔ ∃ t, tree.SiblingLocal method site t other ∧
      ∀ u another, tree.SiblingLocal method site u another → t.id.index ≤ u.id.index := by
  have increasing := formed.scopes_increasing
  unfold otherLocal?
  rw [List.findSome?_eq_some_iff]
  constructor
  · rintro ⟨before, t, after, split, found, none⟩
    have ht : t ∈ tree.scopes := split ▸ List.mem_append_right _ List.mem_cons_self
    refine ⟨t, (siblingLocal_iff formed ht (once t ht)).mp found, fun u another h => ?_⟩
    have hu := h.opened
    rw [split] at hu increasing
    rcases List.mem_append.mp hu with early | late
    · have sibling := (siblingLocal_iff formed h.opened (once u h.opened)).mpr h
      rw [none u early] at sibling
      cases sibling
    · rcases List.mem_cons.mp late with rfl | late
      · exact le_rfl
      · have rest := (List.pairwise_append.mp increasing).2.1
        exact (List.rel_of_pairwise_cons rest late).le
  · rintro ⟨t, h, first⟩
    obtain ⟨before, after, split⟩ := List.append_of_mem h.opened
    refine ⟨before, t, after, split, (siblingLocal_iff formed h.opened (once t h.opened)).mpr h,
      fun u early => ?_⟩
    have hu : u ∈ tree.scopes := split ▸ List.mem_append_left _ early
    rw [split] at increasing
    have lt := (List.pairwise_append.mp increasing).2.2 u early t List.mem_cons_self
    rw [Option.eq_none_iff_forall_ne_some]
    intro another found
    have le := first u another ((siblingLocal_iff formed hu (once u hu)).mp found)
    omega

/-- A use is warned about as the definition of a sibling local asks for. -/
theorem shadowIssue?_eq_some_iff (formed : tree.Formed) (once : ∀ s ∈ tree.scopes, s.HoldsOnce)
    {issue : Issue} : tree.shadowIssue? site = some issue ↔ tree.Warns site issue := by
  unfold shadowIssue?
  simp only [Option.bind_eq_some_iff, Option.map_eq_some_iff, otherLocal?_eq_some_iff formed once]
  constructor
  · rintro ⟨method, around, other, ⟨t, sibling, first⟩, rfl⟩
    exact ⟨method, t, other, enclosingMethod?_eq_some_iff.mp around, sibling, first, rfl⟩
  · rintro ⟨method, t, other, inside, sibling, first, rfl⟩
    exact ⟨method, enclosingMethod?_eq_some_iff.mpr inside, other, ⟨t, sibling, first⟩, rfl⟩

end ScopeTree

variable {unit : TranslationUnit} {tree : ScopeTree} {state : Registration}

/-- In a registered unit the uses are warned about in their order, each as the definition of a
sibling local asks for. Grouping the locals first leads to the same warnings, in whatever order the
names of a scope are listed. -/
theorem sibling_warnings_exact (built : ScopeTree.build unit = .ok tree)
    (registered : registerDeclarations unit tree = .ok state) {order : Scope → List Binding}
    (listed : state.tree.Lists order) (sites : List ReferenceSite) :
    state.tree.groupedIssues order sites = state.tree.shadowIssues sites ∧
      state.tree.shadowIssues sites = sites.filterMap state.tree.shadowIssue? ∧
      ∀ site issue, state.tree.shadowIssue? site = some issue ↔ state.tree.Warns site issue := by
  obtain ⟨formed, once⟩ := registered_holdsOnce built registered
  exact ⟨ScopeTree.groupedIssues_eq once listed sites, rfl,
    fun _ _ => ScopeTree.shadowIssue?_eq_some_iff formed once⟩

/-- Two loops, each with the variables `v` and `w` in its header. -/
def twoLoops : TranslationUnit :=
  let header (id : UInt32) (name : String) (start : UInt32) : Stmt :=
    .localVar { id := ⟨id⟩, name, type := { name := "int" }, span := { start } }
  let loop (id start : UInt32) : Stmt :=
    .forLoop ⟨id⟩ [header (id + 1) "v" start, header (id + 2) "w" start] none []
      (.block ⟨⟨id + 3⟩, [.expr (.reference { id := ⟨id + 4⟩, name := "v" })], {}⟩) {}
  { id := ⟨0⟩, name := "Loops"
    records := [⟨⟨1⟩, "A", none, false, [],
      [⟨⟨2⟩, "m", false, false, [], some ⟨⟨3⟩, [loop 4 10, loop 9 50], {}⟩, {}⟩], [], {}⟩] }

/-- The uses of `v` in the two loops, each of which denotes the variable of its loop. -/
def twoUses : List ReferenceSite :=
  [⟨⟨8⟩, "v", ⟨5⟩, { start := 20 }, some { resolved := ⟨⟨5⟩, .localVar⟩ }⟩,
    ⟨⟨13⟩, "v", ⟨7⟩, { start := 60 }, some { resolved := ⟨⟨10⟩, .localVar⟩ }⟩]

/-- Each use is warned about, with the variable of the other loop. -/
theorem sibling_warnings_exact_sample :
    ∃ tree state, ScopeTree.build twoLoops = .ok tree ∧
      registerDeclarations twoLoops tree = .ok state ∧
      (state.tree.Lists fun s => (s.vars ++ s.types).reverse) ∧
      (state.tree.groupedIssues (fun s => (s.vars ++ s.types).reverse) twoUses =
        [⟨.ambiguousShadow "v" { start := 50 }, { start := 20 }⟩,
          ⟨.ambiguousShadow "v" { start := 10 }, { start := 60 }⟩]) ∧
      ∀ site issue, state.tree.shadowIssue? site = some issue ↔ state.tree.Warns site issue := by
  have looked : (ScopeTree.build twoLoops).toOption.map
      (fun tree => (registerDeclarations twoLoops tree).toOption.map fun state =>
        state.tree.shadowIssues twoUses) =
      some (some [⟨.ambiguousShadow "v" { start := 50 }, { start := 20 }⟩,
        ⟨.ambiguousShadow "v" { start := 10 }, { start := 60 }⟩]) := by
    decide +kernel
  obtain ⟨tree, built, later⟩ := exists_ok_of_toOption_map looked
  obtain ⟨state, registered, warned⟩ := exists_ok_of_toOption_map later
  have listed : state.tree.Lists fun s => (s.vars ++ s.types).reverse :=
    fun s _ => List.reverse_perm _
  obtain ⟨grouped, _, exact⟩ := sibling_warnings_exact built registered listed twoUses
  exact ⟨tree, state, built, registered, listed, grouped.trans warned, exact⟩

end NameBinding
