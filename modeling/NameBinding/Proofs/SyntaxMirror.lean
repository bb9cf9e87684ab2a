import Mathlib.Data.List.Forall2
import NameBinding.Proofs.Nesting
import NameBinding.Proofs.ScopeBuilding

/-!
# The scope tree mirrors the syntax

The scopes of a built tree are, in the order of opening, the scope of the unit and one scope for
each construct of the unit that opens one, inside the scope of the nearest construct around it.
-/

namespace NameBinding

/-- The node whose scope a place stands for, in a unit with the given id. -/
def Place.owner (unit : NodeId) : Place → NodeId
  | .unit => unit
  | .node id => id

namespace ScopeTree

variable {tree later : ScopeTree} {place : Place}

/-- A scope mirrors a construct: it tells what the construct tells, it lies in the scope of the
construct's place, and nothing is bound in it. -/
structure Mirrors (tree : ScopeTree) (s : Scope) (opening : Opening) : Prop where
  header : s.toScopeHeader = opening.header
  parent : ∃ p, s.parent = some p ∧ tree.scopeAt? opening.within = some p
  vars : s.vars = []
  types : s.types = []

/-- A scope mirrors its construct however the tree grows. -/
theorem Mirrors.of_grown {s : Scope} {opening : Opening} (h : tree.Mirrors s opening)
    (grown : tree.GrowsTo later) : later.Mirrors s opening where
  header := h.header
  parent := by
    obtain ⟨p, hp, here⟩ := h.parent
    exact ⟨p, hp, scopeAt?_of_grown grown here⟩
  vars := h.vars
  types := h.types

/-- Constructs that stand at a place each add the scope that mirrors them. -/
def AddsMirrors (place : Place) (openings : List Opening) : Prop :=
  ∀ tree later : ScopeTree, tree.Formed → (tree.scopeAt? place).isSome →
    tree.openScopes openings = .ok later →
    ∃ added, later.scopes = tree.scopes ++ added ∧ List.Forall₂ later.Mirrors added openings

namespace AddsMirrors

variable {xs ys : List Opening} {opening : Opening}

/-- No constructs add no scopes. -/
theorem nil : AddsMirrors place [] := by
  intro tree later _ _ run
  cases run
  exact ⟨[], (List.append_nil _).symm, .nil⟩

/-- Constructs add their scopes one after the other. -/
theorem append (hx : AddsMirrors place xs) (hy : AddsMirrors place ys) :
    AddsMirrors place (xs ++ ys) := by
  intro tree later formed here run
  rw [openScopes_append] at run
  obtain ⟨middle, first, second⟩ := bind_eq_ok_iff.mp run
  obtain ⟨addedFirst, scopesFirst, mirrorsFirst⟩ := hx tree middle formed here first
  have stillHere : (middle.scopeAt? place).isSome := by
    obtain ⟨scope, hs⟩ := Option.isSome_iff_exists.mp here
    rw [scopeAt?_of_grown (openScopes_grow first) hs, Option.isSome_some]
  obtain ⟨addedSecond, scopesSecond, mirrorsSecond⟩ :=
    hy middle later (formed.openScopes first) stillHere second
  refine ⟨addedFirst ++ addedSecond, ?_, List.rel_append ?_ mirrorsSecond⟩
  · rw [scopesSecond, scopesFirst, List.append_assoc]
  · exact mirrorsFirst.imp fun _ _ mirrors => mirrors.of_grown (openScopes_grow second)

/-- A construct adds its scope, what is inside it the scopes inside. -/
theorem cons (within : opening.within = place)
    (inside : AddsMirrors (.node opening.header.owner) xs) :
    AddsMirrors place (opening :: xs) := by
  intro tree later formed here run
  rw [openScopes_cons] at run
  obtain ⟨middle, first, rest⟩ := bind_eq_ok_iff.mp run
  have middleFormed := formed.openScope first
  obtain ⟨scope, hs⟩ := Option.isSome_iff_exists.mp here
  obtain ⟨_, fresh, rfl⟩ := openScope_eq_ok_iff.mp first
  rw [within, hs, Option.getD_some] at rest middleFormed
  have opened : (tree.push scope opening.header).scopeAt? (.node opening.header.owner) =
      some ⟨tree.size⟩ := middleFormed.scopeOf?_owner (mem_of_scope? scope?_push)
  have there : ((tree.push scope opening.header).scopeAt?
      (.node opening.header.owner)).isSome := by
    rw [opened, Option.isSome_some]
  obtain ⟨added, scopes, mirrors⟩ := inside _ later middleFormed there rest
  refine ⟨tree.nextScope scope opening.header :: added, ?_, .cons ⟨rfl, ?_, rfl, rfl⟩ mirrors⟩
  · rw [scopes, push, List.append_assoc, List.singleton_append]
  · rw [within]
    exact ⟨scope, rfl, scopeAt?_of_grown (growsTo_push.trans (openScopes_grow rest)) hs⟩

end AddsMirrors

/-- The constructs of an outline each add the scope that mirrors them. -/
theorem addsMirrors_of_nests {steps : List Step} (h : Nests place steps) :
    AddsMirrors place (openingsOf steps) := by
  induction h with
  | nil | declares _ _ | uses => exact .nil
  | append _ _ ihx ihy =>
    rw [openingsOf_append]
    exact ihx.append ihy
  | opens _ _ ih =>
    rw [openingsOf_opens]
    exact .cons rfl ih
  | loopOver _ _ _ ihv ihb =>
    rw [openingsOf_append, openingsOf_opens, openingsOf_uses, List.cons_append]
    exact .cons rfl (ihv.append ihb)
  | record _ ih =>
    rw [openingsOf_append, openingsOf_record, openingsOf_fields,
      List.singleton_append]
    exact .cons rfl ih

/-- The tree of a unit grows from the scope of the unit by one scope for each construct. -/
theorem build_adds_mirrors {unit : TranslationUnit} (built : build unit = .ok tree) :
    ∃ opened, tree.scopes = (ofUnit unit.id).scopes ++ opened ∧
      List.Forall₂ tree.Mirrors opened unit.openings := by
  rw [build_eq] at built
  exact addsMirrors_of_nests unit.outline_nests _ _ (ofUnit_formed unit.id) rfl built

/-- A built tree is formed. -/
theorem build_formed {unit : TranslationUnit} (built : build unit = .ok tree) : tree.Formed := by
  rw [build_eq] at built
  exact (ofUnit_formed unit.id).openScopes built

/-- The unit owns the first scope of its tree. -/
theorem build_scopeOf?_unit {unit : TranslationUnit} (built : build unit = .ok tree) :
    tree.scopeOf? unit.id = some .global := by
  rw [build_eq] at built
  exact scopeOf?_of_grown (openScopes_grow built) (by simp [scopeOf?, ofUnit])

/-- The scope that a step opens is there. -/
def Covers (tree : ScopeTree) (item : Step) : Prop :=
  ∀ opening ∈ item.opening?, ∃ scope, tree.scopeOf? opening.header.owner = some scope

/-- What a tree covers is covered by every tree of its shape. -/
theorem Covers.of_sameShape {item : Step} (covered : tree.Covers item)
    (same : tree.SameShape later) : later.Covers item := by
  intro opening member
  rw [same.scopeOf?_eq]
  exact covered opening member

/-- Places stand for the scopes of their owners. -/
theorem build_scopeAt?_eq {unit : TranslationUnit} (built : build unit = .ok tree)
    (place : Place) : tree.scopeAt? place = tree.scopeOf? (place.owner unit.id) := by
  cases place with
  | unit => exact (build_scopeOf?_unit built).symm
  | node id => rfl

/-- The scopes tell, in order, what the unit and its constructs tell. -/
theorem build_headers {unit : TranslationUnit} (built : build unit = .ok tree) :
    tree.scopes.map (·.toScopeHeader) =
      ⟨.global, unit.id, false, none⟩ :: unit.openings.map (·.header) := by
  obtain ⟨opened, scopes, mirrors⟩ := build_adds_mirrors built
  have same : List.Forall₂ Eq (opened.map (·.toScopeHeader)) (unit.openings.map (·.header)) := by
    rw [List.forall₂_map_left_iff, List.forall₂_map_right_iff]
    exact mirrors.imp fun _ _ mirror => mirror.header
  rw [List.forall₂_eq_eq_eq] at same
  rw [scopes, List.map_append, same]
  rfl

/-- The owners of the scopes are the unit and its constructs. -/
theorem build_owners {unit : TranslationUnit} (built : build unit = .ok tree) :
    tree.scopes.map (·.owner) = unit.id :: unit.openings.map (·.header.owner) := by
  have owners := congrArg (List.map ScopeHeader.owner) (build_headers built)
  rw [List.map_map, List.map_cons, List.map_map] at owners
  exact owners

/-- A built tree has the scopes of all steps of its unit. -/
theorem build_covers {unit : TranslationUnit} (built : build unit = .ok tree) :
    ∀ item ∈ unit.outline .recordsFirst, tree.Covers item := by
  intro item member opening opens
  have listed : opening ∈ unit.openings :=
    mem_openingsOf.mpr ⟨item, unit.outline_perm.mem_iff.mp member, opens⟩
  have owned : opening.header.owner ∈ tree.scopes.map (·.owner) := by
    rw [build_owners built]
    exact List.mem_cons_of_mem _ (List.mem_map_of_mem listed)
  obtain ⟨s, hs, owner⟩ := List.mem_map.mp owned
  exact ⟨s.id, owner ▸ (build_formed built).scopeOf?_owner hs⟩

end ScopeTree

/-- The header of a construct is that of a record with its name or that of a plain construct. -/
theorem header_of_mem_openings {unit : TranslationUnit} {opening : Opening}
    (member : opening ∈ unit.openings) :
    (opening.header.kind = .record ∧ opening.header.recordName.isSome) ∨ opening.header.Plain := by
  rcases TranslationUnit.opening_cases member with ⟨_, _, _, header, _⟩ | ⟨plain, _⟩
  · rw [header]
    exact .inl ⟨rfl, rfl⟩
  · exact .inr plain

/-- A scope of a built tree has the header of the unit, of a record or of a plain construct. -/
theorem ScopeTree.build_header_cases {unit : TranslationUnit} {tree : ScopeTree} {s : Scope}
    (built : ScopeTree.build unit = .ok tree) (hs : s ∈ tree.scopes) :
    s.toScopeHeader = ⟨.global, unit.id, false, none⟩ ∨
      (s.kind = .record ∧ s.recordName.isSome) ∨ s.toScopeHeader.Plain := by
  have header : s.toScopeHeader ∈ tree.scopes.map (·.toScopeHeader) := List.mem_map_of_mem hs
  rw [build_headers built] at header
  rcases List.mem_cons.mp header with same | listed
  · exact .inl same
  · obtain ⟨opening, member, same⟩ := List.mem_map.mp listed
    exact .inr (same ▸ header_of_mem_openings member)

/-- The scopes of a tree are those that a unit describes. -/
structure ScopeTree.MirrorsUnit (tree : ScopeTree) (unit : TranslationUnit) : Prop where
  /-- First comes the scope of the unit, then one scope for each construct that opens one, in
  order. It has the kind, the flag and the name that the construct tells and lies in the scope of
  the nearest construct around. -/
  scopes : ∃ opened,
    tree.scopes = { kind := .global, owner := unit.id, id := .global, parent := none } :: opened ∧
    List.Forall₂ (fun (s : Scope) (opening : Opening) =>
      s.toScopeHeader = opening.header ∧ s.parent.isSome ∧
        s.parent = tree.scopeOf? (opening.within.owner unit.id)) opened unit.openings
  /-- Ids count the scopes. -/
  ids : ∀ (i : Nat) (s : Scope), tree.scopes[i]? = some s → s.id = ⟨i⟩
  /-- Each construct has opened one scope. -/
  owners : (unit.id :: unit.openings.map (·.header.owner)).Nodup
  /-- Records have names, nothing else has. -/
  named : ∀ s ∈ tree.scopes, s.recordName.isSome ↔ s.kind = .record
  /-- Only records and methods can be static. -/
  static : ∀ s ∈ tree.scopes, s.isStatic = true → s.kind = .record ∨ s.kind = .method

/-- The scope tree that is built for a unit mirrors its syntax. -/
theorem ScopeTree.build_mirrorsUnit {unit : TranslationUnit} {tree : ScopeTree}
    (built : ScopeTree.build unit = .ok tree) : tree.MirrorsUnit unit := by
  obtain ⟨opened, scopes, mirrors⟩ := build_adds_mirrors built
  have formed := build_formed built
  have header : ∀ s ∈ tree.scopes, s.toScopeHeader = ⟨.global, unit.id, false, none⟩ ∨
      ∃ opening ∈ unit.openings, opening.header = s.toScopeHeader := by
    intro s hs
    have member := List.mem_map_of_mem (f := fun s : Scope => s.toScopeHeader) hs
    rw [build_headers built] at member
    exact (List.mem_cons.mp member).imp_right List.mem_map.mp
  refine ⟨⟨opened, scopes, ?_⟩, fun i s => formed.id_eq, ?_, ?_, ?_⟩
  · refine mirrors.imp fun s opening mirror => ⟨mirror.header, ?_⟩
    obtain ⟨p, hp, here⟩ := mirror.parent
    rw [hp, ← build_scopeAt?_eq built, here]
    exact ⟨rfl, rfl⟩
  · rw [← build_owners built]
    exact formed.owners
  · intro s hs
    rcases header s hs with same | ⟨opening, member, same⟩
    · simp [same]
    · rw [← same]
      rcases header_of_mem_openings member with ⟨kind, name⟩ | plain
      · simp [kind, name]
      · simp [plain.nameless, plain.not_record]
  · intro s hs isStatic
    rcases header s hs with same | ⟨opening, member, same⟩
    · simp [same] at isStatic
    · rw [← same] at isStatic ⊢
      rcases header_of_mem_openings member with ⟨kind, _⟩ | plain
      · exact .inl kind
      · exact .inr (plain.method_of_isStatic isStatic)

/-- A small unit: a record with a field, a method that holds a loop and a local record, and a
nested record. -/
def sampleUnit : TranslationUnit :=
  let int : TypeRef := { name := "int" }
  let use (id : UInt32) (name : String) : Expr :=
    .reference { id := ⟨id⟩, name, span := { start := 9 } }
  let empty (id : UInt32) (name : String) : Record := ⟨⟨id⟩, name, none, false, [], [], [], {}⟩
  let loop : Stmt := .forLoop ⟨8⟩ [.localVar { id := ⟨9⟩, name := "i", type := int }] none []
    (.block ⟨⟨10⟩, [.expr (use 11 "x"), .expr (use 12 "v")], {}⟩) {}
  let copy : LocalDecl := { id := ⟨6⟩, name := "v", type := int, initializer := some (use 7 "p") }
  let body : Block := ⟨⟨5⟩, [.localVar copy, loop, .record (empty 13 "L")], {}⟩
  let parameter : Parameter := { id := ⟨4⟩, name := "p", type := int }
  let method : Method := ⟨⟨3⟩, "m", false, false, [parameter], some body, {}⟩
  { id := ⟨0⟩, name := "Sample", package := some "demo"
    records := [⟨⟨1⟩, "A", none, false, [{ id := ⟨2⟩, name := "x", type := int }], [method],
      [empty 14 "B"], {}⟩] }

theorem ScopeTree.build_mirrorsUnit_sample :
    ∃ tree, ScopeTree.build sampleUnit = .ok tree ∧ tree.MirrorsUnit sampleUnit :=
  ⟨_, rfl, ScopeTree.build_mirrorsUnit rfl⟩

end NameBinding
