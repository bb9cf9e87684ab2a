import NameBinding.Proofs.SyntaxMirror

/-!
# What is around a scope

A built tree has around each place what the syntax has around it: a scope of the same kind, and
the same innermost record. So what a construct is told by its surroundings (how a record is named,
which sorts of variables are declared) can be read off the tree.
-/

namespace NameBinding

namespace ScopeTree

variable {tree later : ScopeTree} {id parent : ScopeId} {place : Place} {around : Surroundings}
  {s : Scope}

/-- The qualified name of the innermost record at or around a scope. -/
def recordAround (tree : ScopeTree) (id : ScopeId) : Option String :=
  ((tree.chain id).find? (·.kind == .record)).bind (·.recordName)

/-- At a record scope the innermost record is the record itself. -/
theorem Formed.recordAround_record (formed : tree.Formed) (hs : tree.scope? id = some s)
    (hp : s.parent = some parent) (record : s.kind = .record) :
    tree.recordAround id = s.recordName := by
  rw [recordAround, formed.chain_of_parent hs hp, List.find?_cons_of_pos (by simp [record])]
  rfl

/-- At any other scope it is that of the parent. -/
theorem Formed.recordAround_plain (formed : tree.Formed) (hs : tree.scope? id = some s)
    (hp : s.parent = some parent) (plain : s.kind ≠ .record) :
    tree.recordAround id = tree.recordAround parent := by
  rw [recordAround, formed.chain_of_parent hs hp, List.find?_cons_of_neg (by simpa using plain)]
  rfl

/-- Binding names does not change what the innermost records are. -/
theorem SameShape.recordAround_eq (h : tree.SameShape later) (id : ScopeId) :
    later.recordAround id = tree.recordAround id := by
  have byFrame : ∀ t : ScopeTree, t.recordAround id =
      (((t.chain id).map frame).find? (·.1.kind == .record)).bind (·.1.recordName) := by
    intro t
    rw [List.find?_map, Option.bind_map]
    rfl
  rw [byFrame, byFrame, h.chain]

/-- The tree has these surroundings around a place. -/
def Surrounds (tree : ScopeTree) (around : Surroundings) (place : Place) : Prop :=
  ∃ s ∈ tree.scopes, tree.scopeAt? place = some s.id ∧ s.kind = around.kind ∧
    tree.recordAround s.id = around.record

/-- The tree has a scope that mirrors the construct. -/
def Shows (tree : ScopeTree) (opening : Opening) : Prop :=
  ∃ s ∈ tree.scopes, tree.Mirrors s opening

variable {opening : Opening}

/-- Inside a construct that is no record the innermost record stays the same. -/
theorem Surrounds.inside_plain (formed : tree.Formed) (here : tree.Surrounds around place)
    (shown : tree.Shows opening) (within : opening.within = place)
    (plain : opening.header.kind ≠ .record) :
    tree.Surrounds ⟨opening.header.kind, around.record⟩ (.node opening.header.owner) := by
  obtain ⟨p, _, placed, _, record⟩ := here
  obtain ⟨s, hs, mirror⟩ := shown
  obtain ⟨q, hq, there⟩ := mirror.parent
  rw [within, placed] at there
  cases there
  have kind : s.kind = opening.header.kind := congrArg ScopeHeader.kind mirror.header
  have owner : s.owner = opening.header.owner := congrArg ScopeHeader.owner mirror.header
  refine ⟨s, hs, owner ▸ formed.scopeOf?_owner hs, kind, ?_⟩
  rw [formed.recordAround_plain (formed.scope?_id hs) hq (kind ▸ plain), record]

/-- Inside a record it is the innermost one. -/
theorem Surrounds.inside_record (formed : tree.Formed) (shown : tree.Shows opening)
    (kind : opening.header.kind = .record) :
    tree.Surrounds ⟨.record, opening.header.recordName⟩ (.node opening.header.owner) := by
  obtain ⟨s, hs, mirror⟩ := shown
  obtain ⟨q, hq, _⟩ := mirror.parent
  have record : s.kind = .record := by rw [mirror.header, kind]
  have owner : s.owner = opening.header.owner := congrArg ScopeHeader.owner mirror.header
  refine ⟨s, hs, owner ▸ formed.scopeOf?_owner hs, record, ?_⟩
  rw [formed.recordAround_record (formed.scope?_id hs) hq record, mirror.header]

/-- The scope of the unit is in no record. -/
theorem surrounds_unit (unit : NodeId)
    (first : tree.scopes[0]? = some ⟨⟨.global, unit, false, none⟩, .global, none, [], []⟩) :
    tree.Surrounds .ofUnit .unit := by
  refine ⟨_, List.mem_of_getElem? first, rfl, rfl, ?_⟩
  have chain : tree.chain .global = [_] := Formed.chain_of_parent_none first rfl
  rw [recordAround, chain]
  rfl

end ScopeTree

/-- What a step is told by its surroundings. -/
def Step.Sits (tree : ScopeTree) (package : Option String) : Step → Prop
  | record within site => ∃ around, tree.Surrounds around within ∧ site.NamedIn package around
  | declares within item => item.kind = .field ∨
    ∃ around, tree.Surrounds around within ∧ around.kind.Takes item.kind
  | opens .. => True
  | uses .. => True

/-- The fields of a record are told nothing by their surroundings. -/
theorem Field.outline_sits {tree : ScopeTree} {package : Option String} {place : Place}
    {field : Field} : ∀ item ∈ field.outline place, item.Sits tree package := by
  intro item member
  rcases List.mem_cons.mp member with rfl | member
  · exact .inl rfl
  · cases initializer : field.initializer with
    | none => simp [initializer] at member
    | some value =>
      rw [initializer] at member
      rw [List.mem_singleton.mp member]
      trivial

/-- In a tree that shows the constructs of an outline, every step sits in its surroundings. -/
theorem NestsIn.sits {tree : ScopeTree} {package : Option String} {around : Surroundings}
    {place : Place} {steps : List Step} (formed : tree.Formed)
    (h : NestsIn package around place steps) (here : tree.Surrounds around place)
    (shown : ∀ opening ∈ openingsOf steps, tree.Shows opening) :
    ∀ item ∈ steps, item.Sits tree package := by
  induction h with
  | nil => simp
  | append _ _ ihx ihy =>
    rw [openingsOf_append] at shown
    intro item member
    rcases List.mem_append.mp member with member | member
    · exact ihx here (fun opening listed => shown opening (List.mem_append_left _ listed))
        item member
    · exact ihy here (fun opening listed => shown opening (List.mem_append_right _ listed))
        item member
  | declares takes =>
    intro item member
    rw [List.mem_singleton.mp member]
    exact .inr ⟨_, here, takes⟩
  | uses =>
    intro item member
    rw [List.mem_singleton.mp member]
    trivial
  | opens plain _ ih =>
    rw [openingsOf_opens] at shown
    have own := shown _ List.mem_cons_self
    have inside := here.inside_plain formed own rfl plain.not_record
    intro item member
    rcases List.mem_cons.mp member with rfl | member
    · trivial
    · exact ih inside (fun opening listed => shown opening (List.mem_cons_of_mem _ listed))
        item member
  | loopOver plain _ _ ihv ihb =>
    rw [openingsOf_append, openingsOf_opens, openingsOf_uses, List.cons_append] at shown
    have own := shown _ List.mem_cons_self
    have inside := here.inside_plain formed own rfl plain.not_record
    have further := fun opening listed => shown opening (List.mem_cons_of_mem _ listed)
    intro item member
    rcases List.mem_append.mp member with member | member
    · rcases List.mem_cons.mp member with rfl | member
      · trivial
      · exact ihv inside (fun opening listed => further opening (List.mem_append_left _ listed))
          item member
    · rcases List.mem_cons.mp member with rfl | member
      · trivial
      · exact ihb inside (fun opening listed => further opening (List.mem_append_right _ listed))
          item member
  | record named _ ih =>
    rw [openingsOf_append, openingsOf_record, openingsOf_fields, List.singleton_append] at shown
    have own := shown _ List.mem_cons_self
    have inside := ScopeTree.Surrounds.inside_record formed own rfl
    intro item member
    rcases List.mem_append.mp member with member | member
    · rcases List.mem_cons.mp member with rfl | member
      · exact ⟨_, here, named⟩
      · obtain ⟨field, _, member⟩ := List.mem_flatMap.mp member
        exact Field.outline_sits item member
    · exact ih inside (fun opening listed => shown opening (List.mem_cons_of_mem _ listed))
        item member

namespace ScopeTree

variable {unit : TranslationUnit} {tree : ScopeTree}

/-- A built tree shows the constructs of its unit. -/
theorem build_shows (built : build unit = .ok tree) :
    ∀ opening ∈ unit.openings, tree.Shows opening := by
  obtain ⟨opened, scopes, mirrors⟩ := build_adds_mirrors built
  intro opening listed
  obtain ⟨s, hs, mirror⟩ := exists_left_of_forall₂ mirrors opening listed
  rw [Shows, scopes]
  exact ⟨s, List.mem_append_right _ hs, mirror⟩

/-- Every step of a unit sits in its surroundings in the tree of the unit. -/
theorem build_sits (built : build unit = .ok tree) :
    ∀ item ∈ unit.outline .recordsFirst, item.Sits tree unit.package := by
  have formed := build_formed built
  obtain ⟨opened, scopes, _⟩ := build_adds_mirrors built
  have first : tree.Surrounds .ofUnit .unit := by
    refine surrounds_unit unit.id ?_
    rw [scopes]
    rfl
  have nested : NestsIn unit.package .ofUnit .unit (unit.outline .methodsFirst) :=
    unit.outline_nestsIn
  have sits := nested.sits formed first (build_shows built)
  exact fun item member => sits item (unit.outline_perm.mem_iff.mp member)

end ScopeTree

end NameBinding
