import Mathlib.Data.List.TakeWhile
import NameBinding.Proofs.EnclosingRecords
import NameBinding.Proofs.NearestScope

/-!
# Type names in the scopes and in the index

The type of a field and the superclass of a record are understood twice: by the index, after
qualified names alone, and wherever the resolution of a unit comes upon such a name, after the
records bound in the scopes around. Both come to the same record as long as the scope that binds
the first segment of the name is one the index can follow, that of a record or of the unit.
Records that are bound among statements are out of its sight.
-/

namespace NameBinding

namespace RecordName

variable {qualifier : Option String} {name head : String} {rest : Option String}

/-- The two parts of a name make up the name. -/
theorem eq_of_splitHead (h : splitHead name = (head, rest)) :
    name = rest.elim head (head ++ "." ++ ·) := by
  have parts := List.takeWhile_append_dropWhile (p := (· != '.')) (l := name.toList)
  unfold splitHead at h
  split at h
  · cases h
    rfl
  · rename_i c further behind
    cases h
    have dot : c = '.' := by
      have ended := List.head?_dropWhile_not (p := (· != '.')) name.toList
      rw [behind] at ended
      simpa using ended
    rw [behind, dot] at parts
    apply String.toList_injective
    simp only [Option.elim_some, String.toList_append, String.toList_ofList, List.append_assoc]
    exact parts.symm

/-- The part before the first dot is what a walk up to the dot collects. -/
theorem toList_splitHead (name : String) :
    (splitHead name).1.toList = name.toList.takeWhile (· != '.') := by
  have parts := List.takeWhile_append_dropWhile (p := (· != '.')) (l := name.toList)
  unfold splitHead
  split
  · rename_i ended
    rw [ended, List.append_nil] at parts
    exact parts.symm
  · exact String.toList_ofList

/-- What follows a dot does not belong to the part before the first dot. -/
theorem splitHead_append_dot (name rest : String) :
    (splitHead (name ++ "." ++ rest)).1 = (splitHead name).1 := by
  apply String.toList_injective
  have dot : ".".toList = ['.'] := rfl
  rw [toList_splitHead, toList_splitHead, String.toList_append, String.toList_append, dot,
    List.append_assoc, List.takeWhile_append]
  split
  · rename_i whole
    rw [(List.takeWhile_prefix _).eq_of_length whole]
    simp
  · rfl

/-- The part before the first dot is a single segment. -/
theorem splitHead_splitHead (name : String) :
    splitHead (splitHead name).1 = ((splitHead name).1, none) := by
  have ended : (splitHead name).1.toList.dropWhile (· != '.') = [] := by
    rw [toList_splitHead, List.dropWhile_eq_nil_iff]
    exact fun c => List.mem_takeWhile_imp (p := (· != '.'))
  rw [splitHead, ended]

/-- A name without a dot is its own first segment. -/
theorem splitHead_of_segment (segment : (splitHead name).2 = none) : (splitHead name).1 = name := by
  have parts : splitHead name = ((splitHead name).1, none) := by rw [← segment]
  exact (eq_of_splitHead parts).symm

/-- A name stays nonempty when it is qualified. -/
theorem qualify_ne_empty (h : name ≠ "") : qualify qualifier name ≠ "" := by
  unfold qualify
  split
  · exact h
  · split
    · exact h
    · simp [h]

/-- Qualifying step by step or at once makes no difference. -/
theorem qualify_qualify (h : head ≠ "") (rest : String) :
    qualify (some (qualify qualifier head)) rest = qualify qualifier (head ++ "." ++ rest) := by
  have full : qualify qualifier head ≠ "" := qualify_ne_empty h
  rw [qualify, if_neg full]
  unfold qualify
  split
  · rfl
  · split
    · rfl
    · simp only [String.append_assoc]

end RecordName

namespace TypeContext

variable {package : Option String} {imports nearer around : List String} {name : String}

/-- The records nearby are tried before those further out. -/
theorem candidates_append : candidates ⟨package, imports, nearer ++ around⟩ name =
    nearer.map (fun record => RecordName.qualify (some record) name) ++
      candidates ⟨package, imports, around⟩ name := by
  simp only [candidates, List.map_append, List.append_assoc]

/-- First comes the innermost record, and the package where there is none. -/
theorem exists_candidates_cons (package : Option String) (imports around : List String)
    (name : String) : ∃ further, candidates ⟨package, imports, around⟩ name =
      RecordName.qualify (around.head?.or package) name :: further := by
  cases around with
  | nil => exact ⟨_, rfl⟩
  | cons first rest => exact ⟨_, rfl⟩

end TypeContext

/-- At the top level and in a record, a record is named after the innermost record, and after the
package where there is none. -/
theorem RecordSite.NamedIn.name_eq {package : Option String} {around : Surroundings}
    {site : RecordSite} (named : site.NamedIn package around)
    (members : around.kind = .record ∨ around.kind = .global) :
    site.name = RecordName.qualify (around.record.or package) site.decl.name := by
  have name := named.name
  rcases members with kind | kind
  · rw [kind] at name
    obtain ⟨same, inside⟩ := name
    obtain ⟨outer, here⟩ := Option.isSome_iff_exists.mp inside
    rw [same, here]
    rfl
  · rw [kind] at name
    obtain ⟨same, outside⟩ := name
    rw [same, outside]
    rfl

namespace Scene

variable {scene : Scene} {scope : ScopeId} {name : String} {use : Span}

/-- The scopes that a type name passes on the way to the one that binds its first segment. -/
def passedBy (scene : Scene) (name : String) (scope : ScopeId) (use : Span) : List Scope :=
  (scene.tree.chain scope).takeWhile fun s =>
    (offeredType? (RecordName.splitHead name).1 use s).isNone

/-- The scope that binds the first segment of a type name. -/
def binderOf? (scene : Scene) (name : String) (scope : ScopeId) (use : Span) : Option Scope :=
  (scene.tree.chain scope).find? fun s =>
    (offeredType? (RecordName.splitHead name).1 use s).isSome

/-- The index can follow a type name: if its first segment is bound at all, then by a record or
by the unit, and for no record passed on the way there does the index know a record of that name
inside. A record of the unit would be bound there, but one from outside may be so named. -/
def SeenByIndex (scene : Scene) (name : String) (scope : ScopeId) (use : Span) : Prop :=
  ∀ t ∈ scene.binderOf? name scope use, (t.kind = .record ∨ t.kind = .global) ∧
    ∀ s ∈ scene.passedBy name scope use, ∀ record ∈ s.recordName,
      scene.index.get? (RecordName.qualify (some record) name) = none

instance (scene : Scene) (name : String) (scope : ScopeId) (use : Span) :
    Decidable (scene.SeenByIndex name scope use) :=
  inferInstanceAs (Decidable (∀ t ∈ scene.binderOf? name scope use, _ ∧
    ∀ s ∈ scene.passedBy name scope use, ∀ record ∈ s.recordName, _))

/-- A first segment that is bound is bound by a scope behind those that are passed. -/
theorem exists_of_typeBinding? {binding : Binding}
    (bound : scene.typeBinding? scope (RecordName.splitHead name).1 use = some binding) :
    ∃ t after, scene.tree.chain scope = scene.passedBy name scope use ++ t :: after ∧
      scene.binderOf? name scope use = some t ∧
      offeredType? (RecordName.splitHead name).1 use t = some binding := by
  obtain ⟨before, t, after, chain, offered, passed⟩ := List.findSome?_eq_some_iff.mp bound
  have before_eq : scene.passedBy name scope use = before := by
    rw [passedBy, chain, List.takeWhile_append_of_pos (fun s hs => by rw [passed s hs]; rfl),
      List.takeWhile_cons_of_neg (by simp [offered]), List.append_nil]
  refine ⟨t, after, before_eq ▸ chain, ?_, offered⟩
  rw [binderOf?, chain, List.find?_append,
    List.find?_eq_none.mpr (fun s hs => by simp [passed s hs]),
    List.find?_cons_of_pos (by simp [offered])]
  rfl

/-- A type name whose first segment is not bound is left to the index. -/
theorem typeNamed?_of_unbound
    (unbound : scene.typeBinding? scope (RecordName.splitHead name).1 use = none) :
    scene.typeNamed? name scope use = scene.index.resolveType? name (scene.typeContext scope) := by
  unfold typeNamed?
  split
  rename_i head rest parts
  rw [parts] at unbound
  simp only [unbound]

/-- A type name whose first segment is bound denotes a record named after the one bound. -/
theorem name_of_typeNamed? {binding : Binding} {holder record : RecordInfo}
    {qualifier : Option String}
    (bound : scene.typeBinding? scope (RecordName.splitHead name).1 use = some binding)
    (known : scene.index.recordById? binding.target = some holder)
    (full : holder.name = RecordName.qualify qualifier (RecordName.splitHead name).1)
    (named : (RecordName.splitHead name).1 ≠ "")
    (denotes : scene.typeNamed? name scope use = some record) :
    record.name = RecordName.qualify qualifier name := by
  unfold typeNamed? at denotes
  split at denotes
  rename_i head rest parts
  rw [parts] at bound full named
  have whole := RecordName.eq_of_splitHead parts
  simp only [bound, known] at denotes
  cases rest with
  | none =>
    cases denotes
    rw [whole]
    exact full
  | some rest =>
    rw [RecordIndex.name_of_get? denotes, full, RecordName.qualify_qualify named, whole]
    rfl

end Scene

variable {units : List TranslationUnit} {externals : List ExternalRecord} {unit : TranslationUnit}
  {tree : ScopeTree} {state : Registration}

/-- What a scope binds as a record name is a record of the unit that stands in this scope. -/
theorem registered_type_binding (built : ScopeTree.build unit = .ok tree)
    (registered : registerDeclarations unit tree = .ok state) {t : Scope}
    (ht : t ∈ state.tree.scopes) {b : Binding} (hb : b ∈ t.types) :
    ∃ site ∈ unit.recordSites, b.target = site.decl.id ∧ b.name = site.decl.name ∧
      site.NamedIn unit.package ⟨t.kind, state.tree.recordAround t.id⟩ := by
  have traced := registered_traced built registered
  obtain ⟨record, ⟨receiver, _⟩ | ⟨d, hd, rfl, here⟩⟩ := traced.types t ht b hb
  · rw [record] at receiver
    cases receiver
  · rcases registered_cases registered hd with
      ⟨within, site, listed, rfl⟩ | ⟨within, item, listed, rfl⟩
    · obtain ⟨around, surrounds, named⟩ := ScopeTree.build_sits built _ listed
      obtain ⟨u, hu, id, rfl⟩ := registered_surroundings built registered surrounds
      have same : u = t := traced.formed.eq_of_id hu ht (id.trans here)
      subst same
      exact ⟨site, TranslationUnit.mem_recordSites.mpr ⟨within, listed⟩, rfl, rfl, named⟩
    · have noRecord := (unit.outline_nests.fits _ listed).1
      exact absurd (Declaration.bindingKind_eq_record_iff.mp record) noRecord

/-- Records of a unit that has a tree have names. -/
theorem build_name_ne (built : ScopeTree.build unit = .ok tree) {site : RecordSite}
    (h : site ∈ unit.recordSites) : site.decl.name ≠ "" := by
  intro nameless
  obtain ⟨issue, failed⟩ := ScopeTree.build_fails_iff.mpr (.inl ⟨site, h, nameless⟩)
  rw [built] at failed
  cases failed

/-- If no record passed on the way to a scope has the name inside, the record of that name in
the innermost record at that scope is the one that the index settles on. -/
theorem resolveType?_of_passed (built : ScopeTree.build unit = .ok tree)
    (registered : registerDeclarations unit tree = .ok state) {index : RecordIndex} {s t : Scope}
    (hs : s ∈ state.tree.scopes) {before after : List Scope}
    (split : state.tree.chain s.id = before ++ t :: after) {name : String} {record : RecordInfo}
    (unknown : ∀ u ∈ before, ∀ passed, u.recordName = some passed →
      index.get? (RecordName.qualify (some passed) name) = none)
    (found : index.get? (RecordName.qualify ((state.tree.recordAround t.id).or unit.package) name) =
      some record) :
    index.resolveType? name ((state.scene unit index).typeContext s.id) = some record := by
  have traced := registered_traced built registered
  have names := traced.formed.recordNames_of_split hs split
  have innermost : state.tree.recordAround t.id = (state.tree.recordNames t.id).head? := by
    rw [traced.shape.recordAround_eq, traced.shape.recordNames_eq,
      ScopeTree.build_recordAround_eq built]
  obtain ⟨further, first⟩ := TypeContext.exists_candidates_cons unit.package unit.imports
    (state.tree.recordNames t.id) name
  have candidates : ((state.scene unit index).typeContext s.id).candidates name =
      (before.filterMap (·.recordName)).map (fun passed => RecordName.qualify (some passed) name) ++
        RecordName.qualify ((state.tree.recordAround t.id).or unit.package) name :: further := by
    rw [innermost, ← first, ← TypeContext.candidates_append, ← names]
    rfl
  refine RecordIndex.resolveType?_of_candidate candidates (fun other listed => ?_) found
  obtain ⟨passed, inside, rfl⟩ := List.mem_map.mp listed
  obtain ⟨u, hu, own⟩ := List.mem_filterMap.mp inside
  exact unknown u hu passed own

section

variable {s t : Scope} {site : RecordSite}
variable (owns : RecordIndex.OwnsNames units externals unit)
  (distinct : RecordIndex.DistinctIds units externals) (member : unit ∈ units)
  (built : ScopeTree.build unit = .ok tree)
  (registered : registerDeclarations unit tree = .ok state)
include owns distinct member built registered

/-- Type names of a record are written in the same context for the index and for the scopes. -/
theorem contextOf_eq (hs : s ∈ state.tree.scopes) (h : site ∈ unit.recordSites)
    (owner : site.decl.id = s.owner) :
    (RecordCollection.ofProgram units externals).contextOf
        (site.decl.written unit site.name site.outer) =
      (state.scene unit (.ofProgram units externals)).typeContext s.id := by
  have shape := (registered_traced built registered).shape
  obtain ⟨u, hu, alike⟩ := shape.symm.exists_mem hs
  have sameId : u.id = s.id := congrArg (·.2.1) alike
  have sameOwner : u.owner = s.owner := congrArg (·.1.owner) alike
  have around := owns.enclosing_eq distinct member built hu h (owner.trans sameOwner.symm)
  have names : state.tree.recordNames s.id = tree.recordNames u.id := by
    rw [sameId, shape.recordNames_eq]
  rw [← names] at around
  exact congrArg (TypeContext.mk unit.package unit.imports) around

/-- The record that the scope of a record or of the unit offers under a name is known to the
index under the name that it is given there. -/
theorem exists_holder_of_offeredType? (ht : t ∈ state.tree.scopes)
    (members : t.kind = .record ∨ t.kind = .global) {name : String} {use : Span}
    {binding : Binding} (offered : Scene.offeredType? name use t = some binding) :
    ∃ holder, (RecordIndex.ofProgram units externals).recordById? binding.target = some holder ∧
      holder.name = RecordName.qualify ((state.tree.recordAround t.id).or unit.package) name ∧
      name ≠ "" := by
  have bound := (Option.filter_eq_some_iff.mp offered).1
  obtain ⟨hb, rfl⟩ := of_find?_key bound
  obtain ⟨site, h, target, own, named⟩ := registered_type_binding built registered ht hb
  have header : site.inHeader = false := owns.not_inHeader distinct member h
  rw [target, own, RecordIndex.recordById?_site distinct member h, header]
  exact ⟨_, rfl, named.name_eq members, build_name_ne built h⟩

/-- A type name that the index can follow denotes the same record, by its name, in the index. -/
theorem exists_resolveType?_of_typeNamed? (hs : s ∈ state.tree.scopes) {name : String}
    {use : Span} {record : RecordInfo}
    (denotes : (state.scene unit (.ofProgram units externals)).typeNamed? name s.id use =
      some record)
    (seen : (state.scene unit (.ofProgram units externals)).SeenByIndex name s.id use) :
    ∃ other, (RecordIndex.ofProgram units externals).resolveType? name
        ((state.scene unit (.ofProgram units externals)).typeContext s.id) = some other ∧
      other.name = record.name := by
  cases bound : (state.scene unit (.ofProgram units externals)).typeBinding? s.id
      (RecordName.splitHead name).1 use with
  | none =>
    rw [Scene.typeNamed?_of_unbound bound] at denotes
    exact ⟨record, denotes, rfl⟩
  | some binding =>
    obtain ⟨t, after, split, binder, offered⟩ := Scene.exists_of_typeBinding? bound
    obtain ⟨members, unknown⟩ := seen t binder
    have inChain : t ∈ state.tree.chain s.id := List.mem_of_find?_eq_some binder
    have ht := ScopeTree.mem_of_mem_chain inChain
    obtain ⟨holder, known, full, hasName⟩ := exists_holder_of_offeredType? owns distinct member
      built registered ht members offered
    have recordName := Scene.name_of_typeNamed? bound known full hasName denotes
    have indexed := RecordIndex.get?_ne_none_of_mem (Scene.mem_of_typeNamed? denotes)
    obtain ⟨other, found⟩ := Option.ne_none_iff_exists'.mp indexed
    have same := RecordIndex.name_of_get? found
    rw [recordName] at found
    exact ⟨other, resolveType?_of_passed built registered hs split unknown found, same⟩

/-- What a type name denotes at the scope of a record is what the index stores for it. -/
theorem storedName_of_typeNamed? (hs : s ∈ state.tree.scopes) (h : site ∈ unit.recordSites)
    (owner : site.decl.id = s.owner) {name : String} {use : Span} {record : RecordInfo}
    (denotes : (state.scene unit (.ofProgram units externals)).typeNamed? name s.id use =
      some record)
    (seen : (state.scene unit (.ofProgram units externals)).SeenByIndex name s.id use) :
    RecordIndex.storedName units externals unit site name = record.name := by
  obtain ⟨other, resolved, same⟩ :=
    exists_resolveType?_of_typeNamed? owns distinct member built registered hs denotes seen
  rw [RecordIndex.storedName, contextOf_eq owns distinct member built registered hs h owner,
    ← same]
  exact RecordCollection.qualifiedName_of_resolveType? resolved

end

/-- What is stored for the types of a record agrees with what they denote at a scope, from
wherever they are used, as long as the index can follow them. -/
structure Scene.StoresTypes (scene : Scene) (scope : ScopeId) (decl : Record) : Prop where
  superclass : ∀ type use record, decl.superclass = some type →
    scene.typeNamed? type.name scope use = some record → scene.SeenByIndex type.name scope use →
    ∃ info, scene.index.recordById? decl.id = some info ∧ info.superclass = some record.name
  fields : ∀ field ∈ decl.fields, ∀ use record,
    scene.typeNamed? field.type.name scope use = some record →
    scene.SeenByIndex field.type.name scope use →
    ∃ info, scene.index.fieldById? field.id = some info ∧ info.type = record.name

/-- In a program with distinct ids, in a unit whose records own their names, the index stores for
the types of a record what they denote at the scope of the record, as long as it can follow
them. -/
theorem stored_types_denote (distinct : RecordIndex.DistinctIds units externals)
    (member : unit ∈ units) (owns : RecordIndex.OwnsNames units externals unit)
    (built : ScopeTree.build unit = .ok tree)
    (registered : registerDeclarations unit tree = .ok state) {s : Scope} {site : RecordSite}
    (hs : s ∈ state.tree.scopes) (h : site ∈ unit.recordSites) (owner : site.decl.id = s.owner) :
    (state.scene unit (.ofProgram units externals)).StoresTypes s.id site.decl := by
  have header : site.inHeader = false := owns.not_inHeader distinct member h
  refine ⟨fun type use record written denotes seen => ?_,
    fun field own use record denotes seen => ?_⟩
  · have stored := storedName_of_typeNamed? owns distinct member built registered hs h owner
      denotes seen
    have known := RecordIndex.recordById?_site distinct member h
    rw [header] at known
    refine ⟨_, known, ?_⟩
    rw [RecordIndex.ofSite_superclass, written, Option.map_some, stored]
  · have stored := storedName_of_typeNamed? owns distinct member built registered hs h owner
      denotes seen
    obtain ⟨info, known, type⟩ := RecordIndex.fieldById?_site distinct member h header own
    exact ⟨info, known, type.trans stored⟩

/-- A record with fields of nested types, one of which extends the record around it. -/
def nestedUnit : TranslationUnit :=
  let inner : Record := ⟨⟨5⟩, "C", some { name := "B" }, false, [], [], [], {}⟩
  let middle : Record := ⟨⟨4⟩, "B", none, false, [], [], [inner], {}⟩
  let fields : List Field := [{ id := ⟨2⟩, name := "b", type := { name := "B" } },
    { id := ⟨3⟩, name := "c", type := { name := "B.C" } }]
  { id := ⟨0⟩, name := "Nested", package := some "demo"
    records := [⟨⟨1⟩, "A", none, false, fields, [], [middle], {}⟩] }

theorem stored_types_denote_sample :
    ∃ tree state, RecordIndex.DistinctIds [nestedUnit] [] ∧
      RecordIndex.OwnsNames [nestedUnit] [] nestedUnit ∧ ScopeTree.build nestedUnit = .ok tree ∧
      registerDeclarations nestedUnit tree = .ok state ∧
      ∃ s ∈ state.tree.scopes, ∃ site ∈ nestedUnit.recordSites, site.decl.id = s.owner ∧
        (state.scene nestedUnit (.build [nestedUnit])).StoresTypes s.id site.decl ∧
        ∃ info, (RecordIndex.build [nestedUnit]).recordById? site.decl.id = some info ∧
          info.superclass = some "demo.A.B" := by
  have distinct : RecordIndex.DistinctIds [nestedUnit] [] :=
    ⟨by decide +kernel, by decide +kernel⟩
  have owns : RecordIndex.OwnsNames [nestedUnit] [] nestedUnit := by
    unfold RecordIndex.OwnsNames
    decide +kernel
  have named : ∃ site ∈ nestedUnit.recordSites, site.decl.id = ⟨5⟩ ∧
      site.decl.superclass = some { name := "B" } := by
    decide +kernel
  have looked : (ScopeTree.build nestedUnit).toOption.map
      (fun tree => (registerDeclarations nestedUnit tree).toOption.map fun state =>
        let scene := state.scene nestedUnit (.build [nestedUnit])
        decide (∃ s ∈ state.tree.scopes, s.owner = ⟨5⟩ ∧
          (scene.typeNamed? "B" s.id {}).map (·.name) = some "demo.A.B" ∧
          scene.SeenByIndex "B" s.id {})) = some (some true) := by
    decide +kernel
  obtain ⟨tree, built, later⟩ := exists_ok_of_toOption_map looked
  obtain ⟨state, registered, found⟩ := exists_ok_of_toOption_map later
  obtain ⟨s, hs, owner, denotes, seen⟩ := of_decide_eq_true found
  obtain ⟨record, denotes, full⟩ := Option.map_eq_some_iff.mp denotes
  obtain ⟨site, h, id, superclass⟩ := named
  have same : site.decl.id = s.owner := id.trans owner.symm
  have stores := stored_types_denote distinct List.mem_cons_self owns built registered hs h same
  obtain ⟨info, known, stored⟩ := stores.superclass _ _ _ superclass denotes seen
  exact ⟨tree, state, distinct, owns, built, registered, s, hs, site, h, same, stores, info, known,
    full ▸ stored⟩

/-- A record from outside that lies, by its name, in a record passed on the way is preferred: here
the superclass of `C` is no longer the record `B` around it. -/
example : ((RecordIndex.ofProgram [nestedUnit] [{ name := "demo.A.B.C.B" }]).recordById? ⟨5⟩).bind
    (·.superclass) = some "demo.A.B.C.B" := by
  decide +kernel

/-- A method with a local record and, further down, another one that extends it and has a field
of its type. -/
def localUnit : TranslationUnit :=
  let field : Field := { id := ⟨5⟩, name := "v", type := { name := "int" } }
  let link : Field := { id := ⟨7⟩, name := "b", type := { name := "Base" }, span := ⟨35, 40⟩ }
  let base : Record := ⟨⟨4⟩, "Base", none, false, [field], [], [], ⟨10, 20⟩⟩
  let derived : Record := ⟨⟨6⟩, "Derived", some { name := "Base" }, false, [link], [], [], ⟨30, 50⟩⟩
  let body : Block := ⟨⟨3⟩, [.record base, .record derived], {}⟩
  let method : Method := ⟨⟨2⟩, "m", false, false, [], some body, {}⟩
  { id := ⟨0⟩, name := "Local", records := [⟨⟨1⟩, "A", none, false, [], [method], [], {}⟩] }

/-- A local record that extends another one, or has a field of its type, does not reach it: in
its scope the type name denotes the other record, but the index stores the name as written. -/
theorem local_types_not_stored :
    ∃ tree state, RecordIndex.DistinctIds [localUnit] [] ∧
      RecordIndex.OwnsNames [localUnit] [] localUnit ∧ ScopeTree.build localUnit = .ok tree ∧
      registerDeclarations localUnit tree = .ok state ∧
      (∃ s ∈ state.tree.scopes, s.recordName = some "A$6Derived" ∧
        ∃ record, (state.scene localUnit (.build [localUnit])).typeNamed? "Base" s.id ⟨30, 50⟩ =
          some record ∧ record.name = "A$4Base") ∧
      (∃ info, (RecordIndex.build [localUnit]).recordById? ⟨6⟩ = some info ∧
        info.superclass = some "Base") ∧
      ∃ info, (RecordIndex.build [localUnit]).fieldById? ⟨7⟩ = some info ∧ info.type = "Base" := by
  have distinct : RecordIndex.DistinctIds [localUnit] [] :=
    ⟨by decide +kernel, by decide +kernel⟩
  have owns : RecordIndex.OwnsNames [localUnit] [] localUnit := by
    unfold RecordIndex.OwnsNames
    decide +kernel
  have looked : (ScopeTree.build localUnit).toOption.map
      (fun tree => (registerDeclarations localUnit tree).toOption.map fun state =>
        decide (∃ s ∈ state.tree.scopes, s.recordName = some "A$6Derived" ∧
          ((state.scene localUnit (.build [localUnit])).typeNamed? "Base" s.id ⟨30, 50⟩).map
            (·.name) = some "A$4Base")) = some (some true) := by
    decide +kernel
  have superclass : ((RecordIndex.build [localUnit]).recordById? ⟨6⟩).map (·.superclass) =
      some (some "Base") := by
    decide +kernel
  have type : ((RecordIndex.build [localUnit]).fieldById? ⟨7⟩).map (·.type) = some "Base" := by
    decide +kernel
  obtain ⟨tree, built, later⟩ := exists_ok_of_toOption_map looked
  obtain ⟨state, registered, found⟩ := exists_ok_of_toOption_map later
  obtain ⟨s, hs, named, denotes⟩ := of_decide_eq_true found
  exact ⟨tree, state, distinct, owns, built, registered,
    ⟨s, hs, named, Option.map_eq_some_iff.mp denotes⟩, Option.map_eq_some_iff.mp superclass,
    Option.map_eq_some_iff.mp type⟩

end NameBinding
