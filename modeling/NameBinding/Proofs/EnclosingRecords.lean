import NameBinding.Proofs.RecordAgreement
import NameBinding.Proofs.StoredTypes

/-!
# The records around a record

The index follows the outer records of a record by name, the scope tree follows parents. Where
the records of a unit own their names, both come upon the same records in the same order.
-/

namespace NameBinding

namespace RecordIndex

variable {index : RecordIndex} {link : RecordInfo → Option String} {visited names : List String}
  {name : String} {record : RecordInfo}

/-- Where there is no link, nothing is met. -/
theorem trail_none : index.trail link visited none = [] := by
  rw [trail]

/-- A new name that is known is followed further. -/
theorem trail_known (new : name ∉ visited) (found : index.get? name = some record) :
    index.trail link visited (some name) =
      name :: index.trail link (name :: visited) (link record) := by
  rw [trail]
  split
  · rename_i seen
    exact absurd (List.contains_iff_mem.mp seen) new
  · split
    · rename_i absent
      rw [found] at absent
      cases absent
    · rename_i other again
      rw [found] at again
      cases again
      rfl

/-- Each of the names is known, and its link leads to the next one. -/
def Linked (index : RecordIndex) (link : RecordInfo → Option String) : List String → Prop
  | [] => True
  | name :: rest =>
    (∃ record, index.get? name = some record ∧ link record = rest.head?) ∧ index.Linked link rest

/-- Names that are linked are known. -/
theorem Linked.known (linked : index.Linked link names) :
    ∀ name ∈ names, (index.get? name).isSome := by
  induction names with
  | nil => simp
  | cons first rest ih =>
    obtain ⟨⟨record, found, _⟩, further⟩ := linked
    intro name listed
    rcases List.mem_cons.mp listed with rfl | listed
    · rw [found, Option.isSome_some]
    · exact ih further name listed

/-- Distinct names that are linked are met one after the other. -/
theorem Linked.trail_eq (linked : index.Linked link names) (distinct : names.Nodup)
    (new : ∀ name ∈ names, name ∉ visited) : index.trail link visited names.head? = names := by
  induction names generalizing visited with
  | nil => exact trail_none
  | cons first rest ih =>
    obtain ⟨⟨record, found, next⟩, further⟩ := linked
    have apart : first ∉ rest := (List.nodup_cons.mp distinct).1
    have newRest : ∀ name ∈ rest, name ∉ first :: visited := by
      intro name listed seen
      rcases List.mem_cons.mp seen with rfl | seen
      · exact apart listed
      · exact new name (List.mem_cons_of_mem _ listed) seen
    have later := ih further (List.nodup_cons.mp distinct).2 newRest
    rw [List.head?_cons, trail_known (new first List.mem_cons_self) found, next, later]

end RecordIndex

namespace ScopeTree

variable {tree later : ScopeTree} {s : Scope}

/-- Names of the records at and around a scope, innermost first. -/
def recordNames (tree : ScopeTree) (id : ScopeId) : List String :=
  (tree.chain id).filterMap (·.recordName)

/-- The names start with that of the scope itself and go on with those of the parent. -/
theorem Formed.recordNames_eq (formed : tree.Formed) (hs : s ∈ tree.scopes) :
    tree.recordNames s.id = s.recordName.toList ++ s.parent.elim [] tree.recordNames := by
  have here := formed.scope?_id hs
  have first : (s :: []).filterMap (·.recordName) = s.recordName.toList := by
    cases named : s.recordName <;> simp [named]
  rw [← first, recordNames]
  cases hp : s.parent with
  | none =>
    rw [chain_of_parent_none here hp]
    exact (List.append_nil _).symm
  | some parent =>
    rw [formed.chain_of_parent here hp]
    exact List.filterMap_append (l := [s])

/-- The names at and around a scope end in those at and around any scope of its chain. -/
theorem Formed.recordNames_of_split (formed : tree.Formed) (hs : s ∈ tree.scopes) {t : Scope}
    {before after : List Scope} (split : tree.chain s.id = before ++ t :: after) :
    tree.recordNames s.id = before.filterMap (·.recordName) ++ tree.recordNames t.id := by
  have further := formed.chain_of_split hs split
  rw [recordNames, recordNames, split, further, List.filterMap_append]

/-- Binding names does not change them. -/
theorem SameShape.recordNames_eq (h : tree.SameShape later) (id : ScopeId) :
    later.recordNames id = tree.recordNames id := by
  have byFrame : ∀ t : ScopeTree, t.recordNames id =
      ((t.chain id).map frame).filterMap (·.1.recordName) := by
    intro t
    rw [List.filterMap_map]
    rfl
  rw [byFrame, byFrame, h.chain]

variable {unit : TranslationUnit}

/-- Of all scopes those of records have record names. -/
theorem build_recordName_isSome_iff (built : build unit = .ok tree) (hs : s ∈ tree.scopes) :
    s.recordName.isSome ↔ s.kind = .record := by
  rcases build_header_cases built hs with same | ⟨record, named⟩ | plain
  · simp [same]
  · simp [record, named]
  · simp [plain.nameless, plain.not_record]

/-- The innermost record around a scope is the first one. -/
theorem build_recordAround_eq (built : build unit = .ok tree) (id : ScopeId) :
    tree.recordAround id = (tree.recordNames id).head? := by
  have inTree : ∀ s ∈ tree.chain id, s ∈ tree.scopes := fun _ => mem_of_mem_chain
  rw [recordAround, recordNames, List.head?_filterMap]
  generalize tree.chain id = scopes at inTree
  induction scopes with
  | nil => rfl
  | cons s rest ih =>
    have named := build_recordName_isSome_iff built (inTree s List.mem_cons_self)
    have further := ih fun t ht => inTree t (List.mem_cons_of_mem _ ht)
    by_cases record : s.kind = .record
    · obtain ⟨name, own⟩ := Option.isSome_iff_exists.mp (named.mpr record)
      simp [record, own]
    · have nameless : s.recordName = none := by simpa [record] using named
      simpa [record, nameless] using further

/-- A record name of a scope is the name of a record of the unit, and the outer record is the
next one around. -/
theorem build_site_of_recordName (built : build unit = .ok tree) (hs : s ∈ tree.scopes)
    {name : String} (named : s.recordName = some name) :
    ∃ site ∈ unit.recordSites, site.decl.id = s.owner ∧ site.name = name ∧
      site.outer = (s.parent.elim [] tree.recordNames).head? := by
  have record : s.kind = .record := by
    rw [← build_recordName_isSome_iff built hs, named, Option.isSome_some]
  obtain ⟨site, h, owner, own, outer⟩ := build_site_of_scope built hs record
  rw [named] at own
  refine ⟨site, h, owner, (Option.some.inj own).symm, ?_⟩
  rw [← outer]
  cases s.parent with
  | none => rfl
  | some parent => exact build_recordAround_eq built parent

end ScopeTree

namespace RecordIndex

variable {units : List TranslationUnit} {externals : List ExternalRecord} {unit : TranslationUnit}
  {tree : ScopeTree} {site other : RecordSite} {s : Scope}

/-- No record of the unit has lost its name to another record. -/
def OwnsNames (units : List TranslationUnit) (externals : List ExternalRecord)
    (unit : TranslationUnit) : Prop :=
  ∀ site ∈ unit.recordSites,
    (ofProgram units externals).get? site.name = some (ofSite units externals unit site)

namespace OwnsNames

/-- Before the index is completed, the names lead to the records and to what is around them. -/
theorem exists_written (owns : OwnsNames units externals unit) (h : site ∈ unit.recordSites) :
    ∃ info, (RecordCollection.ofProgram units externals).asWritten.get? site.name = some info ∧
      info.outer = site.outer := by
  obtain ⟨written, _, found, same⟩ := RecordCollection.exists_of_finish_get? (owns site h)
  have outer : site.outer = written.info.outer := congrArg RecordInfo.outer same
  exact ⟨written.info, found, outer.symm⟩

variable (owns : OwnsNames units externals unit) (distinct : DistinctIds units externals)
  (member : unit ∈ units)
include owns distinct member

/-- Records that own their names do not stand in the headers of loops. -/
theorem not_inHeader (h : site ∈ unit.recordSites) : site.inHeader = false := by
  have indexed := (of_find?_key (owns site h)).1
  have declared := TranslationUnit.declaredId_of_site h
  obtain ⟨other, h', header, same⟩ := exists_site_of_declared distinct member indexed declared
  have sameId : site.decl.id = other.decl.id := congrArg RecordInfo.id same
  rw [TranslationUnit.site_eq_of_id (distinct.unit_nodup member) h h' sameId]
  exact header

/-- A record that owns its name is known by it. -/
theorem site_eq_of_name (h : site ∈ unit.recordSites) (h' : other ∈ unit.recordSites)
    (same : site.name = other.name) : site = other := by
  have found := owns site h
  rw [same, owns other h'] at found
  have sameId : other.decl.id = site.decl.id := congrArg RecordInfo.id (Option.some.inj found)
  exact TranslationUnit.site_eq_of_id (distinct.unit_nodup member) h h' sameId.symm

variable (built : ScopeTree.build unit = .ok tree)
include built

/-- No record around a scope has the name of a record further out. -/
theorem recordNames_nodup (hs : s ∈ tree.scopes) : (tree.recordNames s.id).Nodup := by
  have formed := ScopeTree.build_formed built
  refine formed.outward_induction (P := fun s => (tree.recordNames s.id).Nodup) ?_ ?_ s hs
  · intro s hs hp
    rw [formed.recordNames_eq hs, hp]
    cases s.recordName <;> simp
  · intro s hs p hp' hp ih
    rw [formed.recordNames_eq hs, hp]
    cases named : s.recordName with
    | none => exact ih
    | some name =>
      refine List.nodup_cons.mpr ⟨fun listed => ?_, ih⟩
      obtain ⟨u, inChain, again⟩ := List.mem_filterMap.mp listed
      have hu := ScopeTree.mem_of_mem_chain inChain
      obtain ⟨site, h, owner, rfl, _⟩ := ScopeTree.build_site_of_recordName built hs named
      obtain ⟨other, h', owner', same, _⟩ := ScopeTree.build_site_of_recordName built hu again
      cases owns.site_eq_of_name distinct member h h' same.symm
      have sameScope : u = s := formed.eq_of_owner hu hs (owner'.symm.trans owner)
      have before : p.id.index < s.id.index := formed.parent_lt (formed.scope?_id hs) hp
      have after : u.id.index ≤ p.id.index := formed.index_le_of_mem_chain hp' u inChain
      rw [sameScope] at after
      omega

omit distinct member in
/-- From each record around a scope its outer record leads to the next one. -/
theorem recordNames_linked (hs : s ∈ tree.scopes) :
    (RecordCollection.ofProgram units externals).asWritten.Linked (·.outer)
      (tree.recordNames s.id) := by
  have formed := ScopeTree.build_formed built
  have step : ∀ s ∈ tree.scopes,
      (RecordCollection.ofProgram units externals).asWritten.Linked (·.outer)
        (s.parent.elim [] tree.recordNames) →
      (RecordCollection.ofProgram units externals).asWritten.Linked (·.outer)
        (tree.recordNames s.id) := by
    intro s hs around
    rw [formed.recordNames_eq hs]
    cases named : s.recordName with
    | none => exact around
    | some name =>
      obtain ⟨site, h, _, rfl, outer⟩ := ScopeTree.build_site_of_recordName built hs named
      obtain ⟨info, found, same⟩ := owns.exists_written h
      exact ⟨⟨info, found, same.trans outer⟩, around⟩
  refine formed.outward_induction (P := fun s =>
    (RecordCollection.ofProgram units externals).asWritten.Linked (·.outer)
      (tree.recordNames s.id)) ?_ ?_ s hs
  · intro s hs hp
    exact step s hs (by rw [hp]; trivial)
  · intro s hs p _ hp ih
    exact step s hs (by rw [hp]; exact ih)

/-- The index finds around a record the records that the tree has around its scope. -/
theorem enclosing_eq (hs : s ∈ tree.scopes) (h : site ∈ unit.recordSites)
    (owner : site.decl.id = s.owner) :
    (RecordCollection.ofProgram units externals).asWritten.enclosing
      (site.decl.written unit site.name site.outer).info = tree.recordNames s.id := by
  have formed := ScopeTree.build_formed built
  obtain ⟨t, ht, header, _⟩ := ScopeTree.build_scope_of_site built h
  have sameScope : t = s := formed.eq_of_owner ht hs (by rw [header, ← owner])
  subst sameScope
  have named : t.recordName = some site.name := by rw [header]
  obtain ⟨other, h', owner', _, outer⟩ := ScopeTree.build_site_of_recordName built ht named
  cases TranslationUnit.site_eq_of_id (distinct.unit_nodup member) h h' (owner.trans owner'.symm)
  have linked := owns.recordNames_linked built ht
  have apart := owns.recordNames_nodup distinct member built ht
  have names : tree.recordNames t.id = site.name :: t.parent.elim [] tree.recordNames := by
    rw [formed.recordNames_eq ht, named]
    rfl
  rw [names] at linked apart ⊢
  have new : ∀ name ∈ t.parent.elim [] tree.recordNames, name ∉ [site.name] := by
    intro name listed own
    rw [List.mem_singleton.mp own] at listed
    exact (List.nodup_cons.mp apart).1 listed
  have met := linked.2.trail_eq (List.nodup_cons.mp apart).2 new
  rw [← outer] at met
  have known := List.filter_eq_self.mpr linked.2.known
  rw [enclosing]
  refine congrArg (site.name :: ·) (Eq.trans ?_ known)
  exact congrArg (List.filter _) met

end OwnsNames

end RecordIndex

end NameBinding
