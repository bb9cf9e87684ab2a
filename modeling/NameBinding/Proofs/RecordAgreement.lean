import NameBinding.Proofs.IndexedUnit
import NameBinding.Proofs.RegisteredUnit
import NameBinding.Proofs.ScopeSurroundings

/-!
# Scope tree and index know the same records

The scope tree and the index of a program come upon the records of a unit in two different walks
and name them twice. With distinct ids they agree on every record: on its id, its name and the
record around it. Only records in the headers of `for` loops are in the tree alone.
-/

namespace NameBinding

variable {units : List TranslationUnit} {externals : List ExternalRecord} {unit : TranslationUnit}
  {tree : ScopeTree}

namespace ScopeTree

/-- A record of a unit has opened a scope that tells its name and that lies in the record around
it. -/
theorem build_scope_of_site (built : build unit = .ok tree) {site : RecordSite}
    (h : site ∈ unit.recordSites) :
    ∃ s ∈ tree.scopes,
      s.toScopeHeader = ⟨.record, site.decl.id, site.decl.isStatic, some site.name⟩ ∧
        s.parent.bind tree.recordAround = site.outer := by
  obtain ⟨within, listed⟩ := TranslationUnit.mem_recordSites.mp h
  have opens := mem_openingsOf.mpr ⟨_, unit.outline_perm.mem_iff.mp listed, rfl⟩
  obtain ⟨s, hs, mirror⟩ := build_shows built _ opens
  obtain ⟨p, parent, here⟩ := mirror.parent
  obtain ⟨around, ⟨t, _, placed, _, record⟩, named⟩ := build_sits built _ listed
  have same : some p = some t.id := here.symm.trans placed
  cases same
  refine ⟨s, hs, mirror.header, ?_⟩
  rw [parent, Option.bind_some, record, named.outer]

/-- A record scope has been opened by a record of the unit. -/
theorem build_site_of_scope (built : build unit = .ok tree) {s : Scope} (hs : s ∈ tree.scopes)
    (record : s.kind = .record) :
    ∃ site ∈ unit.recordSites, site.decl.id = s.owner ∧ s.recordName = some site.name ∧
      s.parent.bind tree.recordAround = site.outer := by
  obtain ⟨site, h, owner⟩ := build_record_site built hs record
  obtain ⟨t, ht, header, outer⟩ := build_scope_of_site built h
  have same : t = s := (build_formed built).eq_of_owner ht hs (by rw [header, ← owner])
  subst same
  exact ⟨site, h, owner, by rw [header], outer⟩

end ScopeTree

/-- The tree of a unit and an index know the same records of the unit under the same names, those
in the headers of `for` loops apart. -/
structure ScopeTree.AgreesOnRecords (tree : ScopeTree) (unit : TranslationUnit)
    (index : RecordIndex) : Prop where
  /-- Each record scope belongs to a record of the unit. The index knows this record by the name
  and the outer record that the tree tells, unless it stands in the header of a loop: then the
  index does not know it. -/
  known : ∀ s ∈ tree.scopes, s.kind = .record →
    ∃ site ∈ unit.recordSites, site.decl.id = s.owner ∧
      if site.inHeader then index.recordById? s.owner = none
      else ∃ record, index.recordById? s.owner = some record ∧
        s.recordName = some record.name ∧ record.outer = s.parent.bind tree.recordAround
  /-- Each record of the unit that the index knows has a record scope. -/
  opened : ∀ record ∈ index.records, record.id ∈ unit.declaredIds →
    ∃ s ∈ tree.scopes, s.kind = .record ∧ s.owner = record.id

/-- In a program with distinct ids the scope tree of a unit and the index of the program agree on
the records of the unit. -/
theorem tree_and_index_agree_on_records (distinct : RecordIndex.DistinctIds units externals)
    (member : unit ∈ units) (built : ScopeTree.build unit = .ok tree) :
    tree.AgreesOnRecords unit (.ofProgram units externals) := by
  refine ⟨fun s hs record => ?_, fun record indexed declared => ?_⟩
  · obtain ⟨site, h, owner, name, outer⟩ := ScopeTree.build_site_of_scope built hs record
    refine ⟨site, h, owner, ?_⟩
    have found := RecordIndex.recordById?_site distinct member h
    rw [owner] at found
    cases header : site.inHeader with
    | true =>
      rw [if_pos rfl, found, if_pos header]
    | false =>
      rw [header] at found
      exact ⟨_, found, name, outer.symm⟩
  · obtain ⟨site, h, _, rfl⟩ := RecordIndex.exists_site_of_declared distinct member indexed declared
    obtain ⟨s, hs, header, _⟩ := ScopeTree.build_scope_of_site built h
    have kind : s.kind = .record := by rw [header]
    have owner : s.owner = site.decl.id := by rw [header]
    exact ⟨s, hs, kind, owner⟩

theorem tree_and_index_agree_on_records_sample :
    ∃ tree, RecordIndex.DistinctIds [sampleUnit] [] ∧ ScopeTree.build sampleUnit = .ok tree ∧
      tree.AgreesOnRecords sampleUnit (.build [sampleUnit]) := by
  have distinct : RecordIndex.DistinctIds [sampleUnit] [] :=
    ⟨by decide +kernel, by decide +kernel⟩
  exact ⟨_, distinct, rfl, tree_and_index_agree_on_records distinct List.mem_cons_self rfl⟩

/-- A unit with a record in the header of a `for` loop. -/
def headerUnit : TranslationUnit :=
  let empty (id : UInt32) : Block := ⟨⟨id⟩, [], {}⟩
  let loop : Stmt := .forLoop ⟨4⟩ [.record ⟨⟨5⟩, "L", none, false, [], [], [], {}⟩] none []
    (.block (empty 6)) {}
  let method : Method := ⟨⟨2⟩, "m", false, false, [], some ⟨⟨3⟩, [loop], {}⟩, {}⟩
  { id := ⟨0⟩, name := "Header", records := [⟨⟨1⟩, "A", none, false, [], [method], [], {}⟩] }

/-- A record in the header of a loop has a scope, but the index does not know it. -/
theorem header_record_not_indexed :
    ∃ tree, RecordIndex.DistinctIds [headerUnit] [] ∧ ScopeTree.build headerUnit = .ok tree ∧
      ∃ s ∈ tree.scopes, s.kind = .record ∧ s.recordName = some "A$5L" ∧
        (RecordIndex.build [headerUnit]).recordById? s.owner = none := by
  refine ⟨_, ⟨by decide +kernel, by decide +kernel⟩, rfl, ?_⟩
  decide +kernel

end NameBinding
