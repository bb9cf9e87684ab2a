import NameBinding.Proofs.IndexOrder
import NameBinding.Proofs.RecordAgreement
import NameBinding.Proofs.TakenNames

/-!
# Qualified names tell records apart

A qualified name is the name of the unit's package, if any, followed by the steps that lead to a
record: a dot and a simple name for a nested record, a dollar sign, an id in digits and a simple
name for a local one. Where simple names have no dots and dollar signs and do not start with
digits, the last step can be read off the text. So two records of one name stand in records of one
name and are the same in the end, unless one scope declares two records of the same simple name.
-/

namespace NameBinding

/-! ### Reading the last step -/

namespace RecordName

/-- The characters that steps of a qualified name start with. -/
def IsSeparator (c : Char) : Prop := c = '.' ∨ c = '$'

/-- A simple name without separators that does not start with a digit. -/
structure IsIdentifier (name : String) : Prop where
  nonempty : name ≠ ""
  plain : ∀ c ∈ name.toList, c ≠ '.' ∧ c ≠ '$'
  start : ∀ c ∈ name.toList.head?, c.isDigit = false

/-- Whether a name is an identifier can be read off its characters. -/
theorem isIdentifier_iff {name : String} : IsIdentifier name ↔
    name ≠ "" ∧ (name.toList.all fun c => c != '.' && c != '$') = true ∧
      (name.toList.head?.all fun c => !c.isDigit) = true := by
  simp only [List.all_eq_true, Option.all_eq_true, Bool.and_eq_true, bne_iff_ne, Bool.not_eq_true']
  exact ⟨fun ⟨nonempty, plain, start⟩ => ⟨nonempty, plain, start⟩,
    fun ⟨nonempty, plain, start⟩ => ⟨nonempty, plain, start⟩⟩

instance (name : String) : Decidable (IsIdentifier name) := decidable_of_iff' _ isIdentifier_iff

variable {before before' last last' : List Char} {c c' : Char}

/-- A text with a separator does not go on at the last separator of a longer one. -/
theorem not_separator_of_append (same : c :: last = before ++ c' :: last') (more : before ≠ [])
    (free : ∀ x ∈ last, ¬IsSeparator x) : ¬IsSeparator c' := by
  obtain ⟨first, rest, rfl⟩ := List.exists_cons_of_ne_nil more
  obtain ⟨-, rfl⟩ := List.cons.inj same
  exact free c' (List.mem_append_right _ List.mem_cons_self)

/-- A text is cut at its last separator in one way only. -/
theorem cut_at_last_separator (same : before ++ c :: last = before' ++ c' :: last')
    (sep : IsSeparator c) (sep' : IsSeparator c') (free : ∀ x ∈ last, ¬IsSeparator x)
    (free' : ∀ x ∈ last', ¬IsSeparator x) : before = before' ∧ c = c' ∧ last = last' := by
  rcases List.append_eq_append_iff.mp same with ⟨between, rfl, tail⟩ | ⟨between, rfl, tail⟩
  · cases between with
    | nil =>
      obtain ⟨rfl, rfl⟩ := List.cons.inj tail
      exact ⟨(List.append_nil _).symm, rfl, rfl⟩
    | cons x rest => exact absurd sep' (not_separator_of_append tail (List.cons_ne_nil _ _) free)
  · cases between with
    | nil =>
      obtain ⟨rfl, rfl⟩ := List.cons.inj tail
      exact ⟨List.append_nil _, rfl, rfl⟩
    | cons x rest => exact absurd sep (not_separator_of_append tail (List.cons_ne_nil _ _) free')

section

variable {outer name : String} {id : NodeId}

/-- The name of a nested record has a dot behind that of the outer one. -/
theorem toList_qualify_some (nonempty : outer ≠ "") :
    (qualify (some outer) name).toList = outer.toList ++ '.' :: name.toList := by
  simp [qualify, nonempty]

/-- The name of a local record has a dollar sign and its id behind that of the record around it. -/
theorem toList_ofLocal :
    (ofLocal outer id name).toList = outer.toList ++ '$' :: (id.digits.toList ++ name.toList) := by
  simp [ofLocal]

/-- The package comes before the name, whatever the name. -/
theorem qualify_eq_append (package : Option String) (name : String) :
    qualify package name = qualify package "" ++ name := by
  cases package with
  | none => simp [qualify]
  | some package => by_cases empty : package = "" <;> simp [qualify, empty]

end

/-! ### Ids in front of names -/

section

variable {id other : NodeId} {name name' : String}

/-- An id is written in decimal. -/
theorem toList_digits (id : NodeId) : id.digits.toList = Nat.toDigits 10 id.number.toNat := by
  rw [NodeId.digits, Nat.toString_eq_repr, Nat.repr_eq_ofList_toDigits, String.toList_ofList]

/-- An id is written in digits only. -/
theorem isDigit_of_mem_digits {c : Char} (h : c ∈ id.digits.toList) : c.isDigit = true := by
  rw [toList_digits] at h
  exact Nat.isDigit_of_mem_toDigits (by decide) (by decide) h

/-- An id can be read off its digits. -/
theorem digits_injective (same : id.digits.toList = other.digits.toList) : id = other := by
  rw [toList_digits, toList_digits] at same
  have numbers := congrArg (Nat.ofDigitChars 10 · 0) same
  simp only [Nat.ofDigitChars_ten_toDigits] at numbers
  exact congrArg NodeId.mk (UInt32.toNat_inj.mp numbers)

/-- In front of an identifier the digits of an id end where they do. -/
theorem IsIdentifier.takeWhile_isDigit (identifier : IsIdentifier name) :
    (id.digits.toList ++ name.toList).takeWhile Char.isDigit = id.digits.toList := by
  have none : name.toList.takeWhile Char.isDigit = [] := by
    cases chars : name.toList with
    | nil => rfl
    | cons c rest =>
      have start : c.isDigit = false := identifier.start c (by simp [chars])
      exact List.takeWhile_cons_of_neg (by simp [start])
  rw [List.takeWhile_append_of_pos fun c h => isDigit_of_mem_digits h, none, List.append_nil]

/-- So the id can be read off. -/
theorem id_eq_of_digits_append (identifier : IsIdentifier name) (identifier' : IsIdentifier name')
    (same : id.digits.toList ++ name.toList = other.digits.toList ++ name'.toList) :
    id = other := by
  have digits := congrArg (List.takeWhile Char.isDigit) same
  rw [identifier.takeWhile_isDigit, identifier'.takeWhile_isDigit] at digits
  exact digits_injective digits

/-- An identifier has no separators. -/
theorem IsIdentifier.not_separator (identifier : IsIdentifier name) :
    ∀ c ∈ name.toList, ¬IsSeparator c := by
  intro c h sep
  have plain := identifier.plain c h
  exact sep.elim plain.1 plain.2

/-- The digits of an id in front of an identifier add none. -/
theorem IsIdentifier.not_separator_of_digits (identifier : IsIdentifier name) :
    ∀ c ∈ id.digits.toList ++ name.toList, ¬IsSeparator c := by
  intro c h
  rcases List.mem_append.mp h with digit | h
  · have isDigit := isDigit_of_mem_digits digit
    rintro (rfl | rfl) <;> exact absurd isDigit (by decide)
  · exact identifier.not_separator c h

end

end RecordName

/-! ### Where records stand -/

/-- A record stands in the scope that `owner` opens and is named after it. -/
inductive RecordSite.Stands (site : RecordSite) (unit : TranslationUnit) (owner : NodeId) : Prop
  /-- At the top level, it is named after the package. -/
  | top : owner = unit.id → site.name = RecordName.qualify unit.package site.decl.name →
    Stands site unit owner
  /-- Directly in another record, it is named after this record. -/
  | nested (outer : RecordSite) : outer ∈ unit.recordSites → owner = outer.decl.id →
    site.name = RecordName.qualify (some outer.name) site.decl.name → Stands site unit owner
  /-- Among statements, it is named after the record around them and by its own id. -/
  | among (outer : RecordSite) : outer ∈ unit.recordSites →
    site.name = RecordName.ofLocal outer.name site.decl.id site.decl.name → Stands site unit owner

/-- The last step of the name of a record that stands in the record `outer`: a separator and what
follows it. -/
inductive RecordSite.LastStep (site : RecordSite) (owner : NodeId) (outer : RecordSite) :
    Char → List Char → Prop
  | nested : owner = outer.decl.id → RecordName.IsIdentifier site.decl.name →
    LastStep site owner outer '.' site.decl.name.toList
  | among : RecordName.IsIdentifier site.decl.name →
    LastStep site owner outer '$' (site.decl.id.digits.toList ++ site.decl.name.toList)

namespace RecordSite.LastStep

variable {owner : NodeId} {site outer : RecordSite} {c : Char} {last : List Char}

/-- The last step starts with a separator. -/
theorem isSeparator (step : site.LastStep owner outer c last) : RecordName.IsSeparator c := by
  cases step with
  | nested _ _ => exact .inl rfl
  | among _ => exact .inr rfl

/-- In the last step no further separator follows. -/
theorem not_separator (step : site.LastStep owner outer c last) :
    ∀ x ∈ last, ¬RecordName.IsSeparator x := by
  cases step with
  | nested _ identifier => exact identifier.not_separator
  | among identifier => exact identifier.not_separator_of_digits

end RecordSite.LastStep

/-- The record that a step declares, with the place it is declared in. -/
def Step.placedRecord? : Step → Option (Place × RecordSite)
  | .record within site => some (within, site)
  | _ => none

namespace TranslationUnit

/-- The records of a unit with the nodes whose scopes declare them. -/
def placedRecords (unit : TranslationUnit) : List (NodeId × RecordSite) :=
  ((unit.outline .recordsFirst).filterMap Step.placedRecord?).map fun (within, site) =>
    (within.owner unit.id, site)

/-- No scope of the unit declares two records of one simple name. -/
def DeclaresApart (unit : TranslationUnit) : Prop :=
  (unit.placedRecords.map fun (owner, site) => (owner, site.decl.name)).Nodup

variable {unit : TranslationUnit} {owner : NodeId} {site : RecordSite}

/-- A record is listed with the node whose scope declares it. -/
theorem mem_placedRecords : (owner, site) ∈ unit.placedRecords ↔
    ∃ within, .record within site ∈ unit.outline .recordsFirst ∧
      within.owner unit.id = owner := by
  simp only [placedRecords, List.mem_map, List.mem_filterMap, Prod.exists]
  constructor
  · rintro ⟨within, _, ⟨item, member, declares⟩, same⟩
    cases item with
    | record within' site' =>
      cases declares
      cases same
      exact ⟨_, member, rfl⟩
    | opens => cases declares
    | declares => cases declares
    | uses => cases declares
  · rintro ⟨within, member, rfl⟩
    exact ⟨within, site, ⟨_, member, rfl⟩, rfl⟩

/-- Every record of a unit is declared somewhere. -/
theorem exists_placed (h : site ∈ unit.recordSites) :
    ∃ owner, (owner, site) ∈ unit.placedRecords := by
  obtain ⟨within, listed⟩ := mem_recordSites.mp h
  exact ⟨_, mem_placedRecords.mpr ⟨within, listed, rfl⟩⟩

/-- If no scope declares two records of one simple name, such records of one scope are one. -/
theorem DeclaresApart.site_eq (apart : unit.DeclaresApart) {other : RecordSite}
    (h : (owner, site) ∈ unit.placedRecords) (h' : (owner, other) ∈ unit.placedRecords)
    (same : site.decl.name = other.decl.name) : site = other :=
  congrArg Prod.snd (List.inj_on_of_nodup_map apart h h' (congrArg (owner, ·) same))

end TranslationUnit

namespace ScopeTree

variable {unit : TranslationUnit} {tree : ScopeTree} {owner : NodeId} {site : RecordSite}

/-- The innermost record at a scope is a record of the unit. -/
theorem build_site_of_recordAround (built : build unit = .ok tree) {id : ScopeId} {name : String}
    (around : tree.recordAround id = some name) :
    ∃ outer ∈ unit.recordSites, outer.name = name := by
  obtain ⟨s, found, named⟩ := Option.bind_eq_some_iff.mp around
  obtain ⟨outer, h, _, same, _⟩ :=
    build_site_of_recordName built (mem_of_mem_chain (List.mem_of_find?_eq_some found)) named
  exact ⟨outer, h, same⟩

/-- Every record of a unit stands somewhere and is named after that. -/
theorem build_stands (built : build unit = .ok tree) (h : (owner, site) ∈ unit.placedRecords) :
    site.Stands unit owner := by
  obtain ⟨within, listed, rfl⟩ := TranslationUnit.mem_placedRecords.mp h
  have formed := build_formed built
  obtain ⟨around, ⟨s, hs, placed, kind, record⟩, named⟩ := build_sits built _ listed
  rw [build_scopeAt?_eq built] at placed
  obtain ⟨t, ht, owner, sameId⟩ := formed.exists_of_scopeOf? placed
  cases formed.eq_of_id ht hs sameId
  have name := named.name
  cases standing : around.kind with
  | global =>
    rw [standing] at name kind
    rcases build_header_cases built hs with same | ⟨isRecord, _⟩ | plain
    · exact .top (by rw [← owner, same]) name.1
    · rw [kind] at isRecord
      cases isRecord
    · exact absurd kind plain.not_global
  | record =>
    rw [standing] at name kind
    obtain ⟨outer, h, own, called, _⟩ := build_site_of_scope built hs kind
    obtain ⟨rest, chain⟩ := formed.exists_chain_self hs
    have innermost : tree.recordAround s.id = some outer.name := by
      rw [recordAround, chain, List.find?_cons_of_pos (by simp [kind]), Option.bind_some, called]
    rw [← record, innermost] at name
    exact .nested outer h (owner.symm.trans own.symm) name.1
  | block | loop =>
    rw [standing] at name
    obtain ⟨outerName, inside, name⟩ := name
    obtain ⟨outer, h, rfl⟩ := build_site_of_recordAround built (record.trans inside)
    exact .among outer h name
  | method | handler =>
    rw [standing] at name
    exact name.elim

end ScopeTree

/-! ### Records of one name -/

section

variable {unit : TranslationUnit} {tree : ScopeTree} {owner owner' : NodeId}
  {site other : RecordSite}

/-- The simple names of the records of a unit are identifiers. -/
def TranslationUnit.HasIdentifiers (unit : TranslationUnit) : Prop :=
  ∀ site ∈ unit.recordSites, RecordName.IsIdentifier site.decl.name

variable (built : ScopeTree.build unit = .ok tree) (identifiers : unit.HasIdentifiers)
include built identifiers

/-- No record has an empty qualified name. -/
theorem site_name_ne_empty (h : site ∈ unit.recordSites) : site.name ≠ "" := by
  obtain ⟨owner, placed⟩ := TranslationUnit.exists_placed h
  have nonempty := (identifiers site h).nonempty
  cases ScopeTree.build_stands built placed with
  | top _ named =>
    rw [named, RecordName.qualify_eq_append]
    simp [nonempty]
  | nested outer _ _ named =>
    rw [named, RecordName.qualify_eq_append]
    simp [nonempty]
  | among outer _ named =>
    rw [named, RecordName.ofLocal]
    simp

/-- The last step to a record can be read off its name, unless it stands at the top level. -/
theorem RecordSite.Stands.last_step (stands : site.Stands unit owner)
    (h : site ∈ unit.recordSites) :
    (owner = unit.id ∧ site.name = RecordName.qualify unit.package site.decl.name) ∨
      ∃ outer ∈ unit.recordSites, ∃ c last, site.LastStep owner outer c last ∧
        site.name.toList = outer.name.toList ++ c :: last := by
  cases stands with
  | top here named => exact .inl ⟨here, named⟩
  | nested outer member here named =>
    refine .inr ⟨outer, member, '.', _, .nested here (identifiers site h), ?_⟩
    rw [named, RecordName.toList_qualify_some (site_name_ne_empty built identifiers member)]
  | among outer member named =>
    refine .inr ⟨outer, member, '$', _, .among (identifiers site h), ?_⟩
    rw [named, RecordName.toList_ofLocal]

/-- Every qualified name starts with the package. -/
theorem package_prefix (h : site ∈ unit.recordSites) :
    ∃ path, site.name.toList = (RecordName.qualify unit.package "").toList ++ path := by
  induction size : site.name.toList.length using Nat.strongRecOn generalizing site with
  | ind n ih =>
    obtain ⟨owner, placed⟩ := TranslationUnit.exists_placed h
    rcases (ScopeTree.build_stands built placed).last_step built identifiers h with
      ⟨_, named⟩ | ⟨outer, inside, c, last, _, named⟩
    · rw [named, RecordName.qualify_eq_append, String.toList_append]
      exact ⟨_, rfl⟩
    · rw [named, List.length_append, List.length_cons] at size
      obtain ⟨path, before⟩ := ih _ (by omega) inside rfl
      exact ⟨path ++ c :: last, by rw [named, before, List.append_assoc]⟩

/-- A top-level record does not have the name of a record that stands in another one. -/
theorem top_ne_inner (h : site ∈ unit.recordSites) {outer : RecordSite}
    (inside : outer ∈ unit.recordSites)
    (top : site.name = RecordName.qualify unit.package site.decl.name) {c : Char}
    {last : List Char} (sep : RecordName.IsSeparator c) :
    site.name.toList ≠ outer.name.toList ++ c :: last := by
  intro same
  obtain ⟨path, named⟩ := package_prefix built identifiers inside
  rw [top, RecordName.qualify_eq_append, String.toList_append, named, List.append_assoc] at same
  have listed : c ∈ site.decl.name.toList := by
    rw [List.append_cancel_left same]
    exact List.mem_append_right _ List.mem_cons_self
  exact (identifiers site h).not_separator c listed sep

/-- Records of one qualified name are one: the last steps of their names are the same, and a nested
record is known by its outer record. -/
theorem site_eq_of_name (apart : unit.DeclaresApart) (h : site ∈ unit.recordSites)
    (h' : other ∈ unit.recordSites) (same : site.name = other.name) :
    site.decl.id = other.decl.id := by
  induction size : site.name.toList.length using Nat.strongRecOn generalizing site other with
  | ind n ih =>
    obtain ⟨owner, placed⟩ := TranslationUnit.exists_placed h
    obtain ⟨owner', placed'⟩ := TranslationUnit.exists_placed h'
    rcases (ScopeTree.build_stands built placed).last_step built identifiers h with
        ⟨rfl, named⟩ | ⟨outer, inside, c, last, step, named⟩ <;>
      rcases (ScopeTree.build_stands built placed').last_step built identifiers h' with
        ⟨rfl, named'⟩ | ⟨outer', inside', c', last', step', named'⟩
    · rw [named, named', RecordName.qualify_eq_append _ site.decl.name,
        RecordName.qualify_eq_append _ other.decl.name] at same
      have simple : site.decl.name = other.decl.name := (String.append_right_inj _).mp same
      rw [apart.site_eq placed placed' simple]
    · rw [← same] at named'
      exact absurd named' (top_ne_inner built identifiers h inside' named step'.isSeparator)
    · rw [same] at named
      exact absurd named (top_ne_inner built identifiers h' inside named' step.isSeparator)
    · rw [← same, named] at named'
      obtain ⟨outers, separators, tails⟩ := RecordName.cut_at_last_separator named'
        step.isSeparator step'.isSeparator step.not_separator step'.not_separator
      rw [named, List.length_append, List.length_cons] at size
      cases step with
      | nested here identifier =>
        cases step' with
        | nested here' identifier' =>
          have sameOuter := ih _ (by omega) inside inside' (String.toList_inj.mp outers) rfl
          rw [here, sameOuter, ← here'] at placed
          rw [apart.site_eq placed placed' (String.toList_inj.mp tails)]
        | among identifier' => cases separators
      | among identifier =>
        cases step' with
        | nested here' identifier' => cases separators
        | among identifier' => exact RecordName.id_eq_of_digits_append identifier identifier' tails

/-- No two records of a unit have one qualified name. -/
theorem site_names_nodup (apart : unit.DeclaresApart) :
    (unit.recordSites.map (·.name)).Nodup := by
  have owners : unit.scopeOwners.Nodup := by
    rw [TranslationUnit.scopeOwners, ← ScopeTree.build_owners built]
    exact (ScopeTree.build_formed built).owners
  have ids := List.pairwise_map.mp (TranslationUnit.recordSites_nodup owners)
  exact List.pairwise_map.mpr (ids.imp_of_mem fun h h' distinct same =>
    distinct (site_eq_of_name built identifiers apart h h' same))

/-- In a unit whose records are named by identifiers, each scope declaring a simple name once, no
two record scopes have one qualified name, and the unit by itself causes no collision in the
index. -/
theorem record_names_tell_apart (apart : unit.DeclaresApart) :
    (∀ s ∈ tree.scopes, ∀ t ∈ tree.scopes, s.kind = .record → t.kind = .record →
      s.recordName = t.recordName → s = t) ∧
    (RecordIndex.build [unit]).collisions = [] := by
  constructor
  · intro s hs t ht record record' same
    obtain ⟨site, h, owner, named, _⟩ := ScopeTree.build_site_of_scope built hs record
    obtain ⟨other, h', owner', named', _⟩ := ScopeTree.build_site_of_scope built ht record'
    rw [named, named', Option.some.injEq] at same
    have sameId := site_eq_of_name built identifiers apart h h' same
    exact (ScopeTree.build_formed built).eq_of_owner hs ht (by rw [← owner, ← owner', sameId])
  · have indexed : (RecordIndex.build [unit]).records.map (·.name) =
        unit.indexedSites.map (·.name) := by
      simp [RecordIndex.build_records, indexedSitesOf, List.map_map, Function.comp_def]
    rw [RecordIndex.collisions_eq_nil_iff, indexed]
    exact (site_names_nodup built identifiers apart).sublist (List.filter_sublist.map _)

end

/-- The sample unit has a record at the top level, a nested one and one among the statements of a
method. -/
theorem record_names_tell_apart_sample :
    ∃ tree, ScopeTree.build sampleUnit = .ok tree ∧
      sampleUnit.recordSites.map (·.name) = ["demo.A", "demo.A.B", "demo.A$13L"] ∧
      sampleUnit.HasIdentifiers ∧ sampleUnit.DeclaresApart ∧
      (∀ s ∈ tree.scopes, ∀ t ∈ tree.scopes, s.kind = .record → t.kind = .record →
        s.recordName = t.recordName → s = t) ∧
      (RecordIndex.build [sampleUnit]).collisions = [] := by
  have names : sampleUnit.recordSites.map (·.decl.name) = ["A", "B", "L"] := by decide +kernel
  have identifiers : sampleUnit.HasIdentifiers := by
    intro site h
    have listed := List.mem_map_of_mem (f := (·.decl.name)) h
    rw [names] at listed
    have plain : ∀ name ∈ ["A", "B", "L"], RecordName.IsIdentifier name := by decide
    exact plain _ listed
  have apart : sampleUnit.DeclaresApart := by
    unfold TranslationUnit.DeclaresApart
    decide +kernel
  exact ⟨_, rfl, by decide +kernel, identifiers, apart,
    record_names_tell_apart rfl identifiers apart⟩

end NameBinding
