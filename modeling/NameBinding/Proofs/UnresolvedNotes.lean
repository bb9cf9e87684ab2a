import NameBinding.Proofs.Inheritance
import NameBinding.Proofs.MemberAccesses

/-!
# Notes about unresolved uses

A use that is visited in vain is noted, once, if such notes are asked for; a use that denotes
something is not. A bare name is noted because nothing in scope offers it. A search for a member is
in vain for one of five reasons, told here by what the base stands for, and a base that is itself
in vain is noted before the accesses on it.
-/

namespace NameBinding

/-! ### Notes of a log -/

/-- The issue is a note about an unresolved use. -/
def Issue.isUnresolved (issue : Issue) : Bool :=
  match issue.cause with
  | .unresolved .. => true
  | .duplicate .. | .malformed .. | .ambiguousShadow .. | .staticContext .. => false

/-- The note that an entry gives rise to. -/
def UseEntry.note? : UseEntry → Option Issue
  | reference site =>
    match site.hit with
    | some _ => none
    | none => some ⟨.unresolved site.name .noBinding, site.span⟩
  | member site =>
    match site.finding with
    | .recordName .. | .member .. => none
    | .missing reason => some ⟨.unresolved site.label reason, site.span⟩

/-- An entry gives rise to a note if it denotes nothing. -/
theorem UseEntry.note?_isSome (entry : UseEntry) : entry.note?.isSome = entry.resolved.isNone := by
  cases entry with
  | reference site => cases hit : site.hit <;> simp [note?, resolved, ReferenceSite.resolved, hit]
  | member site =>
    cases finding : site.finding <;> simp [note?, resolved, MemberFinding.resolved, finding]

/-- Of the issues of an entry, the note is the only one about an unresolved use. -/
theorem UseEntry.filter_isUnresolved_issues (entry : UseEntry) (reportUnresolved : Bool) :
    (entry.issues reportUnresolved).filter Issue.isUnresolved =
      if reportUnresolved then entry.note?.toList else [] := by
  cases entry with
  | reference site =>
    rw [issues, ReferenceSite.issues, note?]
    cases site.hit with
    | none => cases reportUnresolved <;> rfl
    | some hit => cases static : hit.staticContext <;> simp [static, Issue.isUnresolved]
  | member site =>
    rw [issues, MemberSite.issues, note?]
    cases site.finding with
    | recordName record => cases reportUnresolved <;> rfl
    | member resolution staticContext => cases staticContext <;> cases reportUnresolved <;> rfl
    | missing reason => cases reportUnresolved <;> rfl

/-- If notes are asked for, those of a log are the notes of its entries. -/
theorem UseLog.filter_isUnresolved_issues (log : UseLog) :
    (log.issues true).filter Issue.isUnresolved = log.filterMap UseEntry.note? := by
  induction log with
  | nil => rfl
  | cons entry rest ih =>
    have parts : issues (entry :: rest) true = entry.issues true ++ issues rest true := rfl
    rw [parts, List.filter_append, ih, entry.filter_isUnresolved_issues, if_pos rfl]
    cases found : entry.note? with
    | none => rw [List.filterMap_cons_none found, Option.toList_none, List.nil_append]
    | some note => rw [List.filterMap_cons_some found, Option.toList_some, List.singleton_append]

/-- If notes are not asked for, a log gives rise to none. -/
theorem UseLog.filter_isUnresolved_issues_quiet (log : UseLog) :
    (log.issues false).filter Issue.isUnresolved = [] := by
  rw [issues, List.filter_flatMap, List.flatMap_eq_nil_iff]
  exact fun entry _ => entry.filter_isUnresolved_issues false

namespace Scene

/-! ### Visits in vain -/

/-- What a visit finds. -/
def found? (scene : Scene) (visit : Visit) : Option Resolution := (scene.entry visit).resolved

/-- A visit is in vain if it finds nothing. -/
def inVain (scene : Scene) (visit : Visit) : Bool := (scene.found? visit).isNone

/-- Why a member access on a base finds nothing, with the name that the note calls it by. -/
inductive Misses (scene : Scene) (scope : ScopeId) (inStatic : Bool) (access : MemberName) :
    Option BaseRecord → String → UnresolvedReason → Prop
  /-- The base stands for no known record. -/
  | unknownBase : scene.Misses scope inStatic access none access.name .unknownType
  /-- An instance has no receiver. -/
  | instanceReceiver {record : RecordInfo} : access.name = "this" →
    scene.Misses scope inStatic access (some ⟨record, false⟩) access.name .noSuchMember
  /-- The receiver of the record that the base names is not in scope. -/
  | noReceiver {record : RecordInfo} : access.name = "this" →
    scene.lookup? scope (record.simpleName ++ ".this") access.span inStatic = none →
    scene.Misses scope inStatic access (some ⟨record, true⟩) (record.simpleName ++ ".this")
      .noBinding
  /-- The search for the field ends at a record that is unknown or keeps its fields to itself, and
  the access does not name a nested record. -/
  | external {base : BaseRecord} : access.name ≠ "this" →
    RecordIndex.SearchEnds access.name (scene.index.lineage base.record) .external →
    (base.isName = true →
      scene.index.get? (RecordName.qualify (some base.record.name) access.name) = none) →
    scene.Misses scope inStatic access (some base) access.name .externalRecord
  /-- The record and its ancestors are known and lack the field, and the access does not name a
  nested record. -/
  | noField {base : BaseRecord} : access.name ≠ "this" →
    RecordIndex.SearchEnds access.name (scene.index.lineage base.record) .notFound →
    (base.isName = true →
      scene.index.get? (RecordName.qualify (some base.record.name) access.name) = none) →
    scene.Misses scope inStatic access (some base) access.name .noSuchMember

/-- The issue is the note about a visit in vain. -/
inductive Notes (scene : Scene) : Visit → Issue → Prop
  /-- A bare name is noted by its name: nothing in scope offers it. -/
  | name {scope : ScopeId} {inStatic : Bool} {role : Role} {use : Reference} :
    scene.hit? scope inStatic role use = none →
    scene.Notes (.name scope inStatic role use) ⟨.unresolved use.name .noBinding, use.span⟩
  /-- A member access is noted at its span, for the reason of the miss. -/
  | search {scope : ScopeId} {inStatic : Bool} {base : Expr} {access : MemberName} {label : String}
    {reason : UnresolvedReason} :
    scene.Misses scope inStatic access (scene.standsFor? scope inStatic base) label reason →
    scene.Notes (.search scope inStatic base access) ⟨.unresolved label reason, access.span⟩

variable {scene : Scene} {scope : ScopeId} {inStatic : Bool} {access : MemberName}
  {base : Option BaseRecord} {label : String} {reason : UnresolvedReason}

/-- A receiver is missed on an instance and where it is not in scope. -/
theorem findReceiver_eq_missing_iff {base : BaseRecord} (receiver : access.name = "this") :
    scene.findReceiver scope inStatic base access = (label, .missing reason) ↔
      scene.Misses scope inStatic access (some base) label reason := by
  obtain ⟨record, isName⟩ := base
  constructor
  · intro missed
    cases isName with
    | false =>
      cases missed
      exact .instanceReceiver receiver
    | true =>
      rw [findReceiver, if_pos rfl] at missed
      cases looked : scene.lookup? scope (record.simpleName ++ ".this") access.span inStatic with
      | some hit =>
        simp only [looked] at missed
        cases missed
      | none =>
        simp only [looked] at missed
        cases missed
        exact .noReceiver receiver looked
  · intro misses
    cases misses with
    | instanceReceiver => rfl
    | noReceiver _ looked => simp only [findReceiver, if_pos, looked]
    | external member | noField member => exact absurd receiver member

/-- A search on a base never starts at an unknown record. -/
theorem findFieldIn_ne_unknownRecord {record : RecordInfo} {name : String} :
    scene.index.findFieldIn record name ≠ .unknownRecord := by
  intro unknown
  have ends := RecordIndex.findFieldIn_eq_iff.mp unknown
  generalize scene.index.lineage record = way at ends
  cases ends

/-- A member is missed where neither a field nor a nested record has the name. -/
theorem findMember_eq_missing_iff {base : BaseRecord} {member : String} :
    scene.findMember base member = .missing reason ↔
      (base.isName = true →
        scene.index.get? (RecordName.qualify (some base.record.name) member) = none) ∧
      (scene.index.findFieldIn base.record member = .external ∧ reason = .externalRecord ∨
        scene.index.findFieldIn base.record member = .notFound ∧ reason = .noSuchMember) := by
  unfold findMember
  cases outcome : scene.index.findFieldIn base.record member with
  | found owner field => simp
  | unknownRecord => exact absurd outcome findFieldIn_ne_unknownRecord
  | external | notFound =>
    cases named : base.isName <;>
      cases nested : scene.index.get? (RecordName.qualify (some base.record.name) member) <;>
      simp [missingReason, eq_comm]

/-- A member access finds nothing for one of the five reasons. -/
theorem findAccess_eq_missing_iff :
    scene.findAccess scope inStatic base access = (label, .missing reason) ↔
      scene.Misses scope inStatic access base label reason := by
  cases base with
  | none =>
    constructor
    · intro missed
      cases missed
      exact .unknownBase
    · intro misses
      cases misses
      rfl
  | some base =>
    by_cases receiver : access.name = "this"
    · rw [findAccess, if_pos receiver]
      exact findReceiver_eq_missing_iff receiver
    · rw [findAccess, if_neg receiver, Prod.mk.injEq, findMember_eq_missing_iff]
      constructor
      · rintro ⟨rfl, lacks, ⟨outcome, rfl⟩ | ⟨outcome, rfl⟩⟩
        · exact .external receiver (RecordIndex.findFieldIn_eq_iff.mp outcome) lacks
        · exact .noField receiver (RecordIndex.findFieldIn_eq_iff.mp outcome) lacks
      · intro misses
        cases misses with
        | instanceReceiver this | noReceiver this => exact absurd this receiver
        | external _ ends lacks =>
          exact ⟨rfl, lacks, .inl ⟨RecordIndex.findFieldIn_eq_iff.mpr ends, rfl⟩⟩
        | noField _ ends lacks =>
          exact ⟨rfl, lacks, .inr ⟨RecordIndex.findFieldIn_eq_iff.mpr ends, rfl⟩⟩

/-- The note of an entry is the note about its visit. -/
theorem note?_entry_eq_some_iff {visit : Visit} {issue : Issue} :
    (scene.entry visit).note? = some issue ↔ scene.Notes visit issue := by
  constructor
  · intro noted
    cases visit with
    | name scope inStatic role use =>
      cases looked : scene.hit? scope inStatic role use with
      | some hit =>
        rw [entry, looked] at noted
        cases noted
      | none =>
        rw [entry, looked] at noted
        cases noted
        exact .name looked
    | fullName scope access record => cases noted
    | search scope inStatic base access =>
      rcases searched : scene.findAccess scope inStatic (scene.standsFor? scope inStatic base)
        access with ⟨label, finding⟩
      rw [entry, searched] at noted
      cases finding with
      | recordName record | member resolution staticContext => cases noted
      | missing reason =>
        cases noted
        exact .search (findAccess_eq_missing_iff.mp searched)
  · rintro (⟨missed⟩ | ⟨misses⟩)
    · rw [entry, UseEntry.note?, missed]
    · rw [entry, findAccess_eq_missing_iff.mpr misses]
      rfl

/-- The notes of some visits are those about the visits in vain, in order. -/
theorem forall₂_notes (visits : List Visit) :
    List.Forall₂ scene.Notes (visits.filter scene.inVain)
      ((visits.map scene.entry).filterMap UseEntry.note?) := by
  induction visits with
  | nil => exact .nil
  | cons visit rest ih =>
    have told := (scene.entry visit).note?_isSome
    rw [List.map_cons]
    cases noted : (scene.entry visit).note? with
    | none =>
      have found : ¬scene.inVain visit = true := by
        rw [inVain, found?, ← told, noted]
        exact Bool.false_ne_true
      rw [List.filter_cons_of_neg found, List.filterMap_cons_none noted]
      exact ih
    | some issue =>
      have vain : scene.inVain visit = true := by
        rw [inVain, found?, ← told, noted]
        rfl
      rw [List.filter_cons_of_pos vain, List.filterMap_cons_some noted]
      exact .cons (note?_entry_eq_some_iff.mp noted) ih

end Scene

/-- A run over a unit records its visits, one after the other. If notes are asked for, those about
unresolved uses are the notes about the visits that find nothing, in the same order; if not, there
are none. -/
theorem unresolved_uses_noted_once {unit : TranslationUnit} {tree : ScopeTree} {table : DeclTable}
    {index : RecordIndex} {log : UseLog}
    (run : resolveReferences unit tree table index = .ok log) :
    let scene : Scene := ⟨tree, table, index, unit.package, unit.imports⟩
    log = (scene.unitVisits unit).map scene.entry ∧
    List.Forall₂ scene.Notes ((scene.unitVisits unit).filter scene.inVain)
      ((log.issues true).filter Issue.isUnresolved) ∧
    (log.issues false).filter Issue.isUnresolved = [] := by
  intro scene
  have followed := resolveReferences_visits run
  refine ⟨followed, ?_, log.filter_isUnresolved_issues_quiet⟩
  rw [log.filter_isUnresolved_issues, followed]
  exact scene.forall₂_notes (scene.unitVisits unit)

/-- A method in which uses are missed for all reasons, also inside a chain, a cast, an argument and
a position. -/
def failingUnit : TranslationUnit :=
  let name (id : UInt32) (name : String) : Expr := .reference { id := ⟨id⟩, name }
  let member (base : Expr) (id : UInt32) (name : String) : Expr := .member base { id := ⟨id⟩, name }
  let body : List Expr :=
    [member (member (name 10 "a") 11 "a") 12 "z",
      member (member (name 13 "q") 14 "b") 15 "c",
      member (.cast { name := "A" } (name 16 "u") {}) 17 "n",
      member (.call none "f" [member (name 18 "a") 19 "this"] {}) 20 "n",
      member (name 21 "B") 22 "this",
      .index (member (.new { name := "B" } [] {}) 23 "y") (member (name 24 "a") 25 "n") {},
      member (member (name 28 "p") 27 "A") 26 "a"]
  { id := ⟨0⟩, name := "Failing", package := some "p"
    records :=
      [⟨⟨1⟩, "A", none, false,
          [{ id := ⟨2⟩, name := "a", type := { name := "A" } },
            { id := ⟨3⟩, name := "n", type := { name := "int" } }],
          [⟨⟨4⟩, "m", false, false, [], some ⟨⟨5⟩, body.map .expr, {}⟩, {}⟩], [], {}⟩,
        ⟨⟨6⟩, "B", some { name := "Missing" }, false, [], [], [], {}⟩] }

theorem unresolved_uses_noted_once_sample :
    ∃ analysis, ∃ log : UseLog,
      resolveUnit failingUnit (.build [failingUnit]) {} = .ok analysis ∧
      resolveReferences failingUnit analysis.tree analysis.declarations (.build [failingUnit]) =
        .ok log ∧
      ((log.issues true).filter Issue.isUnresolved).map (·.cause) =
        [.unresolved "z" .noSuchMember, .unresolved "q" .noBinding, .unresolved "b" .unknownType,
          .unresolved "c" .unknownType, .unresolved "u" .noBinding,
          .unresolved "this" .noSuchMember, .unresolved "n" .unknownType,
          .unresolved "B.this" .noBinding, .unresolved "y" .externalRecord] ∧
      let scene := analysis.scene failingUnit (.build [failingUnit])
      List.Forall₂ scene.Notes ((scene.unitVisits failingUnit).filter scene.inVain)
        ((log.issues true).filter Issue.isUnresolved) := by
  have counted : (resolveUnit failingUnit (.build [failingUnit]) {}).toOption.map
      (fun analysis => (resolveReferences failingUnit analysis.tree analysis.declarations
        (.build [failingUnit])).toOption.map fun log =>
          ((log.issues true).filter Issue.isUnresolved).map (·.cause)) =
      some (some [.unresolved "z" .noSuchMember, .unresolved "q" .noBinding,
        .unresolved "b" .unknownType, .unresolved "c" .unknownType, .unresolved "u" .noBinding,
        .unresolved "this" .noSuchMember, .unresolved "n" .unknownType,
        .unresolved "B.this" .noBinding, .unresolved "y" .externalRecord]) := by
    decide +kernel
  obtain ⟨analysis, run, logged⟩ := exists_ok_of_toOption_map counted
  obtain ⟨log, resolved, causes⟩ := exists_ok_of_toOption_map logged
  exact ⟨analysis, log, run, resolved, causes, (unresolved_uses_noted_once resolved).2.1⟩

end NameBinding
