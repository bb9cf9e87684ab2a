import Mathlib.Data.List.Induction
import Mathlib.Data.List.Pairwise
import NameBinding.Analysis
import NameBinding.Proofs.Accounting
import NameBinding.Proofs.Editing
import NameBinding.Proofs.KeyedLists
import NameBinding.Proofs.UseOrigins

/-!
# What resolution covers

In a unit whose uses have distinct ids, every bare name that a walk reaches is looked up once and
has one entry in the slots to be filled, unless it is passed over; and every entry belongs to a use
that a walk reaches, so all of them are written. Passed over is what stands in the base of a member
access that names a record in full, and what a loop variable would start with: the walk visits the
initializer of the variable of a loop over a collection, resolution does not.
-/

namespace NameBinding

/-! ### Entries by id -/

section

variable {α β : Type} [DecidableEq α] {key : α} {value : β} {entries : List (α × β)}

/-- A value that is put under a new key comes last. -/
theorem putEntry_of_not_mem (fresh : key ∉ entries.map Prod.fst) :
    putEntry key value entries = entries ++ [(key, value)] := by
  induction entries with
  | nil => rfl
  | cons entry rest ih =>
    rw [List.map_cons, List.mem_cons, not_or] at fresh
    rw [putEntry, if_neg (Ne.symm fresh.1), ih fresh.2, List.cons_append]

/-- If the keys are distinct, every value is found under its key. -/
theorem valueAt?_of_mem (distinct : (entries.map Prod.fst).Nodup) (h : (key, value) ∈ entries) :
    valueAt? key entries = some value := by
  induction entries with
  | nil => cases h
  | cons entry rest ih =>
    rw [List.map_cons, List.nodup_cons] at distinct
    rcases List.mem_cons.mp h with rfl | h
    · rw [valueAt?, if_pos rfl]
    · have apart : entry.1 ≠ key := by
        intro same
        exact distinct.1 (same ▸ List.mem_map_of_mem h)
      rw [valueAt?, if_neg apart, ih distinct.2 h]

end

/-- What a bare name that was looked up leaves for its slots. -/
def ReferenceSite.slots (site : ReferenceSite) : ReferenceSlots :=
  ⟨site.resolved, site.hit.bind (·.implicitBase)⟩

/-- What a member access that was looked up leaves for its slot. -/
def MemberSite.slot? (site : MemberSite) : Option (NodeId × Resolution) :=
  site.finding.resolved.map fun resolution => (site.id, resolution)

/-- Member accesses leave no slots but under their ids, each at most one. -/
theorem MemberSite.slot_ids_sublist (sites : List MemberSite) :
    ((sites.filterMap slot?).map Prod.fst).Sublist (sites.map (·.id)) := by
  induction sites with
  | nil => exact .refl _
  | cons site rest ih =>
    cases found : site.finding.resolved with
    | none =>
      rw [List.filterMap_cons_none (by rw [slot?, found, Option.map_none])]
      exact ih.cons _
    | some resolution =>
      rw [List.filterMap_cons_some (by rw [slot?, found, Option.map_some])]
      exact ih.cons_cons _

namespace Resolutions

variable {log : UseLog}

/-- A further entry is recorded last. -/
theorem ofLog_append (log : UseLog) (entry : UseEntry) :
    ofLog (log ++ [entry]) = (ofLog log).record entry := by
  rw [ofLog, List.foldl_append, List.foldl_cons, List.foldl_nil, ofLog]

/-- If bare names are looked up once, their slots are those of the log. -/
theorem references_ofLog (distinct : (log.references.map (·.id)).Nodup) :
    (ofLog log).references = log.references.map fun site => (site.id, site.slots) := by
  induction log using List.reverseRecOn with
  | nil => rfl
  | append_singleton log entry ih =>
    rw [ofLog_append]
    cases entry with
    | reference site =>
      have more : UseLog.references (log ++ [.reference site]) =
          UseLog.references log ++ [site] := List.filterMap_append
      rw [more, List.map_append, List.nodup_append] at distinct
      have fresh : site.id ∉ (ofLog log).references.map Prod.fst := by
        rw [ih distinct.1, List.map_map]
        exact fun listed => distinct.2.2 _ listed _ List.mem_cons_self rfl
      rw [record, putEntry_of_not_mem fresh, ih distinct.1, more, List.map_append]
      rfl
    | member site =>
      have same : UseLog.references (log ++ [.member site]) = UseLog.references log :=
        List.filterMap_append.trans (List.append_nil _)
      rw [same] at distinct ⊢
      rw [← ih distinct]
      cases found : site.finding.resolved <;> simp [record, found]

/-- If member accesses are looked up once, their slots are those of the log. -/
theorem members_ofLog (distinct : (log.members.map (·.id)).Nodup) :
    (ofLog log).members = log.members.filterMap MemberSite.slot? := by
  induction log using List.reverseRecOn with
  | nil => rfl
  | append_singleton log entry ih =>
    rw [ofLog_append]
    cases entry with
    | reference site =>
      have same : UseLog.members (log ++ [.reference site]) = UseLog.members log :=
        List.filterMap_append.trans (List.append_nil _)
      rw [same] at distinct ⊢
      exact ih distinct
    | member site =>
      have more : UseLog.members (log ++ [.member site]) = UseLog.members log ++ [site] :=
        List.filterMap_append
      rw [more, List.map_append, List.nodup_append] at distinct
      rw [more, List.filterMap_append, ← ih distinct.1]
      cases found : site.finding.resolved with
      | none => simp [record, found, MemberSite.slot?]
      | some resolution =>
        have fresh : site.id ∉ (ofLog log).members.map Prod.fst := by
          rw [ih distinct.1]
          intro listed
          exact distinct.2.2 _ ((MemberSite.slot_ids_sublist _).subset listed) _
            List.mem_cons_self rfl
        simp [record, found, MemberSite.slot?, putEntry_of_not_mem fresh]

end Resolutions

/-! ### What the slots tell of is written -/

namespace Resolutions

variable {resolutions : Resolutions} {unit : TranslationUnit}

/-- The slots of a bare name that a walk reaches are written. -/
theorem reference_mem_apply {use : Reference} (h : .reference use ∈ unit.expressions)
    {slots : ReferenceSlots} (found : resolutions.reference? use.id = some slots) :
    .reference { use with resolved := slots.resolved, implicitBase := slots.implicitBase } ∈
      (resolutions.apply unit).expressions := by
  rw [apply, TranslationUnit.expressions_edit]
  obtain ⟨i, met⟩ := exists_mem_editWalk (fun _ => resolutions.edit) 0 h
  simpa only [Expr.edit, edit, found, Option.getD_some] using met

/-- The slot of a member access that a walk reaches is written. -/
theorem member_mem_apply {base : Expr} {access : MemberName}
    (h : .member base access ∈ unit.expressions) {resolution : Resolution}
    (found : resolutions.member? access.id = some resolution) :
    ∃ written, .member written { access with resolved := some resolution } ∈
      (resolutions.apply unit).expressions := by
  rw [apply, TranslationUnit.expressions_edit]
  obtain ⟨i, met⟩ := exists_mem_editWalk (fun _ => resolutions.edit) 0 h
  simp only [Expr.edit, edit, found] at met
  exact ⟨_, met⟩

end Resolutions

/-! ### Coverage -/

namespace TranslationUnit

/-- The ids of the bare names and member accesses that a walk over a unit reaches. -/
def useIds (unit : TranslationUnit) : List NodeId := (usesIn unit.expressions).map Use.id

/-- A bare name is passed over: a loop variable would start with it, or it stands in the base of a
member access that names a record in full. -/
def PassesOver (unit : TranslationUnit) (log : UseLog) (use : Reference) : Prop :=
  .reference use ∈ unit.loopInitializers ∨
    ∃ base access, .member base access ∈ unit.expressions ∧ log.NamesRecord access.id ∧
      .reference use ∈ base.walk

end TranslationUnit

/-- The uses in a walk are those of its expressions. -/
theorem mem_usesIn {walk : List Expr} {use : Use} :
    use ∈ usesIn walk ↔ ∃ e ∈ walk, e.use? = some use := List.mem_filterMap

/-- Two expressions are not uses under one id. -/
def Expr.UsesApart (e other : Expr) : Prop :=
  ∀ use, e.use? = some use → ∀ otherUse, other.use? = some otherUse → use.id ≠ otherUse.id

/-- If ids of uses are distinct, an expression that is a use is told by the id. -/
theorem eq_of_use_id {walk : List Expr} (distinct : ((usesIn walk).map Use.id).Nodup)
    {e other : Expr} (he : e ∈ walk) (hother : other ∈ walk) {use otherUse : Use}
    (hu : e.use? = some use) (ho : other.use? = some otherUse) (same : use.id = otherUse.id) :
    e = other := by
  by_contra apart
  have symmetric : Std.Symm Expr.UsesApart :=
    ⟨fun _ _ h use hu otherUse ho => (h otherUse ho use hu).symm⟩
  have pairs : walk.Pairwise Expr.UsesApart :=
    List.pairwise_filterMap.mp (List.pairwise_map.mp distinct)
  exact pairs.forall he hother apart use hu otherUse ho same

namespace UseLog.Accounts

variable {unit : TranslationUnit} {log : UseLog} {bases : List Expr}

/-- The uses of a unit: those in its log, those in the bases that were skipped, and those that loop
variables would start with. -/
theorem unit_balance (accounts : log.Accounts (usesOf (unit.outline .recordsFirst)) bases) :
    (log.map UseEntry.use ++ usesIn (bases.flatMap Expr.walk) ++
      usesIn unit.loopInitializers).Perm (usesIn unit.expressions) := by
  refine (accounts.balance.append_right _).trans ?_
  rw [usesIn, usesIn, ← List.filterMap_append]
  exact unit.usesOf_perm.filterMap _

variable (accounts : log.Accounts (usesOf (unit.outline .recordsFirst)) bases)
  (distinct : unit.useIds.Nodup)

include accounts distinct

/-- No id is in two of the three parts, and none is twice in the log. -/
theorem parts_nodup :
    (log.map fun entry => entry.use.id).Nodup ∧
      ∀ entry ∈ log, ∀ use ∈ usesIn (bases.flatMap Expr.walk) ++ usesIn unit.loopInitializers,
        entry.use.id ≠ use.id := by
  have all := (accounts.unit_balance.map Use.id).nodup_iff.mpr distinct
  rw [List.append_assoc, List.map_append, List.nodup_append, List.map_map] at all
  exact ⟨all.1, fun entry logged use other =>
    all.2.2 _ (List.mem_map_of_mem logged) _ (List.mem_map_of_mem other)⟩

/-- A bare name that is passed over is not logged. -/
theorem not_logged_of_passesOver {use : Reference} (passed : unit.PassesOver log use) :
    ∀ entry ∈ log, entry.use.id ≠ use.id := by
  intro entry logged
  refine (accounts.parts_nodup distinct).2 entry logged
    (.reference use.id use.name use.span) ?_
  rcases passed with initial | ⟨base, access, reached, names, inside⟩
  · exact List.mem_append_right _ (mem_usesIn.mpr ⟨_, initial, rfl⟩)
  · obtain ⟨other, listed, namer, same, met⟩ := accounts.named access.id names
    have equal := eq_of_use_id distinct reached (unit.usesOf_subset met) rfl rfl same.symm
    cases equal
    exact List.mem_append_left _
      (mem_usesIn.mpr ⟨_, List.mem_flatMap.mpr ⟨base, listed, inside⟩, rfl⟩)

/-- A bare name that is not passed over is logged. -/
theorem logged_of_not_passesOver {use : Reference} (reached : .reference use ∈ unit.expressions)
    (met : ¬unit.PassesOver log use) :
    ∃ site : ReferenceSite, .reference site ∈ log ∧ site.id = use.id ∧ site.name = use.name ∧
      site.span = use.span := by
  have listed := accounts.unit_balance.mem_iff.mpr (mem_usesIn.mpr ⟨_, reached, rfl⟩)
  rcases List.mem_append.mp listed with listed | initial
  · rcases List.mem_append.mp listed with logged | skipped
    · obtain ⟨entry, logged, same⟩ := List.mem_map.mp logged
      cases entry with
      | reference site => exact ⟨site, logged, Use.reference.inj same⟩
      | member site => cases same
    · obtain ⟨e, member, same⟩ := mem_usesIn.mp skipped
      obtain ⟨base, listed, inside⟩ := List.mem_flatMap.mp member
      obtain ⟨within, access, around, names⟩ := accounts.skipped base listed
      have equal := eq_of_use_id distinct (unit.usesOf_subset (within inside)) reached same rfl rfl
      cases equal
      exact absurd (.inr ⟨base, access, unit.usesOf_subset around, names, inside⟩) met
  · obtain ⟨e, member, same⟩ := mem_usesIn.mp initial
    have walked : e ∈ unit.expressions :=
      unit.usesOf_perm.subset (List.mem_append_right _ member)
    have equal := eq_of_use_id distinct walked reached same rfl rfl
    cases equal
    exact absurd (.inl member) met

omit distinct in
/-- What is logged is a use that a walk reaches. -/
theorem exists_of_logged {entry : UseEntry} (logged : entry ∈ log) :
    ∃ e ∈ unit.expressions, e.use? = some entry.use :=
  mem_usesIn.mp (accounts.unit_balance.subset
    (List.mem_append_left _ (List.mem_append_left _ (List.mem_map_of_mem logged))))

end UseLog.Accounts

namespace UseLog

/-- The ids of the bare names in a log are among those of its entries, in order. -/
theorem reference_ids_sublist (log : UseLog) :
    (log.references.map (·.id)).Sublist (log.map fun entry => entry.use.id) := by
  induction log with
  | nil => exact .refl _
  | cons entry rest ih =>
    cases entry with
    | reference site => exact ih.cons_cons _
    | member site => exact ih.cons _

/-- The same of the member accesses. -/
theorem member_ids_sublist (log : UseLog) :
    (log.members.map (·.id)).Sublist (log.map fun entry => entry.use.id) := by
  induction log with
  | nil => exact .refl _
  | cons entry rest ih =>
    cases entry with
    | reference site => exact ih.cons _
    | member site => exact ih.cons_cons _

end UseLog

/-- Only a bare name is a use as a bare name. -/
theorem Expr.eq_reference_of_use? {e : Expr} {id : NodeId} {name : String} {span : Span}
    (h : e.use? = some (.reference id name span)) : ∃ use, e = .reference use ∧ use.id = id := by
  cases e with
  | reference use => exact ⟨use, rfl, (Use.reference.inj (Option.some.inj h)).1⟩
  | _ => cases h

/-- Only a member access is a use as one. -/
theorem Expr.eq_member_of_use? {e : Expr} {id : NodeId} {span : Span}
    (h : e.use? = some (.member id span)) : ∃ base access, e = .member base access ∧
      access.id = id := by
  cases e with
  | member base access => exact ⟨base, access, rfl, (Use.member.inj (Option.some.inj h)).1⟩
  | _ => cases h

namespace UseLog.Accounts

variable {unit : TranslationUnit} {log : UseLog} {bases : List Expr}
  (accounts : log.Accounts (usesOf (unit.outline .recordsFirst)) bases)
  (distinct : unit.useIds.Nodup)

include accounts distinct

/-- No bare name is logged twice. -/
theorem reference_ids_nodup : (log.references.map (·.id)).Nodup :=
  (accounts.parts_nodup distinct).1.sublist log.reference_ids_sublist

/-- No member access is logged twice. -/
theorem member_ids_nodup : (log.members.map (·.id)).Nodup :=
  (accounts.parts_nodup distinct).1.sublist log.member_ids_sublist

/-- The slots under an id are those of the bare names under that id. -/
theorem slots_filter (id : NodeId) :
    (Resolutions.ofLog log).references.filter (·.1 == id) =
      (log.references.filter (·.id == id)).map fun site => (site.id, site.slots) := by
  rw [Resolutions.references_ofLog (accounts.reference_ids_nodup distinct), List.filter_map]
  rfl

/-- A bare name that is not passed over is looked up once and has one entry. -/
theorem once_of_not_passesOver {use : Reference} (reached : .reference use ∈ unit.expressions)
    (met : ¬unit.PassesOver log use) :
    ∃ site : ReferenceSite, log.references.filter (·.id == use.id) = [site] ∧
      site.name = use.name ∧ site.span = use.span ∧
      (Resolutions.ofLog log).references.filter (·.1 == use.id) = [(use.id, site.slots)] := by
  obtain ⟨site, logged, same, name, span⟩ :=
    accounts.logged_of_not_passesOver distinct reached met
  have only : log.references.filter (·.id == use.id) = [site] := by
    rw [← same]
    exact filter_key (·.id) (accounts.reference_ids_nodup distinct) (mem_references.mpr logged)
  refine ⟨site, only, name, span, ?_⟩
  rw [accounts.slots_filter distinct, only, List.map_singleton, same]

/-- A bare name that is passed over is not looked up and has no entry. -/
theorem never_of_passesOver {use : Reference} (passed : unit.PassesOver log use) :
    log.references.filter (·.id == use.id) = [] ∧
      (Resolutions.ofLog log).references.filter (·.1 == use.id) = [] := by
  have none : log.references.filter (·.id == use.id) = [] := by
    rw [List.filter_eq_nil_iff]
    intro site listed same
    exact accounts.not_logged_of_passesOver distinct passed _ (mem_references.mp listed)
      (beq_iff_eq.mp same)
  exact ⟨none, by rw [accounts.slots_filter distinct, none, List.map_nil]⟩

/-- The slots of a bare name are written. -/
theorem reference_written {slot : NodeId × ReferenceSlots}
    (recorded : slot ∈ (Resolutions.ofLog log).references) :
    ∃ use, .reference use ∈ unit.expressions ∧ use.id = slot.1 ∧
      .reference { use with resolved := slot.2.resolved, implicitBase := slot.2.implicitBase } ∈
        ((Resolutions.ofLog log).apply unit).expressions := by
  have slots := Resolutions.references_ofLog (accounts.reference_ids_nodup distinct)
  have keys : ((Resolutions.ofLog log).references.map Prod.fst).Nodup := by
    rw [slots, List.map_map]
    exact accounts.reference_ids_nodup distinct
  have found : (Resolutions.ofLog log).reference? slot.1 = some slot.2 :=
    valueAt?_of_mem keys recorded
  rw [slots] at recorded
  obtain ⟨site, listed, rfl⟩ := List.mem_map.mp recorded
  obtain ⟨e, reached, isUse⟩ := accounts.exists_of_logged (mem_references.mp listed)
  obtain ⟨use, rfl, same⟩ := Expr.eq_reference_of_use? isUse
  exact ⟨use, reached, same, Resolutions.reference_mem_apply reached (same ▸ found)⟩

/-- The slot of a member access is written. -/
theorem member_written {slot : NodeId × Resolution}
    (recorded : slot ∈ (Resolutions.ofLog log).members) :
    ∃ base access, .member base access ∈ unit.expressions ∧ access.id = slot.1 ∧
      ∃ written, .member written { access with resolved := some slot.2 } ∈
        ((Resolutions.ofLog log).apply unit).expressions := by
  have slots := Resolutions.members_ofLog (accounts.member_ids_nodup distinct)
  have keys : ((Resolutions.ofLog log).members.map Prod.fst).Nodup := by
    rw [slots]
    exact (accounts.member_ids_nodup distinct).sublist (MemberSite.slot_ids_sublist _)
  have found : (Resolutions.ofLog log).member? slot.1 = some slot.2 :=
    valueAt?_of_mem keys recorded
  rw [slots] at recorded
  obtain ⟨site, listed, told⟩ := List.mem_filterMap.mp recorded
  obtain ⟨resolution, _, rfl⟩ := Option.map_eq_some_iff.mp told
  obtain ⟨e, reached, isUse⟩ := accounts.exists_of_logged (mem_members.mp listed)
  obtain ⟨base, access, rfl, same⟩ := Expr.eq_member_of_use? isUse
  exact ⟨base, access, reached, same, Resolutions.member_mem_apply reached (same ▸ found)⟩

end UseLog.Accounts

/-- In a unit whose uses have distinct ids, every bare name that a walk reaches is looked up once
and has one entry in the slots to be filled, or it is passed over and has neither; and whatever is
to be filled in belongs to a use that the walk reaches, and is written. -/
theorem uses_covered {unit : TranslationUnit} {tree : ScopeTree} {table : DeclTable}
    {index : RecordIndex} {log : UseLog} (distinct : unit.useIds.Nodup)
    (run : resolveReferences unit tree table index = .ok log) :
    (∀ use, .reference use ∈ unit.expressions →
      (¬unit.PassesOver log use →
        ∃ site : ReferenceSite, log.references.filter (·.id == use.id) = [site] ∧
          site.name = use.name ∧ site.span = use.span ∧
          (Resolutions.ofLog log).references.filter (·.1 == use.id) = [(use.id, site.slots)]) ∧
      (unit.PassesOver log use →
        log.references.filter (·.id == use.id) = [] ∧
        (Resolutions.ofLog log).references.filter (·.1 == use.id) = [])) ∧
    (∀ slot ∈ (Resolutions.ofLog log).references,
      ∃ use, .reference use ∈ unit.expressions ∧ use.id = slot.1 ∧
        .reference { use with resolved := slot.2.resolved, implicitBase := slot.2.implicitBase } ∈
          ((Resolutions.ofLog log).apply unit).expressions) ∧
    ∀ slot ∈ (Resolutions.ofLog log).members,
      ∃ base access, .member base access ∈ unit.expressions ∧ access.id = slot.1 ∧
        ∃ written, .member written { access with resolved := some slot.2 } ∈
          ((Resolutions.ofLog log).apply unit).expressions := by
  obtain ⟨bases, accounts⟩ := resolveReferences_accounts run
  exact ⟨fun use reached => ⟨accounts.once_of_not_passesOver distinct reached,
      accounts.never_of_passesOver distinct⟩,
    fun slot recorded => accounts.reference_written distinct recorded,
    fun slot recorded => accounts.member_written distinct recorded⟩

/-- A loop whose variable would start with a field; the loop runs over the same field, written
behind the full name of its record, and its body uses it once more. -/
def loopUnit : TranslationUnit :=
  let int : TypeRef := { name := "int" }
  let x (id : UInt32) : Expr := .reference { id := ⟨id⟩, name := "x" }
  let record : Expr := .member (.reference { id := ⟨11⟩, name := "p" }) { id := ⟨10⟩, name := "A" }
  let loop : Stmt := .forEach ⟨5⟩ { id := ⟨6⟩, name := "v", type := int, initializer := some (x 7) }
    (.member record { id := ⟨9⟩, name := "x" }) (.expr (x 12)) {}
  { id := ⟨0⟩, name := "U", package := some "p"
    records := [⟨⟨1⟩, "A", none, false, [{ id := ⟨2⟩, name := "x", type := int, isStatic := true }],
      [⟨⟨3⟩, "m", false, false, [], some ⟨⟨4⟩, [loop], {}⟩, {}⟩], [], {}⟩] }

/-- A walk of the unit passes over the initializer of the loop variable. -/
theorem loopUnit_expressions :
    loopUnit.expressions =
      [.reference { id := ⟨7⟩, name := "x" },
        .member (.member (.reference { id := ⟨11⟩, name := "p" }) { id := ⟨10⟩, name := "A" })
          { id := ⟨9⟩, name := "x" },
        .member (.reference { id := ⟨11⟩, name := "p" }) { id := ⟨10⟩, name := "A" },
        .reference { id := ⟨11⟩, name := "p" }, .reference { id := ⟨12⟩, name := "x" }] := rfl

/-- The only bare name inside a base is the package. -/
theorem loopUnit_bases {base : Expr} {access : MemberName} {use : Reference}
    (reached : .member base access ∈ loopUnit.expressions) (inside : .reference use ∈ base.walk) :
    use.id = ⟨11⟩ := by
  rw [loopUnit_expressions] at reached
  simp only [List.mem_cons, List.not_mem_nil, reduceCtorEq, Expr.member.injEq, false_or,
    or_false] at reached
  rcases reached with ⟨rfl, -⟩ | ⟨rfl, -⟩ <;> simp_all [Expr.walk]

theorem uses_covered_sample :
    ∃ analysis, ∃ log : UseLog,
      loopUnit.useIds.Nodup ∧
      resolveUnit loopUnit (.build [loopUnit]) {} = .ok analysis ∧
      resolveReferences loopUnit analysis.tree analysis.declarations (.build [loopUnit]) =
        .ok log ∧
      (∃ site : ReferenceSite, log.references.filter (·.id == ⟨12⟩) = [site] ∧ site.name = "x") ∧
      (Resolutions.ofLog log).references.filter (·.1 == ⟨11⟩) = [] := by
  have counted : (resolveUnit loopUnit (.build [loopUnit]) {}).toOption.map
      (fun analysis => (resolveReferences loopUnit analysis.tree analysis.declarations
        (.build [loopUnit])).toOption.map fun log =>
          log.members.map fun site => (site.id, site.finding)) =
      some (some [(⟨10⟩, .recordName ⟨1⟩), (⟨9⟩, .member ⟨⟨2⟩, .staticField⟩ false)]) := by
    decide +kernel
  obtain ⟨analysis, run, logged⟩ := exists_ok_of_toOption_map counted
  obtain ⟨log, resolved, found⟩ := exists_ok_of_toOption_map logged
  have distinct : loopUnit.useIds.Nodup := by decide +kernel
  obtain ⟨covered, _⟩ := uses_covered distinct resolved
  have met : ¬loopUnit.PassesOver log { id := ⟨12⟩, name := "x" } := by
    rintro (initial | ⟨base, access, reached, _, inside⟩)
    · have only : loopUnit.loopInitializers = [.reference { id := ⟨7⟩, name := "x" }] := rfl
      simp [only] at initial
    · exact absurd (loopUnit_bases reached inside) (by decide)
  have named : log.NamesRecord ⟨10⟩ := by
    have listed : ((⟨10⟩, .recordName ⟨1⟩) : NodeId × MemberFinding) ∈
        log.members.map fun site => (site.id, site.finding) := found ▸ List.mem_cons_self
    obtain ⟨site, member, both⟩ := List.mem_map.mp listed
    exact ⟨site, UseLog.mem_members.mp member, congrArg Prod.fst both, ⟨1⟩,
      congrArg Prod.snd both⟩
  have passed : loopUnit.PassesOver log { id := ⟨11⟩, name := "p" } :=
    .inr ⟨.reference { id := ⟨11⟩, name := "p" }, { id := ⟨10⟩, name := "A" },
      by simp [loopUnit_expressions], named, by simp [Expr.walk]⟩
  obtain ⟨site, only, name, _⟩ :=
    (covered { id := ⟨12⟩, name := "x" } (by simp [loopUnit_expressions])).1 met
  exact ⟨analysis, log, distinct, run, resolved, ⟨site, only, name⟩,
    ((covered _ (by simp [loopUnit_expressions])).2 passed).2⟩

/-- What the variable of a loop over a collection would start with is reached by a walk, stands in
no base and is still not looked up. -/
theorem loop_initializer_not_looked_up :
    ∃ analysis, ∃ log : UseLog, ∃ use : Reference,
      loopUnit.useIds.Nodup ∧
      resolveUnit loopUnit (.build [loopUnit]) {} = .ok analysis ∧
      resolveReferences loopUnit analysis.tree analysis.declarations (.build [loopUnit]) =
        .ok log ∧
      .reference use ∈ loopUnit.expressions ∧
      (∀ base access, .member base access ∈ loopUnit.expressions → .reference use ∉ base.walk) ∧
      log.references.filter (·.id == use.id) = [] ∧
      analysis.resolutions.reference? use.id = none := by
  have counted : (resolveUnit loopUnit (.build [loopUnit]) {}).toOption.map
      (fun analysis => ((resolveReferences loopUnit analysis.tree analysis.declarations
        (.build [loopUnit])).toOption.map fun log => log.references.filter (·.id == ⟨7⟩),
        analysis.resolutions.reference? ⟨7⟩)) = some (some [], none) := by
    decide +kernel
  obtain ⟨analysis, run, both⟩ := exists_ok_of_toOption_map counted
  obtain ⟨logged, empty⟩ := Prod.mk.inj both
  obtain ⟨log, resolved, none⟩ := exists_ok_of_toOption_map logged
  refine ⟨analysis, log, { id := ⟨7⟩, name := "x" }, by decide +kernel, run, resolved,
    by simp [loopUnit_expressions], fun base access reached inside => ?_, none, empty⟩
  exact absurd (loopUnit_bases reached inside) (by decide)

end NameBinding
