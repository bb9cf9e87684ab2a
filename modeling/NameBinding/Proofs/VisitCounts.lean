import NameBinding.Proofs.UnresolvedNotes
import NameBinding.Proofs.UseCoverage

/-!
# How many visits are counted

Two numbers are reported for a unit: how many uses were visited, and how many of these denote
something. They are read off the slots. A bare name has slots whether it denotes something or not, a
member access has one only if it denotes something. So the number of uses that denote something is
right, and the number of visits leaves out the member accesses that are searched in vain.
-/

namespace NameBinding

/-- The entry leaves something in the slots: a bare name always does, a member access if it denotes
something. -/
def UseEntry.leavesSlot : UseEntry → Bool
  | reference _ => true
  | member site => site.finding.resolved.isSome

namespace UseLog

/-! ### Slots, by entry -/

section

variable {log : UseLog} (reference : ReferenceSite) (member : MemberSite)

theorem references_cons_reference :
    references (.reference reference :: log) = reference :: references log := rfl

theorem references_cons_member : references (.member member :: log) = references log := rfl

theorem members_cons_reference : members (.reference reference :: log) = members log := rfl

theorem members_cons_member : members (.member member :: log) = member :: members log := rfl

end

/-- The slots of a log are those of its entries. -/
theorem slots_length (log : UseLog) :
    log.references.length + (log.members.filterMap MemberSite.slot?).length =
      log.countP UseEntry.leavesSlot := by
  induction log with
  | nil => rfl
  | cons entry rest ih =>
    rw [List.countP_cons, ← ih]
    cases entry with
    | reference site =>
      rw [references_cons_reference, members_cons_reference, List.length_cons]
      exact Nat.add_right_comm _ _ _
    | member site =>
      rw [references_cons_member, members_cons_member, List.filterMap_cons]
      cases found : site.finding.resolved <;>
        simp [MemberSite.slot?, UseEntry.leavesSlot, found, Nat.add_assoc]

/-- The slots of a log that are filled are those of its entries that denote something. -/
theorem filled_length (log : UseLog) :
    (log.references.filter (·.resolved.isSome)).length +
        (log.members.filterMap MemberSite.slot?).length =
      log.countP (·.resolved.isSome) := by
  induction log with
  | nil => rfl
  | cons entry rest ih =>
    rw [List.countP_cons, ← ih]
    cases entry with
    | reference site =>
      rw [references_cons_reference, members_cons_reference, List.filter_cons]
      cases found : site.resolved <;> simp [UseEntry.resolved, found, Nat.add_right_comm]
    | member site =>
      rw [references_cons_member, members_cons_member, List.filterMap_cons]
      cases found : site.finding.resolved <;>
        simp [MemberSite.slot?, UseEntry.resolved, found, Nat.add_assoc]

/-- What leaves a slot and does not fill it is a bare name that denotes nothing. -/
theorem countP_leavesSlot (log : UseLog) :
    log.countP UseEntry.leavesSlot =
      log.countP (·.resolved.isSome) + log.references.countP (·.resolved.isNone) := by
  have parts := log.references.length_eq_countP_add_countP (·.resolved.isSome)
  simp only [Bool.not_eq_true, Option.isSome_eq_false_iff, Bool.decide_eq_true] at parts
  rw [← log.slots_length, ← log.filled_length, parts, List.countP_eq_length_filter]
  omega

end UseLog

namespace Resolutions

variable {log : UseLog} (references : (log.references.map (·.id)).Nodup)
  (members : (log.members.map (·.id)).Nodup)

include references members

/-- If no use is logged twice, the number of visits counts the entries that leave something. -/
theorem visitedCount_ofLog : (ofLog log).visitedCount = log.countP UseEntry.leavesSlot := by
  rw [visitedCount, references_ofLog references, members_ofLog members, List.length_map,
    log.slots_length]

/-- If no use is logged twice, the other number counts the entries that denote something. -/
theorem resolvedCount_ofLog :
    (ofLog log).resolvedCount = log.countP (·.resolved.isSome) := by
  rw [resolvedCount, references_ofLog references, members_ofLog members, List.filter_map,
    List.length_map, ← log.filled_length]
  rfl

end Resolutions

/-! ### Slots, by visit -/

/-- The visit searches a member on a base. -/
def Visit.isSearch : Visit → Bool
  | search .. => true
  | name .. | fullName .. => false

namespace Scene

variable {scene : Scene}

/-- The visit searches a member on a base, in vain. -/
def searchesInVain (scene : Scene) (visit : Visit) : Bool := visit.isSearch && scene.inVain visit

/-- Every visit leaves something in the slots, but for the searches in vain. -/
theorem leavesSlot_entry (visit : Visit) :
    (scene.entry visit).leavesSlot = !scene.searchesInVain visit := by
  cases visit with
  | name scope inStatic role use => rfl
  | fullName scope access record => rfl
  | search scope inStatic base access =>
    rw [searchesInVain, inVain, found?, entry, UseEntry.leavesSlot, UseEntry.resolved,
      Visit.isSearch, Bool.true_and, Option.not_isNone]

/-- An entry denotes something unless the visit is in vain. -/
theorem resolved_entry_isSome (visit : Visit) :
    (scene.entry visit).resolved.isSome = !scene.inVain visit := by
  rw [inVain, found?, Option.not_isNone]

/-- If a visit is told by its entry, so is the number of such visits. -/
theorem countP_entry_add_countP {p : UseEntry → Bool} {q : Visit → Bool}
    (told : ∀ visit, p (scene.entry visit) = !q visit) (visits : List Visit) :
    (visits.map scene.entry).countP p + visits.countP q = visits.length := by
  have others : (visits.map scene.entry).countP p = visits.countP fun visit => !q visit := by
    rw [List.countP_map]
    exact List.countP_congr fun visit _ => by rw [Function.comp_apply, told]
  rw [others, List.length_eq_countP_add_countP q, Nat.add_comm]
  simp

end Scene

/-- In a unit whose uses have distinct ids, the number of visits that is reported counts all visits
but the searches in vain, and the number of uses that denote something counts all visits that are
not in vain. So the difference of both is the number of bare names that denote nothing. It is the
number of visits in vain, and the number of visits is right, if no search is in vain and only
then. -/
theorem visits_counted {unit : TranslationUnit} {tree : ScopeTree} {table : DeclTable}
    {index : RecordIndex} {log : UseLog} (distinct : unit.useIds.Nodup)
    (run : resolveReferences unit tree table index = .ok log) :
    let scene : Scene := ⟨tree, table, index, unit.package, unit.imports⟩
    let visits := scene.unitVisits unit
    let resolutions := Resolutions.ofLog log
    resolutions.visitedCount + visits.countP scene.searchesInVain = visits.length ∧
    resolutions.resolvedCount + visits.countP scene.inVain = visits.length ∧
    resolutions.visitedCount =
      resolutions.resolvedCount + log.references.countP (·.resolved.isNone) ∧
    (resolutions.visitedCount = visits.length ∧
        resolutions.visitedCount - resolutions.resolvedCount = visits.countP scene.inVain ↔
      ∀ visit ∈ visits, ¬scene.searchesInVain visit) := by
  intro scene visits resolutions
  obtain ⟨bases, accounts⟩ := resolveReferences_accounts run
  have references := accounts.reference_ids_nodup distinct
  have members := accounts.member_ids_nodup distinct
  have followed : log = visits.map scene.entry := resolveReferences_visits run
  have visited : resolutions.visitedCount + visits.countP scene.searchesInVain =
      visits.length := by
    rw [Resolutions.visitedCount_ofLog references members, followed]
    exact Scene.countP_entry_add_countP Scene.leavesSlot_entry visits
  have resolved : resolutions.resolvedCount + visits.countP scene.inVain = visits.length := by
    rw [Resolutions.resolvedCount_ofLog references members, followed]
    exact Scene.countP_entry_add_countP Scene.resolved_entry_isSome visits
  have apart : resolutions.visitedCount =
      resolutions.resolvedCount + log.references.countP (·.resolved.isNone) := by
    rw [Resolutions.visitedCount_ofLog references members,
      Resolutions.resolvedCount_ofLog references members, log.countP_leavesSlot]
  refine ⟨visited, resolved, apart, ?_⟩
  rw [← List.countP_eq_zero]
  omega

/-- A method that searches the member `y` on a field, in vain, and looks up `z`, in vain. -/
def vainUnit : TranslationUnit :=
  let y : Expr := .member (.reference { id := ⟨5⟩, name := "x" }) { id := ⟨6⟩, name := "y" }
  let z : Expr := .reference { id := ⟨7⟩, name := "z" }
  { id := ⟨0⟩, name := "Vain"
    records := [⟨⟨1⟩, "A", none, false, [{ id := ⟨2⟩, name := "x", type := { name := "int" } }],
      [⟨⟨3⟩, "m", false, false, [], some ⟨⟨4⟩, [.expr y, .expr z], {}⟩, {}⟩], [], {}⟩] }

theorem visits_counted_sample :
    ∃ analysis, ∃ log : UseLog,
      vainUnit.useIds.Nodup ∧
      resolveUnit vainUnit (.build [vainUnit]) {} = .ok analysis ∧
      resolveReferences vainUnit analysis.tree analysis.declarations (.build [vainUnit]) =
        .ok log ∧
      let scene := analysis.scene vainUnit (.build [vainUnit])
      let visits := scene.unitVisits vainUnit
      visits.length = 3 ∧
      (Resolutions.ofLog log).visitedCount + visits.countP scene.searchesInVain = 3 ∧
      (Resolutions.ofLog log).resolvedCount + visits.countP scene.inVain = 3 := by
  have counted : (resolveUnit vainUnit (.build [vainUnit]) {}).toOption.map
      (fun analysis => ((resolveReferences vainUnit analysis.tree analysis.declarations
        (.build [vainUnit])).toOption.map fun _ => (),
        ((analysis.scene vainUnit (.build [vainUnit])).unitVisits vainUnit).length)) =
      some (some (), 3) := by
    decide +kernel
  obtain ⟨analysis, run, both⟩ := exists_ok_of_toOption_map counted
  obtain ⟨logged, three⟩ := Prod.mk.inj both
  obtain ⟨log, resolved, -⟩ := exists_ok_of_toOption_map logged
  have distinct : vainUnit.useIds.Nodup := by decide +kernel
  obtain ⟨visited, denoting, -⟩ := visits_counted distinct resolved
  exact ⟨analysis, log, distinct, run, resolved, three, visited.trans three, denoting.trans three⟩

/-- Of three visits two are counted, and of two visits in vain one: the search for `y` is left
out. -/
theorem vain_search_not_counted :
    ∃ analysis,
      vainUnit.useIds.Nodup ∧
      resolveUnit vainUnit (.build [vainUnit]) {} = .ok analysis ∧
      let scene := analysis.scene vainUnit (.build [vainUnit])
      let visits := scene.unitVisits vainUnit
      visits.length = 3 ∧ visits.countP scene.inVain = 2 ∧
      analysis.resolutions.visitedCount = 2 ∧
      analysis.resolutions.visitedCount - analysis.resolutions.resolvedCount = 1 := by
  have counted : (resolveUnit vainUnit (.build [vainUnit]) {}).toOption.map
      (fun analysis =>
        let scene := analysis.scene vainUnit (.build [vainUnit])
        let visits := scene.unitVisits vainUnit
        (visits.length, visits.countP scene.inVain, analysis.resolutions.visitedCount,
          analysis.resolutions.visitedCount - analysis.resolutions.resolvedCount)) =
      some (3, 2, 2, 1) := by
    decide +kernel
  obtain ⟨analysis, run, told⟩ := exists_ok_of_toOption_map counted
  obtain ⟨length, told⟩ := Prod.mk.inj told
  obtain ⟨vain, told⟩ := Prod.mk.inj told
  obtain ⟨visited, denoting⟩ := Prod.mk.inj told
  exact ⟨analysis, by decide +kernel, run, length, vain, visited, denoting⟩

end NameBinding
