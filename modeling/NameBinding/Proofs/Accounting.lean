import NameBinding.Proofs.OutlineUses
import NameBinding.Proofs.Visits

/-!
# The accounts of a log

Every bare name and every member access that is looked at is logged once. Where a member access
names a record in full, nothing inside its base is looked at. So the uses in a log and those inside
the bases that were skipped are together the uses that a walk reaches, each as often as there.
-/

namespace NameBinding

/-- What tells uses apart, in a tree and in a log. -/
inductive Use where
  /-- A bare name. -/
  | reference (id : NodeId) (name : String) (span : Span)
  /-- A member access. -/
  | member (id : NodeId) (span : Span)
deriving DecidableEq, Repr

/-- The id of a use. -/
def Use.id : Use → NodeId
  | reference id _ _ => id
  | member id _ => id

/-- The use that an expression is by itself. -/
def Expr.use? : Expr → Option Use
  | .reference use => some (.reference use.id use.name use.span)
  | .member _ access => some (.member access.id access.span)
  | _ => none

/-- The uses among some expressions, in order. -/
def usesIn (walk : List Expr) : List Use := walk.filterMap Expr.use?

/-- The use that an entry of a log is about. -/
def UseEntry.use : UseEntry → Use
  | reference site => .reference site.id site.name site.span
  | member site => .member site.id site.span

namespace UseLog

/-- The member access with that id was found to name a record in full. -/
def NamesRecord (log : UseLog) (id : NodeId) : Prop :=
  ∃ site : MemberSite, .member site ∈ log ∧ site.id = id ∧
    ∃ record, site.finding = .recordName record

section NamesRecord

variable {xs ys : UseLog} {id : NodeId}

/-- A longer log names a record if a part of it does. -/
theorem NamesRecord.mono (h : xs.NamesRecord id) (sub : xs ⊆ ys) : ys.NamesRecord id := by
  obtain ⟨site, listed, same, named⟩ := h
  exact ⟨site, sub listed, same, named⟩

/-- A log names a record exactly if one of its parts does. -/
theorem namesRecord_append :
    (xs ++ ys).NamesRecord id ↔ xs.NamesRecord id ∨ ys.NamesRecord id := by
  simp only [NamesRecord, List.mem_append, or_and_right, exists_or]

/-- A bare name is not counted as naming a record. -/
theorem namesRecord_reference {site : ReferenceSite} : ¬NamesRecord [.reference site] id := by
  rintro ⟨_, listed, _⟩
  cases List.mem_singleton.mp listed

/-- A member access names a record exactly if it is taken as a whole. -/
theorem namesRecord_member {site : MemberSite} :
    NamesRecord [.member site] id ↔ site.id = id ∧ ∃ record, site.finding = .recordName record := by
  simp [NamesRecord]

end NamesRecord

/-- The uses of a walk are those of a log and those inside the bases that were skipped; these are
the bases of the member accesses that name records in full. -/
structure Accounts (log : UseLog) (walk bases : List Expr) : Prop where
  /-- No use is lost and none is counted twice. -/
  balance : (log.map UseEntry.use ++ usesIn (bases.flatMap Expr.walk)).Perm (usesIn walk)
  /-- A base is skipped for a member access that names a record. -/
  skipped : ∀ base ∈ bases, base.walk ⊆ walk ∧
    ∃ access, .member base access ∈ walk ∧ log.NamesRecord access.id
  /-- A member access that names a record has its base skipped. -/
  named : ∀ id, log.NamesRecord id →
    ∃ base ∈ bases, ∃ access : MemberName, access.id = id ∧ .member base access ∈ walk

namespace Accounts

variable {log more : UseLog} {walk further bases others : List Expr}

theorem nil : Accounts [] [] [] where
  balance := .refl _
  skipped := by simp
  named := by
    rintro id ⟨_, listed, _⟩
    cases listed

/-- Two accounts make one. -/
theorem append (first : log.Accounts walk bases) (second : more.Accounts further others) :
    (log ++ more).Accounts (walk ++ further) (bases ++ others) where
  balance := by
    rw [List.map_append, List.flatMap_append, usesIn, usesIn, List.filterMap_append,
      List.filterMap_append]
    exact perm_append_append first.balance second.balance
  skipped := by
    intro base listed
    rcases List.mem_append.mp listed with listed | listed
    · obtain ⟨inside, access, reached, names⟩ := first.skipped base listed
      exact ⟨List.subset_append_of_subset_left _ inside, access, List.mem_append_left _ reached,
        names.mono (List.subset_append_left _ _)⟩
    · obtain ⟨inside, access, reached, names⟩ := second.skipped base listed
      exact ⟨List.subset_append_of_subset_right _ inside, access, List.mem_append_right _ reached,
        names.mono (List.subset_append_right _ _)⟩
  named := by
    intro id names
    rcases namesRecord_append.mp names with names | names
    · obtain ⟨base, listed, access, same, reached⟩ := first.named id names
      exact ⟨base, List.mem_append_left _ listed, access, same, List.mem_append_left _ reached⟩
    · obtain ⟨base, listed, access, same, reached⟩ := second.named id names
      exact ⟨base, List.mem_append_right _ listed, access, same, List.mem_append_right _ reached⟩

/-- An expression that is no use does not count. -/
theorem unused {e : Expr} (none : e.use? = none) (h : log.Accounts walk bases) :
    log.Accounts (e :: walk) bases where
  balance := by
    rw [usesIn, usesIn, List.filterMap_cons_none none]
    exact h.balance
  skipped := by
    intro base listed
    obtain ⟨inside, access, reached, names⟩ := h.skipped base listed
    exact ⟨List.subset_cons_of_subset _ inside, access, List.mem_cons_of_mem _ reached, names⟩
  named := by
    intro id names
    obtain ⟨base, listed, access, same, reached⟩ := h.named id names
    exact ⟨base, listed, access, same, List.mem_cons_of_mem _ reached⟩

/-- A bare name counts once. -/
theorem reference (use : Reference) (scope : ScopeId) (hit : Option Hit) :
    Accounts [.reference ⟨use.id, use.name, scope, use.span, hit⟩] [.reference use] [] where
  balance := .refl _
  skipped := by simp
  named := fun _ names => absurd names namesRecord_reference

/-- A member access that is searched on its base counts once, after what is inside its base. -/
theorem member {base : Expr} (access : MemberName) (label : String) (scope : ScopeId)
    {finding : MemberFinding} (h : log.Accounts base.walk bases)
    (searched : ∀ record, finding ≠ .recordName record) :
    Accounts (log ++ [.member ⟨access.id, label, scope, access.span, finding⟩])
      (.member base access :: base.walk) bases where
  balance := by
    have count : usesIn (.member base access :: base.walk) =
        .member access.id access.span :: usesIn base.walk := rfl
    rw [List.map_append, List.map_singleton, List.append_assoc, count]
    exact List.perm_middle.trans (h.balance.cons _)
  skipped := by
    intro inner listed
    obtain ⟨inside, other, reached, names⟩ := h.skipped inner listed
    exact ⟨List.subset_cons_of_subset _ inside, other, List.mem_cons_of_mem _ reached,
      names.mono (List.subset_append_left _ _)⟩
  named := by
    intro id names
    rcases namesRecord_append.mp names with names | names
    · obtain ⟨inner, listed, other, same, reached⟩ := h.named id names
      exact ⟨inner, listed, other, same, List.mem_cons_of_mem _ reached⟩
    · obtain ⟨_, record, found⟩ := namesRecord_member.mp names
      exact absurd found (searched record)

/-- A member access that names a record counts once, and its base is skipped. -/
theorem fullName (base : Expr) (access : MemberName) (scope : ScopeId) (record : NodeId) :
    Accounts [.member ⟨access.id, access.name, scope, access.span, .recordName record⟩]
      (.member base access :: base.walk) [base] where
  balance := by
    rw [List.flatMap_singleton]
    exact .refl _
  skipped := by
    intro inner listed
    rw [List.mem_singleton.mp listed]
    exact ⟨List.subset_cons_self _ _, access, List.mem_cons_self,
      namesRecord_member.mpr ⟨rfl, record, rfl⟩⟩
  named := by
    intro id names
    obtain ⟨same, _⟩ := namesRecord_member.mp names
    exact ⟨base, List.mem_singleton.mpr rfl, access, same, List.mem_cons_self⟩

end Accounts

end UseLog

/-! ### Visits keep accounts -/

namespace Scene

variable {scene : Scene} {scope : ScopeId} {inStatic : Bool}

/-- An access behind a receiver is never taken as a whole. -/
theorem findReceiver_ne_recordName (base : BaseRecord) (access : MemberName) (record : NodeId) :
    (scene.findReceiver scope inStatic base access).2 ≠ .recordName record := by
  unfold findReceiver
  split
  · dsimp only
    split <;> simp
  · simp

/-- Nor is an access that is searched for among the members of its base. -/
theorem findMember_ne_recordName (base : BaseRecord) (member : String) (record : NodeId) :
    scene.findMember base member ≠ .recordName record := by
  unfold findMember
  split
  · simp
  · dsimp only
    split <;> simp

/-- A search on a base never ends at the full name of a record. -/
theorem findAccess_ne_recordName (base : Option BaseRecord) (access : MemberName)
    (record : NodeId) :
    (scene.findAccess scope inStatic base access).2 ≠ .recordName record := by
  unfold findAccess
  split
  · simp
  · split
    · exact findReceiver_ne_recordName _ access record
    · exact findMember_ne_recordName _ access.name record

/-- The visits of some expressions account for the uses that a walk over them reaches. -/
def AccountsFor (scene : Scene) (visits : List Visit) (walk : List Expr) : Prop :=
  ∃ bases, UseLog.Accounts (visits.map scene.entry) walk bases

section

variable {left right : List Visit} {walk further : List Expr} {e : Expr}

/-- Where nothing is walked, nothing is to be accounted for. -/
theorem accountsFor_nil : scene.AccountsFor [] [] := ⟨[], .nil⟩

/-- Logs that account for two walks account together for both, one after the other. -/
theorem AccountsFor.append (first : scene.AccountsFor left walk)
    (second : scene.AccountsFor right further) :
    scene.AccountsFor (left ++ right) (walk ++ further) := by
  obtain ⟨bases, hfirst⟩ := first
  obtain ⟨others, hsecond⟩ := second
  refine ⟨bases ++ others, ?_⟩
  rw [List.map_append]
  exact hfirst.append hsecond

/-- An expression that is no use by itself accounts for what is inside it. -/
theorem AccountsFor.unused (inside : scene.AccountsFor left walk) (unused : e.use? = none) :
    scene.AccountsFor left (e :: walk) := by
  obtain ⟨bases, accounts⟩ := inside
  exact ⟨bases, accounts.unused unused⟩

end

mutual

/-- The visits of an expression account for its uses. -/
theorem visits_accounts (role : Role) :
    (e : Expr) → scene.AccountsFor (scene.visits scope inStatic role e) e.walk
  | .literal .. => by
    rw [visits, Expr.walk]
    exact accountsFor_nil.unused rfl
  | .reference use => by
    rw [visits, Expr.walk]
    exact ⟨[], .reference use scope _⟩
  | .member base access => by
    rw [visits, Expr.walk]
    split
    · rename_i record _
      exact ⟨[base], .fullName base access scope record.id⟩
    · obtain ⟨bases, inside⟩ := visits_accounts .base base
      refine ⟨bases, ?_⟩
      rw [List.map_append]
      exact inside.member access _ scope (findAccess_ne_recordName _ access)
  | .call none _ arguments _ => by
    rw [visits, Expr.walk]
    exact (visitsAll_accounts arguments).unused rfl
  | .call (some receiver) _ arguments _ => by
    rw [visits, Expr.walk]
    exact ((visits_accounts .value receiver).append (visitsAll_accounts arguments)).unused rfl
  | .new _ arguments _ => by
    rw [visits, Expr.walk]
    exact (visitsAll_accounts arguments).unused rfl
  | .assign target value _ => by
    rw [visits, Expr.walk]
    exact ((visits_accounts .value target).append (visits_accounts .value value)).unused rfl
  | .binary _ left right _ => by
    rw [visits, Expr.walk]
    exact ((visits_accounts .value left).append (visits_accounts .value right)).unused rfl
  | .unary _ operand _ => by
    rw [visits, Expr.walk]
    exact (visits_accounts .value operand).unused rfl
  | .cast _ operand _ => by
    rw [visits, Expr.walk]
    exact (visits_accounts .value operand).unused rfl
  | .index target position _ => by
    rw [visits, Expr.walk]
    exact ((visits_accounts .value target).append (visits_accounts .value position)).unused rfl

/-- The visits of several expressions account for their uses. -/
theorem visitsAll_accounts :
    (es : List Expr) → scene.AccountsFor (scene.visitsAll scope inStatic es) (Expr.walkAll es)
  | [] => by
    rw [visitsAll, Expr.walkAll]
    exact accountsFor_nil
  | e :: rest => by
    rw [visitsAll, Expr.walkAll]
    exact (visits_accounts .value e).append (visitsAll_accounts rest)

end

/-- The visits of an outline account for the uses of the outline. -/
theorem stepVisits_accounts (steps : List Step) :
    scene.AccountsFor (steps.flatMap scene.stepVisits) (usesOf steps) := by
  induction steps with
  | nil => exact accountsFor_nil
  | cons item rest ih =>
    refine AccountsFor.append ?_ ih
    cases item with
    | record within site | opens within header span | declares within item => exact accountsFor_nil
    | uses within inStatic value => exact visits_accounts .value value

end Scene

/-- The log of a unit accounts for the uses of its outline. -/
theorem resolveReferences_accounts {unit : TranslationUnit} {tree : ScopeTree} {table : DeclTable}
    {index : RecordIndex} {log : UseLog} (run : resolveReferences unit tree table index = .ok log) :
    ∃ bases, log.Accounts (usesOf (unit.outline .recordsFirst)) bases := by
  rw [resolveReferences_visits run]
  exact Scene.stepVisits_accounts (unit.outline .recordsFirst)

end NameBinding
