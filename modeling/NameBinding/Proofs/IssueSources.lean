import NameBinding.Proofs.HitSources

/-!
# Where issues come from

The issues of a unit come from four sources: registration and the index report names that are
taken, the log tells of uses that denote nothing known or lack a receiver, and the shadows warn of
locals in sibling scopes. They are listed by where they start. Issues that start alike stay in
order, so leaving some out before sorting is leaving them out afterwards.
-/

namespace NameBinding

variable {unit : TranslationUnit} {tree : ScopeTree} {state : Registration}

/-! ### Names that are taken -/

namespace Registration

variable {next : Registration}

/-- Binding receivers reports nothing. -/
theorem bindReceivers_issues (state : Registration) (scope : ScopeId) (decl : Record) :
    (state.bindReceivers scope decl).issues = state.issues := by
  refine bindReceivers_preserves (fun s => s.issues = state.issues) scope decl ?_ rfl
  intro s binding same
  unfold bindReceiver
  cases s.tree.declare scope binding with
  | ok tree => exact same
  | error first => exact same

/-- Only names that are taken have been reported. -/
def ReportsDuplicates (state : Registration) : Prop :=
  ∀ issue ∈ state.issues, ∃ name first, issue.cause = .duplicate name first

/-- A declaration reports nothing but a name that is taken. -/
theorem ReportsDuplicates.declare {decl : Declaration} (h : ReportsDuplicates state)
    (taken : state.declare decl = .ok next) : ReportsDuplicates next := by
  obtain ⟨_, _, ⟨tree, _, rfl⟩ | ⟨first, _, rfl⟩⟩ := declare_eq_ok_iff.mp taken
  · exact h
  · intro issue listed
    rcases List.mem_append.mp listed with listed | listed
    · exact h issue listed
    · rw [List.mem_singleton.mp listed]
      exact ⟨_, _, rfl⟩

/-- Receivers leave it at that. -/
theorem ReportsDuplicates.bindReceivers {scope : ScopeId} {decl : Record}
    (h : ReportsDuplicates state) : ReportsDuplicates (state.bindReceivers scope decl) := by
  intro issue listed
  rw [bindReceivers_issues] at listed
  exact h issue listed

end Registration

/-- Registration reports names that are taken and nothing else. -/
theorem registered_reportsDuplicates (registered : registerDeclarations unit tree = .ok state) :
    state.ReportsDuplicates := by
  rw [registerDeclarations_eq] at registered
  refine Registration.steps_preserves Registration.ReportsDuplicates
    (fun h declared => h.declare declared) (fun _ _ h => h.bindReceivers) ?_ registered
  intro issue listed
  cases listed

/-- The index reports names that are taken and nothing else. -/
theorem collisionIssues_duplicate {index : RecordIndex} :
    ∀ issue ∈ collisionIssues tree index, ∃ name first, issue.cause = .duplicate name first := by
  intro issue listed
  obtain ⟨collision, _, issued⟩ := List.mem_filterMap.mp listed
  unfold collisionIssue? at issued
  split at issued
  · obtain ⟨dropped, _, rfl⟩ := Option.map_eq_some_iff.mp issued
    exact ⟨_, _, rfl⟩
  · cases issued

/-! ### Uses -/

/-- The log tells of uses that denote nothing known or lack a receiver and of nothing else. -/
theorem UseLog.issues_cause {log : UseLog} {reportUnresolved : Bool} :
    ∀ issue ∈ log.issues reportUnresolved, (∃ name reason, issue.cause = .unresolved name reason) ∨
      ∃ name, issue.cause = .staticContext name := by
  intro issue listed
  obtain ⟨entry, _, issued⟩ := List.mem_flatMap.mp listed
  cases entry with
  | reference site =>
    rw [UseEntry.issues, ReferenceSite.issues] at issued
    cases hit : site.hit with
    | some found =>
      rw [hit, List.mem_ite_nil_right, List.mem_singleton] at issued
      exact .inr ⟨_, congrArg Issue.cause issued.2⟩
    | none =>
      rw [hit, List.mem_ite_nil_right, List.mem_singleton] at issued
      exact .inl ⟨_, _, congrArg Issue.cause issued.2⟩
  | member site =>
    rw [UseEntry.issues, MemberSite.issues] at issued
    cases finding : site.finding with
    | recordName record =>
      rw [finding] at issued
      cases issued
    | member resolution staticContext =>
      rw [finding, List.mem_ite_nil_right, List.mem_singleton] at issued
      exact .inr ⟨_, congrArg Issue.cause issued.2⟩
    | missing reason =>
      rw [finding, List.mem_ite_nil_right, List.mem_singleton] at issued
      exact .inl ⟨_, _, congrArg Issue.cause issued.2⟩

/-! ### Shadows -/

/-- The warnings about shadows, if they are asked for. -/
def shadowsOf (options : Options) (tree : ScopeTree) (log : UseLog) : List Issue :=
  if options.reportAmbiguousShadows then tree.shadowIssues log.references else []

/-- A warning about a shadow is about an ambiguous one. -/
theorem shadowIssues_ambiguousShadow {sites : List ReferenceSite} :
    ∀ issue ∈ tree.shadowIssues sites, ∃ name other, issue.cause = .ambiguousShadow name other := by
  intro issue listed
  obtain ⟨site, _, issued⟩ := List.mem_filterMap.mp listed
  obtain ⟨method, _, issued⟩ := Option.bind_eq_some_iff.mp issued
  obtain ⟨binding, _, rfl⟩ := Option.map_eq_some_iff.mp issued
  exact ⟨_, _, rfl⟩

/-- The same of the warnings that are asked for. -/
theorem shadowsOf_ambiguousShadow {options : Options} {log : UseLog} :
    ∀ issue ∈ shadowsOf options tree log,
      ∃ name other, issue.cause = .ambiguousShadow name other := by
  intro issue listed
  unfold shadowsOf at listed
  split at listed
  · exact shadowIssues_ambiguousShadow issue listed
  · cases listed

/-! ### All issues of a unit -/

/-- The issues of an analysis, by source. -/
theorem UnitAnalysis.Phases.issues_eq {analysis : UnitAnalysis} {index : RecordIndex}
    {log : UseLog} {options : Options} (phases : analysis.Phases unit index tree state log)
    (run : resolveUnit unit index options = .ok analysis) :
    analysis.issues = inSourceOrder (state.issues ++ log.issues options.reportUnresolved ++
      collisionIssues state.tree index ++ shadowsOf options state.tree log) := by
  rw [resolveUnit, phases.built, ok_bind, phases.registered, ok_bind, phases.resolved,
    ok_bind] at run
  cases run
  rfl

/-! ### Sorting -/

section

variable {α : Type} {le : α → α → Bool} {q : α → Bool} {xs ys xs' ys' : List α}

/-- A list is cut in one way only into items without and items with a property. -/
theorem cut_eq (same : xs ++ ys = xs' ++ ys') (hxs : ∀ x ∈ xs, q x = false)
    (hys : ∀ y ∈ ys, q y = true) (hxs' : ∀ x ∈ xs', q x = false) (hys' : ∀ y ∈ ys', q y = true) :
    xs = xs' ∧ ys = ys' := by
  have left : ∀ {zs ws : List α}, (∀ x ∈ zs, q x = false) → (∀ y ∈ ws, q y = true) →
      (zs ++ ws).filter (!q ·) = zs := by
    intro zs ws hzs hws
    have none : ws.filter (!q ·) = [] := by
      rw [List.filter_eq_nil_iff]
      intro y member
      simp [hws y member]
    have all : zs.filter (!q ·) = zs := by
      rw [List.filter_eq_self]
      intro x member
      simp [hzs x member]
    rw [List.filter_append, all, none, List.append_nil]
  have first : xs = xs' := by
    rw [← left hxs hys, same, left hxs' hys']
  subst first
  exact ⟨rfl, List.append_cancel_left same⟩

variable (trans : ∀ a b c, le a b → le b c → le a c) (total : ∀ a b, le a b || le b a)

include trans total

/-- A stable sort puts the first item behind those that come strictly before it, and leaves the
others as they are sorted without it. -/
theorem exists_mergeSort_cons (a : α) (rest : List α) :
    ∃ before after, (a :: rest).mergeSort le = before ++ a :: after ∧
      rest.mergeSort le = before ++ after ∧ (∀ b ∈ before, le a b = false) ∧
      ∀ b ∈ after, le a b = true := by
  obtain ⟨before, after, sorted, around, less⟩ := List.mergeSort_cons trans total a rest
  have ordered := List.pairwise_mergeSort trans total (a :: rest)
  rw [sorted, List.pairwise_append, List.pairwise_cons] at ordered
  exact ⟨before, after, sorted, around, fun b member => by simpa using less b member,
    ordered.2.1.1⟩

/-- A stable sort does not mind when some items are left out: an item cuts what is left of the
sorted rest where it cuts the whole of it. -/
theorem filter_mergeSort (p : α → Bool) (items : List α) :
    (items.mergeSort le).filter p = (items.filter p).mergeSort le := by
  induction items with
  | nil => rw [List.mergeSort_nil, List.filter_nil, List.mergeSort_nil]
  | cons a rest ih =>
    obtain ⟨before, after, sorted, around, less, later⟩ := exists_mergeSort_cons trans total a rest
    rw [around, List.filter_append] at ih
    rw [sorted, List.filter_append]
    by_cases keep : p a
    · obtain ⟨before', after', sorted', around', less', later'⟩ :=
        exists_mergeSort_cons trans total a (rest.filter p)
      obtain ⟨same, same'⟩ := cut_eq (q := le a) (ih.trans around')
        (fun b member => less b (List.mem_of_mem_filter member))
        (fun b member => later b (List.mem_of_mem_filter member)) less' later'
      rw [List.filter_cons_of_pos keep, List.filter_cons_of_pos keep, sorted', same, same']
    · rw [List.filter_cons_of_neg keep, List.filter_cons_of_neg keep, ih]

end

/-- Leaving issues out before they are put in order is leaving them out afterwards. -/
theorem filter_inSourceOrder (p : Issue → Bool) (issues : List Issue) :
    (inSourceOrder issues).filter p = inSourceOrder (issues.filter p) := by
  refine filter_mergeSort (fun a b c first second => ?_) (fun a b => ?_) p issues
  · simp only [decide_eq_true_eq] at *
    exact UInt32.le_trans first second
  · simp only [Bool.or_eq_true, decide_eq_true_eq]
    exact UInt32.le_total _ _

end NameBinding
