import NameBinding.Proofs.IssueSources

/-!
# Options choose among issues

Whatever the options, a unit is analysed to the same end: it is given up for the same defect, or
it gets the same scopes, declarations and slots. The issues that are reported are those that all
options together report, less the kinds that are switched off.
-/

namespace NameBinding

namespace Options

/-- Options that report all there is. -/
def everything : Options := ⟨true, true⟩

/-- Whether an issue is of a kind that is reported. -/
def reports (options : Options) (issue : Issue) : Bool :=
  match issue.cause with
  | .ambiguousShadow .. => options.reportAmbiguousShadows
  | .unresolved .. => options.reportUnresolved
  | .duplicate .. | .malformed .. | .staticContext .. => true

variable {options : Options} {issues : List Issue}

/-- Names that are taken are always reported. -/
theorem filter_reports_duplicates
    (duplicates : ∀ issue ∈ issues, ∃ name first, issue.cause = .duplicate name first) :
    issues.filter options.reports = issues := by
  rw [List.filter_eq_self]
  intro issue listed
  obtain ⟨name, first, cause⟩ := duplicates issue listed
  rw [reports, cause]

end Options

/-- The issues of an entry are chosen from all that the entry can give rise to. -/
theorem UseEntry.filter_issues (options : Options) (entry : UseEntry) :
    (entry.issues true).filter options.reports = entry.issues options.reportUnresolved := by
  cases entry with
  | reference site =>
    rw [UseEntry.issues, UseEntry.issues, ReferenceSite.issues, ReferenceSite.issues]
    cases site.hit with
    | none => cases unresolved : options.reportUnresolved <;> simp [Options.reports, unresolved]
    | some hit => cases static : hit.staticContext <;> simp [Options.reports, static]
  | member site =>
    rw [UseEntry.issues, UseEntry.issues, MemberSite.issues, MemberSite.issues]
    cases site.finding with
    | recordName record => rfl
    | member resolution staticContext => cases staticContext <;> rfl
    | missing reason =>
      cases unresolved : options.reportUnresolved <;> simp [Options.reports, unresolved]

/-- The issues of a log are chosen from all that the log can give rise to. -/
theorem UseLog.filter_issues (options : Options) (log : UseLog) :
    (log.issues true).filter options.reports = log.issues options.reportUnresolved := by
  rw [issues, issues, List.filter_flatMap]
  exact List.flatMap_congr fun entry _ => entry.filter_issues options

/-- Shadows are left out where they are not asked for. -/
theorem filter_shadowsOf (options : Options) (tree : ScopeTree) (log : UseLog) :
    (shadowsOf .everything tree log).filter options.reports = shadowsOf options tree log := by
  have all : shadowsOf .everything tree log = tree.shadowIssues log.references := rfl
  have kept : ∀ issue ∈ tree.shadowIssues log.references,
      options.reports issue = options.reportAmbiguousShadows := by
    intro issue listed
    obtain ⟨name, other, cause⟩ := shadowIssues_ambiguousShadow issue listed
    rw [Options.reports, cause]
  rw [all, shadowsOf]
  cases asked : options.reportAmbiguousShadows with
  | false =>
    rw [if_neg Bool.false_ne_true, List.filter_eq_nil_iff]
    intro issue listed
    rw [kept issue listed, asked]
    exact Bool.false_ne_true
  | true =>
    rw [if_pos rfl, List.filter_eq_self]
    exact fun issue listed => (kept issue listed).trans asked

/-- An analysis with the issues that the options report. -/
def UnitAnalysis.reportedBy (options : Options) (analysis : UnitAnalysis) : UnitAnalysis :=
  { analysis with issues := analysis.issues.filter options.reports }

/-- Analysing a unit under some options is analysing it under all of them and leaving out the
issues that are switched off. -/
theorem resolveUnit_eq_map_reportedBy (unit : TranslationUnit) (index : RecordIndex)
    (options : Options) :
    resolveUnit unit index options =
      (resolveUnit unit index .everything).map (·.reportedBy options) := by
  cases built : ScopeTree.build unit with
  | error issue => simp only [resolveUnit, built, error_bind, Except.map]
  | ok tree =>
    cases registered : registerDeclarations unit tree with
    | error issue => simp only [resolveUnit, built, registered, ok_bind, error_bind, Except.map]
    | ok state =>
      cases resolved : resolveReferences unit state.tree state.table index with
      | error issue =>
        simp only [resolveUnit, built, registered, resolved, ok_bind, error_bind, Except.map]
      | ok log =>
        have chosen : (inSourceOrder (state.issues ++ log.issues true ++
              collisionIssues state.tree index ++ shadowsOf .everything state.tree log)).filter
              options.reports =
            inSourceOrder (state.issues ++ log.issues options.reportUnresolved ++
              collisionIssues state.tree index ++ shadowsOf options state.tree log) := by
          rw [filter_inSourceOrder, List.filter_append, List.filter_append, List.filter_append,
            Options.filter_reports_duplicates (registered_reportsDuplicates registered),
            Options.filter_reports_duplicates collisionIssues_duplicate, log.filter_issues,
            filter_shadowsOf]
        simp only [resolveUnit, built, registered, resolved, ok_bind]
        exact congrArg (fun issues => Except.ok (⟨_, _, _, _, issues⟩ : UnitAnalysis)) chosen.symm

/-- Options do nothing but choose among issues. Under any two of them a unit is given up for the
same issue or for none; if it is not, it gets the same scopes, declarations and slots; and its
issues are those that all options report, in the same order, less the shadows if these are
switched off and less the unresolved uses if these are. -/
theorem options_choose_issues (unit : TranslationUnit) (index : RecordIndex)
    (options other : Options) :
    (∀ issue, resolveUnit unit index options = .error issue ↔
      resolveUnit unit index other = .error issue) ∧
    ∀ analysis, resolveUnit unit index options = .ok analysis →
      (∃ analysis', resolveUnit unit index other = .ok analysis' ∧
        analysis'.unit = analysis.unit ∧ analysis'.tree = analysis.tree ∧
        analysis'.declarations = analysis.declarations ∧
        analysis'.resolutions = analysis.resolutions) ∧
      ∃ full, resolveUnit unit index .everything = .ok full ∧
        analysis.issues = full.issues.filter options.reports := by
  have eq := resolveUnit_eq_map_reportedBy unit index
  rw [eq options, eq other]
  cases full : resolveUnit unit index .everything with
  | error first => exact ⟨fun issue => Iff.rfl, nofun⟩
  | ok full' =>
    refine ⟨fun issue => ⟨nofun, nofun⟩, fun analysis run => ?_⟩
    cases run
    exact ⟨⟨_, rfl, rfl, rfl, rfl, rfl⟩, full', rfl, rfl⟩

/-- A local of one block that is named in the block behind it. -/
def siblingUnit : TranslationUnit :=
  let first : Block := ⟨⟨4⟩, [.localVar { id := ⟨5⟩, name := "x", type := { name := "int" } }], {}⟩
  let second : Block := ⟨⟨6⟩, [.expr (.reference { id := ⟨7⟩, name := "x" })], {}⟩
  { id := ⟨0⟩, name := "U"
    records := [⟨⟨1⟩, "A", none, false, [],
      [⟨⟨2⟩, "m", false, false, [], some ⟨⟨3⟩, [.block first, .block second], {}⟩, {}⟩], [], {}⟩] }

/-- Of the note and the warning about the use in the second block, the note is off by default. -/
theorem options_choose_issues_sample :
    ∃ warned noted full, resolveUnit siblingUnit (.build [siblingUnit]) {} = .ok warned ∧
      resolveUnit siblingUnit (.build [siblingUnit]) ⟨false, true⟩ = .ok noted ∧
      resolveUnit siblingUnit (.build [siblingUnit]) .everything = .ok full ∧
      noted.resolutions = warned.resolutions ∧
      full.issues.filter ({} : Options).reports = [⟨.ambiguousShadow "x" {}, {}⟩] ∧
      full.issues.filter (⟨false, true⟩ : Options).reports =
        [⟨.unresolved "x" .noBinding, {}⟩] := by
  have warning : (resolveUnit siblingUnit (.build [siblingUnit]) {}).toOption.map (·.issues) =
      some [⟨.ambiguousShadow "x" {}, {}⟩] := by decide +kernel
  have note : (resolveUnit siblingUnit (.build [siblingUnit]) ⟨false, true⟩).toOption.map
      (·.issues) = some [⟨.unresolved "x" .noBinding, {}⟩] := by decide +kernel
  obtain ⟨warned, run, issues⟩ := exists_ok_of_toOption_map warning
  obtain ⟨noted, run', issues'⟩ := exists_ok_of_toOption_map note
  obtain ⟨⟨other, again, _, _, _, same⟩, full, all, chosen⟩ :=
    (options_choose_issues siblingUnit (.build [siblingUnit]) {} ⟨false, true⟩).2 warned run
  obtain ⟨_, full', all', chosen'⟩ :=
    (options_choose_issues siblingUnit (.build [siblingUnit]) ⟨false, true⟩ {}).2 noted run'
  cases run'.symm.trans again
  cases all.symm.trans all'
  exact ⟨warned, noted, full, run, run', all, same, chosen.symm.trans issues,
    chosen'.symm.trans issues'⟩

end NameBinding
