import NameBinding.Proofs.Accounting
import NameBinding.Proofs.VariableTypes

/-!
# The member accesses of a unit

A member access of a unit leaves an entry in the log in one of two ways. As the base of another
access it may be taken whole, as the full name of a record; otherwise its base is resolved first
and the member is searched on what the base stands for.
-/

namespace NameBinding

/-- A unit writes an expression at a scope: some use of its outline belongs there, and a walk over
the used value reaches the expression. -/
def TranslationUnit.Writes (unit : TranslationUnit) (tree : ScopeTree) (scope : ScopeId)
    (inStatic : Bool) (e : Expr) : Prop :=
  ∃ within value, .uses within inStatic value ∈ unit.outline .recordsFirst ∧
    tree.placeOf within = scope ∧ e ∈ value.walk

namespace Scene

variable {scene : Scene} {unit : TranslationUnit} {scope : ScopeId} {inStatic : Bool} {base : Expr}
  {access : MemberName} {record : RecordInfo}

/-- A member access of a unit is taken as the full name of a record; `site` is its entry in the
log. -/
structure TakesWhole (scene : Scene) (unit : TranslationUnit) (base : Expr) (access : MemberName)
    (inStatic : Bool) (record : RecordInfo) (site : MemberSite) : Prop where
  written : unit.Writes scene.tree site.scope inStatic (.member base access)
  named : scene.qualifiedRecord? site.scope inStatic base access = some record
  entry : site = ⟨access.id, access.name, site.scope, access.span, .recordName record.id⟩

/-- A member access of a unit is searched on what its base stands for; `site` is its entry in the
log. -/
structure Searches (scene : Scene) (unit : TranslationUnit) (base : Expr) (access : MemberName)
    (inStatic : Bool) (below : Option BaseRecord) (site : MemberSite) : Prop where
  written : unit.Writes scene.tree site.scope inStatic (.member base access)
  named : access.name ≠ ""
  base : ∃ outcome, scene.resolve site.scope inStatic .base base = .ok outcome ∧
    outcome.base = below
  entry : site = ⟨access.id, (scene.findAccess site.scope inStatic below access).1, site.scope,
    access.span, (scene.findAccess site.scope inStatic below access).2⟩

/-- A member access that is found at a step of a unit is taken whole or searched on its base. -/
theorem FoundAt.taken_or_searched {item : Step} {site : MemberSite}
    (listed : item ∈ unit.outline .recordsFirst) (found : scene.FoundAt item (.member site)) :
    (∃ base access inStatic record, scene.TakesWhole unit base access inStatic record site) ∨
      ∃ base access inStatic below, scene.Searches unit base access inStatic below site := by
  obtain ⟨within, inStatic, value, rfl, found⟩ := found
  cases found with
  | @recordName base access record inside named =>
    have written : unit.Writes scene.tree (scene.tree.placeOf within) inStatic
        (.member base access) := ⟨within, value, listed, rfl, inside⟩
    exact .inl ⟨base, access, inStatic, record, written, named, rfl⟩
  | @member base access below inside named resolved =>
    have written : unit.Writes scene.tree (scene.tree.placeOf within) inStatic
        (.member base access) := ⟨within, value, listed, rfl, inside⟩
    exact .inr ⟨base, access, inStatic, below.base, written, named, ⟨below, resolved, rfl⟩, rfl⟩

/-- A member access names a record in full if its path does, and if its head denotes nothing. -/
theorem qualifiedRecord?_eq_some_iff :
    scene.qualifiedRecord? scope inStatic base access = some record ↔
      ∃ path, base.dottedPath? = some path ∧
        scene.lookup? scope (RecordName.splitHead path).1 access.span inStatic = none ∧
        scene.typeNamed? (RecordName.splitHead path).1 scope access.span = none ∧
        scene.index.resolveType? (RecordName.qualify (some path) access.name)
          (scene.typeContext scope) = some record := by
  unfold qualifiedRecord?
  cases base.dottedPath? with
  | none => simp
  | some path =>
    cases looked : scene.lookup? scope (RecordName.splitHead path).1 access.span inStatic <;>
      cases named : scene.typeNamed? (RecordName.splitHead path).1 scope access.span <;>
      simp [looked, named]

end Scene

/-- What an entry of a log denotes. -/
def UseEntry.resolved : UseEntry → Option Resolution
  | reference site => site.resolved
  | member site => site.finding.resolved

/-- What an expression that ends in a use denotes: its last entry tells. -/
def Resolved.found (outcome : Resolved) : Option Resolution :=
  outcome.log.getLast?.bind UseEntry.resolved

variable {analysis : UnitAnalysis} {unit : TranslationUnit} {index : RecordIndex}

/-- The scene of an analysis is the one in which its phases were run. -/
theorem UnitAnalysis.Phases.scene_eq {tree : ScopeTree} {state : Registration} {log : UseLog}
    (phases : analysis.Phases unit index tree state log) :
    analysis.scene unit index = state.scene unit index := by
  rw [UnitAnalysis.scene, phases.tree_eq, phases.declarations_eq, Registration.scene]

/-- Every member access in the log of an analysis is one of the unit, taken whole or searched on
its base. -/
theorem UnitAnalysis.Phases.taken_or_searched {tree : ScopeTree} {state : Registration}
    {log : UseLog} (phases : analysis.Phases unit index tree state log) {site : MemberSite}
    (listed : site ∈ log.members) :
    (∃ base access inStatic record,
        (analysis.scene unit index).TakesWhole unit base access inStatic record site) ∨
      ∃ base access inStatic below,
        (analysis.scene unit index).Searches unit base access inStatic below site := by
  have run := phases.resolved
  rw [resolveReferences_eq] at run
  obtain ⟨item, outlined, found⟩ :=
    Scene.resolveSteps_foundAt run _ (UseLog.mem_members.mp listed)
  rw [phases.scene_eq]
  exact found.taken_or_searched outlined

end NameBinding
