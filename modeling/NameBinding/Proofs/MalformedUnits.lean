import NameBinding.Analysis
import NameBinding.Proofs.OutlineUses
import NameBinding.Proofs.Resolving
import NameBinding.Proofs.SyntaxMirror
import NameBinding.Proofs.Tracing

/-!
# Which units are malformed

Building a tree fails for a record without a name and for a node that opens two scopes;
registration fails for a variable without a name and for a node that declares twice; resolution
fails for a use without a name. Nothing else ends the analysis of a unit: the scopes that the
later phases ask for are those that the first phase has opened.
-/

namespace NameBinding

/-! ### Opening scopes -/

namespace ScopeTree

variable {tree later : ScopeTree} {opening : Opening} {openings : List Opening}

/-- A node has no scope exactly if it is no owner of one. -/
theorem Formed.scopeOf?_eq_none_iff_not_mem (formed : tree.Formed) {node : NodeId} :
    tree.scopeOf? node = none ↔ node ∉ tree.scopes.map (·.owner) := by
  rw [formed.scopeOf?_eq_none_iff, List.mem_map]
  simp

/-- A scope that is opened adds its owner. -/
theorem openScope_owners (h : tree.openScope opening = .ok later) :
    later.scopes.map (·.owner) = tree.scopes.map (·.owner) ++ [opening.header.owner] := by
  obtain ⟨_, _, rfl⟩ := openScope_eq_ok_iff.mp h
  simp [push, nextScope]

/-- Constructs open their scopes unless a record lacks a name or a node opens two scopes. -/
theorem Formed.openScopes_succeeds_iff (formed : tree.Formed) :
    (∃ later, tree.openScopes openings = .ok later) ↔
      (∀ opening ∈ openings, opening.simpleName ≠ some "") ∧
        (tree.scopes.map (·.owner) ++ openings.map (·.header.owner)).Nodup := by
  have owners : openings.map (·.header.owner) =
      openings.filterMap fun opening => some opening.header.owner := by
    rw [List.filterMap_eq_map']
  rw [owners]
  refine foldlM_ok_iff Formed (fun opening : Opening => opening.simpleName ≠ some "")
    (fun tree : ScopeTree => tree.scopes.map (·.owner))
    (fun opening : Opening => some opening.header.owner)
    (fun s formed opening _ t h => ⟨formed.openScope h, openScope_owners h⟩)
    (fun s formed opening _ => ?_) formed formed.owners
  simp only [openScope_eq_ok_iff, formed.scopeOf?_eq_none_iff_not_mem, Option.mem_some_iff,
    forall_eq', exists_and_left, exists_eq, and_true]

/-- Opening scopes fails for these two reasons only. -/
theorem openScopes_error {issue : Issue} (h : tree.openScopes openings = .error issue) :
    issue.cause = .malformed .namelessRecord ∨
      ∃ node existing, issue.cause = .malformed (.scopeTaken node existing) := by
  obtain ⟨s, _, opening, _, failed⟩ := foldlM_error (fun _ => True)
    (fun _ _ _ _ _ _ => trivial) trivial h
  unfold openScope at failed
  split at failed
  · cases failed
    exact .inl rfl
  · split at failed
    · cases failed
      exact .inr ⟨_, _, rfl⟩
    · cases failed

end ScopeTree

/-! ### Registering declarations -/

/-- The name that a step declares. -/
def Step.declaredName? : Step → Option String
  | record _ site => some site.decl.name
  | declares _ item => some item.name
  | _ => none

namespace Registration

variable {state next : Registration} {item : Step} {outline : List Step}

/-- A declaration succeeds exactly if it has a name and an id that is new. -/
theorem declare_succeeds_iff {decl : Declaration} :
    (∃ next, state.declare decl = .ok next) ↔ decl.name ≠ "" ∧ decl.id ∉ state.ids := by
  rw [← get?_eq_none_iff]
  cases h : state.declare decl with
  | ok next =>
    obtain ⟨named, new, _⟩ := declare_eq_ok_iff.mp h
    simp [named, new]
  | error issue =>
    rcases declare_eq_error_iff.mp h with ⟨nameless, _⟩ | ⟨_, taken, _⟩
    · simp [nameless]
    · simp [Option.ne_none_iff_isSome.mpr taken]

/-- Where its scope is there, a step is registered unless a name is missing or an id is taken. -/
theorem step_succeeds_iff (covered : state.tree.Covers item) :
    (∃ next, state.step item = .ok next) ↔
      item.declaredName? ≠ some "" ∧ ∀ id ∈ item.declared?, id ∉ state.ids := by
  cases item with
  | record within site =>
    obtain ⟨scope, found⟩ := covered _ rfl
    rw [step, ScopeTree.scopeOf_eq_ok_iff.mpr found, ok_bind, bind_ok_succeeds_iff,
      declare_succeeds_iff]
    simp [Step.declaredName?, Step.declared?, RecordSite.declaration]
  | opens within header span =>
    obtain ⟨scope, found⟩ := covered _ rfl
    rw [step, ScopeTree.scopeOf_eq_ok_iff.mpr found, ok_bind]
    simp [Step.declaredName?, Step.declared?]
  | declares within item =>
    rw [step, declare_succeeds_iff]
    simp [Step.declaredName?, Step.declared?, Variable.declaration]
  | uses within inStatic value => simp [step, Step.declaredName?, Step.declared?]

/-- Where its scope is there, a step fails for these two reasons only. -/
theorem step_error {issue : Issue} (covered : state.tree.Covers item)
    (h : state.step item = .error issue) :
    ∃ node, issue.cause = .malformed (.namelessDeclaration node) ∨
      issue.cause = .malformed (.declaresTwice node) := by
  have ofDeclare : ∀ decl, state.declare decl = .error issue →
      ∃ node, issue.cause = .malformed (.namelessDeclaration node) ∨
        issue.cause = .malformed (.declaresTwice node) := by
    intro decl failed
    rcases declare_eq_error_iff.mp failed with ⟨_, rfl⟩ | ⟨_, _, rfl⟩
    · exact ⟨decl.id, .inl rfl⟩
    · exact ⟨decl.id, .inr rfl⟩
  cases item with
  | record within site =>
    obtain ⟨scope, found⟩ := covered _ rfl
    rw [step, ScopeTree.scopeOf_eq_ok_iff.mpr found, ok_bind] at h
    rcases bind_eq_error_iff.mp h with failed | ⟨bound, _, failed⟩
    · exact ofDeclare _ failed
    · cases failed
  | opens within header span =>
    obtain ⟨scope, found⟩ := covered _ rfl
    rw [step, ScopeTree.scopeOf_eq_ok_iff.mpr found, ok_bind] at h
    cases h
  | declares within item => exact ofDeclare _ h
  | uses within inStatic value => cases h

/-- Where the scopes are there, an outline is registered unless a name is missing or an id is
declared twice. -/
theorem steps_succeed_iff (covered : ∀ item ∈ outline, state.tree.Covers item)
    (distinct : state.ids.Nodup) :
    (∃ next, state.steps outline = .ok next) ↔
      (∀ item ∈ outline, item.declaredName? ≠ some "") ∧
        (state.ids ++ outline.filterMap Step.declared?).Nodup := by
  refine foldlM_ok_iff (fun s => state.tree.SameShape s.tree)
    (fun item => item.declaredName? ≠ some "") ids Step.declared? ?_ ?_
    (ScopeTree.SameShape.refl _) distinct
  · exact fun s same item _ t h => ⟨same.trans (step_sameShape h), step_ids h⟩
  · exact fun s same item member => step_succeeds_iff ((covered item member).of_sameShape same)

/-- Registration fails for a declaration without a name or for an id that is declared twice. -/
theorem steps_error {issue : Issue} (covered : ∀ item ∈ outline, state.tree.Covers item)
    (h : state.steps outline = .error issue) :
    ∃ node, issue.cause = .malformed (.namelessDeclaration node) ∨
      issue.cause = .malformed (.declaresTwice node) := by
  obtain ⟨s, same, item, member, failed⟩ := foldlM_error
    (fun s : Registration => state.tree.SameShape s.tree)
    (fun s same item _ t h => same.trans (step_sameShape h)) (ScopeTree.SameShape.refl _) h
  exact step_error ((covered item member).of_sameShape same) failed

end Registration

/-! ### Resolving uses -/

/-- The name that a bare name or member access is looked up by. -/
def Expr.name? : Expr → Option String
  | .reference use => some use.name
  | .member _ access => some access.name
  | _ => none

/-- The issue is raised by one of the expressions, for it has no name. -/
def RaisedBy (issue : Issue) (expressions : List Expr) : Prop :=
  ∃ e ∈ expressions, e.name? = some "" ∧
    ∃ node, issue.cause = .malformed (.namelessReference node) ∨
      issue.cause = .malformed (.namelessMember node)

/-- An issue that is raised by some expressions is raised by more of them. -/
theorem RaisedBy.mono {issue : Issue} {xs ys : List Expr} (h : RaisedBy issue xs)
    (more : xs ⊆ ys) : RaisedBy issue ys := by
  obtain ⟨e, member, rest⟩ := h
  exact ⟨e, more member, rest⟩

/-- A computation in one part fails when the part does. -/
theorem RaisedBy.of_part {α β : Type} {issue : Issue} {x : Except Issue α} {f : α → β}
    {xs : List Expr} (hx : x = .error issue → RaisedBy issue xs)
    (h : (x >>= fun a => (.ok (f a) : Except Issue β)) = .error issue) : RaisedBy issue xs := by
  rcases bind_eq_error_iff.mp h with failed | ⟨a, _, done⟩
  · exact hx failed
  · cases done

/-- A computation in two parts fails when one of the parts does. -/
theorem RaisedBy.of_parts {α β γ : Type} {issue : Issue} {x : Except Issue α}
    {y : Except Issue β} {f : α → β → γ} {xs ys : List Expr}
    (hx : x = .error issue → RaisedBy issue xs) (hy : y = .error issue → RaisedBy issue ys)
    (h : (x >>= fun a => y >>= fun b => (.ok (f a b) : Except Issue γ)) = .error issue) :
    RaisedBy issue (xs ++ ys) := by
  rcases bind_eq_error_iff.mp h with failed | ⟨a, _, rest⟩
  · exact (hx failed).mono (List.subset_append_left _ _)
  · exact (RaisedBy.of_part hy rest).mono (List.subset_append_right _ _)

namespace Scene

variable {scene : Scene} {scope : ScopeId} {inStatic : Bool} {issue : Issue}

/-- Looking up a bare name fails only if it is empty. -/
theorem resolveReference_error {role : Role} {use : Reference}
    (h : scene.resolveReference scope inStatic role use = .error issue) :
    RaisedBy issue [.reference use] := by
  unfold resolveReference at h
  by_cases nameless : use.name = ""
  · rw [if_pos nameless] at h
    cases h
    exact ⟨_, List.mem_singleton_self _, congrArg some nameless, use.id, .inl rfl⟩
  · rw [if_neg nameless] at h
    cases h

mutual

/-- The resolution of an expression fails only for a use without a name inside it. -/
theorem resolve_error {role : Role} :
    (e : Expr) → scene.resolve scope inStatic role e = .error issue → RaisedBy issue e.walk
  | .literal .., h => by
    rw [resolve] at h
    cases h
  | .reference use, h => by
    rw [resolve] at h
    exact resolveReference_error h
  | .member base access, h => by
    rw [resolve] at h
    rw [Expr.walk]
    split at h
    · cases h
    · by_cases nameless : access.name = ""
      · rw [if_pos nameless] at h
        cases h
        exact ⟨_, List.mem_cons_self, congrArg some nameless, access.id, .inr rfl⟩
      · rw [if_neg nameless] at h
        exact (RaisedBy.of_part (resolve_error base) h).mono (List.subset_cons_self _ _)
  | .call none _ arguments _, h => by
    rw [resolve] at h
    rw [Expr.walk]
    exact (RaisedBy.of_part (resolveAll_error arguments) h).mono (List.subset_cons_self _ _)
  | .call (some receiver) _ arguments _, h => by
    rw [resolve] at h
    rw [Expr.walk]
    exact (RaisedBy.of_parts (resolve_error receiver) (resolveAll_error arguments) h).mono
      (List.subset_cons_self _ _)
  | .new type arguments span, h => by
    rw [resolve] at h
    rw [Expr.walk]
    exact (RaisedBy.of_part (resolveAll_error arguments) h).mono (List.subset_cons_self _ _)
  | .assign target value _, h => by
    rw [resolve] at h
    rw [Expr.walk]
    exact (RaisedBy.of_parts (resolve_error target) (resolve_error value) h).mono
      (List.subset_cons_self _ _)
  | .binary _ left right _, h => by
    rw [resolve] at h
    rw [Expr.walk]
    exact (RaisedBy.of_parts (resolve_error left) (resolve_error right) h).mono
      (List.subset_cons_self _ _)
  | .unary _ operand _, h => by
    rw [resolve] at h
    rw [Expr.walk]
    exact (RaisedBy.of_part (resolve_error operand) h).mono (List.subset_cons_self _ _)
  | .cast type operand span, h => by
    rw [resolve] at h
    rw [Expr.walk]
    exact (RaisedBy.of_part (resolve_error operand) h).mono (List.subset_cons_self _ _)
  | .index target position _, h => by
    rw [resolve] at h
    rw [Expr.walk]
    exact (RaisedBy.of_parts (resolve_error target) (resolve_error position) h).mono
      (List.subset_cons_self _ _)

/-- The resolution of several expressions fails only for a use without a name inside them. -/
theorem resolveAll_error :
    (es : List Expr) → scene.resolveAll scope inStatic es = .error issue →
      RaisedBy issue (Expr.walkAll es)
  | [], h => by
    rw [resolveAll] at h
    cases h
  | e :: rest, h => by
    rw [resolveAll] at h
    rw [Expr.walkAll]
    exact RaisedBy.of_parts (resolve_error e) (resolveAll_error rest) h

end

end Scene

namespace Scene

variable {scene : Scene} {issue : Issue} {outline : List Step}

/-- Where its scope is there, a step fails only for a use without a name. -/
theorem resolveStep_error {item : Step} (covered : scene.tree.Covers item)
    (h : scene.resolveStep item = .error issue) : RaisedBy issue item.expressions := by
  cases item with
  | record within site =>
    obtain ⟨scope, found⟩ := covered _ rfl
    rw [resolveStep, ScopeTree.scopeOf_eq_ok_iff.mpr found] at h
    cases h
  | opens within header span =>
    obtain ⟨scope, found⟩ := covered _ rfl
    rw [resolveStep, ScopeTree.scopeOf_eq_ok_iff.mpr found] at h
    split at h
    · cases h
    · cases h
  | declares within item => cases h
  | uses within inStatic value =>
    rw [resolveStep, uses] at h
    exact RaisedBy.of_part (resolve_error value) h

/-- Where the scopes are there, resolution fails only for a use without a name. -/
theorem resolveSteps_error (covered : ∀ item ∈ outline, scene.tree.Covers item)
    (h : scene.resolveSteps outline = .error issue) : RaisedBy issue (usesOf outline) := by
  induction outline with
  | nil => cases h
  | cons item rest ih =>
    rw [resolveSteps] at h
    exact RaisedBy.of_parts (resolveStep_error (covered item List.mem_cons_self))
      (ih fun other member => covered other (List.mem_cons_of_mem _ member)) h

end Scene

/-! ### Malformed units -/

variable {unit : TranslationUnit} {tree : ScopeTree} {state : Registration} {issue : Issue}

/-- A construct without a name is a record without one. -/
theorem exists_nameless_opening_iff (unit : TranslationUnit) :
    (∃ opening ∈ unit.openings, opening.simpleName = some "") ↔
      ∃ site ∈ unit.recordSites, site.decl.name = "" := by
  constructor
  · rintro ⟨opening, member, nameless⟩
    rcases TranslationUnit.opening_cases member with ⟨within, site, listed, _, name⟩ | ⟨_, name⟩
    · rw [name] at nameless
      exact ⟨site, TranslationUnit.mem_recordSites.mpr ⟨within, listed⟩,
        Option.some.inj nameless⟩
    · rw [name] at nameless
      cases nameless
  · rintro ⟨site, member, nameless⟩
    obtain ⟨within, listed⟩ := TranslationUnit.mem_recordSites.mp member
    exact ⟨_, mem_openingsOf.mpr ⟨_, unit.outline_perm.mem_iff.mp listed, rfl⟩,
      congrArg some nameless⟩

/-- A unit without a tree has a record without a name or a node that opens two scopes. -/
theorem ScopeTree.build_fails_iff :
    (∃ issue, ScopeTree.build unit = .error issue) ↔
      (∃ site ∈ unit.recordSites, site.decl.name = "") ∨
        ¬(unit.id :: unit.openings.map (·.header.owner)).Nodup := by
  rw [fails_iff_not_succeeds, build_eq, (ofUnit_formed unit.id).openScopes_succeeds_iff,
    ← exists_nameless_opening_iff unit, not_and_or]
  simp [ofUnit]

/-- A declaration without a name is a record or a variable without one. -/
theorem exists_nameless_step_iff (unit : TranslationUnit) :
    (∃ item ∈ unit.outline .recordsFirst, item.declaredName? = some "") ↔
      (∃ site ∈ unit.recordSites, site.decl.name = "") ∨
        ∃ item ∈ unit.declaredVariables, item.name = "" := by
  constructor
  · rintro ⟨item, member, nameless⟩
    cases item with
    | record within site =>
      exact .inl ⟨site, TranslationUnit.mem_recordSites.mpr ⟨within, member⟩,
        Option.some.inj nameless⟩
    | declares within item =>
      exact .inr ⟨item, TranslationUnit.mem_declaredVariables.mpr ⟨within, member⟩,
        Option.some.inj nameless⟩
    | opens within header span => cases nameless
    | uses within inStatic value => cases nameless
  · rintro (⟨site, member, nameless⟩ | ⟨item, member, nameless⟩)
    · obtain ⟨within, listed⟩ := TranslationUnit.mem_recordSites.mp member
      exact ⟨_, listed, congrArg some nameless⟩
    · obtain ⟨within, listed⟩ := TranslationUnit.mem_declaredVariables.mp member
      exact ⟨_, listed, congrArg some nameless⟩

/-- In a unit with a tree, registration fails for a variable without a name or a node that
declares twice. -/
theorem registerDeclarations_fails_iff (built : ScopeTree.build unit = .ok tree) :
    (∃ issue, registerDeclarations unit tree = .error issue) ↔
      (∃ item ∈ unit.declaredVariables, item.name = "") ∨ ¬unit.declaredIds.Nodup := by
  have named : ¬∃ site ∈ unit.recordSites, site.decl.name = "" := by
    intro nameless
    obtain ⟨issue, failed⟩ := ScopeTree.build_fails_iff.mpr (.inl nameless)
    rw [built] at failed
    cases failed
  have start : Registration.ids { tree } = [] := rfl
  have succeeds := Registration.steps_succeed_iff (ScopeTree.build_covers built)
    (start ▸ List.nodup_nil)
  rw [fails_iff_not_succeeds, registerDeclarations_eq, succeeds, not_and_or]
  have names : (¬∀ item ∈ unit.outline .recordsFirst, item.declaredName? ≠ some "") ↔
      ∃ item ∈ unit.declaredVariables, item.name = "" := by
    have steps := exists_nameless_step_iff unit
    rw [or_iff_right named] at steps
    rw [← steps]
    simp
  rw [names]
  rfl

/-- In a unit whose names are registered, resolution fails only for a use without a name. -/
theorem resolveReferences_error (built : ScopeTree.build unit = .ok tree)
    (registered : registerDeclarations unit tree = .ok state) {index : RecordIndex}
    (h : resolveReferences unit state.tree state.table index = .error issue) :
    RaisedBy issue unit.expressions := by
  rw [registerDeclarations_eq] at registered
  rw [resolveReferences_eq] at h
  have same := Registration.steps_sameShape registered
  refine RaisedBy.mono (Scene.resolveSteps_error ?_ h) unit.usesOf_subset
  exact fun item member => (ScopeTree.build_covers built item member).of_sameShape same

/-- The defects that end the analysis of a unit. -/
def Cause.EndsAnalysis (cause : Cause) : Prop :=
  cause = .malformed .namelessRecord ∨
    ∃ node, (∃ existing, cause = .malformed (.scopeTaken node existing)) ∨
      cause = .malformed (.namelessDeclaration node) ∨ cause = .malformed (.declaresTwice node) ∨
      cause = .malformed (.namelessReference node) ∨ cause = .malformed (.namelessMember node)

/-- Only missing names and repeated ids end an analysis. -/
theorem resolveUnit_error {index : RecordIndex} {options : Options}
    (h : resolveUnit unit index options = .error issue) : issue.cause.EndsAnalysis := by
  rcases bind_eq_error_iff.mp h with failed | ⟨tree, built, h⟩
  · rw [ScopeTree.build_eq] at failed
    rcases ScopeTree.openScopes_error failed with same | ⟨node, existing, same⟩
    · exact .inl same
    · exact .inr ⟨node, .inl ⟨existing, same⟩⟩
  rcases bind_eq_error_iff.mp h with failed | ⟨state, registered, h⟩
  · rw [registerDeclarations_eq] at failed
    obtain ⟨node, same⟩ := Registration.steps_error (ScopeTree.build_covers built) failed
    rcases same with same | same
    · exact .inr ⟨node, .inr (.inl same)⟩
    · exact .inr ⟨node, .inr (.inr (.inl same))⟩
  rcases bind_eq_error_iff.mp h with failed | ⟨log, _, h⟩
  · obtain ⟨e, _, _, node, same | same⟩ := resolveReferences_error built registered failed
    · exact .inr ⟨node, .inr (.inr (.inr (.inl same)))⟩
    · exact .inr ⟨node, .inr (.inr (.inr (.inr same)))⟩
  · cases h

/-- A unit is given up for missing names and repeated ids only: its tree is built unless a record
has no name or a node opens two scopes; its names are then registered unless a variable has no
name or a node declares twice; its uses are then resolved if all of them have names. -/
theorem analysis_fails_iff_malformed (unit : TranslationUnit) :
    ((∃ issue, ScopeTree.build unit = .error issue) ↔
      (∃ site ∈ unit.recordSites, site.decl.name = "") ∨
        ¬(unit.id :: unit.openings.map (·.header.owner)).Nodup) ∧
    (∀ tree, ScopeTree.build unit = .ok tree →
      ((∃ issue, registerDeclarations unit tree = .error issue) ↔
        (∃ item ∈ unit.declaredVariables, item.name = "") ∨ ¬unit.declaredIds.Nodup) ∧
      ∀ state, registerDeclarations unit tree = .ok state →
        (∀ e ∈ unit.expressions, e.name? ≠ some "") → ∀ index options,
        (∃ log, resolveReferences unit state.tree state.table index = .ok log) ∧
          ∃ analysis, resolveUnit unit index options = .ok analysis) ∧
    ∀ index options issue, resolveUnit unit index options = .error issue → ∀ node count,
      issue.cause ≠ .malformed (.unmatchedExit node) ∧
        issue.cause ≠ .malformed (.leftOpen count) ∧ issue.cause ≠ .malformed (.noScope node) := by
  refine ⟨ScopeTree.build_fails_iff,
    fun tree built => ⟨registerDeclarations_fails_iff built, ?_⟩, ?_⟩
  · intro state registered named index options
    have resolves : ∃ log, resolveReferences unit state.tree state.table index = .ok log := by
      cases run : resolveReferences unit state.tree state.table index with
      | ok log => exact ⟨log, rfl⟩
      | error issue =>
        obtain ⟨e, member, nameless, _⟩ := resolveReferences_error built registered run
        exact absurd nameless (named e member)
    obtain ⟨log, run⟩ := resolves
    refine ⟨⟨log, run⟩, ?_⟩
    rw [resolveUnit, built, ok_bind, registered, ok_bind, run, ok_bind]
    exact ⟨_, rfl⟩
  · intro index options issue failed node count
    rcases resolveUnit_error failed with
      same | ⟨other, ⟨existing, same⟩ | same | same | same | same⟩
    all_goals simp [same]

theorem analysis_fails_iff_malformed_sample :
    ∃ analysis, resolveUnit sampleUnit {} {} = .ok analysis := by
  obtain ⟨registers, resolves⟩ := (analysis_fails_iff_malformed sampleUnit).2.1 _ rfl
  cases run : registerDeclarations sampleUnit _ with
  | ok state => exact (resolves state run (by decide) {} {}).2
  | error issue =>
    rcases registers.mp ⟨issue, run⟩ with nameless | twice
    · exact absurd nameless (by decide)
    · exact absurd twice (by decide)

end NameBinding
