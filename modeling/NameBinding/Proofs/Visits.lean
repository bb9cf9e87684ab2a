import NameBinding.Proofs.Resolving

/-!
# What resolution visits

Resolution goes through a unit and visits uses: it looks a bare name up, it takes a member access
whole as the full name of a record, or it visits the base of a member access and then searches the
member on what the base stands for. The visits are listed here without running resolution. The log
of a run has one entry for each of them, in this order, and nothing else.
-/

namespace NameBinding

/-- A visit of a use. -/
inductive Visit where
  /-- A bare name is looked up. -/
  | name (scope : ScopeId) (inStatic : Bool) (role : Role) (use : Reference)
  /-- A member access is taken whole, as the full name of a record. -/
  | fullName (scope : ScopeId) (access : MemberName) (record : RecordInfo)
  /-- A member is searched on what the base of the access stands for. -/
  | search (scope : ScopeId) (inStatic : Bool) (base : Expr) (access : MemberName)

namespace Scene

/-- What a bare name denotes in its role. -/
def hit? (scene : Scene) (scope : ScopeId) (inStatic : Bool) (role : Role) (use : Reference) :
    Option Hit :=
  match role with
  | .value => scene.lookup? scope use.name use.span inStatic
  | .base => (scene.lookupBase scope use.name use.span inStatic).1

/-- The record that an expression stands for as the base of a member access. -/
def standsFor? (scene : Scene) (scope : ScopeId) (inStatic : Bool) (base : Expr) :
    Option BaseRecord :=
  (scene.resolve scope inStatic .base base).toOption.bind (·.base)

/-- What a visit leaves in the log. -/
def entry (scene : Scene) : Visit → UseEntry
  | .name scope inStatic role use =>
    .reference ⟨use.id, use.name, scope, use.span, scene.hit? scope inStatic role use⟩
  | .fullName scope access record =>
    .member ⟨access.id, access.name, scope, access.span, .recordName record.id⟩
  | .search scope inStatic base access =>
    let (label, finding) :=
      scene.findAccess scope inStatic (scene.standsFor? scope inStatic base) access
    .member ⟨access.id, label, scope, access.span, finding⟩

/-! ### The visits -/

mutual

/-- The visits of an expression, in order. -/
def visits (scene : Scene) (scope : ScopeId) (inStatic : Bool) (role : Role) : Expr → List Visit
  | .literal .. => []
  | .reference use => [.name scope inStatic role use]
  | .member base access =>
    let inFull :=
      if role = .base then scene.qualifiedRecord? scope inStatic base access else none
    match inFull with
    | some record => [.fullName scope access record]
    | none => scene.visits scope inStatic .base base ++ [.search scope inStatic base access]
  | .call none _ arguments _ => scene.visitsAll scope inStatic arguments
  | .call (some receiver) _ arguments _ =>
    scene.visits scope inStatic .value receiver ++ scene.visitsAll scope inStatic arguments
  | .new _ arguments _ => scene.visitsAll scope inStatic arguments
  | .assign target value _ =>
    scene.visits scope inStatic .value target ++ scene.visits scope inStatic .value value
  | .binary _ left right _ =>
    scene.visits scope inStatic .value left ++ scene.visits scope inStatic .value right
  | .unary _ operand _ => scene.visits scope inStatic .value operand
  | .cast _ operand _ => scene.visits scope inStatic .value operand
  | .index target position _ =>
    scene.visits scope inStatic .value target ++ scene.visits scope inStatic .value position

/-- The visits of several expressions, one after the other. -/
def visitsAll (scene : Scene) (scope : ScopeId) (inStatic : Bool) : List Expr → List Visit
  | [] => []
  | e :: rest => scene.visits scope inStatic .value e ++ scene.visitsAll scope inStatic rest

end

/-- The visits of a step of an outline, at its place. -/
def stepVisits (scene : Scene) : Step → List Visit
  | .uses within inStatic value => scene.visits (scene.tree.placeOf within) inStatic .value value
  | .record .. | .opens .. | .declares .. => []

/-- The visits of a unit. -/
def unitVisits (scene : Scene) (unit : TranslationUnit) : List Visit :=
  (unit.outline .recordsFirst).flatMap scene.stepVisits

/-! ### The log follows the visits -/

variable {scene : Scene} {scope : ScopeId} {inStatic : Bool}

section

variable {α β : Type} {first : Except Issue α} {second : Except Issue β} {logOf : α → UseLog}
  {logOf' : β → UseLog} {base : Option BaseRecord} {outcome : Resolved} {left right : List Visit}

/-- An expression that is no use by itself is visited where its operand is. -/
theorem log_single (hfirst : ∀ {a}, first = .ok a → logOf a = left.map scene.entry)
    (run : (do
      let a ← first
      (.ok { log := logOf a, base } : Except Issue Resolved)) = .ok outcome) :
    outcome.log = left.map scene.entry := by
  obtain ⟨a, ha, rest⟩ := bind_eq_ok_iff.mp run
  cases rest
  exact hfirst ha

/-- An expression that is no use by itself is visited where its operands are. -/
theorem log_pair (hfirst : ∀ {a}, first = .ok a → logOf a = left.map scene.entry)
    (hsecond : ∀ {b}, second = .ok b → logOf' b = right.map scene.entry)
    (run : (do
      let a ← first
      let b ← second
      (.ok { log := logOf a ++ logOf' b } : Except Issue Resolved)) = .ok outcome) :
    outcome.log = (left ++ right).map scene.entry := by
  obtain ⟨a, ha, rest⟩ := bind_eq_ok_iff.mp run
  obtain ⟨b, hb, rest⟩ := bind_eq_ok_iff.mp rest
  cases rest
  rw [List.map_append, ← hfirst ha, ← hsecond hb]

end

/-- A bare name is visited once. -/
theorem resolveReference_visits {role : Role} {use : Reference} {outcome : Resolved}
    (run : scene.resolveReference scope inStatic role use = .ok outcome) :
    outcome.log = [scene.entry (.name scope inStatic role use)] := by
  obtain ⟨-, ⟨rfl, rfl⟩ | ⟨rfl, rfl⟩⟩ := of_resolveReference run
  · rfl
  · rfl

mutual

/-- The log of an expression has an entry for each visit. -/
theorem resolve_visits {role : Role} {outcome : Resolved} :
    (e : Expr) → scene.resolve scope inStatic role e = .ok outcome →
      outcome.log = (scene.visits scope inStatic role e).map scene.entry
  | .literal .., run => by
    rw [resolve] at run
    cases run
    rw [visits, List.map_nil]
  | .reference use, run => by
    rw [resolve] at run
    rw [visits, List.map_singleton]
    exact resolveReference_visits run
  | .member base access, run => by
    rw [visits]
    obtain ⟨record, rfl, whole, rfl⟩ | ⟨unread, -, below, hbelow, rfl⟩ := of_resolve_member run
    · rw [if_pos rfl, whole]
      rfl
    · have stands : scene.standsFor? scope inStatic base = below.base := by
        rw [standsFor?, hbelow]
        rfl
      rw [ite_eq_right_iff.mpr unread, List.map_append, List.map_singleton, entry, stands,
        resolve_visits base hbelow]
  | .call none _ arguments _, run => by
    rw [resolve] at run
    rw [visits]
    exact log_single (resolveAll_visits arguments) run
  | .call (some receiver) _ arguments _, run => by
    rw [resolve] at run
    rw [visits]
    exact log_pair (resolve_visits receiver) (resolveAll_visits arguments) run
  | .new _ arguments _, run => by
    rw [resolve] at run
    rw [visits]
    exact log_single (resolveAll_visits arguments) run
  | .assign target value _, run => by
    rw [resolve] at run
    rw [visits]
    exact log_pair (resolve_visits target) (resolve_visits value) run
  | .binary _ left right _, run => by
    rw [resolve] at run
    rw [visits]
    exact log_pair (resolve_visits left) (resolve_visits right) run
  | .unary _ operand _, run => by
    rw [resolve] at run
    rw [visits]
    exact log_single (resolve_visits operand) run
  | .cast _ operand _, run => by
    rw [resolve] at run
    rw [visits]
    exact log_single (resolve_visits operand) run
  | .index target position _, run => by
    rw [resolve] at run
    rw [visits]
    exact log_pair (resolve_visits target) (resolve_visits position) run

/-- The log of several expressions has an entry for each visit. -/
theorem resolveAll_visits {log : UseLog} :
    (es : List Expr) → scene.resolveAll scope inStatic es = .ok log →
      log = (scene.visitsAll scope inStatic es).map scene.entry
  | [], run => by
    rw [resolveAll] at run
    cases run
    rw [visitsAll, List.map_nil]
  | e :: rest, run => by
    obtain ⟨first, second, hfirst, hsecond, rfl⟩ := resolveAll_cons_eq_ok_iff.mp run
    rw [visitsAll, List.map_append, ← resolve_visits e hfirst, ← resolveAll_visits rest hsecond]

end

/-- The log of a step has an entry for each visit. -/
theorem resolveStep_visits {item : Step} {log : UseLog} (run : scene.resolveStep item = .ok log) :
    log = (scene.stepVisits item).map scene.entry := by
  cases item with
  | uses within inStatic value =>
    obtain ⟨resolved, found, rest⟩ := bind_eq_ok_iff.mp run
    cases rest
    exact resolve_visits value found
  | record | opens | declares => exact log_eq_nil_of_resolveStep run nofun

/-- The log of an outline has an entry for each visit. -/
theorem resolveSteps_visits {steps : List Step} {log : UseLog}
    (run : scene.resolveSteps steps = .ok log) :
    log = (steps.flatMap scene.stepVisits).map scene.entry := by
  induction steps generalizing log with
  | nil =>
    cases run
    rfl
  | cons item rest ih =>
    obtain ⟨first, second, hfirst, hsecond, rfl⟩ := resolveSteps_cons_eq_ok_iff.mp run
    rw [List.flatMap_cons, List.map_append, ← resolveStep_visits hfirst, ← ih hsecond]

end Scene

/-- The log of a unit has an entry for each visit. -/
theorem resolveReferences_visits {unit : TranslationUnit} {tree : ScopeTree} {table : DeclTable}
    {index : RecordIndex} {log : UseLog} (run : resolveReferences unit tree table index = .ok log) :
    log = (Scene.unitVisits ⟨tree, table, index, unit.package, unit.imports⟩ unit).map
      (Scene.entry ⟨tree, table, index, unit.package, unit.imports⟩) := by
  rw [resolveReferences_eq] at run
  exact Scene.resolveSteps_visits run

end NameBinding
