import NameBinding.Proofs.HitSources
import NameBinding.Proofs.MalformedUnits

/-!
# Uses without a name

A unit is given up for every bare name and every member access that has no name, wherever a walk
finds it, but for what resolution never looks at: what the variable of a loop over a collection
would start with, and what stands in a member access that names a record in full. Such an access
is tried as a whole before the names in it are asked for, so the full name of a record may have
empty segments.
-/

namespace NameBinding

namespace Scene

variable {scene : Scene} {scope : ScopeId} {inStatic : Bool} {xs ys : List Expr} {e : Expr}

/-- The expression stands in a member access that is the base of another one and that names a
record in full. -/
def TakenWhole (scene : Scene) (scope : ScopeId) (inStatic : Bool) (walk : List Expr)
    (e : Expr) : Prop :=
  ∃ base access outer, .member (.member base access) outer ∈ walk ∧
    (scene.qualifiedRecord? scope inStatic base access).isSome ∧
    e ∈ (Expr.member base access).walk

/-- Every use without a name is taken as part of the full name of a record. -/
def NamelessTaken (scene : Scene) (scope : ScopeId) (inStatic : Bool) (walk : List Expr) : Prop :=
  ∀ e ∈ walk, e.name? = some "" → scene.TakenWhole scope inStatic walk e

/-- The expression is not taken whole as the full name of a record. -/
def LooksInto (scene : Scene) (scope : ScopeId) (inStatic : Bool) (role : Role) (e : Expr) : Prop :=
  role = .base → ∀ base access, e = .member base access →
    scene.qualifiedRecord? scope inStatic base access = none

/-- What is taken whole in a walk is taken whole in a longer one. -/
theorem TakenWhole.mono (h : scene.TakenWhole scope inStatic xs e) (more : xs ⊆ ys) :
    scene.TakenWhole scope inStatic ys e := by
  obtain ⟨base, access, outer, listed, whole⟩ := h
  exact ⟨base, access, outer, more listed, whole⟩

namespace NamelessTaken

/-- There is nothing without a name where there is nothing. -/
theorem nil : scene.NamelessTaken scope inStatic [] := by
  rintro e ⟨⟩

/-- Two walks are put together. -/
theorem append (first : scene.NamelessTaken scope inStatic xs)
    (second : scene.NamelessTaken scope inStatic ys) :
    scene.NamelessTaken scope inStatic (xs ++ ys) := by
  intro e listed nameless
  rcases List.mem_append.mp listed with listed | listed
  · exact (first e listed nameless).mono (List.subset_append_left _ _)
  · exact (second e listed nameless).mono (List.subset_append_right _ _)

/-- An expression that is no use without a name does not count. -/
theorem cons (named : e.name? ≠ some "") (h : scene.NamelessTaken scope inStatic xs) :
    scene.NamelessTaken scope inStatic (e :: xs) := by
  intro x listed nameless
  rcases List.mem_cons.mp listed with rfl | listed
  · exact absurd nameless named
  · exact (h x listed nameless).mono (List.subset_cons_self _ _)

/-- A member access with a name counts for nothing: either it is asked for the names in its base,
or its base is taken whole. -/
theorem member {base : Expr} {access : MemberName} (named : access.name ≠ "")
    (h : scene.LooksInto scope inStatic .base base → scene.NamelessTaken scope inStatic base.walk) :
    scene.NamelessTaken scope inStatic (.member base access :: base.walk) := by
  have head : (Expr.member base access).name? ≠ some "" := fun same => named (Option.some.inj same)
  by_cases looked : scene.LooksInto scope inStatic .base base
  · exact (h looked).cons head
  · unfold LooksInto at looked
    push Not at looked
    obtain ⟨_, inner, last, rfl, whole⟩ := looked
    intro x listed nameless
    rcases List.mem_cons.mp listed with rfl | listed
    · exact absurd nameless head
    · exact ⟨inner, last, access, List.mem_cons_self, Option.isSome_iff_ne_none.mpr whole, listed⟩

end NamelessTaken

/-- An expression whose value is asked for is looked into. -/
theorem looksInto_value (e : Expr) : scene.LooksInto scope inStatic .value e := by
  rintro ⟨⟩

section

variable {α β : Type} {first : Except Issue α} {second : Except Issue β} {outcome : Resolved}

/-- An expression that is no use by itself is resolved when its operand is. -/
theorem NamelessTaken.of_part {f : α → Resolved} (unused : e.name? = none)
    (hfirst : ∀ {a}, first = .ok a → scene.NamelessTaken scope inStatic xs)
    (run : (first >>= fun a => (.ok (f a) : Except Issue Resolved)) = .ok outcome) :
    scene.NamelessTaken scope inStatic (e :: xs) := by
  obtain ⟨a, ha, _⟩ := bind_eq_ok_iff.mp run
  exact (hfirst ha).cons (by simp [unused])

/-- An expression that is no use by itself is resolved when both its operands are. -/
theorem NamelessTaken.of_parts {f : α → β → Resolved} (unused : e.name? = none)
    (hfirst : ∀ {a}, first = .ok a → scene.NamelessTaken scope inStatic xs)
    (hsecond : ∀ {b}, second = .ok b → scene.NamelessTaken scope inStatic ys)
    (run : (first >>= fun a => second >>= fun b => (.ok (f a b) : Except Issue Resolved)) =
      .ok outcome) : scene.NamelessTaken scope inStatic (e :: (xs ++ ys)) := by
  obtain ⟨a, ha, rest⟩ := bind_eq_ok_iff.mp run
  obtain ⟨b, hb, _⟩ := bind_eq_ok_iff.mp rest
  exact ((hfirst ha).append (hsecond hb)).cons (by simp [unused])

end

mutual

/-- An expression that is resolved has names for all its uses but those that are part of the full
name of a record. -/
theorem resolve_namelessTaken {role : Role} {outcome : Resolved} :
    (e : Expr) → scene.resolve scope inStatic role e = .ok outcome →
      scene.LooksInto scope inStatic role e → scene.NamelessTaken scope inStatic e.walk
  | .literal .., _, _ => by
    rw [Expr.walk]
    exact NamelessTaken.nil.cons nofun
  | .reference use, run, _ => by
    rw [resolve] at run
    rw [Expr.walk]
    have named := (of_resolveReference run).1
    exact NamelessTaken.nil.cons fun same => named (Option.some.inj same)
  | .member base access, run, looked => by
    rw [Expr.walk]
    obtain ⟨record, isBase, whole, -⟩ | ⟨-, named, below, resolved, -⟩ := of_resolve_member run
    · rw [looked isBase base access rfl] at whole
      cases whole
    · exact .member named (resolve_namelessTaken base resolved)
  | .call none _ arguments _, run, _ => by
    rw [resolve] at run
    rw [Expr.walk]
    exact .of_part rfl (resolveAll_namelessTaken arguments) run
  | .call (some receiver) _ arguments _, run, _ => by
    rw [resolve] at run
    rw [Expr.walk]
    exact .of_parts rfl (fun h => resolve_namelessTaken receiver h (looksInto_value _))
      (resolveAll_namelessTaken arguments) run
  | .new _ arguments _, run, _ => by
    rw [resolve] at run
    rw [Expr.walk]
    exact .of_part rfl (resolveAll_namelessTaken arguments) run
  | .assign target value _, run, _ => by
    rw [resolve] at run
    rw [Expr.walk]
    exact .of_parts rfl (fun h => resolve_namelessTaken target h (looksInto_value _))
      (fun h => resolve_namelessTaken value h (looksInto_value _)) run
  | .binary _ left right _, run, _ => by
    rw [resolve] at run
    rw [Expr.walk]
    exact .of_parts rfl (fun h => resolve_namelessTaken left h (looksInto_value _))
      (fun h => resolve_namelessTaken right h (looksInto_value _)) run
  | .unary _ operand _, run, _ => by
    rw [resolve] at run
    rw [Expr.walk]
    exact .of_part rfl (fun h => resolve_namelessTaken operand h (looksInto_value _)) run
  | .cast _ operand _, run, _ => by
    rw [resolve] at run
    rw [Expr.walk]
    exact .of_part rfl (fun h => resolve_namelessTaken operand h (looksInto_value _)) run
  | .index target position _, run, _ => by
    rw [resolve] at run
    rw [Expr.walk]
    exact .of_parts rfl (fun h => resolve_namelessTaken target h (looksInto_value _))
      (fun h => resolve_namelessTaken position h (looksInto_value _)) run

/-- Expressions that are resolved have names for all their uses but those that are part of the
full name of a record. -/
theorem resolveAll_namelessTaken {log : UseLog} :
    (es : List Expr) → scene.resolveAll scope inStatic es = .ok log →
      scene.NamelessTaken scope inStatic (Expr.walkAll es)
  | [], _ => by
    rw [Expr.walkAll]
    exact .nil
  | e :: rest, run => by
    obtain ⟨_, _, first, second, _⟩ := resolveAll_cons_eq_ok_iff.mp run
    rw [Expr.walkAll]
    exact (resolve_namelessTaken e first (looksInto_value _)).append
      (resolveAll_namelessTaken rest second)

end

/-- In an outline that is resolved, every use without a name is part of the full name of a
record. -/
theorem resolveSteps_namelessTaken {steps : List Step} {log : UseLog}
    (run : scene.resolveSteps steps = .ok log) {within : Place} {value : Expr}
    (listed : .uses within inStatic value ∈ steps) :
    scene.NamelessTaken (scene.tree.placeOf within) inStatic value.walk := by
  obtain ⟨parts, _, resolved⟩ := resolveSteps_parts run
  obtain ⟨part, _, step⟩ := exists_left_of_forall₂ resolved.flip _ listed
  obtain ⟨outcome, inside, _⟩ := bind_eq_ok_iff.mp step
  exact resolve_namelessTaken value inside (looksInto_value value)

end Scene

/-- Resolution looks past an expression: the variable of a loop over a collection would start with
it, or it stands in a member access that names a record in full. -/
def TranslationUnit.LooksPast (unit : TranslationUnit) (scene : Scene) (e : Expr) : Prop :=
  e ∈ unit.loopInitializers ∨
    ∃ within inStatic value, .uses within inStatic value ∈ unit.outline .recordsFirst ∧
      scene.TakenWhole (scene.tree.placeOf within) inStatic value.walk e

variable {unit : TranslationUnit} {index : RecordIndex} {e : Expr}

/-- Where the uses of a unit are resolved, those without a name have been looked past. -/
theorem resolveReferences_looksPast {state : Registration} {log : UseLog}
    (resolved : resolveReferences unit state.tree state.table index = .ok log)
    (reached : e ∈ unit.expressions) (nameless : e.name? = some "") :
    unit.LooksPast (state.scene unit index) e := by
  rw [resolveReferences_eq] at resolved
  rcases List.mem_append.mp (unit.usesOf_perm.mem_iff.mpr reached) with used | initial
  · obtain ⟨item, listed, inside⟩ := List.mem_flatMap.mp used
    cases item with
    | uses within inStatic value =>
      have taken := Scene.resolveSteps_namelessTaken resolved listed e inside nameless
      exact .inr ⟨within, inStatic, value, listed, taken⟩
    | record within site => cases inside
    | opens within header span => cases inside
    | declares within item => cases inside
  · exact .inl initial

/-- A unit is given up for a use without a name, unless resolution looks past the use. -/
theorem nameless_use_refused (reached : e ∈ unit.expressions) (nameless : e.name? = some "")
    (looked : ∀ tree state, ScopeTree.build unit = .ok tree →
      registerDeclarations unit tree = .ok state → ¬unit.LooksPast (state.scene unit index) e)
    (options : Options) :
    ∃ defect span, resolveUnit unit index options = .error (.malformed defect span) := by
  cases run : resolveUnit unit index options with
  | ok analysis =>
    obtain ⟨tree, state, log, phases⟩ := UnitAnalysis.exists_phases run
    have past := resolveReferences_looksPast phases.resolved reached nameless
    exact absurd past (looked tree state phases.built phases.registered)
  | error issue =>
    obtain ⟨cause, span⟩ := issue
    rcases resolveUnit_error run with
      rfl | ⟨node, ⟨existing, rfl⟩ | rfl | rfl | rfl | rfl⟩
    all_goals exact ⟨_, span, rfl⟩

/-- A member `x` behind two names, the first of which is empty. -/
def emptyHead (second : String) : Expr :=
  .member (.member (.reference { id := ⟨7⟩, name := "" }) { id := ⟨6⟩, name := second })
    { id := ⟨5⟩, name := "x" }

/-- A method that reads `x` behind an empty name and another one. -/
def emptyHeadUnit (second : String) : TranslationUnit :=
  let x : Field := { id := ⟨2⟩, name := "x", type := { name := "int" }, isStatic := true }
  { id := ⟨0⟩, name := "U"
    records := [⟨⟨1⟩, "A", none, false, [x],
      [⟨⟨3⟩, "m", false, false, [], some ⟨⟨4⟩, [.expr (emptyHead second)], {}⟩, {}⟩], [], {}⟩] }

/-- The unit has a use without a name. -/
theorem emptyHeadUnit_reaches (second : String) :
    .reference { id := ⟨7⟩, name := "" } ∈ (emptyHeadUnit second).expressions := by
  simp [emptyHeadUnit, emptyHead, TranslationUnit.expressions, Record.expressionsAll,
    Record.expressions, Method.expressionsAll, Stmt.expressionsAll, Stmt.expressions, Expr.walk,
    Field.walkAll]

/-- The two names before `x` are tried as the full name of a record, which they are not. -/
theorem nameless_use_refused_sample :
    ∃ use : Reference, .reference use ∈ (emptyHeadUnit "B").expressions ∧ use.name = "" ∧
      (∀ tree state, ScopeTree.build (emptyHeadUnit "B") = .ok tree →
        registerDeclarations (emptyHeadUnit "B") tree = .ok state →
        ¬(emptyHeadUnit "B").LooksPast
          (state.scene (emptyHeadUnit "B") (.build [emptyHeadUnit "B"])) (.reference use)) ∧
      ∃ defect span, resolveUnit (emptyHeadUnit "B") (.build [emptyHeadUnit "B"]) {} =
        .error (.malformed defect span) := by
  have tried : (ScopeTree.build (emptyHeadUnit "B")).toOption.bind (fun tree =>
      (registerDeclarations (emptyHeadUnit "B") tree).toOption.map fun state =>
        (state.scene (emptyHeadUnit "B") (.build [emptyHeadUnit "B"])).qualifiedRecord?
          (state.tree.placeOf (.node ⟨4⟩)) false (.reference { id := ⟨7⟩, name := "" })
          { id := ⟨6⟩, name := "B" }) = some none := by decide +kernel
  have looked : ∀ tree state, ScopeTree.build (emptyHeadUnit "B") = .ok tree →
      registerDeclarations (emptyHeadUnit "B") tree = .ok state →
      ¬(emptyHeadUnit "B").LooksPast
        (state.scene (emptyHeadUnit "B") (.build [emptyHeadUnit "B"]))
        (.reference { id := ⟨7⟩, name := "" }) := by
    rintro tree state built registered
      (initial | ⟨within, inStatic, value, listed, base, access, outer, around, whole, _⟩)
    · have noLoops : (emptyHeadUnit "B").loopInitializers = [] := rfl
      rw [noLoops] at initial
      cases initial
    simp only [built, registered, Except.toOption, Option.bind_some, Option.map_some,
      Option.some.injEq] at tried
    have only : within = .node ⟨4⟩ ∧ inStatic = false ∧ value = emptyHead "B" := by
      simpa [emptyHeadUnit, TranslationUnit.outline, Record.outlineAll, Record.outline,
        Method.outlineAll, Block.outline, Stmt.outlineAll, Stmt.outline, Field.outline,
        Position.uses, Position.inside] using listed
    obtain ⟨rfl, rfl, rfl⟩ := only
    have inner : (base = .reference { id := ⟨7⟩, name := "" } ∧
        access = { id := ⟨6⟩, name := "B" }) ∧ outer = { id := ⟨5⟩, name := "x" } := by
      simpa [emptyHead, Expr.walk] using around
    obtain ⟨⟨rfl, rfl⟩, rfl⟩ := inner
    exact absurd tried (Option.isSome_iff_ne_none.mp whole)
  exact ⟨_, emptyHeadUnit_reaches "B", rfl, looked,
    nameless_use_refused (emptyHeadUnit_reaches "B") rfl looked {}⟩

/-- The full name of a record may start with an empty segment: the names in it are not asked for,
and the unit is analysed. -/
theorem empty_segment_passes :
    ∃ use : Reference, .reference use ∈ (emptyHeadUnit "A").expressions ∧ use.name = "" ∧
      ∃ analysis, resolveUnit (emptyHeadUnit "A") (.build [emptyHeadUnit "A"]) {} =
        .ok analysis := by
  have resolved : (resolveUnit (emptyHeadUnit "A") (.build [emptyHeadUnit "A"]) {}).toOption.map
      (fun analysis => analysis.issues) = some [] := by decide +kernel
  obtain ⟨analysis, run, _⟩ := exists_ok_of_toOption_map resolved
  exact ⟨_, emptyHeadUnit_reaches "A", rfl, analysis, run⟩

end NameBinding
