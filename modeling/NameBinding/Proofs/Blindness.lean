import NameBinding.Analysis
import NameBinding.Proofs.MappedOutline
import NameBinding.Proofs.ProgramIndex
import NameBinding.Proofs.Resolving
import NameBinding.Proofs.ScopeBuilding

/-!
# Old results

`blank` empties every slot of a tree. No phase of the analysis and no collection of records tells
a tree from its blank copy: none of the steps of an outline reads a slot. Filling the slots changes
nothing else and filling them twice is filling them once, so an analysis that is run on its own
outcome finds what it found before and writes what is there already.
-/

namespace NameBinding

/-! ### Empty slots -/

/-- A bare name with empty slots. -/
def Reference.blank (use : Reference) : Reference :=
  { use with resolved := none, implicitBase := none }

/-- The name part of a member access with an empty slot. -/
def MemberName.blank (access : MemberName) : MemberName := { access with resolved := none }

mutual

/-- An expression with empty slots. -/
def Expr.blank : Expr → Expr
  | .literal value span => .literal value span
  | .reference use => .reference use.blank
  | .member base access => .member base.blank access.blank
  | .call none name arguments span => .call none name (Expr.blankAll arguments) span
  | .call (some receiver) name arguments span =>
    .call (some receiver.blank) name (Expr.blankAll arguments) span
  | .new type arguments span => .new type (Expr.blankAll arguments) span
  | .assign target value span => .assign target.blank value.blank span
  | .binary operator left right span => .binary operator left.blank right.blank span
  | .unary operator operand span => .unary operator operand.blank span
  | .cast type operand span => .cast type operand.blank span
  | .index target position span => .index target.blank position.blank span

/-- Expressions with empty slots. -/
def Expr.blankAll : List Expr → List Expr
  | [] => []
  | e :: rest => e.blank :: Expr.blankAll rest

end

/-- A unit with empty slots. -/
def TranslationUnit.blank (unit : TranslationUnit) : TranslationUnit := unit.mapExprs Expr.blank

/-! ### Resolving blank expressions -/

namespace Scene

variable {scene : Scene} {scope : ScopeId} {inStatic : Bool}

/-- The path that an expression spells does not depend on its slots. -/
theorem dottedPath?_blank : (e : Expr) → e.blank.dottedPath? = e.dottedPath?
  | .reference _ => by rw [Expr.blank, Expr.dottedPath?, Expr.dottedPath?, Reference.blank]
  | .member base _ => by
    rw [Expr.blank, Expr.dottedPath?, Expr.dottedPath?, MemberName.blank, dottedPath?_blank base]
  | .literal .. => by rw [Expr.blank]
  | .call none .. | .call (some _) .. | .new .. | .assign .. | .binary .. | .unary .. | .cast ..
  | .index .. => by
    rw [Expr.blank]
    rfl

/-- Nor does the record that an access as a whole may name. -/
theorem qualifiedRecord?_blank (base : Expr) (access : MemberName) :
    scene.qualifiedRecord? scope inStatic base.blank access.blank =
      scene.qualifiedRecord? scope inStatic base access := by
  rw [qualifiedRecord?, dottedPath?_blank]
  rfl

mutual

/-- An expression is resolved without a look at its slots. -/
theorem resolve_blank (role : Role) :
    (e : Expr) →
      scene.resolve scope inStatic role e.blank = scene.resolve scope inStatic role e
  | .literal .. => by rw [Expr.blank]
  | .reference _ => by
    rw [Expr.blank, resolve, resolve]
    rfl
  | .member base access => by
    rw [Expr.blank, resolve, resolve, qualifiedRecord?_blank, resolve_blank .base base]
    rfl
  | .call none _ arguments _ => by
    rw [Expr.blank, resolve, resolve, resolveAll_blank arguments]
  | .call (some receiver) _ arguments _ => by
    rw [Expr.blank, resolve, resolve, resolve_blank .value receiver, resolveAll_blank arguments]
  | .new _ arguments _ => by
    rw [Expr.blank, resolve, resolve, resolveAll_blank arguments]
  | .assign target value _ => by
    rw [Expr.blank, resolve, resolve, resolve_blank .value target, resolve_blank .value value]
  | .binary _ left right _ => by
    rw [Expr.blank, resolve, resolve, resolve_blank .value left, resolve_blank .value right]
  | .unary _ operand _ => by
    rw [Expr.blank, resolve, resolve, resolve_blank .value operand]
  | .cast _ operand _ => by
    rw [Expr.blank, resolve, resolve, resolve_blank .value operand]
  | .index target position _ => by
    rw [Expr.blank, resolve, resolve, resolve_blank .value target, resolve_blank .value position]

/-- Expressions are resolved without a look at their slots. -/
theorem resolveAll_blank :
    (es : List Expr) →
      scene.resolveAll scope inStatic (Expr.blankAll es) = scene.resolveAll scope inStatic es
  | [] => by rw [Expr.blankAll]
  | e :: rest => by
    rw [Expr.blankAll, resolveAll, resolveAll, resolve_blank .value e, resolveAll_blank rest]

end

end Scene

/-! ### The steps of a blank unit -/

namespace Step

variable {f : Expr → Expr}

/-- No scope depends on expressions. -/
theorem opening?_mapExprs (item : Step) : (item.mapExprs f).opening? = item.opening? := by
  cases item with
  | record within site =>
    obtain ⟨⟨id, name, superclass, isStatic, fields, methods, records, span⟩, _⟩ := site
    rw [mapExprs, RecordSite.mapExprs, Record.mapExprs]
    rfl
  | _ => rfl

/-- No declaration depends on expressions. -/
theorem registration_mapExprs (state : Registration) (item : Step) :
    state.step (item.mapExprs f) = state.step item := by
  cases item with
  | record within site =>
    obtain ⟨⟨id, name, superclass, isStatic, fields, methods, records, span⟩, _⟩ := site
    rw [mapExprs, RecordSite.mapExprs, Record.mapExprs]
    rfl
  | _ => rfl

/-- No collected record depends on expressions. -/
theorem written?_mapExprs (unit : TranslationUnit) (item : Step) :
    (item.mapExprs f).written? unit = item.written? unit := by
  cases item with
  | record within site =>
    obtain ⟨⟨id, name, superclass, isStatic, fields, methods, records, span⟩, _⟩ := site
    rw [mapExprs, RecordSite.mapExprs, Record.mapExprs]
    simp only [written?, Record.written, List.map_map]
    rfl
  | _ => rfl

/-- Steps are resolved without a look at slots. -/
theorem resolveStep_blank (scene : Scene) (item : Step) :
    scene.resolveStep (item.mapExprs Expr.blank) = scene.resolveStep item := by
  cases item with
  | record within site =>
    obtain ⟨⟨id, name, superclass, isStatic, fields, methods, records, span⟩, _⟩ := site
    rw [mapExprs, RecordSite.mapExprs, Record.mapExprs]
    rfl
  | uses within inStatic value =>
    rw [mapExprs, Scene.resolveStep, Scene.resolveStep, Scene.uses, Scene.uses,
      Scene.resolve_blank]
  | _ => rfl

end Step

/-- Several steps are resolved without a look at slots. -/
theorem Scene.resolveSteps_blank (scene : Scene) (steps : List Step) :
    scene.resolveSteps (steps.map (Step.mapExprs Expr.blank)) = scene.resolveSteps steps := by
  induction steps with
  | nil => rfl
  | cons item rest ih =>
    rw [List.map_cons, resolveSteps, resolveSteps, item.resolveStep_blank, ih]

namespace TranslationUnit

variable (unit : TranslationUnit)

/-- A unit opens the same scopes whatever its slots hold. -/
theorem openings_blank : unit.blank.openings = unit.openings := by
  rw [openings, openings, openingsOf, openingsOf, blank, outline_mapExprs, List.filterMap_map]
  exact List.filterMap_congr fun item _ => item.opening?_mapExprs

/-- A unit writes the same records whatever its slots hold. -/
theorem writtenRecords_blank : unit.blank.writtenRecords = unit.writtenRecords := by
  rw [← writtenOf_outline, ← writtenOf_outline, writtenOf, writtenOf, blank, outline_mapExprs,
    List.filterMap_map]
  exact List.filterMap_congr fun item _ => item.written?_mapExprs unit

end TranslationUnit

/-! ### Blindness -/

section

variable (unit : TranslationUnit) (tree : ScopeTree)

/-- The tree of a unit does not depend on slots. -/
theorem ScopeTree.build_blank : build unit.blank = build unit := by
  rw [build_eq, build_eq, unit.openings_blank]
  rfl

/-- Declarations are registered without regard to slots. -/
theorem registerDeclarations_blank :
    registerDeclarations unit.blank tree = registerDeclarations unit tree := by
  rw [registerDeclarations_eq, registerDeclarations_eq, Registration.steps, Registration.steps,
    TranslationUnit.blank, TranslationUnit.outline_mapExprs, List.foldlM_map]
  simp only [Step.registration_mapExprs]

/-- Uses are looked up without regard to slots. -/
theorem resolveReferences_blank (table : DeclTable) (index : RecordIndex) :
    resolveReferences unit.blank tree table index = resolveReferences unit tree table index := by
  rw [resolveReferences_eq, resolveReferences_eq, TranslationUnit.blank,
    TranslationUnit.outline_mapExprs, Scene.resolveSteps_blank]
  rfl

/-- A unit is analysed without a look at its slots. -/
theorem resolveUnit_blank (index : RecordIndex) (options : Options) :
    resolveUnit unit.blank index options = resolveUnit unit index options := by
  unfold resolveUnit
  simp only [ScopeTree.build_blank, registerDeclarations_blank, resolveReferences_blank]
  rfl

/-- Units that differ in their slots only are analysed alike. -/
theorem resolveUnit_congr {unit other : TranslationUnit} (same : unit.blank = other.blank)
    (index : RecordIndex) (options : Options) :
    resolveUnit unit index options = resolveUnit other index options := by
  rw [← resolveUnit_blank unit, same, resolveUnit_blank]

/-- Units that differ in their slots only have one index. -/
theorem RecordIndex.ofProgram_congr {units others : List TranslationUnit}
    (same : units.map TranslationUnit.blank = others.map TranslationUnit.blank)
    (externals : List ExternalRecord) : ofProgram units externals = ofProgram others externals := by
  have collected : ∀ units : List TranslationUnit, units.flatMap TranslationUnit.writtenRecords =
      (units.map TranslationUnit.blank).flatMap TranslationUnit.writtenRecords := fun units => by
    rw [List.flatMap_map]
    exact List.flatMap_congr fun unit _ => unit.writtenRecords_blank.symm
  rw [ofProgram, ofProgram, RecordCollection.addUnits_eq, RecordCollection.addUnits_eq,
    collected units, same, ← collected others]

end

/-! ### Filling the slots -/

/-- An edit that writes into slots and changes nothing else. -/
structure Edit.Fills (edit : Edit) : Prop where
  reference : ∀ use, (edit.reference use).blank = use.blank
  member : ∀ access, (edit.member access).blank = access.blank
  call : ∀ name, edit.call name = name

section

variable {edits : Nat → Edit}

mutual

/-- Writing into slots leaves the same blank expression. -/
theorem Expr.blank_edit (fills : ∀ k, (edits k).Fills) (k : Nat) :
    (e : Expr) → (e.edit edits k).blank = e.blank
  | .literal .. => by rw [Expr.edit]
  | .reference use => by rw [Expr.edit, Expr.blank, Expr.blank, (fills k).reference use]
  | .member base access => by
    rw [Expr.edit, Expr.blank, Expr.blank, (fills k).member access,
      Expr.blank_edit fills (k + 1) base]
  | .call none name arguments _ => by
    rw [Expr.edit, Expr.blank, Expr.blank, (fills k).call name,
      Expr.blankAll_edit fills (k + 1) arguments]
  | .call (some receiver) name arguments _ => by
    rw [Expr.edit, Expr.blank, Expr.blank, (fills k).call name,
      Expr.blank_edit fills (k + 1) receiver, Expr.blankAll_edit fills _ arguments]
  | .new _ arguments _ => by
    rw [Expr.edit, Expr.blank, Expr.blank, Expr.blankAll_edit fills (k + 1) arguments]
  | .assign target value _ => by
    rw [Expr.edit, Expr.blank, Expr.blank, Expr.blank_edit fills (k + 1) target,
      Expr.blank_edit fills _ value]
  | .binary _ left right _ => by
    rw [Expr.edit, Expr.blank, Expr.blank, Expr.blank_edit fills (k + 1) left,
      Expr.blank_edit fills _ right]
  | .unary _ operand _ => by
    rw [Expr.edit, Expr.blank, Expr.blank, Expr.blank_edit fills (k + 1) operand]
  | .cast _ operand _ => by
    rw [Expr.edit, Expr.blank, Expr.blank, Expr.blank_edit fills (k + 1) operand]
  | .index target position _ => by
    rw [Expr.edit, Expr.blank, Expr.blank, Expr.blank_edit fills (k + 1) target,
      Expr.blank_edit fills _ position]

/-- Writing into slots leaves the same blank expressions. -/
theorem Expr.blankAll_edit (fills : ∀ k, (edits k).Fills) (k : Nat) :
    (es : List Expr) → Expr.blankAll (Expr.editAll edits k es) = Expr.blankAll es
  | [] => by rw [Expr.editAll]
  | e :: rest => by
    rw [Expr.editAll, Expr.blankAll, Expr.blankAll, Expr.blank_edit fills k e,
      Expr.blankAll_edit fills _ rest]

end

end

namespace Resolutions

variable (resolutions : Resolutions) (unit : TranslationUnit)

/-- What an analysis writes goes into slots only. -/
theorem edit_fills : resolutions.edit.Fills := ⟨fun _ => rfl, fun _ => rfl, fun _ => rfl⟩

/-- Writing the same results twice is writing them once. -/
theorem edit_then_edit : resolutions.edit.then resolutions.edit = resolutions.edit := rfl

/-- Filling the slots changes nothing but slots. -/
theorem blank_apply : (resolutions.apply unit).blank = unit.blank :=
  TranslationUnit.mapExprs_edit (fun e k => e.blank_edit (fun _ => resolutions.edit_fills) k) unit

/-- Filling the slots twice is filling them once. -/
theorem apply_apply : resolutions.apply (resolutions.apply unit) = resolutions.apply unit := by
  rw [apply, apply, TranslationUnit.edit_edit, edit_then_edit]

end Resolutions

/-! ### Running the analysis again -/

section

variable (unit : TranslationUnit) (units : List TranslationUnit) (index : RecordIndex)
  (options : Options)

/-- An analysis writes into slots only. -/
theorem blank_analyseUnit : (analyseUnit unit index options).1.blank = unit.blank := by
  unfold analyseUnit
  cases resolveUnit unit index options with
  | error issue => rfl
  | ok analysis => exact analysis.resolutions.blank_apply unit

/-- A unit that was analysed before comes out as it went in. -/
theorem analyseUnit_analyseUnit :
    analyseUnit (analyseUnit unit index options).1 index options =
      analyseUnit unit index options := by
  have again := resolveUnit_congr (blank_analyseUnit unit index options) index options
  rw [analyseUnit, again]
  unfold analyseUnit
  cases resolveUnit unit index options with
  | error issue => rfl
  | ok analysis => exact Prod.ext (analysis.resolutions.apply_apply unit) rfl

/-- A program has the same index after its analysis, against whatever index that was. -/
theorem ofProgram_analyseProgram (externals : List ExternalRecord) :
    RecordIndex.ofProgram ((analyseProgram units index options).map Prod.fst) externals =
      RecordIndex.ofProgram units externals := by
  refine RecordIndex.ofProgram_congr ?_ externals
  rw [analyseProgram, List.map_map, List.map_map]
  exact List.map_congr_left fun unit _ => blank_analyseUnit unit index options

/-- Analysing the units that an analysis leaves behind changes nothing more. -/
theorem analyseProgram_analyseProgram :
    analyseProgram ((analyseProgram units index options).map Prod.fst) index options =
      analyseProgram units index options := by
  rw [analyseProgram, analyseProgram, List.map_map, List.map_map]
  exact List.map_congr_left fun unit _ => analyseUnit_analyseUnit unit index options

end

/-- Analysis and index are blind to old results: units that differ in their slots only are analysed
alike and have one index. So a second run finds what the first one found and leaves every unit as
the first one left it, also against an index over what the first run left. -/
theorem analysis_blind_and_idempotent :
    (∀ unit other : TranslationUnit, unit.blank = other.blank → ∀ index options,
      resolveUnit unit index options = resolveUnit other index options) ∧
    (∀ units others : List TranslationUnit,
      units.map TranslationUnit.blank = others.map TranslationUnit.blank →
        RecordIndex.build units = RecordIndex.build others ∧
        ∀ externals, RecordIndex.ofProgram units externals = .ofProgram others externals) ∧
    (∀ unit index options,
      analyseUnit (analyseUnit unit index options).1 index options =
        analyseUnit unit index options) ∧
    ∀ units index options,
      let analysed := (analyseProgram units index options).map Prod.fst
      (∀ externals, RecordIndex.ofProgram analysed externals = .ofProgram units externals) ∧
      analyseProgram analysed index options = analyseProgram units index options :=
  ⟨fun _ _ same index options => resolveUnit_congr same index options,
    fun _ _ same =>
      ⟨RecordIndex.ofProgram_congr same [],
        fun externals => RecordIndex.ofProgram_congr same externals⟩,
    analyseUnit_analyseUnit,
    fun units index options =>
      ⟨ofProgram_analyseProgram units index options,
        analyseProgram_analyseProgram units index options⟩⟩

/-- A field that is used as the base of a member access, with old results in the slots. -/
def annotatedUnit (old : Option Resolution) : TranslationUnit :=
  let next : Field := { id := ⟨2⟩, name := "next", type := { name := "A" } }
  let use : Expr := .reference
    { id := ⟨5⟩, name := "next", resolved := old, implicitBase := old, span := { start := 5 } }
  let access : Expr := .member use { id := ⟨6⟩, name := "next", resolved := old }
  { id := ⟨0⟩, name := "Annotated"
    records := [⟨⟨1⟩, "A", none, false, [next],
      [⟨⟨3⟩, "m", false, false, [], some ⟨⟨4⟩, [.expr access], {}⟩, {}⟩], [], {}⟩] }

theorem analysis_blind_and_idempotent_sample :
    let stale := annotatedUnit (some ⟨⟨9⟩, .parameter⟩)
    let fresh := annotatedUnit none
    let once := (analyseUnit stale (.build [stale]) {}).1
    stale.blank = fresh.blank ∧
      stale.expressions.map Expr.resolution? = [some ⟨⟨9⟩, .parameter⟩, some ⟨⟨9⟩, .parameter⟩] ∧
      once.expressions.map Expr.resolution? = [some ⟨⟨2⟩, .field⟩, some ⟨⟨2⟩, .field⟩] ∧
      RecordIndex.build [stale] = RecordIndex.build [fresh] ∧
      resolveUnit stale (.build [stale]) {} = resolveUnit fresh (.build [stale]) {} ∧
      analyseUnit once (.build [stale]) {} = analyseUnit stale (.build [stale]) {} := by
  have same : (annotatedUnit (some ⟨⟨9⟩, .parameter⟩)).blank = (annotatedUnit none).blank := rfl
  obtain ⟨alike, oneIndex, again, _⟩ := analysis_blind_and_idempotent
  exact ⟨same, by decide +kernel, by decide +kernel,
    (oneIndex [_] [_] (congrArg (fun unit => [unit]) same)).1, alike _ _ same _ _, again _ _ _⟩

end NameBinding
