import NameBinding.Proofs.Registering
import NameBinding.Resolution.Unit

/-!
# Resolving a unit, step by step

The walk that resolves the uses of a unit is shown to do what the steps of the outline say, one
after the other: each expression is resolved at the scope of its place. The tree does not change
on the way, so the scope handed down the walk stays that of the place.
-/

namespace NameBinding

namespace Scene

variable {scene : Scene} {place : Place} {around : ScopeId}

/-! ### Names and member accesses that are resolved -/

section

variable {scope : ScopeId} {inStatic : Bool} {base : Expr} {access : MemberName}
  {record : RecordInfo} {role : Role} {outcome : Resolved}

/-- As a value, a bare name is looked up. -/
theorem resolve_name_value {use : Reference} (named : use.name ≠ "") :
    scene.resolve scope inStatic .value (.reference use) =
      .ok ⟨[.reference ⟨use.id, use.name, scope, use.span,
        scene.lookup? scope use.name use.span inStatic⟩], none⟩ := by
  rw [resolve, resolveReference, if_neg named]

/-- As a base, a bare name is looked up, also as a record name. -/
theorem resolve_name_base {use : Reference} (named : use.name ≠ "") :
    scene.resolve scope inStatic .base (.reference use) =
      .ok ⟨[.reference ⟨use.id, use.name, scope, use.span,
        (scene.lookupBase scope use.name use.span inStatic).1⟩],
        (scene.lookupBase scope use.name use.span inStatic).2⟩ := by
  rw [resolve, resolveReference, if_neg named]

/-- As a base, a member access that names a record in full is taken whole. -/
theorem resolve_whole
    (named : scene.qualifiedRecord? scope inStatic base access = some record) :
    scene.resolve scope inStatic .base (.member base access) =
      .ok ⟨[.member ⟨access.id, access.name, scope, access.span, .recordName record.id⟩],
        some ⟨record, true⟩⟩ := by
  rw [resolve, if_pos rfl, named]

/-- A member access that is not taken whole is resolved after its base. -/
theorem resolve_member {below : Resolved}
    (unread : role = .base → scene.qualifiedRecord? scope inStatic base access = none)
    (named : access.name ≠ "") (resolved : scene.resolve scope inStatic .base base = .ok below) :
    scene.resolve scope inStatic role (.member base access) =
      .ok ⟨below.log ++ [.member ⟨access.id, (scene.findAccess scope inStatic below.base access).1,
          scope, access.span, (scene.findAccess scope inStatic below.base access).2⟩],
        (scene.findAccess scope inStatic below.base access).2.resolved.bind
          (scene.recordBehind? scope)⟩ := by
  rw [resolve, ite_eq_right_iff.mpr unread, resolved]
  simp [named, ok_bind]

/-- A bare name that is resolved is not empty, and it has been looked up, as a value or as a
base. -/
theorem of_resolveReference {use : Reference}
    (run : scene.resolveReference scope inStatic role use = .ok outcome) :
    use.name ≠ "" ∧
      (role = .value ∧ outcome = ⟨[.reference ⟨use.id, use.name, scope, use.span,
          scene.lookup? scope use.name use.span inStatic⟩], none⟩ ∨
        role = .base ∧ outcome = ⟨[.reference ⟨use.id, use.name, scope, use.span,
            (scene.lookupBase scope use.name use.span inStatic).1⟩],
          (scene.lookupBase scope use.name use.span inStatic).2⟩) := by
  unfold resolveReference at run
  split at run
  · cases run
  · rename_i named
    refine ⟨named, ?_⟩
    cases role with
    | value => exact .inl ⟨rfl, (Except.ok.inj run).symm⟩
    | base => exact .inr ⟨rfl, (Except.ok.inj run).symm⟩

/-- A member access that is resolved has been taken whole, as a base that names a record in full,
or its member has been searched after its base was resolved. -/
theorem of_resolve_member (run : scene.resolve scope inStatic role (.member base access) =
      .ok outcome) :
    (∃ record, role = .base ∧ scene.qualifiedRecord? scope inStatic base access = some record ∧
        outcome = ⟨[.member ⟨access.id, access.name, scope, access.span, .recordName record.id⟩],
          some ⟨record, true⟩⟩) ∨
      (role = .base → scene.qualifiedRecord? scope inStatic base access = none) ∧
        access.name ≠ "" ∧ ∃ below, scene.resolve scope inStatic .base base = .ok below ∧
          outcome = ⟨below.log ++ [.member ⟨access.id,
              (scene.findAccess scope inStatic below.base access).1, scope, access.span,
              (scene.findAccess scope inStatic below.base access).2⟩],
            (scene.findAccess scope inStatic below.base access).2.resolved.bind
              (scene.recordBehind? scope)⟩ := by
  rw [resolve] at run
  split at run
  · rename_i record whole
    obtain ⟨isBase, found⟩ := Option.ite_none_right_eq_some.mp whole
    exact .inl ⟨record, isBase, found, (Except.ok.inj run).symm⟩
  · rename_i unread
    refine .inr ⟨ite_eq_right_iff.mp unread, ?_⟩
    split at run
    · cases run
    · rename_i named
      obtain ⟨below, resolved, rest⟩ := bind_eq_ok_iff.mp run
      exact ⟨named, below, resolved, (Except.ok.inj rest).symm⟩

/-- Resolving expressions is resolving the first of them and then the others. -/
theorem resolveAll_cons_eq_ok_iff {e : Expr} {rest : List Expr} {log : UseLog} :
    scene.resolveAll scope inStatic (e :: rest) = .ok log ↔
      ∃ first second, scene.resolve scope inStatic .value e = .ok first ∧
        scene.resolveAll scope inStatic rest = .ok second ∧ first.log ++ second = log := by
  rw [resolveAll]
  simp only [bind_eq_ok_iff, Except.ok.injEq, exists_and_left]

end

/-! ### Steps -/

/-- One step of an outline: an expression is resolved at the scope of its place. Records, blocks
and loops must have opened their scopes. -/
def resolveStep (scene : Scene) : Step → Except Issue UseLog
  | .record _ site => do
    let _ ← scene.tree.scopeOf site.decl.id site.decl.span
    .ok []
  | .opens _ header span =>
    if header.kind = .method ∨ header.kind = .handler then .ok []
    else do
      let _ ← scene.tree.scopeOf header.owner span
      .ok []
  | .declares .. => .ok []
  | .uses within inStatic value => scene.uses (scene.tree.placeOf within) inStatic value

/-- Several steps, one after the other. -/
def resolveSteps (scene : Scene) : List Step → Except Issue UseLog
  | [] => .ok []
  | item :: rest => do
    let first ← scene.resolveStep item
    .ok (first ++ (← scene.resolveSteps rest))

/-- Resolving steps is resolving the first of them and then the others. -/
theorem resolveSteps_cons_eq_ok_iff {item : Step} {rest : List Step} {log : UseLog} :
    scene.resolveSteps (item :: rest) = .ok log ↔
      ∃ first second, scene.resolveStep item = .ok first ∧ scene.resolveSteps rest = .ok second ∧
        first ++ second = log := by
  rw [resolveSteps]
  simp only [bind_eq_ok_iff, Except.ok.injEq, exists_and_left]

/-- A step leaves nothing in the log if it is no use. -/
theorem log_eq_nil_of_resolveStep {item : Step} {log : UseLog}
    (run : scene.resolveStep item = .ok log)
    (unused : ∀ within inStatic value, item ≠ .uses within inStatic value) : log = [] := by
  cases item with
  | record within site =>
    obtain ⟨_, _, done⟩ := bind_eq_ok_iff.mp run
    exact (Except.ok.inj done).symm
  | opens within header span =>
    rw [resolveStep] at run
    split at run
    · exact (Except.ok.inj run).symm
    · obtain ⟨_, _, done⟩ := bind_eq_ok_iff.mp run
      exact (Except.ok.inj done).symm
  | declares within item => exact (Except.ok.inj run).symm
  | uses within inStatic value => exact absurd rfl (unused within inStatic value)

/-- One outline after the other leaves one log after the other. -/
theorem resolveSteps_append (xs ys : List Step) :
    scene.resolveSteps (xs ++ ys) = (do
      let first ← scene.resolveSteps xs
      .ok (first ++ (← scene.resolveSteps ys))) := by
  induction xs with
  | nil =>
    rw [List.nil_append, resolveSteps, ok_bind]
    cases scene.resolveSteps ys <;> rfl
  | cons item rest ih =>
    rw [List.cons_append, resolveSteps, resolveSteps, ih]
    simp only [bind_assoc, ok_bind, List.append_assoc]

/-- Resolving nothing before some steps adds nothing to their log. -/
theorem resolveSteps_nil_append (steps : List Step) :
    (do .ok ([] ++ (← scene.resolveSteps steps)) : Except Issue UseLog) =
      scene.resolveSteps steps := by
  cases scene.resolveSteps steps <;> rfl

/-- Declarations use no names. -/
@[simp] theorem resolveSteps_declares (item : Variable) (rest : List Step) :
    scene.resolveSteps (.declares place item :: rest) = scene.resolveSteps rest :=
  resolveSteps_nil_append rest

/-- The scopes of methods and catch clauses are not asked for. -/
theorem resolveSteps_opens_unasked {header : ScopeHeader}
    (kind : header.kind = .method ∨ header.kind = .handler) (span : Span) (rest : List Step) :
    scene.resolveSteps (.opens place header span :: rest) = scene.resolveSteps rest := by
  rw [resolveSteps, resolveStep, if_pos kind]
  exact resolveSteps_nil_append rest

/-- A construct is walked inside its scope if this scope is there, and not at all otherwise. -/
theorem resolve_inside (node : NodeId) (span : Span) {rest : List Step}
    (walk : ScopeId → Except Issue UseLog)
    (inside : ∀ scope, scene.tree.scopeAt? (.node node) = some scope →
      walk scope = scene.resolveSteps rest) :
    (do walk (← scene.tree.scopeOf node span)) = (do
      let first ← (do
        let _ ← scene.tree.scopeOf node span
        .ok [])
      .ok (first ++ (← scene.resolveSteps rest))) := by
  cases found : scene.tree.scopeOf node span with
  | error issue => rfl
  | ok scope =>
    rw [ok_bind, ok_bind, ok_bind, resolveSteps_nil_append]
    exact inside scope (ScopeTree.scopeOf_eq_ok_iff.mp found)

/-- A block or loop is walked inside the scope that it has opened. -/
theorem resolveSteps_opens (header : ScopeHeader)
    (kind : ¬(header.kind = .method ∨ header.kind = .handler)) (span : Span) {rest : List Step}
    (walk : ScopeId → Except Issue UseLog)
    (inside : ∀ scope, scene.tree.scopeAt? (.node header.owner) = some scope →
      walk scope = scene.resolveSteps rest) :
    (do walk (← scene.tree.scopeOf header.owner span)) =
      scene.resolveSteps (.opens place header span :: rest) := by
  rw [resolveSteps, resolveStep, if_neg kind]
  exact resolve_inside header.owner span walk inside

/-- A record is walked inside the scope that it has opened. -/
theorem resolveSteps_record (site : RecordSite) {rest : List Step}
    (walk : ScopeId → Except Issue UseLog)
    (inside : ∀ scope, scene.tree.scopeAt? (.node site.decl.id) = some scope →
      walk scope = scene.resolveSteps rest) :
    (do walk (← scene.tree.scopeOf site.decl.id site.decl.span)) =
      scene.resolveSteps (.record place site :: rest) := by
  rw [resolveSteps, resolveStep]
  exact resolve_inside site.decl.id site.decl.span walk inside

/-- The use of an expression is resolved at the scope of its place. -/
theorem resolveSteps_uses (here : scene.tree.scopeAt? place = some around) (inStatic : Bool)
    (value : Expr) (rest : List Step) :
    scene.resolveSteps (.uses place inStatic value :: rest) = (do
      let first ← scene.uses around inStatic value
      .ok (first ++ (← scene.resolveSteps rest))) := by
  rw [resolveSteps, resolveStep, ScopeTree.placeOf_eq here]

/-- A step with one use logs that use. -/
theorem resolveSteps_single (here : scene.tree.scopeAt? place = some around) (inStatic : Bool)
    (value : Expr) :
    scene.resolveSteps [.uses place inStatic value] = scene.uses around inStatic value := by
  rw [resolveSteps_uses here]
  cases scene.uses around inStatic value with
  | error issue => rfl
  | ok log => exact congrArg Except.ok (List.append_nil log)

/-- The steps of an expression that may be missing log its uses. -/
theorem resolveSteps_usesOption (position : Position)
    (here : scene.tree.scopeAt? position.place = some around) (value : Option Expr) :
    scene.resolveSteps (position.usesOption value) = scene.usesOption around false value := by
  cases value with
  | none => rfl
  | some value => exact resolveSteps_single here false value

/-- The steps of several expressions log their uses. -/
theorem resolveSteps_mapUses (position : Position)
    (here : scene.tree.scopeAt? position.place = some around) (values : List Expr) :
    scene.resolveSteps (values.map position.uses) = scene.resolveAll around false values := by
  induction values with
  | nil => rw [resolveAll, List.map_nil, resolveSteps]
  | cons value rest ih =>
    rw [List.map_cons, Position.uses, resolveSteps_uses here, ih, resolveAll, uses]
    simp only [bind_assoc, ok_bind]

/-- The initializers of fields are resolved at the scope of their record. -/
theorem resolveFields_eq (here : scene.tree.scopeAt? place = some around) (fields : List Field) :
    scene.resolveFields around fields =
      scene.resolveSteps (fields.flatMap (Field.outline place)) := by
  induction fields with
  | nil => rfl
  | cons field rest ih =>
    rw [List.flatMap_cons, resolveSteps_append, resolveFields, ih, Field.outline,
      resolveSteps_declares]
    cases field.initializer with
    | none => rfl
    | some value =>
      simp only [resolveSteps_single here]
      rfl

/-- Declaring parameters logs nothing. -/
theorem resolveSteps_parameters (parameters : List Parameter) (rest : List Step) :
    scene.resolveSteps
      (parameters.map (fun parameter => .declares place parameter.declared) ++ rest) =
      scene.resolveSteps rest := by
  induction parameters with
  | nil => rfl
  | cons parameter others ih => rw [List.map_cons, List.cons_append, resolveSteps_declares, ih]

mutual

/-- Resolving a statement does what the steps of its outline say. -/
theorem resolveStmt_eq (position : Position) {around : ScopeId}
    (here : scene.tree.scopeAt? position.place = some around) :
    (s : Stmt) →
      scene.resolveStmt around s = scene.resolveSteps (s.outline .recordsFirst position)
  | .localVar decl => by
    rw [Stmt.outline, resolveStmt, resolveSteps_declares, resolveSteps_usesOption position here]
  | .expr value => by
    rw [Stmt.outline, resolveStmt, Position.uses, resolveSteps_single here]
  | .ret value _ => by
    rw [Stmt.outline, resolveStmt, resolveSteps_usesOption position here]
  | .block block => by
    rw [Stmt.outline, resolveStmt]
    exact resolveBlock_eq position block
  | .ifElse condition thenBranch none _ => by
    rw [Stmt.outline, resolveStmt, Position.uses, resolveSteps_uses here,
      resolveStmt_eq position here thenBranch]
  | .ifElse condition thenBranch (some elseBranch) _ => by
    rw [Stmt.outline, resolveStmt, Position.uses, List.cons_append, resolveSteps_uses here,
      resolveSteps_append, resolveStmt_eq position here thenBranch,
      resolveStmt_eq position here elseBranch]
    simp only [bind_assoc, ok_bind, List.append_assoc]
  | .forLoop id init condition update body span => by
    rw [Stmt.outline, resolveStmt, List.cons_append, List.cons_append, List.cons_append]
    refine resolveSteps_opens { kind := .loop, owner := id } (by simp) span (fun scope => do
      let first ← scene.resolveStmts scope init
      let second ← scene.usesOption scope false condition
      let third ← scene.resolveAll scope false update
      .ok (first ++ second ++ third ++ (← scene.resolveStmt scope body))) fun scope inside => ?_
    have header : scene.tree.scopeAt?
      { position.inside id with inHeader := true : Position }.place = some scope := inside
    rw [resolveSteps_append, resolveSteps_append, resolveSteps_append,
      resolveSteps_usesOption (position.inside id) inside,
      resolveSteps_mapUses (position.inside id) inside, resolveStmts_eq _ header init,
      resolveStmt_eq (position.inside id) inside body]
    simp only [bind_assoc, ok_bind, List.append_assoc]
  | .forEach id item iterable body span => by
    rw [Stmt.outline, resolveStmt]
    refine resolveSteps_opens { kind := .loop, owner := id } (by simp) span (fun scope => do
      let first ← scene.uses around false iterable
      .ok (first ++ (← scene.resolveStmt scope body))) fun scope inside => ?_
    rw [resolveSteps_declares, Position.uses, resolveSteps_uses here,
      resolveStmt_eq (position.inside id) inside body]
  | .whileLoop id condition body span => by
    rw [Stmt.outline, resolveStmt]
    refine resolveSteps_opens { kind := .loop, owner := id } (by simp) span (fun scope => do
      let first ← scene.uses scope false condition
      .ok (first ++ (← scene.resolveStmt scope body))) fun scope inside => ?_
    have inner : scene.tree.scopeAt? (position.inside id).place = some scope := inside
    rw [Position.uses, resolveSteps_uses inner,
      resolveStmt_eq (position.inside id) inside body]
  | .tryCatch body catches none _ => by
    rw [Stmt.outline, resolveStmt, resolveSteps_append, resolveBlock_eq position body,
      resolveCatches_eq position catches]
  | .tryCatch body catches (some finalizer) _ => by
    rw [Stmt.outline, resolveStmt, resolveSteps_append, resolveSteps_append,
      resolveBlock_eq position body, resolveCatches_eq position catches,
      resolveBlock_eq position finalizer]
    simp only [bind_assoc, ok_bind, List.append_assoc]
  | .record decl => by
    rw [Stmt.outline, resolveStmt]
    exact resolveRecord_eq _ _ _ _ decl

/-- Resolving a list of statements does what the steps of their outline say. -/
theorem resolveStmts_eq (position : Position) {around : ScopeId}
    (here : scene.tree.scopeAt? position.place = some around) :
    (statements : List Stmt) →
      scene.resolveStmts around statements =
        scene.resolveSteps (Stmt.outlineAll .recordsFirst position statements)
  | [] => by rw [Stmt.outlineAll, resolveStmts, resolveSteps]
  | s :: rest => by
    rw [Stmt.outlineAll, resolveStmts, resolveSteps_append, resolveStmt_eq position here s,
      resolveStmts_eq position here rest]

/-- Resolving a block does what the steps of its outline say. -/
theorem resolveBlock_eq (position : Position) :
    (block : Block) →
      scene.resolveBlock block = scene.resolveSteps (block.outline .recordsFirst position)
  | ⟨id, statements, span⟩ => by
    rw [Block.outline, resolveBlock]
    exact resolveSteps_opens { kind := .block, owner := id } (by simp) span
      (scene.resolveStmts · statements) fun scope inside =>
        resolveStmts_eq (position.inside id) inside statements

/-- Resolving catch clauses does what the steps of their outline say. -/
theorem resolveCatches_eq (position : Position) :
    (catches : List CatchClause) →
      scene.resolveCatches catches =
        scene.resolveSteps (CatchClause.outlineAll .recordsFirst position catches)
  | [] => by rw [CatchClause.outlineAll, resolveCatches, resolveSteps]
  | ⟨id, parameter, _, body, span⟩ :: rest => by
    rw [CatchClause.outlineAll, resolveCatches, List.cons_append, List.cons_append,
      resolveSteps_opens_unasked (.inr rfl), resolveSteps_declares, resolveSteps_append,
      resolveBlock_eq (position.inside id) body, resolveCatches_eq position rest]

/-- Resolving methods does what the steps of their outline say. -/
theorem resolveMethods_eq (position : Position) :
    (methods : List Method) →
      scene.resolveMethods methods =
        scene.resolveSteps (Method.outlineAll .recordsFirst position methods)
  | [] => by rw [Method.outlineAll, resolveMethods, resolveSteps]
  | ⟨id, _, isStatic, _, parameters, none, span⟩ :: rest => by
    rw [Method.outlineAll, resolveMethods, List.cons_append,
      resolveSteps_opens_unasked (.inl rfl), resolveSteps_parameters,
      resolveMethods_eq position rest]
  | ⟨id, _, isStatic, _, parameters, some body, span⟩ :: rest => by
    rw [Method.outlineAll, resolveMethods, List.append_assoc, List.cons_append,
      resolveSteps_opens_unasked (.inl rfl), resolveSteps_parameters, resolveSteps_append,
      resolveBlock_eq (position.inside id) body, resolveMethods_eq position rest]

/-- Resolving a record does what the steps of its outline say. -/
theorem resolveRecord_eq (within : Place) (name : String) (outer : Option String)
    (inHeader : Bool) :
    (decl : Record) →
      scene.resolveRecord decl =
        scene.resolveSteps (decl.outline .recordsFirst within name outer inHeader)
  | ⟨id, simpleName, superclass, isStatic, fields, methods, records, span⟩ => by
    rw [Record.outline, resolveRecord, List.cons_append]
    refine resolveSteps_record
      ⟨⟨id, simpleName, superclass, isStatic, fields, methods, records, span⟩,
        name, outer, inHeader⟩
      (fun scope => do
        let first ← scene.resolveFields scope fields
        let second ← scene.resolveRecords records
        .ok (first ++ second ++ (← scene.resolveMethods methods))) fun scope inside => ?_
    rw [resolveSteps_append, resolveSteps_append, ← resolveFields_eq inside,
      resolveRecords_eq (.node id) (some name) (some name) inHeader records,
      resolveMethods_eq ⟨.node id, name, inHeader⟩ methods]
    simp only [bind_assoc, ok_bind, List.append_assoc]

/-- Resolving records does what the steps of their outline say. -/
theorem resolveRecords_eq (within : Place) (qualifier outer : Option String)
    (inHeader : Bool) :
    (records : List Record) →
      scene.resolveRecords records =
        scene.resolveSteps (Record.outlineAll .recordsFirst within qualifier outer inHeader records)
  | [] => by rw [Record.outlineAll, resolveRecords, resolveSteps]
  | r :: rest => by
    rw [Record.outlineAll, resolveRecords, resolveSteps_append, resolveRecord_eq within,
      resolveRecords_eq within qualifier outer inHeader rest]

end

end Scene

/-- The uses of a unit are resolved step by step along its outline. -/
theorem resolveReferences_eq (unit : TranslationUnit) (tree : ScopeTree) (table : DeclTable)
    (index : RecordIndex) :
    resolveReferences unit tree table index =
      Scene.resolveSteps ⟨tree, table, index, unit.package, unit.imports⟩
        (unit.outline .recordsFirst) :=
  Scene.resolveRecords_eq .unit unit.package none false unit.records

end NameBinding
