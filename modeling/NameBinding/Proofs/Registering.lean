import NameBinding.Declaration.Register
import NameBinding.Proofs.ScopeBuilding

/-!
# Registering declarations, step by step

The walk that registers the declarations of a unit is shown to do what the steps of the outline
say, one after the other. The invariant is that the scope handed down the walk is the scope of
the place the walk has come to; it lasts because registering binds names and opens no scopes.
-/

namespace NameBinding

namespace ScopeTree

variable {tree later : ScopeTree} {place : Place}

/-- The scope of a place. -/
def placeOf (tree : ScopeTree) (place : Place) : ScopeId := (tree.scopeAt? place).getD .global

/-- Places keep their scopes when names are bound. -/
theorem SameShape.scopeAt?_eq (h : tree.SameShape later) (place : Place) :
    later.scopeAt? place = tree.scopeAt? place := by
  cases place with
  | unit => rfl
  | node id => exact h.scopeOf?_eq id

/-- Binding names does not move a place to another scope. -/
theorem SameShape.placeOf_eq (h : tree.SameShape later) (place : Place) :
    later.placeOf place = tree.placeOf place :=
  congrArg (·.getD .global) (h.scopeAt?_eq place)

/-- The scope of a place is the one that is found there. -/
theorem placeOf_eq {scope : ScopeId} (here : tree.scopeAt? place = some scope) :
    tree.placeOf place = scope := by
  rw [placeOf, here, Option.getD_some]

/-- A node is found to have opened a scope, or the tree does not fit. -/
theorem scopeOf_eq_ok_iff {node : NodeId} {span : Span} {scope : ScopeId} :
    tree.scopeOf node span = .ok scope ↔ tree.scopeOf? node = some scope := by
  unfold scopeOf
  cases tree.scopeOf? node <;> simp

end ScopeTree

/-- A record as it is declared in a scope, with its qualified name for a type. -/
def RecordSite.declaration (site : RecordSite) (recordName : Option String) (scope : ScopeId) :
    Declaration :=
  ⟨site.decl.id, site.decl.name, .record, recordName, site.decl.isStatic, scope, site.decl.span⟩

namespace Registration

variable {state next : Registration} {decl : Declaration} {scope : ScopeId}

/-- One step of an outline: records and variables are declared, scopes must be there. -/
def step (state : Registration) : Step → Except Issue Registration
  | .record within site => do
    let scope ← state.tree.scopeOf site.decl.id site.decl.span
    let next ← state.declare
      (site.declaration ((state.tree.scope? scope).bind (·.recordName)) (state.tree.placeOf within))
    .ok (next.bindReceivers scope site.decl)
  | .opens _ header span => do
    let _ ← state.tree.scopeOf header.owner span
    .ok state
  | .declares within item => state.declare (item.declaration (state.tree.placeOf within))
  | .uses .. => .ok state

/-- Several steps, one after the other. -/
def steps (state : Registration) (outline : List Step) : Except Issue Registration :=
  outline.foldlM step state

/-- A declaration is recorded if it has a name and its node is new; its name is bound where it is
free and reported where it is taken. -/
theorem declare_eq_ok_iff :
    state.declare decl = .ok next ↔
      decl.name ≠ "" ∧ state.table.get? decl.id = none ∧
        ((∃ tree, state.tree.declare decl.scope decl.binding = .ok tree ∧
            next = ⟨tree, ⟨state.table.entries ++ [decl]⟩, state.issues⟩) ∨
          ∃ first, state.tree.declare decl.scope decl.binding = .error first ∧
            next = ⟨state.tree, ⟨state.table.entries ++ [decl]⟩,
              state.issues ++ [⟨.duplicate decl.name first.definedAt, decl.span⟩]⟩) := by
  unfold declare DeclTable.insert?
  by_cases nameless : decl.name = ""
  · simp [nameless]
  · cases taken : state.table.get? decl.id with
    | some other => simp [nameless]
    | none =>
      cases bound : state.tree.declare decl.scope decl.binding with
      | ok tree => simp [nameless, eq_comm]
      | error first => simp [nameless, eq_comm]

/-- A declaration fails without a name or for a node that has declared before. -/
theorem declare_eq_error_iff {issue : Issue} :
    state.declare decl = .error issue ↔
      (decl.name = "" ∧ .malformed (.namelessDeclaration decl.id) decl.span = issue) ∨
      (decl.name ≠ "" ∧ (state.table.get? decl.id).isSome ∧
        .malformed (.declaresTwice decl.id) decl.span = issue) := by
  unfold declare DeclTable.insert?
  by_cases nameless : decl.name = ""
  · simp [nameless]
  · cases taken : state.table.get? decl.id with
    | some other => simp [nameless]
    | none => cases bound : state.tree.declare decl.scope decl.binding <;> simp [nameless]

/-- Binding a receiver does not change the shape of the tree. -/
theorem bindReceiver_sameShape (state : Registration) (scope : ScopeId) (binding : Binding) :
    state.tree.SameShape (state.bindReceiver scope binding).tree := by
  unfold bindReceiver
  cases bound : state.tree.declare scope binding with
  | ok tree => exact ScopeTree.declare_sameShape bound
  | error first => exact ScopeTree.SameShape.refl _

/-- What binding one receiver keeps, binding all receivers of a record keeps. -/
theorem bindReceivers_preserves (P : Registration → Prop) (scope : ScopeId) (decl : Record)
    (keeps : ∀ (s : Registration) (binding : Binding), P s → P (s.bindReceiver scope binding))
    (start : P state) : P (state.bindReceivers scope decl) :=
  List.foldlRecOn _ _ start fun s hs binding _ => keeps s binding hs

/-- Binding all receivers of a record does not change the shape of the tree. -/
theorem bindReceivers_sameShape (state : Registration) (scope : ScopeId) (decl : Record) :
    state.tree.SameShape (state.bindReceivers scope decl).tree :=
  bindReceivers_preserves (fun s => state.tree.SameShape s.tree) scope decl
    (fun s binding same => same.trans (s.bindReceiver_sameShape scope binding))
    (ScopeTree.SameShape.refl _)

/-- A declaration does not change the shape of the tree. -/
theorem declare_sameShape (h : state.declare decl = .ok next) :
    state.tree.SameShape next.tree := by
  obtain ⟨_, _, ⟨tree, bound, rfl⟩ | ⟨first, _, rfl⟩⟩ := declare_eq_ok_iff.mp h
  · exact ScopeTree.declare_sameShape bound
  · exact ScopeTree.SameShape.refl _

/-- The step of a record finds its scope, declares it, and binds its receivers there. -/
theorem step_record_eq_ok_iff {within : Place} {site : RecordSite} :
    state.step (.record within site) = .ok next ↔
      ∃ scope bound, state.tree.scopeOf? site.decl.id = some scope ∧
        state.declare (site.declaration ((state.tree.scope? scope).bind (·.recordName))
          (state.tree.placeOf within)) = .ok bound ∧
        next = bound.bindReceivers scope site.decl := by
  simp only [step, bind_eq_ok_iff, ScopeTree.scopeOf_eq_ok_iff, Except.ok.injEq, exists_and_left,
    eq_comm (a := next)]

/-- The step of a construct that has opened a scope changes nothing. -/
theorem eq_of_step_opens {within : Place} {header : ScopeHeader} {span : Span}
    (h : state.step (.opens within header span) = .ok next) : next = state := by
  obtain ⟨_, _, same⟩ := bind_eq_ok_iff.mp h
  exact (Except.ok.inj same).symm

/-- What declarations and the receivers of records keep, a step keeps. -/
theorem step_preserves (P : Registration → Prop) {item : Step}
    (declares : ∀ {s t : Registration} {decl}, P s → s.declare decl = .ok t → P t)
    (receives : ∀ {s : Registration} (scope : ScopeId) (decl : Record), P s →
      P (s.bindReceivers scope decl))
    (start : P state) (h : state.step item = .ok next) : P next := by
  cases item with
  | record within site =>
    obtain ⟨scope, bound, _, declared, rfl⟩ := step_record_eq_ok_iff.mp h
    exact receives scope site.decl (declares start declared)
  | opens within header span => exact eq_of_step_opens h ▸ start
  | declares within item => exact declares start h
  | uses within inStatic value =>
    cases h
    exact start

/-- What declarations and the receivers of records keep, registering keeps. -/
theorem steps_preserves (P : Registration → Prop) {outline : List Step}
    (declares : ∀ {s t : Registration} {decl}, P s → s.declare decl = .ok t → P t)
    (receives : ∀ {s : Registration} (scope : ScopeId) (decl : Record), P s →
      P (s.bindReceivers scope decl))
    (start : P state) (h : state.steps outline = .ok next) : P next :=
  foldlM_preserves P (fun _ kept _ _ _ taken => step_preserves P declares receives kept taken)
    start h

/-- The steps of registration open no scopes. -/
theorem step_sameShape {item : Step} (h : state.step item = .ok next) :
    state.tree.SameShape next.tree :=
  step_preserves (fun s => state.tree.SameShape s.tree)
    (fun same declared => same.trans (declare_sameShape declared))
    (fun scope decl same => same.trans (bindReceivers_sameShape _ scope decl))
    (ScopeTree.SameShape.refl _) h

/-- Any number of steps leaves the shape of the tree. -/
theorem steps_sameShape {outline : List Step} (h : state.steps outline = .ok next) :
    state.tree.SameShape next.tree :=
  foldlM_preserves (fun s => state.tree.SameShape s.tree)
    (fun _ same _ _ _ taken => same.trans (step_sameShape taken)) (ScopeTree.SameShape.refl _) h

/-- Steps are taken one after the other. -/
theorem steps_cons (item : Step) (rest : List Step) :
    state.steps (item :: rest) = state.step item >>= (·.steps rest) := rfl

/-- The steps of two outlines are taken one after the other. -/
theorem steps_append (xs ys : List Step) :
    state.steps (xs ++ ys) = state.steps xs >>= (·.steps ys) := List.foldlM_append

end Registration

namespace Registrar

variable {α : Type} {state : Registration} {outline : List Step}

/-- What a stretch of registration comes to, apart from what an early end leaves behind. -/
def outcome (walk : Registrar Unit) (state : Registration) : Except Issue Registration :=
  match walk.run state with
  | .ok () next => .ok next
  | .error issue _ => .error issue

/-- A stretch that is put together goes on where its first part ends. -/
theorem outcome_bind (first : Registrar α) (rest : α → Registrar Unit) :
    outcome (first >>= rest) state =
      match first.run state with
      | .ok a next => outcome (rest a) next
      | .error issue _ => .error issue := by
  rw [outcome, EStateM.run_bind]
  cases first.run state <;> rfl

/-- Looking up the scope of a node changes nothing. -/
theorem run_scopeOf (node : NodeId) (span : Span) :
    (scopeOf node span).run state =
      match state.tree.scopeOf node span with
      | .ok scope => .ok scope state
      | .error issue => .error issue state := by
  rw [scopeOf, EStateM.run_bind, EStateM.run_get]
  cases found : state.tree.scopeOf node span <;> simp only [found] <;> rfl

/-- Registering a declaration takes its step. -/
theorem run_declare (decl : Declaration) :
    (declare decl).run state =
      match state.declare decl with
      | .ok next => .ok () next
      | .error issue => .error issue state := by
  rw [declare, EStateM.run_bind, EStateM.run_get]
  cases declared : state.declare decl <;> simp only [declared] <;> rfl

/-- It comes to what the step comes to. -/
theorem outcome_declare (decl : Declaration) :
    outcome (declare decl) state = state.declare decl := by
  rw [outcome, run_declare]
  cases state.declare decl <;> rfl

/-- A walk follows an outline from a state on if it does what the steps say. -/
def Follows (walk : Registrar Unit) (state : Registration) (outline : List Step) : Prop :=
  outcome walk state = state.steps outline

/-- Doing nothing follows the empty outline. -/
theorem follows_pure : Follows (pure ()) state [] := rfl

/-- One walk after the other follows their outlines one after the other. -/
theorem Follows.append {first second : Registrar Unit} {xs ys : List Step}
    (hx : first.Follows state xs)
    (hy : ∀ next, state.tree.SameShape next.tree → second.Follows next ys) :
    Follows (do first; second) state (xs ++ ys) := by
  unfold Follows at hx
  unfold Follows
  rw [Registration.steps_append, ← hx, outcome_bind]
  cases run : first.run state with
  | ok value next =>
    have reached : outcome first state = .ok next := by rw [outcome, run]
    rw [reached, ok_bind]
    exact hy next (Registration.steps_sameShape (hx.symm.trans reached))
  | error issue next =>
    have stopped : outcome first state = .error issue := by rw [outcome, run]
    rw [stopped, error_bind]

/-- A construct is walked inside the scope that it has opened. -/
theorem follows_opens {within : Place} (header : ScopeHeader) (span : Span)
    (walk : ScopeId → Registrar Unit)
    (inside : ∀ scope, state.tree.scopeAt? (.node header.owner) = some scope →
      (walk scope).Follows state outline) :
    Follows (do walk (← scopeOf header.owner span)) state
      (.opens within header span :: outline) := by
  unfold Follows
  rw [Registration.steps_cons, Registration.step, outcome_bind, run_scopeOf]
  cases found : state.tree.scopeOf header.owner span with
  | error issue => rfl
  | ok scope => exact inside scope (ScopeTree.scopeOf_eq_ok_iff.mp found)

/-- Declaring a variable is the step of its declaration. -/
theorem follows_declares {place : Place} {around : ScopeId}
    (here : state.tree.scopeAt? place = some around) (item : Variable) :
    Follows (declare (item.declaration around)) state [.declares place item] := by
  unfold Follows
  rw [outcome_declare, Registration.steps_cons, Registration.step, ScopeTree.placeOf_eq here]
  cases state.declare (item.declaration around) <;> rfl

/-- The record itself is declared around its scope; its receivers are bound inside. -/
theorem follows_record {within : Place} {around : ScopeId}
    (here : state.tree.scopeAt? within = some around) (site : RecordSite)
    (walk : ScopeId → Registrar Unit)
    (inside : ∀ scope next, state.tree.SameShape next.tree →
      next.tree.scopeAt? (.node site.decl.id) = some scope → (walk scope).Follows next outline) :
    Follows (do
      let scope ← scopeOf site.decl.id site.decl.span
      let recordName := ((← get).tree.scope? scope).bind (·.recordName)
      declare (site.declaration recordName around)
      modify (·.bindReceivers scope site.decl)
      walk scope) state (.record within site :: outline) := by
  unfold Follows
  rw [Registration.steps_cons, Registration.step, ScopeTree.placeOf_eq here, outcome_bind,
    run_scopeOf]
  cases found : state.tree.scopeOf site.decl.id site.decl.span with
  | error issue => rfl
  | ok scope =>
    have read : (get : Registrar Registration).run state = .ok state state := rfl
    simp only [ok_bind, outcome_bind, read, run_declare]
    cases declared : state.declare (site.declaration
        ((state.tree.scope? scope).bind (·.recordName)) around) with
    | error issue => rfl
    | ok next =>
      have bound := (Registration.declare_sameShape declared).trans
        (next.bindReceivers_sameShape scope site.decl)
      refine inside scope _ bound ?_
      rw [bound.scopeAt?_eq]
      exact ScopeTree.scopeOf_eq_ok_iff.mp found

/-- The use of names is no part of registration. -/
theorem Follows.uses {walk : Registrar Unit} (h : walk.Follows state outline)
    (position : Position) (value : Expr) :
    walk.Follows state (position.uses value :: outline) := h

/-- The use of an expression that may be missing changes nothing. -/
theorem Follows.usesOption {walk : Registrar Unit} (h : walk.Follows state outline)
    (position : Position) (value : Option Expr) :
    walk.Follows state (position.usesOption value ++ outline) := by
  cases value with
  | none => exact h
  | some value => exact h

/-- The uses of several expressions change nothing. -/
theorem Follows.mapUses {walk : Registrar Unit} (h : walk.Follows state outline)
    (position : Position) (values : List Expr) :
    walk.Follows state (values.map position.uses ++ outline) := by
  induction values with
  | nil => exact h
  | cons value rest ih => exact ih

/-- Registering fields declares each of them; their initializers declare nothing. -/
theorem fields_follow {place : Place} {scope : ScopeId}
    (here : state.tree.scopeAt? place = some scope) (fields : List Field) :
    Follows (Field.registerAll scope fields) state (fields.flatMap (Field.outline place)) := by
  induction fields generalizing state with
  | nil => exact follows_pure
  | cons field rest ih =>
    have first : Follows (declare (field.declared.declaration scope)) state
        (field.outline place) := by
      unfold Field.outline
      cases field.initializer with
      | none => exact follows_declares here field.declared
      | some value => exact follows_declares here field.declared
    exact first.append fun next same => ih ((same.scopeAt?_eq place).trans here)

/-- Registering parameters follows their declarations. -/
theorem parameters_follow {place : Place} {scope : ScopeId}
    (here : state.tree.scopeAt? place = some scope) (parameters : List Parameter) :
    Follows (Parameter.registerAll scope parameters) state
      (parameters.map fun parameter => .declares place parameter.declared) := by
  induction parameters generalizing state with
  | nil => exact follows_pure
  | cons parameter rest ih =>
    exact (follows_declares here parameter.declared).append fun next same =>
      ih ((same.scopeAt?_eq place).trans here)

end Registrar

open Registrar in
mutual

/-- Registering a statement follows its outline. -/
theorem Stmt.register_follows {state : Registration} {position : Position} {around : ScopeId}
    (here : state.tree.scopeAt? position.place = some around) :
    (s : Stmt) → (s.register around).Follows state (s.outline .recordsFirst position)
  | .localVar decl => by
    rw [Stmt.outline, Stmt.register]
    have declared := follows_declares here (decl.declared .localVar)
    cases decl.initializer with
    | none => exact declared
    | some value => exact declared
  | .expr value => follows_pure
  | .ret value _ => by
    rw [Stmt.outline, ← List.append_nil (position.usesOption value)]
    exact follows_pure.usesOption position value
  | .block block => by
    rw [Stmt.outline, Stmt.register]
    exact Block.register_follows block
  | .ifElse condition thenBranch none _ => by
    rw [Stmt.outline, Stmt.register]
    exact (Stmt.register_follows here thenBranch).uses position condition
  | .ifElse condition thenBranch (some elseBranch) _ => by
    rw [Stmt.outline, Stmt.register, List.cons_append]
    refine Follows.uses ?_ position condition
    exact (Stmt.register_follows here thenBranch).append fun next same =>
      Stmt.register_follows ((same.scopeAt?_eq _).trans here) elseBranch
  | .forLoop id init condition update body span => by
    rw [Stmt.outline, Stmt.register]
    simp only [List.cons_append, List.append_assoc]
    refine follows_opens { kind := .loop, owner := id } span
      (fun scope => do Stmt.registerAll scope init; body.register scope) fun scope inside => ?_
    have header : state.tree.scopeAt?
      { position.inside id with inHeader := true : Position }.place = some scope := inside
    refine (Stmt.registerAll_follows header init).append fun next same => ?_
    refine Follows.usesOption (Follows.mapUses ?_ _ update) _ condition
    exact Stmt.register_follows ((same.scopeAt?_eq _).trans inside) body
  | .forEach id item iterable body span => by
    rw [Stmt.outline, Stmt.register]
    refine follows_opens { kind := .loop, owner := id } span
      (fun scope => do
        Registrar.declare ((item.declared .localVar).declaration scope)
        body.register scope) fun scope inside => ?_
    refine (follows_declares inside (item.declared .localVar)).append fun next same => ?_
    refine Follows.uses ?_ position iterable
    exact Stmt.register_follows ((same.scopeAt?_eq _).trans inside) body
  | .whileLoop id condition body span => by
    rw [Stmt.outline, Stmt.register]
    refine follows_opens { kind := .loop, owner := id } span (body.register ·)
      fun scope inside => ?_
    exact (Stmt.register_follows inside body).uses (position.inside id) condition
  | .tryCatch body catches none _ => by
    rw [Stmt.outline, Stmt.register]
    exact (Block.register_follows body).append fun next same =>
      CatchClause.registerAll_follows catches
  | .tryCatch body catches (some finalizer) _ => by
    rw [Stmt.outline, Stmt.register, List.append_assoc]
    refine (Block.register_follows body).append fun next same => ?_
    exact (CatchClause.registerAll_follows catches).append fun next same =>
      Block.register_follows finalizer
  | .record decl => by
    rw [Stmt.outline, Stmt.register]
    exact Record.register_follows here _ _ _ decl

/-- Registering a list of statements follows their outline. -/
theorem Stmt.registerAll_follows {state : Registration} {position : Position} {around : ScopeId}
    (here : state.tree.scopeAt? position.place = some around) :
    (statements : List Stmt) →
      (Stmt.registerAll around statements).Follows state
        (Stmt.outlineAll .recordsFirst position statements)
  | [] => follows_pure
  | s :: rest => by
    rw [Stmt.outlineAll, Stmt.registerAll]
    exact (Stmt.register_follows here s).append fun next same =>
      Stmt.registerAll_follows ((same.scopeAt?_eq _).trans here) rest

/-- Registering a block follows its outline. -/
theorem Block.register_follows {state : Registration} {position : Position} :
    (block : Block) → block.register.Follows state (block.outline .recordsFirst position)
  | ⟨id, statements, span⟩ => by
    rw [Block.outline, Block.register]
    exact follows_opens { kind := .block, owner := id } span (Stmt.registerAll · statements)
      fun scope inside => Stmt.registerAll_follows inside statements

/-- Registering catch clauses follows their outline. -/
theorem CatchClause.registerAll_follows {state : Registration} {position : Position} :
    (catches : List CatchClause) →
      (CatchClause.registerAll catches).Follows state
        (CatchClause.outlineAll .recordsFirst position catches)
  | [] => follows_pure
  | ⟨id, parameter, _, body, span⟩ :: rest => by
    rw [CatchClause.outlineAll, CatchClause.registerAll]
    refine follows_opens { kind := .handler, owner := id } span
      (fun scope => do
        Registrar.declare ((parameter.declared .caught).declaration scope)
        body.register
        CatchClause.registerAll rest) fun scope inside => ?_
    refine (follows_declares inside (parameter.declared .caught)).append fun next same => ?_
    exact (Block.register_follows body).append fun next same =>
      CatchClause.registerAll_follows rest

/-- Registering methods follows their outline. -/
theorem Method.registerAll_follows {state : Registration} {position : Position} :
    (methods : List Method) →
      (Method.registerAll methods).Follows state
        (Method.outlineAll .recordsFirst position methods)
  | [] => follows_pure
  | ⟨id, _, isStatic, _, parameters, none, span⟩ :: rest => by
    rw [Method.outlineAll, Method.registerAll]
    refine follows_opens { kind := .method, owner := id, isStatic } span
      (fun scope => do
        Parameter.registerAll scope parameters
        Method.registerAll rest) fun scope inside => ?_
    exact (parameters_follow inside parameters).append fun next same =>
      Method.registerAll_follows rest
  | ⟨id, _, isStatic, _, parameters, some body, span⟩ :: rest => by
    rw [Method.outlineAll, Method.registerAll, List.append_assoc]
    refine follows_opens { kind := .method, owner := id, isStatic } span
      (fun scope => do
        Parameter.registerAll scope parameters
        body.register
        Method.registerAll rest) fun scope inside => ?_
    refine (parameters_follow inside parameters).append fun next same => ?_
    exact (Block.register_follows body).append fun next same =>
      Method.registerAll_follows rest

/-- Registering a record follows its outline. -/
theorem Record.register_follows {state : Registration} {within : Place} {around : ScopeId}
    (here : state.tree.scopeAt? within = some around) (name : String) (outer : Option String)
    (inHeader : Bool) :
    (decl : Record) →
      (decl.register around).Follows state
        (decl.outline .recordsFirst within name outer inHeader)
  | ⟨id, simpleName, superclass, isStatic, fields, methods, records, span⟩ => by
    rw [Record.outline, Record.register]
    refine follows_record here
      ⟨⟨id, simpleName, superclass, isStatic, fields, methods, records, span⟩,
        name, outer, inHeader⟩
      (fun scope => do
        Field.registerAll scope fields
        Record.registerAll scope records
        Method.registerAll methods) fun scope next same inside => ?_
    refine (fields_follow inside fields).append fun next same => ?_
    have inside := (same.scopeAt?_eq _).trans inside
    exact (Record.registerAll_follows inside _ _ _ records).append fun next same =>
      Method.registerAll_follows methods

/-- Registering records follows their outline. -/
theorem Record.registerAll_follows {state : Registration} {within : Place} {around : ScopeId}
    (here : state.tree.scopeAt? within = some around) (qualifier outer : Option String)
    (inHeader : Bool) :
    (records : List Record) →
      (Record.registerAll around records).Follows state
        (Record.outlineAll .recordsFirst within qualifier outer inHeader records)
  | [] => follows_pure
  | r :: rest => by
    rw [Record.outlineAll, Record.registerAll]
    exact (Record.register_follows here _ _ _ r).append fun next same =>
      Record.registerAll_follows ((same.scopeAt?_eq _).trans here) _ _ _ rest

end

/-- The declarations of a unit are registered step by step along its outline. -/
theorem registerDeclarations_eq (unit : TranslationUnit) (tree : ScopeTree) :
    registerDeclarations unit tree =
      Registration.steps { tree } (unit.outline .recordsFirst) := by
  have here : tree.scopeAt? .unit = some .global := rfl
  have walk : (Record.registerAll .global unit.records).Follows { tree }
      (unit.outline .recordsFirst) :=
    Record.registerAll_follows here unit.package none false unit.records
  rw [← walk, registerDeclarations, Registration.ofUnit, Registrar.outcome]
  cases (Record.registerAll .global unit.records).run { tree } with
  | ok value state => rfl
  | error issue state => rfl

end NameBinding
