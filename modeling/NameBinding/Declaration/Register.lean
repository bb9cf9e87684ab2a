import NameBinding.Declaration.Table
import NameBinding.Scope.Build

/-!
# Registering declarations

The second phase: every declared name is bound in the scope it belongs to. Fields, nested records
and the receivers go to the scope of their record, parameters to that of their method, loop and
caught variables to that of their loop or catch clause, other locals and local records to the
innermost scope around them, top-level records to that of the unit. Where a name is taken, the
first declaration keeps it and the later one is reported.
-/

namespace NameBinding

/-- What registration has achieved so far. -/
structure Registration where
  /-- The scopes with the names bound so far. -/
  tree : ScopeTree
  /-- The declarations so far. -/
  table : DeclTable := {}
  /-- The names found to be taken so far. -/
  issues : List Issue := []
deriving DecidableEq, Repr

/-- The records whose instances are reachable from a record, given the scopes around it,
innermost first: one for each record, up to a static record or a static method. -/
def reachableOuters : List Scope → List NodeId
  | [] => []
  | scope :: around =>
    match scope.kind with
    | .method => if scope.isStatic then [] else reachableOuters around
    | .record => scope.owner :: if scope.isStatic then [] else reachableOuters around
    | _ => reachableOuters around

namespace Registration

/-- Records a declaration and binds its name, or reports the name as taken. -/
def declare (state : Registration) (decl : Declaration) : Except Issue Registration :=
  if decl.name = "" then .error (.malformed (.namelessDeclaration decl.id) decl.span)
  else
    match state.table.insert? decl with
    | none => .error (.malformed (.declaresTwice decl.id) decl.span)
    | some table =>
      match state.tree.declare decl.scope decl.binding with
      | .ok tree => .ok { state with tree, table }
      | .error first =>
        let issue := ⟨.duplicate decl.name first.definedAt, decl.span⟩
        .ok { state with table, issues := state.issues ++ [issue] }

/-- Binds a receiver. Where an enclosing record of the same name holds it, the nearer one stays. -/
def bindReceiver (state : Registration) (scope : ScopeId) (binding : Binding) : Registration :=
  match state.tree.declare scope binding with
  | .ok tree => { state with tree }
  | .error _ => state

/-- The receiver of an enclosing record, named after it. -/
def outerReceiver? (state : Registration) (owner : NodeId) : Option Binding :=
  (state.table.get? owner).map fun outer =>
    ⟨outer.name ++ ".this", owner, .outerThis, outer.span⟩

/-- Binds the receivers of a record in its own scope: `this`, then those of the enclosing
records, nearest first. -/
def bindReceivers (state : Registration) (scope : ScopeId) (decl : Record) : Registration :=
  let outers :=
    if decl.isStatic then [] else reachableOuters (state.tree.chain scope).tail
  let receivers := ⟨"this", decl.id, .this, decl.span⟩ :: outers.filterMap state.outerReceiver?
  receivers.foldl (fun state binding => state.bindReceiver scope binding) state

end Registration

/-- A stretch of registration. It adds to what has been achieved before; if it meets a malformed
node it stops there, and what it has achieved until then stays. -/
abbrev Registrar := EStateM Issue Registration

namespace Registrar

/-- The scope that a node has opened. -/
def scopeOf (node : NodeId) (span : Span) : Registrar ScopeId := do
  match (← get).tree.scopeOf node span with
  | .ok scope => return scope
  | .error issue => throw issue

/-- Records a declaration and binds its name. -/
def declare (decl : Declaration) : Registrar Unit := do
  match (← get).declare decl with
  | .ok state => set state
  | .error issue => throw issue

end Registrar

/-- Registers fields in the scope of their record. -/
def Field.registerAll (scope : ScopeId) : List Field → Registrar Unit
  | [] => return
  | field :: rest => do
    Registrar.declare (field.declared.declaration scope)
    Field.registerAll scope rest

/-- Registers parameters in the scope of their method. -/
def Parameter.registerAll (scope : ScopeId) : List Parameter → Registrar Unit
  | [] => return
  | parameter :: rest => do
    Registrar.declare (parameter.declared.declaration scope)
    Parameter.registerAll scope rest

mutual

/-- Registers the declarations of a statement that stands in the scope `around`. -/
def Stmt.register (around : ScopeId) : Stmt → Registrar Unit
  | .localVar decl => Registrar.declare ((decl.declared .localVar).declaration around)
  | .expr _ | .ret .. => return
  | .block block => block.register
  | .ifElse _ thenBranch none _ => thenBranch.register around
  | .ifElse _ thenBranch (some elseBranch) _ => do
    thenBranch.register around
    elseBranch.register around
  | .forLoop id init _ _ body span => do
    let scope ← Registrar.scopeOf id span
    Stmt.registerAll scope init
    body.register scope
  | .forEach id item _ body span => do
    let scope ← Registrar.scopeOf id span
    Registrar.declare ((item.declared .localVar).declaration scope)
    body.register scope
  | .whileLoop id _ body span => do
    let scope ← Registrar.scopeOf id span
    body.register scope
  | .tryCatch body catches none _ => do
    body.register
    CatchClause.registerAll catches
  | .tryCatch body catches (some finalizer) _ => do
    body.register
    CatchClause.registerAll catches
    finalizer.register
  | .record decl => decl.register around

/-- Registers the declarations of a list of statements that stand in the scope `around`. -/
def Stmt.registerAll (around : ScopeId) : List Stmt → Registrar Unit
  | [] => return
  | s :: rest => do
    s.register around
    Stmt.registerAll around rest

/-- Registers the declarations of a block in its own scope. -/
def Block.register : Block → Registrar Unit
  | ⟨id, statements, span⟩ => do
    let scope ← Registrar.scopeOf id span
    Stmt.registerAll scope statements

/-- Registers the caught variables of catch clauses and the declarations of their bodies. -/
def CatchClause.registerAll : List CatchClause → Registrar Unit
  | [] => return
  | ⟨id, parameter, _, body, span⟩ :: rest => do
    let scope ← Registrar.scopeOf id span
    Registrar.declare ((parameter.declared .caught).declaration scope)
    body.register
    CatchClause.registerAll rest

/-- Registers the parameters of methods and the declarations of their bodies. -/
def Method.registerAll : List Method → Registrar Unit
  | [] => return
  | ⟨id, _, _, _, parameters, none, span⟩ :: rest => do
    let scope ← Registrar.scopeOf id span
    Parameter.registerAll scope parameters
    Method.registerAll rest
  | ⟨id, _, _, _, parameters, some body, span⟩ :: rest => do
    let scope ← Registrar.scopeOf id span
    Parameter.registerAll scope parameters
    body.register
    Method.registerAll rest

/-- Registers a record that stands in the scope `around`, binds its receivers and registers its
fields, its nested records and its methods. -/
def Record.register (around : ScopeId) : Record → Registrar Unit
  | ⟨id, name, superclass, isStatic, fields, methods, records, span⟩ => do
    let decl : Record := ⟨id, name, superclass, isStatic, fields, methods, records, span⟩
    let scope ← Registrar.scopeOf id span
    let recordName := ((← get).tree.scope? scope).bind (·.recordName)
    Registrar.declare ⟨id, name, .record, recordName, isStatic, around, span⟩
    modify (·.bindReceivers scope decl)
    Field.registerAll scope fields
    Record.registerAll scope records
    Method.registerAll methods

/-- Registers records that stand in the scope `around`. -/
def Record.registerAll (around : ScopeId) : List Record → Registrar Unit
  | [] => return
  | r :: rest => do
    r.register around
    Record.registerAll around rest

end

/-- Registers the declarations of a unit in a tree, as far as they go. -/
def Registration.ofUnit (unit : TranslationUnit) (tree : ScopeTree) :
    Registration × Option Issue :=
  match (Record.registerAll .global unit.records).run { tree } with
  | .ok () state => (state, none)
  | .error issue state => (state, some issue)

/-- Registers the declarations of a unit in a tree. -/
def registerDeclarations (unit : TranslationUnit) (tree : ScopeTree) :
    Except Issue Registration :=
  match Registration.ofUnit unit tree with
  | (state, none) => .ok state
  | (_, some issue) => .error issue

end NameBinding
