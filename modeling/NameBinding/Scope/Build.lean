import NameBinding.Issue
import NameBinding.Record.Name
import NameBinding.Scope.Tree
import NameBinding.Syntax.Basic

/-!
# The scope tree of a unit

The first phase: one walk over a unit that opens a scope for every record, method, block, loop
and catch clause inside the innermost construct around it. No names are bound yet. Every loop has
a scope of its own, so sibling loops never share a variable; a body written as a block has a
block scope inside the scope of its loop or catch clause. A record's methods are walked before
its nested records.
-/

namespace NameBinding

/-- A scope tree under construction. -/
structure ScopeBuilder where
  /-- The scopes opened so far. -/
  tree : ScopeTree
  /-- The scopes that have not been left yet, innermost first. -/
  stack : List ScopeId
deriving DecidableEq, Repr

namespace ScopeBuilder

/-- At the start only the scope of the unit is open. -/
def ofUnit (unit : NodeId) : ScopeBuilder := ⟨.ofUnit unit, [.global]⟩

/-- The innermost open scope. -/
def current (builder : ScopeBuilder) : ScopeId := builder.stack.head?.getD .global

/-- Qualified name of the innermost record around the current place. -/
def recordName? (builder : ScopeBuilder) : Option String :=
  (builder.tree.enclosingRecord? builder.current).bind fun record =>
    (builder.tree.scope? record).bind (·.recordName)

/-- Opens a scope inside the current one and makes it the current one. A node opens one scope at
most. -/
def enter (builder : ScopeBuilder) (header : ScopeHeader) (span : Span) :
    Except Issue ScopeBuilder :=
  match builder.tree.addScope builder.current header with
  | .error existing => .error (.malformed (.scopeTaken header.owner existing) span)
  | .ok (tree, scope) => .ok ⟨tree, scope :: builder.stack⟩

/-- Leaves the current scope, which must be the one that `owner` opened. -/
def exit (builder : ScopeBuilder) (owner : NodeId) (span : Span) : Except Issue ScopeBuilder :=
  match builder.stack with
  | [] => .error (.malformed (.unmatchedExit owner) span)
  | top :: rest =>
    if top ≠ .global ∧ (builder.tree.scope? top).map (·.owner) = some owner then
      .ok { builder with stack := rest }
    else .error (.malformed (.unmatchedExit owner) span)

/-- The finished tree; no scope but that of the unit may still be open. -/
def finish (builder : ScopeBuilder) (span : Span) : Except Issue ScopeTree :=
  if builder.stack.length = 1 then .ok builder.tree
  else .error (.malformed (.leftOpen (builder.stack.length - 1)) span)

end ScopeBuilder

mutual

/-- Opens the scopes of a statement. -/
def Stmt.openScopes (builder : ScopeBuilder) : Stmt → Except Issue ScopeBuilder
  | .localVar _ | .expr _ | .ret .. => .ok builder
  | .block block => block.openScopes builder
  | .ifElse _ thenBranch none _ => thenBranch.openScopes builder
  | .ifElse _ thenBranch (some elseBranch) _ => do
    let builder ← thenBranch.openScopes builder
    elseBranch.openScopes builder
  | .forLoop id init _ _ body span => do
    let builder ← builder.enter { kind := .loop, owner := id } span
    let builder ← Stmt.openScopesAll builder init
    let builder ← body.openScopes builder
    builder.exit id span
  | .forEach id _ _ body span => do
    let builder ← builder.enter { kind := .loop, owner := id } span
    let builder ← body.openScopes builder
    builder.exit id span
  | .whileLoop id _ body span => do
    let builder ← builder.enter { kind := .loop, owner := id } span
    let builder ← body.openScopes builder
    builder.exit id span
  | .tryCatch body catches none _ => do
    let builder ← body.openScopes builder
    CatchClause.openScopesAll builder catches
  | .tryCatch body catches (some finalizer) _ => do
    let builder ← body.openScopes builder
    let builder ← CatchClause.openScopesAll builder catches
    finalizer.openScopes builder
  | .record decl =>
    decl.openScopes builder
      (RecordName.ofLocal (builder.recordName?.getD "") decl.id decl.name)

/-- Opens the scopes of a list of statements. -/
def Stmt.openScopesAll (builder : ScopeBuilder) : List Stmt → Except Issue ScopeBuilder
  | [] => .ok builder
  | s :: rest => do
    let builder ← s.openScopes builder
    Stmt.openScopesAll builder rest

/-- Opens the scope of a block and the scopes inside it. -/
def Block.openScopes (builder : ScopeBuilder) : Block → Except Issue ScopeBuilder
  | ⟨id, statements, span⟩ => do
    let builder ← builder.enter { kind := .block, owner := id } span
    let builder ← Stmt.openScopesAll builder statements
    builder.exit id span

/-- Opens the scopes of catch clauses and those inside them. -/
def CatchClause.openScopesAll (builder : ScopeBuilder) :
    List CatchClause → Except Issue ScopeBuilder
  | [] => .ok builder
  | ⟨id, _, _, body, span⟩ :: rest => do
    let builder ← builder.enter { kind := .handler, owner := id } span
    let builder ← body.openScopes builder
    let builder ← builder.exit id span
    CatchClause.openScopesAll builder rest

/-- Opens the scopes of methods and those inside them. -/
def Method.openScopesAll (builder : ScopeBuilder) : List Method → Except Issue ScopeBuilder
  | [] => .ok builder
  | ⟨id, _, isStatic, _, _, none, span⟩ :: rest => do
    let builder ← builder.enter { kind := .method, owner := id, isStatic } span
    let builder ← builder.exit id span
    Method.openScopesAll builder rest
  | ⟨id, _, isStatic, _, _, some body, span⟩ :: rest => do
    let builder ← builder.enter { kind := .method, owner := id, isStatic } span
    let builder ← body.openScopes builder
    let builder ← builder.exit id span
    Method.openScopesAll builder rest

/-- Opens the scope of a record with the qualified name `name` and the scopes inside it. A record
needs a simple name. -/
def Record.openScopes (builder : ScopeBuilder) (name : String) :
    Record → Except Issue ScopeBuilder
  | ⟨id, simpleName, _, isStatic, _, methods, records, span⟩ =>
    if simpleName = "" then .error (.malformed .namelessRecord span)
    else do
      let builder ← builder.enter ⟨.record, id, isStatic, some name⟩ span
      let builder ← Method.openScopesAll builder methods
      let builder ← Record.openScopesAll builder (some name) records
      builder.exit id span

/-- Opens the scopes of records whose names are qualified by `qualifier`. -/
def Record.openScopesAll (builder : ScopeBuilder) (qualifier : Option String) :
    List Record → Except Issue ScopeBuilder
  | [] => .ok builder
  | r :: rest => do
    let builder ← r.openScopes builder (RecordName.qualify qualifier r.name)
    Record.openScopesAll builder qualifier rest

end

namespace ScopeTree

/-- The scope that a node has opened. A node that should have opened one and has not makes the
tree unfit for its unit. -/
def scopeOf (tree : ScopeTree) (node : NodeId) (span : Span) : Except Issue ScopeId :=
  match tree.scopeOf? node with
  | some scope => .ok scope
  | none => .error (.malformed (.noScope node) span)

/-- Builds the scope tree of a unit. -/
def build (unit : TranslationUnit) : Except Issue ScopeTree := do
  let builder ← Record.openScopesAll (.ofUnit unit.id) unit.package unit.records
  builder.finish unit.span

end ScopeTree

end NameBinding
