import NameBinding.Resolution.Expression
import NameBinding.Scope.Build

/-!
# Resolving a unit

The third phase: every expression of the unit is resolved at the innermost scope around it. A
record's field initializers come first, then its nested records, then its methods; the iterable
of a loop is resolved outside the scope of the loop. Records, blocks and loops must own scopes of
the tree, which they do when the tree was built from the same unit. Methods and catch clauses
hold no expressions outside their blocks, so their scopes are not asked for.
-/

namespace NameBinding

namespace Scene

/-- The uses of an expression as a value. -/
def uses (scene : Scene) (scope : ScopeId) (inStatic : Bool) (value : Expr) :
    Except Issue UseLog := do
  .ok (← scene.resolve scope inStatic .value value).log

/-- The uses of an expression that may be missing. -/
def usesOption (scene : Scene) (scope : ScopeId) (inStatic : Bool) :
    Option Expr → Except Issue UseLog
  | none => .ok []
  | some value => scene.uses scope inStatic value

/-- The uses of the initializers of fields. -/
def resolveFields (scene : Scene) (scope : ScopeId) : List Field → Except Issue UseLog
  | [] => .ok []
  | field :: rest => do
    let first ← scene.usesOption scope field.isStatic field.initializer
    .ok (first ++ (← scene.resolveFields scope rest))

mutual

/-- The uses of a statement that stands in the scope `around`. -/
def resolveStmt (scene : Scene) (around : ScopeId) : Stmt → Except Issue UseLog
  | .localVar decl => scene.usesOption around false decl.initializer
  | .expr value => scene.uses around false value
  | .block block => scene.resolveBlock block
  | .ifElse condition thenBranch none _ => do
    let first ← scene.uses around false condition
    .ok (first ++ (← scene.resolveStmt around thenBranch))
  | .ifElse condition thenBranch (some elseBranch) _ => do
    let first ← scene.uses around false condition
    let second ← scene.resolveStmt around thenBranch
    .ok (first ++ second ++ (← scene.resolveStmt around elseBranch))
  | .forLoop id init condition update body span => do
    let scope ← scene.tree.scopeOf id span
    let first ← scene.resolveStmts scope init
    let second ← scene.usesOption scope false condition
    let third ← scene.resolveAll scope false update
    .ok (first ++ second ++ third ++ (← scene.resolveStmt scope body))
  | .forEach id _ iterable body span => do
    let scope ← scene.tree.scopeOf id span
    let first ← scene.uses around false iterable
    .ok (first ++ (← scene.resolveStmt scope body))
  | .whileLoop id condition body span => do
    let scope ← scene.tree.scopeOf id span
    let first ← scene.uses scope false condition
    .ok (first ++ (← scene.resolveStmt scope body))
  | .tryCatch body catches none _ => do
    let first ← scene.resolveBlock body
    .ok (first ++ (← scene.resolveCatches catches))
  | .tryCatch body catches (some finalizer) _ => do
    let first ← scene.resolveBlock body
    let second ← scene.resolveCatches catches
    .ok (first ++ second ++ (← scene.resolveBlock finalizer))
  | .ret value _ => scene.usesOption around false value
  | .record decl => scene.resolveRecord decl

/-- The uses of a list of statements that stand in the scope `around`. -/
def resolveStmts (scene : Scene) (around : ScopeId) : List Stmt → Except Issue UseLog
  | [] => .ok []
  | s :: rest => do
    let first ← scene.resolveStmt around s
    .ok (first ++ (← scene.resolveStmts around rest))

/-- The uses of a block. -/
def resolveBlock (scene : Scene) : Block → Except Issue UseLog
  | ⟨id, statements, span⟩ => do
    let scope ← scene.tree.scopeOf id span
    scene.resolveStmts scope statements

/-- The uses of the bodies of catch clauses. -/
def resolveCatches (scene : Scene) : List CatchClause → Except Issue UseLog
  | [] => .ok []
  | ⟨_, _, _, body, _⟩ :: rest => do
    let first ← scene.resolveBlock body
    .ok (first ++ (← scene.resolveCatches rest))

/-- The uses of the bodies of methods. -/
def resolveMethods (scene : Scene) : List Method → Except Issue UseLog
  | [] => .ok []
  | ⟨_, _, _, _, _, none, _⟩ :: rest => scene.resolveMethods rest
  | ⟨_, _, _, _, _, some body, _⟩ :: rest => do
    let first ← scene.resolveBlock body
    .ok (first ++ (← scene.resolveMethods rest))

/-- The uses of a record. -/
def resolveRecord (scene : Scene) : Record → Except Issue UseLog
  | ⟨id, _, _, _, fields, methods, records, span⟩ => do
    let scope ← scene.tree.scopeOf id span
    let first ← scene.resolveFields scope fields
    let second ← scene.resolveRecords records
    .ok (first ++ second ++ (← scene.resolveMethods methods))

/-- The uses of a list of records. -/
def resolveRecords (scene : Scene) : List Record → Except Issue UseLog
  | [] => .ok []
  | r :: rest => do
    let first ← scene.resolveRecord r
    .ok (first ++ (← scene.resolveRecords rest))

end

end Scene

/-- Resolves every expression of a unit. -/
def resolveReferences (unit : TranslationUnit) (tree : ScopeTree) (table : DeclTable)
    (index : RecordIndex) : Except Issue UseLog :=
  Scene.resolveRecords ⟨tree, table, index, unit.package, unit.imports⟩ unit.records

end NameBinding
