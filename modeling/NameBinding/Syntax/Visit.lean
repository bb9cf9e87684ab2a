import NameBinding.Syntax.Edit

/-!
# Visiting and editing a tree at once

A walk that may change what it visits: it calls a visitor on each expression before it turns to the
operands, and applies the edit that the visitor answers. It takes the expressions in the order of
`walk`; the visitor may keep a state from one call to the next.
-/

namespace NameBinding

variable {σ : Type} (visitor : Expr → StateM σ Edit)

mutual

/-- Visits an expression and then its operands. The answer of the visitor edits the expression
itself. -/
def Expr.visit : Expr → StateM σ Expr
  | .literal value span => do
    let edit ← visitor (.literal value span)
    return edit.apply (.literal value span)
  | .reference use => do
    let edit ← visitor (.reference use)
    return edit.apply (.reference use)
  | .member base access => do
    let edit ← visitor (.member base access)
    let base ← base.visit
    return edit.apply (.member base access)
  | .call none name arguments span => do
    let edit ← visitor (.call none name arguments span)
    let arguments ← Expr.visitAll arguments
    return edit.apply (.call none name arguments span)
  | .call (some receiver) name arguments span => do
    let edit ← visitor (.call (some receiver) name arguments span)
    let receiver ← receiver.visit
    let arguments ← Expr.visitAll arguments
    return edit.apply (.call (some receiver) name arguments span)
  | .new type arguments span => do
    let edit ← visitor (.new type arguments span)
    let arguments ← Expr.visitAll arguments
    return edit.apply (.new type arguments span)
  | .assign target value span => do
    let edit ← visitor (.assign target value span)
    let target ← target.visit
    let value ← value.visit
    return edit.apply (.assign target value span)
  | .binary operator left right span => do
    let edit ← visitor (.binary operator left right span)
    let left ← left.visit
    let right ← right.visit
    return edit.apply (.binary operator left right span)
  | .unary operator operand span => do
    let edit ← visitor (.unary operator operand span)
    let operand ← operand.visit
    return edit.apply (.unary operator operand span)
  | .cast type operand span => do
    let edit ← visitor (.cast type operand span)
    let operand ← operand.visit
    return edit.apply (.cast type operand span)
  | .index target position span => do
    let edit ← visitor (.index target position span)
    let target ← target.visit
    let position ← position.visit
    return edit.apply (.index target position span)

/-- Visits several expressions, one after the other. -/
def Expr.visitAll : List Expr → StateM σ (List Expr)
  | [] => return []
  | e :: rest => do
    let e ← e.visit
    let rest ← Expr.visitAll rest
    return e :: rest

end

/-- Visits an expression that may be missing. -/
def Expr.visitOption : Option Expr → StateM σ (Option Expr)
  | none => return none
  | some e => do
    let e ← e.visit visitor
    return some e

/-- Visits the initializer of a local. -/
def LocalDecl.visit (decl : LocalDecl) : StateM σ LocalDecl := do
  let initializer ← Expr.visitOption visitor decl.initializer
  return { decl with initializer }

/-- Visits the initializers of fields. -/
def Field.visitAll : List Field → StateM σ (List Field)
  | [] => return []
  | field :: rest => do
    let initializer ← Expr.visitOption visitor field.initializer
    let rest ← Field.visitAll rest
    return { field with initializer } :: rest

mutual

/-- Visits every expression reached from a statement. -/
def Stmt.visit : Stmt → StateM σ Stmt
  | .localVar decl => do
    let decl ← decl.visit visitor
    return .localVar decl
  | .expr value => do
    let value ← value.visit visitor
    return .expr value
  | .block ⟨id, statements, span⟩ => do
    let statements ← Stmt.visitAll statements
    return .block ⟨id, statements, span⟩
  | .ifElse condition thenBranch none span => do
    let condition ← condition.visit visitor
    let thenBranch ← thenBranch.visit
    return .ifElse condition thenBranch none span
  | .ifElse condition thenBranch (some elseBranch) span => do
    let condition ← condition.visit visitor
    let thenBranch ← thenBranch.visit
    let elseBranch ← elseBranch.visit
    return .ifElse condition thenBranch (some elseBranch) span
  | .forLoop id init condition update body span => do
    let init ← Stmt.visitAll init
    let condition ← Expr.visitOption visitor condition
    let update ← Expr.visitAll visitor update
    let body ← body.visit
    return .forLoop id init condition update body span
  | .forEach id item iterable body span => do
    let item ← item.visit visitor
    let iterable ← iterable.visit visitor
    let body ← body.visit
    return .forEach id item iterable body span
  | .whileLoop id condition body span => do
    let condition ← condition.visit visitor
    let body ← body.visit
    return .whileLoop id condition body span
  | .tryCatch ⟨id, statements, blockSpan⟩ catches none span => do
    let statements ← Stmt.visitAll statements
    let catches ← CatchClause.visitAll catches
    return .tryCatch ⟨id, statements, blockSpan⟩ catches none span
  | .tryCatch ⟨id, statements, blockSpan⟩ catches (some ⟨lastId, last, lastSpan⟩) span => do
    let statements ← Stmt.visitAll statements
    let catches ← CatchClause.visitAll catches
    let last ← Stmt.visitAll last
    return .tryCatch ⟨id, statements, blockSpan⟩ catches (some ⟨lastId, last, lastSpan⟩) span
  | .ret value span => do
    let value ← Expr.visitOption visitor value
    return .ret value span
  | .record decl => do
    let decl ← decl.visit
    return .record decl

/-- Visits every expression reached from a list of statements. -/
def Stmt.visitAll : List Stmt → StateM σ (List Stmt)
  | [] => return []
  | s :: rest => do
    let s ← s.visit
    let rest ← Stmt.visitAll rest
    return s :: rest

/-- Visits every expression reached from the bodies of catch clauses. -/
def CatchClause.visitAll : List CatchClause → StateM σ (List CatchClause)
  | [] => return []
  | ⟨id, parameter, types, ⟨bodyId, statements, bodySpan⟩, span⟩ :: rest => do
    let statements ← Stmt.visitAll statements
    let rest ← CatchClause.visitAll rest
    return ⟨id, parameter, types, ⟨bodyId, statements, bodySpan⟩, span⟩ :: rest

/-- Visits every expression reached from the bodies of methods. -/
def Method.visitAll : List Method → StateM σ (List Method)
  | [] => return []
  | ⟨id, name, isStatic, isConstructor, parameters, none, span⟩ :: rest => do
    let rest ← Method.visitAll rest
    return ⟨id, name, isStatic, isConstructor, parameters, none, span⟩ :: rest
  | ⟨id, name, isStatic, isConstructor, parameters, some ⟨bodyId, statements, bodySpan⟩, span⟩ ::
      rest => do
    let statements ← Stmt.visitAll statements
    let rest ← Method.visitAll rest
    return ⟨id, name, isStatic, isConstructor, parameters, some ⟨bodyId, statements, bodySpan⟩,
      span⟩ :: rest

/-- Visits every expression reached from a record. -/
def Record.visit : Record → StateM σ Record
  | ⟨id, name, superclass, isStatic, fields, methods, records, span⟩ => do
    let fields ← Field.visitAll visitor fields
    let methods ← Method.visitAll methods
    let records ← Record.visitAll records
    return ⟨id, name, superclass, isStatic, fields, methods, records, span⟩

/-- Visits every expression reached from a list of records. -/
def Record.visitAll : List Record → StateM σ (List Record)
  | [] => return []
  | r :: rest => do
    let r ← r.visit
    let rest ← Record.visitAll rest
    return r :: rest

end

/-- Visits every expression reached from a unit. -/
def TranslationUnit.visit (unit : TranslationUnit) : StateM σ TranslationUnit := do
  let records ← Record.visitAll visitor unit.records
  return { unit with records }

end NameBinding
