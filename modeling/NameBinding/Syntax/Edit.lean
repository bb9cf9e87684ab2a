import NameBinding.Syntax.Walk

/-!
# Editing the names and slots of a tree

An `Edit` changes a bare name, the name part of a member access or the name of a call. `edit` walks
a tree in the order of `walk` and applies the `k`-th edit of a family to the `k`-th expression of
that walk, counting every expression, also those that have nothing to edit. All else stays as it is.
-/

namespace NameBinding

/-- A change to one expression of a walk: its own name and slots, never its operands. -/
structure Edit where
  /-- What becomes of a bare name. -/
  reference : Reference → Reference
  /-- What becomes of the name part of a member access. -/
  member : MemberName → MemberName
  /-- What becomes of the name of a called method. -/
  call : String → String

/-- The edit that changes nothing. -/
def Edit.keep : Edit := ⟨id, id, id⟩

/-- Applies an edit to an expression itself; operands stay as they are. -/
def Edit.apply (edit : Edit) : Expr → Expr
  | .reference use => .reference (edit.reference use)
  | .member base access => .member base (edit.member access)
  | .call receiver name arguments span => .call receiver (edit.call name) arguments span
  | e => e

mutual

/-- Applies `edits k` to the expression itself and the following edits inside it, in the order of
the walk. -/
def Expr.edit (edits : Nat → Edit) (k : Nat) : Expr → Expr
  | .literal value span => .literal value span
  | .reference use => .reference ((edits k).reference use)
  | .member base access => .member (base.edit edits (k + 1)) ((edits k).member access)
  | .call none name arguments span =>
    .call none ((edits k).call name) (Expr.editAll edits (k + 1) arguments) span
  | .call (some receiver) name arguments span =>
    .call (some (receiver.edit edits (k + 1))) ((edits k).call name)
      (Expr.editAll edits (k + 1 + receiver.walk.length) arguments) span
  | .new type arguments span => .new type (Expr.editAll edits (k + 1) arguments) span
  | .assign target value span =>
    .assign (target.edit edits (k + 1)) (value.edit edits (k + 1 + target.walk.length)) span
  | .binary operator left right span =>
    .binary operator (left.edit edits (k + 1)) (right.edit edits (k + 1 + left.walk.length)) span
  | .unary operator operand span => .unary operator (operand.edit edits (k + 1)) span
  | .cast type operand span => .cast type (operand.edit edits (k + 1)) span
  | .index target position span =>
    .index (target.edit edits (k + 1)) (position.edit edits (k + 1 + target.walk.length)) span

/-- Edits several expressions, one after the other. -/
def Expr.editAll (edits : Nat → Edit) (k : Nat) : List Expr → List Expr
  | [] => []
  | e :: rest => e.edit edits k :: Expr.editAll edits (k + e.walk.length) rest

end

/-- Edits an expression that may be missing. -/
def Expr.editOption (edits : Nat → Edit) (k : Nat) : Option Expr → Option Expr
  | none => none
  | some e => some (e.edit edits k)

/-- Edits the initializer of a local. -/
def LocalDecl.edit (edits : Nat → Edit) (k : Nat) (decl : LocalDecl) : LocalDecl :=
  { decl with initializer := Expr.editOption edits k decl.initializer }

/-- Edits the initializers of fields, one after the other. -/
def Field.editAll (edits : Nat → Edit) (k : Nat) : List Field → List Field
  | [] => []
  | field :: rest =>
    { field with initializer := Expr.editOption edits k field.initializer } ::
      Field.editAll edits (k + (Expr.walkOption field.initializer).length) rest

mutual

/-- Edits the expressions reached from a statement. -/
def Stmt.edit (edits : Nat → Edit) (k : Nat) : Stmt → Stmt
  | .localVar decl => .localVar (decl.edit edits k)
  | .expr value => .expr (value.edit edits k)
  | .block ⟨id, statements, span⟩ => .block ⟨id, Stmt.editAll edits k statements, span⟩
  | .ifElse condition thenBranch none span =>
    .ifElse (condition.edit edits k) (thenBranch.edit edits (k + condition.walk.length)) none span
  | .ifElse condition thenBranch (some elseBranch) span =>
    let k₁ := k + condition.walk.length
    .ifElse (condition.edit edits k) (thenBranch.edit edits k₁)
      (some (elseBranch.edit edits (k₁ + thenBranch.expressions.length))) span
  | .forLoop id init condition update body span =>
    let k₁ := k + (Stmt.expressionsAll init).length
    let k₂ := k₁ + (Expr.walkOption condition).length
    let k₃ := k₂ + (Expr.walkAll update).length
    .forLoop id (Stmt.editAll edits k init) (Expr.editOption edits k₁ condition)
      (Expr.editAll edits k₂ update) (body.edit edits k₃) span
  | .forEach id item iterable body span =>
    let k₁ := k + (Expr.walkOption item.initializer).length
    .forEach id (item.edit edits k) (iterable.edit edits k₁)
      (body.edit edits (k₁ + iterable.walk.length)) span
  | .whileLoop id condition body span =>
    .whileLoop id (condition.edit edits k) (body.edit edits (k + condition.walk.length)) span
  | .tryCatch ⟨id, statements, blockSpan⟩ catches none span =>
    .tryCatch ⟨id, Stmt.editAll edits k statements, blockSpan⟩
      (CatchClause.editAll edits (k + (Stmt.expressionsAll statements).length) catches) none span
  | .tryCatch ⟨id, statements, blockSpan⟩ catches (some ⟨lastId, last, lastSpan⟩) span =>
    let k₁ := k + (Stmt.expressionsAll statements).length
    let k₂ := k₁ + (CatchClause.expressionsAll catches).length
    .tryCatch ⟨id, Stmt.editAll edits k statements, blockSpan⟩
      (CatchClause.editAll edits k₁ catches)
      (some ⟨lastId, Stmt.editAll edits k₂ last, lastSpan⟩) span
  | .ret value span => .ret (Expr.editOption edits k value) span
  | .record decl => .record (decl.edit edits k)

/-- Edits the expressions reached from a list of statements. -/
def Stmt.editAll (edits : Nat → Edit) (k : Nat) : List Stmt → List Stmt
  | [] => []
  | s :: rest => s.edit edits k :: Stmt.editAll edits (k + s.expressions.length) rest

/-- Edits the expressions reached from the bodies of catch clauses. -/
def CatchClause.editAll (edits : Nat → Edit) (k : Nat) : List CatchClause → List CatchClause
  | [] => []
  | ⟨id, parameter, types, ⟨bodyId, statements, bodySpan⟩, span⟩ :: rest =>
    ⟨id, parameter, types, ⟨bodyId, Stmt.editAll edits k statements, bodySpan⟩, span⟩ ::
      CatchClause.editAll edits (k + (Stmt.expressionsAll statements).length) rest

/-- Edits the expressions reached from the bodies of methods. -/
def Method.editAll (edits : Nat → Edit) (k : Nat) : List Method → List Method
  | [] => []
  | ⟨id, name, isStatic, isConstructor, parameters, none, span⟩ :: rest =>
    ⟨id, name, isStatic, isConstructor, parameters, none, span⟩ :: Method.editAll edits k rest
  | ⟨id, name, isStatic, isConstructor, parameters, some ⟨bodyId, statements, bodySpan⟩, span⟩ ::
      rest =>
    ⟨id, name, isStatic, isConstructor, parameters,
      some ⟨bodyId, Stmt.editAll edits k statements, bodySpan⟩, span⟩ ::
      Method.editAll edits (k + (Stmt.expressionsAll statements).length) rest

/-- Edits the expressions reached from a record. -/
def Record.edit (edits : Nat → Edit) (k : Nat) : Record → Record
  | ⟨id, name, superclass, isStatic, fields, methods, records, span⟩ =>
    let k₁ := k + (Field.walkAll fields).length
    let k₂ := k₁ + (Method.expressionsAll methods).length
    ⟨id, name, superclass, isStatic, Field.editAll edits k fields,
      Method.editAll edits k₁ methods, Record.editAll edits k₂ records, span⟩

/-- Edits the expressions reached from a list of records. -/
def Record.editAll (edits : Nat → Edit) (k : Nat) : List Record → List Record
  | [] => []
  | r :: rest => r.edit edits k :: Record.editAll edits (k + r.expressions.length) rest

end

/-- Edits the expressions reached from a unit, starting with the first edit of the family. -/
def TranslationUnit.edit (edits : Nat → Edit) (unit : TranslationUnit) : TranslationUnit :=
  { unit with records := Record.editAll edits 0 unit.records }

end NameBinding
