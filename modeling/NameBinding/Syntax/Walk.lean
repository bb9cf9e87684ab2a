import NameBinding.Syntax.Basic

/-!
# Walking over a tree

`walk` lists an expression with everything inside it, an expression before its operands.
`expressions` does so for statements, records and units in source order: a record's field
initializers, then its methods, then its nested records. The initializer of a caught variable is
not part of the walk. `localRecords` lists the records that a method body declares itself.
-/

namespace NameBinding

mutual

/-- An expression and everything inside it, outside first and left to right. -/
def Expr.walk (e : Expr) : List Expr :=
  e :: match e with
    | .literal .. | .reference _ => []
    | .member base _ => base.walk
    | .call none _ arguments _ => Expr.walkAll arguments
    | .call (some receiver) _ arguments _ => receiver.walk ++ Expr.walkAll arguments
    | .new _ arguments _ => Expr.walkAll arguments
    | .assign target value _ => target.walk ++ value.walk
    | .binary _ left right _ => left.walk ++ right.walk
    | .unary _ operand _ => operand.walk
    | .cast _ operand _ => operand.walk
    | .index target position _ => target.walk ++ position.walk

/-- The walks of several expressions, one after the other. -/
def Expr.walkAll : List Expr → List Expr
  | [] => []
  | e :: rest => e.walk ++ Expr.walkAll rest

end

/-- The walk of an expression that may be missing. -/
def Expr.walkOption : Option Expr → List Expr
  | none => []
  | some e => e.walk

/-- The walks of the field initializers, in order. -/
def Field.walkAll (fields : List Field) : List Expr :=
  fields.flatMap fun field => Expr.walkOption field.initializer

mutual

/-- Every expression reached from a statement. -/
def Stmt.expressions : Stmt → List Expr
  | .localVar decl => Expr.walkOption decl.initializer
  | .expr value => value.walk
  | .block ⟨_, statements, _⟩ => Stmt.expressionsAll statements
  | .ifElse condition thenBranch none _ => condition.walk ++ thenBranch.expressions
  | .ifElse condition thenBranch (some elseBranch) _ =>
    condition.walk ++ thenBranch.expressions ++ elseBranch.expressions
  | .forLoop _ init condition update body _ =>
    Stmt.expressionsAll init ++ Expr.walkOption condition ++ Expr.walkAll update ++
      body.expressions
  | .forEach _ item iterable body _ =>
    Expr.walkOption item.initializer ++ iterable.walk ++ body.expressions
  | .whileLoop _ condition body _ => condition.walk ++ body.expressions
  | .tryCatch ⟨_, statements, _⟩ catches none _ =>
    Stmt.expressionsAll statements ++ CatchClause.expressionsAll catches
  | .tryCatch ⟨_, statements, _⟩ catches (some ⟨_, last, _⟩) _ =>
    Stmt.expressionsAll statements ++ CatchClause.expressionsAll catches ++
      Stmt.expressionsAll last
  | .ret value _ => Expr.walkOption value
  | .record decl => decl.expressions

/-- Every expression reached from a list of statements. -/
def Stmt.expressionsAll : List Stmt → List Expr
  | [] => []
  | s :: rest => s.expressions ++ Stmt.expressionsAll rest

/-- Every expression reached from the bodies of catch clauses. -/
def CatchClause.expressionsAll : List CatchClause → List Expr
  | [] => []
  | ⟨_, _, _, ⟨_, statements, _⟩, _⟩ :: rest =>
    Stmt.expressionsAll statements ++ CatchClause.expressionsAll rest

/-- Every expression reached from the bodies of methods. -/
def Method.expressionsAll : List Method → List Expr
  | [] => []
  | ⟨_, _, _, _, _, none, _⟩ :: rest => Method.expressionsAll rest
  | ⟨_, _, _, _, _, some ⟨_, statements, _⟩, _⟩ :: rest =>
    Stmt.expressionsAll statements ++ Method.expressionsAll rest

/-- Every expression reached from a record. -/
def Record.expressions : Record → List Expr
  | ⟨_, _, _, _, fields, methods, records, _⟩ =>
    Field.walkAll fields ++ Method.expressionsAll methods ++ Record.expressionsAll records

/-- Every expression reached from a list of records. -/
def Record.expressionsAll : List Record → List Expr
  | [] => []
  | r :: rest => r.expressions ++ Record.expressionsAll rest

end

/-- Every expression reached from a unit. -/
def TranslationUnit.expressions (unit : TranslationUnit) : List Expr :=
  Record.expressionsAll unit.records

mutual

/-- The records that a statement declares at any block depth. Records declared inside those, and
records declared in the header of a `for` loop, are not among them. -/
def Stmt.localRecords : Stmt → List Record
  | .record decl => [decl]
  | .block ⟨_, statements, _⟩ => Stmt.localRecordsAll statements
  | .ifElse _ thenBranch none _ => thenBranch.localRecords
  | .ifElse _ thenBranch (some elseBranch) _ =>
    thenBranch.localRecords ++ elseBranch.localRecords
  | .forLoop _ _ _ _ body _ => body.localRecords
  | .forEach _ _ _ body _ => body.localRecords
  | .whileLoop _ _ body _ => body.localRecords
  | .tryCatch ⟨_, statements, _⟩ catches none _ =>
    Stmt.localRecordsAll statements ++ CatchClause.localRecordsAll catches
  | .tryCatch ⟨_, statements, _⟩ catches (some ⟨_, last, _⟩) _ =>
    Stmt.localRecordsAll statements ++ CatchClause.localRecordsAll catches ++
      Stmt.localRecordsAll last
  | .localVar _ | .expr _ | .ret .. => []

/-- The records that a list of statements declares. -/
def Stmt.localRecordsAll : List Stmt → List Record
  | [] => []
  | s :: rest => s.localRecords ++ Stmt.localRecordsAll rest

/-- The records that the bodies of catch clauses declare. -/
def CatchClause.localRecordsAll : List CatchClause → List Record
  | [] => []
  | ⟨_, _, _, ⟨_, statements, _⟩, _⟩ :: rest =>
    Stmt.localRecordsAll statements ++ CatchClause.localRecordsAll rest

end

/-- The records that the body of a method declares. -/
def Method.localRecords (method : Method) : List Record :=
  match method.body with
  | none => []
  | some body => Stmt.localRecordsAll body.statements

end NameBinding
