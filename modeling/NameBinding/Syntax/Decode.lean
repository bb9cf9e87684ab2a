import NameBinding.Json.Fields
import NameBinding.Syntax.Basic

/-!
# Reading trees from JSON

The reverse of writing: spans may be left out, as may lists, flags and everything optional;
entries with other keys are passed over. The word that tells the forms of a statement or
expression apart may be written in more than one way, which the strictness of the reading
decides. A nested statement or expression is read one level further down, so the depth of the
value bounds the recursion.
-/

namespace NameBinding

open Json

/-- How freely the words that tell forms apart may be written. -/
inductive Strictness where
  /-- As words. -/
  | strict
  /-- As words or as positions in the list of all forms. Everything inside a statement or an
  expression is read like this. -/
  | lenient
deriving DecidableEq, Repr

/-- The form that a value names among all forms. -/
def Strictness.formOfJson? (strictness : Strictness) (forms : List String) : Json → Option String
  | .str word => if forms.contains word then some word else none
  | .int position =>
    if strictness = .lenient ∧ 0 ≤ position then forms[position.toNat]? else none
  | _ => none

/-- A word that stands alone or as the only key of an object that holds nothing, which is null
or, in a lenient reading, also an empty object. -/
def Strictness.wordOfJson? (strictness : Strictness) : Json → Option String
  | .str word => some word
  | .obj [(word, .null)] => some word
  | .obj [(word, .obj [])] => if strictness = .lenient then some word else none
  | _ => none

/-- A span needs both of its offsets. -/
def Span.ofJson? (value : Json) : Option Span := do
  let entries ← value.entries?
  let start ← required? entries "start" word?
  let stop ← required? entries "end" word?
  some ⟨start, stop⟩

/-- The span of a node, empty at offset 0 when it is left out. -/
def Span.ofEntries? (entries : List (String × Json)) : Option Span :=
  defaulted? entries "span" {} Span.ofJson?

/-- A node id is a number. -/
def NodeId.ofJson? (value : Json) : Option NodeId := value.word?.map (⟨·⟩)

/-- A kind of binding is one of seven words. -/
def BindingKind.ofJson? (strictness : Strictness) (value : Json) : Option BindingKind := do
  BindingKind.ofTag? (← strictness.wordOfJson? value)

/-- A resolution needs its target and its kind. -/
def Resolution.ofJson? (strictness : Strictness) (value : Json) : Option Resolution := do
  let entries ← value.entries?
  let target ← required? entries "target" NodeId.ofJson?
  let kind ← required? entries "kind" (BindingKind.ofJson? strictness)
  some ⟨target, kind⟩

/-- A type needs its name. -/
def TypeRef.ofJson? (value : Json) : Option TypeRef := do
  let entries ← value.entries?
  let name ← required? entries "name" string?
  let span ← Span.ofEntries? entries
  some ⟨name, span⟩

/-- A literal needs its type and, the null literal apart, a value of that type. It always stands
inside an expression. -/
def Literal.ofJson? (value : Json) : Option Literal := do
  let entries ← value.entries?
  match ← required? entries "type" Strictness.lenient.wordOfJson? with
  | "integer" => (required? entries "value" int64?).map .integer
  | "string" => (required? entries "value" string?).map .string
  | "boolean" => (required? entries "value" bool?).map .boolean
  | "char" => (required? entries "value" char?).map .char
  | "null" => (optional? entries "value" fun _ => (none : Option Unit)).map fun _ => .null
  | _ => none

/-- The forms of expressions. -/
def Expr.forms : List String :=
  ["literal", "reference", "member", "call", "new", "assign", "binary", "unary", "cast", "index"]

/-- Reads an expression with at most the given number of levels. -/
def Expr.readWithin? (strictness : Strictness) : Nat → Json → Option Expr
  | 0, _ => none
  | levels + 1, value => do
    let read := Expr.readWithin? .lenient levels
    let entries ← value.entries?
    let form ← required? entries "expr" (strictness.formOfJson? Expr.forms)
    let span ← Span.ofEntries? entries
    match form with
    | "literal" => do
      let value ← required? entries "value" Literal.ofJson?
      some (.literal value span)
    | "reference" => do
      let id ← required? entries "id" NodeId.ofJson?
      let name ← required? entries "name" string?
      let resolved ← optional? entries "resolved" (Resolution.ofJson? .lenient)
      let implicitBase ← optional? entries "implicit_base" (Resolution.ofJson? .lenient)
      some (.reference { id, name, resolved, implicitBase, span })
    | "member" => do
      let id ← required? entries "id" NodeId.ofJson?
      let base ← required? entries "base" read
      let name ← required? entries "member" string?
      let resolved ← optional? entries "resolved" (Resolution.ofJson? .lenient)
      some (.member base { id, name, resolved, span })
    | "call" => do
      let receiver ← optional? entries "receiver" read
      let name ← required? entries "name" string?
      let arguments ← defaulted? entries "arguments" [] (list? read)
      some (.call receiver name arguments span)
    | "new" => do
      let type ← required? entries "ty" TypeRef.ofJson?
      let arguments ← defaulted? entries "arguments" [] (list? read)
      some (.new type arguments span)
    | "assign" => do
      let target ← required? entries "target" read
      let value ← required? entries "value" read
      some (.assign target value span)
    | "binary" => do
      let operator ← required? entries "operator" string?
      let left ← required? entries "left" read
      let right ← required? entries "right" read
      some (.binary operator left right span)
    | "unary" => do
      let operator ← required? entries "operator" string?
      let operand ← required? entries "operand" read
      some (.unary operator operand span)
    | "cast" => do
      let type ← required? entries "ty" TypeRef.ofJson?
      let operand ← required? entries "expression" read
      some (.cast type operand span)
    | "index" => do
      let target ← required? entries "target" read
      let position ← required? entries "index" read
      some (.index target position span)
    | _ => none

/-- An expression of any depth. -/
def Expr.ofJson? (strictness : Strictness) (value : Json) : Option Expr :=
  Expr.readWithin? strictness value.depth value

/-- A local variable needs its id, name and type. It always stands inside a statement. -/
def LocalDecl.ofJson? (value : Json) : Option LocalDecl := do
  let entries ← value.entries?
  let id ← required? entries "id" NodeId.ofJson?
  let name ← required? entries "name" string?
  let type ← required? entries "ty" TypeRef.ofJson?
  let initializer ← optional? entries "initializer" (Expr.ofJson? .lenient)
  let span ← Span.ofEntries? entries
  some { id, name, type, initializer, span }

/-- A field needs its id, name and type. -/
def Field.ofJson? (strictness : Strictness) (value : Json) : Option Field := do
  let entries ← value.entries?
  let id ← required? entries "id" NodeId.ofJson?
  let name ← required? entries "name" string?
  let type ← required? entries "ty" TypeRef.ofJson?
  let isStatic ← defaulted? entries "is_static" false bool?
  let initializer ← optional? entries "initializer" (Expr.ofJson? strictness)
  let span ← Span.ofEntries? entries
  some { id, name, type, isStatic, initializer, span }

/-- A parameter needs its id, name and type. -/
def Parameter.ofJson? (value : Json) : Option Parameter := do
  let entries ← value.entries?
  let id ← required? entries "id" NodeId.ofJson?
  let name ← required? entries "name" string?
  let type ← required? entries "ty" TypeRef.ofJson?
  let span ← Span.ofEntries? entries
  some { id, name, type, span }

/-- A block needs its id; its statements are read by `readStmt`. -/
def Block.readWith? (readStmt : Json → Option Stmt) (value : Json) : Option Block := do
  let entries ← value.entries?
  let id ← required? entries "id" NodeId.ofJson?
  let statements ← defaulted? entries "statements" [] (list? readStmt)
  let span ← Span.ofEntries? entries
  some { id, statements, span }

/-- A catch clause needs its id, its variable and its body. -/
def CatchClause.readWith? (readStmt : Json → Option Stmt) (value : Json) :
    Option CatchClause := do
  let entries ← value.entries?
  let id ← required? entries "id" NodeId.ofJson?
  let parameter ← required? entries "parameter" LocalDecl.ofJson?
  let exceptionTypes ← defaulted? entries "exception_types" [] (list? TypeRef.ofJson?)
  let body ← required? entries "body" (Block.readWith? readStmt)
  let span ← Span.ofEntries? entries
  some { id, parameter, exceptionTypes, body, span }

/-- A method needs its id and name. -/
def Method.readWith? (readStmt : Json → Option Stmt) (value : Json) : Option Method := do
  let entries ← value.entries?
  let id ← required? entries "id" NodeId.ofJson?
  let name ← required? entries "name" string?
  let isStatic ← defaulted? entries "is_static" false bool?
  let isConstructor ← defaulted? entries "is_constructor" false bool?
  let parameters ← defaulted? entries "parameters" [] (list? Parameter.ofJson?)
  let body ← optional? entries "body" (Block.readWith? readStmt)
  let span ← Span.ofEntries? entries
  some { id, name, isStatic, isConstructor, parameters, body, span }

/-- A record needs its id and name; what is nested in it is read by the two functions. -/
def Record.readWith? (strictness : Strictness) (readRecord : Json → Option Record)
    (readStmt : Json → Option Stmt) (value : Json) : Option Record := do
  let entries ← value.entries?
  let id ← required? entries "id" NodeId.ofJson?
  let name ← required? entries "name" string?
  let superclass ← optional? entries "superclass" TypeRef.ofJson?
  let isStatic ← defaulted? entries "is_static" false bool?
  let fields ← defaulted? entries "fields" [] (list? (Field.ofJson? strictness))
  let methods ← defaulted? entries "methods" [] (list? (Method.readWith? readStmt))
  let records ← defaulted? entries "records" [] (list? readRecord)
  let span ← Span.ofEntries? entries
  some { id, name, superclass, isStatic, fields, methods, records, span }

/-- The forms of statements. -/
def Stmt.forms : List String :=
  ["local", "expression", "block", "if", "for", "for_each", "while", "try", "return", "record"]

mutual

/-- Reads a statement with at most the given number of levels. -/
def Stmt.readWithin? (strictness : Strictness) : Nat → Json → Option Stmt
  | 0, _ => none
  | levels + 1, value => do
    let read := Stmt.readWithin? .lenient levels
    let readExpr := Expr.ofJson? .lenient
    let entries ← value.entries?
    match ← required? entries "stmt" (strictness.formOfJson? Stmt.forms) with
    | "local" => (LocalDecl.ofJson? value).map .localVar
    | "expression" => (readExpr value).map .expr
    | "block" => (Block.readWith? read value).map .block
    | "if" => do
      let condition ← required? entries "condition" readExpr
      let thenBranch ← required? entries "then_branch" read
      let elseBranch ← optional? entries "else_branch" read
      let span ← Span.ofEntries? entries
      some (.ifElse condition thenBranch elseBranch span)
    | "for" => do
      let id ← required? entries "id" NodeId.ofJson?
      let init ← defaulted? entries "init" [] (list? read)
      let condition ← optional? entries "condition" readExpr
      let update ← defaulted? entries "update" [] (list? readExpr)
      let body ← required? entries "body" read
      let span ← Span.ofEntries? entries
      some (.forLoop id init condition update body span)
    | "for_each" => do
      let id ← required? entries "id" NodeId.ofJson?
      let item ← required? entries "variable" LocalDecl.ofJson?
      let iterable ← required? entries "iterable" readExpr
      let body ← required? entries "body" read
      let span ← Span.ofEntries? entries
      some (.forEach id item iterable body span)
    | "while" => do
      let id ← required? entries "id" NodeId.ofJson?
      let condition ← required? entries "condition" readExpr
      let body ← required? entries "body" read
      let span ← Span.ofEntries? entries
      some (.whileLoop id condition body span)
    | "try" => do
      let body ← required? entries "body" (Block.readWith? read)
      let catches ← defaulted? entries "catches" [] (list? (CatchClause.readWith? read))
      let finalizer ← optional? entries "finally" (Block.readWith? read)
      let span ← Span.ofEntries? entries
      some (.tryCatch body catches finalizer span)
    | "return" => do
      let value ← optional? entries "value" readExpr
      let span ← Span.ofEntries? entries
      some (.ret value span)
    | "record" =>
      (Record.readWith? .lenient (Record.readWithin? .lenient levels) read value).map .record
    | _ => none

/-- Reads a record with at most the given number of levels. -/
def Record.readWithin? (strictness : Strictness) : Nat → Json → Option Record
  | 0, _ => none
  | levels + 1, value =>
    Record.readWith? strictness (Record.readWithin? strictness levels)
      (Stmt.readWithin? strictness levels) value

end

/-- A statement of any depth. -/
def Stmt.ofJson? (strictness : Strictness) (value : Json) : Option Stmt :=
  Stmt.readWithin? strictness value.depth value

/-- A record of any depth. -/
def Record.ofJson? (strictness : Strictness) (value : Json) : Option Record :=
  Record.readWithin? strictness value.depth value

/-- A unit needs its id and name. -/
def TranslationUnit.ofJson? (strictness : Strictness) (value : Json) :
    Option TranslationUnit := do
  let entries ← value.entries?
  let id ← required? entries "id" NodeId.ofJson?
  let name ← required? entries "name" string?
  let path ← optional? entries "path" string?
  let package ← optional? entries "package" string?
  let imports ← defaulted? entries "imports" [] (list? string?)
  let records ← defaulted? entries "records" [] (list? (Record.ofJson? strictness))
  let span ← Span.ofEntries? entries
  some { id, name, path, package, imports, records, span }

end NameBinding
