import NameBinding.Json.Fields
import NameBinding.Syntax.Basic

/-!
# Writing trees as JSON

Every node is an object. Expressions carry the key `expr` and statements the key `stmt`, which
tell their forms apart; an expression used as a statement carries both. Empty optional fields
are left out, all other fields are always written.
-/

namespace NameBinding

open Json

/-- A span as its two offsets. -/
def Span.toJson (span : Span) : Json :=
  .obj [("start", ofWord span.start), ("end", ofWord span.stop)]

/-- A node id as its number. -/
def NodeId.toJson (id : NodeId) : Json := ofWord id.number

/-- A resolution as its target and the data word of its kind. -/
def Resolution.toJson (resolution : Resolution) : Json :=
  .obj [("target", resolution.target.toJson), ("kind", .str resolution.kind.tag)]

/-- A written type. -/
def TypeRef.toJson (type : TypeRef) : Json :=
  .obj [("name", .str type.name), ("span", type.span.toJson)]

/-- A literal as its type and, the null literal apart, its value. -/
def Literal.toJson : Literal → Json
  | integer value => .obj [("type", .str "integer"), ("value", .int value.toInt)]
  | string value => .obj [("type", .str "string"), ("value", .str value)]
  | boolean value => .obj [("type", .str "boolean"), ("value", .bool value)]
  | char value => .obj [("type", .str "char"), ("value", .str value.toString)]
  | null => .obj [("type", .str "null")]

mutual

/-- The entries of an expression. -/
def Expr.entries : Expr → List (String × Json)
  | .literal value span =>
    [("expr", .str "literal"), ("value", value.toJson), ("span", span.toJson)]
  | .reference use =>
    [("expr", .str "reference"), ("id", use.id.toJson), ("name", .str use.name)] ++
      entryOption "resolved" Resolution.toJson use.resolved ++
      entryOption "implicit_base" Resolution.toJson use.implicitBase ++
      [("span", use.span.toJson)]
  | .member base access =>
    [("expr", .str "member"), ("id", access.id.toJson), ("base", .obj base.entries),
      ("member", .str access.name)] ++
      entryOption "resolved" Resolution.toJson access.resolved ++
      [("span", access.span.toJson)]
  | .call none name arguments span =>
    [("expr", .str "call"), ("name", .str name), ("arguments", .arr (Expr.items arguments)),
      ("span", span.toJson)]
  | .call (some receiver) name arguments span =>
    [("expr", .str "call"), ("receiver", .obj receiver.entries), ("name", .str name),
      ("arguments", .arr (Expr.items arguments)), ("span", span.toJson)]
  | .new type arguments span =>
    [("expr", .str "new"), ("ty", type.toJson), ("arguments", .arr (Expr.items arguments)),
      ("span", span.toJson)]
  | .assign target value span =>
    [("expr", .str "assign"), ("target", .obj target.entries), ("value", .obj value.entries),
      ("span", span.toJson)]
  | .binary operator left right span =>
    [("expr", .str "binary"), ("operator", .str operator), ("left", .obj left.entries),
      ("right", .obj right.entries), ("span", span.toJson)]
  | .unary operator operand span =>
    [("expr", .str "unary"), ("operator", .str operator), ("operand", .obj operand.entries),
      ("span", span.toJson)]
  | .cast type operand span =>
    [("expr", .str "cast"), ("ty", type.toJson), ("expression", .obj operand.entries),
      ("span", span.toJson)]
  | .index target position span =>
    [("expr", .str "index"), ("target", .obj target.entries), ("index", .obj position.entries),
      ("span", span.toJson)]

/-- Several expressions, each as an object. -/
def Expr.items : List Expr → List Json
  | [] => []
  | e :: rest => .obj e.entries :: Expr.items rest

end

/-- An expression as an object. -/
def Expr.toJson (e : Expr) : Json := .obj e.entries

/-- The entries of a local variable. -/
def LocalDecl.entries (decl : LocalDecl) : List (String × Json) :=
  [("id", decl.id.toJson), ("name", .str decl.name), ("ty", decl.type.toJson)] ++
    entryOption "initializer" Expr.toJson decl.initializer ++ [("span", decl.span.toJson)]

/-- A local variable as an object. -/
def LocalDecl.toJson (decl : LocalDecl) : Json := .obj decl.entries

/-- A field as an object. -/
def Field.toJson (field : Field) : Json :=
  .obj ([("id", field.id.toJson), ("name", .str field.name), ("ty", field.type.toJson),
      ("is_static", .bool field.isStatic)] ++
    entryOption "initializer" Expr.toJson field.initializer ++ [("span", field.span.toJson)])

/-- A parameter as an object. -/
def Parameter.toJson (parameter : Parameter) : Json :=
  .obj [("id", parameter.id.toJson), ("name", .str parameter.name),
    ("ty", parameter.type.toJson), ("span", parameter.span.toJson)]

mutual

/-- The entries of a statement. -/
def Stmt.entries : Stmt → List (String × Json)
  | .localVar decl => ("stmt", .str "local") :: decl.entries
  | .expr value => ("stmt", .str "expression") :: value.entries
  | .block block => ("stmt", .str "block") :: block.entries
  | .ifElse condition thenBranch none span =>
    [("stmt", .str "if"), ("condition", condition.toJson), ("then_branch", .obj thenBranch.entries),
      ("span", span.toJson)]
  | .ifElse condition thenBranch (some elseBranch) span =>
    [("stmt", .str "if"), ("condition", condition.toJson), ("then_branch", .obj thenBranch.entries),
      ("else_branch", .obj elseBranch.entries), ("span", span.toJson)]
  | .forLoop id init condition update body span =>
    [("stmt", .str "for"), ("id", id.toJson), ("init", .arr (Stmt.items init))] ++
      entryOption "condition" Expr.toJson condition ++
      [("update", .arr (Expr.items update)), ("body", .obj body.entries), ("span", span.toJson)]
  | .forEach id item iterable body span =>
    [("stmt", .str "for_each"), ("id", id.toJson), ("variable", item.toJson),
      ("iterable", iterable.toJson), ("body", .obj body.entries), ("span", span.toJson)]
  | .whileLoop id condition body span =>
    [("stmt", .str "while"), ("id", id.toJson), ("condition", condition.toJson),
      ("body", .obj body.entries), ("span", span.toJson)]
  | .tryCatch body catches none span =>
    [("stmt", .str "try"), ("body", .obj body.entries), ("catches", .arr (CatchClause.items catches)),
      ("span", span.toJson)]
  | .tryCatch body catches (some finalizer) span =>
    [("stmt", .str "try"), ("body", .obj body.entries), ("catches", .arr (CatchClause.items catches)),
      ("finally", .obj finalizer.entries), ("span", span.toJson)]
  | .ret value span =>
    ("stmt", .str "return") :: entryOption "value" Expr.toJson value ++ [("span", span.toJson)]
  | .record decl => ("stmt", .str "record") :: decl.entries

/-- Several statements, each as an object. -/
def Stmt.items : List Stmt → List Json
  | [] => []
  | s :: rest => .obj s.entries :: Stmt.items rest

/-- The entries of a block. -/
def Block.entries : Block → List (String × Json)
  | ⟨id, statements, span⟩ =>
    [("id", id.toJson), ("statements", .arr (Stmt.items statements)), ("span", span.toJson)]

/-- Several catch clauses, each as an object. -/
def CatchClause.items : List CatchClause → List Json
  | [] => []
  | ⟨id, parameter, types, body, span⟩ :: rest =>
    .obj [("id", id.toJson), ("parameter", parameter.toJson),
      ("exception_types", .arr (types.map TypeRef.toJson)), ("body", .obj body.entries),
      ("span", span.toJson)] :: CatchClause.items rest

/-- The entries of a method. -/
def Method.entries : Method → List (String × Json)
  | ⟨id, name, isStatic, isConstructor, parameters, none, span⟩ =>
    [("id", id.toJson), ("name", .str name), ("is_static", .bool isStatic),
      ("is_constructor", .bool isConstructor),
      ("parameters", .arr (parameters.map Parameter.toJson)), ("span", span.toJson)]
  | ⟨id, name, isStatic, isConstructor, parameters, some body, span⟩ =>
    [("id", id.toJson), ("name", .str name), ("is_static", .bool isStatic),
      ("is_constructor", .bool isConstructor),
      ("parameters", .arr (parameters.map Parameter.toJson)), ("body", .obj body.entries),
      ("span", span.toJson)]

/-- Several methods, each as an object. -/
def Method.items : List Method → List Json
  | [] => []
  | m :: rest => .obj m.entries :: Method.items rest

/-- The entries of a record. -/
def Record.entries : Record → List (String × Json)
  | ⟨id, name, superclass, isStatic, fields, methods, records, span⟩ =>
    [("id", id.toJson), ("name", .str name)] ++ entryOption "superclass" TypeRef.toJson superclass ++
      [("is_static", .bool isStatic), ("fields", .arr (fields.map Field.toJson)),
        ("methods", .arr (Method.items methods)), ("records", .arr (Record.items records)),
        ("span", span.toJson)]

/-- Several records, each as an object. -/
def Record.items : List Record → List Json
  | [] => []
  | r :: rest => .obj r.entries :: Record.items rest

end

/-- A statement as an object. -/
def Stmt.toJson (s : Stmt) : Json := .obj s.entries

/-- A block as an object. -/
def Block.toJson (block : Block) : Json := .obj block.entries

/-- A catch clause as an object. -/
def CatchClause.toJson (clause : CatchClause) : Json :=
  .obj [("id", clause.id.toJson), ("parameter", clause.parameter.toJson),
    ("exception_types", .arr (clause.exceptionTypes.map TypeRef.toJson)),
    ("body", clause.body.toJson), ("span", clause.span.toJson)]

/-- A method as an object. -/
def Method.toJson (method : Method) : Json := .obj method.entries

/-- A record as an object. -/
def Record.toJson (decl : Record) : Json := .obj decl.entries

/-- A unit as an object. Imports are left out when there are none. -/
def TranslationUnit.toJson (unit : TranslationUnit) : Json :=
  .obj ([("id", unit.id.toJson), ("name", .str unit.name)] ++
    entryOption "path" Json.str unit.path ++ entryOption "package" Json.str unit.package ++
    (if unit.imports.isEmpty then [] else [("imports", .arr (unit.imports.map Json.str))]) ++
    [("records", .arr (Record.items unit.records)), ("span", unit.span.toJson)])

end NameBinding
