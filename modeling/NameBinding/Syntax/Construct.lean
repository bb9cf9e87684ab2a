import NameBinding.Syntax.Basic

/-!
# Constructing trees in code

Constructors for trees that no front end has parsed. Nodes draw their ids from a supply in the
order in which they are constructed; all spans are empty and all slots are open.
-/

namespace NameBinding

/-- A construction that draws node ids from a supply. -/
abbrev Construction (α : Type) := StateM IdSupply α

/-- Draws a fresh id. -/
def Construction.freshId : Construction NodeId := fun supply => supply.fresh

open Construction

/-- A type by its name. -/
def TypeRef.named (name : String) : TypeRef := { name }

namespace Expr

/-- A bare name. -/
def ofName (name : String) (span : Span := {}) : Construction Expr := do
  return .reference { id := ← freshId, name, span }

/-- A member of a base. -/
def ofMember (base : Expr) (name : String) : Construction Expr := do
  return .member base { id := ← freshId, name }

/-- A call without a receiver. -/
def ofCall (name : String) (arguments : List Expr) : Expr := .call none name arguments {}

/-- A new instance. -/
def ofNew (type : TypeRef) (arguments : List Expr) : Expr := .new type arguments {}

/-- An integer literal. -/
def ofInt (value : Int64) : Expr := .literal (.integer value) {}

/-- A string literal. -/
def ofString (value : String) : Expr := .literal (.string value) {}

/-- An assignment. -/
def ofAssign (target value : Expr) : Expr := .assign target value {}

end Expr

/-- A local variable. -/
def LocalDecl.construct (name : String) (type : TypeRef) (initializer : Option Expr := none)
    (span : Span := {}) : Construction LocalDecl := do
  return { id := ← freshId, name, type, initializer, span }

/-- A field that is not static. -/
def Field.construct (name : String) (type : TypeRef) (initializer : Option Expr := none) :
    Construction Field := do
  return { id := ← freshId, name, type, initializer }

/-- A parameter. -/
def Parameter.construct (name : String) (type : TypeRef) : Construction Parameter := do
  return { id := ← freshId, name, type }

/-- A block. -/
def Block.construct (statements : List Stmt) : Construction Block := do
  return { id := ← freshId, statements, span := {} }

/-- A catch clause for the type of its variable. -/
def CatchClause.construct (parameter : LocalDecl) (body : Block) : Construction CatchClause := do
  return { id := ← freshId, parameter, exceptionTypes := [parameter.type], body, span := {} }

namespace Stmt

/-- A `for` loop without condition and update. -/
def ofFor (init : List Stmt) (body : Stmt) : Construction Stmt := do
  return .forLoop (← freshId) init none [] body {}

/-- A loop over the items of an expression. -/
def ofForEach (item : LocalDecl) (iterable : Expr) (body : Stmt) : Construction Stmt := do
  return .forEach (← freshId) item iterable body {}

/-- A `while` loop. -/
def ofWhile (condition : Expr) (body : Stmt) : Construction Stmt := do
  return .whileLoop (← freshId) condition body {}

/-- A `try` statement without a final block. -/
def ofTry (body : Block) (catches : List CatchClause) : Stmt := .tryCatch body catches none {}

end Stmt

/-- A method with a body, without parameters, not static. -/
def Method.construct (name : String) (body : Block) : Construction Method := do
  return { id := ← freshId, name, isStatic := false, isConstructor := false, parameters := [],
           body := some body, span := {} }

/-- Adds a parameter behind the others. -/
def Method.withParameter (method : Method) (parameter : Parameter) : Method :=
  { method with parameters := method.parameters ++ [parameter] }

namespace Record

/-- A record without superclass and members, not static. -/
def construct (name : String) : Construction Record := do
  return { id := ← freshId, name, superclass := none, isStatic := false, fields := [],
           methods := [], records := [], span := {} }

/-- Sets the superclass. -/
def withSuperclass (decl : Record) (type : TypeRef) : Record := { decl with superclass := some type }

/-- Adds a field behind the others. -/
def withField (decl : Record) (field : Field) : Record := { decl with fields := decl.fields ++ [field] }

/-- Adds a method behind the others. -/
def withMethod (decl : Record) (method : Method) : Record :=
  { decl with methods := decl.methods ++ [method] }

/-- Adds a nested record behind the others. -/
def withRecord (decl nested : Record) : Record := { decl with records := decl.records ++ [nested] }

end Record

namespace TranslationUnit

/-- A unit without package, imports and records. -/
def construct (name : String) : Construction TranslationUnit := do
  return { id := ← freshId, name }

/-- Adds an import behind the others. -/
def withImport (unit : TranslationUnit) (name : String) : TranslationUnit :=
  { unit with imports := unit.imports ++ [name] }

/-- Adds a record behind the others. -/
def withRecord (unit : TranslationUnit) (decl : Record) : TranslationUnit :=
  { unit with records := unit.records ++ [decl] }

end TranslationUnit

end NameBinding
