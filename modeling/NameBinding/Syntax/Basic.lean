import NameBinding.Binding

/-!
# Syntax of translation units

The trees that a front end hands over: one unit per source file, with records (classes), fields,
methods, statements and expressions of an object-oriented language. Bare names and member
accesses carry slots for what they are found to denote; the slots start out empty and are the
only part of a tree that analysis ever writes.
-/

namespace NameBinding

/-- A type as it is written at a declaration. -/
structure TypeRef where
  /-- The type name as written, possibly dotted. -/
  name : String
  /-- Where it was written. -/
  span : Span := {}
deriving DecidableEq, Repr

/-- A literal value. -/
inductive Literal where
  | integer (value : Int64)
  | string (value : String)
  | boolean (value : Bool)
  | char (value : Char)
  | null
deriving DecidableEq, Repr

/-- A bare name used as an expression. -/
structure Reference where
  /-- Identity of the use. -/
  id : NodeId
  /-- The name as written. -/
  name : String
  /-- Slot for what the name denotes. -/
  resolved : Option Resolution := none
  /-- Slot for the receiver that is understood before the name of a field. -/
  implicitBase : Option Resolution := none
  /-- Where the name was written. -/
  span : Span := {}
deriving DecidableEq, Repr

/-- The part of a member access behind its base. -/
structure MemberName where
  /-- Identity of the access. -/
  id : NodeId
  /-- The name of the member as written. -/
  name : String
  /-- Slot for what the access denotes. -/
  resolved : Option Resolution := none
  /-- Where the whole access was written. -/
  span : Span := {}
deriving DecidableEq, Repr

/-- Expressions. -/
inductive Expr where
  | literal (value : Literal) (span : Span)
  /-- A bare name. -/
  | reference (use : Reference)
  /-- A member of the value or record that `base` denotes. -/
  | member (base : Expr) (member : MemberName)
  /-- A method call; the method itself is not looked up. -/
  | call (receiver : Option Expr) (name : String) (arguments : List Expr) (span : Span)
  /-- A new instance. -/
  | new (type : TypeRef) (arguments : List Expr) (span : Span)
  | assign (target value : Expr) (span : Span)
  | binary (operator : String) (left right : Expr) (span : Span)
  | unary (operator : String) (operand : Expr) (span : Span)
  | cast (type : TypeRef) (operand : Expr) (span : Span)
  | index (target position : Expr) (span : Span)

/-- A local variable, loop variable or caught variable. -/
structure LocalDecl where
  /-- Identity of the declaration. -/
  id : NodeId
  /-- The declared name. -/
  name : String
  /-- The declared type. -/
  type : TypeRef
  /-- The value it starts with. -/
  initializer : Option Expr := none
  /-- Where it was written. -/
  span : Span := {}

/-- A field of a record. -/
structure Field where
  /-- Identity of the declaration. -/
  id : NodeId
  /-- The declared name. -/
  name : String
  /-- The declared type. -/
  type : TypeRef
  /-- Static fields belong to the record, the others to each instance. -/
  isStatic : Bool := false
  /-- The value it starts with. -/
  initializer : Option Expr := none
  /-- Where it was written. -/
  span : Span := {}

/-- A parameter of a method. -/
structure Parameter where
  /-- Identity of the declaration. -/
  id : NodeId
  /-- The declared name. -/
  name : String
  /-- The declared type. -/
  type : TypeRef
  /-- Where it was written. -/
  span : Span := {}
deriving DecidableEq, Repr

mutual

/-- Statements. -/
inductive Stmt where
  | localVar (decl : LocalDecl)
  | expr (value : Expr)
  | block (block : Block)
  | ifElse (condition : Expr) (thenBranch : Stmt) (elseBranch : Option Stmt) (span : Span)
  | forLoop (id : NodeId) (init : List Stmt) (condition : Option Expr) (update : List Expr)
      (body : Stmt) (span : Span)
  | forEach (id : NodeId) (item : LocalDecl) (iterable : Expr) (body : Stmt) (span : Span)
  | whileLoop (id : NodeId) (condition : Expr) (body : Stmt) (span : Span)
  | tryCatch (body : Block) (catches : List CatchClause) (finalizer : Option Block) (span : Span)
  | ret (value : Option Expr) (span : Span)
  /-- A record declared inside a method body. -/
  | record (decl : Record)

/-- A block of statements. -/
structure Block where
  /-- Identity of the block. -/
  id : NodeId
  /-- The statements, in source order. -/
  statements : List Stmt
  /-- Where it was written. -/
  span : Span

/-- A catch clause. -/
structure CatchClause where
  /-- Identity of the clause. -/
  id : NodeId
  /-- The caught variable. -/
  parameter : LocalDecl
  /-- The exception types that the clause handles. -/
  exceptionTypes : List TypeRef
  /-- The body of the clause. -/
  body : Block
  /-- Where it was written. -/
  span : Span

/-- A method or constructor. -/
structure Method where
  /-- Identity of the method. -/
  id : NodeId
  /-- Name of the method; methods are never looked up. -/
  name : String
  /-- Static methods run without a receiver. -/
  isStatic : Bool
  /-- Set for constructors. -/
  isConstructor : Bool
  /-- The parameters, in order. -/
  parameters : List Parameter
  /-- The body, missing in abstract methods. -/
  body : Option Block
  /-- Where it was written. -/
  span : Span

/-- A record: a class with fields, methods and nested records. -/
structure Record where
  /-- Identity of the declaration. -/
  id : NodeId
  /-- Simple name of the record. -/
  name : String
  /-- The record it inherits from. -/
  superclass : Option TypeRef
  /-- A static record has no instance of the record around it. -/
  isStatic : Bool
  /-- The fields, in order. -/
  fields : List Field
  /-- The methods, in order. -/
  methods : List Method
  /-- The nested records, in order. -/
  records : List Record
  /-- Where it was written. -/
  span : Span

end

/-- One source file. -/
structure TranslationUnit where
  /-- Identity of the unit. -/
  id : NodeId
  /-- Name of the unit in reports. -/
  name : String
  /-- Location of the source file. -/
  path : Option String := none
  /-- The package its records belong to. -/
  package : Option String := none
  /-- Imported names; one that ends in `.*` imports every record of a package. -/
  imports : List String := []
  /-- The top-level records, in order. -/
  records : List Record := []
  /-- Where the unit extends. -/
  span : Span := {}

namespace Expr

/-- Where an expression was written. -/
def span : Expr → Span
  | reference use => use.span
  | member _ access => access.span
  | literal _ span | call _ _ _ span | new _ _ span | assign _ _ span | binary _ _ _ span
  | unary _ _ span | cast _ _ span | index _ _ span => span

/-- What the slot of a bare name or member access holds. -/
def resolution? : Expr → Option Resolution
  | reference use => use.resolved
  | member _ access => access.resolved
  | _ => none

/-- The dotted path that a chain of bare names and member accesses spells. -/
def dottedPath? : Expr → Option String
  | reference use => some use.name
  | member base access => base.dottedPath?.map (· ++ "." ++ access.name)
  | _ => none

end Expr

end NameBinding
