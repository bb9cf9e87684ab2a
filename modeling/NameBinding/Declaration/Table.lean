import NameBinding.Scope.Tree
import NameBinding.Syntax.Basic

/-!
# The declarations of a unit

Every declaration of a unit is recorded under its node id, whether its name could be bound or
not. A node id names one declaration at most.
-/

namespace NameBinding

/-- What a declaration introduces. -/
inductive DeclKind where
  | field
  | parameter
  | localVar
  | caught
  | record
deriving DecidableEq, Repr

/-- A declared variable: a field, a parameter or a local of any sort. -/
structure Variable where
  /-- Identity of the declaration. -/
  id : NodeId
  /-- The declared name. -/
  name : String
  /-- What sort of variable it is. -/
  kind : DeclKind
  /-- The type as written. -/
  type : String
  /-- Set for static fields. -/
  isStatic : Bool
  /-- Where it was written. -/
  span : Span
deriving DecidableEq, Repr

/-- A local variable as it is declared; `kind` tells locals and caught variables apart. -/
def LocalDecl.declared (decl : LocalDecl) (kind : DeclKind) : Variable :=
  ⟨decl.id, decl.name, kind, decl.type.name, false, decl.span⟩

/-- A parameter as it is declared. -/
def Parameter.declared (parameter : Parameter) : Variable :=
  ⟨parameter.id, parameter.name, .parameter, parameter.type.name, false, parameter.span⟩

/-- A field as it is declared. -/
def Field.declared (field : Field) : Variable :=
  ⟨field.id, field.name, .field, field.type.name, field.isStatic, field.span⟩

/-- A declaration as name resolution sees it. -/
structure Declaration where
  /-- Identity of the declaration. -/
  id : NodeId
  /-- The declared name. -/
  name : String
  /-- What is declared. -/
  kind : DeclKind
  /-- The type as written; for a record its qualified name. -/
  declaredType : Option String
  /-- Set for static fields and static records. -/
  isStatic : Bool
  /-- The scope that the name belongs to. -/
  scope : ScopeId
  /-- Where it was written. -/
  span : Span
deriving DecidableEq, Repr

/-- How the name of a declaration is bound. -/
def Declaration.bindingKind (decl : Declaration) : BindingKind :=
  match decl.kind with
  | .field => if decl.isStatic then .staticField else .field
  | .parameter => .parameter
  | .localVar | .caught => .localVar
  | .record => .record

/-- The binding that a declaration asks for. -/
def Declaration.binding (decl : Declaration) : Binding :=
  ⟨decl.name, decl.id, decl.bindingKind, decl.span⟩

/-- The declaration of a variable in a scope. -/
def Variable.declaration (item : Variable) (scope : ScopeId) : Declaration :=
  ⟨item.id, item.name, item.kind, some item.type, item.isStatic, scope, item.span⟩

/-- The declarations of one unit, in the order of registration. -/
structure DeclTable where
  /-- No two entries have the same id. -/
  entries : List Declaration := []
deriving DecidableEq, Repr

namespace DeclTable

/-- The declaration with the given id. -/
def get? (table : DeclTable) (id : NodeId) : Option Declaration :=
  table.entries.find? (·.id == id)

/-- Number of declarations. -/
def size (table : DeclTable) : Nat := table.entries.length

/-- Adds a declaration unless its id is taken. -/
def insert? (table : DeclTable) (decl : Declaration) : Option DeclTable :=
  if (table.get? decl.id).isSome then none else some ⟨table.entries ++ [decl]⟩

end DeclTable

end NameBinding
