import NameBinding.Binding

/-!
# The tree of lexical scopes

The scopes of one unit are kept in the order in which they were opened, so a scope's id is its
position and its parent comes before it. Two tables are kept beside them: which scopes lie
directly inside a scope, and which scope a node has opened. Each scope binds names in two
separate namespaces, variables and record names. The first declaration of a name in a scope and
namespace keeps it.
-/

namespace NameBinding

/-- The kind of construct that opens a scope. -/
inductive ScopeKind where
  /-- The whole unit. -/
  | global
  /-- The body of a record. -/
  | record
  /-- A method with its parameters. -/
  | method
  /-- A block of statements. -/
  | block
  /-- A loop with the variables of its header. -/
  | loop
  /-- A catch clause with its variable. -/
  | handler
deriving DecidableEq, Repr, Inhabited

/-- What the construct that opens a scope tells about it. -/
structure ScopeHeader where
  /-- Kind of the construct. -/
  kind : ScopeKind
  /-- The node that opens the scope. -/
  owner : NodeId
  /-- Set for static methods and static records. -/
  isStatic : Bool := false
  /-- Qualified name of the record, for records only. -/
  recordName : Option String := none
deriving DecidableEq, Repr

/-- One scope of the tree with the names bound in it. -/
structure Scope extends ScopeHeader where
  /-- Position in the order of opening. -/
  id : ScopeId
  /-- The scope around it; only the scope of the whole unit has none. -/
  parent : Option ScopeId
  /-- Fields, parameters, locals and receivers, in the order of declaration. -/
  vars : List Binding := []
  /-- Record names, in the order of declaration. -/
  types : List Binding := []
deriving DecidableEq, Repr

namespace Scope

/-- The variable called `name` in this scope alone. -/
def varBinding? (scope : Scope) (name : String) : Option Binding :=
  scope.vars.find? (·.name == name)

/-- The record called `name` in this scope alone. -/
def typeBinding? (scope : Scope) (name : String) : Option Binding :=
  scope.types.find? (·.name == name)

/-- The binding that holds `name` in the namespace of bindings of kind `kind`. -/
def holder? (scope : Scope) (kind : BindingKind) (name : String) : Option Binding :=
  if kind = .record then scope.typeBinding? name else scope.varBinding? name

/-- Adds a binding to the namespace its kind belongs to. -/
def bind (scope : Scope) (binding : Binding) : Scope :=
  if binding.kind = .record then { scope with types := scope.types ++ [binding] }
  else { scope with vars := scope.vars ++ [binding] }

end Scope

/-- The scopes of one unit, in the order in which they were opened, with the tables that lead from
a scope to those directly inside it and from a node to the scope it has opened. -/
structure ScopeTree where
  /-- The scope at position `i` has id `i`. -/
  scopes : List Scope
  /-- At position `i` the scopes directly inside scope `i`, in the order of opening. -/
  inside : List (List ScopeId)
  /-- Each node that has opened a scope, with this scope. -/
  opened : List (NodeId × ScopeId)
deriving DecidableEq, Repr

namespace ScopeTree

/-- The tree that holds only the scope of the whole unit. -/
def ofUnit (unit : NodeId) : ScopeTree :=
  ⟨[{ kind := .global, owner := unit, id := .global, parent := none }], [[]], [(unit, .global)]⟩

/-- Number of scopes. -/
def size (tree : ScopeTree) : Nat := tree.scopes.length

/-- The scope with the given id. -/
def scope? (tree : ScopeTree) (id : ScopeId) : Option Scope := tree.scopes[id.index]?

/-- The scope that a node has opened. -/
def scopeOf? (tree : ScopeTree) (owner : NodeId) : Option ScopeId :=
  (tree.opened.find? (·.1 == owner)).map (·.2)

/-- The scopes directly inside a scope, in the order of opening. -/
def children (tree : ScopeTree) (id : ScopeId) : List ScopeId :=
  tree.inside[id.index]?.getD []

/-- Opens a scope inside `parent`. A node opens at most one scope: if it has opened one before,
that scope is the answer and nothing is added. -/
def addScope (tree : ScopeTree) (parent : ScopeId) (header : ScopeHeader) :
    Except ScopeId (ScopeTree × ScopeId) :=
  match tree.scopeOf? header.owner, tree with
  | some existing, _ => .error existing
  | none, ⟨scopes, inside, opened⟩ =>
    let id : ScopeId := ⟨scopes.length⟩
    .ok (⟨scopes ++ [{ header with id, parent := some parent }],
      inside.modify parent.index (· ++ [id]) ++ [[]], opened ++ [(header.owner, id)]⟩, id)

/-- Binds a name in a scope. If the name is held there already, in the same namespace, the
binding that holds it is the answer and nothing is changed. -/
def declare (tree : ScopeTree) (id : ScopeId) (binding : Binding) : Except Binding ScopeTree :=
  match (tree.scope? id).bind (·.holder? binding.kind binding.name), tree with
  | some existing, _ => .error existing
  | none, ⟨scopes, inside, opened⟩ =>
    .ok ⟨scopes.modify id.index (·.bind binding), inside, opened⟩

/-- A scope followed by the scopes around it, innermost first. -/
def chain (tree : ScopeTree) (id : ScopeId) : List Scope :=
  match tree.scope? id with
  | none => []
  | some scope =>
    match scope.parent with
    | none => [scope]
    | some parent => if parent.index < id.index then scope :: tree.chain parent else [scope]
termination_by id.index

/-- Whether `ancestor` is `id` itself or a scope around it. -/
def isAncestor (tree : ScopeTree) (ancestor id : ScopeId) : Bool :=
  (tree.chain id).any (·.id == ancestor)

/-- The innermost record scope at or around a scope. -/
def enclosingRecord? (tree : ScopeTree) (id : ScopeId) : Option ScopeId :=
  ((tree.chain id).find? (·.kind == .record)).map (·.id)

/-- The innermost method scope at or around a scope, not looking past a record scope. -/
def enclosingMethod? (tree : ScopeTree) (id : ScopeId) : Option ScopeId :=
  (((tree.chain id).takeWhile (·.kind != .record)).find? (·.kind == .method)).map (·.id)

/-- The variable `name` as seen from a scope, nearest scope first, with the scope that binds it. -/
def lookup? (tree : ScopeTree) (id : ScopeId) (name : String) : Option (ScopeId × Binding) :=
  (tree.chain id).findSome? fun scope => (scope.varBinding? name).map (scope.id, ·)

end ScopeTree

end NameBinding
