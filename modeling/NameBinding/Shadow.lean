import NameBinding.Issue
import NameBinding.Resolution.Slots
import NameBinding.Scope.Tree

/-!
# Ambiguous shadows

A use is looked up along its own chain of scopes. Where a sibling scope of the same method binds
a local of the same name, a reader may take that one to be meant; such uses are given a warning
that points at the other local. It is searched for in all scopes of the tree, or among locals that
were grouped by method and name before.
-/

namespace NameBinding

namespace ScopeTree

/-- The local called `name` that a scope binds, if the scope is a block, loop or catch clause of
the given method. -/
def localIn? (tree : ScopeTree) (method : ScopeId) (name : String) (scope : Scope) :
    Option Binding :=
  match scope.kind with
  | .block | .loop | .handler =>
    (scope.varBinding? name).filter fun binding =>
      binding.kind == .localVar && tree.enclosingMethod? scope.id == some method
  | _ => none

/-- The first local, in the order of scopes, that shares its name with a use at `site` in the
given method, is not what the use denotes, and is bound off the chain of the use. -/
def otherLocal? (tree : ScopeTree) (method : ScopeId) (site : ReferenceSite) : Option Binding :=
  tree.scopes.findSome? fun scope =>
    (tree.localIn? method site.name scope).filter fun binding =>
      some binding.target != site.resolved.map (·.target) &&
        !tree.isAncestor scope.id site.scope

/-- The warning about one use. -/
def shadowIssue? (tree : ScopeTree) (site : ReferenceSite) : Option Issue :=
  (tree.enclosingMethod? site.scope).bind fun method =>
    (tree.otherLocal? method site).map fun other =>
      ⟨.ambiguousShadow site.name other.definedAt, site.span⟩

/-- The warnings about a list of uses, in order. -/
def shadowIssues (tree : ScopeTree) (sites : List ReferenceSite) : List Issue :=
  sites.filterMap tree.shadowIssue?

end ScopeTree

/-! ### Locals grouped by method and name -/

/-- Locals with the scopes that bind them, under the methods around them and their names. -/
abbrev MethodLocals := List ((ScopeId × String) × List (ScopeId × Binding))

namespace MethodLocals

/-- The locals of a method that are called `name`. -/
def called (table : MethodLocals) (method : ScopeId) (name : String) : List (ScopeId × Binding) :=
  (valueAt? (method, name) table).getD []

/-- Adds a local of a scope behind those of its method and name. -/
def add (method scope : ScopeId) (table : MethodLocals) (binding : Binding) : MethodLocals :=
  putEntry (method, binding.name) (table.called method binding.name ++ [(scope, binding)]) table

end MethodLocals

namespace ScopeTree

/-- Groups the locals of one scope, if it is a block, loop or catch clause in a method. The names
of the scope come in the given order. -/
def groupScope (tree : ScopeTree) (order : Scope → List Binding) (table : MethodLocals)
    (scope : Scope) : MethodLocals :=
  match scope.kind with
  | .block | .loop | .handler =>
    match tree.enclosingMethod? scope.id with
    | none => table
    | some method =>
      ((order scope).filter (·.kind == .localVar)).foldl (MethodLocals.add method scope.id) table
  | _ => table

/-- The locals of all methods. -/
def methodLocals (tree : ScopeTree) (order : Scope → List Binding) : MethodLocals :=
  tree.scopes.foldl (tree.groupScope order) []

/-- The first local of a method that has the name of a use, is not what the use denotes, and is
bound off the chain of the use. -/
def groupedLocal? (tree : ScopeTree) (table : MethodLocals) (method : ScopeId)
    (site : ReferenceSite) : Option Binding :=
  (valueAt? (method, site.name) table).bind fun candidates =>
    (candidates.find? fun (scope, binding) =>
      some binding.target != site.resolved.map (·.target) &&
        !tree.isAncestor scope site.scope).map (·.2)

/-- The warning about a use, from grouped locals. -/
def groupedIssue? (tree : ScopeTree) (table : MethodLocals) (site : ReferenceSite) :
    Option Issue :=
  (tree.enclosingMethod? site.scope).bind fun method =>
    (tree.groupedLocal? table method site).map fun other =>
      ⟨.ambiguousShadow site.name other.definedAt, site.span⟩

/-- The warnings about a list of uses, in order, from locals that are grouped once. -/
def groupedIssues (tree : ScopeTree) (order : Scope → List Binding) (sites : List ReferenceSite) :
    List Issue :=
  sites.filterMap (tree.groupedIssue? (tree.methodLocals order))

end ScopeTree

end NameBinding
