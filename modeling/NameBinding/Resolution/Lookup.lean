import NameBinding.Declaration.Table
import NameBinding.Record.Index
import NameBinding.Resolution.Slots
import NameBinding.Scope.Tree

/-!
# Looking up names

A bare name is looked up from the innermost scope outwards. A block offers only the locals that
are declared no later than the use. A record offers its own variables, then the fields it
inherits; a field reached there is understood behind a receiver, as long as one is reachable.
Record names are tried only where no variable of that name is found. Type names follow the
records bound along the way and otherwise the index.
-/

namespace NameBinding

/-- All that a name is looked up in. -/
structure Scene where
  /-- The scopes of the unit, with the names bound in them. -/
  tree : ScopeTree
  /-- The declarations of the unit. -/
  table : DeclTable
  /-- All records of the program. -/
  index : RecordIndex
  /-- The package of the unit. -/
  package : Option String
  /-- The imports of the unit. -/
  imports : List String

/-- The hit on a field that the record `owner` has or inherits. The base is the record itself
without a receiver, else `this` in the innermost record and the outer receiver further out. -/
def Hit.ofField (owner : NodeId) (level : Nat) (receiver : Bool) (field : Resolution) : Hit where
  resolved := field
  implicitBase := some ⟨owner, if !receiver then .record else if level = 0 then .this else .outerThis⟩
  staticContext := !receiver && field.kind != .staticField

namespace Scene

/-- The context that type names are written in at a scope. -/
def typeContext (scene : Scene) (scope : ScopeId) : TypeContext :=
  ⟨scene.package, scene.imports, (scene.tree.chain scope).filterMap (·.recordName)⟩

/-- The hit on a field that a record inherits or has. -/
def inherited? (scene : Scene) (owner : NodeId) (name : String) (level : Nat) (receiver : Bool) :
    Option Hit :=
  match scene.index.recordById? owner with
  | none => none
  | some record =>
    match scene.index.findFieldIn record name with
    | .found _ field => some (.ofField owner level receiver field.resolution)
    | _ => none

/-- What one scope offers for a bare name. `level` counts the records passed on the way to the
scope, `receiver` tells whether a receiver can still be reached there. -/
def offer? (scene : Scene) (name : String) (use : Span) (level : Nat) (receiver : Bool)
    (scope : Scope) : Option Hit :=
  match scope.kind with
  | .record =>
    match scope.varBinding? name with
    | some binding =>
      if binding.kind.isField then
        some (.ofField scope.owner level receiver binding.resolution)
      else
        some { resolved := binding.resolution
               staticContext := binding.kind.isReceiver && !receiver }
    | none => scene.inherited? scope.owner name level receiver
  | .block =>
    match scope.varBinding? name with
    | some binding =>
      if binding.definedAt.startsNoLaterThan use then some { resolved := binding.resolution }
      else none
    | none => none
  | _ => (scope.varBinding? name).map fun binding => { resolved := binding.resolution }

/-- The hit of the first scope that offers a bare name. Receivers are out of reach beyond a
static method and beyond a static record. -/
def searchVariable? (scene : Scene) (name : String) (use : Span) :
    Nat → Bool → List Scope → Option Hit
  | _, _, [] => none
  | level, receiver, scope :: around =>
    match scene.offer? name use level receiver scope with
    | some hit => some hit
    | none =>
      searchVariable? scene name use (if scope.kind = .record then level + 1 else level)
        (receiver && !scope.isStatic) around

/-- The innermost of some scopes that is a record, with its owner and whether a receiver can be
reached in it. -/
def innermostRecord? (receiver : Bool) : List Scope → Option (NodeId × Bool)
  | [] => none
  | scope :: around =>
    if scope.kind = .record then some (scope.owner, receiver)
    else innermostRecord? (receiver && !scope.isStatic) around

/-- The record name that one scope offers; a block offers it from its declaration on. -/
def offeredType? (name : String) (use : Span) (scope : Scope) : Option Binding :=
  (scope.typeBinding? name).filter fun binding =>
    scope.kind != .block || binding.definedAt.startsNoLaterThan use

/-- The record bound to a name as seen from a scope, nearest scope first. -/
def typeBinding? (scene : Scene) (scope : ScopeId) (name : String) (use : Span) : Option Binding :=
  (scene.tree.chain scope).findSome? (offeredType? name use)

/-- The record that a type name denotes at a scope. If its first segment is bound to a record
along the way, the rest is looked for inside that record; otherwise the index decides. -/
def typeNamed? (scene : Scene) (name : String) (scope : ScopeId) (use : Span) :
    Option RecordInfo :=
  let (head, rest) := RecordName.splitHead name
  match scene.typeBinding? scope head use with
  | some binding =>
    match scene.index.recordById? binding.target with
    | none => none
    | some record =>
      match rest with
      | none => some record
      | some rest => scene.index.get? (RecordName.qualify (some record.name) rest)
  | none => scene.index.resolveType? name (scene.typeContext scope)

/-- The receiver of the innermost record, written as `R.this` inside the record `R` itself. -/
def ownReceiver? (scene : Scene) (scope : ScopeId) (name : String) (inStatic : Bool) :
    Option Hit :=
  match innermostRecord? (!inStatic) (scene.tree.chain scope), RecordName.dropEnding? ".this" name with
  | some (record, receiver), some qualifier =>
    match scene.table.get? record with
    | some decl =>
      if decl.name = qualifier then
        some { resolved := ⟨record, .this⟩, staticContext := !receiver }
      else none
    | none => none
  | _, _ => none

/-- What a bare name denotes at a scope: a variable, else a record, else the receiver of the
innermost record spelled out. `inStatic` is set inside the initializer of a static field. -/
def lookup? (scene : Scene) (scope : ScopeId) (name : String) (use : Span) (inStatic : Bool) :
    Option Hit :=
  match scene.searchVariable? name use 0 (!inStatic) (scene.tree.chain scope) with
  | some hit => some hit
  | none =>
    match scene.typeBinding? scope name use with
    | some binding => some { resolved := ⟨binding.target, .record⟩ }
    | none => scene.ownReceiver? scope name inStatic

end Scene

end NameBinding
