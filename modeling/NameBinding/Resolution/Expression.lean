import NameBinding.Resolution.Lookup

/-!
# Resolving expressions

Every bare name and member access of an expression is looked up, operands from left to right.
The base of a member access comes before the access and is reduced to a record: a variable
stands for the record of its declared type, a record name or receiver for the record itself, a
new instance or cast for the record of its type, everything else for no known record. The member
is then looked for on that record and its superclasses.
-/

namespace NameBinding

/-- The record that the base of a member access stands for. -/
structure BaseRecord where
  /-- The record. -/
  record : RecordInfo
  /-- The base names the record itself; it is not one of its instances. -/
  isName : Bool
deriving DecidableEq, Repr

/-- How an expression is used by the expression around it. -/
inductive Role where
  /-- As a value. -/
  | value
  /-- As the base of a member access. -/
  | base
deriving DecidableEq, Repr

/-- What the resolution of an expression yields. -/
structure Resolved where
  /-- The uses inside it, in order. -/
  log : UseLog := []
  /-- The record that it stands for as the base of a member access. -/
  base : Option BaseRecord := none

namespace Scene

/-- The record that stands behind a resolution. -/
def recordBehind? (scene : Scene) (scope : ScopeId) (resolution : Resolution) :
    Option BaseRecord :=
  match resolution.kind with
  | .record => (scene.index.recordById? resolution.target).map (⟨·, true⟩)
  | .this | .outerThis => (scene.index.recordById? resolution.target).map (⟨·, false⟩)
  | .field | .staticField =>
    ((scene.index.fieldById? resolution.target).bind fun field =>
      scene.index.get? field.type).map (⟨·, false⟩)
  | .parameter | .localVar =>
    ((scene.table.get? resolution.target).bind fun decl =>
      decl.declaredType.bind fun type => scene.typeNamed? type scope decl.span).map (⟨·, false⟩)

/-- What a bare name denotes as the base of a member access, with the record it stands for: as
elsewhere or, failing that, the record that it names as a type. -/
def lookupBase (scene : Scene) (scope : ScopeId) (name : String) (use : Span)
    (inStatic : Bool) : Option Hit × Option BaseRecord :=
  match scene.lookup? scope name use inStatic with
  | some hit => (some hit, scene.recordBehind? scope hit.resolved)
  | none =>
    match scene.typeNamed? name scope use with
    | some record => (some { resolved := ⟨record.id, .record⟩ }, some ⟨record, true⟩)
    | none => (none, none)

/-- The record that a member access names in full, such as a record behind its package. The first
segment of the path must denote neither a variable nor a record. -/
def qualifiedRecord? (scene : Scene) (scope : ScopeId) (inStatic : Bool) (base : Expr)
    (access : MemberName) : Option RecordInfo :=
  match base.dottedPath? with
  | none => none
  | some path =>
    let head := (RecordName.splitHead path).1
    if (scene.lookup? scope head access.span inStatic).isSome then none
    else if (scene.typeNamed? head scope access.span).isSome then none
    else
      scene.index.resolveType? (RecordName.qualify (some path) access.name)
        (scene.typeContext scope)

/-- The receiver of the record that the base names. -/
def findReceiver (scene : Scene) (scope : ScopeId) (inStatic : Bool) (base : BaseRecord)
    (access : MemberName) : String × MemberFinding :=
  if base.isName then
    let name := base.record.simpleName ++ ".this"
    match scene.lookup? scope name access.span inStatic with
    | some hit => (name, .member hit.resolved hit.staticContext)
    | none => (name, .missing .noBinding)
  else (access.name, .missing .noSuchMember)

/-- Why a search for a field was in vain. -/
def missingReason : FieldLookup → UnresolvedReason
  | .external => .externalRecord
  | .unknownRecord => .unknownType
  | .found .. | .notFound => .noSuchMember

/-- The field that the member of a base denotes or, behind a record name, the nested record. -/
def findMember (scene : Scene) (base : BaseRecord) (member : String) : MemberFinding :=
  match scene.index.findFieldIn base.record member with
  | .found _ field => .member field.resolution (base.isName && !field.isStatic)
  | outcome =>
    let nested :=
      if base.isName then
        scene.index.get? (RecordName.qualify (some base.record.name) member)
      else none
    match nested with
    | some record => .member ⟨record.id, .record⟩ false
    | none => .missing (missingReason outcome)

/-- What a member access finds on its base, with the name that issues call it by. -/
def findAccess (scene : Scene) (scope : ScopeId) (inStatic : Bool) (base : Option BaseRecord)
    (access : MemberName) : String × MemberFinding :=
  match base with
  | none => (access.name, .missing .unknownType)
  | some base =>
    if access.name = "this" then scene.findReceiver scope inStatic base access
    else (access.name, scene.findMember base access.name)

/-- Resolves a bare name. -/
def resolveReference (scene : Scene) (scope : ScopeId) (inStatic : Bool) (role : Role)
    (use : Reference) : Except Issue Resolved :=
  if use.name = "" then .error (.malformed (.namelessReference use.id) use.span)
  else
    let (hit, base) := match role with
      | .value => (scene.lookup? scope use.name use.span inStatic, none)
      | .base => scene.lookupBase scope use.name use.span inStatic
    .ok ⟨[.reference ⟨use.id, use.name, scope, use.span, hit⟩], base⟩

mutual

/-- Resolves an expression at a scope. -/
def resolve (scene : Scene) (scope : ScopeId) (inStatic : Bool) (role : Role) :
    Expr → Except Issue Resolved
  | .literal .. => .ok {}
  | .reference use => scene.resolveReference scope inStatic role use
  | .member base access =>
    let inFull :=
      if role = .base then scene.qualifiedRecord? scope inStatic base access else none
    match inFull with
    | some record =>
      .ok { log := [.member ⟨access.id, access.name, scope, access.span, .recordName record.id⟩]
            base := some ⟨record, true⟩ }
    | none =>
      if access.name = "" then .error (.malformed (.namelessMember access.id) access.span)
      else do
        let below ← scene.resolve scope inStatic .base base
        let (label, finding) := scene.findAccess scope inStatic below.base access
        .ok { log := below.log ++ [.member ⟨access.id, label, scope, access.span, finding⟩]
              base := finding.resolved.bind (scene.recordBehind? scope) }
  | .call none _ arguments _ => do
    .ok { log := ← scene.resolveAll scope inStatic arguments }
  | .call (some receiver) _ arguments _ => do
    let first ← scene.resolve scope inStatic .value receiver
    .ok { log := first.log ++ (← scene.resolveAll scope inStatic arguments) }
  | .new type arguments span => do
    .ok { log := ← scene.resolveAll scope inStatic arguments
          base := (scene.typeNamed? type.name scope span).map (⟨·, false⟩) }
  | .assign target value _ => do
    let first ← scene.resolve scope inStatic .value target
    let second ← scene.resolve scope inStatic .value value
    .ok { log := first.log ++ second.log }
  | .binary _ left right _ => do
    let first ← scene.resolve scope inStatic .value left
    let second ← scene.resolve scope inStatic .value right
    .ok { log := first.log ++ second.log }
  | .unary _ operand _ => do
    let first ← scene.resolve scope inStatic .value operand
    .ok { log := first.log }
  | .cast type operand span => do
    let first ← scene.resolve scope inStatic .value operand
    .ok { log := first.log
          base := (scene.typeNamed? type.name scope span).map (⟨·, false⟩) }
  | .index target position _ => do
    let first ← scene.resolve scope inStatic .value target
    let second ← scene.resolve scope inStatic .value position
    .ok { log := first.log ++ second.log }

/-- Resolves several expressions at a scope, as values, one after the other. -/
def resolveAll (scene : Scene) (scope : ScopeId) (inStatic : Bool) :
    List Expr → Except Issue UseLog
  | [] => .ok []
  | e :: rest => do
    let first ← scene.resolve scope inStatic .value e
    .ok (first.log ++ (← scene.resolveAll scope inStatic rest))

end

end Scene

end NameBinding
