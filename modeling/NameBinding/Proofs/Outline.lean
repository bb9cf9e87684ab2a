import NameBinding.Declaration.Table
import NameBinding.Record.Name
import NameBinding.Syntax.Walk

/-!
# The outline of a unit

A unit read as a sequence of steps: a construct opens its scope, a name is declared, an
expression uses names. The outline lists the steps of a unit in order, each with the place it
belongs to. It is the yardstick of the proofs: each phase of the analysis walks the tree on its
own, and each walk is shown to do, one after the other, what the steps of the outline say. A
record's methods and its nested records can be taken in either order; scopes are opened with the
methods first, everything else takes the nested records first.
-/

namespace NameBinding

/-- The scope that something belongs to. -/
inductive Place where
  /-- The scope of the whole unit. -/
  | unit
  /-- The scope that a node opens. -/
  | node (id : NodeId)
deriving DecidableEq, Repr

/-- A record as it stands in its unit. -/
structure RecordSite where
  /-- The declaration. -/
  decl : Record
  /-- Qualified name of the record. -/
  name : String
  /-- Qualified name of the innermost record around it. -/
  outer : Option String
  /-- Whether it stands inside the header of a `for` loop. -/
  inHeader : Bool

/-- One step of an outline, with the place it belongs to. -/
inductive Step where
  /-- A record is declared in a place and opens the scope of its body. -/
  | record (within : Place) (site : RecordSite)
  /-- A method, block, loop or catch clause opens its scope. -/
  | opens (within : Place) (header : ScopeHeader) (span : Span)
  /-- A variable is declared. -/
  | declares (within : Place) (item : Variable)
  /-- An expression uses names; `inStatic` is set for initializers of static fields. -/
  | uses (within : Place) (inStatic : Bool) (value : Expr)

/-- The order in which methods and nested records of a record are taken. -/
inductive MemberOrder where
  | methodsFirst
  | recordsFirst
deriving DecidableEq, Repr

/-- Where a statement stands. -/
structure Position where
  /-- The innermost construct around it that opens a scope. -/
  place : Place
  /-- Qualified name of the innermost record around it. -/
  record : String
  /-- Whether it stands inside the header of a `for` loop. -/
  inHeader : Bool

namespace Position

/-- The same position one construct further in. -/
def inside (position : Position) (node : NodeId) : Position :=
  { position with place := .node node }

/-- The use of an expression at a position. -/
def uses (position : Position) (value : Expr) : Step := .uses position.place false value

/-- The use of an expression that may be missing. -/
def usesOption (position : Position) : Option Expr → List Step
  | none => []
  | some value => [position.uses value]

end Position

/-- The steps of a field: its declaration, then the use of its initializer. -/
def Field.outline (place : Place) (field : Field) : List Step :=
  .declares place field.declared ::
    match field.initializer with
    | none => []
    | some value => [.uses place field.isStatic value]

mutual

/-- The steps of a statement. -/
def Stmt.outline (order : MemberOrder) (position : Position) : Stmt → List Step
  | .localVar decl =>
    .declares position.place (decl.declared .localVar) :: position.usesOption decl.initializer
  | .expr value => [position.uses value]
  | .block block => block.outline order position
  | .ifElse condition thenBranch none _ =>
    position.uses condition :: thenBranch.outline order position
  | .ifElse condition thenBranch (some elseBranch) _ =>
    position.uses condition :: thenBranch.outline order position ++
      elseBranch.outline order position
  | .forLoop id init condition update body span =>
    let inner := position.inside id
    .opens position.place { kind := .loop, owner := id } span ::
      Stmt.outlineAll order { inner with inHeader := true } init ++
      inner.usesOption condition ++ update.map inner.uses ++ body.outline order inner
  | .forEach id item iterable body span =>
    let inner := position.inside id
    .opens position.place { kind := .loop, owner := id } span ::
      .declares inner.place (item.declared .localVar) :: position.uses iterable ::
      body.outline order inner
  | .whileLoop id condition body span =>
    let inner := position.inside id
    .opens position.place { kind := .loop, owner := id } span :: inner.uses condition ::
      body.outline order inner
  | .tryCatch body catches none _ =>
    body.outline order position ++ CatchClause.outlineAll order position catches
  | .tryCatch body catches (some finalizer) _ =>
    body.outline order position ++ CatchClause.outlineAll order position catches ++
      finalizer.outline order position
  | .ret value _ => position.usesOption value
  | .record decl =>
    decl.outline order position.place (RecordName.ofLocal position.record decl.id decl.name)
      (some position.record) position.inHeader

/-- The steps of a list of statements. -/
def Stmt.outlineAll (order : MemberOrder) (position : Position) : List Stmt → List Step
  | [] => []
  | s :: rest => s.outline order position ++ Stmt.outlineAll order position rest

/-- The steps of a block. -/
def Block.outline (order : MemberOrder) (position : Position) : Block → List Step
  | ⟨id, statements, span⟩ =>
    .opens position.place { kind := .block, owner := id } span ::
      Stmt.outlineAll order (position.inside id) statements

/-- The steps of catch clauses. -/
def CatchClause.outlineAll (order : MemberOrder) (position : Position) :
    List CatchClause → List Step
  | [] => []
  | ⟨id, parameter, _, body, span⟩ :: rest =>
    .opens position.place { kind := .handler, owner := id } span ::
      .declares (.node id) (parameter.declared .caught) ::
      body.outline order (position.inside id) ++ CatchClause.outlineAll order position rest

/-- The steps of methods. -/
def Method.outlineAll (order : MemberOrder) (position : Position) : List Method → List Step
  | [] => []
  | ⟨id, _, isStatic, _, parameters, none, span⟩ :: rest =>
    .opens position.place { kind := .method, owner := id, isStatic } span ::
      parameters.map (fun parameter => .declares (.node id) parameter.declared) ++
      Method.outlineAll order position rest
  | ⟨id, _, isStatic, _, parameters, some body, span⟩ :: rest =>
    .opens position.place { kind := .method, owner := id, isStatic } span ::
      parameters.map (fun parameter => .declares (.node id) parameter.declared) ++
      body.outline order (position.inside id) ++ Method.outlineAll order position rest

/-- The steps of a record with the qualified name `name` inside the record `outer`. -/
def Record.outline (order : MemberOrder) (within : Place) (name : String)
    (outer : Option String) (inHeader : Bool) : Record → List Step
  | ⟨id, simpleName, superclass, isStatic, fields, methods, records, span⟩ =>
    let decl : Record := ⟨id, simpleName, superclass, isStatic, fields, methods, records, span⟩
    let methodSteps := Method.outlineAll order ⟨.node id, name, inHeader⟩ methods
    let recordSteps := Record.outlineAll order (.node id) (some name) (some name) inHeader records
    .record within ⟨decl, name, outer, inHeader⟩ ::
      fields.flatMap (Field.outline (.node id)) ++
      match order with
      | .methodsFirst => methodSteps ++ recordSteps
      | .recordsFirst => recordSteps ++ methodSteps

/-- The steps of records that are not local to a method: their names are qualified by the record
around them or, at the top level, by the package. -/
def Record.outlineAll (order : MemberOrder) (within : Place) (qualifier outer : Option String)
    (inHeader : Bool) : List Record → List Step
  | [] => []
  | r :: rest =>
    r.outline order within (RecordName.qualify qualifier r.name) outer inHeader ++
      Record.outlineAll order within qualifier outer inHeader rest

end

/-- The steps of a unit. -/
def TranslationUnit.outline (order : MemberOrder) (unit : TranslationUnit) : List Step :=
  Record.outlineAll order .unit unit.package none false unit.records

/-! ### What an outline lists -/

/-- A construct that opens a scope, as it stands in its unit. -/
structure Opening where
  /-- The innermost construct around it that opens a scope. -/
  within : Place
  /-- What it tells about its scope. -/
  header : ScopeHeader
  /-- The simple name, for records only. -/
  simpleName : Option String
  /-- Where it was written. -/
  span : Span

namespace Step

/-- The scope that a step opens. -/
def opening? : Step → Option Opening
  | .record within site =>
    some ⟨within, ⟨.record, site.decl.id, site.decl.isStatic, some site.name⟩,
      some site.decl.name, site.decl.span⟩
  | .opens within header span => some ⟨within, header, none, span⟩
  | _ => none

/-- The record that a step declares. -/
def site? : Step → Option RecordSite
  | .record _ site => some site
  | _ => none

/-- The variable that a step declares. -/
def item? : Step → Option Variable
  | .declares _ item => some item
  | _ => none

/-- The node that a step declares. -/
def declared? : Step → Option NodeId
  | .record _ site => some site.decl.id
  | .declares _ item => some item.id
  | _ => none

end Step

/-- The scopes that steps open, in order. -/
def openingsOf (steps : List Step) : List Opening := steps.filterMap Step.opening?

section openingsOf

variable {steps : List Step} {within place : Place}

@[simp] theorem openingsOf_nil : openingsOf [] = [] := rfl

@[simp] theorem openingsOf_append (xs ys : List Step) :
    openingsOf (xs ++ ys) = openingsOf xs ++ openingsOf ys := List.filterMap_append

@[simp] theorem openingsOf_opens (header : ScopeHeader) (span : Span) :
    openingsOf (.opens within header span :: steps) =
      ⟨within, header, none, span⟩ :: openingsOf steps := rfl

@[simp] theorem openingsOf_record (site : RecordSite) :
    openingsOf (.record within site :: steps) =
      ⟨within, ⟨.record, site.decl.id, site.decl.isStatic, some site.name⟩,
        some site.decl.name, site.decl.span⟩ :: openingsOf steps := rfl

@[simp] theorem openingsOf_declares (item : Variable) :
    openingsOf (.declares within item :: steps) = openingsOf steps := rfl

@[simp] theorem openingsOf_uses (inStatic : Bool) (value : Expr) :
    openingsOf (.uses within inStatic value :: steps) = openingsOf steps := rfl

@[simp] theorem openingsOf_position_uses (position : Position) (value : Expr) :
    openingsOf (position.uses value :: steps) = openingsOf steps := rfl

@[simp] theorem openingsOf_usesOption (position : Position) (value : Option Expr) :
    openingsOf (position.usesOption value) = [] := by
  cases value <;> rfl

@[simp] theorem openingsOf_map_uses (position : Position) (values : List Expr) :
    openingsOf (values.map position.uses) = [] := by
  induction values with
  | nil => rfl
  | cons value rest ih => exact ih

@[simp] theorem openingsOf_parameters (parameters : List Parameter) :
    openingsOf (parameters.map fun parameter => .declares place parameter.declared) = [] := by
  induction parameters with
  | nil => rfl
  | cons parameter rest ih => exact ih

@[simp] theorem openingsOf_fields (fields : List Field) :
    openingsOf (fields.flatMap (Field.outline place)) = [] := by
  induction fields with
  | nil => rfl
  | cons field rest ih =>
    rw [List.flatMap_cons, openingsOf_append, ih]
    cases h : field.initializer <;> simp [Field.outline, h]

end openingsOf

namespace TranslationUnit

/-- The constructs of a unit that open scopes, in the order in which they open them. -/
def openings (unit : TranslationUnit) : List Opening := openingsOf (unit.outline .methodsFirst)

/-- The records of a unit. -/
def recordSites (unit : TranslationUnit) : List RecordSite :=
  (unit.outline .recordsFirst).filterMap Step.site?

/-- The fields, parameters, locals, loop variables and caught variables of a unit. -/
def declaredVariables (unit : TranslationUnit) : List Variable :=
  (unit.outline .recordsFirst).filterMap Step.item?

/-- The ids of the records and variables that a unit declares. -/
def declaredIds (unit : TranslationUnit) : List NodeId :=
  (unit.outline .recordsFirst).filterMap Step.declared?

end TranslationUnit

end NameBinding
