import NameBinding.Proofs.Editing
import NameBinding.Proofs.Nesting

/-!
# Changing the expressions of a unit

A function on expressions is carried over to statements, records and units: it is applied wherever
an expression stands, the initializers of caught variables included, which no walk visits.
Everything else stays, so the outline of the changed unit has the changed steps. A function that
ignores an edit of expressions ignores that edit of a whole unit.
-/

namespace NameBinding

/-- A local with its initializer changed. -/
def LocalDecl.mapExprs (f : Expr → Expr) (decl : LocalDecl) : LocalDecl :=
  { decl with initializer := decl.initializer.map f }

/-- A field with its initializer changed. -/
def Field.mapExprs (f : Expr → Expr) (field : Field) : Field :=
  { field with initializer := field.initializer.map f }

mutual

/-- A statement with its expressions changed. -/
def Stmt.mapExprs (f : Expr → Expr) : Stmt → Stmt
  | .localVar decl => .localVar (decl.mapExprs f)
  | .expr value => .expr (f value)
  | .block block => .block (block.mapExprs f)
  | .ifElse condition thenBranch none span =>
    .ifElse (f condition) (thenBranch.mapExprs f) none span
  | .ifElse condition thenBranch (some elseBranch) span =>
    .ifElse (f condition) (thenBranch.mapExprs f) (some (elseBranch.mapExprs f)) span
  | .forLoop id init condition update body span =>
    .forLoop id (Stmt.mapExprsAll f init) (condition.map f) (update.map f) (body.mapExprs f) span
  | .forEach id item iterable body span =>
    .forEach id (item.mapExprs f) (f iterable) (body.mapExprs f) span
  | .whileLoop id condition body span => .whileLoop id (f condition) (body.mapExprs f) span
  | .tryCatch body catches none span =>
    .tryCatch (body.mapExprs f) (CatchClause.mapExprsAll f catches) none span
  | .tryCatch body catches (some finalizer) span =>
    .tryCatch (body.mapExprs f) (CatchClause.mapExprsAll f catches)
      (some (finalizer.mapExprs f)) span
  | .ret value span => .ret (value.map f) span
  | .record decl => .record (decl.mapExprs f)

/-- Statements with their expressions changed. -/
def Stmt.mapExprsAll (f : Expr → Expr) : List Stmt → List Stmt
  | [] => []
  | s :: rest => s.mapExprs f :: Stmt.mapExprsAll f rest

/-- A block with its expressions changed. -/
def Block.mapExprs (f : Expr → Expr) : Block → Block
  | ⟨id, statements, span⟩ => ⟨id, Stmt.mapExprsAll f statements, span⟩

/-- Catch clauses with their expressions changed. -/
def CatchClause.mapExprsAll (f : Expr → Expr) : List CatchClause → List CatchClause
  | [] => []
  | ⟨id, parameter, types, body, span⟩ :: rest =>
    ⟨id, parameter.mapExprs f, types, body.mapExprs f, span⟩ :: CatchClause.mapExprsAll f rest

/-- Methods with their expressions changed. -/
def Method.mapExprsAll (f : Expr → Expr) : List Method → List Method
  | [] => []
  | ⟨id, name, isStatic, isConstructor, parameters, none, span⟩ :: rest =>
    ⟨id, name, isStatic, isConstructor, parameters, none, span⟩ :: Method.mapExprsAll f rest
  | ⟨id, name, isStatic, isConstructor, parameters, some body, span⟩ :: rest =>
    ⟨id, name, isStatic, isConstructor, parameters, some (body.mapExprs f), span⟩ ::
      Method.mapExprsAll f rest

/-- A record with its expressions changed. -/
def Record.mapExprs (f : Expr → Expr) : Record → Record
  | ⟨id, name, superclass, isStatic, fields, methods, records, span⟩ =>
    ⟨id, name, superclass, isStatic, fields.map (Field.mapExprs f), Method.mapExprsAll f methods,
      Record.mapExprsAll f records, span⟩

/-- Records with their expressions changed. -/
def Record.mapExprsAll (f : Expr → Expr) : List Record → List Record
  | [] => []
  | r :: rest => r.mapExprs f :: Record.mapExprsAll f rest

end

/-- A unit with its expressions changed. -/
def TranslationUnit.mapExprs (f : Expr → Expr) (unit : TranslationUnit) : TranslationUnit :=
  { unit with records := Record.mapExprsAll f unit.records }

/-! ### The outline of a changed unit -/

/-- A record at its place with its expressions changed. -/
def RecordSite.mapExprs (f : Expr → Expr) (site : RecordSite) : RecordSite :=
  { site with decl := site.decl.mapExprs f }

/-- A step with its expressions changed. -/
def Step.mapExprs (f : Expr → Expr) : Step → Step
  | record within site => .record within (site.mapExprs f)
  | opens within header span => .opens within header span
  | declares within item => .declares within item
  | uses within inStatic value => .uses within inStatic (f value)

section

variable {f : Expr → Expr} {order : MemberOrder}

/-- The use of an expression that may be missing is changed with it. -/
theorem Position.usesOption_map (position : Position) (value : Option Expr) :
    position.usesOption (value.map f) = (position.usesOption value).map (Step.mapExprs f) := by
  cases value <;> rfl

/-- The uses of several expressions are changed with them. -/
theorem Position.map_uses (position : Position) (values : List Expr) :
    (values.map f).map position.uses = (values.map position.uses).map (Step.mapExprs f) := by
  rw [List.map_map, List.map_map]
  rfl

/-- Parameters have no expressions to change. -/
theorem Parameter.map_declares (place : Place) (parameters : List Parameter) :
    (parameters.map fun parameter => Step.declares place parameter.declared) =
      (parameters.map fun parameter => .declares place parameter.declared).map
        (Step.mapExprs f) := by
  rw [List.map_map]
  rfl

/-- The outline of changed fields has the changed steps. -/
theorem Field.outline_mapExprs (place : Place) (fields : List Field) :
    (fields.map (Field.mapExprs f)).flatMap (Field.outline place) =
      (fields.flatMap (Field.outline place)).map (Step.mapExprs f) := by
  rw [List.flatMap_map, List.map_flatMap]
  congr 1
  funext field
  cases initializer : field.initializer <;>
    simp [Field.mapExprs, Field.outline, Field.declared, Step.mapExprs, initializer]

mutual

/-- The steps of a changed statement are the changed steps. -/
theorem Stmt.outline_mapExprs (position : Position) :
    (s : Stmt) →
      (s.mapExprs f).outline order position = (s.outline order position).map (Step.mapExprs f)
  | .localVar decl => by
    rw [Stmt.mapExprs, Stmt.outline, Stmt.outline, List.map_cons, LocalDecl.mapExprs,
      Position.usesOption_map]
    rfl
  | .expr value => by
    rw [Stmt.mapExprs, Stmt.outline, Stmt.outline]
    rfl
  | .ret value _ => by
    rw [Stmt.mapExprs, Stmt.outline, Stmt.outline, Position.usesOption_map]
  | .block block => by
    rw [Stmt.mapExprs, Stmt.outline, Stmt.outline, Block.outline_mapExprs position block]
  | .ifElse condition thenBranch none _ => by
    rw [Stmt.mapExprs, Stmt.outline, Stmt.outline, List.map_cons,
      Stmt.outline_mapExprs position thenBranch]
    rfl
  | .ifElse condition thenBranch (some elseBranch) _ => by
    rw [Stmt.mapExprs, Stmt.outline, Stmt.outline, List.map_append, List.map_cons,
      Stmt.outline_mapExprs position thenBranch, Stmt.outline_mapExprs position elseBranch]
    rfl
  | .forLoop id init condition update body span => by
    simp only [Stmt.mapExprs, Stmt.outline, List.map_append, List.map_cons,
      Position.usesOption_map, Position.map_uses, Stmt.outlineAll_mapExprs _ init,
      Stmt.outline_mapExprs _ body]
    rfl
  | .forEach id item iterable body span => by
    rw [Stmt.mapExprs, Stmt.outline, Stmt.outline, List.map_cons, List.map_cons, List.map_cons,
      Stmt.outline_mapExprs _ body]
    rfl
  | .whileLoop id condition body span => by
    rw [Stmt.mapExprs, Stmt.outline, Stmt.outline, List.map_cons, List.map_cons,
      Stmt.outline_mapExprs _ body]
    rfl
  | .tryCatch body catches none _ => by
    rw [Stmt.mapExprs, Stmt.outline, Stmt.outline, List.map_append,
      Block.outline_mapExprs position body, CatchClause.outlineAll_mapExprs position catches]
  | .tryCatch body catches (some finalizer) _ => by
    rw [Stmt.mapExprs, Stmt.outline, Stmt.outline, List.map_append, List.map_append,
      Block.outline_mapExprs position body, CatchClause.outlineAll_mapExprs position catches,
      Block.outline_mapExprs position finalizer]
  | .record ⟨id, name, superclass, isStatic, fields, methods, records, span⟩ => by
    rw [Stmt.mapExprs, Stmt.outline, Stmt.outline, Record.outline_mapExprs]
    rfl

/-- The steps of changed statements are the changed steps. -/
theorem Stmt.outlineAll_mapExprs (position : Position) :
    (statements : List Stmt) →
      Stmt.outlineAll order position (Stmt.mapExprsAll f statements) =
        (Stmt.outlineAll order position statements).map (Step.mapExprs f)
  | [] => by rw [Stmt.mapExprsAll, Stmt.outlineAll, List.map_nil]
  | s :: rest => by
    rw [Stmt.mapExprsAll, Stmt.outlineAll, Stmt.outlineAll, List.map_append,
      Stmt.outline_mapExprs position s, Stmt.outlineAll_mapExprs position rest]

/-- The steps of a changed block are the changed steps. -/
theorem Block.outline_mapExprs (position : Position) :
    (block : Block) →
      (block.mapExprs f).outline order position =
        (block.outline order position).map (Step.mapExprs f)
  | ⟨id, statements, span⟩ => by
    rw [Block.mapExprs, Block.outline, Block.outline, List.map_cons,
      Stmt.outlineAll_mapExprs _ statements]
    rfl

/-- The steps of changed catch clauses are the changed steps. -/
theorem CatchClause.outlineAll_mapExprs (position : Position) :
    (catches : List CatchClause) →
      CatchClause.outlineAll order position (CatchClause.mapExprsAll f catches) =
        (CatchClause.outlineAll order position catches).map (Step.mapExprs f)
  | [] => by rw [CatchClause.mapExprsAll, CatchClause.outlineAll, List.map_nil]
  | ⟨id, parameter, _, body, span⟩ :: rest => by
    rw [CatchClause.mapExprsAll, CatchClause.outlineAll, CatchClause.outlineAll, List.map_append,
      List.map_cons, List.map_cons, Block.outline_mapExprs _ body,
      CatchClause.outlineAll_mapExprs position rest]
    rfl

/-- The steps of changed methods are the changed steps. -/
theorem Method.outlineAll_mapExprs (position : Position) :
    (methods : List Method) →
      Method.outlineAll order position (Method.mapExprsAll f methods) =
        (Method.outlineAll order position methods).map (Step.mapExprs f)
  | [] => by rw [Method.mapExprsAll, Method.outlineAll, List.map_nil]
  | ⟨id, _, isStatic, _, parameters, none, span⟩ :: rest => by
    rw [Method.mapExprsAll, Method.outlineAll, Method.outlineAll, List.map_append, List.map_cons,
      ← Parameter.map_declares, Method.outlineAll_mapExprs position rest]
    rfl
  | ⟨id, _, isStatic, _, parameters, some body, span⟩ :: rest => by
    rw [Method.mapExprsAll, Method.outlineAll, Method.outlineAll, List.map_append, List.map_append,
      List.map_cons, ← Parameter.map_declares, Block.outline_mapExprs _ body,
      Method.outlineAll_mapExprs position rest]
    rfl

/-- The steps of a changed record are the changed steps. -/
theorem Record.outline_mapExprs (within : Place) (name : String) (outer : Option String)
    (inHeader : Bool) :
    (decl : Record) →
      (decl.mapExprs f).outline order within name outer inHeader =
        (decl.outline order within name outer inHeader).map (Step.mapExprs f)
  | ⟨id, simpleName, superclass, isStatic, fields, methods, records, span⟩ => by
    have site : Step.mapExprs f (.record within
        ⟨⟨id, simpleName, superclass, isStatic, fields, methods, records, span⟩, name, outer,
          inHeader⟩) = .record within
        ⟨⟨id, simpleName, superclass, isStatic, fields.map (Field.mapExprs f),
          Method.mapExprsAll f methods, Record.mapExprsAll f records, span⟩, name, outer,
          inHeader⟩ := by
      rw [Step.mapExprs, RecordSite.mapExprs, Record.mapExprs]
    have methodSteps := Method.outlineAll_mapExprs ⟨.node id, name, inHeader⟩ methods
    have recordSteps :=
      Record.outlineAll_mapExprs (.node id) (some name) (some name) inHeader records
    cases order with
    | methodsFirst =>
      simp only [Record.mapExprs, Record.outline, List.map_append, List.map_cons, site,
        Field.outline_mapExprs, methodSteps, recordSteps]
    | recordsFirst =>
      simp only [Record.mapExprs, Record.outline, List.map_append, List.map_cons, site,
        Field.outline_mapExprs, methodSteps, recordSteps]

/-- The steps of changed records are the changed steps. -/
theorem Record.outlineAll_mapExprs (within : Place) (qualifier outer : Option String)
    (inHeader : Bool) :
    (records : List Record) →
      Record.outlineAll order within qualifier outer inHeader (Record.mapExprsAll f records) =
        (Record.outlineAll order within qualifier outer inHeader records).map (Step.mapExprs f)
  | [] => by rw [Record.mapExprsAll, Record.outlineAll, List.map_nil]
  | ⟨id, simpleName, superclass, isStatic, fields, methods, records, span⟩ :: rest => by
    rw [Record.mapExprsAll, Record.outlineAll, Record.outlineAll, List.map_append,
      Record.outlineAll_mapExprs within qualifier outer inHeader rest, Record.outline_mapExprs]
    rfl

end

/-- The steps of a changed unit are the changed steps. -/
theorem TranslationUnit.outline_mapExprs (unit : TranslationUnit) :
    (unit.mapExprs f).outline order = (unit.outline order).map (Step.mapExprs f) :=
  Record.outlineAll_mapExprs .unit unit.package none false unit.records

end

/-! ### Edits that are ignored -/

/-- A function gives the same before and after the edit of an expression. -/
def Ignores (f : Expr → Expr) (edits : Nat → Edit) : Prop :=
  ∀ e k, f (Expr.edit edits k e) = f e

section

variable {f : Expr → Expr} {edits : Nat → Edit}

/-- A function that ignores the edits does not see them in an expression that may be missing. -/
theorem Expr.map_editOption (ignored : Ignores f edits) (k : Nat) (value : Option Expr) :
    (Expr.editOption edits k value).map f = value.map f := by
  cases value with
  | none => rfl
  | some value => exact congrArg some (ignored value k)

/-- The same of several expressions. -/
theorem Expr.map_editAll (ignored : Ignores f edits) (k : Nat) (values : List Expr) :
    (Expr.editAll edits k values).map f = values.map f := by
  induction values generalizing k with
  | nil => rw [Expr.editAll]
  | cons value rest ih => rw [Expr.editAll, List.map_cons, List.map_cons, ignored, ih]

/-- The same of the initializer of a local. -/
theorem LocalDecl.mapExprs_edit (ignored : Ignores f edits) (k : Nat) (decl : LocalDecl) :
    (decl.edit edits k).mapExprs f = decl.mapExprs f := by
  rw [LocalDecl.mapExprs, LocalDecl.edit, Expr.map_editOption ignored, LocalDecl.mapExprs]

/-- The same of the initializers of fields. -/
theorem Field.mapExprs_editAll (ignored : Ignores f edits) (k : Nat) (fields : List Field) :
    (Field.editAll edits k fields).map (Field.mapExprs f) = fields.map (Field.mapExprs f) := by
  induction fields generalizing k with
  | nil => rfl
  | cons field rest ih =>
    rw [Field.editAll, List.map_cons, List.map_cons, ih, Field.mapExprs,
      Expr.map_editOption ignored, Field.mapExprs]

mutual

/-- A statement is changed alike before and after an edit that is ignored. -/
theorem Stmt.mapExprs_edit (ignored : Ignores f edits) (k : Nat) :
    (s : Stmt) → (s.edit edits k).mapExprs f = s.mapExprs f
  | .localVar decl => by
    rw [Stmt.edit, Stmt.mapExprs, Stmt.mapExprs, LocalDecl.mapExprs_edit ignored]
  | .expr value => by
    rw [Stmt.edit, Stmt.mapExprs, Stmt.mapExprs, ignored]
  | .ret value _ => by
    rw [Stmt.edit, Stmt.mapExprs, Stmt.mapExprs, Expr.map_editOption ignored]
  | .block ⟨_, statements, _⟩ => by
    rw [Stmt.edit, Stmt.mapExprs, Stmt.mapExprs, Block.mapExprs, Block.mapExprs,
      Stmt.mapExprsAll_edit ignored k statements]
  | .ifElse condition thenBranch none _ => by
    rw [Stmt.edit, Stmt.mapExprs, Stmt.mapExprs, ignored, Stmt.mapExprs_edit ignored _ thenBranch]
  | .ifElse condition thenBranch (some elseBranch) _ => by
    rw [Stmt.edit, Stmt.mapExprs, Stmt.mapExprs, ignored, Stmt.mapExprs_edit ignored _ thenBranch,
      Stmt.mapExprs_edit ignored _ elseBranch]
  | .forLoop _ init condition update body _ => by
    rw [Stmt.edit, Stmt.mapExprs, Stmt.mapExprs, Stmt.mapExprsAll_edit ignored _ init,
      Expr.map_editOption ignored, Expr.map_editAll ignored, Stmt.mapExprs_edit ignored _ body]
  | .forEach _ item iterable body _ => by
    rw [Stmt.edit, Stmt.mapExprs, Stmt.mapExprs, LocalDecl.mapExprs_edit ignored, ignored,
      Stmt.mapExprs_edit ignored _ body]
  | .whileLoop _ condition body _ => by
    rw [Stmt.edit, Stmt.mapExprs, Stmt.mapExprs, ignored, Stmt.mapExprs_edit ignored _ body]
  | .tryCatch ⟨_, statements, _⟩ catches none _ => by
    rw [Stmt.edit, Stmt.mapExprs, Stmt.mapExprs, Block.mapExprs, Block.mapExprs,
      Stmt.mapExprsAll_edit ignored k statements, CatchClause.mapExprsAll_edit ignored _ catches]
  | .tryCatch ⟨_, statements, _⟩ catches (some ⟨_, last, _⟩) _ => by
    simp only [Stmt.edit, Stmt.mapExprs, Block.mapExprs, Stmt.mapExprsAll_edit ignored _ statements,
      CatchClause.mapExprsAll_edit ignored _ catches, Stmt.mapExprsAll_edit ignored _ last]
  | .record decl => by
    rw [Stmt.edit, Stmt.mapExprs, Stmt.mapExprs, Record.mapExprs_edit ignored k decl]

/-- Statements are changed alike before and after an edit that is ignored. -/
theorem Stmt.mapExprsAll_edit (ignored : Ignores f edits) (k : Nat) :
    (statements : List Stmt) →
      Stmt.mapExprsAll f (Stmt.editAll edits k statements) = Stmt.mapExprsAll f statements
  | [] => by rw [Stmt.editAll]
  | s :: rest => by
    rw [Stmt.editAll, Stmt.mapExprsAll, Stmt.mapExprsAll, Stmt.mapExprs_edit ignored k s,
      Stmt.mapExprsAll_edit ignored _ rest]

/-- Catch clauses are changed alike before and after an edit that is ignored. -/
theorem CatchClause.mapExprsAll_edit (ignored : Ignores f edits) (k : Nat) :
    (catches : List CatchClause) →
      CatchClause.mapExprsAll f (CatchClause.editAll edits k catches) =
        CatchClause.mapExprsAll f catches
  | [] => by rw [CatchClause.editAll]
  | ⟨_, _, _, ⟨_, statements, _⟩, _⟩ :: rest => by
    rw [CatchClause.editAll, CatchClause.mapExprsAll, CatchClause.mapExprsAll, Block.mapExprs,
      Block.mapExprs, Stmt.mapExprsAll_edit ignored k statements,
      CatchClause.mapExprsAll_edit ignored _ rest]

/-- Methods are changed alike before and after an edit that is ignored. -/
theorem Method.mapExprsAll_edit (ignored : Ignores f edits) (k : Nat) :
    (methods : List Method) →
      Method.mapExprsAll f (Method.editAll edits k methods) = Method.mapExprsAll f methods
  | [] => by rw [Method.editAll]
  | ⟨_, _, _, _, _, none, _⟩ :: rest => by
    rw [Method.editAll, Method.mapExprsAll, Method.mapExprsAll,
      Method.mapExprsAll_edit ignored k rest]
  | ⟨_, _, _, _, _, some ⟨_, statements, _⟩, _⟩ :: rest => by
    rw [Method.editAll, Method.mapExprsAll, Method.mapExprsAll, Block.mapExprs, Block.mapExprs,
      Stmt.mapExprsAll_edit ignored k statements, Method.mapExprsAll_edit ignored _ rest]

/-- A record is changed alike before and after an edit that is ignored. -/
theorem Record.mapExprs_edit (ignored : Ignores f edits) (k : Nat) :
    (decl : Record) → (decl.edit edits k).mapExprs f = decl.mapExprs f
  | ⟨_, _, _, _, fields, methods, records, _⟩ => by
    rw [Record.edit, Record.mapExprs, Record.mapExprs, Field.mapExprs_editAll ignored,
      Method.mapExprsAll_edit ignored _ methods, Record.mapExprsAll_edit ignored _ records]

/-- Records are changed alike before and after an edit that is ignored. -/
theorem Record.mapExprsAll_edit (ignored : Ignores f edits) (k : Nat) :
    (records : List Record) →
      Record.mapExprsAll f (Record.editAll edits k records) = Record.mapExprsAll f records
  | [] => by rw [Record.editAll]
  | r :: rest => by
    rw [Record.editAll, Record.mapExprsAll, Record.mapExprsAll, Record.mapExprs_edit ignored k r,
      Record.mapExprsAll_edit ignored _ rest]

end

/-- A unit is changed alike before and after an edit that is ignored. -/
theorem TranslationUnit.mapExprs_edit (ignored : Ignores f edits) (unit : TranslationUnit) :
    (unit.edit edits).mapExprs f = unit.mapExprs f := by
  rw [TranslationUnit.mapExprs, TranslationUnit.edit, Record.mapExprsAll_edit ignored,
    TranslationUnit.mapExprs]

end

end NameBinding
