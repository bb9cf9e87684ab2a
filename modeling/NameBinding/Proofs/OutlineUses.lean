import NameBinding.Proofs.Outline

/-!
# The uses of an outline

A walk over a unit reaches every expression that the outline of the unit uses, once, and besides
these what the variables of loops over collections would start with.
-/

namespace NameBinding

/-- The expressions that a step uses. -/
def Step.expressions : Step → List Expr
  | uses _ _ value => value.walk
  | _ => []

/-- The expressions that steps use, in order. -/
def usesOf (steps : List Step) : List Expr := steps.flatMap Step.expressions

section usesOf

variable {place : Place} {steps : List Step}

@[simp] theorem usesOf_nil : usesOf [] = [] := rfl

@[simp] theorem usesOf_append (xs ys : List Step) :
    usesOf (xs ++ ys) = usesOf xs ++ usesOf ys := List.flatMap_append

@[simp] theorem usesOf_opens (header : ScopeHeader) (span : Span) :
    usesOf (.opens place header span :: steps) = usesOf steps := rfl

@[simp] theorem usesOf_record (site : RecordSite) :
    usesOf (.record place site :: steps) = usesOf steps := rfl

@[simp] theorem usesOf_declares (item : Variable) :
    usesOf (.declares place item :: steps) = usesOf steps := rfl

@[simp] theorem usesOf_position_uses (position : Position) (value : Expr) :
    usesOf (position.uses value :: steps) = value.walk ++ usesOf steps := rfl

@[simp] theorem usesOf_usesOption (position : Position) (value : Option Expr) :
    usesOf (position.usesOption value) = Expr.walkOption value := by
  cases value with
  | none => rfl
  | some value => exact List.append_nil _

@[simp] theorem usesOf_map_uses (position : Position) (values : List Expr) :
    usesOf (values.map position.uses) = Expr.walkAll values := by
  induction values with
  | nil => rw [List.map_nil, usesOf_nil, Expr.walkAll]
  | cons value rest ih => rw [List.map_cons, usesOf_position_uses, ih, Expr.walkAll]

@[simp] theorem usesOf_parameters (parameters : List Parameter) :
    usesOf (parameters.map fun parameter => .declares place parameter.declared) = [] := by
  induction parameters with
  | nil => rfl
  | cons parameter rest ih => exact ih

@[simp] theorem usesOf_fields (fields : List Field) :
    usesOf (fields.flatMap (Field.outline place)) = Field.walkAll fields := by
  induction fields with
  | nil => rfl
  | cons field rest ih =>
    rw [List.flatMap_cons, usesOf_append, ih, Field.walkAll, Field.walkAll, List.flatMap_cons]
    congr 1
    unfold Field.outline
    cases field.initializer with
    | none => rfl
    | some value => exact List.append_nil _

end usesOf

/-! ### What the variables of loops would start with -/

mutual

/-- The expressions in the initializers of loop variables inside a statement. -/
def Stmt.loopInitializers : Stmt → List Expr
  | .localVar _ | .expr _ | .ret .. => []
  | .block ⟨_, statements, _⟩ => Stmt.loopInitializersAll statements
  | .ifElse _ thenBranch none _ => thenBranch.loopInitializers
  | .ifElse _ thenBranch (some elseBranch) _ =>
    thenBranch.loopInitializers ++ elseBranch.loopInitializers
  | .forLoop _ init _ _ body _ => Stmt.loopInitializersAll init ++ body.loopInitializers
  | .forEach _ item _ body _ => Expr.walkOption item.initializer ++ body.loopInitializers
  | .whileLoop _ _ body _ => body.loopInitializers
  | .tryCatch ⟨_, statements, _⟩ catches none _ =>
    Stmt.loopInitializersAll statements ++ CatchClause.loopInitializersAll catches
  | .tryCatch ⟨_, statements, _⟩ catches (some ⟨_, last, _⟩) _ =>
    Stmt.loopInitializersAll statements ++ CatchClause.loopInitializersAll catches ++
      Stmt.loopInitializersAll last
  | .record decl => decl.loopInitializers

/-- The expressions in the initializers of loop variables inside statements. -/
def Stmt.loopInitializersAll : List Stmt → List Expr
  | [] => []
  | s :: rest => s.loopInitializers ++ Stmt.loopInitializersAll rest

/-- The expressions in the initializers of loop variables inside catch clauses. -/
def CatchClause.loopInitializersAll : List CatchClause → List Expr
  | [] => []
  | ⟨_, _, _, ⟨_, statements, _⟩, _⟩ :: rest =>
    Stmt.loopInitializersAll statements ++ CatchClause.loopInitializersAll rest

/-- The expressions in the initializers of loop variables inside methods. -/
def Method.loopInitializersAll : List Method → List Expr
  | [] => []
  | ⟨_, _, _, _, _, none, _⟩ :: rest => Method.loopInitializersAll rest
  | ⟨_, _, _, _, _, some ⟨_, statements, _⟩, _⟩ :: rest =>
    Stmt.loopInitializersAll statements ++ Method.loopInitializersAll rest

/-- The expressions in the initializers of loop variables inside a record. -/
def Record.loopInitializers : Record → List Expr
  | ⟨_, _, _, _, _, methods, records, _⟩ =>
    Record.loopInitializersAll records ++ Method.loopInitializersAll methods

/-- The expressions in the initializers of loop variables inside records. -/
def Record.loopInitializersAll : List Record → List Expr
  | [] => []
  | r :: rest => r.loopInitializers ++ Record.loopInitializersAll rest

end

/-- The expressions in the initializers of loop variables of a unit. -/
def TranslationUnit.loopInitializers (unit : TranslationUnit) : List Expr :=
  Record.loopInitializersAll unit.records

/-! ### The walk over a unit -/

section

variable {α : Type} {uses uses' rest rest' walk walk' : List α}

/-- What two walks reach one after the other is what both reach. -/
theorem perm_append_append (first : (uses ++ rest).Perm walk)
    (second : (uses' ++ rest').Perm walk') :
    (uses ++ uses' ++ (rest ++ rest')).Perm (walk ++ walk') := by
  have swapped : (uses' ++ (rest ++ rest')).Perm (rest ++ (uses' ++ rest')) := by
    rw [← List.append_assoc, ← List.append_assoc]
    exact List.perm_append_comm.append_right rest'
  rw [List.append_assoc]
  refine (swapped.append_left uses).trans ?_
  rw [← List.append_assoc]
  exact first.append second

/-- What a walk reaches on its way to another one is reached besides. -/
theorem perm_append_left (reached : List α) (second : (uses ++ rest).Perm walk) :
    (reached ++ uses ++ rest).Perm (reached ++ walk) := by
  rw [List.append_assoc]
  exact second.append_left reached

end

mutual

/-- A walk of a statement reaches what its outline uses and what loop variables start with. -/
theorem Stmt.usesOf_perm (position : Position) :
    (s : Stmt) →
      (usesOf (s.outline .recordsFirst position) ++ s.loopInitializers).Perm s.expressions
  | .localVar decl => by
    rw [Stmt.outline, Stmt.expressions, usesOf_declares, usesOf_usesOption, Stmt.loopInitializers,
      List.append_nil]
  | .expr value => by
    rw [Stmt.outline, Stmt.expressions, usesOf_position_uses, usesOf_nil, List.append_nil,
      Stmt.loopInitializers, List.append_nil]
  | .ret value _ => by
    rw [Stmt.outline, Stmt.expressions, usesOf_usesOption, Stmt.loopInitializers, List.append_nil]
  | .block ⟨id, statements, span⟩ => by
    rw [Stmt.outline, Stmt.expressions, Stmt.loopInitializers]
    exact Block.usesOf_perm position ⟨id, statements, span⟩
  | .ifElse condition thenBranch none _ => by
    rw [Stmt.outline, Stmt.expressions, usesOf_position_uses, Stmt.loopInitializers]
    exact perm_append_left condition.walk (Stmt.usesOf_perm position thenBranch)
  | .ifElse condition thenBranch (some elseBranch) _ => by
    rw [Stmt.outline, Stmt.expressions, usesOf_append, usesOf_position_uses,
      Stmt.loopInitializers]
    exact perm_append_append
      (perm_append_left condition.walk (Stmt.usesOf_perm position thenBranch))
      (Stmt.usesOf_perm position elseBranch)
  | .forLoop id init condition update body span => by
    simp only [Stmt.outline, Stmt.expressions, usesOf_append, usesOf_opens, usesOf_usesOption,
      usesOf_map_uses, Stmt.loopInitializers]
    have header := Stmt.usesOfAll_perm { position.inside id with inHeader := true } init
    have inner := perm_append_left (Expr.walkOption condition)
      (perm_append_left (Expr.walkAll update) (Stmt.usesOf_perm (position.inside id) body))
    simpa only [List.append_assoc] using perm_append_append header inner
  | .forEach id item iterable body span => by
    rw [Stmt.outline, Stmt.expressions, usesOf_opens, usesOf_declares, usesOf_position_uses,
      Stmt.loopInitializers, List.append_assoc (Expr.walkOption item.initializer)]
    have started : ([] ++ Expr.walkOption item.initializer).Perm
      (Expr.walkOption item.initializer) := .refl _
    have whole := perm_append_append started
      (perm_append_left iterable.walk (Stmt.usesOf_perm (position.inside id) body))
    exact whole
  | .whileLoop id condition body span => by
    rw [Stmt.outline, Stmt.expressions, usesOf_opens, usesOf_position_uses, Stmt.loopInitializers]
    exact perm_append_left condition.walk (Stmt.usesOf_perm (position.inside id) body)
  | .tryCatch ⟨id, statements, span⟩ catches none _ => by
    rw [Stmt.outline, Stmt.expressions, usesOf_append, Stmt.loopInitializers]
    exact perm_append_append (Block.usesOf_perm position ⟨id, statements, span⟩)
      (CatchClause.usesOf_perm position catches)
  | .tryCatch ⟨id, statements, span⟩ catches (some ⟨last, lastStatements, lastSpan⟩) _ => by
    rw [Stmt.outline, Stmt.expressions, usesOf_append, usesOf_append, Stmt.loopInitializers]
    have guarded := Block.usesOf_perm position ⟨id, statements, span⟩
    have handlers := CatchClause.usesOf_perm position catches
    have ending := Block.usesOf_perm position ⟨last, lastStatements, lastSpan⟩
    exact perm_append_append (perm_append_append guarded handlers) ending
  | .record decl => by
    rw [Stmt.outline, Stmt.expressions, Stmt.loopInitializers]
    exact Record.usesOf_perm _ _ _ _ decl

/-- A walk of statements reaches what their outline uses and what loop variables start with. -/
theorem Stmt.usesOfAll_perm (position : Position) :
    (statements : List Stmt) →
      (usesOf (Stmt.outlineAll .recordsFirst position statements) ++
        Stmt.loopInitializersAll statements).Perm (Stmt.expressionsAll statements)
  | [] => by rw [Stmt.outlineAll, Stmt.expressionsAll, Stmt.loopInitializersAll, usesOf_nil,
      List.append_nil]
  | s :: rest => by
    rw [Stmt.outlineAll, Stmt.expressionsAll, Stmt.loopInitializersAll, usesOf_append]
    exact perm_append_append (Stmt.usesOf_perm position s) (Stmt.usesOfAll_perm position rest)

/-- A walk of a block reaches what its outline uses and what loop variables start with. -/
theorem Block.usesOf_perm (position : Position) :
    (block : Block) →
      (usesOf (block.outline .recordsFirst position) ++
        Stmt.loopInitializersAll block.statements).Perm (Stmt.expressionsAll block.statements)
  | ⟨id, statements, span⟩ => by
    rw [Block.outline, usesOf_opens]
    exact Stmt.usesOfAll_perm (position.inside id) statements

/-- A walk of catch clauses reaches what their outline uses and what loop variables start with. -/
theorem CatchClause.usesOf_perm (position : Position) :
    (catches : List CatchClause) →
      (usesOf (CatchClause.outlineAll .recordsFirst position catches) ++
        CatchClause.loopInitializersAll catches).Perm (CatchClause.expressionsAll catches)
  | [] => by
    rw [CatchClause.outlineAll, CatchClause.expressionsAll, CatchClause.loopInitializersAll,
      usesOf_nil, List.append_nil]
  | ⟨id, parameter, _, ⟨block, statements, blockSpan⟩, span⟩ :: rest => by
    rw [CatchClause.outlineAll, CatchClause.expressionsAll, CatchClause.loopInitializersAll,
      usesOf_append, usesOf_opens, usesOf_declares]
    exact perm_append_append
      (Block.usesOf_perm (position.inside id) ⟨block, statements, blockSpan⟩)
      (CatchClause.usesOf_perm position rest)

/-- A walk of methods reaches what their outline uses and what loop variables start with. -/
theorem Method.usesOf_perm (position : Position) :
    (methods : List Method) →
      (usesOf (Method.outlineAll .recordsFirst position methods) ++
        Method.loopInitializersAll methods).Perm (Method.expressionsAll methods)
  | [] => by
    rw [Method.outlineAll, Method.expressionsAll, Method.loopInitializersAll, usesOf_nil,
      List.append_nil]
  | ⟨id, _, isStatic, _, parameters, none, span⟩ :: rest => by
    rw [Method.outlineAll, Method.expressionsAll, Method.loopInitializersAll, usesOf_append,
      usesOf_opens, usesOf_parameters]
    exact Method.usesOf_perm position rest
  | ⟨id, _, isStatic, _, parameters, some ⟨block, statements, blockSpan⟩, span⟩ :: rest => by
    rw [Method.outlineAll, Method.expressionsAll, Method.loopInitializersAll, usesOf_append,
      List.cons_append, usesOf_opens, usesOf_append, usesOf_parameters, List.nil_append]
    exact perm_append_append
      (Block.usesOf_perm (position.inside id) ⟨block, statements, blockSpan⟩)
      (Method.usesOf_perm position rest)

/-- A walk of a record reaches what its outline uses and what loop variables start with. -/
theorem Record.usesOf_perm (within : Place) (name : String) (outer : Option String)
    (inHeader : Bool) :
    (decl : Record) →
      (usesOf (decl.outline .recordsFirst within name outer inHeader) ++
        decl.loopInitializers).Perm decl.expressions
  | ⟨id, simpleName, superclass, isStatic, fields, methods, records, span⟩ => by
    rw [Record.outline, Record.expressions, Record.loopInitializers, usesOf_append,
      usesOf_record, usesOf_fields, usesOf_append,
      List.append_assoc (Field.walkAll fields) (Method.expressionsAll methods)]
    have nested := Record.usesOfAll_perm (.node id) (some name) (some name) inHeader records
    have members := Method.usesOf_perm ⟨.node id, name, inHeader⟩ methods
    exact perm_append_left (Field.walkAll fields)
      ((perm_append_append nested members).trans List.perm_append_comm)

/-- A walk of records reaches what their outline uses and what loop variables start with. -/
theorem Record.usesOfAll_perm (within : Place) (qualifier outer : Option String)
    (inHeader : Bool) :
    (records : List Record) →
      (usesOf (Record.outlineAll .recordsFirst within qualifier outer inHeader records) ++
        Record.loopInitializersAll records).Perm (Record.expressionsAll records)
  | [] => by
    rw [Record.outlineAll, Record.expressionsAll, Record.loopInitializersAll, usesOf_nil,
      List.append_nil]
  | r :: rest => by
    rw [Record.outlineAll, Record.expressionsAll, Record.loopInitializersAll, usesOf_append]
    exact perm_append_append (Record.usesOf_perm within _ _ _ r)
      (Record.usesOfAll_perm within qualifier outer inHeader rest)

end

/-- A walk of a unit reaches what its outline uses and what its loop variables start with. -/
theorem TranslationUnit.usesOf_perm (unit : TranslationUnit) :
    (usesOf (unit.outline .recordsFirst) ++ unit.loopInitializers).Perm unit.expressions :=
  Record.usesOfAll_perm .unit unit.package none false unit.records

/-- A walk of a unit reaches the expressions that its outline uses. -/
theorem TranslationUnit.usesOf_subset (unit : TranslationUnit) :
    usesOf (unit.outline .recordsFirst) ⊆ unit.expressions :=
  fun _ used => unit.usesOf_perm.subset (List.mem_append_left _ used)

end NameBinding
