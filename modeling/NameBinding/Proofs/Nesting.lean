import NameBinding.Proofs.Outline

/-!
# How outlines nest

The steps of an outline are built up like the syntax they come from: what stands inside a
construct follows the opening of its scope and belongs to that scope, to a scope opened further
in, or, for what a loop runs over, to the place of the loop. `Nests` says so, and what an outline
is needed for later is read off it by induction. `NestsIn` tells besides what is around each step.
Taking methods or nested records first makes no difference to which steps there are.
-/

namespace NameBinding

/-- The header of a construct that is no record: it has no name, and only methods are static. -/
structure ScopeHeader.Plain (header : ScopeHeader) : Prop where
  not_global : header.kind ≠ .global
  not_record : header.kind ≠ .record
  nameless : header.recordName = none
  method_of_isStatic : header.isStatic = true → header.kind = .method

/-- The steps of something that stands at a place. -/
inductive Nests : Place → List Step → Prop
  | nil {place : Place} : Nests place []
  | append {place : Place} {xs ys : List Step} :
    Nests place xs → Nests place ys → Nests place (xs ++ ys)
  /-- A parameter or local. -/
  | declares {place : Place} {item : Variable} :
    item.kind ≠ .field → item.kind ≠ .record → Nests place [.declares place item]
  /-- An expression. -/
  | uses {place : Place} {value : Expr} : Nests place [.uses place false value]
  /-- A construct with what stands inside it. -/
  | opens {place : Place} {header : ScopeHeader} {span : Span} {inner : List Step} :
    header.Plain → Nests (.node header.owner) inner →
    Nests place (.opens place header span :: inner)
  /-- A loop over a value that is computed outside the scope of the loop. -/
  | loopOver {place : Place} {header : ScopeHeader} {span : Span} {value : Expr}
    {looped body : List Step} :
    header.Plain → Nests (.node header.owner) looped → Nests (.node header.owner) body →
    Nests place (.opens place header span :: looped ++ .uses place false value :: body)
  /-- A record with its fields and what else stands inside it. -/
  | record {place : Place} {site : RecordSite} {inner : List Step} :
    Nests (.node site.decl.id) inner →
    Nests place (.record place site ::
      site.decl.fields.flatMap (Field.outline (.node site.decl.id)) ++ inner)

/-! ### Surroundings -/

/-- What is around something that stands in a unit. -/
structure Surroundings where
  /-- Kind of the innermost scope. -/
  kind : ScopeKind
  /-- Qualified name of the innermost record. -/
  record : Option String

/-- The sorts of variables, fields apart, that are declared in scopes of a kind. -/
def ScopeKind.Takes : ScopeKind → DeclKind → Prop
  | .method, sort => sort = .parameter
  | .block, sort => sort = .localVar
  | .loop, sort => sort = .localVar
  | .handler, sort => sort = .caught
  | .global, _ => False
  | .record, _ => False

/-- Scopes of no kind take fields or records as variables. -/
theorem ScopeKind.Takes.noMember {kind : ScopeKind} {sort : DeclKind} (h : kind.Takes sort) :
    sort ≠ .field ∧ sort ≠ .record := by
  cases kind <;> simp_all [Takes]

/-- Statements stand in blocks and, without braces, directly in loops. -/
def ScopeKind.HoldsStatements (kind : ScopeKind) : Prop := kind = .block ∨ kind = .loop

/-- Where statements stand, locals may be declared. -/
theorem ScopeKind.HoldsStatements.takes {kind : ScopeKind} (h : kind.HoldsStatements) :
    kind.Takes .localVar := by
  rcases h with rfl | rfl <;> exact rfl

/-- A record is named after its surroundings: by the package at the top level, by the record
around it inside that record, by that record and its own id among statements. -/
structure RecordSite.NamedIn (package : Option String) (around : Surroundings)
    (site : RecordSite) : Prop where
  outer : site.outer = around.record
  name : match around.kind with
    | .global => site.name = RecordName.qualify package site.decl.name ∧ around.record = none
    | .record => site.name = RecordName.qualify around.record site.decl.name ∧
      around.record.isSome
    | .block | .loop => ∃ outer, around.record = some outer ∧
      site.name = RecordName.ofLocal outer site.decl.id site.decl.name
    | .method | .handler => False

/-- The steps of something that stands at a place in its surroundings: variables are declared in
scopes that take them, and records are named after their surroundings. -/
inductive NestsIn (package : Option String) : Surroundings → Place → List Step → Prop
  | nil {around : Surroundings} {place : Place} : NestsIn package around place []
  | append {around : Surroundings} {place : Place} {xs ys : List Step} :
    NestsIn package around place xs → NestsIn package around place ys →
    NestsIn package around place (xs ++ ys)
  /-- A parameter or local. -/
  | declares {around : Surroundings} {place : Place} {item : Variable} :
    around.kind.Takes item.kind → NestsIn package around place [.declares place item]
  /-- An expression. -/
  | uses {around : Surroundings} {place : Place} {value : Expr} :
    NestsIn package around place [.uses place false value]
  /-- A construct with what stands inside it. -/
  | opens {around : Surroundings} {place : Place} {header : ScopeHeader} {span : Span}
    {inner : List Step} :
    header.Plain → NestsIn package ⟨header.kind, around.record⟩ (.node header.owner) inner →
    NestsIn package around place (.opens place header span :: inner)
  /-- A loop over a value that is computed outside the scope of the loop. -/
  | loopOver {around : Surroundings} {place : Place} {header : ScopeHeader} {span : Span}
    {value : Expr} {looped body : List Step} :
    header.Plain → NestsIn package ⟨header.kind, around.record⟩ (.node header.owner) looped →
    NestsIn package ⟨header.kind, around.record⟩ (.node header.owner) body →
    NestsIn package around place
      (.opens place header span :: looped ++ .uses place false value :: body)
  /-- A record with its fields and what else stands inside it. -/
  | record {around : Surroundings} {place : Place} {site : RecordSite} {inner : List Step} :
    site.NamedIn package around →
    NestsIn package ⟨.record, some site.name⟩ (.node site.decl.id) inner →
    NestsIn package around place (.record place site ::
      site.decl.fields.flatMap (Field.outline (.node site.decl.id)) ++ inner)

namespace NestsIn

variable {package : Option String} {around : Surroundings} {place : Place} {steps : List Step}
  {position : Position}

/-- What nests in its surroundings nests. -/
theorem nests (h : NestsIn package around place steps) : Nests place steps := by
  induction h with
  | nil => exact .nil
  | append _ _ ihx ihy => exact ihx.append ihy
  | declares takes => exact .declares takes.noMember.1 takes.noMember.2
  | uses => exact .uses
  | opens plain _ ih => exact .opens plain ih
  | loopOver plain _ _ ihv ihb => exact .loopOver plain ihv ihb
  | record _ _ ih => exact .record ih

/-- A use may come before steps that nest. -/
theorem cons_uses (position : Position) (value : Expr)
    (h : NestsIn package around position.place steps) :
    NestsIn package around position.place (position.uses value :: steps) :=
  NestsIn.append .uses h

/-- An expression that may be missing is used where it stands. -/
theorem usesOption (position : Position) (value : Option Expr) :
    NestsIn package around position.place (position.usesOption value) := by
  cases value with
  | none => exact .nil
  | some value => exact .uses

/-- Several expressions are used where they stand. -/
theorem mapUses (position : Position) (values : List Expr) :
    NestsIn package around position.place (values.map position.uses) := by
  induction values with
  | nil => exact .nil
  | cons value rest ih => exact ih.cons_uses position value

/-- A declaration of a sort that its surroundings take may come before steps that nest. -/
theorem cons_declares (item : Variable) (takes : around.kind.Takes item.kind)
    (h : NestsIn package around place steps) :
    NestsIn package around place (.declares place item :: steps) :=
  NestsIn.append (.declares takes) h

/-- Parameters nest in a method. -/
theorem parameters (place : Place) (method : around.kind = .method) (parameters : List Parameter) :
    NestsIn package around place
      (parameters.map fun parameter => .declares place parameter.declared) := by
  induction parameters with
  | nil => exact .nil
  | cons parameter rest ih =>
    refine ih.cons_declares parameter.declared ?_
    rw [method]
    exact rfl

end NestsIn

section

variable {order : MemberOrder} {package : Option String}

/-- A loop opens a plain scope. -/
theorem plain_loop (id : NodeId) : ScopeHeader.Plain { kind := .loop, owner := id } :=
  ⟨by simp, by simp, rfl, by simp⟩

/-- A block opens a plain scope. -/
theorem plain_block (id : NodeId) : ScopeHeader.Plain { kind := .block, owner := id } :=
  ⟨by simp, by simp, rfl, by simp⟩

/-- A catch clause opens a plain scope. -/
theorem plain_handler (id : NodeId) : ScopeHeader.Plain { kind := .handler, owner := id } :=
  ⟨by simp, by simp, rfl, by simp⟩

/-- A method opens a plain scope. -/
theorem plain_method (id : NodeId) (isStatic : Bool) :
    ScopeHeader.Plain { kind := .method, owner := id, isStatic } :=
  ⟨by simp, by simp, rfl, fun _ => rfl⟩

mutual

/-- The outline of a statement nests at its position. -/
theorem Stmt.outline_nestsIn {kind : ScopeKind} (holds : kind.HoldsStatements)
    (position : Position) :
    (s : Stmt) →
      NestsIn package ⟨kind, some position.record⟩ position.place (s.outline order position)
  | .localVar decl => by
    rw [Stmt.outline]
    exact (NestsIn.usesOption position decl.initializer).cons_declares (decl.declared .localVar)
      holds.takes
  | .expr value => by
    rw [Stmt.outline]
    exact .uses
  | .ret value _ => by
    rw [Stmt.outline]
    exact NestsIn.usesOption position value
  | .block block => by
    rw [Stmt.outline]
    exact Block.outline_nestsIn position block
  | .ifElse condition thenBranch none _ => by
    rw [Stmt.outline]
    exact (Stmt.outline_nestsIn holds position thenBranch).cons_uses position condition
  | .ifElse condition thenBranch (some elseBranch) _ => by
    rw [Stmt.outline]
    exact ((Stmt.outline_nestsIn holds position thenBranch).cons_uses position condition).append
      (Stmt.outline_nestsIn holds position elseBranch)
  | .forLoop id init condition update body span => by
    rw [Stmt.outline]
    simp only [List.cons_append]
    have loop : ScopeKind.loop.HoldsStatements := .inr rfl
    have header :=
      Stmt.outlineAll_nestsIn loop { position.inside id with inHeader := true } init
    have inner := Stmt.outline_nestsIn loop (position.inside id) body
    refine .opens (plain_loop id) (.append (.append (.append header ?_) ?_) inner)
    · exact .usesOption (position.inside id) condition
    · exact .mapUses (position.inside id) update
  | .forEach id item iterable body span => by
    rw [Stmt.outline]
    have loop : ScopeKind.loop.HoldsStatements := .inr rfl
    exact .loopOver (plain_loop id) (.declares loop.takes)
      (Stmt.outline_nestsIn loop (position.inside id) body)
  | .whileLoop id condition body span => by
    rw [Stmt.outline]
    have inner := Stmt.outline_nestsIn (.inr rfl) (position.inside id) body
    exact .opens (plain_loop id) (inner.cons_uses (position.inside id) condition)
  | .tryCatch body catches none _ => by
    rw [Stmt.outline]
    exact (Block.outline_nestsIn position body).append
      (CatchClause.outlineAll_nestsIn position catches)
  | .tryCatch body catches (some finalizer) _ => by
    rw [Stmt.outline]
    refine .append (.append ?_ ?_) ?_
    · exact Block.outline_nestsIn position body
    · exact CatchClause.outlineAll_nestsIn position catches
    · exact Block.outline_nestsIn position finalizer
  | .record decl => by
    rw [Stmt.outline]
    refine Record.outline_nestsIn position.place _ _ _ decl ⟨rfl, ?_⟩
    rcases holds with rfl | rfl <;> exact ⟨position.record, rfl, rfl⟩

/-- The outline of a list of statements nests at their position. -/
theorem Stmt.outlineAll_nestsIn {kind : ScopeKind} (holds : kind.HoldsStatements)
    (position : Position) :
    (statements : List Stmt) →
      NestsIn package ⟨kind, some position.record⟩ position.place
        (Stmt.outlineAll order position statements)
  | [] => by
    rw [Stmt.outlineAll]
    exact .nil
  | s :: rest => by
    rw [Stmt.outlineAll]
    exact (Stmt.outline_nestsIn holds position s).append
      (Stmt.outlineAll_nestsIn holds position rest)

/-- The outline of a block nests at its position. -/
theorem Block.outline_nestsIn {kind : ScopeKind} (position : Position) :
    (block : Block) →
      NestsIn package ⟨kind, some position.record⟩ position.place (block.outline order position)
  | ⟨id, statements, span⟩ => by
    rw [Block.outline]
    exact .opens (plain_block id)
      (Stmt.outlineAll_nestsIn (.inl rfl) (position.inside id) statements)

/-- The outline of catch clauses nests at their position. -/
theorem CatchClause.outlineAll_nestsIn {kind : ScopeKind} (position : Position) :
    (catches : List CatchClause) →
      NestsIn package ⟨kind, some position.record⟩ position.place
        (CatchClause.outlineAll order position catches)
  | [] => by
    rw [CatchClause.outlineAll]
    exact .nil
  | ⟨id, parameter, _, body, span⟩ :: rest => by
    rw [CatchClause.outlineAll]
    refine .append (.opens (plain_handler id) (.cons_declares _ ?_ ?_))
      (CatchClause.outlineAll_nestsIn position rest)
    · exact rfl
    · exact Block.outline_nestsIn (position.inside id) body

/-- The outline of methods nests at their position. -/
theorem Method.outlineAll_nestsIn {kind : ScopeKind} (position : Position) :
    (methods : List Method) →
      NestsIn package ⟨kind, some position.record⟩ position.place
        (Method.outlineAll order position methods)
  | [] => by
    rw [Method.outlineAll]
    exact .nil
  | ⟨id, _, isStatic, _, parameters, none, span⟩ :: rest => by
    rw [Method.outlineAll]
    exact .append (.opens (plain_method id isStatic) (.parameters _ rfl parameters))
      (Method.outlineAll_nestsIn position rest)
  | ⟨id, _, isStatic, _, parameters, some body, span⟩ :: rest => by
    rw [Method.outlineAll]
    simp only [List.cons_append]
    refine .append (.opens (plain_method id isStatic) (.append ?_ ?_))
      (Method.outlineAll_nestsIn position rest)
    · exact .parameters _ rfl parameters
    · exact Block.outline_nestsIn (position.inside id) body

/-- The outline of a record nests where the record stands. -/
theorem Record.outline_nestsIn {around : Surroundings} (within : Place) (name : String)
    (outer : Option String) (inHeader : Bool) :
    (decl : Record) → RecordSite.NamedIn package around ⟨decl, name, outer, inHeader⟩ →
      NestsIn package around within (decl.outline order within name outer inHeader)
  | ⟨id, simpleName, superclass, isStatic, fields, methods, records, span⟩, named => by
    let inside : Surroundings := ⟨.record, some name⟩
    have methodSteps : NestsIn package inside (.node id)
        (Method.outlineAll order ⟨.node id, name, inHeader⟩ methods) :=
      Method.outlineAll_nestsIn ⟨.node id, name, inHeader⟩ methods
    have recordSteps : NestsIn package inside (.node id)
        (Record.outlineAll order (.node id) (some name) (some name) inHeader records) :=
      Record.outlineAll_nestsIn (.node id) (some name) (some name) inHeader records
        fun _ _ => ⟨rfl, rfl, rfl⟩
    cases order with
    | methodsFirst =>
      rw [Record.outline]
      exact .record named (methodSteps.append recordSteps)
    | recordsFirst =>
      rw [Record.outline]
      exact .record named (recordSteps.append methodSteps)

/-- The outline of records nests where they stand. -/
theorem Record.outlineAll_nestsIn {around : Surroundings} (within : Place)
    (qualifier outer : Option String) (inHeader : Bool) :
    (records : List Record) →
      (∀ r ∈ records, RecordSite.NamedIn package around
        ⟨r, RecordName.qualify qualifier r.name, outer, inHeader⟩) →
      NestsIn package around within
        (Record.outlineAll order within qualifier outer inHeader records)
  | [], _ => by
    rw [Record.outlineAll]
    exact .nil
  | r :: rest, named => by
    rw [Record.outlineAll]
    exact (Record.outline_nestsIn within _ _ _ r (named r List.mem_cons_self)).append
      (Record.outlineAll_nestsIn within qualifier outer inHeader rest
        fun other member => named other (List.mem_cons_of_mem _ member))

end

/-- What is around the records of a unit. -/
def Surroundings.ofUnit : Surroundings := ⟨.global, none⟩

/-- The outline of a unit nests in the scope of the unit. -/
theorem TranslationUnit.outline_nestsIn (unit : TranslationUnit) :
    NestsIn unit.package .ofUnit .unit (unit.outline order) :=
  Record.outlineAll_nestsIn .unit unit.package none false unit.records
    fun _ _ => ⟨rfl, rfl, rfl⟩

/-- The outline of a unit nests. -/
theorem TranslationUnit.outline_nests (unit : TranslationUnit) :
    Nests .unit (unit.outline order) :=
  unit.outline_nestsIn.nests

mutual

/-- A statement has the same steps in either order of members. -/
theorem Stmt.outline_perm (position : Position) :
    (s : Stmt) → (s.outline .recordsFirst position).Perm (s.outline .methodsFirst position)
  | .localVar _ | .expr _ | .ret .. => .rfl
  | .block block => by
    rw [Stmt.outline, Stmt.outline]
    exact Block.outline_perm position block
  | .ifElse condition thenBranch none _ => by
    rw [Stmt.outline, Stmt.outline]
    exact (Stmt.outline_perm position thenBranch).cons _
  | .ifElse condition thenBranch (some elseBranch) _ => by
    rw [Stmt.outline, Stmt.outline]
    exact ((Stmt.outline_perm position thenBranch).cons _).append
      (Stmt.outline_perm position elseBranch)
  | .forLoop id init condition update body span => by
    rw [Stmt.outline, Stmt.outline]
    exact ((((Stmt.outlineAll_perm _ init).cons _).append_right _).append_right _).append
      (Stmt.outline_perm (position.inside id) body)
  | .forEach id item iterable body span => by
    rw [Stmt.outline, Stmt.outline]
    exact (((Stmt.outline_perm (position.inside id) body).cons _).cons _).cons _
  | .whileLoop id condition body span => by
    rw [Stmt.outline, Stmt.outline]
    exact ((Stmt.outline_perm (position.inside id) body).cons _).cons _
  | .tryCatch body catches none _ => by
    rw [Stmt.outline, Stmt.outline]
    exact (Block.outline_perm position body).append (CatchClause.outlineAll_perm position catches)
  | .tryCatch body catches (some finalizer) _ => by
    rw [Stmt.outline, Stmt.outline]
    exact ((Block.outline_perm position body).append
      (CatchClause.outlineAll_perm position catches)).append
      (Block.outline_perm position finalizer)
  | .record decl => by
    rw [Stmt.outline, Stmt.outline]
    exact Record.outline_perm position.place _ _ _ decl

/-- A list of statements has the same steps in either order of members. -/
theorem Stmt.outlineAll_perm (position : Position) :
    (statements : List Stmt) →
      (Stmt.outlineAll .recordsFirst position statements).Perm
        (Stmt.outlineAll .methodsFirst position statements)
  | [] => .rfl
  | s :: rest => by
    rw [Stmt.outlineAll, Stmt.outlineAll]
    exact (Stmt.outline_perm position s).append (Stmt.outlineAll_perm position rest)

/-- A block has the same steps in either order of members. -/
theorem Block.outline_perm (position : Position) :
    (block : Block) →
      (block.outline .recordsFirst position).Perm (block.outline .methodsFirst position)
  | ⟨id, statements, span⟩ => by
    rw [Block.outline, Block.outline]
    exact (Stmt.outlineAll_perm (position.inside id) statements).cons _

/-- Catch clauses have the same steps in either order of members. -/
theorem CatchClause.outlineAll_perm (position : Position) :
    (catches : List CatchClause) →
      (CatchClause.outlineAll .recordsFirst position catches).Perm
        (CatchClause.outlineAll .methodsFirst position catches)
  | [] => .rfl
  | ⟨id, parameter, _, body, span⟩ :: rest => by
    rw [CatchClause.outlineAll, CatchClause.outlineAll]
    exact (((Block.outline_perm (position.inside id) body).cons _).cons _).append
      (CatchClause.outlineAll_perm position rest)

/-- Methods have the same steps in either order of members. -/
theorem Method.outlineAll_perm (position : Position) :
    (methods : List Method) →
      (Method.outlineAll .recordsFirst position methods).Perm
        (Method.outlineAll .methodsFirst position methods)
  | [] => .rfl
  | ⟨id, _, isStatic, _, parameters, none, span⟩ :: rest => by
    rw [Method.outlineAll, Method.outlineAll]
    exact (Method.outlineAll_perm position rest).append_left _
  | ⟨id, _, isStatic, _, parameters, some body, span⟩ :: rest => by
    rw [Method.outlineAll, Method.outlineAll]
    exact ((Block.outline_perm (position.inside id) body).append_left _).append
      (Method.outlineAll_perm position rest)

/-- A record has the same steps in either order of members. -/
theorem Record.outline_perm (within : Place) (name : String) (outer : Option String)
    (inHeader : Bool) :
    (decl : Record) →
      (decl.outline .recordsFirst within name outer inHeader).Perm
        (decl.outline .methodsFirst within name outer inHeader)
  | ⟨id, simpleName, superclass, isStatic, fields, methods, records, span⟩ => by
    rw [Record.outline, Record.outline]
    have recordSteps := Record.outlineAll_perm (.node id) (some name) (some name) inHeader records
    have methodSteps := Method.outlineAll_perm ⟨.node id, name, inHeader⟩ methods
    exact ((recordSteps.append methodSteps).trans List.perm_append_comm).append_left _

/-- Records have the same steps in either order of members. -/
theorem Record.outlineAll_perm (within : Place) (qualifier outer : Option String)
    (inHeader : Bool) :
    (records : List Record) →
      (Record.outlineAll .recordsFirst within qualifier outer inHeader records).Perm
        (Record.outlineAll .methodsFirst within qualifier outer inHeader records)
  | [] => .rfl
  | r :: rest => by
    rw [Record.outlineAll, Record.outlineAll]
    exact (Record.outline_perm within _ _ _ r).append
      (Record.outlineAll_perm within qualifier outer inHeader rest)

end

/-- A unit has the same steps in either order of members. -/
theorem TranslationUnit.outline_perm (unit : TranslationUnit) :
    (unit.outline .recordsFirst).Perm (unit.outline .methodsFirst) :=
  Record.outlineAll_perm .unit unit.package none false unit.records

end

/-! ### What nesting tells -/

/-- An opening is one of those of some steps exactly if one of the steps opens it. -/
theorem mem_openingsOf {steps : List Step} {opening : Opening} :
    opening ∈ openingsOf steps ↔ ∃ item ∈ steps, item.opening? = some opening :=
  List.mem_filterMap

/-- The records of a unit are those that its outline declares. -/
theorem TranslationUnit.mem_recordSites {unit : TranslationUnit} {site : RecordSite} :
    site ∈ unit.recordSites ↔ ∃ within, .record within site ∈ unit.outline .recordsFirst := by
  unfold recordSites
  rw [List.mem_filterMap]
  constructor
  · rintro ⟨item, member, declares⟩
    cases item with
    | record within other =>
      cases declares
      exact ⟨within, member⟩
    | opens => cases declares
    | declares => cases declares
    | uses => cases declares
  · rintro ⟨within, member⟩
    exact ⟨_, member, rfl⟩

/-- The variables of a unit are those that its outline declares. -/
theorem TranslationUnit.mem_declaredVariables {unit : TranslationUnit} {item : Variable} :
    item ∈ unit.declaredVariables ↔
      ∃ within, .declares within item ∈ unit.outline .recordsFirst := by
  unfold declaredVariables
  rw [List.mem_filterMap]
  constructor
  · rintro ⟨step, member, declares⟩
    cases step with
    | declares within other =>
      cases declares
      exact ⟨within, member⟩
    | record => cases declares
    | opens => cases declares
    | uses => cases declares
  · rintro ⟨within, member⟩
    exact ⟨_, member, rfl⟩

/-- What a step tells about itself and about the steps around it. -/
def Step.Fits (steps : List Step) : Step → Prop
  | record _ site => ∀ field ∈ site.decl.fields, field.outline (.node site.decl.id) ⊆ steps
  | opens _ header _ => header.Plain
  | declares within item =>
    item.kind ≠ .record ∧ (item.kind = .field →
      ∃ around site, .record around site ∈ steps ∧ within = .node site.decl.id ∧
        ∃ field ∈ site.decl.fields, item = field.declared)
  | uses within inStatic value => inStatic = true →
    ∃ around site, .record around site ∈ steps ∧ within = .node site.decl.id ∧
      ∃ field ∈ site.decl.fields, field.isStatic = true ∧ field.initializer = some value

/-- A step that fits into some steps fits into more of them. -/
theorem Step.Fits.mono {xs ys : List Step} {item : Step} (h : item.Fits xs) (more : xs ⊆ ys) :
    item.Fits ys := by
  cases item with
  | record within site => exact fun field member => List.Subset.trans (h field member) more
  | opens within header span => exact h
  | declares within item =>
    refine ⟨h.1, fun kind => ?_⟩
    obtain ⟨around, site, member, rest⟩ := h.2 kind
    exact ⟨around, site, more member, rest⟩
  | uses within inStatic value =>
    intro flagged
    obtain ⟨around, site, member, rest⟩ := h flagged
    exact ⟨around, site, more member, rest⟩

/-- Steps that fit on their own fit together. -/
theorem fits_append {xs ys : List Step} (hx : ∀ item ∈ xs, item.Fits xs)
    (hy : ∀ item ∈ ys, item.Fits ys) : ∀ item ∈ xs ++ ys, item.Fits (xs ++ ys) := by
  intro item member
  rcases List.mem_append.mp member with hm | hm
  · exact (hx item hm).mono (List.subset_append_left _ _)
  · exact (hy item hm).mono (List.subset_append_right _ _)

/-- A step that fits by itself fits into the steps that consist of it. -/
theorem fits_single {item : Step} (h : item.Fits [item]) : ∀ other ∈ [item], other.Fits [item] := by
  intro other member
  rw [List.mem_singleton.mp member]
  exact h

/-- A step that fits by itself may come before others that fit. -/
theorem fits_cons {item : Step} {xs : List Step} (h : item.Fits [item])
    (hx : ∀ item ∈ xs, item.Fits xs) : ∀ other ∈ item :: xs, other.Fits (item :: xs) :=
  fits_append (fits_single h) hx

/-- A record fits together with the steps of its fields. -/
theorem fits_record (place : Place) (site : RecordSite) :
    ∀ item ∈ .record place site ::
      site.decl.fields.flatMap (Field.outline (.node site.decl.id)),
      item.Fits (.record place site ::
        site.decl.fields.flatMap (Field.outline (.node site.decl.id))) := by
  intro item member
  rcases List.mem_cons.mp member with rfl | member
  · exact fun field hf _ step => List.mem_cons_of_mem _ (List.mem_flatMap.mpr ⟨field, hf, step⟩)
  · obtain ⟨field, hf, member⟩ := List.mem_flatMap.mp member
    unfold Field.outline at member
    rcases List.mem_cons.mp member with rfl | member
    · exact ⟨by simp [Field.declared], fun _ =>
        ⟨place, site, List.mem_cons_self, rfl, field, hf, rfl⟩⟩
    · cases initializer : field.initializer with
      | none => simp [initializer] at member
      | some value =>
        simp only [initializer, List.mem_singleton] at member
        rw [member]
        exact fun isStatic =>
          ⟨place, site, List.mem_cons_self, rfl, field, hf, isStatic, initializer⟩

/-- Every step of an outline fits. -/
theorem Nests.fits {place : Place} {steps : List Step} (h : Nests place steps) :
    ∀ item ∈ steps, item.Fits steps := by
  induction h with
  | nil => simp
  | append _ _ ihx ihy => exact fits_append ihx ihy
  | declares notField notRecord =>
    exact fits_single ⟨notRecord, fun kind => absurd kind notField⟩
  | uses => exact fits_single (by rintro ⟨⟩)
  | opens plain _ ih => exact fits_cons plain ih
  | loopOver plain _ _ ihv ihb =>
    exact fits_append (fits_cons plain ihv) (fits_cons (by rintro ⟨⟩) ihb)
  | record _ ih => exact fits_append (fits_record _ _) ih

/-- The steps that are flagged as static are the uses of the initializers of static fields. -/
theorem TranslationUnit.mem_static_uses {unit : TranslationUnit} {within : Place} {value : Expr} :
    .uses within true value ∈ unit.outline .recordsFirst ↔
      ∃ site ∈ unit.recordSites, within = .node site.decl.id ∧
        ∃ field ∈ site.decl.fields, field.isStatic = true ∧ field.initializer = some value := by
  constructor
  · intro member
    obtain ⟨around, site, listed, place, field⟩ := unit.outline_nests.fits _ member rfl
    exact ⟨site, mem_recordSites.mpr ⟨around, listed⟩, place, field⟩
  · rintro ⟨site, listed, rfl, field, declared, isStatic, initializer⟩
    obtain ⟨around, member⟩ := mem_recordSites.mp listed
    have steps : field.outline (.node site.decl.id) ⊆ unit.outline .recordsFirst :=
      unit.outline_nests.fits _ member field declared
    refine steps (List.mem_cons_of_mem _ ?_)
    rw [initializer, isStatic]
    exact List.mem_singleton_self _

/-- What opens a scope in a unit is a record, or a construct without a name. -/
theorem TranslationUnit.opening_cases {unit : TranslationUnit} {opening : Opening}
    (h : opening ∈ unit.openings) :
    (∃ within site, .record within site ∈ unit.outline .recordsFirst ∧
      opening.header = ⟨.record, site.decl.id, site.decl.isStatic, some site.name⟩ ∧
      opening.simpleName = some site.decl.name) ∨
    (opening.header.Plain ∧ opening.simpleName = none) := by
  obtain ⟨item, listed, opens⟩ := mem_openingsOf.mp h
  have member := unit.outline_perm.mem_iff.mpr listed
  cases item with
  | record within site =>
    cases opens
    exact .inl ⟨within, site, member, rfl, rfl⟩
  | opens within header span =>
    cases opens
    exact .inr ⟨unit.outline_nests.fits _ member, rfl⟩
  | declares within item => cases opens
  | uses within inStatic value => cases opens

end NameBinding
