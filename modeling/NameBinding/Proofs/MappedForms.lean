import NameBinding.Proofs.MappedOutline

/-!
# What has the same image

A function on expressions that is carried over to statements keeps their forms. So a statement that
comes out like one of a given form has this form, and its parts come out like the parts of the
other. One lemma says so for each form of statements; lists of statements, catch clauses, methods
and records are told apart in the same way.
-/

namespace NameBinding

variable {f : Expr → Expr}

/-! ### Statements -/

namespace Stmt

/-- A choice is changed part by part, with an `else` branch or without. -/
theorem mapExprs_ifElse (f : Expr → Expr) (condition : Expr) (thenBranch : Stmt)
    (elseBranch : Option Stmt) (span : Span) :
    (ifElse condition thenBranch elseBranch span).mapExprs f =
      .ifElse (f condition) (thenBranch.mapExprs f) (elseBranch.map (·.mapExprs f)) span := by
  cases elseBranch <;> simp [mapExprs]

/-- A `try` statement is changed part by part, with a `finally` block or without. -/
theorem mapExprs_tryCatch (f : Expr → Expr) (body : Block) (catches : List CatchClause)
    (finalizer : Option Block) (span : Span) :
    (tryCatch body catches finalizer span).mapExprs f =
      .tryCatch (body.mapExprs f) (CatchClause.mapExprsAll f catches)
        (finalizer.map (·.mapExprs f)) span := by
  cases finalizer <;> simp [mapExprs]

variable {other body : Stmt} {condition : Expr} {id : NodeId} {span : Span}

/-- What comes out like a declaration of a local is one. -/
theorem eq_localVar_of_mapExprs {decl : LocalDecl}
    (same : (localVar decl).mapExprs f = other.mapExprs f) :
    ∃ decl', other = .localVar decl' ∧ decl.mapExprs f = decl'.mapExprs f := by
  cases other with
  | localVar decl' =>
    simp only [mapExprs, localVar.injEq] at same
    exact ⟨decl', rfl, same⟩
  | _ => simp [mapExprs, mapExprs_ifElse, mapExprs_tryCatch] at same

/-- What comes out like an expression by itself is one. -/
theorem eq_expr_of_mapExprs {value : Expr} (same : (expr value).mapExprs f = other.mapExprs f) :
    ∃ value', other = .expr value' ∧ f value = f value' := by
  cases other with
  | expr value' =>
    simp only [mapExprs, expr.injEq] at same
    exact ⟨value', rfl, same⟩
  | _ => simp [mapExprs, mapExprs_ifElse, mapExprs_tryCatch] at same

/-- What comes out like a `return` is one. -/
theorem eq_ret_of_mapExprs {value : Option Expr}
    (same : (ret value span).mapExprs f = other.mapExprs f) :
    ∃ value', other = .ret value' span ∧ value.map f = value'.map f := by
  cases other with
  | ret value' span' =>
    simp only [mapExprs, ret.injEq] at same
    obtain ⟨values, rfl⟩ := same
    exact ⟨value', rfl, values⟩
  | _ => simp [mapExprs, mapExprs_ifElse, mapExprs_tryCatch] at same

/-- What comes out like a block is one. -/
theorem eq_block_of_mapExprs {statements : List Stmt}
    (same : (block ⟨id, statements, span⟩).mapExprs f = other.mapExprs f) :
    ∃ statements', other = .block ⟨id, statements', span⟩ ∧
      mapExprsAll f statements = mapExprsAll f statements' := by
  cases other with
  | block block' =>
    obtain ⟨id', statements', span'⟩ := block'
    simp only [mapExprs, Block.mapExprs, block.injEq, Block.mk.injEq] at same
    obtain ⟨rfl, statements, rfl⟩ := same
    exact ⟨statements', rfl, statements⟩
  | _ => simp [mapExprs, mapExprs_ifElse, mapExprs_tryCatch] at same

/-- What comes out like a choice is one, and both have an `else` branch or neither has. -/
theorem eq_ifElse_of_mapExprs {thenBranch : Stmt} {elseBranch : Option Stmt}
    (same : (ifElse condition thenBranch elseBranch span).mapExprs f = other.mapExprs f) :
    ∃ condition' thenBranch' elseBranch',
      other = .ifElse condition' thenBranch' elseBranch' span ∧ f condition = f condition' ∧
        thenBranch.mapExprs f = thenBranch'.mapExprs f ∧
        elseBranch.map (·.mapExprs f) = elseBranch'.map (·.mapExprs f) := by
  cases other with
  | ifElse condition' thenBranch' elseBranch' span' =>
    simp only [mapExprs_ifElse, ifElse.injEq] at same
    obtain ⟨conditions, thens, elses, rfl⟩ := same
    exact ⟨condition', thenBranch', elseBranch', rfl, conditions, thens, elses⟩
  | _ => simp [mapExprs, mapExprs_ifElse, mapExprs_tryCatch] at same

/-- What comes out like a `for` loop is one. -/
theorem eq_forLoop_of_mapExprs {init : List Stmt} {condition : Option Expr} {update : List Expr}
    (same : (forLoop id init condition update body span).mapExprs f = other.mapExprs f) :
    ∃ init' condition' update' body', other = .forLoop id init' condition' update' body' span ∧
      mapExprsAll f init = mapExprsAll f init' ∧ condition.map f = condition'.map f ∧
        update.map f = update'.map f ∧ body.mapExprs f = body'.mapExprs f := by
  cases other with
  | forLoop id' init' condition' update' body' span' =>
    simp only [mapExprs, forLoop.injEq] at same
    obtain ⟨rfl, inits, conditions, updates, bodies, rfl⟩ := same
    exact ⟨init', condition', update', body', rfl, inits, conditions, updates, bodies⟩
  | _ => simp [mapExprs, mapExprs_ifElse, mapExprs_tryCatch] at same

/-- What comes out like a loop over the elements of a value is one. -/
theorem eq_forEach_of_mapExprs {item : LocalDecl} {iterable : Expr}
    (same : (forEach id item iterable body span).mapExprs f = other.mapExprs f) :
    ∃ item' iterable' body', other = .forEach id item' iterable' body' span ∧
      item.mapExprs f = item'.mapExprs f ∧ f iterable = f iterable' ∧
        body.mapExprs f = body'.mapExprs f := by
  cases other with
  | forEach id' item' iterable' body' span' =>
    simp only [mapExprs, forEach.injEq] at same
    obtain ⟨rfl, items, iterables, bodies, rfl⟩ := same
    exact ⟨item', iterable', body', rfl, items, iterables, bodies⟩
  | _ => simp [mapExprs, mapExprs_ifElse, mapExprs_tryCatch] at same

/-- What comes out like a `while` loop is one. -/
theorem eq_whileLoop_of_mapExprs
    (same : (whileLoop id condition body span).mapExprs f = other.mapExprs f) :
    ∃ condition' body', other = .whileLoop id condition' body' span ∧
      f condition = f condition' ∧ body.mapExprs f = body'.mapExprs f := by
  cases other with
  | whileLoop id' condition' body' span' =>
    simp only [mapExprs, whileLoop.injEq] at same
    obtain ⟨rfl, conditions, bodies, rfl⟩ := same
    exact ⟨condition', body', rfl, conditions, bodies⟩
  | _ => simp [mapExprs, mapExprs_ifElse, mapExprs_tryCatch] at same

/-- What comes out like a `try` statement is one, and both have a `finally` block or neither has. -/
theorem eq_tryCatch_of_mapExprs {statements : List Stmt} {blockSpan : Span}
    {catches : List CatchClause} {finalizer : Option Block}
    (same : (tryCatch ⟨id, statements, blockSpan⟩ catches finalizer span).mapExprs f =
      other.mapExprs f) :
    ∃ statements' catches' finalizer',
      other = .tryCatch ⟨id, statements', blockSpan⟩ catches' finalizer' span ∧
        mapExprsAll f statements = mapExprsAll f statements' ∧
        CatchClause.mapExprsAll f catches = CatchClause.mapExprsAll f catches' ∧
        finalizer.map (·.mapExprs f) = finalizer'.map (·.mapExprs f) := by
  cases other with
  | tryCatch body' catches' finalizer' span' =>
    obtain ⟨id', statements', blockSpan'⟩ := body'
    simp only [mapExprs_tryCatch, Block.mapExprs, tryCatch.injEq, Block.mk.injEq] at same
    obtain ⟨⟨rfl, statements, rfl⟩, handlers, lasts, rfl⟩ := same
    exact ⟨statements', catches', finalizer', rfl, statements, handlers, lasts⟩
  | _ => simp [mapExprs, mapExprs_ifElse, mapExprs_tryCatch] at same

/-- What comes out like a local record is one. -/
theorem eq_record_of_mapExprs {decl : Record}
    (same : (record decl).mapExprs f = other.mapExprs f) :
    ∃ decl', other = .record decl' ∧ decl.mapExprs f = decl'.mapExprs f := by
  cases other with
  | record decl' =>
    simp only [mapExprs, record.injEq] at same
    exact ⟨decl', rfl, same⟩
  | _ => simp [mapExprs, mapExprs_ifElse, mapExprs_tryCatch] at same

/-- What comes out like an empty list of statements is empty. -/
theorem eq_nil_of_mapExprsAll {others : List Stmt}
    (same : mapExprsAll f [] = mapExprsAll f others) : others = [] := by
  cases others with
  | nil => rfl
  | cons _ _ => simp [mapExprsAll] at same

/-- What comes out like a first statement and further ones is a first statement and further ones. -/
theorem eq_cons_of_mapExprsAll {s : Stmt} {rest others : List Stmt}
    (same : mapExprsAll f (s :: rest) = mapExprsAll f others) :
    ∃ s' rest', others = s' :: rest' ∧ s.mapExprs f = s'.mapExprs f ∧
      mapExprsAll f rest = mapExprsAll f rest' := by
  cases others with
  | nil => simp [mapExprsAll] at same
  | cons s' rest' =>
    simp only [mapExprsAll, List.cons.injEq] at same
    exact ⟨s', rest', rfl, same.1, same.2⟩

end Stmt

/-! ### Blocks, clauses, methods and records -/

/-- What comes out like a block that is there is a block of the same id and place. -/
theorem Block.eq_some_of_mapExprs {id : NodeId} {statements : List Stmt} {span : Span}
    {block' : Option Block}
    (same : some ((⟨id, statements, span⟩ : Block).mapExprs f) = block'.map (·.mapExprs f)) :
    ∃ statements', block' = some ⟨id, statements', span⟩ ∧
      Stmt.mapExprsAll f statements = Stmt.mapExprsAll f statements' := by
  obtain ⟨⟨id', statements', span'⟩, rfl, alike⟩ := Option.map_eq_some_iff.mp same.symm
  simp only [Block.mapExprs, Block.mk.injEq] at alike
  obtain ⟨rfl, statements, rfl⟩ := alike
  exact ⟨statements', rfl, statements.symm⟩

/-- Locals that come out alike are the same if they had the same initializer before. -/
theorem LocalDecl.eq_of_mapExprs {decl decl' : LocalDecl}
    (same : decl.mapExprs f = decl'.mapExprs f)
    (initializers : decl.initializer = decl'.initializer) : decl = decl' := by
  obtain ⟨id, name, type, initializer, span⟩ := decl
  obtain ⟨id', name', type', initializer', span'⟩ := decl'
  simp only [LocalDecl.mapExprs, LocalDecl.mk.injEq] at same
  obtain ⟨rfl, rfl, rfl, -, rfl⟩ := same
  cases initializers
  rfl

namespace CatchClause

/-- What comes out like no catch clauses is none. -/
theorem eq_nil_of_mapExprsAll {others : List CatchClause}
    (same : mapExprsAll f [] = mapExprsAll f others) : others = [] := by
  cases others with
  | nil => rfl
  | cons clause' _ =>
    obtain ⟨_, _, _, _, _⟩ := clause'
    simp [mapExprsAll] at same

/-- What comes out like a first clause and further ones is a first clause and further ones. -/
theorem eq_cons_of_mapExprsAll {id bodyId : NodeId} {parameter : LocalDecl} {types : List TypeRef}
    {statements : List Stmt} {bodySpan span : Span} {rest others : List CatchClause}
    (same : mapExprsAll f (⟨id, parameter, types, ⟨bodyId, statements, bodySpan⟩, span⟩ :: rest) =
      mapExprsAll f others) :
    ∃ parameter' statements' rest',
      others = ⟨id, parameter', types, ⟨bodyId, statements', bodySpan⟩, span⟩ :: rest' ∧
        parameter.mapExprs f = parameter'.mapExprs f ∧
        Stmt.mapExprsAll f statements = Stmt.mapExprsAll f statements' ∧
        mapExprsAll f rest = mapExprsAll f rest' := by
  cases others with
  | nil => simp [mapExprsAll] at same
  | cons clause' rest' =>
    obtain ⟨id', parameter', types', ⟨bodyId', statements', bodySpan'⟩, span'⟩ := clause'
    simp only [mapExprsAll, Block.mapExprs, List.cons.injEq, CatchClause.mk.injEq,
      Block.mk.injEq] at same
    obtain ⟨⟨rfl, parameters, rfl, ⟨rfl, statements, rfl⟩, rfl⟩, others⟩ := same
    exact ⟨parameter', statements', rest', rfl, parameters, statements, others⟩

end CatchClause

namespace Method

/-- A method is changed in its body, if it has one. -/
theorem mapExprsAll_cons (f : Expr → Expr) (id : NodeId) (name : String)
    (isStatic isConstructor : Bool) (parameters : List Parameter) (body : Option Block)
    (span : Span) (rest : List Method) :
    mapExprsAll f (⟨id, name, isStatic, isConstructor, parameters, body, span⟩ :: rest) =
      ⟨id, name, isStatic, isConstructor, parameters, body.map (·.mapExprs f), span⟩ ::
        mapExprsAll f rest := by
  cases body <;> simp [mapExprsAll]

/-- What comes out like no methods is none. -/
theorem eq_nil_of_mapExprsAll {others : List Method}
    (same : mapExprsAll f [] = mapExprsAll f others) : others = [] := by
  cases others with
  | nil => rfl
  | cons method' _ =>
    obtain ⟨_, _, _, _, _, _, _⟩ := method'
    simp [mapExprsAll, mapExprsAll_cons] at same

/-- What comes out like a first method and further ones is a first method and further ones, and both
first ones have a body or neither has. -/
theorem eq_cons_of_mapExprsAll {id : NodeId} {name : String} {isStatic isConstructor : Bool}
    {parameters : List Parameter} {body : Option Block} {span : Span} {rest others : List Method}
    (same : mapExprsAll f (⟨id, name, isStatic, isConstructor, parameters, body, span⟩ :: rest) =
      mapExprsAll f others) :
    ∃ body' rest',
      others = ⟨id, name, isStatic, isConstructor, parameters, body', span⟩ :: rest' ∧
        body.map (·.mapExprs f) = body'.map (·.mapExprs f) ∧
        mapExprsAll f rest = mapExprsAll f rest' := by
  cases others with
  | nil => simp [mapExprsAll, mapExprsAll_cons] at same
  | cons method' rest' =>
    obtain ⟨id', name', isStatic', isConstructor', parameters', body', span'⟩ := method'
    simp only [mapExprsAll_cons, List.cons.injEq, Method.mk.injEq] at same
    obtain ⟨⟨rfl, rfl, rfl, rfl, rfl, bodies, rfl⟩, others⟩ := same
    exact ⟨body', rest', rfl, bodies, others⟩

end Method

namespace Record

/-- What comes out like a record is a record of the same header. -/
theorem eq_of_mapExprs {id : NodeId} {name : String} {superclass : Option TypeRef}
    {isStatic : Bool} {fields : List Field} {methods : List Method} {records : List Record}
    {span : Span} {other : Record}
    (same : (⟨id, name, superclass, isStatic, fields, methods, records, span⟩ : Record).mapExprs f =
      other.mapExprs f) :
    ∃ fields' methods' records',
      other = ⟨id, name, superclass, isStatic, fields', methods', records', span⟩ ∧
        fields.map (Field.mapExprs f) = fields'.map (Field.mapExprs f) ∧
        Method.mapExprsAll f methods = Method.mapExprsAll f methods' ∧
        mapExprsAll f records = mapExprsAll f records' := by
  obtain ⟨id', name', superclass', isStatic', fields', methods', records', span'⟩ := other
  simp only [mapExprs, Record.mk.injEq] at same
  obtain ⟨rfl, rfl, rfl, rfl, fields, methods, records, rfl⟩ := same
  exact ⟨fields', methods', records', rfl, fields, methods, records⟩

/-- What comes out like no records is none. -/
theorem eq_nil_of_mapExprsAll {others : List Record}
    (same : mapExprsAll f [] = mapExprsAll f others) : others = [] := by
  cases others with
  | nil => rfl
  | cons _ _ => simp [mapExprsAll] at same

/-- What comes out like a first record and further ones is a first record and further ones. -/
theorem eq_cons_of_mapExprsAll {r : Record} {rest others : List Record}
    (same : mapExprsAll f (r :: rest) = mapExprsAll f others) :
    ∃ r' rest', others = r' :: rest' ∧ r.mapExprs f = r'.mapExprs f ∧
      mapExprsAll f rest = mapExprsAll f rest' := by
  cases others with
  | nil => simp [mapExprsAll] at same
  | cons r' rest' =>
    simp only [mapExprsAll, List.cons.injEq] at same
    exact ⟨r', rest', rfl, same.1, same.2⟩

end Record

end NameBinding
