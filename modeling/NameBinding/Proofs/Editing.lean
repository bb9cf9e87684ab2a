import NameBinding.Syntax.Edit

/-!
# What an edit leaves behind

A walk over an edited tree meets the edited expressions in the order of the walk over the tree
itself: the `k`-th of them is what the edits from the `k`-th on make of the `k`-th expression. So
edits change neither the number nor the order of what a walk meets, and two edits one after the
other are one edit.
-/

namespace NameBinding

/-- One edit after the other. -/
def Edit.then (first second : Edit) : Edit where
  reference use := second.reference (first.reference use)
  member access := second.member (first.member access)
  call name := second.call (first.call name)

/-- The expressions of a walk after the edit of the tree, the first one being the `k`-th. -/
def editWalk (edits : Nat → Edit) (k : Nat) (walk : List Expr) : List Expr :=
  walk.mapIdx fun i e => e.edit edits (k + i)

section editWalk

variable {edits : Nat → Edit} {k : Nat}

@[simp] theorem editWalk_nil : editWalk edits k [] = [] := rfl

@[simp] theorem editWalk_cons (e : Expr) (rest : List Expr) :
    editWalk edits k (e :: rest) = e.edit edits k :: editWalk edits (k + 1) rest := by
  unfold editWalk
  rw [List.mapIdx_cons, Nat.add_zero]
  simp only [Nat.add_assoc, Nat.add_comm 1]

/-- A walk is edited part by part, the second part with later edits. -/
@[simp] theorem editWalk_append (xs ys : List Expr) :
    editWalk edits k (xs ++ ys) = editWalk edits k xs ++ editWalk edits (k + xs.length) ys := by
  unfold editWalk
  rw [List.mapIdx_append]
  simp only [Nat.add_assoc, Nat.add_comm xs.length]

/-- An edited walk is as long as before. -/
@[simp] theorem length_editWalk (walk : List Expr) : (editWalk edits k walk).length = walk.length :=
  List.length_mapIdx

/-- A walk over an edited tree meets every expression of the tree edited. -/
theorem exists_mem_editWalk (edits : Nat → Edit) (k : Nat) {walk : List Expr} {e : Expr}
    (h : e ∈ walk) : ∃ i, e.edit edits i ∈ editWalk edits k walk := by
  induction walk generalizing k with
  | nil => cases h
  | cons first rest ih =>
    rw [editWalk_cons]
    rcases List.mem_cons.mp h with rfl | h
    · exact ⟨k, List.mem_cons_self⟩
    · obtain ⟨i, met⟩ := ih (k + 1) h
      exact ⟨i, List.mem_cons_of_mem _ met⟩

end editWalk

section

variable {edits : Nat → Edit}

mutual

/-- A walk over an edited expression meets the edited expressions. -/
theorem Expr.walk_edit (k : Nat) :
    (e : Expr) → (e.edit edits k).walk = editWalk edits k e.walk
  | .literal .. => by simp [Expr.edit, Expr.walk]
  | .reference _ => by simp [Expr.edit, Expr.walk]
  | .member base _ => by
    rw [Expr.edit, Expr.walk, Expr.walk, editWalk_cons, Expr.edit, Expr.walk_edit (k + 1) base]
  | .call none _ arguments _ => by
    rw [Expr.edit, Expr.walk, Expr.walk, editWalk_cons, Expr.edit,
      Expr.walkAll_edit (k + 1) arguments]
  | .call (some receiver) _ arguments _ => by
    rw [Expr.edit, Expr.walk, Expr.walk, editWalk_cons, Expr.edit, editWalk_append,
      Expr.walk_edit (k + 1) receiver, Expr.walkAll_edit _ arguments]
  | .new _ arguments _ => by
    rw [Expr.edit, Expr.walk, Expr.walk, editWalk_cons, Expr.edit,
      Expr.walkAll_edit (k + 1) arguments]
  | .assign target value _ => by
    rw [Expr.edit, Expr.walk, Expr.walk, editWalk_cons, Expr.edit, editWalk_append,
      Expr.walk_edit (k + 1) target, Expr.walk_edit _ value]
  | .binary _ left right _ => by
    rw [Expr.edit, Expr.walk, Expr.walk, editWalk_cons, Expr.edit, editWalk_append,
      Expr.walk_edit (k + 1) left, Expr.walk_edit _ right]
  | .unary _ operand _ => by
    rw [Expr.edit, Expr.walk, Expr.walk, editWalk_cons, Expr.edit, Expr.walk_edit (k + 1) operand]
  | .cast _ operand _ => by
    rw [Expr.edit, Expr.walk, Expr.walk, editWalk_cons, Expr.edit, Expr.walk_edit (k + 1) operand]
  | .index target position _ => by
    rw [Expr.edit, Expr.walk, Expr.walk, editWalk_cons, Expr.edit, editWalk_append,
      Expr.walk_edit (k + 1) target, Expr.walk_edit _ position]

/-- A walk over several edited expressions meets the edited expressions. -/
theorem Expr.walkAll_edit (k : Nat) :
    (es : List Expr) → Expr.walkAll (Expr.editAll edits k es) = editWalk edits k (Expr.walkAll es)
  | [] => by rw [Expr.editAll, Expr.walkAll, editWalk_nil]
  | e :: rest => by
    rw [Expr.editAll, Expr.walkAll, Expr.walkAll, editWalk_append, Expr.walk_edit k e,
      Expr.walkAll_edit _ rest]

end

/-- The walk of an edited expression that may be missing is the edited walk. -/
@[simp] theorem Expr.walkOption_edit (k : Nat) (value : Option Expr) :
    Expr.walkOption (Expr.editOption edits k value) = editWalk edits k (Expr.walkOption value) := by
  cases value with
  | none => rfl
  | some value => exact Expr.walk_edit k value

/-- The walk of edited fields is the edited walk. -/
@[simp] theorem Field.walkAll_edit (k : Nat) (fields : List Field) :
    Field.walkAll (Field.editAll edits k fields) = editWalk edits k (Field.walkAll fields) := by
  induction fields generalizing k with
  | nil => rfl
  | cons field rest ih =>
    have first : Expr.walkOption (Expr.editOption edits k field.initializer) =
        editWalk edits k (Expr.walkOption field.initializer) := Expr.walkOption_edit k _
    have further := ih (k + (Expr.walkOption field.initializer).length)
    simp only [Field.walkAll, Field.editAll, List.flatMap_cons, editWalk_append] at further ⊢
    rw [first, further]

attribute [simp] Expr.walk_edit Expr.walkAll_edit

mutual

/-- A walk over an edited statement meets the edited expressions. -/
theorem Stmt.expressions_edit (k : Nat) :
    (s : Stmt) → (s.edit edits k).expressions = editWalk edits k s.expressions
  | .localVar decl => by simp [Stmt.edit, Stmt.expressions, LocalDecl.edit]
  | .expr value => by simp [Stmt.edit, Stmt.expressions]
  | .ret value _ => by simp [Stmt.edit, Stmt.expressions]
  | .block ⟨_, statements, _⟩ => by
    rw [Stmt.edit, Stmt.expressions, Stmt.expressions, Stmt.expressionsAll_edit k statements]
  | .ifElse condition thenBranch none _ => by
    rw [Stmt.edit, Stmt.expressions, Stmt.expressions, editWalk_append, Expr.walk_edit,
      Stmt.expressions_edit _ thenBranch]
  | .ifElse condition thenBranch (some elseBranch) _ => by
    simp only [Stmt.edit, Stmt.expressions, editWalk_append, Expr.walk_edit, List.length_append,
      Stmt.expressions_edit _ thenBranch, Stmt.expressions_edit _ elseBranch, Nat.add_assoc]
  | .forLoop _ init condition update body _ => by
    simp only [Stmt.edit, Stmt.expressions, editWalk_append, Expr.walkOption_edit,
      Expr.walkAll_edit, List.length_append, Stmt.expressionsAll_edit _ init,
      Stmt.expressions_edit _ body, Nat.add_assoc]
  | .forEach _ item iterable body _ => by
    simp only [Stmt.edit, Stmt.expressions, LocalDecl.edit, editWalk_append, Expr.walkOption_edit,
      Expr.walk_edit, List.length_append, Stmt.expressions_edit _ body, Nat.add_assoc]
  | .whileLoop _ condition body _ => by
    rw [Stmt.edit, Stmt.expressions, Stmt.expressions, editWalk_append, Expr.walk_edit,
      Stmt.expressions_edit _ body]
  | .tryCatch ⟨_, statements, _⟩ catches none _ => by
    rw [Stmt.edit, Stmt.expressions, Stmt.expressions, editWalk_append,
      Stmt.expressionsAll_edit k statements, CatchClause.expressionsAll_edit _ catches]
  | .tryCatch ⟨_, statements, _⟩ catches (some ⟨_, last, _⟩) _ => by
    simp only [Stmt.edit, Stmt.expressions, editWalk_append, List.length_append,
      Stmt.expressionsAll_edit _ statements, CatchClause.expressionsAll_edit _ catches,
      Stmt.expressionsAll_edit _ last, Nat.add_assoc]
  | .record decl => by
    rw [Stmt.edit, Stmt.expressions, Stmt.expressions, Record.expressions_edit k decl]

/-- A walk over edited statements meets the edited expressions. -/
theorem Stmt.expressionsAll_edit (k : Nat) :
    (statements : List Stmt) →
      Stmt.expressionsAll (Stmt.editAll edits k statements) =
        editWalk edits k (Stmt.expressionsAll statements)
  | [] => by rw [Stmt.editAll, Stmt.expressionsAll, editWalk_nil]
  | s :: rest => by
    rw [Stmt.editAll, Stmt.expressionsAll, Stmt.expressionsAll, editWalk_append,
      Stmt.expressions_edit k s, Stmt.expressionsAll_edit _ rest]

/-- A walk over edited catch clauses meets the edited expressions. -/
theorem CatchClause.expressionsAll_edit (k : Nat) :
    (catches : List CatchClause) →
      CatchClause.expressionsAll (CatchClause.editAll edits k catches) =
        editWalk edits k (CatchClause.expressionsAll catches)
  | [] => by rw [CatchClause.editAll, CatchClause.expressionsAll, editWalk_nil]
  | ⟨_, _, _, ⟨_, statements, _⟩, _⟩ :: rest => by
    rw [CatchClause.editAll, CatchClause.expressionsAll, CatchClause.expressionsAll,
      editWalk_append, Stmt.expressionsAll_edit k statements,
      CatchClause.expressionsAll_edit _ rest]

/-- A walk over edited methods meets the edited expressions. -/
theorem Method.expressionsAll_edit (k : Nat) :
    (methods : List Method) →
      Method.expressionsAll (Method.editAll edits k methods) =
        editWalk edits k (Method.expressionsAll methods)
  | [] => by rw [Method.editAll, Method.expressionsAll, editWalk_nil]
  | ⟨_, _, _, _, _, none, _⟩ :: rest => by
    rw [Method.editAll, Method.expressionsAll, Method.expressionsAll,
      Method.expressionsAll_edit k rest]
  | ⟨_, _, _, _, _, some ⟨_, statements, _⟩, _⟩ :: rest => by
    rw [Method.editAll, Method.expressionsAll, Method.expressionsAll, editWalk_append,
      Stmt.expressionsAll_edit k statements, Method.expressionsAll_edit _ rest]

/-- A walk over an edited record meets the edited expressions. -/
theorem Record.expressions_edit (k : Nat) :
    (decl : Record) → (decl.edit edits k).expressions = editWalk edits k decl.expressions
  | ⟨_, _, _, _, fields, methods, records, _⟩ => by
    simp only [Record.edit, Record.expressions, editWalk_append, Field.walkAll_edit,
      List.length_append, Method.expressionsAll_edit _ methods,
      Record.expressionsAll_edit _ records, Nat.add_assoc]

/-- A walk over edited records meets the edited expressions. -/
theorem Record.expressionsAll_edit (k : Nat) :
    (records : List Record) →
      Record.expressionsAll (Record.editAll edits k records) =
        editWalk edits k (Record.expressionsAll records)
  | [] => by rw [Record.editAll, Record.expressionsAll, editWalk_nil]
  | r :: rest => by
    rw [Record.editAll, Record.expressionsAll, Record.expressionsAll, editWalk_append,
      Record.expressions_edit k r, Record.expressionsAll_edit _ rest]

end

/-- A walk over an edited unit meets the edited expressions. -/
theorem TranslationUnit.expressions_edit (unit : TranslationUnit) :
    (unit.edit edits).expressions = editWalk edits 0 unit.expressions :=
  Record.expressionsAll_edit 0 unit.records

end

/-! ### One edit after the other -/

section

variable {first second : Nat → Edit}

mutual

/-- Two edits of an expression are one. -/
theorem Expr.edit_edit (k : Nat) :
    (e : Expr) → (e.edit first k).edit second k = e.edit (fun i => (first i).then (second i)) k
  | .literal .. => by simp only [Expr.edit]
  | .reference _ => by simp only [Expr.edit, Edit.then]
  | .member base _ => by
    simp only [Expr.edit, Edit.then, Expr.edit_edit (k + 1) base]
  | .call none _ arguments _ => by
    simp only [Expr.edit, Edit.then, Expr.editAll_edit (k + 1) arguments]
  | .call (some receiver) _ arguments _ => by
    simp only [Expr.edit, Edit.then, Expr.walk_edit, length_editWalk,
      Expr.edit_edit (k + 1) receiver, Expr.editAll_edit _ arguments]
  | .new _ arguments _ => by
    simp only [Expr.edit, Expr.editAll_edit (k + 1) arguments]
  | .assign target value _ => by
    simp only [Expr.edit, Expr.walk_edit, length_editWalk, Expr.edit_edit (k + 1) target,
      Expr.edit_edit _ value]
  | .binary _ left right _ => by
    simp only [Expr.edit, Expr.walk_edit, length_editWalk, Expr.edit_edit (k + 1) left,
      Expr.edit_edit _ right]
  | .unary _ operand _ => by
    simp only [Expr.edit, Expr.edit_edit (k + 1) operand]
  | .cast _ operand _ => by
    simp only [Expr.edit, Expr.edit_edit (k + 1) operand]
  | .index target position _ => by
    simp only [Expr.edit, Expr.walk_edit, length_editWalk, Expr.edit_edit (k + 1) target,
      Expr.edit_edit _ position]

/-- Two edits of several expressions are one. -/
theorem Expr.editAll_edit (k : Nat) :
    (es : List Expr) → Expr.editAll second k (Expr.editAll first k es) =
      Expr.editAll (fun i => (first i).then (second i)) k es
  | [] => by rw [Expr.editAll, Expr.editAll, Expr.editAll]
  | e :: rest => by
    simp only [Expr.editAll, Expr.walk_edit, length_editWalk, Expr.edit_edit k e,
      Expr.editAll_edit _ rest]

end

/-- The same of an expression that may be missing. -/
theorem Expr.editOption_edit (k : Nat) (value : Option Expr) :
    Expr.editOption second k (Expr.editOption first k value) =
      Expr.editOption (fun i => (first i).then (second i)) k value := by
  cases value with
  | none => rfl
  | some value => exact congrArg some (Expr.edit_edit k value)

/-- The same of the initializer of a local. -/
theorem LocalDecl.edit_edit (k : Nat) (decl : LocalDecl) :
    (decl.edit first k).edit second k = decl.edit (fun i => (first i).then (second i)) k := by
  simp only [LocalDecl.edit, Expr.editOption_edit]

/-- The same of the initializers of fields. -/
theorem Field.editAll_edit (k : Nat) (fields : List Field) :
    Field.editAll second k (Field.editAll first k fields) =
      Field.editAll (fun i => (first i).then (second i)) k fields := by
  induction fields generalizing k with
  | nil => rfl
  | cons field rest ih =>
    simp only [Field.editAll, Expr.editOption_edit, Expr.walkOption_edit, length_editWalk, ih]

mutual

/-- Two edits of a statement are one. -/
theorem Stmt.edit_edit (k : Nat) :
    (s : Stmt) → (s.edit first k).edit second k = s.edit (fun i => (first i).then (second i)) k
  | .localVar decl => by simp only [Stmt.edit, LocalDecl.edit_edit]
  | .expr value => by simp only [Stmt.edit, Expr.edit_edit]
  | .ret value _ => by simp only [Stmt.edit, Expr.editOption_edit]
  | .block ⟨_, statements, _⟩ => by simp only [Stmt.edit, Stmt.editAll_edit k statements]
  | .ifElse condition thenBranch none _ => by
    simp only [Stmt.edit, Expr.edit_edit, Expr.walk_edit, length_editWalk,
      Stmt.edit_edit _ thenBranch]
  | .ifElse condition thenBranch (some elseBranch) _ => by
    simp only [Stmt.edit, Expr.edit_edit, Expr.walk_edit, Stmt.expressions_edit, length_editWalk,
      Stmt.edit_edit _ thenBranch, Stmt.edit_edit _ elseBranch]
  | .forLoop _ init condition update body _ => by
    simp only [Stmt.edit, Expr.editOption_edit, Expr.editAll_edit, Expr.walkOption_edit,
      Expr.walkAll_edit, Stmt.expressionsAll_edit, length_editWalk, Stmt.editAll_edit k init,
      Stmt.edit_edit _ body]
  | .forEach _ item iterable body _ => by
    simp only [Stmt.edit, LocalDecl.edit, Expr.editOption_edit, Expr.edit_edit,
      Expr.walkOption_edit, Expr.walk_edit, length_editWalk, Stmt.edit_edit _ body]
  | .whileLoop _ condition body _ => by
    simp only [Stmt.edit, Expr.edit_edit, Expr.walk_edit, length_editWalk, Stmt.edit_edit _ body]
  | .tryCatch ⟨_, statements, _⟩ catches none _ => by
    simp only [Stmt.edit, Stmt.expressionsAll_edit, length_editWalk,
      Stmt.editAll_edit k statements, CatchClause.editAll_edit _ catches]
  | .tryCatch ⟨_, statements, _⟩ catches (some ⟨_, last, _⟩) _ => by
    simp only [Stmt.edit, Stmt.expressionsAll_edit, CatchClause.expressionsAll_edit,
      length_editWalk, Stmt.editAll_edit _ statements, CatchClause.editAll_edit _ catches,
      Stmt.editAll_edit _ last]
  | .record decl => by simp only [Stmt.edit, Record.edit_edit k decl]

/-- Two edits of several statements are one. -/
theorem Stmt.editAll_edit (k : Nat) :
    (statements : List Stmt) →
      Stmt.editAll second k (Stmt.editAll first k statements) =
        Stmt.editAll (fun i => (first i).then (second i)) k statements
  | [] => by rw [Stmt.editAll, Stmt.editAll, Stmt.editAll]
  | s :: rest => by
    simp only [Stmt.editAll, Stmt.expressions_edit, length_editWalk, Stmt.edit_edit k s,
      Stmt.editAll_edit _ rest]

/-- Two edits of catch clauses are one. -/
theorem CatchClause.editAll_edit (k : Nat) :
    (catches : List CatchClause) →
      CatchClause.editAll second k (CatchClause.editAll first k catches) =
        CatchClause.editAll (fun i => (first i).then (second i)) k catches
  | [] => by rw [CatchClause.editAll, CatchClause.editAll, CatchClause.editAll]
  | ⟨_, _, _, ⟨_, statements, _⟩, _⟩ :: rest => by
    simp only [CatchClause.editAll, Stmt.expressionsAll_edit, length_editWalk,
      Stmt.editAll_edit k statements, CatchClause.editAll_edit _ rest]

/-- Two edits of methods are one. -/
theorem Method.editAll_edit (k : Nat) :
    (methods : List Method) →
      Method.editAll second k (Method.editAll first k methods) =
        Method.editAll (fun i => (first i).then (second i)) k methods
  | [] => by rw [Method.editAll, Method.editAll, Method.editAll]
  | ⟨_, _, _, _, _, none, _⟩ :: rest => by
    simp only [Method.editAll, Method.editAll_edit k rest]
  | ⟨_, _, _, _, _, some ⟨_, statements, _⟩, _⟩ :: rest => by
    simp only [Method.editAll, Stmt.expressionsAll_edit, length_editWalk,
      Stmt.editAll_edit k statements, Method.editAll_edit _ rest]

/-- Two edits of a record are one. -/
theorem Record.edit_edit (k : Nat) :
    (decl : Record) →
      (decl.edit first k).edit second k = decl.edit (fun i => (first i).then (second i)) k
  | ⟨_, _, _, _, fields, methods, records, _⟩ => by
    simp only [Record.edit, Field.editAll_edit, Field.walkAll_edit, Method.expressionsAll_edit,
      length_editWalk, Method.editAll_edit _ methods, Record.editAll_edit _ records]

/-- Two edits of several records are one. -/
theorem Record.editAll_edit (k : Nat) :
    (records : List Record) →
      Record.editAll second k (Record.editAll first k records) =
        Record.editAll (fun i => (first i).then (second i)) k records
  | [] => by rw [Record.editAll, Record.editAll, Record.editAll]
  | r :: rest => by
    simp only [Record.editAll, Record.expressions_edit, length_editWalk, Record.edit_edit k r,
      Record.editAll_edit _ rest]

end

/-- Two edits of a unit are one. -/
theorem TranslationUnit.edit_edit (unit : TranslationUnit) :
    (unit.edit first).edit second = unit.edit fun i => (first i).then (second i) := by
  simp only [TranslationUnit.edit, Record.editAll_edit]

end

end NameBinding
