import NameBinding.Proofs.CaughtInitializers
import NameBinding.Syntax.Visit

/-!
# Visiting and editing at once

A walk that may change what it visits calls a visitor on each expression before its operands and
takes the edit that the visitor answers. It goes through the same forms of expressions, statements
and records as the walk that only looks, and stays in step with it: it calls the visitor on the same
expressions in the same order, it changes nothing but the names and slots of these expressions, and
the walk over what it leaves behind meets the same expressions again, each as edited by the answer
to its own call.
-/

namespace NameBinding

/-! ### The calls of the visitor -/

/-- The visitor that notes its calls and answers the `k`-th one with the `k`-th edit, which may
depend on the expression. -/
def noting (edits : Nat → Expr → Edit) (e : Expr) : StateM (List Expr) Edit := do
  let calls ← get
  set (calls ++ [e])
  return edits calls.length e

/-- The edits `plain` are those that the family has for the expressions of a walk, the first one
being the `k`-th. -/
def Along (edits : Nat → Expr → Edit) (plain : Nat → Edit) : Nat → List Expr → Prop
  | _, [] => True
  | k, e :: rest => plain k = edits k e ∧ Along edits plain (k + 1) rest

/-- Edits go along two walks one after the other if they do along each, from where it starts. -/
theorem along_append {edits : Nat → Expr → Edit} {plain : Nat → Edit} {k : Nat}
    {xs ys : List Expr} : Along edits plain k (xs ++ ys) ↔
      Along edits plain k xs ∧ Along edits plain (k + xs.length) ys := by
  induction xs generalizing k with
  | nil => simp [Along]
  | cons e rest ih =>
    rw [List.cons_append, Along, Along, ih, and_assoc, List.length_cons, Nat.add_assoc,
      Nat.add_comm 1]

/-- After `k` calls a visit notes calls on the expressions of a walk and leaves a result, if the
edits `plain` are those of the family along the walk. -/
def Yields {α : Type} (edits : Nat → Expr → Edit) (plain : Nat → Edit) (k : Nat)
    (visit : StateM (List Expr) α) (walk : List Expr) (result : α) : Prop :=
  Along edits plain k walk → ∀ calls : List Expr, calls.length = k →
    visit.run calls = (result, calls ++ walk)

section

variable {edits : Nat → Expr → Edit} {plain : Nat → Edit} {k : Nat}

namespace Yields

variable {α β : Type} {xs ys : List Expr} {a : α} {b : β}

/-- Returning a result visits nothing. -/
theorem pure : Yields edits plain k (pure a) [] a := by
  intro _ calls _
  rw [List.append_nil]
  rfl

/-- One visit after the other. -/
theorem bind {first : StateM (List Expr) α} {rest : α → StateM (List Expr) β}
    (h : Yields edits plain k first xs a)
    (h' : Yields edits plain (k + xs.length) (rest a) ys b) :
    Yields edits plain k (first >>= rest) (xs ++ ys) b := by
  intro along calls count
  obtain ⟨here, further⟩ := along_append.mp along
  have later := h' further (calls ++ xs) (by rw [List.length_append, count])
  rw [StateT.run_bind, h here calls count, ← List.append_assoc, ← later]
  rfl

/-- What is built from the last result. -/
theorem map {last : StateM (List Expr) α} {f : α → β} (h : Yields edits plain k last xs a) :
    Yields edits plain k (last >>= fun a => Pure.pure (f a)) xs (f a) := by
  have whole : Yields edits plain k (last >>= fun a => Pure.pure (f a)) (xs ++ []) (f a) :=
    h.bind pure
  rwa [List.append_nil] at whole

/-- The call of the visitor itself. -/
theorem noting {e : Expr} : Yields edits plain k (noting edits e) [e] (plain k) := by
  intro along calls count
  rw [along.1, ← count]
  rfl

end Yields

mutual

/-- Visiting an expression calls the visitor along its walk and edits it by the answers. -/
theorem Expr.visit_yields (k : Nat) :
    (e : Expr) → Yields edits plain k (e.visit (noting edits)) e.walk (e.edit plain k)
  | .literal .. => by
    rw [Expr.visit, Expr.walk, Expr.edit]
    exact Yields.noting.map
  | .reference _ => by
    rw [Expr.visit, Expr.walk, Expr.edit]
    exact Yields.noting.map
  | .member base _ => by
    rw [Expr.visit, Expr.walk, Expr.edit]
    exact Yields.noting.bind (Expr.visit_yields (k + 1) base).map
  | .call none _ arguments _ => by
    rw [Expr.visit, Expr.walk, Expr.edit]
    exact Yields.noting.bind (Expr.visitAll_yields (k + 1) arguments).map
  | .call (some receiver) _ arguments _ => by
    rw [Expr.visit, Expr.walk, Expr.edit]
    exact Yields.noting.bind
      ((Expr.visit_yields (k + 1) receiver).bind (Expr.visitAll_yields _ arguments).map)
  | .new _ arguments _ => by
    rw [Expr.visit, Expr.walk, Expr.edit]
    exact Yields.noting.bind (Expr.visitAll_yields (k + 1) arguments).map
  | .assign target value _ => by
    rw [Expr.visit, Expr.walk, Expr.edit]
    exact Yields.noting.bind
      ((Expr.visit_yields (k + 1) target).bind (Expr.visit_yields _ value).map)
  | .binary _ left right _ => by
    rw [Expr.visit, Expr.walk, Expr.edit]
    exact Yields.noting.bind
      ((Expr.visit_yields (k + 1) left).bind (Expr.visit_yields _ right).map)
  | .unary _ operand _ => by
    rw [Expr.visit, Expr.walk, Expr.edit]
    exact Yields.noting.bind (Expr.visit_yields (k + 1) operand).map
  | .cast _ operand _ => by
    rw [Expr.visit, Expr.walk, Expr.edit]
    exact Yields.noting.bind (Expr.visit_yields (k + 1) operand).map
  | .index target position _ => by
    rw [Expr.visit, Expr.walk, Expr.edit]
    exact Yields.noting.bind
      ((Expr.visit_yields (k + 1) target).bind (Expr.visit_yields _ position).map)

/-- Visiting several expressions calls the visitor along their walks. -/
theorem Expr.visitAll_yields (k : Nat) :
    (es : List Expr) → Yields edits plain k (Expr.visitAll (noting edits) es) (Expr.walkAll es)
      (Expr.editAll plain k es)
  | [] => by
    rw [Expr.visitAll, Expr.walkAll, Expr.editAll]
    exact Yields.pure
  | e :: rest => by
    rw [Expr.visitAll, Expr.walkAll, Expr.editAll]
    exact (Expr.visit_yields k e).bind (Expr.visitAll_yields _ rest).map

end

/-- Visiting an expression that may be missing calls the visitor along its walk. -/
theorem Expr.visitOption_yields (k : Nat) (value : Option Expr) :
    Yields edits plain k (Expr.visitOption (noting edits) value) (Expr.walkOption value)
      (Expr.editOption plain k value) := by
  cases value with
  | none => exact Yields.pure
  | some e => exact (Expr.visit_yields k e).map

/-- Visiting a local calls the visitor along the walk of its initializer. -/
theorem LocalDecl.visit_yields (k : Nat) (decl : LocalDecl) :
    Yields edits plain k (decl.visit (noting edits)) (Expr.walkOption decl.initializer)
      (decl.edit plain k) :=
  (Expr.visitOption_yields k decl.initializer).map

/-- Visiting fields calls the visitor along the walks of their initializers. -/
theorem Field.visitAll_yields (k : Nat) (fields : List Field) :
    Yields edits plain k (Field.visitAll (noting edits) fields) (Field.walkAll fields)
      (Field.editAll plain k fields) := by
  induction fields generalizing k with
  | nil => exact Yields.pure
  | cons field rest ih =>
    exact (Expr.visitOption_yields k field.initializer).bind (ih _).map

mutual

/-- Visiting a statement calls the visitor along its expressions and edits it by the answers. -/
theorem Stmt.visit_yields (k : Nat) :
    (s : Stmt) → Yields edits plain k (s.visit (noting edits)) s.expressions (s.edit plain k)
  | .localVar decl => by
    rw [Stmt.visit, Stmt.expressions, Stmt.edit]
    exact (LocalDecl.visit_yields k decl).map
  | .expr value => by
    rw [Stmt.visit, Stmt.expressions, Stmt.edit]
    exact (Expr.visit_yields k value).map
  | .ret value _ => by
    rw [Stmt.visit, Stmt.expressions, Stmt.edit]
    exact (Expr.visitOption_yields k value).map
  | .block ⟨_, statements, _⟩ => by
    rw [Stmt.visit, Stmt.expressions, Stmt.edit]
    exact (Stmt.visitAll_yields k statements).map
  | .ifElse condition thenBranch none _ => by
    rw [Stmt.visit, Stmt.expressions, Stmt.edit]
    exact (Expr.visit_yields k condition).bind (Stmt.visit_yields _ thenBranch).map
  | .ifElse condition thenBranch (some elseBranch) _ => by
    rw [Stmt.visit, Stmt.expressions, Stmt.edit, List.append_assoc]
    exact (Expr.visit_yields k condition).bind
      ((Stmt.visit_yields _ thenBranch).bind (Stmt.visit_yields _ elseBranch).map)
  | .forLoop _ init condition update body _ => by
    rw [Stmt.visit, Stmt.expressions, Stmt.edit, List.append_assoc, List.append_assoc]
    exact (Stmt.visitAll_yields k init).bind
      ((Expr.visitOption_yields _ condition).bind
        ((Expr.visitAll_yields _ update).bind (Stmt.visit_yields _ body).map))
  | .forEach _ item iterable body _ => by
    rw [Stmt.visit, Stmt.expressions, Stmt.edit, List.append_assoc]
    exact (LocalDecl.visit_yields k item).bind
      ((Expr.visit_yields _ iterable).bind (Stmt.visit_yields _ body).map)
  | .whileLoop _ condition body _ => by
    rw [Stmt.visit, Stmt.expressions, Stmt.edit]
    exact (Expr.visit_yields k condition).bind (Stmt.visit_yields _ body).map
  | .tryCatch ⟨_, statements, _⟩ catches none _ => by
    rw [Stmt.visit, Stmt.expressions, Stmt.edit]
    exact (Stmt.visitAll_yields k statements).bind (CatchClause.visitAll_yields _ catches).map
  | .tryCatch ⟨_, statements, _⟩ catches (some ⟨_, last, _⟩) _ => by
    rw [Stmt.visit, Stmt.expressions, Stmt.edit, List.append_assoc]
    exact (Stmt.visitAll_yields k statements).bind
      ((CatchClause.visitAll_yields _ catches).bind (Stmt.visitAll_yields _ last).map)
  | .record decl => by
    rw [Stmt.visit, Stmt.expressions, Stmt.edit]
    exact (Record.visit_yields k decl).map

/-- Visiting several statements calls the visitor along their expressions. -/
theorem Stmt.visitAll_yields (k : Nat) :
    (statements : List Stmt) → Yields edits plain k (Stmt.visitAll (noting edits) statements)
      (Stmt.expressionsAll statements) (Stmt.editAll plain k statements)
  | [] => by
    rw [Stmt.visitAll, Stmt.expressionsAll, Stmt.editAll]
    exact Yields.pure
  | s :: rest => by
    rw [Stmt.visitAll, Stmt.expressionsAll, Stmt.editAll]
    exact (Stmt.visit_yields k s).bind (Stmt.visitAll_yields _ rest).map

/-- Visiting catch clauses calls the visitor along the expressions of their bodies. -/
theorem CatchClause.visitAll_yields (k : Nat) :
    (catches : List CatchClause) →
      Yields edits plain k (CatchClause.visitAll (noting edits) catches)
        (CatchClause.expressionsAll catches) (CatchClause.editAll plain k catches)
  | [] => by
    rw [CatchClause.visitAll, CatchClause.expressionsAll, CatchClause.editAll]
    exact Yields.pure
  | ⟨_, _, _, ⟨_, statements, _⟩, _⟩ :: rest => by
    rw [CatchClause.visitAll, CatchClause.expressionsAll, CatchClause.editAll]
    exact (Stmt.visitAll_yields k statements).bind (CatchClause.visitAll_yields _ rest).map

/-- Visiting methods calls the visitor along the expressions of their bodies. -/
theorem Method.visitAll_yields (k : Nat) :
    (methods : List Method) → Yields edits plain k (Method.visitAll (noting edits) methods)
      (Method.expressionsAll methods) (Method.editAll plain k methods)
  | [] => by
    rw [Method.visitAll, Method.expressionsAll, Method.editAll]
    exact Yields.pure
  | ⟨_, _, _, _, _, none, _⟩ :: rest => by
    rw [Method.visitAll, Method.expressionsAll, Method.editAll]
    exact (Method.visitAll_yields k rest).map
  | ⟨_, _, _, _, _, some ⟨_, statements, _⟩, _⟩ :: rest => by
    rw [Method.visitAll, Method.expressionsAll, Method.editAll]
    exact (Stmt.visitAll_yields k statements).bind (Method.visitAll_yields _ rest).map

/-- Visiting a record calls the visitor along its expressions and edits it by the answers. -/
theorem Record.visit_yields (k : Nat) :
    (decl : Record) → Yields edits plain k (decl.visit (noting edits)) decl.expressions
      (decl.edit plain k)
  | ⟨_, _, _, _, fields, methods, records, _⟩ => by
    rw [Record.visit, Record.expressions, Record.edit, List.append_assoc]
    exact (Field.visitAll_yields k fields).bind
      ((Method.visitAll_yields _ methods).bind (Record.visitAll_yields _ records).map)

/-- Visiting several records calls the visitor along their expressions. -/
theorem Record.visitAll_yields (k : Nat) :
    (records : List Record) → Yields edits plain k (Record.visitAll (noting edits) records)
      (Record.expressionsAll records) (Record.editAll plain k records)
  | [] => by
    rw [Record.visitAll, Record.expressionsAll, Record.editAll]
    exact Yields.pure
  | r :: rest => by
    rw [Record.visitAll, Record.expressionsAll, Record.editAll]
    exact (Record.visit_yields k r).bind (Record.visitAll_yields _ rest).map

end

/-- Visiting a unit calls the visitor along its expressions and edits it by the answers. -/
theorem TranslationUnit.visit_yields (unit : TranslationUnit) :
    Yields edits plain 0 (unit.visit (noting edits)) unit.expressions (unit.edit plain) :=
  (Record.visitAll_yields 0 unit.records).map

end

/-! ### What is left behind -/

/-- What stands for an operand that does not matter. -/
def Expr.hole : Expr := .literal .null {}

/-- An expression by itself, whatever its operands. -/
def Expr.own : Expr → Expr
  | .literal value span => .literal value span
  | .reference use => .reference use
  | .member _ access => .member hole access
  | .call receiver name arguments span =>
    .call (receiver.map fun _ => hole) name (arguments.map fun _ => hole) span
  | .new type arguments span => .new type (arguments.map fun _ => hole) span
  | .assign _ _ span => .assign hole hole span
  | .binary operator _ _ span => .binary operator hole hole span
  | .unary operator _ span => .unary operator hole span
  | .cast type _ span => .cast type hole span
  | .index _ _ span => .index hole hole span

mutual

/-- An expression without the names and slots that edits change. -/
def Expr.bare : Expr → Expr
  | .literal value span => .literal value span
  | .reference _ => .reference { id := ⟨0⟩, name := "" }
  | .member base _ => .member base.bare { id := ⟨0⟩, name := "" }
  | .call none _ arguments span => .call none "" (Expr.bareAll arguments) span
  | .call (some receiver) _ arguments span =>
    .call (some receiver.bare) "" (Expr.bareAll arguments) span
  | .new type arguments span => .new type (Expr.bareAll arguments) span
  | .assign target value span => .assign target.bare value.bare span
  | .binary operator left right span => .binary operator left.bare right.bare span
  | .unary operator operand span => .unary operator operand.bare span
  | .cast type operand span => .cast type operand.bare span
  | .index target position span => .index target.bare position.bare span

/-- Several expressions without names and slots. -/
def Expr.bareAll : List Expr → List Expr
  | [] => []
  | e :: rest => e.bare :: Expr.bareAll rest

end

section

variable {edits : Nat → Edit}

mutual

/-- Edits change nothing but names and slots. -/
theorem Expr.bare_edit (k : Nat) : (e : Expr) → (e.edit edits k).bare = e.bare
  | .literal .. | .reference _ => by simp only [Expr.edit, Expr.bare]
  | .member base _ => by simp only [Expr.edit, Expr.bare, Expr.bare_edit (k + 1) base]
  | .call none _ arguments _ => by
    simp only [Expr.edit, Expr.bare, Expr.bareAll_edit (k + 1) arguments]
  | .call (some receiver) _ arguments _ => by
    simp only [Expr.edit, Expr.bare, Expr.bare_edit (k + 1) receiver,
      Expr.bareAll_edit _ arguments]
  | .new _ arguments _ => by
    simp only [Expr.edit, Expr.bare, Expr.bareAll_edit (k + 1) arguments]
  | .assign target value _ => by
    simp only [Expr.edit, Expr.bare, Expr.bare_edit (k + 1) target, Expr.bare_edit _ value]
  | .binary _ left right _ => by
    simp only [Expr.edit, Expr.bare, Expr.bare_edit (k + 1) left, Expr.bare_edit _ right]
  | .unary _ operand _ => by simp only [Expr.edit, Expr.bare, Expr.bare_edit (k + 1) operand]
  | .cast _ operand _ => by simp only [Expr.edit, Expr.bare, Expr.bare_edit (k + 1) operand]
  | .index target position _ => by
    simp only [Expr.edit, Expr.bare, Expr.bare_edit (k + 1) target, Expr.bare_edit _ position]

/-- The same of several expressions. -/
theorem Expr.bareAll_edit (k : Nat) :
    (es : List Expr) → Expr.bareAll (Expr.editAll edits k es) = Expr.bareAll es
  | [] => by simp only [Expr.editAll]
  | e :: rest => by
    simp only [Expr.editAll, Expr.bareAll, Expr.bare_edit k e, Expr.bareAll_edit _ rest]

end

/-- Leaving out names and slots, one does not see edits. -/
theorem ignores_bare (edits : Nat → Edit) : Ignores Expr.bare edits := fun e k => e.bare_edit k

/-- By itself an edited expression is what its own edit makes of it. -/
theorem Expr.own_edit (k : Nat) (e : Expr) :
    (e.edit edits k).own = ((edits k).apply e).own := by
  have ignored : Ignores (fun _ => hole) edits := fun _ _ => rfl
  cases e with
  | call receiver name arguments span =>
    cases receiver <;>
      simp only [Expr.edit, Edit.apply, Expr.own, Expr.map_editAll ignored, Option.map_none,
        Option.map_some]
  | new type arguments span => simp only [Expr.edit, Edit.apply, Expr.own, Expr.map_editAll ignored]
  | literal | reference | member | assign | binary | unary | cast | index =>
    simp only [Expr.edit, Edit.apply, Expr.own]

end

section

variable {edits : Nat → Expr → Edit}

/-- Edits go along a walk if each is the one of its place. -/
theorem along_of_getElem? {plain : Nat → Edit} {k : Nat} {walk : List Expr}
    (same : ∀ i e, walk[i]? = some e → plain (k + i) = edits (k + i) e) :
    Along edits plain k walk := by
  induction walk generalizing k with
  | nil => exact True.intro
  | cons e rest ih =>
    refine ⟨same 0 e rfl, ih fun i other found => ?_⟩
    rw [Nat.add_assoc, Nat.add_comm 1]
    exact same (i + 1) other found

/-- Every family has plain edits along a walk. -/
theorem exists_along (edits : Nat → Expr → Edit) (walk : List Expr) :
    ∃ plain, Along edits plain 0 walk := by
  refine ⟨fun i => (walk[i]?.map (edits i)).getD .keep, along_of_getElem? fun i e found => ?_⟩
  simp [found]

/-- By itself an expression of an edited walk is what the edit of the family makes of it. -/
theorem map_own_editWalk {plain : Nat → Edit} {k : Nat} {walk : List Expr}
    (along : Along edits plain k walk) : (editWalk plain k walk).map Expr.own =
      walk.mapIdx fun i e => ((edits (k + i) e).apply e).own := by
  induction walk generalizing k with
  | nil => rfl
  | cons e rest ih =>
    rw [editWalk_cons, List.map_cons, List.mapIdx_cons, Expr.own_edit, along.1, ih along.2]
    simp only [Nat.add_zero, Nat.add_assoc, Nat.add_comm 1]

/-- A visit of `t` is in step with the walk of such trees. Of its outcome, the tree that is left
behind and the calls of the visitor, the calls are the walk, the tree keeps the rest, and the walk
over it meets the same expressions again, each by itself as edited by the answer to its call. -/
structure InStep {T ρ : Type} (walk : T → List Expr) (rest : T → ρ) (edits : Nat → Expr → Edit)
    (t : T) (outcome : T × List Expr) : Prop where
  calls : outcome.2 = walk t
  kept : rest outcome.1 = rest t
  edited : (walk outcome.1).map Expr.own = (walk t).mapIdx fun k e => ((edits k e).apply e).own

/-- A visit is in step if it leaves behind what the plain edits make of the tree. -/
theorem InStep.of_yields {T ρ : Type} {walk : T → List Expr} {rest : T → ρ} {t : T}
    {visit : StateM (List Expr) T} {edit : (Nat → Edit) → T}
    (yields : ∀ plain, Yields edits plain 0 visit (walk t) (edit plain))
    (kept : ∀ plain, rest (edit plain) = rest t)
    (again : ∀ plain, walk (edit plain) = editWalk plain 0 (walk t)) :
    InStep walk rest edits t (visit.run []) := by
  obtain ⟨plain, along⟩ := exists_along edits (walk t)
  rw [yields plain along [] rfl]
  refine ⟨rfl, kept plain, ?_⟩
  rw [again, map_own_editWalk along]
  simp only [Nat.zero_add]

/-- A statement apart from the names and slots of the expressions that a walk visits: with bare
expressions, and with the initializers of caught variables, which no walk visits, as they are. -/
def Stmt.unvisited (s : Stmt) : Stmt × List (Option Expr) :=
  (s.mapExprs Expr.bare, s.caughtInitializers)

/-- A unit apart from the names and slots of the expressions that a walk visits. -/
def TranslationUnit.unvisited (unit : TranslationUnit) : TranslationUnit × List (Option Expr) :=
  (unit.mapExprs Expr.bare, unit.caughtInitializers)

/-- Visits that edit as they go are in step with the walks that only look. -/
theorem visits_in_step (edits : Nat → Expr → Edit) :
    (∀ e : Expr, InStep Expr.walk Expr.bare edits e ((e.visit (noting edits)).run [])) ∧
    (∀ s : Stmt, InStep Stmt.expressions Stmt.unvisited edits s
      ((s.visit (noting edits)).run [])) ∧
    ∀ unit : TranslationUnit, InStep TranslationUnit.expressions TranslationUnit.unvisited edits
      unit ((unit.visit (noting edits)).run []) := by
  refine ⟨fun e => ?_, fun s => ?_, fun unit => ?_⟩
  · exact .of_yields (fun _ => e.visit_yields 0) (fun _ => e.bare_edit 0) (fun _ => e.walk_edit 0)
  · refine .of_yields (fun _ => s.visit_yields 0) (fun plain => ?_) (fun _ => s.expressions_edit 0)
    exact Prod.ext (s.mapExprs_edit (ignores_bare plain) 0) (s.caughtInitializers_edit 0)
  · refine .of_yields (fun _ => unit.visit_yields) (fun plain => ?_)
      (fun _ => unit.expressions_edit)
    exact Prod.ext (unit.mapExprs_edit (ignores_bare plain))
      (Record.caughtInitializersAll_edit 0 unit.records)

end

end NameBinding
