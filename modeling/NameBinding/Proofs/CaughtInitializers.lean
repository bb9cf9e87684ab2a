import NameBinding.Proofs.MappedForms

/-!
# The initializers of caught variables

A walk of a unit passes over the initializers of the variables that catch clauses catch, so an edit
leaves them as they are. A function on expressions that is carried over to the whole unit changes
them like any other expression, but not their number. So where statements come out alike under such
a function, their listings can be compared part by part.
-/

namespace NameBinding

mutual

/-- The initializers of the caught variables in a statement, in source order. -/
def Stmt.caughtInitializers : Stmt → List (Option Expr)
  | .localVar _ | .expr _ | .ret .. => []
  | .block block => block.caughtInitializers
  | .ifElse _ thenBranch none _ => thenBranch.caughtInitializers
  | .ifElse _ thenBranch (some elseBranch) _ =>
    thenBranch.caughtInitializers ++ elseBranch.caughtInitializers
  | .forLoop _ init _ _ body _ => Stmt.caughtInitializersAll init ++ body.caughtInitializers
  | .forEach _ _ _ body _ => body.caughtInitializers
  | .whileLoop _ _ body _ => body.caughtInitializers
  | .tryCatch body catches none _ =>
    body.caughtInitializers ++ CatchClause.caughtInitializersAll catches
  | .tryCatch body catches (some finalizer) _ =>
    body.caughtInitializers ++ CatchClause.caughtInitializersAll catches ++
      finalizer.caughtInitializers
  | .record decl => decl.caughtInitializers

/-- The initializers of the caught variables in a list of statements. -/
def Stmt.caughtInitializersAll : List Stmt → List (Option Expr)
  | [] => []
  | s :: rest => s.caughtInitializers ++ Stmt.caughtInitializersAll rest

/-- The initializers of the caught variables in a block. -/
def Block.caughtInitializers : Block → List (Option Expr)
  | ⟨_, statements, _⟩ => Stmt.caughtInitializersAll statements

/-- The initializers of the variables that catch clauses catch, and of those caught inside them. -/
def CatchClause.caughtInitializersAll : List CatchClause → List (Option Expr)
  | [] => []
  | ⟨_, parameter, _, body, _⟩ :: rest =>
    parameter.initializer :: body.caughtInitializers ++ CatchClause.caughtInitializersAll rest

/-- The initializers of the caught variables in methods. -/
def Method.caughtInitializersAll : List Method → List (Option Expr)
  | [] => []
  | ⟨_, _, _, _, _, none, _⟩ :: rest => Method.caughtInitializersAll rest
  | ⟨_, _, _, _, _, some body, _⟩ :: rest =>
    body.caughtInitializers ++ Method.caughtInitializersAll rest

/-- The initializers of the caught variables in a record. -/
def Record.caughtInitializers : Record → List (Option Expr)
  | ⟨_, _, _, _, _, methods, records, _⟩ =>
    Method.caughtInitializersAll methods ++ Record.caughtInitializersAll records

/-- The initializers of the caught variables in a list of records. -/
def Record.caughtInitializersAll : List Record → List (Option Expr)
  | [] => []
  | r :: rest => r.caughtInitializers ++ Record.caughtInitializersAll rest

end

/-- The initializers of the caught variables of a unit, in source order. -/
def TranslationUnit.caughtInitializers (unit : TranslationUnit) : List (Option Expr) :=
  Record.caughtInitializersAll unit.records

section map

variable {f : Expr → Expr}

mutual

/-- A changed statement catches as many variables, with changed initializers. -/
theorem Stmt.caughtInitializers_mapExprs :
    (s : Stmt) → (s.mapExprs f).caughtInitializers = s.caughtInitializers.map (·.map f)
  | .localVar _ | .expr _ | .ret .. => by
    simp only [Stmt.mapExprs, Stmt.caughtInitializers, List.map_nil]
  | .block block => by
    simp only [Stmt.mapExprs, Stmt.caughtInitializers, Block.caughtInitializers_mapExprs block]
  | .ifElse _ thenBranch none _ => by
    simp only [Stmt.mapExprs, Stmt.caughtInitializers, Stmt.caughtInitializers_mapExprs thenBranch]
  | .ifElse _ thenBranch (some elseBranch) _ => by
    simp only [Stmt.mapExprs, Stmt.caughtInitializers, List.map_append,
      Stmt.caughtInitializers_mapExprs thenBranch, Stmt.caughtInitializers_mapExprs elseBranch]
  | .forLoop _ init _ _ body _ => by
    simp only [Stmt.mapExprs, Stmt.caughtInitializers, List.map_append,
      Stmt.caughtInitializersAll_mapExprs init, Stmt.caughtInitializers_mapExprs body]
  | .forEach _ _ _ body _ => by
    simp only [Stmt.mapExprs, Stmt.caughtInitializers, Stmt.caughtInitializers_mapExprs body]
  | .whileLoop _ _ body _ => by
    simp only [Stmt.mapExprs, Stmt.caughtInitializers, Stmt.caughtInitializers_mapExprs body]
  | .tryCatch body catches none _ => by
    simp only [Stmt.mapExprs, Stmt.caughtInitializers, List.map_append,
      Block.caughtInitializers_mapExprs body, CatchClause.caughtInitializersAll_mapExprs catches]
  | .tryCatch body catches (some finalizer) _ => by
    simp only [Stmt.mapExprs, Stmt.caughtInitializers, List.map_append,
      Block.caughtInitializers_mapExprs body, CatchClause.caughtInitializersAll_mapExprs catches,
      Block.caughtInitializers_mapExprs finalizer]
  | .record decl => by
    simp only [Stmt.mapExprs, Stmt.caughtInitializers, Record.caughtInitializers_mapExprs decl]

/-- Changed statements catch as many variables, with changed initializers. -/
theorem Stmt.caughtInitializersAll_mapExprs :
    (statements : List Stmt) → Stmt.caughtInitializersAll (Stmt.mapExprsAll f statements) =
      (Stmt.caughtInitializersAll statements).map (·.map f)
  | [] => by simp only [Stmt.mapExprsAll, Stmt.caughtInitializersAll, List.map_nil]
  | s :: rest => by
    simp only [Stmt.mapExprsAll, Stmt.caughtInitializersAll, List.map_append,
      Stmt.caughtInitializers_mapExprs s, Stmt.caughtInitializersAll_mapExprs rest]

/-- A changed block catches as many variables, with changed initializers. -/
theorem Block.caughtInitializers_mapExprs :
    (block : Block) → (block.mapExprs f).caughtInitializers = block.caughtInitializers.map (·.map f)
  | ⟨_, statements, _⟩ => by
    simp only [Block.mapExprs, Block.caughtInitializers,
      Stmt.caughtInitializersAll_mapExprs statements]

/-- Changed catch clauses catch as many variables, with changed initializers. -/
theorem CatchClause.caughtInitializersAll_mapExprs :
    (catches : List CatchClause) →
      CatchClause.caughtInitializersAll (CatchClause.mapExprsAll f catches) =
        (CatchClause.caughtInitializersAll catches).map (·.map f)
  | [] => by simp only [CatchClause.mapExprsAll, CatchClause.caughtInitializersAll, List.map_nil]
  | ⟨_, _, _, body, _⟩ :: rest => by
    simp only [CatchClause.mapExprsAll, CatchClause.caughtInitializersAll, LocalDecl.mapExprs,
      List.map_append, List.map_cons, Block.caughtInitializers_mapExprs body,
      CatchClause.caughtInitializersAll_mapExprs rest]

/-- Changed methods catch as many variables, with changed initializers. -/
theorem Method.caughtInitializersAll_mapExprs :
    (methods : List Method) →
      Method.caughtInitializersAll (Method.mapExprsAll f methods) =
        (Method.caughtInitializersAll methods).map (·.map f)
  | [] => by simp only [Method.mapExprsAll, Method.caughtInitializersAll, List.map_nil]
  | ⟨_, _, _, _, _, none, _⟩ :: rest => by
    simp only [Method.mapExprsAll, Method.caughtInitializersAll,
      Method.caughtInitializersAll_mapExprs rest]
  | ⟨_, _, _, _, _, some body, _⟩ :: rest => by
    simp only [Method.mapExprsAll, Method.caughtInitializersAll, List.map_append,
      Block.caughtInitializers_mapExprs body, Method.caughtInitializersAll_mapExprs rest]

/-- A changed record catches as many variables, with changed initializers. -/
theorem Record.caughtInitializers_mapExprs :
    (decl : Record) → (decl.mapExprs f).caughtInitializers = decl.caughtInitializers.map (·.map f)
  | ⟨_, _, _, _, _, methods, records, _⟩ => by
    simp only [Record.mapExprs, Record.caughtInitializers, List.map_append,
      Method.caughtInitializersAll_mapExprs methods, Record.caughtInitializersAll_mapExprs records]

/-- Changed records catch as many variables, with changed initializers. -/
theorem Record.caughtInitializersAll_mapExprs :
    (records : List Record) → Record.caughtInitializersAll (Record.mapExprsAll f records) =
      (Record.caughtInitializersAll records).map (·.map f)
  | [] => by simp only [Record.mapExprsAll, Record.caughtInitializersAll, List.map_nil]
  | r :: rest => by
    simp only [Record.mapExprsAll, Record.caughtInitializersAll, List.map_append,
      Record.caughtInitializers_mapExprs r, Record.caughtInitializersAll_mapExprs rest]

end

end map

/-! ### Edits pass over caught variables -/

section edit

variable {edits : Nat → Edit}

mutual

/-- An edit of a statement leaves the initializers of caught variables alone. -/
theorem Stmt.caughtInitializers_edit (k : Nat) :
    (s : Stmt) → (s.edit edits k).caughtInitializers = s.caughtInitializers
  | .localVar _ | .expr _ | .ret .. => by simp only [Stmt.edit, Stmt.caughtInitializers]
  | .block ⟨_, statements, _⟩ => by
    simp only [Stmt.edit, Stmt.caughtInitializers, Block.caughtInitializers,
      Stmt.caughtInitializersAll_edit k statements]
  | .ifElse _ thenBranch none _ => by
    simp only [Stmt.edit, Stmt.caughtInitializers, Stmt.caughtInitializers_edit _ thenBranch]
  | .ifElse _ thenBranch (some elseBranch) _ => by
    simp only [Stmt.edit, Stmt.caughtInitializers, Stmt.caughtInitializers_edit _ thenBranch,
      Stmt.caughtInitializers_edit _ elseBranch]
  | .forLoop _ init _ _ body _ => by
    simp only [Stmt.edit, Stmt.caughtInitializers, Stmt.caughtInitializersAll_edit _ init,
      Stmt.caughtInitializers_edit _ body]
  | .forEach _ _ _ body _ => by
    simp only [Stmt.edit, Stmt.caughtInitializers, Stmt.caughtInitializers_edit _ body]
  | .whileLoop _ _ body _ => by
    simp only [Stmt.edit, Stmt.caughtInitializers, Stmt.caughtInitializers_edit _ body]
  | .tryCatch ⟨_, statements, _⟩ catches none _ => by
    simp only [Stmt.edit, Stmt.caughtInitializers, Block.caughtInitializers,
      Stmt.caughtInitializersAll_edit _ statements,
      CatchClause.caughtInitializersAll_edit _ catches]
  | .tryCatch ⟨_, statements, _⟩ catches (some ⟨_, last, _⟩) _ => by
    simp only [Stmt.edit, Stmt.caughtInitializers, Block.caughtInitializers,
      Stmt.caughtInitializersAll_edit _ statements,
      CatchClause.caughtInitializersAll_edit _ catches,
      Stmt.caughtInitializersAll_edit _ last]
  | .record decl => by
    simp only [Stmt.edit, Stmt.caughtInitializers, Record.caughtInitializers_edit _ decl]

/-- An edit of statements leaves the initializers of caught variables alone. -/
theorem Stmt.caughtInitializersAll_edit (k : Nat) :
    (statements : List Stmt) → Stmt.caughtInitializersAll (Stmt.editAll edits k statements) =
      Stmt.caughtInitializersAll statements
  | [] => by simp only [Stmt.editAll]
  | s :: rest => by
    simp only [Stmt.editAll, Stmt.caughtInitializersAll, Stmt.caughtInitializers_edit _ s,
      Stmt.caughtInitializersAll_edit _ rest]

/-- An edit of catch clauses leaves the initializers of caught variables alone. -/
theorem CatchClause.caughtInitializersAll_edit (k : Nat) :
    (catches : List CatchClause) →
      CatchClause.caughtInitializersAll (CatchClause.editAll edits k catches) =
        CatchClause.caughtInitializersAll catches
  | [] => by simp only [CatchClause.editAll]
  | ⟨_, _, _, ⟨_, statements, _⟩, _⟩ :: rest => by
    simp only [CatchClause.editAll, CatchClause.caughtInitializersAll, Block.caughtInitializers,
      Stmt.caughtInitializersAll_edit _ statements, CatchClause.caughtInitializersAll_edit _ rest]

/-- An edit of methods leaves the initializers of caught variables alone. -/
theorem Method.caughtInitializersAll_edit (k : Nat) :
    (methods : List Method) →
      Method.caughtInitializersAll (Method.editAll edits k methods) =
        Method.caughtInitializersAll methods
  | [] => by simp only [Method.editAll]
  | ⟨_, _, _, _, _, none, _⟩ :: rest => by
    simp only [Method.editAll, Method.caughtInitializersAll,
      Method.caughtInitializersAll_edit _ rest]
  | ⟨_, _, _, _, _, some ⟨_, statements, _⟩, _⟩ :: rest => by
    simp only [Method.editAll, Method.caughtInitializersAll, Block.caughtInitializers,
      Stmt.caughtInitializersAll_edit _ statements, Method.caughtInitializersAll_edit _ rest]

/-- An edit of a record leaves the initializers of caught variables alone. -/
theorem Record.caughtInitializers_edit (k : Nat) :
    (decl : Record) → (decl.edit edits k).caughtInitializers = decl.caughtInitializers
  | ⟨_, _, _, _, _, methods, records, _⟩ => by
    simp only [Record.edit, Record.caughtInitializers, Method.caughtInitializersAll_edit _ methods,
      Record.caughtInitializersAll_edit _ records]

/-- An edit of records leaves the initializers of caught variables alone. -/
theorem Record.caughtInitializersAll_edit (k : Nat) :
    (records : List Record) → Record.caughtInitializersAll (Record.editAll edits k records) =
      Record.caughtInitializersAll records
  | [] => by simp only [Record.editAll]
  | r :: rest => by
    simp only [Record.editAll, Record.caughtInitializersAll, Record.caughtInitializers_edit _ r,
      Record.caughtInitializersAll_edit _ rest]

end

end edit

/-! ### Listings part by part -/

section split

variable {f : Expr → Expr} {xs ys : List (Option Expr)}

/-- Listings that are equal as a whole are equal part by part if their first parts come out alike,
so that they are equally long. -/
theorem caught_parts {first first' : List (Option Expr)} (same : first ++ xs = first' ++ ys)
    (alike : first.map (·.map f) = first'.map (·.map f)) : first = first' ∧ xs = ys := by
  refine List.append_inj same ?_
  have lengths := congrArg List.length alike
  rwa [List.length_map, List.length_map] at lengths

/-- The listing of a statement ends where that of a statement ends which comes out like it. -/
theorem Stmt.caught_parts {s s' : Stmt} (alike : s.mapExprs f = s'.mapExprs f)
    (same : s.caughtInitializers ++ xs = s'.caughtInitializers ++ ys) :
    s.caughtInitializers = s'.caughtInitializers ∧ xs = ys := by
  refine NameBinding.caught_parts (f := f) same ?_
  rw [← Stmt.caughtInitializers_mapExprs, alike, Stmt.caughtInitializers_mapExprs]

/-- The same of lists of statements. -/
theorem Stmt.caught_partsAll {statements statements' : List Stmt}
    (alike : Stmt.mapExprsAll f statements = Stmt.mapExprsAll f statements')
    (same : Stmt.caughtInitializersAll statements ++ xs =
      Stmt.caughtInitializersAll statements' ++ ys) :
    Stmt.caughtInitializersAll statements = Stmt.caughtInitializersAll statements' ∧ xs = ys := by
  refine NameBinding.caught_parts (f := f) same ?_
  rw [← Stmt.caughtInitializersAll_mapExprs, alike, Stmt.caughtInitializersAll_mapExprs]

/-- The same of catch clauses. -/
theorem CatchClause.caught_partsAll {catches catches' : List CatchClause}
    (alike : CatchClause.mapExprsAll f catches = CatchClause.mapExprsAll f catches')
    (same : CatchClause.caughtInitializersAll catches ++ xs =
      CatchClause.caughtInitializersAll catches' ++ ys) :
    CatchClause.caughtInitializersAll catches = CatchClause.caughtInitializersAll catches' ∧
      xs = ys := by
  refine NameBinding.caught_parts (f := f) same ?_
  rw [← CatchClause.caughtInitializersAll_mapExprs, alike,
    CatchClause.caughtInitializersAll_mapExprs]

/-- The same of methods. -/
theorem Method.caught_partsAll {methods methods' : List Method}
    (alike : Method.mapExprsAll f methods = Method.mapExprsAll f methods')
    (same : Method.caughtInitializersAll methods ++ xs =
      Method.caughtInitializersAll methods' ++ ys) :
    Method.caughtInitializersAll methods = Method.caughtInitializersAll methods' ∧ xs = ys := by
  refine NameBinding.caught_parts (f := f) same ?_
  rw [← Method.caughtInitializersAll_mapExprs, alike, Method.caughtInitializersAll_mapExprs]

/-- The same of records. -/
theorem Record.caught_parts {r r' : Record} (alike : r.mapExprs f = r'.mapExprs f)
    (same : r.caughtInitializers ++ xs = r'.caughtInitializers ++ ys) :
    r.caughtInitializers = r'.caughtInitializers ∧ xs = ys := by
  refine NameBinding.caught_parts (f := f) same ?_
  rw [← Record.caughtInitializers_mapExprs, alike, Record.caughtInitializers_mapExprs]

end split

end NameBinding
