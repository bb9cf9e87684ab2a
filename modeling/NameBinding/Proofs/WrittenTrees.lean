import NameBinding.Proofs.WrittenFields
import NameBinding.Syntax.Decode
import NameBinding.Syntax.Encode

/-!
# Written trees are read back

What is written for a node is read back as the same node, for every kind of node and any nesting.
Trees and JSON values are compared, not texts. A node that is a statement carries the word of its
form among its own entries, so expressions, local variables, blocks and records are read back with
and without that word. Since the depth of a value bounds how far a reading descends, the
inductions along the syntax go with any number of levels that is not below the depth of the
written value.
-/

namespace NameBinding

open Json

variable {strictness : Strictness} {levels : Nat}

/-! ### Leaves

Steps by definition are written out, since the kernel would try to evaluate comparisons of keys. -/

/-- A form is read from its word. -/
@[simp] theorem Strictness.formOfJson?_str {forms : List String} {word : String}
    (listed : word ∈ forms) : strictness.formOfJson? forms (str word) = some word := by
  rw [formOfJson?, if_pos (List.contains_iff_mem.mpr listed)]

@[simp] theorem Strictness.wordOfJson?_str (word : String) :
    strictness.wordOfJson? (str word) = some word := by rw [wordOfJson?]

@[simp] theorem NodeId.ofJson?_toJson (id : NodeId) : ofJson? id.toJson = some id := by
  simp [ofJson?, toJson]

@[simp] theorem Span.ofJson?_toJson (span : Span) : ofJson? span.toJson = some span := by
  simp -implicitDefEqProofs [ofJson?, toJson]

/-- Resolutions are read back under either strictness. -/
theorem Resolution.readsBack (strictness : Strictness) :
    ReadsBack (ofJson? strictness) toJson where
  same resolution := by
    simp -implicitDefEqProofs [ofJson?, toJson, BindingKind.ofJson?, BindingKind.ofTag?_tag]
  proper := nofun

/-- Written types are read back. -/
theorem TypeRef.readsBack : ReadsBack ofJson? toJson where
  same type := by simp -implicitDefEqProofs [ofJson?, toJson, Span.ofEntries?]
  proper := nofun

@[simp] theorem TypeRef.ofJson?_toJson (type : TypeRef) : ofJson? type.toJson = some type :=
  readsBack.same type

@[simp] theorem Literal.ofJson?_toJson (literal : Literal) :
    ofJson? literal.toJson = some literal := by
  cases literal <;> simp -implicitDefEqProofs [ofJson?, toJson]

/-! ### Expressions -/

section Expressions

/-- The word of an expression's form. -/
def Expr.form : Expr → String
  | .literal .. => "literal"
  | .reference _ => "reference"
  | .member .. => "member"
  | .call .. => "call"
  | .new .. => "new"
  | .assign .. => "assign"
  | .binary .. => "binary"
  | .unary .. => "unary"
  | .cast .. => "cast"
  | .index .. => "index"

attribute [local simp] Expr.entries Expr.form Expr.span

/-- The entries of an expression tell its form. -/
theorem Expr.required?_form (word : Option String) (e : Expr) :
    required? (entryOption "stmt" str word ++ e.entries) "expr"
      (strictness.formOfJson? Expr.forms) = some e.form := by
  cases e with
  | call receiver => cases receiver <;> simp [forms]
  | _ => simp [forms]

/-- The entries of an expression tell where it stands. -/
theorem Expr.ofEntries?_span (word : Option String) (e : Expr) :
    Span.ofEntries? (entryOption "stmt" str word ++ e.entries) = some e.span := by
  cases e with
  | call receiver => cases receiver <;> simp [Span.ofEntries?]
  | _ => simp [Span.ofEntries?]

mutual

/-- An expression is read back, also when it stands as a statement. -/
theorem Expr.readWithin?_entries (strictness : Strictness) (word : Option String) :
    (e : Expr) → (levels : Nat) → (obj e.entries).depth ≤ levels →
      Expr.readWithin? strictness levels (obj (entryOption "stmt" str word ++ e.entries)) = some e
  | e, 0, deep => by simp [depth] at deep
  | e, levels + 1, deep => by
    rw [Expr.readWithin?, bind_of_eq_some entries?_obj, bind_of_eq_some (e.required?_form word),
      bind_of_eq_some (e.ofEntries?_span word)]
    cases e with
    | literal _ _ => simp -implicitDefEqProofs
    | reference _ => simp -implicitDefEqProofs [(Resolution.readsBack _).optional?_eq]
    | member base _ =>
      have readBase : Expr.readWithin? .lenient levels (obj base.entries) = some base :=
        Expr.readWithin?_entries .lenient none base levels
          (depth_le_of_entry deep "base" (by simp))
      simp -implicitDefEqProofs [(Resolution.readsBack _).optional?_eq, readBase]
    | call receiver _ arguments _ =>
      cases receiver with
      | none =>
        have readArguments := Expr.list?_items arguments levels
          (depthAll_le_of_entry deep "arguments" (by simp))
        simp -implicitDefEqProofs [readArguments]
      | some receiver =>
        have readReceiver : Expr.readWithin? .lenient levels (obj receiver.entries) =
            some receiver := Expr.readWithin?_entries .lenient none receiver levels
          (depth_le_of_entry deep "receiver" (by simp))
        have readArguments := Expr.list?_items arguments levels
          (depthAll_le_of_entry deep "arguments" (by simp))
        simp -implicitDefEqProofs [readReceiver, readArguments]
    | new _ arguments _ =>
      have readArguments := Expr.list?_items arguments levels
        (depthAll_le_of_entry deep "arguments" (by simp))
      simp -implicitDefEqProofs [readArguments]
    | assign target value _ =>
      have readTarget : Expr.readWithin? .lenient levels (obj target.entries) = some target :=
        Expr.readWithin?_entries .lenient none target levels
          (depth_le_of_entry deep "target" (by simp))
      have readValue : Expr.readWithin? .lenient levels (obj value.entries) = some value :=
        Expr.readWithin?_entries .lenient none value levels
          (depth_le_of_entry deep "value" (by simp))
      simp -implicitDefEqProofs [readTarget, readValue]
    | binary _ left right _ =>
      have readLeft : Expr.readWithin? .lenient levels (obj left.entries) = some left :=
        Expr.readWithin?_entries .lenient none left levels
          (depth_le_of_entry deep "left" (by simp))
      have readRight : Expr.readWithin? .lenient levels (obj right.entries) = some right :=
        Expr.readWithin?_entries .lenient none right levels
          (depth_le_of_entry deep "right" (by simp))
      simp -implicitDefEqProofs [readLeft, readRight]
    | unary _ operand _ =>
      have readOperand : Expr.readWithin? .lenient levels (obj operand.entries) = some operand :=
        Expr.readWithin?_entries .lenient none operand levels
          (depth_le_of_entry deep "operand" (by simp))
      simp -implicitDefEqProofs [readOperand]
    | cast _ operand _ =>
      have readOperand : Expr.readWithin? .lenient levels (obj operand.entries) = some operand :=
        Expr.readWithin?_entries .lenient none operand levels
          (depth_le_of_entry deep "expression" (by simp))
      simp -implicitDefEqProofs [readOperand]
    | index target position _ =>
      have readTarget : Expr.readWithin? .lenient levels (obj target.entries) = some target :=
        Expr.readWithin?_entries .lenient none target levels
          (depth_le_of_entry deep "target" (by simp))
      have readPosition : Expr.readWithin? .lenient levels (obj position.entries) = some position :=
        Expr.readWithin?_entries .lenient none position levels
          (depth_le_of_entry deep "index" (by simp))
      simp -implicitDefEqProofs [readTarget, readPosition]

/-- Several expressions are read back. -/
theorem Expr.list?_items : (es : List Expr) → (levels : Nat) →
    depthAll (Expr.items es) ≤ levels →
      list? (Expr.readWithin? .lenient levels) (arr (Expr.items es)) = some es
  | [], _, _ => rfl
  | e :: rest, levels, deep => by
    rw [Expr.items, depthAll_cons_le_iff] at deep
    have readFirst : Expr.readWithin? .lenient levels (obj e.entries) = some e :=
      Expr.readWithin?_entries .lenient none e levels deep.1
    have readRest := Expr.list?_items rest levels deep.2
    rw [Expr.items, list?_arr_cons, readFirst, readRest]
    rfl

end

/-- An expression of any depth is read back, also when it stands as a statement. -/
theorem Expr.ofJson?_entries (strictness : Strictness) (word : Option String) (e : Expr) :
    Expr.ofJson? strictness (obj (entryOption "stmt" str word ++ e.entries)) = some e :=
  Expr.readWithin?_entries strictness word e _ (depth_obj_le_append _)

/-- The word of a statement's form is not among the entries of an expression. -/
@[simp] theorem Expr.field?_stmt (e : Expr) : field? e.entries "stmt" = some none := by
  cases e with
  | call receiver => cases receiver <;> simp
  | _ => simp

/-- Expressions are read back under either strictness. -/
theorem Expr.readsBack (strictness : Strictness) : ReadsBack (ofJson? strictness) toJson where
  same e := Expr.ofJson?_entries strictness none e
  proper := nofun

@[simp] theorem Expr.ofJson?_toJson (e : Expr) : ofJson? strictness e.toJson = some e :=
  (readsBack strictness).same e

/-- Expressions are written one by one. -/
theorem Expr.items_eq_map (es : List Expr) : Expr.items es = es.map Expr.toJson := by
  induction es with
  | nil => rfl
  | cons e rest ih => rw [Expr.items, List.map_cons, ih, Expr.toJson]

end Expressions

/-! ### Declarations -/

section Declarations

attribute [local simp] Span.ofEntries?

/-- A local variable is read back, also when it stands as a statement. -/
theorem LocalDecl.ofJson?_entries (word : Option String) (decl : LocalDecl) :
    ofJson? (obj (entryOption "stmt" str word ++ decl.entries)) = some decl := by
  simp -implicitDefEqProofs [ofJson?, entries, (Expr.readsBack _).optional?_eq]

@[simp] theorem LocalDecl.field?_stmt (decl : LocalDecl) :
    field? decl.entries "stmt" = some none := by simp [entries]

@[simp] theorem LocalDecl.ofJson?_toJson (decl : LocalDecl) : ofJson? decl.toJson = some decl :=
  LocalDecl.ofJson?_entries none decl

/-- Fields are read back under either strictness. -/
theorem Field.readsBack (strictness : Strictness) : ReadsBack (ofJson? strictness) toJson where
  same field := by
    simp -implicitDefEqProofs [ofJson?, toJson, (Expr.readsBack _).optional?_eq]
  proper := nofun

/-- Parameters are read back. -/
theorem Parameter.readsBack : ReadsBack ofJson? toJson where
  same parameter := by simp -implicitDefEqProofs [ofJson?, toJson]
  proper := nofun

end Declarations

/-! ### Statements, blocks and records -/

section Statements

attribute [local simp] Span.ofEntries? Stmt.entries

@[simp] theorem Block.field?_stmt (block : Block) : field? block.entries "stmt" = some none := by
  cases block
  simp [entries]

@[simp] theorem Record.field?_stmt (decl : Record) : field? decl.entries "stmt" = some none := by
  cases decl
  simp [entries]

/-- The word of a statement's form. -/
def Stmt.form : Stmt → String
  | .localVar _ => "local"
  | .expr _ => "expression"
  | .block _ => "block"
  | .ifElse .. => "if"
  | .forLoop .. => "for"
  | .forEach .. => "for_each"
  | .whileLoop .. => "while"
  | .tryCatch .. => "try"
  | .ret .. => "return"
  | .record _ => "record"

attribute [local simp] Stmt.form

/-- The entries of a statement tell its form. -/
theorem Stmt.required?_form (s : Stmt) :
    required? s.entries "stmt" (strictness.formOfJson? Stmt.forms) = some s.form := by
  cases s with
  | ifElse _ _ elseBranch => cases elseBranch <;> simp [forms]
  | tryCatch _ _ finalizer => cases finalizer <;> simp [forms]
  | _ => simp [forms]

mutual

/-- A statement is read back. -/
theorem Stmt.readWithin?_entries (strictness : Strictness) : (s : Stmt) → (levels : Nat) →
    (obj s.entries).depth ≤ levels →
      Stmt.readWithin? strictness levels (obj s.entries) = some s
  | s, 0, deep => by simp [depth] at deep
  | s, levels + 1, deep => by
    rw [Stmt.readWithin?, bind_of_eq_some entries?_obj, bind_of_eq_some s.required?_form]
    cases s with
    | localVar decl =>
      have readDecl : LocalDecl.ofJson? (obj (("stmt", str "local") :: decl.entries)) = some decl :=
        decl.ofJson?_entries (some "local")
      simp -implicitDefEqProofs [readDecl]
    | expr value =>
      have readValue : Expr.ofJson? .lenient (obj (("stmt", str "expression") :: value.entries)) =
          some value := value.ofJson?_entries .lenient (some "expression")
      simp -implicitDefEqProofs [readValue]
    | block block =>
      have readBlock : Block.readWith? (Stmt.readWithin? .lenient levels)
          (obj (("stmt", str "block") :: block.entries)) = some block :=
        Block.readWith?_entries .lenient (some "block") block levels
          (Nat.le_trans (depth_obj_le_append [("stmt", str "block")]) deep)
      simp -implicitDefEqProofs [readBlock]
    | ifElse _ thenBranch elseBranch _ =>
      cases elseBranch with
      | none =>
        have readThen := Stmt.readWithin?_entries .lenient thenBranch levels
          (depth_le_of_entry deep "then_branch" (by simp))
        simp -implicitDefEqProofs [readThen]
      | some elseBranch =>
        have readThen := Stmt.readWithin?_entries .lenient thenBranch levels
          (depth_le_of_entry deep "then_branch" (by simp))
        have readElse := Stmt.readWithin?_entries .lenient elseBranch levels
          (depth_le_of_entry deep "else_branch" (by simp))
        simp -implicitDefEqProofs [readThen, readElse]
    | forLoop _ init _ update body _ =>
      have readInit := Stmt.list?_items .lenient init levels
        (depthAll_le_of_entry deep "init" (by simp))
      have readUpdate := (Expr.readsBack .lenient).list?_eq update
      have readBody := Stmt.readWithin?_entries .lenient body levels
        (depth_le_of_entry deep "body" (by simp))
      simp -implicitDefEqProofs [Expr.items_eq_map, (Expr.readsBack _).optional?_eq, readInit,
        readUpdate, readBody]
    | forEach _ _ _ body _ =>
      have readBody := Stmt.readWithin?_entries .lenient body levels
        (depth_le_of_entry deep "body" (by simp))
      simp -implicitDefEqProofs [readBody]
    | whileLoop _ _ body _ =>
      have readBody := Stmt.readWithin?_entries .lenient body levels
        (depth_le_of_entry deep "body" (by simp))
      simp -implicitDefEqProofs [readBody]
    | tryCatch body catches finalizer _ =>
      cases finalizer with
      | none =>
        have readBody : Block.readWith? (Stmt.readWithin? .lenient levels) (obj body.entries) =
            some body := Block.readWith?_entries .lenient none body levels
          (Nat.le_succ_of_le (depth_le_of_entry deep "body" (by simp)))
        have readCatches := CatchClause.list?_items .lenient catches levels
          (depthAll_le_of_entry deep "catches" (by simp))
        simp -implicitDefEqProofs [readBody, readCatches]
      | some finalizer =>
        have readBody : Block.readWith? (Stmt.readWithin? .lenient levels) (obj body.entries) =
            some body := Block.readWith?_entries .lenient none body levels
          (Nat.le_succ_of_le (depth_le_of_entry deep "body" (by simp)))
        have readCatches := CatchClause.list?_items .lenient catches levels
          (depthAll_le_of_entry deep "catches" (by simp))
        have readFinalizer : Block.readWith? (Stmt.readWithin? .lenient levels)
            (obj finalizer.entries) = some finalizer :=
          Block.readWith?_entries .lenient none finalizer levels
            (Nat.le_succ_of_le (depth_le_of_entry deep "finally" (by simp)))
        simp -implicitDefEqProofs [readBody, readCatches, readFinalizer]
    | ret _ _ => simp -implicitDefEqProofs [(Expr.readsBack _).optional?_eq]
    | record decl =>
      have readDecl : Record.readWith? .lenient (Record.readWithin? .lenient levels)
          (Stmt.readWithin? .lenient levels) (obj (("stmt", str "record") :: decl.entries)) =
          some decl :=
        Record.readWith?_entries .lenient (some "record") decl levels
          (Nat.le_trans (depth_obj_le_append [("stmt", str "record")]) deep)
      simp -implicitDefEqProofs [readDecl]

/-- Several statements are read back. -/
theorem Stmt.list?_items (strictness : Strictness) : (ss : List Stmt) → (levels : Nat) →
    depthAll (Stmt.items ss) ≤ levels →
      list? (Stmt.readWithin? strictness levels) (arr (Stmt.items ss)) = some ss
  | [], _, _ => rfl
  | s :: rest, levels, deep => by
    rw [Stmt.items, depthAll_cons_le_iff] at deep
    have readFirst := Stmt.readWithin?_entries strictness s levels deep.1
    have readRest := Stmt.list?_items strictness rest levels deep.2
    rw [Stmt.items, list?_arr_cons, readFirst, readRest]
    rfl

/-- A block is read back, also when it stands as a statement. -/
theorem Block.readWith?_entries (strictness : Strictness) (word : Option String) :
    (block : Block) → (levels : Nat) → (obj block.entries).depth ≤ levels + 1 →
      Block.readWith? (Stmt.readWithin? strictness levels)
        (obj (entryOption "stmt" str word ++ block.entries)) = some block
  | ⟨_, statements, _⟩, levels, deep => by
    have readStatements := Stmt.list?_items strictness statements levels
      (depthAll_le_of_entry deep "statements" (by simp [Block.entries]))
    simp -implicitDefEqProofs [Block.readWith?, Block.entries, readStatements]

/-- Several catch clauses are read back. -/
theorem CatchClause.list?_items (strictness : Strictness) : (clauses : List CatchClause) →
    (levels : Nat) → depthAll (CatchClause.items clauses) ≤ levels →
      list? (CatchClause.readWith? (Stmt.readWithin? strictness levels))
        (arr (CatchClause.items clauses)) = some clauses
  | [], _, _ => rfl
  | ⟨_, _, types, body, _⟩ :: rest, levels, deep => by
    rw [CatchClause.items, depthAll_cons_le_iff] at deep
    have readBody : Block.readWith? (Stmt.readWithin? strictness levels) (obj body.entries) =
        some body := Block.readWith?_entries strictness none body levels
      (Nat.le_succ_of_le (depth_le_of_entry (Nat.le_succ_of_le deep.1) "body" (by simp)))
    have readTypes := TypeRef.readsBack.list?_eq types
    have readRest := CatchClause.list?_items strictness rest levels deep.2
    rw [CatchClause.items, list?_arr_cons, readRest]
    simp -implicitDefEqProofs [CatchClause.readWith?, readBody, readTypes]

/-- Several methods are read back. -/
theorem Method.list?_items (strictness : Strictness) : (methods : List Method) →
    (levels : Nat) → depthAll (Method.items methods) ≤ levels →
      list? (Method.readWith? (Stmt.readWithin? strictness levels))
        (arr (Method.items methods)) = some methods
  | [], _, _ => rfl
  | ⟨_, _, _, _, parameters, none, _⟩ :: rest, levels, deep => by
    rw [Method.items, depthAll_cons_le_iff] at deep
    have readParameters := Parameter.readsBack.list?_eq parameters
    have readRest := Method.list?_items strictness rest levels deep.2
    rw [Method.items, list?_arr_cons, readRest]
    simp -implicitDefEqProofs [Method.readWith?, Method.entries, readParameters]
  | ⟨_, _, _, _, parameters, some body, _⟩ :: rest, levels, deep => by
    rw [Method.items, depthAll_cons_le_iff] at deep
    have readParameters := Parameter.readsBack.list?_eq parameters
    have readBody : Block.readWith? (Stmt.readWithin? strictness levels) (obj body.entries) =
        some body := Block.readWith?_entries strictness none body levels
      (Nat.le_succ_of_le (depth_le_of_entry (Nat.le_succ_of_le deep.1) "body"
        (by simp [Method.entries])))
    have readRest := Method.list?_items strictness rest levels deep.2
    rw [Method.items, list?_arr_cons, readRest]
    simp -implicitDefEqProofs [Method.readWith?, Method.entries, readParameters, readBody]

/-- A record is read back, also when it stands as a statement. -/
theorem Record.readWith?_entries (strictness : Strictness) (word : Option String) :
    (decl : Record) → (levels : Nat) → (obj decl.entries).depth ≤ levels + 1 →
      Record.readWith? strictness (Record.readWithin? strictness levels)
        (Stmt.readWithin? strictness levels)
        (obj (entryOption "stmt" str word ++ decl.entries)) = some decl
  | ⟨_, _, _, _, fields, methods, records, _⟩, levels, deep => by
    have readFields := (Field.readsBack strictness).list?_eq fields
    have readMethods := Method.list?_items strictness methods levels
      (depthAll_le_of_entry deep "methods" (by simp [Record.entries]))
    have readRecords := Record.list?_items strictness records levels
      (depthAll_le_of_entry deep "records" (by simp [Record.entries]))
    simp -implicitDefEqProofs [Record.readWith?, Record.entries, TypeRef.readsBack.optional?_eq,
      readFields, readMethods, readRecords]

/-- Several records are read back. -/
theorem Record.list?_items (strictness : Strictness) : (records : List Record) →
    (levels : Nat) → depthAll (Record.items records) ≤ levels →
      list? (Record.readWithin? strictness levels) (arr (Record.items records)) = some records
  | [], _, _ => rfl
  | _ :: _, 0, deep => by simp [Record.items, depthAll, depth] at deep
  | decl :: rest, levels + 1, deep => by
    rw [Record.items, depthAll_cons_le_iff] at deep
    have readFirst : Record.readWithin? strictness (levels + 1) (obj decl.entries) = some decl :=
      Record.readWith?_entries strictness none decl levels deep.1
    have readRest := Record.list?_items strictness rest (levels + 1) deep.2
    rw [Record.items, list?_arr_cons, readFirst, readRest]
    rfl

end

/-- A statement of any depth is read back. -/
theorem Stmt.readsBack (strictness : Strictness) : ReadsBack (ofJson? strictness) toJson where
  same s := Stmt.readWithin?_entries strictness s _ (Nat.le_refl _)
  proper := nofun

/-- A record of any depth is read back. -/
theorem Record.readsBack (strictness : Strictness) : ReadsBack (ofJson? strictness) toJson where
  same decl := Record.readWith?_entries strictness none decl _ (Nat.le_refl _)
  proper := nofun

/-- Records are written one by one. -/
theorem Record.items_eq_map (records : List Record) :
    Record.items records = records.map Record.toJson := by
  induction records with
  | nil => rfl
  | cons decl rest ih => rw [Record.items, List.map_cons, ih, Record.toJson]

/-- A unit is read back, with its imports left out when there are none. -/
theorem TranslationUnit.readsBack (strictness : Strictness) :
    ReadsBack (ofJson? strictness) toJson where
  same unit := by
    have readRecords := (Record.readsBack strictness).list?_eq unit.records
    rcases unit with ⟨_, _, _, _, _ | ⟨first, others⟩, records, _⟩
    · simp -implicitDefEqProofs [ofJson?, toJson, readsBack_string.optional?_eq,
        Record.items_eq_map, readRecords]
    · have readImports := readsBack_string.list?_eq (first :: others)
      rw [List.map_cons] at readImports
      simp -implicitDefEqProofs [ofJson?, toJson, readsBack_string.optional?_eq,
        Record.items_eq_map, readRecords, readImports]
  proper := nofun

end Statements

/-! ### Round trips -/

/-- Units, statements, expressions and resolutions survive the way through JSON, whatever they
hold and however deep they are nested. -/
theorem trees_roundTrip (strictness : Strictness) :
    RoundTrips (TranslationUnit.ofJson? strictness) TranslationUnit.toJson ∧
      RoundTrips (Stmt.ofJson? strictness) Stmt.toJson ∧
      RoundTrips (Expr.ofJson? strictness) Expr.toJson ∧
      RoundTrips (Resolution.ofJson? strictness) Resolution.toJson :=
  ⟨(TranslationUnit.readsBack strictness).roundTrips, (Stmt.readsBack strictness).roundTrips,
    (Expr.readsBack strictness).roundTrips, (Resolution.readsBack strictness).roundTrips⟩

end NameBinding
