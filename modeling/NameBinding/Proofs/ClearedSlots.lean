import NameBinding.Proofs.Blindness
import NameBinding.Proofs.CaughtInitializers

/-!
# What is left of old results

An analysis that succeeds writes into every slot that a walk of the unit reaches, and the value it
writes does not depend on what was there. The walk passes over the initializers of caught
variables, so their slots keep what they held: two units that differ in their slots only come out
equal exactly if the initializers of their caught variables were equal before.
-/

namespace NameBinding

/-! ### What is filled does not depend on what was there -/

section fill

variable {edit : Edit}

/-- An edit that overwrites the slots, whatever they hold. -/
structure Edit.Overwrites (edit : Edit) : Prop where
  reference : ∀ use : Reference, edit.reference use.blank = edit.reference use
  member : ∀ access : MemberName, edit.member access.blank = edit.member access

mutual

/-- An edit that overwrites the slots makes the same of an expression and of its blank copy. -/
theorem Expr.edit_eq_edit_blank (writes : edit.Overwrites) (k j : Nat) :
    (e : Expr) → e.edit (fun _ => edit) k = e.blank.edit (fun _ => edit) j
  | .literal .. => by simp only [Expr.blank, Expr.edit]
  | .reference use => by simp only [Expr.blank, Expr.edit, writes.reference use]
  | .member base access => by
    simp only [Expr.blank, Expr.edit, writes.member access,
      Expr.edit_eq_edit_blank writes (k + 1) (j + 1) base]
  | .call none _ arguments _ => by
    simp only [Expr.blank, Expr.edit,
      Expr.editAll_eq_editAll_blank writes (k + 1) (j + 1) arguments]
  | .call (some receiver) _ arguments _ => by
    simp only [Expr.blank, Expr.edit, Expr.edit_eq_edit_blank writes (k + 1) (j + 1) receiver,
      Expr.editAll_eq_editAll_blank writes _ (j + 1 + receiver.blank.walk.length) arguments]
  | .new _ arguments _ => by
    simp only [Expr.blank, Expr.edit,
      Expr.editAll_eq_editAll_blank writes (k + 1) (j + 1) arguments]
  | .assign target value _ => by
    simp only [Expr.blank, Expr.edit, Expr.edit_eq_edit_blank writes (k + 1) (j + 1) target,
      Expr.edit_eq_edit_blank writes _ (j + 1 + target.blank.walk.length) value]
  | .binary _ left right _ => by
    simp only [Expr.blank, Expr.edit, Expr.edit_eq_edit_blank writes (k + 1) (j + 1) left,
      Expr.edit_eq_edit_blank writes _ (j + 1 + left.blank.walk.length) right]
  | .unary _ operand _ => by
    simp only [Expr.blank, Expr.edit, Expr.edit_eq_edit_blank writes (k + 1) (j + 1) operand]
  | .cast _ operand _ => by
    simp only [Expr.blank, Expr.edit, Expr.edit_eq_edit_blank writes (k + 1) (j + 1) operand]
  | .index target position _ => by
    simp only [Expr.blank, Expr.edit, Expr.edit_eq_edit_blank writes (k + 1) (j + 1) target,
      Expr.edit_eq_edit_blank writes _ (j + 1 + target.blank.walk.length) position]

/-- The same of several expressions. -/
theorem Expr.editAll_eq_editAll_blank (writes : edit.Overwrites) (k j : Nat) :
    (es : List Expr) →
      Expr.editAll (fun _ => edit) k es = Expr.editAll (fun _ => edit) j (Expr.blankAll es)
  | [] => by simp only [Expr.blankAll, Expr.editAll]
  | e :: rest => by
    simp only [Expr.blankAll, Expr.editAll, Expr.edit_eq_edit_blank writes k j e,
      Expr.editAll_eq_editAll_blank writes _ (j + e.blank.walk.length) rest]

end

/-- Expressions that differ in their slots only are made equal. -/
theorem Expr.edit_congr (writes : edit.Overwrites) {e other : Expr} (same : e.blank = other.blank)
    (k j : Nat) : e.edit (fun _ => edit) k = other.edit (fun _ => edit) j := by
  rw [e.edit_eq_edit_blank writes k 0, same, ← other.edit_eq_edit_blank writes j 0]

/-- The same of expressions that may be missing. -/
theorem Expr.editOption_congr (writes : edit.Overwrites) {value other : Option Expr}
    (same : value.map Expr.blank = other.map Expr.blank) (k j : Nat) :
    Expr.editOption (fun _ => edit) k value = Expr.editOption (fun _ => edit) j other := by
  cases value with
  | none =>
    cases other with
    | none => rfl
    | some e => cases same
  | some e =>
    cases other with
    | none => cases same
    | some e' =>
      have alike : e.blank = e'.blank := Option.some.inj same
      exact congrArg some (Expr.edit_congr writes alike k j)

/-- The same of several expressions. -/
theorem Expr.editAll_congr (writes : edit.Overwrites) {es others : List Expr}
    (same : es.map Expr.blank = others.map Expr.blank) (k j : Nat) :
    Expr.editAll (fun _ => edit) k es = Expr.editAll (fun _ => edit) j others := by
  induction es generalizing others k j with
  | nil =>
    cases others with
    | nil => rfl
    | cons e rest => cases same
  | cons e rest ih =>
    cases others with
    | nil => cases same
    | cons e' rest' =>
      obtain ⟨alike, restAlike⟩ := List.cons.inj same
      rw [Expr.editAll, Expr.editAll, Expr.edit_congr writes alike k j, ih restAlike]

/-- Locals that differ in their slots only are made equal. -/
theorem LocalDecl.edit_congr (writes : edit.Overwrites) {decl other : LocalDecl}
    (same : decl.mapExprs Expr.blank = other.mapExprs Expr.blank) (k j : Nat) :
    decl.edit (fun _ => edit) k = other.edit (fun _ => edit) j := by
  obtain ⟨id, name, type, initializer, span⟩ := decl
  obtain ⟨id', name', type', initializer', span'⟩ := other
  simp only [LocalDecl.mapExprs, LocalDecl.mk.injEq] at same
  obtain ⟨rfl, rfl, rfl, initializers, rfl⟩ := same
  simp only [LocalDecl.edit, Expr.editOption_congr writes initializers k j]

/-- The same of fields. -/
theorem Field.editAll_congr (writes : edit.Overwrites) {fields others : List Field}
    (same : fields.map (Field.mapExprs Expr.blank) = others.map (Field.mapExprs Expr.blank))
    (k j : Nat) :
    Field.editAll (fun _ => edit) k fields = Field.editAll (fun _ => edit) j others := by
  induction fields generalizing others k j with
  | nil =>
    cases others with
    | nil => rfl
    | cons field rest => cases same
  | cons field rest ih =>
    cases others with
    | nil => cases same
    | cons field' rest' =>
      obtain ⟨alike, restAlike⟩ := List.cons.inj same
      obtain ⟨id, name, type, isStatic, initializer, span⟩ := field
      obtain ⟨id', name', type', isStatic', initializer', span'⟩ := field'
      simp only [Field.mapExprs, Field.mk.injEq] at alike
      obtain ⟨rfl, rfl, rfl, rfl, initializers, rfl⟩ := alike
      simp only [Field.editAll, Expr.editOption_congr writes initializers k j,
        ih restAlike _ (j + (Expr.walkOption initializer').length)]

end fill

section units

variable {edit : Edit}

mutual

/-- Statements that differ in their slots only are made equal if their caught variables have equal
initializers. -/
theorem Stmt.edit_congr (writes : edit.Overwrites) :
    (s other : Stmt) → s.mapExprs Expr.blank = other.mapExprs Expr.blank →
      s.caughtInitializers = other.caughtInitializers →
      (k j : Nat) → s.edit (fun _ => edit) k = other.edit (fun _ => edit) j
  | .localVar decl, other, same, _, k, j => by
    obtain ⟨decl', rfl, decls⟩ := Stmt.eq_localVar_of_mapExprs same
    rw [Stmt.edit, Stmt.edit, LocalDecl.edit_congr writes decls]
  | .expr value, other, same, _, k, j => by
    obtain ⟨value', rfl, values⟩ := Stmt.eq_expr_of_mapExprs same
    rw [Stmt.edit, Stmt.edit, Expr.edit_congr writes values]
  | .ret value span, other, same, _, k, j => by
    obtain ⟨value', rfl, values⟩ := Stmt.eq_ret_of_mapExprs same
    rw [Stmt.edit, Stmt.edit, Expr.editOption_congr writes values]
  | .block ⟨id, statements, span⟩, other, same, caught, k, j => by
    obtain ⟨statements', rfl, alike⟩ := Stmt.eq_block_of_mapExprs same
    simp only [Stmt.caughtInitializers, Block.caughtInitializers] at caught
    rw [Stmt.edit, Stmt.edit, Stmt.editAll_congr writes statements statements' alike caught]
  | .ifElse condition thenBranch none span, other, same, caught, k, j => by
    obtain ⟨condition', thenBranch', elseBranch', rfl, conditions, thens, elses⟩ :=
      Stmt.eq_ifElse_of_mapExprs same
    cases Option.map_eq_none_iff.mp elses.symm
    simp only [Stmt.caughtInitializers] at caught
    rw [Stmt.edit, Stmt.edit, Expr.edit_congr writes conditions,
      Stmt.edit_congr writes thenBranch thenBranch' thens caught]
  | .ifElse condition thenBranch (some elseBranch) span, other, same, caught, k, j => by
    obtain ⟨condition', thenBranch', elseBranch', rfl, conditions, thens, elses⟩ :=
      Stmt.eq_ifElse_of_mapExprs same
    obtain ⟨elseBranch', rfl, alike⟩ := Option.map_eq_some_iff.mp elses.symm
    simp only [Stmt.caughtInitializers] at caught
    obtain ⟨caughtThen, caughtElse⟩ := Stmt.caught_parts thens caught
    simp only [Stmt.edit]
    rw [Expr.edit_congr writes conditions,
      Stmt.edit_congr writes thenBranch thenBranch' thens caughtThen,
      Stmt.edit_congr writes elseBranch elseBranch' alike.symm caughtElse]
  | .forLoop id init condition update body span, other, same, caught, k, j => by
    obtain ⟨init', condition', update', body', rfl, inits, conditions, updates, bodies⟩ :=
      Stmt.eq_forLoop_of_mapExprs same
    simp only [Stmt.caughtInitializers] at caught
    obtain ⟨caughtInit, caughtBody⟩ := Stmt.caught_partsAll inits caught
    simp only [Stmt.edit]
    rw [Stmt.editAll_congr writes init init' inits caughtInit,
      Expr.editOption_congr writes conditions, Expr.editAll_congr writes updates,
      Stmt.edit_congr writes body body' bodies caughtBody]
  | .forEach id item iterable body span, other, same, caught, k, j => by
    obtain ⟨item', iterable', body', rfl, items, iterables, bodies⟩ :=
      Stmt.eq_forEach_of_mapExprs same
    simp only [Stmt.caughtInitializers] at caught
    simp only [Stmt.edit]
    rw [LocalDecl.edit_congr writes items, Expr.edit_congr writes iterables,
      Stmt.edit_congr writes body body' bodies caught]
  | .whileLoop id condition body span, other, same, caught, k, j => by
    obtain ⟨condition', body', rfl, conditions, bodies⟩ := Stmt.eq_whileLoop_of_mapExprs same
    simp only [Stmt.caughtInitializers] at caught
    rw [Stmt.edit, Stmt.edit, Expr.edit_congr writes conditions,
      Stmt.edit_congr writes body body' bodies caught]
  | .tryCatch ⟨id, statements, blockSpan⟩ catches none span, other, same, caught, k, j => by
    obtain ⟨statements', catches', finalizer', rfl, bodies, handlers, lasts⟩ :=
      Stmt.eq_tryCatch_of_mapExprs same
    cases Option.map_eq_none_iff.mp lasts.symm
    simp only [Stmt.caughtInitializers, Block.caughtInitializers] at caught
    obtain ⟨caughtBody, caughtHandlers⟩ := Stmt.caught_partsAll bodies caught
    rw [Stmt.edit, Stmt.edit, Stmt.editAll_congr writes statements statements' bodies caughtBody,
      CatchClause.editAll_congr writes catches catches' handlers caughtHandlers]
  | .tryCatch ⟨id, statements, blockSpan⟩ catches (some ⟨lastId, last, lastSpan⟩) span, other, same,
      caught, k, j => by
    obtain ⟨statements', catches', finalizer', rfl, bodies, handlers, lasts⟩ :=
      Stmt.eq_tryCatch_of_mapExprs same
    obtain ⟨last', rfl, alike⟩ := Block.eq_some_of_mapExprs lasts
    simp only [Stmt.caughtInitializers, Block.caughtInitializers, List.append_assoc] at caught
    obtain ⟨caughtBody, caught⟩ := Stmt.caught_partsAll bodies caught
    obtain ⟨caughtHandlers, caughtLast⟩ := CatchClause.caught_partsAll handlers caught
    simp only [Stmt.edit]
    rw [Stmt.editAll_congr writes statements statements' bodies caughtBody,
      CatchClause.editAll_congr writes catches catches' handlers caughtHandlers,
      Stmt.editAll_congr writes last last' alike caughtLast]
  | .record decl, other, same, caught, k, j => by
    obtain ⟨decl', rfl, decls⟩ := Stmt.eq_record_of_mapExprs same
    simp only [Stmt.caughtInitializers] at caught
    rw [Stmt.edit, Stmt.edit, Record.edit_congr writes decl decl' decls caught]

/-- The same of lists of statements. -/
theorem Stmt.editAll_congr (writes : edit.Overwrites) :
    (statements others : List Stmt) →
      Stmt.mapExprsAll Expr.blank statements = Stmt.mapExprsAll Expr.blank others →
      Stmt.caughtInitializersAll statements = Stmt.caughtInitializersAll others →
      (k j : Nat) →
        Stmt.editAll (fun _ => edit) k statements = Stmt.editAll (fun _ => edit) j others
  | [], others, same, _, _, _ => by
    rw [Stmt.eq_nil_of_mapExprsAll same, Stmt.editAll, Stmt.editAll]
  | s :: rest, others, same, caught, k, j => by
    obtain ⟨s', rest', rfl, first, further⟩ := Stmt.eq_cons_of_mapExprsAll same
    simp only [Stmt.caughtInitializersAll] at caught
    obtain ⟨caughtFirst, caughtRest⟩ := Stmt.caught_parts first caught
    rw [Stmt.editAll, Stmt.editAll, Stmt.edit_congr writes s s' first caughtFirst,
      Stmt.editAll_congr writes rest rest' further caughtRest]

/-- The same of catch clauses. No walk visits the variables that they catch, which are the same from
the start. -/
theorem CatchClause.editAll_congr (writes : edit.Overwrites) :
    (catches others : List CatchClause) →
      CatchClause.mapExprsAll Expr.blank catches = CatchClause.mapExprsAll Expr.blank others →
      CatchClause.caughtInitializersAll catches = CatchClause.caughtInitializersAll others →
      (k j : Nat) → CatchClause.editAll (fun _ => edit) k catches =
        CatchClause.editAll (fun _ => edit) j others
  | [], others, same, _, _, _ => by
    rw [CatchClause.eq_nil_of_mapExprsAll same, CatchClause.editAll, CatchClause.editAll]
  | ⟨id, parameter, types, ⟨bodyId, statements, bodySpan⟩, span⟩ :: rest, others, same, caught,
      k, j => by
    obtain ⟨parameter', statements', rest', rfl, parameters, bodies, further⟩ :=
      CatchClause.eq_cons_of_mapExprsAll same
    simp only [CatchClause.caughtInitializersAll, Block.caughtInitializers, List.cons_append,
      List.cons.injEq] at caught
    obtain ⟨initializers, caught⟩ := caught
    obtain ⟨caughtBody, caughtRest⟩ := Stmt.caught_partsAll bodies caught
    rw [CatchClause.editAll, CatchClause.editAll, LocalDecl.eq_of_mapExprs parameters initializers,
      Stmt.editAll_congr writes statements statements' bodies caughtBody,
      CatchClause.editAll_congr writes rest rest' further caughtRest]

/-- The same of methods. -/
theorem Method.editAll_congr (writes : edit.Overwrites) :
    (methods others : List Method) →
      Method.mapExprsAll Expr.blank methods = Method.mapExprsAll Expr.blank others →
      Method.caughtInitializersAll methods = Method.caughtInitializersAll others →
      (k j : Nat) →
        Method.editAll (fun _ => edit) k methods = Method.editAll (fun _ => edit) j others
  | [], others, same, _, _, _ => by
    rw [Method.eq_nil_of_mapExprsAll same, Method.editAll, Method.editAll]
  | ⟨id, name, isStatic, isConstructor, parameters, none, span⟩ :: rest, others, same, caught,
      k, j => by
    obtain ⟨body', rest', rfl, bodies, further⟩ := Method.eq_cons_of_mapExprsAll same
    cases Option.map_eq_none_iff.mp bodies.symm
    simp only [Method.caughtInitializersAll] at caught
    rw [Method.editAll, Method.editAll, Method.editAll_congr writes rest rest' further caught]
  | ⟨id, name, isStatic, isConstructor, parameters, some ⟨bodyId, statements, bodySpan⟩, span⟩ ::
      rest, others, same, caught, k, j => by
    obtain ⟨body', rest', rfl, bodies, further⟩ := Method.eq_cons_of_mapExprsAll same
    obtain ⟨statements', rfl, alike⟩ := Block.eq_some_of_mapExprs bodies
    simp only [Method.caughtInitializersAll, Block.caughtInitializers] at caught
    obtain ⟨caughtBody, caughtRest⟩ := Stmt.caught_partsAll alike caught
    rw [Method.editAll, Method.editAll,
      Stmt.editAll_congr writes statements statements' alike caughtBody,
      Method.editAll_congr writes rest rest' further caughtRest]

/-- The same of records. -/
theorem Record.edit_congr (writes : edit.Overwrites) :
    (decl other : Record) → decl.mapExprs Expr.blank = other.mapExprs Expr.blank →
      decl.caughtInitializers = other.caughtInitializers →
      (k j : Nat) → decl.edit (fun _ => edit) k = other.edit (fun _ => edit) j
  | ⟨id, name, superclass, isStatic, fields, methods, records, span⟩, other, same, caught,
      k, j => by
    obtain ⟨fields', methods', records', rfl, ownFields, ownMethods, nested⟩ :=
      Record.eq_of_mapExprs same
    simp only [Record.caughtInitializers] at caught
    obtain ⟨caughtMethods, caughtNested⟩ := Method.caught_partsAll ownMethods caught
    simp only [Record.edit]
    rw [Field.editAll_congr writes ownFields,
      Method.editAll_congr writes methods methods' ownMethods caughtMethods,
      Record.editAll_congr writes records records' nested caughtNested]

/-- The same of lists of records. -/
theorem Record.editAll_congr (writes : edit.Overwrites) :
    (records others : List Record) →
      Record.mapExprsAll Expr.blank records = Record.mapExprsAll Expr.blank others →
      Record.caughtInitializersAll records = Record.caughtInitializersAll others →
      (k j : Nat) →
        Record.editAll (fun _ => edit) k records = Record.editAll (fun _ => edit) j others
  | [], others, same, _, _, _ => by
    rw [Record.eq_nil_of_mapExprsAll same, Record.editAll, Record.editAll]
  | r :: rest, others, same, caught, k, j => by
    obtain ⟨r', rest', rfl, first, further⟩ := Record.eq_cons_of_mapExprsAll same
    simp only [Record.caughtInitializersAll] at caught
    obtain ⟨caughtFirst, caughtRest⟩ := Record.caught_parts first caught
    rw [Record.editAll, Record.editAll, Record.edit_congr writes r r' first caughtFirst,
      Record.editAll_congr writes rest rest' further caughtRest]

end

end units

/-! ### What is left after an analysis -/

namespace Resolutions

variable (resolutions : Resolutions)

/-- What an analysis writes does not depend on what was there. -/
theorem edit_overwrites : resolutions.edit.Overwrites := ⟨fun _ => rfl, fun _ => rfl⟩

/-- Writing results leaves the initializers of caught variables alone. -/
theorem caughtInitializers_apply (unit : TranslationUnit) :
    (resolutions.apply unit).caughtInitializers = unit.caughtInitializers :=
  Record.caughtInitializersAll_edit 0 unit.records

/-- Filling makes units equal that differ in their slots only, up to the initializers of their
caught variables. -/
theorem apply_eq_apply_iff {unit other : TranslationUnit} (same : unit.blank = other.blank) :
    resolutions.apply unit = resolutions.apply other ↔
      unit.caughtInitializers = other.caughtInitializers := by
  constructor
  · intro filled
    have kept := congrArg TranslationUnit.caughtInitializers filled
    rwa [caughtInitializers_apply, caughtInitializers_apply] at kept
  · intro caught
    obtain ⟨id, name, path, package, imports, records, span⟩ := unit
    obtain ⟨id', name', path', package', imports', records', span'⟩ := other
    simp only [TranslationUnit.blank, TranslationUnit.mapExprs, TranslationUnit.mk.injEq] at same
    obtain ⟨rfl, rfl, rfl, rfl, rfl, records, rfl⟩ := same
    simp only [apply, TranslationUnit.edit,
      Record.editAll_congr resolutions.edit_overwrites _ _ records caught 0 0]

end Resolutions

/-- Listings without initializers that are equal up to slots are equal. -/
theorem caught_eq_of_none {xs ys : List (Option Expr)}
    (alike : xs.map (·.map Expr.blank) = ys.map (·.map Expr.blank)) (missing : ∀ x ∈ xs, x = none) :
    xs = ys := by
  induction xs generalizing ys with
  | nil => exact (List.map_eq_nil_iff.mp alike.symm).symm
  | cons x rest ih =>
    cases ys with
    | nil => cases alike
    | cons y others =>
      obtain ⟨first, rest_alike⟩ := List.cons.inj alike
      have none_here : x = none := missing x List.mem_cons_self
      have none_there : y = none := by simpa [none_here] using first.symm
      rw [none_here, none_there, ih rest_alike fun x hx => missing x (List.mem_cons_of_mem _ hx)]

/-- Old results are gone after an analysis that succeeds, but for the initializers of caught
variables: units that differ in their slots only are both analysed, and they come out equal exactly
if these initializers were equal. In particular nothing old is left if no caught variable has an
initializer. -/
theorem analysis_clears_slots {unit other : TranslationUnit} (same : unit.blank = other.blank)
    {index : RecordIndex} {options : Options} {analysis : UnitAnalysis}
    (run : (analyseUnit unit index options).2 = .ok analysis) :
    (analyseUnit other index options).2 = .ok analysis ∧
    ((analyseUnit unit index options).1 = (analyseUnit other index options).1 ↔
      unit.caughtInitializers = other.caughtInitializers) ∧
    ((∀ initializer ∈ unit.caughtInitializers, initializer = none) →
      (analyseUnit unit index options).1 = (analyseUnit other index options).1) := by
  have resolved : resolveUnit unit index options = .ok analysis := by
    unfold analyseUnit at run
    cases outcome : resolveUnit unit index options with
    | ok found => simpa only [outcome] using run
    | error issue => simp [outcome] at run
  have alike : resolveUnit other index options = .ok analysis := by
    rw [← resolveUnit_congr same index options, resolved]
  have equal := analysis.resolutions.apply_eq_apply_iff same
  simp only [analyseUnit, resolved, alike]
  refine ⟨trivial, equal, fun missing => equal.mpr (caught_eq_of_none ?_ missing)⟩
  have listed := congrArg TranslationUnit.caughtInitializers same
  simpa only [TranslationUnit.caughtInitializers, TranslationUnit.blank,
    TranslationUnit.mapExprs, Record.caughtInitializersAll_mapExprs] using listed

/-- A method that uses the field `x` in the initializer of a caught variable and in the body of the
clause; `caught` and `used` are what the slots of the two uses hold. -/
def catchingUnit (caught used : Option Resolution) : TranslationUnit :=
  let x : Field := { id := ⟨2⟩, name := "x", type := { name := "int" } }
  let initializer : Expr := .reference { id := ⟨8⟩, name := "x", resolved := caught }
  let parameter : LocalDecl := { id := ⟨7⟩, name := "e", type := { name := "E" }, initializer }
  let use : Expr := .reference { id := ⟨10⟩, name := "x", resolved := used }
  let clause : CatchClause := ⟨⟨6⟩, parameter, [{ name := "E" }], ⟨⟨9⟩, [.expr use], {}⟩, {}⟩
  { id := ⟨0⟩, name := "Catching"
    records := [⟨⟨1⟩, "A", none, false, [x],
      [⟨⟨3⟩, "m", false, false, [],
        some ⟨⟨4⟩, [.tryCatch ⟨⟨5⟩, [], {}⟩ [clause] none {}], {}⟩, {}⟩], [], {}⟩] }

theorem analysis_clears_slots_sample :
    let old : Resolution := ⟨⟨9⟩, .parameter⟩
    let stale := catchingUnit (some old) (some old)
    let fresh := catchingUnit (some old) none
    stale.blank = fresh.blank ∧
      stale.expressions.map Expr.resolution? = [some old] ∧
      fresh.expressions.map Expr.resolution? = [none] ∧
      (analyseUnit stale (.build [stale]) {}).2.isOk = true ∧
      stale.caughtInitializers = fresh.caughtInitializers ∧
      (analyseUnit stale (.build [stale]) {}).1 = (analyseUnit fresh (.build [stale]) {}).1 := by
  let stale := catchingUnit (some ⟨⟨9⟩, .parameter⟩) (some ⟨⟨9⟩, .parameter⟩)
  let fresh := catchingUnit (some ⟨⟨9⟩, .parameter⟩) none
  have same : stale.blank = fresh.blank := rfl
  have caught : stale.caughtInitializers = fresh.caughtInitializers := rfl
  have succeeds : (analyseUnit stale (.build [stale]) {}).2.isOk = true := by decide +kernel
  refine ⟨same, by decide +kernel, by decide +kernel, succeeds, caught, ?_⟩
  cases run : (analyseUnit stale (.build [stale]) {}).2 with
  | error issue =>
    rw [run] at succeeds
    cases succeeds
  | ok analysis => exact (analysis_clears_slots same run).2.1.mpr caught

/-- The slots in the initializer of a caught variable keep old results: two units that differ there
only are both analysed, and they still differ. -/
theorem caught_initializer_keeps_old_results :
    let old : Resolution := ⟨⟨9⟩, .parameter⟩
    let stale := catchingUnit (some old) none
    let fresh := catchingUnit none none
    stale.blank = fresh.blank ∧
      (analyseUnit stale (.build [stale]) {}).2.isOk = true ∧
      (analyseUnit fresh (.build [stale]) {}).2.isOk = true ∧
      (analyseUnit stale (.build [stale]) {}).1.caughtInitializers.map (·.bind Expr.resolution?) =
        [some old] ∧
      (analyseUnit stale (.build [stale]) {}).1 ≠ (analyseUnit fresh (.build [stale]) {}).1 := by
  refine ⟨rfl, by decide +kernel, by decide +kernel, by decide +kernel, fun equal => ?_⟩
  have slots := congrArg
    (fun unit => unit.caughtInitializers.map (·.bind Expr.resolution?)) equal
  revert slots
  decide +kernel

end NameBinding
