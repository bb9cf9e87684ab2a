import NameBinding.Proofs.Outline
import NameBinding.Proofs.ReorderedLists

/-!
# Units with shuffled members

Two units are shuffles of each other if they differ in the order of fields, methods and nested
records of any of their records, local records included. Their outlines then list the same steps in
another order.
-/

namespace NameBinding

mutual

/-- Statements that differ in the order of members of the records inside them. -/
inductive Stmt.Shuffled : Stmt → Stmt → Prop
  | localVar (decl : LocalDecl) : Stmt.Shuffled (.localVar decl) (.localVar decl)
  | expr (value : Expr) : Stmt.Shuffled (.expr value) (.expr value)
  | ret (value : Option Expr) (span : Span) : Stmt.Shuffled (.ret value span) (.ret value span)
  | block {block other : Block} :
    Block.Shuffled block other → Stmt.Shuffled (.block block) (.block other)
  | ifThen (condition : Expr) {branch other : Stmt} (span : Span) : Stmt.Shuffled branch other →
    Stmt.Shuffled (.ifElse condition branch none span) (.ifElse condition other none span)
  | ifElse (condition : Expr) {first first' second second' : Stmt} (span : Span) :
    Stmt.Shuffled first first' → Stmt.Shuffled second second' →
    Stmt.Shuffled (.ifElse condition first (some second) span)
      (.ifElse condition first' (some second') span)
  | forLoop (id : NodeId) {init init' : List Stmt} (condition : Option Expr) (update : List Expr)
    {body body' : Stmt} (span : Span) : Stmt.ShuffledAll init init' → Stmt.Shuffled body body' →
    Stmt.Shuffled (.forLoop id init condition update body span)
      (.forLoop id init' condition update body' span)
  | forEach (id : NodeId) (item : LocalDecl) (iterable : Expr) {body body' : Stmt} (span : Span) :
    Stmt.Shuffled body body' →
    Stmt.Shuffled (.forEach id item iterable body span) (.forEach id item iterable body' span)
  | whileLoop (id : NodeId) (condition : Expr) {body body' : Stmt} (span : Span) :
    Stmt.Shuffled body body' →
    Stmt.Shuffled (.whileLoop id condition body span) (.whileLoop id condition body' span)
  | tryCatch {body body' : Block} {catches catches' : List CatchClause} (span : Span) :
    Block.Shuffled body body' → CatchClause.ShuffledAll catches catches' →
    Stmt.Shuffled (.tryCatch body catches none span) (.tryCatch body' catches' none span)
  | tryFinally {body body' : Block} {catches catches' : List CatchClause} {last last' : Block}
    (span : Span) : Block.Shuffled body body' → CatchClause.ShuffledAll catches catches' →
    Block.Shuffled last last' →
    Stmt.Shuffled (.tryCatch body catches (some last) span)
      (.tryCatch body' catches' (some last') span)
  | record {decl other : Record} :
    Record.Shuffled decl other → Stmt.Shuffled (.record decl) (.record other)

/-- Lists of statements that correspond one by one. -/
inductive Stmt.ShuffledAll : List Stmt → List Stmt → Prop
  | nil : Stmt.ShuffledAll [] []
  | cons {s t : Stmt} {rest others : List Stmt} : Stmt.Shuffled s t →
    Stmt.ShuffledAll rest others → Stmt.ShuffledAll (s :: rest) (t :: others)

/-- Blocks of corresponding statements. -/
inductive Block.Shuffled : Block → Block → Prop
  | mk (id : NodeId) {statements others : List Stmt} (span : Span) :
    Stmt.ShuffledAll statements others → Block.Shuffled ⟨id, statements, span⟩ ⟨id, others, span⟩

/-- Lists of catch clauses that correspond one by one. -/
inductive CatchClause.ShuffledAll : List CatchClause → List CatchClause → Prop
  | nil : CatchClause.ShuffledAll [] []
  | cons (id : NodeId) (parameter : LocalDecl) (types : List TypeRef) {body body' : Block}
    (span : Span) {rest others : List CatchClause} : Block.Shuffled body body' →
    CatchClause.ShuffledAll rest others →
    CatchClause.ShuffledAll (⟨id, parameter, types, body, span⟩ :: rest)
      (⟨id, parameter, types, body', span⟩ :: others)

/-- Lists of methods that correspond one by one. -/
inductive Method.ShuffledAll : List Method → List Method → Prop
  | nil : Method.ShuffledAll [] []
  | bodiless (id : NodeId) (name : String) (isStatic isConstructor : Bool)
    (parameters : List Parameter) (span : Span) {rest others : List Method} :
    Method.ShuffledAll rest others →
    Method.ShuffledAll (⟨id, name, isStatic, isConstructor, parameters, none, span⟩ :: rest)
      (⟨id, name, isStatic, isConstructor, parameters, none, span⟩ :: others)
  | cons (id : NodeId) (name : String) (isStatic isConstructor : Bool)
    (parameters : List Parameter) {body body' : Block} (span : Span) {rest others : List Method} :
    Block.Shuffled body body' → Method.ShuffledAll rest others →
    Method.ShuffledAll (⟨id, name, isStatic, isConstructor, parameters, some body, span⟩ :: rest)
      (⟨id, name, isStatic, isConstructor, parameters, some body', span⟩ :: others)

/-- Records that differ in the order of their fields, methods and nested records; the methods and
nested records may be shuffled themselves. -/
inductive Record.Shuffled : Record → Record → Prop
  | mk (id : NodeId) (name : String) (superclass : Option TypeRef) (isStatic : Bool)
    {fields fields' : List Field} {methods reordered methods' : List Method}
    {records permuted records' : List Record} (span : Span) :
    fields.Perm fields' →
    methods.Perm reordered → Method.ShuffledAll reordered methods' →
    records.Perm permuted → Record.ShuffledAll permuted records' →
    Record.Shuffled ⟨id, name, superclass, isStatic, fields, methods, records, span⟩
      ⟨id, name, superclass, isStatic, fields', methods', records', span⟩

/-- Lists of records that correspond one by one. -/
inductive Record.ShuffledAll : List Record → List Record → Prop
  | nil : Record.ShuffledAll [] []
  | cons {r s : Record} {rest others : List Record} : Record.Shuffled r s →
    Record.ShuffledAll rest others → Record.ShuffledAll (r :: rest) (s :: others)

end

/-- Units that differ in the order of members of their records. -/
structure TranslationUnit.Shuffled (unit other : TranslationUnit) : Prop where
  same : other = { unit with records := other.records }
  records : Record.ShuffledAll unit.records other.records

/-! ### Outlines -/

/-- Two records in one place of their units that agree up to the order of their members. -/
structure RecordSite.Alike (site other : RecordSite) : Prop where
  id : site.decl.id = other.decl.id
  simpleName : site.decl.name = other.decl.name
  superclass : site.decl.superclass = other.decl.superclass
  isStatic : site.decl.isStatic = other.decl.isStatic
  span : site.decl.span = other.decl.span
  fields : site.decl.fields.Perm other.decl.fields
  name : site.name = other.name
  outer : site.outer = other.outer
  inHeader : site.inHeader = other.inHeader

/-- Two steps that agree up to the order of the members of a record. -/
inductive Step.Alike : Step → Step → Prop
  | record (within : Place) {site other : RecordSite} : site.Alike other →
    Step.Alike (.record within site) (.record within other)
  | opens (within : Place) (header : ScopeHeader) (span : Span) :
    Step.Alike (.opens within header span) (.opens within header span)
  | declares (within : Place) (item : Variable) :
    Step.Alike (.declares within item) (.declares within item)
  | uses (within : Place) (inStatic : Bool) (value : Expr) :
    Step.Alike (.uses within inStatic value) (.uses within inStatic value)

/-- A step is like itself. -/
theorem Step.Alike.refl : (item : Step) → item.Alike item
  | .record within _ => .record within ⟨rfl, rfl, rfl, rfl, rfl, .rfl, rfl, rfl, rfl⟩
  | .opens within header span => .opens within header span
  | .declares within item => .declares within item
  | .uses within inStatic value => .uses within inStatic value

/-- Steps that are the same in both lists. -/
theorem reordered_refl (steps : List Step) : Reordered Step.Alike steps steps :=
  .refl Step.Alike.refl steps

/-- A shuffled record keeps its id. -/
theorem Record.Shuffled.id_eq {r s : Record} (h : r.Shuffled s) : r.id = s.id := by
  cases h
  rfl

/-- A shuffled record keeps its name. -/
theorem Record.Shuffled.name_eq {r s : Record} (h : r.Shuffled s) : r.name = s.name := by
  cases h
  rfl

variable {order : MemberOrder}

/-- The steps of a list of methods, method by method. -/
theorem Method.outlineAll_eq_flatMap (position : Position) (methods : List Method) :
    Method.outlineAll order position methods =
      methods.flatMap fun method => Method.outlineAll order position [method] := by
  induction methods with
  | nil => rw [Method.outlineAll, List.flatMap_nil]
  | cons method rest ih =>
    obtain ⟨id, name, isStatic, isConstructor, parameters, body, span⟩ := method
    cases body with
    | none => simp only [Method.outlineAll, List.flatMap_cons, ← ih, List.append_nil]
    | some body => simp only [Method.outlineAll, List.flatMap_cons, ← ih, List.append_nil]

/-- Permuted methods have permuted steps. -/
theorem Method.outlineAll_of_perm (position : Position) {methods others : List Method}
    (perm : methods.Perm others) :
    (Method.outlineAll order position methods).Perm (Method.outlineAll order position others) := by
  rw [Method.outlineAll_eq_flatMap, Method.outlineAll_eq_flatMap _ others]
  exact perm.flatMap_right _

/-- The steps of a list of records, record by record. -/
theorem Record.outlineAll_eq_flatMap (within : Place) (qualifier outer : Option String)
    (inHeader : Bool) (records : List Record) :
    Record.outlineAll order within qualifier outer inHeader records =
      records.flatMap fun r =>
        r.outline order within (RecordName.qualify qualifier r.name) outer inHeader := by
  induction records with
  | nil => rw [Record.outlineAll, List.flatMap_nil]
  | cons r rest ih => rw [Record.outlineAll, List.flatMap_cons, ih]

/-- Permuted records have permuted steps. -/
theorem Record.outlineAll_of_perm (within : Place) (qualifier outer : Option String)
    (inHeader : Bool) {records others : List Record} (perm : records.Perm others) :
    (Record.outlineAll order within qualifier outer inHeader records).Perm
      (Record.outlineAll order within qualifier outer inHeader others) := by
  rw [Record.outlineAll_eq_flatMap, Record.outlineAll_eq_flatMap _ _ _ _ others]
  exact perm.flatMap_right _

mutual

/-- Shuffled statements have the same steps in another order. -/
theorem Stmt.Shuffled.outline (position : Position) : {s t : Stmt} → s.Shuffled t →
    Reordered Step.Alike (s.outline order position) (t.outline order position)
  | _, _, .localVar _ | _, _, .expr _ | _, _, .ret .. => reordered_refl _
  | _, _, .block shuffled => by
    rw [Stmt.outline, Stmt.outline]
    exact shuffled.outline position
  | _, _, .ifThen _ _ branch => by
    rw [Stmt.outline, Stmt.outline]
    exact .cons (.refl _) (branch.outline position)
  | _, _, .ifElse _ _ first second => by
    rw [Stmt.outline, Stmt.outline]
    exact .append (.cons (.refl _) (first.outline position)) (second.outline position)
  | _, _, .forLoop id _ _ _ init body => by
    rw [Stmt.outline, Stmt.outline]
    refine .append (.append (.append (.cons (.refl _) (init.outline _)) ?_) ?_)
      (body.outline (position.inside id))
    · exact reordered_refl _
    · exact reordered_refl _
  | _, _, .forEach id _ _ _ body => by
    rw [Stmt.outline, Stmt.outline]
    exact .cons (.refl _) (.cons (.refl _) (.cons (.refl _) (body.outline (position.inside id))))
  | _, _, .whileLoop id _ _ body => by
    rw [Stmt.outline, Stmt.outline]
    exact .cons (.refl _) (.cons (.refl _) (body.outline (position.inside id)))
  | _, _, .tryCatch _ body catches => by
    rw [Stmt.outline, Stmt.outline]
    exact .append (body.outline position) (catches.outline position)
  | _, _, .tryFinally _ body catches last => by
    rw [Stmt.outline, Stmt.outline]
    exact .append (.append (body.outline position) (catches.outline position))
      (last.outline position)
  | _, _, .record shuffled => by
    rw [Stmt.outline, Stmt.outline, shuffled.id_eq, shuffled.name_eq]
    exact shuffled.outline position.place _ (some position.record) position.inHeader

/-- Lists of shuffled statements have the same steps in another order. -/
theorem Stmt.ShuffledAll.outline (position : Position) : {xs ys : List Stmt} →
    Stmt.ShuffledAll xs ys →
    Reordered Step.Alike (Stmt.outlineAll order position xs) (Stmt.outlineAll order position ys)
  | _, _, .nil => reordered_refl _
  | _, _, .cons head tail => by
    rw [Stmt.outlineAll, Stmt.outlineAll]
    exact .append (head.outline position) (tail.outline position)

/-- Shuffled blocks have the same steps in another order. -/
theorem Block.Shuffled.outline (position : Position) : {b c : Block} → b.Shuffled c →
    Reordered Step.Alike (b.outline order position) (c.outline order position)
  | _, _, .mk id _ statements => by
    rw [Block.outline, Block.outline]
    exact .cons (.refl _) (statements.outline (position.inside id))

/-- Shuffled catch clauses have the same steps in another order. -/
theorem CatchClause.ShuffledAll.outline (position : Position) : {xs ys : List CatchClause} →
    CatchClause.ShuffledAll xs ys →
    Reordered Step.Alike (CatchClause.outlineAll order position xs)
      (CatchClause.outlineAll order position ys)
  | _, _, .nil => reordered_refl _
  | _, _, .cons id _ _ _ body tail => by
    rw [CatchClause.outlineAll, CatchClause.outlineAll]
    exact .append (.cons (.refl _) (.cons (.refl _) (body.outline (position.inside id))))
      (tail.outline position)

/-- Shuffled methods have the same steps in another order. -/
theorem Method.ShuffledAll.outline (position : Position) : {xs ys : List Method} →
    Method.ShuffledAll xs ys →
    Reordered Step.Alike (Method.outlineAll order position xs) (Method.outlineAll order position ys)
  | _, _, .nil => reordered_refl _
  | _, _, .bodiless _ _ _ _ _ _ tail => by
    rw [Method.outlineAll, Method.outlineAll]
    exact .append (reordered_refl _) (tail.outline position)
  | _, _, .cons id _ _ _ _ _ body tail => by
    rw [Method.outlineAll, Method.outlineAll]
    exact .append (.append (reordered_refl _) (body.outline (position.inside id)))
      (tail.outline position)

/-- Shuffled records have the same steps in another order. -/
theorem Record.Shuffled.outline (within : Place) (name : String) (outer : Option String)
    (inHeader : Bool) : {r s : Record} → r.Shuffled s →
    Reordered Step.Alike (r.outline order within name outer inHeader)
      (s.outline order within name outer inHeader)
  | _, _, .mk id simpleName superclass isStatic span fields perm methods perm' records => by
    have methodSteps : Reordered Step.Alike
        (Method.outlineAll order ⟨.node id, name, inHeader⟩ _)
        (Method.outlineAll order ⟨.node id, name, inHeader⟩ _) :=
      .of_perm_left (Method.outlineAll_of_perm _ perm) (methods.outline _)
    have recordSteps : Reordered Step.Alike
        (Record.outlineAll order (.node id) (some name) (some name) inHeader _)
        (Record.outlineAll order (.node id) (some name) (some name) inHeader _) :=
      .of_perm_left (Record.outlineAll_of_perm _ _ _ _ perm') (records.outline _ _ _ _)
    have fieldSteps := Reordered.of_perm Step.Alike.refl
      (fields.flatMap_right (Field.outline (.node id)))
    have own : ∀ {site other : RecordSite}, site.Alike other →
        Reordered Step.Alike (.record within site :: _) (.record within other :: _) :=
      fun alike => .cons (.record within alike) fieldSteps
    cases order with
    | methodsFirst =>
      rw [Record.outline, Record.outline]
      exact .append (own ⟨rfl, rfl, rfl, rfl, rfl, fields, rfl, rfl, rfl⟩)
        (.append methodSteps recordSteps)
    | recordsFirst =>
      rw [Record.outline, Record.outline]
      exact .append (own ⟨rfl, rfl, rfl, rfl, rfl, fields, rfl, rfl, rfl⟩)
        (.append recordSteps methodSteps)

/-- Lists of shuffled records have the same steps in another order. -/
theorem Record.ShuffledAll.outline (within : Place) (qualifier outer : Option String)
    (inHeader : Bool) : {xs ys : List Record} → Record.ShuffledAll xs ys →
    Reordered Step.Alike (Record.outlineAll order within qualifier outer inHeader xs)
      (Record.outlineAll order within qualifier outer inHeader ys)
  | _, _, .nil => reordered_refl _
  | _, _, .cons head tail => by
    rw [Record.outlineAll, Record.outlineAll, head.name_eq]
    exact .append (head.outline _ _ _ _) (tail.outline _ _ _ _)

end

/-- Shuffled units have the same steps in another order. -/
theorem TranslationUnit.Shuffled.outline {unit other : TranslationUnit}
    (shuffled : unit.Shuffled other) (order : MemberOrder) :
    Reordered Step.Alike (unit.outline order) (other.outline order) := by
  have package : other.package = unit.package := by rw [shuffled.same]
  unfold TranslationUnit.outline
  rw [package]
  exact shuffled.records.outline _ _ _ _

end NameBinding
