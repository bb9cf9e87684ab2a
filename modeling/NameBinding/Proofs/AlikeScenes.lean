import NameBinding.Proofs.AlikeIndexes
import NameBinding.Proofs.Resolving

/-!
# Scenes that look alike

Two scenes look alike if their indexes answer alike and their declarations agree in what a lookup
asks of them. Seen from two scopes around which the same names are bound, however the scopes are
numbered, every name denotes the same and every expression has the same uses; only the scopes noted
with the uses differ.
-/

namespace NameBinding

/-! ### What is related -/

/-- Two scopes that the same construct has opened and that bind the same names, wherever they stand
in their trees. -/
structure Scope.Alike (s t : Scope) : Prop where
  header : s.toScopeHeader = t.toScopeHeader
  varBinding? : ∀ name, s.varBinding? name = t.varBinding? name
  typeBinding? : ∀ name, s.typeBinding? name = t.typeBinding? name

theorem Scope.Alike.refl (s : Scope) : s.Alike s := ⟨rfl, fun _ => rfl, fun _ => rfl⟩

/-- What lookups ask of a declaration. -/
def Declaration.asked (decl : Declaration) : String × Option String × Span :=
  (decl.name, decl.declaredType, decl.span)

/-- Two scenes that differ in the numbering of their scopes only. -/
structure Scene.Alike (R : RecordInfo → RecordInfo → Prop) (scene other : Scene) : Prop where
  index : RecordIndex.AnswersAlike R scene.index other.index
  package : scene.package = other.package
  imports : scene.imports = other.imports
  table : ∀ id, (scene.table.get? id).map Declaration.asked =
    (other.table.get? id).map Declaration.asked

/-- The same names are bound around two scopes. -/
def Scene.SameAround (scene other : Scene) (scope place : ScopeId) : Prop :=
  List.Forall₂ Scope.Alike (scene.tree.chain scope) (other.tree.chain place)

/-- Two bases of member accesses that stand for related records. -/
structure BaseRecord.Rel (R : RecordInfo → RecordInfo → Prop) (b c : BaseRecord) : Prop where
  record : R b.record c.record
  isName : b.isName = c.isName

/-- Two entries that tell the same of one use, noted at the scopes `scope` and `place`. -/
inductive UseEntry.Moved (scope place : ScopeId) : UseEntry → UseEntry → Prop
  | reference (id : NodeId) (name : String) (span : Span) (hit : Option Hit) :
    Moved scope place (.reference ⟨id, name, scope, span, hit⟩)
      (.reference ⟨id, name, place, span, hit⟩)
  | member (id : NodeId) (label : String) (span : Span) (finding : MemberFinding) :
    Moved scope place (.member ⟨id, label, scope, span, finding⟩)
      (.member ⟨id, label, place, span, finding⟩)

/-- Two resolved expressions with the same uses, that stand for related records. -/
structure Resolved.Rel (R : RecordInfo → RecordInfo → Prop) (scope place : ScopeId)
    (first second : Resolved) : Prop where
  log : List.Forall₂ (UseEntry.Moved scope place) first.log second.log
  base : Option.Rel (BaseRecord.Rel R) first.base second.base

/-- Two computations that fail with one issue or succeed with related results. -/
inductive Outcomes {α β : Type} (T : α → β → Prop) : Except Issue α → Except Issue β → Prop
  | error (issue : Issue) : Outcomes T (.error issue) (.error issue)
  | ok {a : α} {b : β} : T a b → Outcomes T (.ok a) (.ok b)

/-- Computations that go on alike from related results have related outcomes. -/
theorem Outcomes.bind {α β γ δ : Type} {T : α → β → Prop} {U : γ → δ → Prop}
    {x : Except Issue α} {y : Except Issue β} {f : α → Except Issue γ} {g : β → Except Issue δ}
    (first : Outcomes T x y) (rest : ∀ a b, T a b → Outcomes U (f a) (g b)) :
    Outcomes U (x >>= f) (y >>= g) := by
  cases first with
  | error issue => exact .error issue
  | ok related => exact rest _ _ related

/-- Related values are both there or both missing. -/
theorem isSome_eq_of_rel {α β : Type} {T : α → β → Prop} {x : Option α} {y : Option β}
    (related : Option.Rel T x y) : x.isSome = y.isSome := by
  cases related <;> rfl

namespace Scene

variable {R : RecordInfo → RecordInfo → Prop} {scene other : Scene} {scope place : ScopeId}
  {s t : Scope}

/-! ### Names -/

section names

variable (scenes : Alike R scene other)

/-- The same record names stand around the scopes. -/
theorem recordNames_eq {xs ys : List Scope} (around : List.Forall₂ Scope.Alike xs ys) :
    xs.filterMap (·.recordName) = ys.filterMap (·.recordName) := by
  induction around with
  | nil => rfl
  | cons first _ ih => simp only [List.filterMap_cons, first.header, ih]

include scenes in
/-- Types are looked up in the same context. -/
theorem Alike.typeContext_eq (around : SameAround scene other scope place) :
    scene.typeContext scope = other.typeContext place := by
  rw [typeContext, typeContext, scenes.package, scenes.imports, recordNames_eq around]

include scenes in
/-- A record offers the same inherited field in both. -/
theorem Alike.inherited?_eq (owner : NodeId) (name : String) (level : Nat) (receiver : Bool) :
    scene.inherited? owner name level receiver = other.inherited? owner name level receiver := by
  unfold inherited?
  have known := scenes.index.recordById? owner
  generalize scene.index.recordById? owner = x, other.index.recordById? owner = y at known ⊢
  cases known with
  | none => rfl
  | @some r r' related =>
    have found := RecordIndex.findFieldIn_rel scenes.index related name
    simp only []
    generalize scene.index.findFieldIn r name = x, other.index.findFieldIn r' name = y at found ⊢
    cases found <;> rfl

include scenes in
/-- Scopes that are alike offer the same variable. -/
theorem Alike.offer?_eq (same : s.Alike t) (name : String) (use : Span) (level : Nat)
    (receiver : Bool) :
    scene.offer? name use level receiver s = other.offer? name use level receiver t := by
  unfold offer?
  rw [same.header, same.varBinding?, scenes.inherited?_eq]

include scenes in
/-- A search through scopes that are alike finds the same variable. -/
theorem Alike.searchVariable?_eq (name : String) (use : Span) {xs ys : List Scope}
    (around : List.Forall₂ Scope.Alike xs ys) (level : Nat) (receiver : Bool) :
    scene.searchVariable? name use level receiver xs =
      other.searchVariable? name use level receiver ys := by
  induction around generalizing level receiver with
  | nil => rfl
  | cons first _ ih =>
    unfold searchVariable?
    rw [scenes.offer?_eq first, first.header]
    simp only [ih]

/-- Scopes that are alike lie in the same record, seen from inside. -/
theorem innermostRecord?_eq {xs ys : List Scope} (around : List.Forall₂ Scope.Alike xs ys)
    (receiver : Bool) : innermostRecord? receiver xs = innermostRecord? receiver ys := by
  induction around generalizing receiver with
  | nil => rfl
  | cons first _ ih =>
    unfold innermostRecord?
    rw [first.header, ih]

/-- A search through scopes that are alike finds the same record under a name. -/
theorem findOfferedType?_eq (name : String) (use : Span) {xs ys : List Scope}
    (around : List.Forall₂ Scope.Alike xs ys) :
    xs.findSome? (offeredType? name use) = ys.findSome? (offeredType? name use) := by
  induction around with
  | nil => rfl
  | cons first _ ih =>
    rw [List.findSome?_cons, List.findSome?_cons, ih, offeredType?, offeredType?, first.header,
      first.typeBinding?]

/-- So a name is bound to the same record at both scopes. -/
theorem typeBinding?_eq (around : SameAround scene other scope place) (name : String)
    (use : Span) : scene.typeBinding? scope name use = other.typeBinding? place name use :=
  findOfferedType?_eq name use around

include scenes in
/-- A type name denotes related records. -/
theorem Alike.typeNamed?_rel (around : SameAround scene other scope place) (name : String)
    (use : Span) :
    Option.Rel R (scene.typeNamed? name scope use) (other.typeNamed? name place use) := by
  unfold typeNamed?
  simp only [typeBinding?_eq around, scenes.typeContext_eq around]
  cases other.typeBinding? place (RecordName.splitHead name).1 use with
  | none => exact RecordIndex.resolveType?_rel scenes.index name _
  | some binding =>
    simp only []
    have known := scenes.index.recordById? binding.target
    generalize scene.index.recordById? binding.target = x,
      other.index.recordById? binding.target = y at known ⊢
    cases known with
    | none => exact .none
    | some related =>
      cases (RecordName.splitHead name).2 with
      | none => exact .some related
      | some rest =>
        simp only [(scenes.index.alike _ _ related).name]
        exact scenes.index.get? _

include scenes in
/-- Both scopes have the same receivers of their own. -/
theorem Alike.ownReceiver?_eq (around : SameAround scene other scope place) (name : String)
    (inStatic : Bool) :
    scene.ownReceiver? scope name inStatic = other.ownReceiver? place name inStatic := by
  unfold ownReceiver?
  rw [innermostRecord?_eq around]
  split
  · rename_i record receiver qualifier _ _
    have asked := scenes.table record
    cases found : scene.table.get? record with
    | none =>
      rw [found] at asked
      rw [Option.map_eq_none_iff.mp asked.symm]
    | some decl =>
      rw [found] at asked
      obtain ⟨decl', found', same⟩ := Option.map_eq_some_iff.mp asked.symm
      have name : decl'.name = decl.name := congrArg Prod.fst same
      simp only [found', name]
  · rfl

include scenes in
/-- A bare name denotes the same. -/
theorem Alike.lookup?_eq (around : SameAround scene other scope place) (name : String) (use : Span)
    (inStatic : Bool) :
    scene.lookup? scope name use inStatic = other.lookup? place name use inStatic := by
  unfold lookup?
  rw [scenes.searchVariable?_eq name use around, typeBinding?_eq around,
    scenes.ownReceiver?_eq around]

end names

/-! ### Expressions -/

section expressions

variable (scenes : Alike R scene other)
  (around : SameAround scene other scope place)

/-- A record behind a name or a value is known in both scenes or in none. -/
theorem baseRecord_rel {x y : Option RecordInfo} (known : Option.Rel R x y) (isName : Bool) :
    Option.Rel (BaseRecord.Rel R) (x.map (⟨·, isName⟩)) (y.map (⟨·, isName⟩)) := by
  cases known with
  | none => exact .none
  | some related => exact .some ⟨related, rfl⟩

include scenes around in
/-- The records behind a resolution are related. -/
theorem Alike.recordBehind?_rel (resolution : Resolution) :
    Option.Rel (BaseRecord.Rel R) (scene.recordBehind? scope resolution)
      (other.recordBehind? place resolution) := by
  unfold recordBehind?
  cases resolution.kind with
  | record => exact baseRecord_rel (scenes.index.recordById? _) true
  | this | outerThis => exact baseRecord_rel (scenes.index.recordById? _) false
  | field | staticField =>
    rw [scenes.index.fieldById?]
    refine baseRecord_rel ?_ false
    cases other.index.fieldById? resolution.target with
    | none => exact .none
    | some field => exact scenes.index.get? field.type
  | parameter | localVar =>
    refine baseRecord_rel ?_ false
    have asked := scenes.table resolution.target
    cases found : scene.table.get? resolution.target with
    | none =>
      rw [found] at asked
      rw [Option.map_eq_none_iff.mp asked.symm]
      exact .none
    | some decl =>
      rw [found] at asked
      obtain ⟨decl', found', same⟩ := Option.map_eq_some_iff.mp asked.symm
      have type : decl'.declaredType = decl.declaredType := congrArg (·.2.1) same
      have span : decl'.span = decl.span := congrArg (·.2.2) same
      rw [found', Option.bind_some, Option.bind_some, type, span]
      cases decl.declaredType with
      | none => exact .none
      | some type => exact scenes.typeNamed?_rel around type decl.span

include scenes around in
/-- A bare name in front of a member denotes the same and stands for related records. -/
theorem Alike.lookupBase_rel (name : String) (use : Span) (inStatic : Bool) :
    (scene.lookupBase scope name use inStatic).1 = (other.lookupBase place name use inStatic).1 ∧
      Option.Rel (BaseRecord.Rel R) (scene.lookupBase scope name use inStatic).2
        (other.lookupBase place name use inStatic).2 := by
  unfold lookupBase
  rw [scenes.lookup?_eq around]
  cases other.lookup? place name use inStatic with
  | some hit => exact ⟨rfl, scenes.recordBehind?_rel around hit.resolved⟩
  | none =>
    have named := scenes.typeNamed?_rel around name use
    generalize scene.typeNamed? name scope use = x, other.typeNamed? name place use = y at named ⊢
    cases named with
    | none => exact ⟨rfl, .none⟩
    | some related =>
      refine ⟨?_, .some ⟨related, rfl⟩⟩
      simp only [(scenes.index.alike _ _ related).id]

include scenes around in
/-- A member access names related records in full, or none. -/
theorem Alike.qualifiedRecord?_rel (inStatic : Bool) (base : Expr) (access : MemberName) :
    Option.Rel R (scene.qualifiedRecord? scope inStatic base access)
      (other.qualifiedRecord? place inStatic base access) := by
  unfold qualifiedRecord?
  cases base.dottedPath? with
  | none => exact .none
  | some path =>
    simp only [scenes.lookup?_eq around, scenes.typeContext_eq around]
    have named := scenes.typeNamed?_rel around (RecordName.splitHead path).1 access.span
    rw [isSome_eq_of_rel named]
    split
    · exact .none
    · split
      · exact .none
      · exact RecordIndex.resolveType?_rel scenes.index _ _

include scenes in
/-- The members of related bases are the same. -/
theorem Alike.findMember_eq {b c : BaseRecord} (related : b.Rel R c) (member : String) :
    scene.findMember b member = other.findMember c member := by
  unfold findMember
  have found := RecordIndex.findFieldIn_rel scenes.index related.record member
  have nested : Option.Rel R
      (if b.isName then scene.index.get? (RecordName.qualify (some b.record.name) member)
        else none)
      (if c.isName then other.index.get? (RecordName.qualify (some c.record.name) member)
        else none) := by
    rw [related.isName, (scenes.index.alike _ _ related.record).name]
    split
    · exact scenes.index.get? _
    · exact .none
  generalize scene.index.findFieldIn b.record member = x,
    other.index.findFieldIn c.record member = y at found ⊢
  cases found with
  | found _ field => simp only [related.isName]
  | unknownRecord | external | notFound =>
    simp only []
    revert nested
    generalize (if b.isName then
        scene.index.get? (RecordName.qualify (some b.record.name) member) else none) = x,
      (if c.isName then
        other.index.get? (RecordName.qualify (some c.record.name) member) else none) = y
    intro nested
    cases nested with
    | none => rfl
    | some same => simp only [(scenes.index.alike _ _ same).id]

include scenes around in
/-- A member access finds the same on related bases. -/
theorem Alike.findAccess_eq (inStatic : Bool) {b c : Option BaseRecord}
    (related : Option.Rel (BaseRecord.Rel R) b c) (access : MemberName) :
    scene.findAccess scope inStatic b access = other.findAccess place inStatic c access := by
  cases related with
  | none => rfl
  | some related =>
    unfold findAccess findReceiver
    simp only [scenes.findMember_eq related, related.isName,
      (scenes.index.alike _ _ related.record).simpleName, scenes.lookup?_eq around]

include scenes around in
/-- A bare name is looked up with the same outcome, up to the scopes that it is noted with. -/
theorem Alike.resolveReference_rel (inStatic : Bool) (role : Role) (use : Reference) :
    Outcomes (Resolved.Rel R scope place) (scene.resolveReference scope inStatic role use)
      (other.resolveReference place inStatic role use) := by
  unfold resolveReference
  split
  · exact .error _
  · cases role with
    | value =>
      simp only [scenes.lookup?_eq around]
      exact .ok ⟨.cons (.reference ..) .nil, .none⟩
    | base =>
      obtain ⟨hit, base⟩ := scenes.lookupBase_rel around use.name use.span inStatic
      simp only [hit]
      exact .ok ⟨.cons (.reference ..) .nil, base⟩

end expressions

mutual

/-- An expression has the same uses at both scopes and stands for related records. -/
theorem Alike.resolve_rel (scenes : Alike R scene other)
    (around : SameAround scene other scope place) (inStatic : Bool) (role : Role) :
    (e : Expr) → Outcomes (Resolved.Rel R scope place) (scene.resolve scope inStatic role e)
      (other.resolve place inStatic role e)
  | .literal .. => by
    rw [resolve, resolve]
    exact .ok ⟨.nil, .none⟩
  | .reference use => by
    rw [resolve, resolve]
    exact scenes.resolveReference_rel around inStatic role use
  | .member base access => by
    rw [resolve, resolve]
    have inFull : Option.Rel R
        (if role = .base then scene.qualifiedRecord? scope inStatic base access else none)
        (if role = .base then other.qualifiedRecord? place inStatic base access else none) := by
      split
      · exact scenes.qualifiedRecord?_rel around inStatic base access
      · exact .none
    simp only []
    generalize (if role = .base then scene.qualifiedRecord? scope inStatic base access else none)
      = x, (if role = .base then other.qualifiedRecord? place inStatic base access else none)
      = y at inFull ⊢
    cases inFull with
    | some related =>
      simp only [(scenes.index.alike _ _ related).id]
      exact .ok ⟨.cons (.member ..) .nil, .some ⟨related, rfl⟩⟩
    | none =>
      simp only []
      split
      · exact .error _
      · refine (scenes.resolve_rel around inStatic .base base).bind fun first second below => ?_
        simp only [scenes.findAccess_eq around inStatic below.base access]
        refine .ok ⟨List.rel_append below.log (.cons (.member ..) .nil), ?_⟩
        cases (other.findAccess place inStatic second.base access).2.resolved with
        | none => exact .none
        | some resolution => exact scenes.recordBehind?_rel around resolution
  | .call none _ arguments _ => by
    rw [resolve, resolve]
    exact (scenes.resolveAll_rel around inStatic arguments).bind fun _ _ log =>
      .ok ⟨log, .none⟩
  | .call (some receiver) _ arguments _ => by
    rw [resolve, resolve]
    exact (scenes.resolve_rel around inStatic .value receiver).bind fun _ _ first =>
      (scenes.resolveAll_rel around inStatic arguments).bind fun _ _ log =>
        .ok ⟨List.rel_append first.log log, .none⟩
  | .new type arguments span => by
    rw [resolve, resolve]
    exact (scenes.resolveAll_rel around inStatic arguments).bind fun _ _ log =>
      .ok ⟨log, baseRecord_rel (scenes.typeNamed?_rel around type.name span) false⟩
  | .assign target value _ => by
    rw [resolve, resolve]
    exact (scenes.resolve_rel around inStatic .value target).bind fun _ _ first =>
      (scenes.resolve_rel around inStatic .value value).bind fun _ _ second =>
        .ok ⟨List.rel_append first.log second.log, .none⟩
  | .binary _ left right _ => by
    rw [resolve, resolve]
    exact (scenes.resolve_rel around inStatic .value left).bind fun _ _ first =>
      (scenes.resolve_rel around inStatic .value right).bind fun _ _ second =>
        .ok ⟨List.rel_append first.log second.log, .none⟩
  | .unary _ operand _ => by
    rw [resolve, resolve]
    exact (scenes.resolve_rel around inStatic .value operand).bind fun _ _ first =>
      .ok ⟨first.log, .none⟩
  | .cast type operand span => by
    rw [resolve, resolve]
    exact (scenes.resolve_rel around inStatic .value operand).bind fun _ _ first =>
      .ok ⟨first.log, baseRecord_rel (scenes.typeNamed?_rel around type.name span) false⟩
  | .index target position _ => by
    rw [resolve, resolve]
    exact (scenes.resolve_rel around inStatic .value target).bind fun _ _ first =>
      (scenes.resolve_rel around inStatic .value position).bind fun _ _ second =>
        .ok ⟨List.rel_append first.log second.log, .none⟩

/-- Several expressions have the same uses at both scopes. -/
theorem Alike.resolveAll_rel (scenes : Alike R scene other)
    (around : SameAround scene other scope place) (inStatic : Bool) :
    (es : List Expr) → Outcomes (List.Forall₂ (UseEntry.Moved scope place))
      (scene.resolveAll scope inStatic es) (other.resolveAll place inStatic es)
  | [] => by
    rw [resolveAll, resolveAll]
    exact .ok .nil
  | e :: rest => by
    rw [resolveAll, resolveAll]
    exact (scenes.resolve_rel around inStatic .value e).bind fun _ _ first =>
      (scenes.resolveAll_rel around inStatic rest).bind fun _ _ log =>
        .ok (List.rel_append first.log log)

end

/-- An expression used as a value has the same uses at both scopes. -/
theorem Alike.uses_rel (scenes : Alike R scene other)
    (around : SameAround scene other scope place) (inStatic : Bool) (value : Expr) :
    Outcomes (List.Forall₂ (UseEntry.Moved scope place)) (scene.uses scope inStatic value)
      (other.uses place inStatic value) :=
  (scenes.resolve_rel around inStatic .value value).bind fun _ _ related =>
    .ok related.log

end Scene

end NameBinding
