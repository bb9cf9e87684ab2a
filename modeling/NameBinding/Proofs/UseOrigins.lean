import NameBinding.Proofs.Resolving

/-!
# Where the entries of a log come from

Every bare name in the log of a unit has been looked up, and every member access has been
searched on a record of the index. So what holds of all such searches holds of the log.
-/

namespace NameBinding

/-- The bare names of a log are those of its entries. -/
theorem UseLog.mem_references {log : UseLog} {site : ReferenceSite} :
    site ∈ log.references ↔ .reference site ∈ log := by
  rw [references, List.mem_filterMap]
  constructor
  · rintro ⟨entry, member, reference⟩
    cases entry with
    | reference other =>
      cases reference
      exact member
    | member other => cases reference
  · exact fun member => ⟨_, member, rfl⟩

/-- The member accesses of a log are those of its entries. -/
theorem UseLog.mem_members {log : UseLog} {site : MemberSite} :
    site ∈ log.members ↔ .member site ∈ log := by
  rw [members, List.mem_filterMap]
  constructor
  · rintro ⟨entry, member, access⟩
    cases entry with
    | reference other => cases access
    | member other =>
      cases access
      exact member
  · exact fun member => ⟨_, member, rfl⟩

namespace RecordIndex

variable {index : RecordIndex} {name : String} {record : RecordInfo}

/-- What is found under a qualified name is a record of the index. -/
theorem mem_of_get? (h : index.get? name = some record) : record ∈ index.records :=
  List.mem_of_find?_eq_some h

/-- What is found under an id is a record of the index. -/
theorem mem_of_recordById? {id : NodeId} (h : index.recordById? id = some record) :
    record ∈ index.records :=
  List.mem_reverse.mp (List.mem_of_find?_eq_some h)

/-- What a type name denotes is a record of the index. -/
theorem mem_of_resolveType? {context : TypeContext}
    (h : index.resolveType? name context = some record) : record ∈ index.records := by
  obtain ⟨candidate, _, found⟩ := List.exists_of_findSome?_eq_some h
  exact mem_of_get? found

end RecordIndex

namespace Scene

variable {scene : Scene} {scope : ScopeId} {name : String} {use : Span} {inStatic : Bool}

/-- A type name denotes a record of the index. -/
theorem mem_of_typeNamed? {record : RecordInfo}
    (h : scene.typeNamed? name scope use = some record) : record ∈ scene.index.records := by
  unfold typeNamed? at h
  split at h
  rename_i head rest _
  split at h
  · split at h
    · cases h
    · rename_i found
      split at h
      · cases h
        exact RecordIndex.mem_of_recordById? found
      · exact RecordIndex.mem_of_get? h
  · exact RecordIndex.mem_of_resolveType? h

/-- A base stands for a record of the index, if for any. -/
def KnownBase (scene : Scene) (base : Option BaseRecord) : Prop :=
  ∀ b ∈ base, b.record ∈ scene.index.records

/-- A base that stands for nothing is known. -/
theorem knownBase_none : scene.KnownBase none := by
  rintro b ⟨⟩

/-- A base is known if what is found for it is. -/
theorem knownBase_map {found : Option RecordInfo} {isName : Bool}
    (h : ∀ record ∈ found, record ∈ scene.index.records) :
    scene.KnownBase (found.map (⟨·, isName⟩)) := by
  intro b hb
  obtain ⟨record, hr, rfl⟩ := Option.map_eq_some_iff.mp hb
  exact h record hr

/-- What stands behind a resolution is known. -/
theorem knownBase_recordBehind? (resolution : Resolution) :
    scene.KnownBase (scene.recordBehind? scope resolution) := by
  unfold recordBehind?
  split
  · exact knownBase_map fun record => RecordIndex.mem_of_recordById?
  · exact knownBase_map fun record => RecordIndex.mem_of_recordById?
  · exact knownBase_map fun record => RecordIndex.mem_of_recordById?
  · refine knownBase_map fun record h => ?_
    obtain ⟨field, _, found⟩ := Option.bind_eq_some_iff.mp h
    exact RecordIndex.mem_of_get? found
  · refine knownBase_map fun record h => ?_
    obtain ⟨field, _, found⟩ := Option.bind_eq_some_iff.mp h
    exact RecordIndex.mem_of_get? found
  · refine knownBase_map fun record h => ?_
    obtain ⟨decl, _, h⟩ := Option.bind_eq_some_iff.mp h
    obtain ⟨type, _, found⟩ := Option.bind_eq_some_iff.mp h
    exact mem_of_typeNamed? found
  · refine knownBase_map fun record h => ?_
    obtain ⟨decl, _, h⟩ := Option.bind_eq_some_iff.mp h
    obtain ⟨type, _, found⟩ := Option.bind_eq_some_iff.mp h
    exact mem_of_typeNamed? found

/-- The record that a name in front of a member stands for is known. -/
theorem knownBase_lookupBase : scene.KnownBase (scene.lookupBase scope name use inStatic).2 := by
  unfold lookupBase
  split
  · exact knownBase_recordBehind? _
  · split
    · rename_i record found
      rintro b ⟨⟩
      exact mem_of_typeNamed? found
    · exact knownBase_none

/-- The record that an access names as a whole is known. -/
theorem mem_of_qualifiedRecord? {base : Expr} {access : MemberName} {record : RecordInfo}
    (h : scene.qualifiedRecord? scope inStatic base access = some record) :
    record ∈ scene.index.records := by
  unfold qualifiedRecord? at h
  split at h
  · cases h
  · dsimp only at h
    split at h
    · cases h
    · split at h
      · cases h
      · exact RecordIndex.mem_of_resolveType? h

/-- What an expression stands for as a base is a record of the index. -/
theorem resolve_knownBase {role : Role} {outcome : Resolved} {e : Expr}
    (run : scene.resolve scope inStatic role e = .ok outcome) : scene.KnownBase outcome.base := by
  cases e with
  | literal value span =>
    rw [resolve] at run
    cases run
    exact knownBase_none
  | reference use =>
    rw [resolve] at run
    obtain ⟨-, ⟨-, rfl⟩ | ⟨-, rfl⟩⟩ := of_resolveReference run
    · exact knownBase_none
    · exact knownBase_lookupBase
  | member base access =>
    obtain ⟨record, -, found, rfl⟩ | ⟨-, -, below, -, rfl⟩ := of_resolve_member run
    · rintro b ⟨⟩
      exact mem_of_qualifiedRecord? found
    · intro b hb
      obtain ⟨resolution, _, behind⟩ := Option.bind_eq_some_iff.mp hb
      exact knownBase_recordBehind? resolution b behind
  | call receiver name arguments span =>
    cases receiver with
    | none =>
      rw [resolve] at run
      obtain ⟨log, _, rest⟩ := bind_eq_ok_iff.mp run
      cases rest
      exact knownBase_none
    | some receiver =>
      rw [resolve] at run
      obtain ⟨first, _, rest⟩ := bind_eq_ok_iff.mp run
      obtain ⟨second, _, rest⟩ := bind_eq_ok_iff.mp rest
      cases rest
      exact knownBase_none
  | new type arguments span =>
    rw [resolve] at run
    obtain ⟨log, _, rest⟩ := bind_eq_ok_iff.mp run
    cases rest
    exact knownBase_map fun _ => mem_of_typeNamed?
  | assign target value span | binary operator target value span | index target value span =>
    rw [resolve] at run
    obtain ⟨first, _, rest⟩ := bind_eq_ok_iff.mp run
    obtain ⟨second, _, rest⟩ := bind_eq_ok_iff.mp rest
    cases rest
    exact knownBase_none
  | unary operator operand span =>
    rw [resolve] at run
    obtain ⟨first, _, rest⟩ := bind_eq_ok_iff.mp run
    cases rest
    exact knownBase_none
  | cast type operand span =>
    rw [resolve] at run
    obtain ⟨first, _, rest⟩ := bind_eq_ok_iff.mp run
    cases rest
    exact knownBase_map fun _ => mem_of_typeNamed?

/-! ### Uses inside an expression -/

/-- How an entry of the log of an expression has come about, told by the expressions that a walk
over it reaches: a bare name was looked up, as a value or as a base; a member access was the full
name of a record, or it was searched on its base. -/
inductive FoundIn (scene : Scene) (scope : ScopeId) (inStatic : Bool) (walk : List Expr) :
    UseEntry → Prop
  | value {use : Reference} : .reference use ∈ walk → use.name ≠ "" →
    scene.FoundIn scope inStatic walk (.reference ⟨use.id, use.name, scope, use.span,
      scene.lookup? scope use.name use.span inStatic⟩)
  | base {use : Reference} : .reference use ∈ walk → use.name ≠ "" →
    scene.FoundIn scope inStatic walk (.reference ⟨use.id, use.name, scope, use.span,
      (scene.lookupBase scope use.name use.span inStatic).1⟩)
  | recordName {base : Expr} {access : MemberName} {record : RecordInfo} :
    .member base access ∈ walk → scene.qualifiedRecord? scope inStatic base access = some record →
    scene.FoundIn scope inStatic walk
      (.member ⟨access.id, access.name, scope, access.span, .recordName record.id⟩)
  | member {base : Expr} {access : MemberName} {below : Resolved} :
    .member base access ∈ walk → access.name ≠ "" →
    scene.resolve scope inStatic .base base = .ok below →
    scene.FoundIn scope inStatic walk
      (.member ⟨access.id, (scene.findAccess scope inStatic below.base access).1, scope,
        access.span, (scene.findAccess scope inStatic below.base access).2⟩)

section FoundIn

variable {walk more : List Expr} {entry : UseEntry} {log : UseLog}

/-- What is found in a walk is found in a longer one. -/
theorem FoundIn.mono (h : scene.FoundIn scope inStatic walk entry) (sub : walk ⊆ more) :
    scene.FoundIn scope inStatic more entry := by
  cases h with
  | value listed named => exact .value (sub listed) named
  | base listed named => exact .base (sub listed) named
  | recordName listed found => exact .recordName (sub listed) found
  | member listed named below => exact .member (sub listed) named below

/-- What is found in part of a walk is found in the walk. -/
theorem foundIn_mono (h : ∀ entry ∈ log, scene.FoundIn scope inStatic walk entry)
    (sub : walk ⊆ more) : ∀ entry ∈ log, scene.FoundIn scope inStatic more entry :=
  fun entry member => (h entry member).mono sub

/-- What is found in two walks is found in one after the other. -/
theorem foundIn_append {xs ys : UseLog} (hx : ∀ entry ∈ xs, scene.FoundIn scope inStatic walk entry)
    (hy : ∀ entry ∈ ys, scene.FoundIn scope inStatic more entry) :
    ∀ entry ∈ xs ++ ys, scene.FoundIn scope inStatic (walk ++ more) entry := by
  intro entry member
  rcases List.mem_append.mp member with member | member
  · exact (hx entry member).mono (List.subset_append_left _ _)
  · exact (hy entry member).mono (List.subset_append_right _ _)

section

variable {α β : Type} {logOf : α → UseLog} {logOf' : β → UseLog} {first : Except Issue α}
  {second : Except Issue β} {outcome : Resolved} {standing : Option BaseRecord}

/-- What is used in an operand is found in the expression around it. -/
theorem foundIn_single (e : Expr)
    (hfirst : ∀ {a}, first = .ok a → ∀ entry ∈ logOf a, scene.FoundIn scope inStatic walk entry)
    (run : (do
      let a ← first
      (.ok ⟨logOf a, standing⟩ : Except Issue Resolved)) = .ok outcome) :
    ∀ entry ∈ outcome.log, scene.FoundIn scope inStatic (e :: walk) entry := by
  obtain ⟨a, ha, rest⟩ := bind_eq_ok_iff.mp run
  cases rest
  exact foundIn_mono (hfirst ha) (List.subset_cons_self _ _)

/-- Two operands that are used one after the other are found in the expression around them. -/
theorem foundIn_pair (e : Expr)
    (hfirst : ∀ {a}, first = .ok a → ∀ entry ∈ logOf a, scene.FoundIn scope inStatic walk entry)
    (hsecond : ∀ {b}, second = .ok b → ∀ entry ∈ logOf' b, scene.FoundIn scope inStatic more entry)
    (run : (do
      let a ← first
      let b ← second
      (.ok { log := logOf a ++ logOf' b } : Except Issue Resolved)) = .ok outcome) :
    ∀ entry ∈ outcome.log, scene.FoundIn scope inStatic (e :: (walk ++ more)) entry := by
  obtain ⟨a, ha, rest⟩ := bind_eq_ok_iff.mp run
  obtain ⟨b, hb, rest⟩ := bind_eq_ok_iff.mp rest
  cases rest
  exact foundIn_mono (foundIn_append (hfirst ha) (hsecond hb)) (List.subset_cons_self _ _)

end

end FoundIn

mutual

/-- The entries of the log of an expression are found in it. -/
theorem resolve_foundIn {role : Role} {outcome : Resolved} :
    (e : Expr) → scene.resolve scope inStatic role e = .ok outcome →
      ∀ entry ∈ outcome.log, scene.FoundIn scope inStatic e.walk entry
  | .literal .., run => by
    rw [resolve] at run
    cases run
    simp
  | .reference use, run => by
    rw [resolve] at run
    have listed : .reference use ∈ (Expr.reference use).walk := by simp [Expr.walk]
    intro entry member
    obtain ⟨named, ⟨-, rfl⟩ | ⟨-, rfl⟩⟩ := of_resolveReference run
    · rw [List.mem_singleton.mp member]
      exact .value listed named
    · rw [List.mem_singleton.mp member]
      exact .base listed named
  | .member base access, run => by
    rw [Expr.walk]
    intro entry member
    obtain ⟨record, -, found, rfl⟩ | ⟨-, named, below, hbelow, rfl⟩ := of_resolve_member run
    · rw [List.mem_singleton.mp member]
      exact .recordName List.mem_cons_self found
    · rcases List.mem_append.mp member with member | member
      · exact (resolve_foundIn base hbelow entry member).mono (List.subset_cons_self _ _)
      · rw [List.mem_singleton.mp member]
        exact .member List.mem_cons_self named hbelow
  | .call none _ arguments _, run => by
    rw [resolve] at run
    rw [Expr.walk]
    exact foundIn_single _ (resolveAll_foundIn arguments) run
  | .call (some receiver) _ arguments _, run => by
    rw [resolve] at run
    rw [Expr.walk]
    exact foundIn_pair _ (resolve_foundIn receiver) (resolveAll_foundIn arguments) run
  | .new _ arguments _, run => by
    rw [resolve] at run
    rw [Expr.walk]
    exact foundIn_single _ (resolveAll_foundIn arguments) run
  | .assign target value _, run => by
    rw [resolve] at run
    rw [Expr.walk]
    exact foundIn_pair _ (resolve_foundIn target) (resolve_foundIn value) run
  | .binary _ left right _, run => by
    rw [resolve] at run
    rw [Expr.walk]
    exact foundIn_pair _ (resolve_foundIn left) (resolve_foundIn right) run
  | .unary _ operand _, run => by
    rw [resolve] at run
    rw [Expr.walk]
    exact foundIn_single _ (resolve_foundIn operand) run
  | .cast _ operand _, run => by
    rw [resolve] at run
    rw [Expr.walk]
    exact foundIn_single _ (resolve_foundIn operand) run
  | .index target position _, run => by
    rw [resolve] at run
    rw [Expr.walk]
    exact foundIn_pair _ (resolve_foundIn target) (resolve_foundIn position) run

/-- The entries of the log of several expressions are found in them. -/
theorem resolveAll_foundIn {log : UseLog} :
    (es : List Expr) → scene.resolveAll scope inStatic es = .ok log →
      ∀ entry ∈ log, scene.FoundIn scope inStatic (Expr.walkAll es) entry
  | [], run => by
    rw [resolveAll] at run
    cases run
    simp
  | e :: rest, run => by
    obtain ⟨first, second, hfirst, hsecond, rfl⟩ := resolveAll_cons_eq_ok_iff.mp run
    rw [Expr.walkAll]
    exact foundIn_append (resolve_foundIn e hfirst) (resolveAll_foundIn rest hsecond)

end

/-! ### Uses of an outline -/

/-- How an entry of a log was found: a bare name was looked up, as a value or as a base; a member
access was the full name of a record, or it was searched on its base. -/
def Explains (scene : Scene) : UseEntry → Prop
  | .reference site => site.name ≠ "" ∧ ∃ inStatic,
    site.hit = scene.lookup? site.scope site.name site.span inStatic ∨
      site.hit = (scene.lookupBase site.scope site.name site.span inStatic).1
  | .member site =>
    (∃ record ∈ scene.index.records, site.finding = .recordName record.id) ∨
      ∃ inStatic base access, scene.KnownBase base ∧
        site.finding = (scene.findAccess site.scope inStatic base access).2

/-- What is found in a walk is explained. -/
theorem FoundIn.explains {walk : List Expr} {entry : UseEntry}
    (h : scene.FoundIn scope inStatic walk entry) : scene.Explains entry := by
  cases h with
  | value _ named => exact ⟨named, inStatic, .inl rfl⟩
  | base _ named => exact ⟨named, inStatic, .inr rfl⟩
  | recordName _ found => exact .inl ⟨_, mem_of_qualifiedRecord? found, rfl⟩
  | member _ _ below => exact .inr ⟨inStatic, _, _, resolve_knownBase below, rfl⟩

/-- How an entry of the log of a step was found: the step uses an expression, at its place. -/
def FoundAt (scene : Scene) (item : Step) (entry : UseEntry) : Prop :=
  ∃ within inStatic value, item = .uses within inStatic value ∧
    scene.FoundIn (scene.tree.placeOf within) inStatic value.walk entry

/-- The entries of the log of a step are found there. -/
theorem resolveStep_foundAt {item : Step} {log : UseLog} (run : scene.resolveStep item = .ok log) :
    ∀ entry ∈ log, scene.FoundAt item entry := by
  intro entry member
  cases item with
  | uses within inStatic value =>
    obtain ⟨outcome, houtcome, done⟩ := bind_eq_ok_iff.mp run
    cases done
    exact ⟨within, inStatic, value, rfl, resolve_foundIn value houtcome entry member⟩
  | record | opens | declares =>
    rw [log_eq_nil_of_resolveStep run nofun] at member
    cases member

/-- The log of an outline is put together from the logs of its steps. -/
theorem resolveSteps_parts {outline : List Step} {log : UseLog}
    (run : scene.resolveSteps outline = .ok log) :
    ∃ parts : List UseLog, log = parts.flatten ∧
      List.Forall₂ (fun item part => scene.resolveStep item = .ok part) outline parts := by
  induction outline generalizing log with
  | nil =>
    cases run
    exact ⟨[], rfl, .nil⟩
  | cons item rest ih =>
    obtain ⟨first, second, hfirst, hsecond, rfl⟩ := resolveSteps_cons_eq_ok_iff.mp run
    obtain ⟨parts, rfl, steps⟩ := ih hsecond
    exact ⟨first :: parts, rfl, .cons hfirst steps⟩

/-- Every entry of the log of an outline is found at one of its steps. -/
theorem resolveSteps_foundAt {outline : List Step} {log : UseLog}
    (run : scene.resolveSteps outline = .ok log) :
    ∀ entry ∈ log, ∃ item ∈ outline, scene.FoundAt item entry := by
  obtain ⟨parts, rfl, steps⟩ := resolveSteps_parts run
  intro entry member
  obtain ⟨part, listed, member⟩ := List.mem_flatten.mp member
  obtain ⟨item, outlined, resolved⟩ := exists_left_of_forall₂ steps part listed
  exact ⟨item, outlined, resolveStep_foundAt resolved entry member⟩

/-- The entries of the log of an outline are explained. -/
theorem resolveSteps_explained {outline : List Step} {log : UseLog}
    (run : scene.resolveSteps outline = .ok log) : ∀ entry ∈ log, scene.Explains entry := by
  intro entry member
  obtain ⟨_, _, _, _, _, _, found⟩ := resolveSteps_foundAt run entry member
  exact found.explains

end Scene

/-- The entries of the log of a unit are explained. -/
theorem resolveReferences_explained {unit : TranslationUnit} {tree : ScopeTree}
    {table : DeclTable} {index : RecordIndex} {log : UseLog}
    (run : resolveReferences unit tree table index = .ok log) :
    ∀ entry ∈ log, Scene.Explains ⟨tree, table, index, unit.package, unit.imports⟩ entry := by
  rw [resolveReferences_eq] at run
  exact Scene.resolveSteps_explained run

end NameBinding
