import NameBinding.Proofs.IssueSources

/-!
# Where receivers end

A field that is named without a base is reached through the record of some scope around the use.
Static records and methods between the use and this scope cut it off, and so does the initializer
of a static field: then there is no receiver, the record itself is understood before the name,
and an instance field is worth a warning. Otherwise the receiver is `this` in the innermost record
and an outer receiver further out.
-/

namespace NameBinding

variable {unit : TranslationUnit} {tree : ScopeTree} {state : Registration}

/-! ### Warnings of a static context -/

/-- Whether an issue warns of an instance member that is reached without a receiver. -/
def Issue.isStaticContext (issue : Issue) : Bool :=
  match issue.cause with
  | .staticContext _ => true
  | _ => false

/-- Issues that are no warnings of a static context are left out. -/
theorem filter_isStaticContext_eq_nil {issues : List Issue}
    (h : ∀ issue ∈ issues, issue.isStaticContext = false) :
    issues.filter (·.isStaticContext) = [] := by
  rw [List.filter_eq_nil_iff]
  intro issue listed
  rw [h issue listed]
  exact Bool.false_ne_true

/-- The warnings of a static context are those of the log: no other phase gives any. -/
theorem resolveUnit_staticContexts {index : RecordIndex} {options : Options}
    {analysis : UnitAnalysis} {log : UseLog}
    (run : resolveUnit unit index options = .ok analysis)
    (resolved : resolveReferences unit analysis.tree analysis.declarations index = .ok log) :
    (analysis.issues.filter (·.isStaticContext)).Perm
      ((log.issues options.reportUnresolved).filter (·.isStaticContext)) := by
  obtain ⟨tree, state, other, phases⟩ := UnitAnalysis.exists_phases run
  cases phases.resolved_eq.symm.trans resolved
  have duplicates : state.issues.filter (·.isStaticContext) = [] := by
    refine filter_isStaticContext_eq_nil fun issue listed => ?_
    obtain ⟨name, first, cause⟩ := registered_reportsDuplicates phases.registered issue listed
    rw [Issue.isStaticContext, cause]
  have collisions : (collisionIssues state.tree index).filter (·.isStaticContext) = [] := by
    refine filter_isStaticContext_eq_nil fun issue listed => ?_
    obtain ⟨name, first, cause⟩ := collisionIssues_duplicate issue listed
    rw [Issue.isStaticContext, cause]
  have shadows : (shadowsOf options state.tree log).filter (·.isStaticContext) = [] := by
    refine filter_isStaticContext_eq_nil fun issue listed => ?_
    obtain ⟨name, other, cause⟩ := shadowsOf_ambiguousShadow issue listed
    rw [Issue.isStaticContext, cause]
  rw [phases.issues_eq run]
  refine ((List.mergeSort_perm _ _).filter _).trans ?_
  rw [List.filter_append, List.filter_append, List.filter_append, duplicates, collisions, shadows,
    List.append_nil, List.append_nil, List.nil_append]

/-! ### Fields and the scopes that they are reached through -/

/-- Only the scopes of records bind fields. -/
def ScopeTree.FieldsInRecords (tree : ScopeTree) : Prop :=
  ∀ t ∈ tree.scopes, ∀ b ∈ t.vars, b.kind.isField = true → t.kind = .record

namespace Scene

variable {scene : Scene} {scope : ScopeId} {name : String} {use : Span} {inStatic : Bool}
  {hit : Hit} {level : Nat} {receiver : Bool} {t : Scope}

/-- A field is offered by the scope of a record, behind this record. -/
theorem ofField_of_offer? (fields : ∀ b ∈ t.vars, b.kind.isField = true → t.kind = .record)
    (offered : scene.offer? name use level receiver t = some hit)
    (isField : hit.resolved.kind.isField = true) :
    t.kind = .record ∧ hit = .ofField t.owner level receiver hit.resolved := by
  have elsewhere : ∀ b, t.varBinding? name = some b → hit.resolved = b.resolution →
      t.kind = .record := by
    intro b bound same
    rw [same] at isField
    exact fields b (Scope.mem_of_varBinding? bound).1 isField
  unfold offer? at offered
  cases kind : t.kind with
  | record =>
    simp only [kind] at offered
    cases bound : t.varBinding? name with
    | none =>
      simp only [bound] at offered
      obtain ⟨_, _, field, _, _, rfl⟩ := inherited?_eq_some_iff.mp offered
      exact ⟨rfl, rfl⟩
    | some b =>
      simp only [bound] at offered
      split at offered
      · cases offered
        exact ⟨rfl, rfl⟩
      · rename_i noField
        cases offered
        exact absurd isField noField
  | block =>
    simp only [kind] at offered
    cases bound : t.varBinding? name with
    | none => simp [bound] at offered
    | some b =>
      simp only [bound] at offered
      split at offered
      · cases offered
        exact absurd (elsewhere b bound rfl) (by simp [kind])
      · cases offered
  | _ =>
    simp only [kind] at offered
    obtain ⟨b, bound, rfl⟩ := Option.map_eq_some_iff.mp offered
    exact absurd (elsewhere b bound rfl) (by simp [kind])

/-- A field is reached through the scope of a record around the use. The records before this scope
are counted, and there is a receiver unless something static comes before. -/
theorem exists_split_of_isField (fields : scene.tree.FieldsInRecords)
    (looked : scene.lookup? scope name use inStatic = some hit)
    (isField : hit.resolved.kind.isField = true) :
    ∃ before t after, scene.tree.chain scope = before ++ t :: after ∧ t.kind = .record ∧
      hit = .ofField t.owner (before.countP (·.kind == .record))
        (!inStatic && before.all (!·.isStatic)) hit.resolved := by
  rcases search_or_plain looked with search | plain
  · obtain ⟨before, t, after, chain, offered⟩ := exists_split_of_search search
    have inChain : t ∈ scene.tree.chain scope := chain ▸ List.mem_append_right _ List.mem_cons_self
    have ht := ScopeTree.mem_of_mem_chain inChain
    rw [Nat.zero_add] at offered
    obtain ⟨record, same⟩ := ofField_of_offer? (fields t ht) offered isField
    exact ⟨before, t, after, chain, record, same⟩
  · exact absurd isField plain.not_isField

/-- A bare name that is found to denote a field has been looked up as everywhere else. -/
theorem FoundIn.looked_of_isField {walk : List Expr} {site : ReferenceSite}
    (found : scene.FoundIn scope inStatic walk (.reference site)) (isHit : site.hit = some hit)
    (isField : hit.resolved.kind.isField = true) :
    scene.lookup? scope site.name site.span inStatic = some hit := by
  cases found with
  | value _ _ => exact isHit
  | base _ _ =>
    rcases lookupBase_eq_some isHit with looked | record
    · exact looked
    · rw [record] at isField
      cases isField

end Scene

/-- The scope of a record is cut off from a use: the use is part of the initializer of a static
field, or a static method or record comes before the scope on the way out. -/
def ScopeTree.CutOff (tree : ScopeTree) (scope : ScopeId) (inStatic : Bool) (t : Scope) : Prop :=
  inStatic = true ∨ ∃ s ∈ (tree.chain scope).takeWhile (·.id != t.id),
    s.isStatic = true ∧ (s.kind = .method ∨ s.kind = .record)

/-- Only methods and records can be static. -/
theorem ScopeTree.build_static (built : ScopeTree.build unit = .ok tree) {s : Scope}
    (hs : s ∈ tree.scopes) (isStatic : s.isStatic = true) :
    s.kind = .method ∨ s.kind = .record := by
  rcases build_header_cases built hs with same | ⟨record, _⟩ | plain
  · simp [same] at isStatic
  · exact .inr record
  · exact .inl (plain.method_of_isStatic isStatic)

/-- Only methods and records of a registered unit are static. -/
theorem registered_static (built : ScopeTree.build unit = .ok tree)
    (registered : registerDeclarations unit tree = .ok state) {s : Scope}
    (hs : s ∈ state.tree.scopes) (isStatic : s.isStatic = true) :
    s.kind = .method ∨ s.kind = .record := by
  obtain ⟨u, hu, alike⟩ := (registered_traced built registered).shape.symm.exists_mem hs
  have header : u.toScopeHeader = s.toScopeHeader := congrArg (·.1) alike
  rw [← header] at isStatic ⊢
  exact ScopeTree.build_static built hu isStatic

/-- A scope is cut off exactly if no receiver can be reached in it. -/
theorem ScopeTree.cutOff_iff {tree : ScopeTree} {scope : ScopeId} {inStatic : Bool} {t : Scope}
    {before after : List Scope} (formed : tree.Formed)
    (sorts : ∀ s ∈ tree.scopes, s.isStatic = true → s.kind = .method ∨ s.kind = .record)
    (split : tree.chain scope = before ++ t :: after) :
    tree.CutOff scope inStatic t ↔ (!inStatic && before.all (!·.isStatic)) = false := by
  rw [CutOff, formed.takeWhile_chain split]
  have inTree : ∀ s ∈ before, s ∈ tree.scopes := fun s hs =>
    mem_of_mem_chain (split ▸ List.mem_append_left _ hs)
  have boundary : (∃ s ∈ before, s.isStatic = true ∧ (s.kind = .method ∨ s.kind = .record)) ↔
      ∃ s ∈ before, s.isStatic = true := by
    constructor
    · rintro ⟨s, hs, isStatic, _⟩
      exact ⟨s, hs, isStatic⟩
    · rintro ⟨s, hs, isStatic⟩
      exact ⟨s, hs, isStatic, sorts s (inTree s hs) isStatic⟩
  rw [boundary]
  cases inStatic <;> simp

/-! ### What is understood before a field -/

namespace ReferenceSite

/-- What is understood before a field that is reached through the record of the scope `t`, and
whether there is a warning. -/
structure ReachedThrough (site : ReferenceSite) (tree : ScopeTree) (inStatic : Bool) (hit : Hit)
    (base : Resolution) (t : Scope) : Prop where
  record : base.kind = .record ↔ tree.CutOff site.scope inStatic t
  this : ¬tree.CutOff site.scope inStatic t →
    (base.kind = .this ↔ tree.enclosingRecord? site.scope = some t.id)
  outerThis : ¬tree.CutOff site.scope inStatic t →
    (base.kind = .outerThis ↔ tree.enclosingRecord? site.scope ≠ some t.id)
  warned : ∀ reportUnresolved,
    ⟨.staticContext site.name, site.span⟩ ∈ site.issues reportUnresolved ↔
      tree.CutOff site.scope inStatic t ∧ hit.resolved.kind = .field

/-- The bare name is written in an expression and looked up at its place. -/
def WrittenIn (site : ReferenceSite) (tree : ScopeTree) (within : Place) (value : Expr) : Prop :=
  site.scope = tree.placeOf within ∧ ∃ use, .reference use ∈ value.walk ∧ use.id = site.id ∧
    use.name = site.name ∧ use.span = site.span

/-- Static boundaries decide what is understood before the bare name, which is written in the
expression of a step: if it denotes a field, this is reached through the record of a scope around
the use, and through no other. -/
def StaticallyDecided (site : ReferenceSite) (tree : ScopeTree) (item : Step) : Prop :=
  ∃ within inStatic value, item = .uses within inStatic value ∧ site.WrittenIn tree within value ∧
    ∀ hit, site.hit = some hit → hit.resolved.kind.isField = true →
      ∃ base, hit.implicitBase = some base ∧
        (∃ t ∈ tree.chain site.scope, t.kind = .record ∧ t.owner = base.target) ∧
        ∀ t ∈ tree.scopes, t.kind = .record → t.owner = base.target →
          site.ReachedThrough tree inStatic hit base t

/-- What is reached through the record of a scope follows from what comes before this scope. -/
theorem reachedThrough_of_split {site : ReferenceSite} {inStatic : Bool} {hit : Hit} {t : Scope}
    {before after : List Scope} (formed : tree.Formed)
    (sorts : ∀ s ∈ tree.scopes, s.isStatic = true → s.kind = .method ∨ s.kind = .record)
    (isHit : site.hit = some hit) (isField : hit.resolved.kind.isField = true)
    (split : tree.chain site.scope = before ++ t :: after) (record : t.kind = .record)
    (offered : hit = .ofField t.owner (before.countP (·.kind == .record))
      (!inStatic && before.all (!·.isStatic)) hit.resolved) {base : Resolution}
    (understood : hit.implicitBase = some base) :
    site.ReachedThrough tree inStatic hit base t := by
  have cut : tree.CutOff site.scope inStatic t ↔
      (!inStatic && before.all (!·.isStatic)) = false := ScopeTree.cutOff_iff formed sorts split
  have innermost := formed.enclosingRecord?_of_split split record
  generalize (!inStatic && before.all (!·.isStatic)) = receiver at cut offered
  generalize before.countP (·.kind == .record) = level at innermost offered
  have warnings : hit.staticContext = (!receiver && hit.resolved.kind != .staticField) :=
    congrArg Hit.staticContext offered
  have kind :
      base.kind = if !receiver then .record else if level = 0 then .this else .outerThis := by
    rw [offered] at understood
    cases understood
    rfl
  refine ⟨?_, fun notCut => ?_, fun notCut => ?_, fun reportUnresolved => ?_⟩
  · rw [cut, kind]
    cases receiver with
    | false => simp
    | true => by_cases near : level = 0 <;> simp [near]
  · rw [cut, Bool.not_eq_false] at notCut
    rw [innermost, kind, notCut]
    by_cases near : level = 0 <;> simp [near]
  · rw [cut, Bool.not_eq_false] at notCut
    rw [ne_eq, innermost, kind, notCut]
    by_cases near : level = 0 <;> simp [near]
  · have listed : ⟨.staticContext site.name, site.span⟩ ∈ site.issues reportUnresolved ↔
        hit.staticContext = true := by
      rw [issues, isHit]
      cases flagged : hit.staticContext <;> simp [flagged]
    rw [listed, warnings, cut]
    cases sort : hit.resolved.kind with
    | field => simp
    | staticField => simp
    | _ => simp [sort, BindingKind.isField] at isField

end ReferenceSite

/-- A bare name that is found in a walk is written there and looked up at its place. -/
theorem Scene.FoundIn.writtenIn {scene : Scene} {within : Place} {inStatic : Bool} {value : Expr}
    {site : ReferenceSite}
    (found : scene.FoundIn (scene.tree.placeOf within) inStatic value.walk (.reference site)) :
    site.WrittenIn scene.tree within value := by
  cases found with
  | value listed _ => exact ⟨rfl, _, listed, rfl, rfl, rfl⟩
  | base listed _ => exact ⟨rfl, _, listed, rfl, rfl, rfl⟩

/-- In a registered unit a bare name that denotes a field has reached it through the scope of a
record around the use. -/
theorem registered_split_of_isField {index : RecordIndex} {within : Place} {inStatic : Bool}
    {value : Expr} {site : ReferenceSite} {hit : Hit} (built : ScopeTree.build unit = .ok tree)
    (registered : registerDeclarations unit tree = .ok state)
    (found : (state.scene unit index).FoundIn (state.tree.placeOf within) inStatic value.walk
      (.reference site))
    (isHit : site.hit = some hit) (isField : hit.resolved.kind.isField = true) :
    ∃ before t after, state.tree.chain site.scope = before ++ t :: after ∧ t.kind = .record ∧
      hit = .ofField t.owner (before.countP (·.kind == .record))
        (!inStatic && before.all (!·.isStatic)) hit.resolved := by
  have fields : (state.scene unit index).tree.FieldsInRecords :=
    fun t ht b hb => registered_field_binding built registered ht hb
  have place : site.scope = state.tree.placeOf within := found.writtenIn.1
  rw [place]
  exact Scene.exists_split_of_isField fields (found.looked_of_isField isHit isField) isField

/-- Static boundaries decide what is understood before the bare names of a registered unit. -/
theorem staticallyDecided_of_foundAt {index : RecordIndex} {item : Step} {site : ReferenceSite}
    (built : ScopeTree.build unit = .ok tree)
    (registered : registerDeclarations unit tree = .ok state)
    (found : (state.scene unit index).FoundAt item (.reference site)) :
    site.StaticallyDecided state.tree item := by
  obtain ⟨within, inStatic, value, rfl, found⟩ := found
  have formed := (registered_traced built registered).formed
  refine ⟨within, inStatic, value, rfl, found.writtenIn, fun hit isHit isField => ?_⟩
  obtain ⟨before, t, after, chain, record, offered⟩ :=
    registered_split_of_isField built registered found isHit isField
  have inChain : t ∈ state.tree.chain site.scope :=
    chain ▸ List.mem_append_right _ List.mem_cons_self
  obtain ⟨base, understood, target⟩ :
      ∃ base, hit.implicitBase = some base ∧ base.target = t.owner := by
    rw [offered]
    exact ⟨_, rfl, rfl⟩
  refine ⟨base, understood, ⟨t, inChain, record, target.symm⟩, fun u hu _ owner => ?_⟩
  have same : u = t :=
    formed.eq_of_owner hu (ScopeTree.mem_of_mem_chain inChain) (owner.trans target)
  subst same
  exact ReferenceSite.reachedThrough_of_split formed
    (fun s hs => registered_static built registered hs) isHit isField chain record offered
    understood

/-- In every unit that is resolved, static boundaries decide what is understood before the bare
names in the expressions that its steps use, one step after the other; the flagged steps are the
initializers of static fields; and no other warnings of a static context are given than those
about the uses in the log. -/
theorem static_boundaries_decide {index : RecordIndex} {options : Options}
    {analysis : UnitAnalysis} (run : resolveUnit unit index options = .ok analysis) :
    (∀ within value, .uses within true value ∈ unit.outline .recordsFirst ↔
      ∃ site ∈ unit.recordSites, within = .node site.decl.id ∧
        ∃ field ∈ site.decl.fields, field.isStatic = true ∧ field.initializer = some value) ∧
    ∃ log parts, resolveReferences unit analysis.tree analysis.declarations index = .ok log ∧
      analysis.resolutions = .ofLog log ∧ log = parts.flatten ∧
      List.Forall₂ (fun item (part : UseLog) =>
        ∀ site ∈ part.references, site.StaticallyDecided analysis.tree item)
        (unit.outline .recordsFirst) parts ∧
      (analysis.issues.filter (·.isStaticContext)).Perm
        ((log.issues options.reportUnresolved).filter (·.isStaticContext)) := by
  obtain ⟨tree, state, log, phases⟩ := UnitAnalysis.exists_phases run
  obtain ⟨parts, whole, steps⟩ := phases.exists_parts
  refine ⟨fun within value => TranslationUnit.mem_static_uses, log, parts, phases.resolved_eq,
    phases.resolutions_eq, whole, ?_, resolveUnit_staticContexts run phases.resolved_eq⟩
  rw [phases.tree_eq]
  exact steps.imp fun item part found site listed =>
    staticallyDecided_of_foundAt phases.built phases.registered (found site listed)

/-- A field `x` that is used in the initializer of a static field, in a method, in a static method,
in a nested record and in a static nested record. -/
def boundaryUnit : TranslationUnit :=
  let int : TypeRef := { name := "int" }
  let use (id : UInt32) : Expr := .reference { id := ⟨id⟩, name := "x", span := { start := id } }
  let method (id : UInt32) (isStatic : Bool) : Method :=
    ⟨⟨id⟩, "m", isStatic, false, [], some ⟨⟨id + 1⟩, [.expr (use (id + 2))], {}⟩, {}⟩
  let nested (id : UInt32) (name : String) (isStatic : Bool) : Record :=
    ⟨⟨id⟩, name, none, isStatic, [], [method (id + 1) false], [], {}⟩
  let x : Field := { id := ⟨2⟩, name := "x", type := int }
  let copy : Field :=
    { id := ⟨3⟩, name := "c", type := int, isStatic := true, initializer := some (use 4) }
  { id := ⟨0⟩, name := "Boundary"
    records := [⟨⟨1⟩, "A", none, false, [x, copy], [method 10 false, method 20 true],
      [nested 30 "B" false, nested 40 "C" true], {}⟩] }

theorem static_boundaries_decide_sample :
    ∃ analysis, ∃ log : UseLog, ∃ parts : List UseLog,
      resolveUnit boundaryUnit (.build [boundaryUnit]) {} = .ok analysis ∧
      log.references.filterMap (fun site => site.hit.bind (·.implicitBase)) =
        [⟨⟨1⟩, .record⟩, ⟨⟨1⟩, .outerThis⟩, ⟨⟨1⟩, .record⟩, ⟨⟨1⟩, .this⟩, ⟨⟨1⟩, .record⟩] ∧
      (log.issues false).length = 3 ∧ log = parts.flatten ∧
      List.Forall₂ (fun item (part : UseLog) =>
        ∀ site ∈ part.references, site.StaticallyDecided analysis.tree item)
        (boundaryUnit.outline .recordsFirst) parts := by
  have counted : (resolveUnit boundaryUnit (.build [boundaryUnit]) {}).toOption.map
      (fun analysis => (resolveReferences boundaryUnit analysis.tree analysis.declarations
        (.build [boundaryUnit])).toOption.map fun log =>
          (log.references.filterMap (fun site => site.hit.bind (·.implicitBase)),
            (log.issues false).length)) =
      some (some ([⟨⟨1⟩, .record⟩, ⟨⟨1⟩, .outerThis⟩, ⟨⟨1⟩, .record⟩, ⟨⟨1⟩, .this⟩,
        ⟨⟨1⟩, .record⟩], 3)) := by
    decide +kernel
  obtain ⟨analysis, run, logged⟩ := exists_ok_of_toOption_map counted
  obtain ⟨other, resolved, both⟩ := exists_ok_of_toOption_map logged
  obtain ⟨bases, three⟩ := Prod.mk.inj both
  obtain ⟨_, log, parts, again, _, whole, decided, _⟩ := static_boundaries_decide run
  cases resolved.symm.trans again
  exact ⟨analysis, other, parts, run, bases, three, whole, decided⟩

end NameBinding
