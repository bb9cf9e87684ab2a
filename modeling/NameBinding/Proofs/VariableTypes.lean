import NameBinding.Proofs.HitSources
import NameBinding.Proofs.TypeNames

/-!
# The types of variables, at the declaration and at a use

A variable is declared with the name of a type. When a member is accessed behind the variable, this
name is looked up from the scope of the use, with the position of the declaration. It denotes the
record that it denotes at the declaration as long as no scope in between gives it another meaning:
none offers a record under its first segment, and where no scope binds that segment, none is a
record inside which the index knows a record of that name. A local record with a nested record of
the same name does give it another meaning (`retyped_variable`).
-/

namespace NameBinding

/-- Locals and parameters, which stand for the records of their declared types. -/
def BindingKind.isVariable : BindingKind → Bool
  | parameter | localVar => true
  | _ => false

/-- A variable is no field. -/
theorem BindingKind.isField_of_isVariable {kind : BindingKind} (h : kind.isVariable = true) :
    kind.isField = false := by
  cases kind <;> first | rfl | cases h

/-- A variable is no receiver. -/
theorem BindingKind.isReceiver_of_isVariable {kind : BindingKind} (h : kind.isVariable = true) :
    kind.isReceiver = false := by
  cases kind <;> first | rfl | cases h

/-! ### Between a scope and one around it -/

/-- The scopes from one scope outwards up to another one, this one excluded. -/
def ScopeTree.between (tree : ScopeTree) (scope outer : ScopeId) : List Scope :=
  (tree.chain scope).takeWhile (·.id != outer)

/-- Around a scope lie first those between it and a scope around it, then those from there on. -/
theorem ScopeTree.Formed.chain_eq_between {tree : ScopeTree} (formed : tree.Formed)
    {scope : ScopeId} {t : Scope} (inChain : t ∈ tree.chain scope) :
    tree.chain scope = tree.between scope t.id ++ tree.chain t.id := by
  obtain ⟨s, hs, rfl⟩ := formed.exists_of_mem_chain inChain
  obtain ⟨before, after, chain, apart⟩ := List.eq_append_cons_of_mem inChain
  have other : ∀ u ∈ before, (u.id != t.id) = true := by
    intro u hu
    have listed : u ∈ tree.chain s.id := chain ▸ List.mem_append_left _ hu
    refine bne_iff_ne.mpr fun same => apart ?_
    rwa [← formed.eq_of_id (mem_of_mem_chain listed) (mem_of_mem_chain inChain) same]
  rw [between, formed.chain_of_split hs chain, chain, List.takeWhile_append_of_pos other,
    List.takeWhile_cons_of_neg (by simp), List.append_nil]

namespace Scene

variable {scene : Scene} {scope outer : ScopeId} {name : String} {use : Span}

/-- No scope between two gives a type name another meaning than it has at the outer one. -/
def KeepsMeaning (scene : Scene) (name : String) (use : Span) (scope outer : ScopeId) : Prop :=
  (∀ s ∈ scene.tree.between scope outer,
    offeredType? (RecordName.splitHead name).1 use s = none) ∧
  (scene.typeBinding? outer (RecordName.splitHead name).1 use = none →
    ∀ s ∈ scene.tree.between scope outer, ∀ record ∈ s.recordName,
      scene.index.get? (RecordName.qualify (some record) name) = none)

instance (scene : Scene) (name : String) (use : Span) (scope outer : ScopeId) :
    Decidable (scene.KeepsMeaning name use scope outer) :=
  inferInstanceAs (Decidable (_ ∧ (_ → ∀ s ∈ scene.tree.between scope outer,
    ∀ record ∈ s.recordName, _)))

/-- The first segment of a type name is bound to the same record where no scope in between offers
another one. -/
theorem typeBinding?_of_between
    (chain : scene.tree.chain scope = scene.tree.between scope outer ++ scene.tree.chain outer)
    (unoffered : ∀ s ∈ scene.tree.between scope outer, offeredType? name use s = none) :
    scene.typeBinding? scope name use = scene.typeBinding? outer name use := by
  rw [typeBinding?, typeBinding?, chain, List.findSome?_append,
    List.findSome?_eq_none_iff.mpr unoffered, Option.none_or]

/-- The index settles on the same record where it knows none inside a record in between. -/
theorem resolveType?_of_between
    (chain : scene.tree.chain scope = scene.tree.between scope outer ++ scene.tree.chain outer)
    (unknown : ∀ s ∈ scene.tree.between scope outer, ∀ record ∈ s.recordName,
      scene.index.get? (RecordName.qualify (some record) name) = none) :
    scene.index.resolveType? name (scene.typeContext scope) =
      scene.index.resolveType? name (scene.typeContext outer) := by
  have nearer : ∀ candidate ∈ ((scene.tree.between scope outer).filterMap (·.recordName)).map
      (fun record => RecordName.qualify (some record) name), scene.index.get? candidate = none := by
    intro candidate listed
    obtain ⟨record, inside, rfl⟩ := List.mem_map.mp listed
    obtain ⟨s, hs, own⟩ := List.mem_filterMap.mp inside
    exact unknown s hs record own
  rw [RecordIndex.resolveType?, RecordIndex.resolveType?, typeContext, typeContext, chain,
    List.filterMap_append, TypeContext.candidates_append, List.findSome?_append,
    List.findSome?_eq_none_iff.mpr nearer, Option.none_or]

/-- A type name that keeps its meaning denotes the same record. -/
theorem typeNamed?_of_keepsMeaning
    (chain : scene.tree.chain scope = scene.tree.between scope outer ++ scene.tree.chain outer)
    (keeps : scene.KeepsMeaning name use scope outer) :
    scene.typeNamed? name scope use = scene.typeNamed? name outer use := by
  obtain ⟨unoffered, unknown⟩ := keeps
  have binding := typeBinding?_of_between chain unoffered
  cases bound : scene.typeBinding? outer (RecordName.splitHead name).1 use with
  | none =>
    rw [typeNamed?_of_unbound (binding.trans bound), typeNamed?_of_unbound bound]
    exact resolveType?_of_between chain (unknown bound)
  | some record =>
    unfold typeNamed?
    split
    rename_i head rest parts
    rw [parts] at binding bound
    simp only [binding, bound]

/-- What a member is found to be behind an instance of a record, if that is known. -/
def findBehind (scene : Scene) (record : Option RecordInfo) (member : String) : MemberFinding :=
  match record with
  | none => .missing .unknownType
  | some record =>
    if member = "this" then .missing .noSuchMember else scene.findMember ⟨record, false⟩ member

/-- Behind an instance it does not matter where the member access stands. -/
theorem findAccess_instance (inStatic : Bool) (record : Option RecordInfo) (access : MemberName) :
    (scene.findAccess scope inStatic (record.map (⟨·, false⟩)) access).2 =
      scene.findBehind record access.name := by
  cases record with
  | none => rfl
  | some record =>
    rw [Option.map_some, findAccess, findBehind]
    split <;> rfl

/-- Behind a local or parameter stands the record that its declared type denotes, understood at the
scope of the use. -/
theorem recordBehind?_of_isVariable {resolution : Resolution} {d : Declaration} {type : String}
    (isVariable : resolution.kind.isVariable = true)
    (declared : scene.table.get? resolution.target = some d) (typed : d.declaredType = some type) :
    scene.recordBehind? scope resolution =
      (scene.typeNamed? type scope d.span).map (⟨·, false⟩) := by
  unfold recordBehind?
  cases kind : resolution.kind <;> simp [kind, BindingKind.isVariable] at isVariable <;>
    simp [declared, typed]

/-! ### Members behind variables -/

/-- A member access whose base is the bare name of a variable, resolved at a scope: `use` is found
to denote the local or parameter `d`, and `site` is the entry of the access in the log. -/
def AccessesVariable (scene : Scene) (use : Reference) (access : MemberName) (d : Declaration)
    (site : MemberSite) : Prop :=
  ∃ inStatic role outcome hit,
    scene.resolve site.scope inStatic role (.member (.reference use) access) = .ok outcome ∧
    outcome.log = [.reference ⟨use.id, use.name, site.scope, use.span, some hit⟩, .member site] ∧
    hit.resolved.kind.isVariable = true ∧ scene.table.get? hit.resolved.target = some d

/-- The variable has been looked up at the scope of the access, and the member has been searched
on the record behind it. -/
theorem AccessesVariable.exists_hit {use : Reference} {access : MemberName} {d : Declaration}
    {site : MemberSite} (accesses : scene.AccessesVariable use access d site) :
    ∃ inStatic hit, scene.lookup? site.scope use.name use.span inStatic = some hit ∧
      hit.resolved.kind.isVariable = true ∧ scene.table.get? hit.resolved.target = some d ∧
      site.finding = (scene.findAccess site.scope inStatic
        (scene.recordBehind? site.scope hit.resolved) access).2 := by
  obtain ⟨inStatic, role, outcome, hit, run, logged, isVariable, declared⟩ := accesses
  refine ⟨inStatic, hit, ?_⟩
  obtain ⟨record, -, -, rfl⟩ | ⟨-, -, below, behind, rfl⟩ := of_resolve_member run
  · simp at logged
  · rw [resolve] at behind
    obtain ⟨-, ⟨read, -⟩ | ⟨-, rfl⟩⟩ := of_resolveReference behind
    · cases read
    obtain ⟨first, second⟩ := List.cons.inj logged
    have found : (scene.lookupBase site.scope use.name use.span inStatic).1 = some hit := by
      injection first with same
      injection same
    rcases lookupBase_eq_some found with looked | record
    · refine ⟨looked, isVariable, declared, ?_⟩
      have base : (scene.lookupBase site.scope use.name use.span inStatic).2 =
          scene.recordBehind? site.scope hit.resolved := by
        simp [lookupBase, looked]
      have entry : MemberSite.mk access.id _ site.scope access.span _ = site :=
        UseEntry.member.inj (List.cons.inj second).1
      rw [← base]
      exact (congrArg MemberSite.finding entry).symm
    · rw [record] at isVariable
      cases isVariable

end Scene

/-! ### Variables that are offered -/

section

variable {unit : TranslationUnit} {tree : ScopeTree} {state : Registration} {index : RecordIndex}

/-- A variable of a registered unit, fields apart, is declared with a type. -/
theorem registered_type_written (registered : registerDeclarations unit tree = .ok state)
    {d : Declaration} (hd : d ∈ state.table.entries) (noRecord : d.bindingKind ≠ .record) :
    ∃ type, d.declaredType = some type := by
  rcases registered_cases registered hd with ⟨_, _, _, rfl⟩ | ⟨_, item, _, rfl⟩
  · exact absurd rfl noRecord
  · exact ⟨item.type, rfl⟩

/-- A local or parameter that a scope offers is declared in it, with a type. -/
theorem exists_declared_of_offer (built : ScopeTree.build unit = .ok tree)
    (registered : registerDeclarations unit tree = .ok state) {t : Scope}
    (ht : t ∈ state.tree.scopes) {name : String} {use : Span} {level : Nat} {receiver : Bool}
    {hit : Hit} (offer : (state.scene unit index).Offer name use level receiver t hit)
    (isVariable : hit.resolved.kind.isVariable = true) :
    ∃ d type, state.table.get? hit.resolved.target = some d ∧ d.declaredType = some type ∧
      d.scope = t.id := by
  have noField := BindingKind.isField_of_isVariable isVariable
  cases offer with
  | @bound _ b found same _ _ =>
    rw [same] at isVariable
    obtain ⟨noRecord, ⟨receiver, _⟩ | ⟨d, hd, rfl, here⟩⟩ :=
      (registered_traced built registered).vars t ht b (Scope.mem_of_varBinding? found).1
    · have noReceiver : b.kind.isReceiver = false := BindingKind.isReceiver_of_isVariable isVariable
      rw [noReceiver] at receiver
      cases receiver
    · obtain ⟨type, typed⟩ := registered_type_written registered hd noRecord
      exact ⟨d, type, same ▸ registered_get? built registered hd, typed, here⟩
  | own _ _ isField => exact absurd isField (Bool.eq_false_iff.mp noField)
  | @inherited _ _ field _ _ _ =>
    exact absurd field.isField_resolution (Bool.eq_false_iff.mp noField)

/-- Where a local or parameter is seen, it is declared further out, with a type. -/
theorem exists_declared_of_lookup (built : ScopeTree.build unit = .ok tree)
    (registered : registerDeclarations unit tree = .ok state) {scope : ScopeId} {name : String}
    {use : Span} {inStatic : Bool} {hit : Hit}
    (looked : (state.scene unit index).lookup? scope name use inStatic = some hit)
    (isVariable : hit.resolved.kind.isVariable = true) :
    ∃ d type, state.table.get? hit.resolved.target = some d ∧ d.declaredType = some type ∧
      ∃ t ∈ state.tree.chain scope, t.id = d.scope := by
  rcases Scene.offersHit_or_plain looked with ⟨t, inChain, level, receiver, offer⟩ | ⟨_, plain⟩
  · have ht : t ∈ state.tree.scopes := ScopeTree.mem_of_mem_chain inChain
    obtain ⟨d, type, declared, typed, here⟩ :=
      exists_declared_of_offer built registered ht offer isVariable
    exact ⟨d, type, declared, typed, t, inChain, here.symm⟩
  · rcases plain with kind | kind <;> rw [kind] at isVariable <;> cases isVariable

end

/-- What a member is found to be behind a variable is what it is found to be behind an instance of
the record that the declared type of the variable denotes at its declaration, when the type keeps
its meaning on the way to the access. -/
structure Scene.FollowsDeclaration (scene : Scene) (d : Declaration) (member : String)
    (site : MemberSite) : Prop where
  around : ∃ t ∈ scene.tree.chain site.scope, t.id = d.scope
  typed : ∃ type, d.declaredType = some type ∧
    (scene.KeepsMeaning type d.span site.scope d.scope →
      site.finding = scene.findBehind (scene.typeNamed? type d.scope d.span) member)

/-- The scene in which the uses of an analysed unit have been resolved. -/
def UnitAnalysis.scene (analysis : UnitAnalysis) (unit : TranslationUnit) (index : RecordIndex) :
    Scene :=
  ⟨analysis.tree, analysis.declarations, index, unit.package, unit.imports⟩

/-- In every unit that is resolved, members behind a local or parameter follow its declaration, from
wherever they are accessed. So two accesses to the same member of the same variable find the same,
when its type keeps its meaning on the way to both. -/
theorem members_follow_declarations {unit : TranslationUnit} {index : RecordIndex}
    {options : Options} {analysis : UnitAnalysis}
    (run : resolveUnit unit index options = .ok analysis) :
    (∀ use access d site, (analysis.scene unit index).AccessesVariable use access d site →
      (analysis.scene unit index).FollowsDeclaration d access.name site) ∧
    ∀ use access site use' access' site' d,
      (analysis.scene unit index).AccessesVariable use access d site →
      (analysis.scene unit index).AccessesVariable use' access' d site' →
      access.name = access'.name →
      (∀ type ∈ d.declaredType,
        (analysis.scene unit index).KeepsMeaning type d.span site.scope d.scope ∧
          (analysis.scene unit index).KeepsMeaning type d.span site'.scope d.scope) →
      site.finding = site'.finding := by
  obtain ⟨tree, state, log, phases⟩ := UnitAnalysis.exists_phases run
  have same : analysis.scene unit index = state.scene unit index := by
    rw [UnitAnalysis.scene, phases.tree_eq, phases.declarations_eq, Registration.scene]
  rw [same]
  have follows : ∀ use access d site, (state.scene unit index).AccessesVariable use access d site →
      (state.scene unit index).FollowsDeclaration d access.name site := by
    intro use access d site accesses
    obtain ⟨inStatic, hit, looked, isVariable, declared, found⟩ := accesses.exists_hit
    obtain ⟨other, type, again, typed, t, inChain, here⟩ :=
      exists_declared_of_lookup phases.built phases.registered looked isVariable
    obtain rfl : d = other := Option.some.inj (declared.symm.trans again)
    refine ⟨⟨t, inChain, here⟩, type, typed, fun keeps => ?_⟩
    have formed := (registered_traced phases.built phases.registered).formed
    have chain := formed.chain_eq_between inChain
    rw [here] at chain
    rw [found, Scene.recordBehind?_of_isVariable isVariable declared typed,
      Scene.findAccess_instance, Scene.typeNamed?_of_keepsMeaning chain keeps]
  refine ⟨follows, fun use access site use' access' site' d first second named keeps => ?_⟩
  obtain ⟨type, typed, found⟩ := (follows _ _ _ _ first).typed
  obtain ⟨type', typed', found'⟩ := (follows _ _ _ _ second).typed
  obtain rfl : type = type' := Option.some.inj (typed.symm.trans typed')
  obtain ⟨here, there⟩ := keeps type typed
  rw [found here, found' there, named]

/-- A method with a parameter of a record type of the unit, whose field is accessed behind the
parameter three times: in the body, in a block inside it, and in a local record that has a nested
record of the same name. -/
def retypingUnit : TranslationUnit :=
  let record (id : NodeId) (name : String) (field : NodeId) : Record :=
    ⟨id, name, none, false, [{ id := field, name := "x", type := { name := "int" } }], [], [], {}⟩
  let access (use member : NodeId) : Stmt :=
    .expr (.member (.reference { id := use, name := "p" }) { id := member, name := "x" })
  let reader : Method := ⟨⟨8⟩, "n", false, false, [], some ⟨⟨9⟩, [access ⟨10⟩ ⟨11⟩], {}⟩, {}⟩
  let inside : Record := ⟨⟨7⟩, "L", none, false, [], [reader], [record ⟨12⟩ "T" ⟨13⟩], {}⟩
  let body : Block :=
    ⟨⟨4⟩, [access ⟨5⟩ ⟨6⟩, .block ⟨⟨16⟩, [access ⟨17⟩ ⟨18⟩], {}⟩, .record inside], {}⟩
  let method : Method :=
    ⟨⟨2⟩, "m", false, false, [{ id := ⟨3⟩, name := "p", type := { name := "T" } }], some body, {}⟩
  { id := ⟨0⟩, name := "Retyping"
    records := [⟨⟨1⟩, "A", none, false, [], [method], [], {}⟩, record ⟨14⟩ "T" ⟨15⟩] }

theorem members_follow_declarations_sample :
    ∃ analysis d site site', resolveUnit retypingUnit (.build [retypingUnit]) {} = .ok analysis ∧
      (analysis.scene retypingUnit (.build [retypingUnit])).AccessesVariable
        { id := ⟨5⟩, name := "p" } { id := ⟨6⟩, name := "x" } d site ∧
      (analysis.scene retypingUnit (.build [retypingUnit])).AccessesVariable
        { id := ⟨17⟩, name := "p" } { id := ⟨18⟩, name := "x" } d site' ∧
      d.id = ⟨3⟩ ∧ site.scope ≠ site'.scope ∧ site.finding = .member ⟨⟨15⟩, .field⟩ false ∧
      (analysis.scene retypingUnit (.build [retypingUnit])).FollowsDeclaration d "x" site ∧
      site.finding = site'.finding := by
  let p : Declaration := ⟨⟨3⟩, "p", .parameter, some "T", false, ⟨2⟩, {}⟩
  let hit : Hit := { resolved := ⟨⟨3⟩, .parameter⟩ }
  let first : MemberSite := ⟨⟨6⟩, "x", ⟨3⟩, {}, .member ⟨⟨15⟩, .field⟩ false⟩
  let second : MemberSite := ⟨⟨18⟩, "x", ⟨4⟩, {}, .member ⟨⟨15⟩, .field⟩ false⟩
  have seen : (resolveUnit retypingUnit (.build [retypingUnit]) {}).toOption.map (fun analysis =>
      let scene := analysis.scene retypingUnit (.build [retypingUnit])
      let use (scope : ScopeId) (reference member : NodeId) : Option UseLog :=
        (scene.resolve scope false .value (.member (.reference { id := reference, name := "p" })
          { id := member, name := "x" })).toOption.map (·.log)
      (use ⟨3⟩ ⟨5⟩ ⟨6⟩, use ⟨4⟩ ⟨17⟩ ⟨18⟩, scene.table.get? ⟨3⟩,
        decide (scene.KeepsMeaning "T" {} ⟨3⟩ ⟨2⟩ ∧ scene.KeepsMeaning "T" {} ⟨4⟩ ⟨2⟩))) =
      some (some [.reference ⟨⟨5⟩, "p", ⟨3⟩, {}, some hit⟩, .member first],
        some [.reference ⟨⟨17⟩, "p", ⟨4⟩, {}, some hit⟩, .member second], some p, true) := by
    decide +kernel
  obtain ⟨analysis, run, facts⟩ := exists_ok_of_toOption_map seen
  obtain ⟨atFirst, facts⟩ := Prod.mk.inj facts
  obtain ⟨atSecond, facts⟩ := Prod.mk.inj facts
  obtain ⟨declared, keeps⟩ := Prod.mk.inj facts
  obtain ⟨outcome, resolved, logged⟩ := exists_ok_of_toOption_map atFirst
  obtain ⟨outcome', resolved', logged'⟩ := exists_ok_of_toOption_map atSecond
  have accesses : (analysis.scene retypingUnit (.build [retypingUnit])).AccessesVariable
      { id := ⟨5⟩, name := "p" } { id := ⟨6⟩, name := "x" } p first :=
    ⟨false, .value, outcome, hit, resolved, logged, rfl, declared⟩
  have accesses' : (analysis.scene retypingUnit (.build [retypingUnit])).AccessesVariable
      { id := ⟨17⟩, name := "p" } { id := ⟨18⟩, name := "x" } p second :=
    ⟨false, .value, outcome', hit, resolved', logged', rfl, declared⟩
  obtain ⟨follows, agree⟩ := members_follow_declarations run
  refine ⟨analysis, p, first, second, run, accesses, accesses', rfl, by decide, rfl,
    follows _ _ _ _ accesses, agree _ _ _ _ _ _ _ accesses accesses' rfl fun type typed => ?_⟩
  obtain rfl : "T" = type := Option.some.inj typed
  exact of_decide_eq_true keeps

/-- Inside a local record with a nested record of that name, the declared type of a parameter means
the nested record: the same member of the same parameter is found elsewhere than at the other
places, although the type denotes the other record at the declaration. -/
theorem retyped_variable :
    ∃ analysis log, resolveUnit retypingUnit (.build [retypingUnit]) {} = .ok analysis ∧
      resolveReferences retypingUnit analysis.tree analysis.declarations (.build [retypingUnit]) =
        .ok log ∧
      (∀ site ∈ log.references, site.resolved = some ⟨⟨3⟩, .parameter⟩) ∧
      log.members.map (fun site => (site.id, site.finding)) =
        [(⟨6⟩, .member ⟨⟨15⟩, .field⟩ false), (⟨18⟩, .member ⟨⟨15⟩, .field⟩ false),
          (⟨11⟩, .member ⟨⟨13⟩, .field⟩ false)] ∧
      ∃ d record, analysis.declarations.get? ⟨3⟩ = some d ∧ d.declaredType = some "T" ∧
        (analysis.scene retypingUnit (.build [retypingUnit])).typeNamed? "T" d.scope d.span =
          some record ∧ record.id = ⟨14⟩ := by
  have seen : (resolveUnit retypingUnit (.build [retypingUnit]) {}).toOption.map (fun analysis =>
      let scene := analysis.scene retypingUnit (.build [retypingUnit])
      ((resolveReferences retypingUnit analysis.tree analysis.declarations
          (.build [retypingUnit])).toOption.map fun log =>
        (decide (∀ site ∈ log.references, site.resolved = some ⟨⟨3⟩, .parameter⟩),
          log.members.map fun site => (site.id, site.finding)),
      decide ((analysis.declarations.get? ⟨3⟩).map (fun d =>
        (d.declaredType, (scene.typeNamed? "T" d.scope d.span).map (·.id))) =
          some (some "T", some ⟨14⟩)))) =
      some (some (true, [(⟨6⟩, .member ⟨⟨15⟩, .field⟩ false), (⟨18⟩, .member ⟨⟨15⟩, .field⟩ false),
          (⟨11⟩, .member ⟨⟨13⟩, .field⟩ false)]), true) := by
    decide +kernel
  obtain ⟨analysis, run, facts⟩ := exists_ok_of_toOption_map seen
  obtain ⟨logged, declared⟩ := Prod.mk.inj facts
  obtain ⟨log, resolved, entries⟩ := exists_ok_of_toOption_map logged
  obtain ⟨references, members⟩ := Prod.mk.inj entries
  obtain ⟨d, found, typed⟩ := Option.map_eq_some_iff.mp (of_decide_eq_true declared)
  obtain ⟨type, denotes⟩ := Prod.mk.inj typed
  obtain ⟨record, named, id⟩ := Option.map_eq_some_iff.mp denotes
  exact ⟨analysis, log, run, resolved, of_decide_eq_true references, members, d, record, found,
    type, named, id⟩

end NameBinding
