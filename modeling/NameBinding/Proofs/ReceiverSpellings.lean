import NameBinding.Proofs.DeclarationAccounts
import NameBinding.Proofs.PackageNames
import NameBinding.Proofs.ReceiverNames

/-!
# Two spellings of a receiver

The receiver of an enclosing record `N` is written `N.this`, as one name or as a member access. Both
spellings denote the same and raise the same issues where `N` itself denotes a record: where no
variable obscures it, and where a record of a block is used after its declaration.
-/

namespace NameBinding

/-- An index knows the records of this simple name in a unit, by this name. -/
def RecordIndex.Knows (index : RecordIndex) (unit : TranslationUnit) (name : String) : Prop :=
  ∀ site ∈ unit.recordSites, site.decl.name = name →
    ∃ info, index.recordById? site.decl.id = some info ∧ info.simpleName = name

/-- The index of a program with distinct ids knows the records of its units, but for those in the
headers of loops. -/
theorem RecordIndex.knows_of_program {units : List TranslationUnit}
    {externals : List ExternalRecord} (distinct : RecordIndex.DistinctIds units externals)
    {unit : TranslationUnit} (member : unit ∈ units) {name : String}
    (headers : ∀ site ∈ unit.recordSites, site.decl.name = name → site.inHeader = false) :
    (RecordIndex.ofProgram units externals).Knows unit name := by
  intro site h named
  have known := RecordIndex.recordById?_site distinct member h
  rw [if_neg (by simp [headers site h named])] at known
  exact ⟨_, known, named⟩

section

variable {unit : TranslationUnit} {tree : ScopeTree} {state : Registration}

/-- The name of a record is bound in the scope around it, to the record or to one declared before
it. -/
theorem registered_record_bound (built : ScopeTree.build unit = .ok tree)
    (registered : registerDeclarations unit tree = .ok state) {t : Scope}
    (ht : t ∈ state.tree.scopes) (record : t.kind = .record) :
    ∃ p around name b, state.tree.chain t.id = t :: p :: around ∧
      unit.simpleName? t.owner = some name ∧ p.typeBinding? name = some b := by
  have traced := registered_traced built registered
  obtain ⟨site, listed, owner⟩ := registered_record_scope built registered ht record
  obtain ⟨within, member⟩ := TranslationUnit.mem_recordSites.mp listed
  obtain ⟨s, hs, mirror⟩ := ScopeTree.build_shows built _
    (mem_openingsOf.mpr ⟨_, unit.outline_perm.mem_iff.mp member, rfl⟩)
  obtain ⟨parent, hasParent, place⟩ := mirror.parent
  have chain : state.tree.chain t.id = t :: state.tree.chain parent := by
    obtain ⟨u, hu, alike⟩ := traced.shape.exists_mem hs
    have sameOwner : u.owner = t.owner :=
      (congrArg (·.1.owner) alike).trans ((congrArg (·.owner) mirror.header).trans owner)
    obtain rfl := traced.formed.eq_of_owner hu ht sameOwner
    have sameParent : u.parent = s.parent := congrArg (·.2.2) alike
    exact traced.formed.chain_of_parent (traced.formed.scope?_id hu) (sameParent.trans hasParent)
  obtain ⟨d, hd, scope, id, name⟩ : ∃ d ∈ state.table.entries, d.scope = parent ∧
      d.id = t.owner ∧ d.bindingKind = .record := by
    refine ⟨site.declaration (tree.recordNameOf site.decl.id) (tree.placeOf within), ?_,
      ScopeTree.placeOf_eq place, owner, rfl⟩
    rw [registered_entries registered]
    exact List.mem_filterMap.mpr ⟨_, member, rfl⟩
  obtain ⟨before, after, split⟩ := List.append_of_mem hd
  obtain ⟨b, held, -⟩ := (registered_accounts built registered).held before d after split
  rw [Registration.holder?, ScopeTree.holder?, scope, name] at held
  obtain ⟨p, found, bound⟩ := Option.bind_eq_some_iff.mp held
  obtain ⟨around, first⟩ := traced.formed.exists_chain_self (ScopeTree.mem_of_scope? found)
  rw [traced.formed.id_eq found] at first
  obtain ⟨other, ho, id', simple⟩ := registered_simpleName built registered ht record
  obtain rfl := registered_eq_of_id built registered hd ho (id'.trans id.symm)
  exact ⟨p, around, other.name, b, by rw [chain, first], simple, bound⟩

end

namespace Scene

variable {scene : Scene} {scope : ScopeId} {inStatic : Bool} {name : String} {use : Span}

/-- If a block declares the record of a scope, what it binds under the name of the record is
declared no later than the use. -/
def DeclaredBefore (scene : Scene) (t : Scope) (name : String) (use : Span) : Prop :=
  ∀ p ∈ (scene.tree.chain t.id).tail.head?, p.kind = .block →
    ∀ b ∈ p.typeBinding? name, b.definedAt.start ≤ use.start

instance (scene : Scene) (t : Scope) (name : String) (use : Span) :
    Decidable (scene.DeclaredBefore t name use) :=
  inferInstanceAs (Decidable (∀ p ∈ (scene.tree.chain t.id).tail.head?, p.kind = .block →
    ∀ b ∈ p.typeBinding? name, b.definedAt.start ≤ use.start))

/-- A scope around that binds a record name offers it, a block from the declaration on. -/
theorem typeBinding?_isSome {p : Scope} {b : Binding} (hp : p ∈ scene.tree.chain scope)
    (bound : p.typeBinding? name = some b)
    (visible : p.kind = .block → b.definedAt.start ≤ use.start) :
    (scene.typeBinding? scope name use).isSome := by
  have offered : offeredType? name use p = some b := by
    rw [offeredType?, Option.filter_eq_some_iff]
    refine ⟨bound, ?_⟩
    by_cases block : p.kind = .block
    · simp [(Span.startsNoLaterThan_iff _ _).mpr (visible block)]
    · simp [block]
  rw [typeBinding?, List.findSome?_isSome_iff]
  exact ⟨p, hp, by rw [offered]; rfl⟩

/-- A record name that no variable obscures is looked up as the record that it is bound to. -/
theorem lookup?_of_typeBinding? {b : Binding}
    (unobscured : ∀ s ∈ scene.tree.chain scope, ¬s.Offers scene.index name use)
    (bound : scene.typeBinding? scope name use = some b) :
    scene.lookup? scope name use inStatic = some { resolved := ⟨b.target, .record⟩ } := by
  rw [lookup?_eq, searchVariable?_eq_none unobscured, bound]
  rfl

/-- Two expressions at a scope mean the same: both are resolved, denote the same, raise the same
issues and, as bases of members, stand for the same record. -/
structure MeanAlike (scene : Scene) (scope : ScopeId) (inStatic : Bool) (role : Role)
    (first second : Expr) (one other : Resolved) : Prop where
  first : scene.resolve scope inStatic role first = .ok one
  second : scene.resolve scope inStatic role second = .ok other
  found : one.found = other.found
  issues : ∀ reportUnresolved,
    one.log.issues reportUnresolved = other.log.issues reportUnresolved
  base : role = .base → one.base = other.base

/-- In either role a bare name is looked up as a variable or receiver, unless it can only be the
name of a record. -/
theorem resolve_name_untyped {role : Role} {simple : Reference} (named : simple.name ≠ "")
    (typed : role = .base → (scene.lookup? scope simple.name simple.span inStatic).isSome ∨
      scene.typeNamed? simple.name scope simple.span = none) :
    ∃ base, scene.resolve scope inStatic role (.reference simple) =
        .ok ⟨[.reference ⟨simple.id, simple.name, scope, simple.span,
          scene.lookup? scope simple.name simple.span inStatic⟩], base⟩ ∧
      (role = .base → base = (scene.lookup? scope simple.name simple.span inStatic).bind fun hit =>
        scene.recordBehind? scope hit.resolved) := by
  cases role with
  | value => exact ⟨_, resolve_name_value named, nofun⟩
  | base =>
    have asBase : scene.lookupBase scope simple.name simple.span inStatic =
        (scene.lookup? scope simple.name simple.span inStatic,
          (scene.lookup? scope simple.name simple.span inStatic).bind fun hit =>
            scene.recordBehind? scope hit.resolved) := by
      unfold lookupBase
      cases looked : scene.lookup? scope simple.name simple.span inStatic with
      | some hit => rfl
      | none =>
        have untyped : scene.typeNamed? simple.name scope simple.span = none := by
          simpa [looked] using typed rfl
        rw [untyped]
        rfl
    refine ⟨_, ?_, fun _ => rfl⟩
    rw [resolve_name_base named, asBase]

/-- Behind a name that denotes a record of this simple name, `this` means what the name of the
receiver means. -/
theorem meanAlike_of_lookup? {role : Role} {record : RecordInfo} {id : NodeId}
    {simple base : Reference} {access : MemberName} (named : name ≠ "")
    (segment : (RecordName.splitHead name).2 = none)
    (looked : scene.lookup? scope name use inStatic = some { resolved := ⟨id, .record⟩ })
    (known : scene.index.recordById? id = some record) (sameName : record.simpleName = name)
    (typed : role = .base → (scene.lookup? scope (name ++ ".this") use inStatic).isSome ∨
      scene.typeNamed? (name ++ ".this") scope use = none)
    (isSimple : simple.name = name ++ ".this" ∧ simple.span = use)
    (isBase : base.name = name ∧ base.span = use)
    (isThis : access.name = "this" ∧ access.span = use) :
    ∃ one other, scene.MeanAlike scope inStatic role (.reference simple)
      (.member (.reference base) access) one other := by
  have unread : role = .base →
      scene.qualifiedRecord? scope inStatic (.reference base) access = none := by
    refine fun _ => qualifiedRecord?_of_visible rfl (isBase.1.symm ▸ segment) fun unseen => ?_
    have missing := unseen.lookup
    rw [isBase.1, isThis.2, looked] at missing
    cases missing
  have behind : scene.resolve scope inStatic .base (.reference base) =
      .ok ⟨[.reference ⟨base.id, name, scope, use, some { resolved := ⟨id, .record⟩ }⟩],
        some ⟨record, true⟩⟩ := by
    rw [resolve_name_base (isBase.1.symm ▸ named), isBase.1, isBase.2, lookupBase, looked]
    simp [recordBehind?, known]
  have second := resolve_member unread (by rw [isThis.1]; decide) behind
  have nonempty : simple.name ≠ "" := by simp [isSimple.1]
  obtain ⟨below, first, asBase⟩ := resolve_name_untyped nonempty
    (by rw [isSimple.1, isSimple.2]; exact typed)
  rw [isSimple.1, isSimple.2] at first asBase
  rw [findAccess_receiver isThis.1, sameName, isThis.2] at second
  cases receiver : scene.lookup? scope (name ++ ".this") use inStatic with
  | none =>
    rw [receiver] at first second asBase
    exact ⟨_, _, first, second, rfl, fun _ => rfl, asBase⟩
  | some hit =>
    rw [receiver] at first second asBase
    exact ⟨_, _, first, second, rfl, fun _ => rfl, asBase⟩

end Scene

/-- In every unit that is resolved, the two spellings of the receiver of an enclosing record mean
the same, from wherever they are written: as long as no variable obscures the record, as long as a
record of a block is used after its declaration, and as long as the name of the receiver is not
taken for the name of a nested record. -/
theorem receiver_spellings_agree {unit : TranslationUnit} {index : RecordIndex} {options : Options}
    {analysis : UnitAnalysis} (run : resolveUnit unit index options = .ok analysis)
    {scope : ScopeId} {t : Scope} (ht : t ∈ analysis.tree.chain scope) (record : t.kind = .record)
    {name : String} (simpleName : unit.simpleName? t.owner = some name)
    (segment : (RecordName.splitHead name).2 = none) (known : index.Knows unit name)
    (inStatic : Bool) (role : Role) (use : Span)
    (unobscured : ∀ s ∈ analysis.tree.chain scope, ¬s.Offers index name use)
    (declared : (analysis.scene unit index).DeclaredBefore t name use)
    (typed : role = .base →
      ((analysis.scene unit index).lookup? scope (name ++ ".this") use inStatic).isSome ∨
        (analysis.scene unit index).typeNamed? (name ++ ".this") scope use = none)
    (simple base : Reference) (access : MemberName)
    (isSimple : simple.name = name ++ ".this" ∧ simple.span = use)
    (isBase : base.name = name ∧ base.span = use)
    (isThis : access.name = "this" ∧ access.span = use) :
    ∃ one other, (analysis.scene unit index).MeanAlike scope inStatic role (.reference simple)
      (.member (.reference base) access) one other := by
  obtain ⟨tree, state, log, phases⟩ := UnitAnalysis.exists_phases run
  rw [phases.scene_eq] at declared typed ⊢
  rw [phases.tree_eq] at ht unobscured
  have formed := (registered_traced phases.built phases.registered).formed
  obtain ⟨p, around, other, b, chain, named, bound⟩ :=
    registered_record_bound phases.built phases.registered (ScopeTree.mem_of_mem_chain ht) record
  obtain rfl : other = name := Option.some.inj (named.symm.trans simpleName)
  have inChain : p ∈ state.tree.chain scope :=
    formed.mem_chain_of_mem_tail ht (by rw [chain]; exact List.mem_cons_self)
  have visible : p.kind = .block → b.definedAt.start ≤ use.start := fun block =>
    declared p (by rw [Registration.scene, chain]; rfl) block b bound
  have isBound : ((state.scene unit index).typeBinding? scope other use).isSome :=
    Scene.typeBinding?_isSome inChain bound visible
  obtain ⟨b', found⟩ := Option.isSome_iff_exists.mp isBound
  obtain ⟨s, hs, offered⟩ := List.exists_of_findSome?_eq_some found
  obtain ⟨hb, own⟩ := of_find?_key (Option.filter_eq_some_iff.mp offered).1
  obtain ⟨site, listed, target, siteName, -⟩ := registered_type_binding phases.built
    phases.registered (ScopeTree.mem_of_mem_chain hs) hb
  obtain ⟨info, isKnown, sameName⟩ := known site listed (siteName.symm.trans own)
  have nonempty : other ≠ "" := own ▸ siteName ▸ build_name_ne phases.built listed
  exact Scene.meanAlike_of_lookup? nonempty segment
    (Scene.lookup?_of_typeBinding? unobscured found) (target ▸ isKnown) sameName typed isSimple
    isBase isThis

/-- The name of a receiver, as one name. -/
def spelledShort (name : String) : Expr := .reference { id := ⟨20⟩, name := name ++ ".this" }

/-- The name of a receiver, as a member access. -/
def spelledLong (name : String) : Expr :=
  .member (.reference { id := ⟨21⟩, name }) { id := ⟨22⟩, name := "this" }

theorem receiver_spellings_agree_sample :
    ∃ base analysis one other, resolveUnit (receiverUnit base) (.build [receiverUnit base]) {} =
        .ok analysis ∧
      (analysis.scene (receiverUnit base) (.build [receiverUnit base])).MeanAlike ⟨4⟩ false .base
        (spelledShort "A") (spelledLong "A") one other ∧
      one.found = some ⟨⟨1⟩, .outerThis⟩ := by
  let base : Expr := spelledShort "A"
  have distinct : RecordIndex.DistinctIds [receiverUnit base] [] :=
    ⟨by decide +kernel, by decide +kernel⟩
  have known : (RecordIndex.build [receiverUnit base]).Knows (receiverUnit base) "A" :=
    RecordIndex.knows_of_program distinct List.mem_cons_self (by decide +kernel)
  have seen : (resolveUnit (receiverUnit base) (.build [receiverUnit base]) {}).toOption.map
      (fun analysis =>
        let scene := analysis.scene (receiverUnit base) (.build [receiverUnit base])
        ((scene.resolve ⟨4⟩ false .base (spelledShort "A")).toOption.map (·.found),
        decide ((scene.lookup? ⟨4⟩ "A.this" {} false).isSome ∧
          (∀ s ∈ analysis.tree.chain ⟨4⟩, scene.offer? "A" {} 0 true s = none) ∧
          ∃ t ∈ analysis.tree.chain ⟨4⟩, t.kind = .record ∧
            (receiverUnit base).simpleName? t.owner = some "A" ∧
            scene.DeclaredBefore t "A" {}))) =
      some (some (some ⟨⟨1⟩, .outerThis⟩), true) := by
    decide +kernel
  obtain ⟨analysis, run, facts⟩ := exists_ok_of_toOption_map seen
  obtain ⟨resolved, facts⟩ := Prod.mk.inj facts
  obtain ⟨receiver, unoffered, t, ht, record, simpleName, declared⟩ := of_decide_eq_true facts
  obtain ⟨one, other, alike⟩ := receiver_spellings_agree run ht record simpleName
    (by decide +kernel) known false .base {}
    (fun s hs => Scene.offer?_eq_none_iff.mp (unoffered s hs)) declared (fun _ => .inl receiver)
    { id := ⟨20⟩, name := "A.this" } { id := ⟨21⟩, name := "A" } { id := ⟨22⟩, name := "this" }
    ⟨rfl, rfl⟩ ⟨rfl, rfl⟩ ⟨rfl, rfl⟩
  obtain ⟨outcome, again, found⟩ := exists_ok_of_toOption_map resolved
  obtain rfl : outcome = one := Except.ok.inj (again.symm.trans alike.first)
  exact ⟨base, analysis, outcome, other, run, alike, found⟩

/-- Records around four blocks: one with a parameter that has the name of the record, one in a local
record, one in a record in the header of a loop, and one in a static record that cannot reach the
record around it, which has a nested record called `this`. -/
def spellingUnit : TranslationUnit :=
  let body (id : NodeId) (statements : List Stmt) : Option Block := some ⟨id, statements, {}⟩
  let parameter : Parameter := { id := ⟨3⟩, name := "A", type := { name := "A" } }
  let inner : Record := ⟨⟨7⟩, "L", none, false, [],
    [⟨⟨8⟩, "k", false, false, [], body ⟨9⟩ [], {}⟩], [], ⟨50, 60⟩⟩
  let header : Record := ⟨⟨14⟩, "H", none, false, [],
    [⟨⟨15⟩, "g", false, false, [], body ⟨16⟩ [], {}⟩], [], {}⟩
  let loop : Stmt := .forLoop ⟨17⟩ [.record header] none [] (.block ⟨⟨18⟩, [], {}⟩) {}
  let first : Method := ⟨⟨2⟩, "m", false, false, [parameter], body ⟨4⟩ [], {}⟩
  let second : Method := ⟨⟨5⟩, "n", false, false, [], body ⟨6⟩ [.record inner, loop], {}⟩
  let unreached : Record := ⟨⟨10⟩, "B", none, true, [],
    [⟨⟨11⟩, "h", false, false, [], body ⟨12⟩ [], {}⟩], [], {}⟩
  let this : Record := ⟨⟨13⟩, "this", none, false, [], [], [], {}⟩
  { id := ⟨0⟩, name := "Spellings"
    records := [⟨⟨1⟩, "A", none, false, [], [first, second], [unreached, this], {}⟩] }

/-- The two spellings of the receiver of an enclosing record denote different things. -/
structure Scene.SpellingsDiffer (scene : Scene) (unit : TranslationUnit) (place : Place)
    (role : Role) (name : String) (one other : Option Resolution) : Prop where
  enclosing : ∃ t ∈ scene.tree.chain (scene.tree.placeOf place), t.kind = .record ∧
    unit.simpleName? t.owner = some name
  short : (scene.resolve (scene.tree.placeOf place) false role (spelledShort name)).toOption.map
    (·.found) = some one
  long : (scene.resolve (scene.tree.placeOf place) false role (spelledLong name)).toOption.map
    (·.found) = some other
  differ : one ≠ other

instance (scene : Scene) (unit : TranslationUnit) (place : Place) (role : Role) (name : String)
    (one other : Option Resolution) :
    Decidable (scene.SpellingsDiffer unit place role name one other) :=
  decidable_of_iff
    ((∃ t ∈ scene.tree.chain (scene.tree.placeOf place), t.kind = .record ∧
        unit.simpleName? t.owner = some name) ∧
      (scene.resolve (scene.tree.placeOf place) false role (spelledShort name)).toOption.map
        (·.found) = some one ∧
      (scene.resolve (scene.tree.placeOf place) false role (spelledLong name)).toOption.map
        (·.found) = some other ∧ one ≠ other)
    ⟨fun ⟨enclosing, short, long, differ⟩ => ⟨enclosing, short, long, differ⟩,
      fun h => ⟨h.enclosing, h.short, h.long, h.differ⟩⟩

/-- The two spellings of a receiver denote different things where a parameter obscures the record,
before the record is declared in its block, where the index does not know the record, as it does not
know those in the headers of loops, and, as the base of a member, where the receiver cannot be
reached but the record has a nested one called `this`. -/
theorem receiver_spellings_differ :
    ∃ analysis, resolveUnit spellingUnit (.build [spellingUnit]) {} = .ok analysis ∧
      (analysis.scene spellingUnit (.build [spellingUnit])).SpellingsDiffer spellingUnit
        (.node ⟨4⟩) .value "A" (some ⟨⟨1⟩, .this⟩) none ∧
      (analysis.scene spellingUnit (.build [spellingUnit])).SpellingsDiffer spellingUnit
        (.node ⟨9⟩) .value "L" (some ⟨⟨7⟩, .this⟩) none ∧
      (analysis.scene spellingUnit (.build [spellingUnit])).SpellingsDiffer spellingUnit
        (.node ⟨16⟩) .value "H" (some ⟨⟨14⟩, .this⟩) none ∧
      (analysis.scene spellingUnit (.build [spellingUnit])).SpellingsDiffer spellingUnit
        (.node ⟨12⟩) .base "A" (some ⟨⟨13⟩, .record⟩) none := by
  have seen : (resolveUnit spellingUnit (.build [spellingUnit]) {}).toOption.map (fun analysis =>
      let scene := analysis.scene spellingUnit (.build [spellingUnit])
      decide (
        scene.SpellingsDiffer spellingUnit (.node ⟨4⟩) .value "A" (some ⟨⟨1⟩, .this⟩) none ∧
        scene.SpellingsDiffer spellingUnit (.node ⟨9⟩) .value "L" (some ⟨⟨7⟩, .this⟩) none ∧
        scene.SpellingsDiffer spellingUnit (.node ⟨16⟩) .value "H" (some ⟨⟨14⟩, .this⟩) none ∧
        scene.SpellingsDiffer spellingUnit (.node ⟨12⟩) .base "A" (some ⟨⟨13⟩, .record⟩) none)) =
      some true := by
    decide +kernel
  obtain ⟨analysis, run, differ⟩ := exists_ok_of_toOption_map seen
  exact ⟨analysis, run, of_decide_eq_true differ⟩

end NameBinding
