import NameBinding.Proofs.PackageNames

/-!
# Chains behind simple and full names

A chain of member accesses may start with the simple name `N` of a record or with its full name
`p.N`. Behind the simple name every member is searched on the record reached so far; behind the full
name each longer prefix of the chain is first tried as the full name of a record. Both chains denote
the same as long as every prefix that is the full name of a record is, member by member, the name
of this record, too. A field of the same name as a nested record sets the two readings apart, and so
does a record whose name is taken relative to the place of the chain (`full_names_read_apart`).
-/

namespace NameBinding

/-- Member accesses behind an expression, one after the other. -/
def Expr.behind (base : Expr) (accesses : List MemberName) : Expr := accesses.foldl .member base

namespace Scene

variable {scene : Scene} {scope : ScopeId} {inStatic : Bool} {role : Role} {base : Expr}
  {access : MemberName} {below : Option BaseRecord} {member path : String} {nested : RecordInfo}

/-- What a member is found to denote behind a base. -/
def memberFound (scene : Scene) (below : Option BaseRecord) (member : String) :
    Option Resolution :=
  below.bind fun record => (scene.findMember record member).resolved

/-- The record that a member behind a base stands for. -/
def memberBase (scene : Scene) (scope : ScopeId) (below : Option BaseRecord) (member : String) :
    Option BaseRecord :=
  (scene.memberFound below member).bind (scene.recordBehind? scope)

/-- The base names a record that has no field of this name, nor inherits one, and in which this
record is nested under the name. -/
def Nests (scene : Scene) (below : Option BaseRecord) (member : String) (nested : RecordInfo) :
    Prop :=
  ∃ around, below = some ⟨around, true⟩ ∧
    (∀ owner field, scene.index.findFieldIn around member ≠ .found owner field) ∧
    scene.index.get? (RecordName.qualify (some around.name) member) = some nested

/-- Every prefix of a chain that is the full name of a record names a record nested in the one
reached before. The whole chain is such a prefix only as the base of a further member. -/
def NestedAlong (scene : Scene) (scope : ScopeId) (role : Role) :
    Option BaseRecord → String → List String → Prop
  | below, path, member :: rest =>
    ((rest ≠ [] ∨ role = .base) → ∀ nested,
      scene.index.resolveType? (path ++ "." ++ member) (scene.typeContext scope) = some nested →
        scene.Nests below member nested) ∧
    scene.NestedAlong scope role (scene.memberBase scope below member) (path ++ "." ++ member) rest
  | _, _, [] => True

/-- A nested record is what its name denotes behind the record around. -/
theorem Nests.memberFound_eq (h : scene.Nests below member nested) :
    scene.memberFound below member = some ⟨nested.id, .record⟩ := by
  obtain ⟨around, rfl, noField, found⟩ := h
  have finding : scene.findMember ⟨around, true⟩ member = .member ⟨nested.id, .record⟩ false := by
    unfold findMember
    split
    · exact absurd ‹_› (noField _ _)
    · simp [found]
  simp [memberFound, finding, MemberFinding.resolved]

/-- Behind a base that is resolved, a member denotes what is found there. If the whole access is the
full name of a record, this is the record nested there. -/
theorem resolve_behind (role : Role) {outcome : Resolved} (named : access.name ≠ "")
    (noReceiver : access.name ≠ "this")
    (run : scene.resolve scope inStatic .base base = .ok outcome)
    (inFull : role = .base → ∀ nested,
      scene.qualifiedRecord? scope inStatic base access = some nested →
        scene.Nests outcome.base access.name nested ∧
        scene.index.recordById? nested.id = some nested) :
    ∃ further, scene.resolve scope inStatic role (.member base access) = .ok further ∧
      further.found = scene.memberFound outcome.base access.name ∧
      further.base = scene.memberBase scope outcome.base access.name := by
  have searched : (scene.findAccess scope inStatic outcome.base access).2.resolved =
      scene.memberFound outcome.base access.name := by
    cases outcome.base with
    | none => rfl
    | some record =>
      rw [findAccess, if_neg noReceiver]
      rfl
  by_cases unread : role = .base → scene.qualifiedRecord? scope inStatic base access = none
  · refine ⟨_, resolve_member unread named run, ?_, ?_⟩
    · simpa [Resolved.found, UseEntry.resolved] using searched
    · rw [searched, memberBase]
  · obtain ⟨rfl, whole⟩ := Classical.not_imp.mp unread
    obtain ⟨nested, whole⟩ := Option.ne_none_iff_exists'.mp whole
    obtain ⟨nests, known⟩ := inFull rfl nested whole
    refine ⟨_, resolve_whole whole, nests.memberFound_eq.symm, ?_⟩
    simp [memberBase, nests.memberFound_eq, recordBehind?, known]

/-- Behind a head that denotes nothing the whole path decides. -/
theorem qualifiedRecord?_of_package (spelled : base.dottedPath? = some path) (nonempty : path ≠ "")
    (unbound : scene.DenotesNothing scope inStatic (RecordName.splitHead path).1 access.span) :
    scene.qualifiedRecord? scope inStatic base access =
      scene.index.resolveType? (path ++ "." ++ access.name) (scene.typeContext scope) := by
  unfold qualifiedRecord?
  rw [spelled]
  simp [unbound.lookup, unbound.typed, RecordName.qualify, nonempty]

/-- Two expressions are bases that stand for the same record, if for any; the first starts with this
bare name, the second spells this path. -/
structure BasesAlike (scene : Scene) (scope : ScopeId) (inStatic : Bool) (use : Reference)
    (path : String) (below : Option BaseRecord) (short full : Expr) : Prop where
  shortBase : ∃ outcome,
    scene.resolve scope inStatic .base short = .ok outcome ∧ outcome.base = below
  fullBase : ∃ outcome, scene.resolve scope inStatic .base full = .ok outcome ∧ outcome.base = below
  head : short.head? = some use
  path : full.dottedPath? = some path

section

variable {use : Reference} {short full : Expr} {inShort inFull : MemberName}

/-- Behind bases that stand for the same record a member denotes the same, and stands for the same
record. -/
theorem BasesAlike.behind_member (h : scene.BasesAlike scope inStatic use path below short full)
    (ids : (scene.index.records.map (·.id)).Nodup)
    (segment : (RecordName.splitHead use.name).2 = none) (nonempty : path ≠ "")
    (sameName : inFull.name = inShort.name) (named : inShort.name ≠ "")
    (noReceiver : inShort.name ≠ "this")
    (visible : ¬scene.DenotesNothing scope inStatic use.name inShort.span)
    (unbound : scene.DenotesNothing scope inStatic (RecordName.splitHead path).1 inFull.span)
    (nests : role = .base → ∀ nested,
      scene.index.resolveType? (path ++ "." ++ inShort.name) (scene.typeContext scope) =
        some nested → scene.Nests below inShort.name nested) :
    ∃ one other, scene.resolve scope inStatic role (.member short inShort) = .ok one ∧
      scene.resolve scope inStatic role (.member full inFull) = .ok other ∧
      one.found = other.found ∧ one.base = scene.memberBase scope below inShort.name ∧
      other.base = scene.memberBase scope below inShort.name := by
  obtain ⟨short', shortRun, shortBase⟩ := h.shortBase
  obtain ⟨full', fullRun, fullBase⟩ := h.fullBase
  have unread := qualifiedRecord?_of_visible h.head segment visible
  have whole := qualifiedRecord?_of_package h.path nonempty unbound
  obtain ⟨one, oneRun, oneFound, oneBase⟩ := resolve_behind role named noReceiver shortRun
    fun _ nested read => by rw [unread] at read; cases read
  obtain ⟨other, otherRun, otherFound, otherBase⟩ := resolve_behind role
    (sameName ▸ named) (sameName ▸ noReceiver) fullRun fun isBase nested read => by
      rw [whole, sameName] at read
      have listed := RecordIndex.mem_of_resolveType? read
      rw [fullBase, sameName]
      exact ⟨nests isBase nested read, RecordIndex.recordById?_of_mem ids listed⟩
  rw [shortBase] at oneFound oneBase
  rw [fullBase, sameName] at otherFound otherBase
  exact ⟨one, other, oneRun, otherRun, oneFound.trans otherFound.symm, oneBase, otherBase⟩

/-- Behind bases that stand for the same record chains denote the same. -/
theorem BasesAlike.chain (h : scene.BasesAlike scope inStatic use path below short full)
    (ids : (scene.index.records.map (·.id)).Nodup)
    (segment : (RecordName.splitHead use.name).2 = none) (nonempty : path ≠ "")
    {inShort inFull : List MemberName} (members : inShort ≠ [])
    (sameNames : inFull.map (·.name) = inShort.map (·.name))
    (named : ∀ access ∈ inShort, access.name ≠ "" ∧ access.name ≠ "this")
    (visible : ∀ access ∈ inShort, ¬scene.DenotesNothing scope inStatic use.name access.span)
    (unbound : ∀ access ∈ inFull,
      scene.DenotesNothing scope inStatic (RecordName.splitHead path).1 access.span)
    (nested : scene.NestedAlong scope role below path (inShort.map (·.name))) :
    ∃ one other, scene.resolve scope inStatic role (short.behind inShort) = .ok one ∧
      scene.resolve scope inStatic role (full.behind inFull) = .ok other ∧
      one.found = other.found := by
  induction inShort generalizing short full path below inFull with
  | nil => exact absurd rfl members
  | cons first rest ih =>
    obtain ⟨second, others, rfl, sameName, sameRest⟩ := List.map_eq_cons_iff.mp sameNames
    obtain ⟨isNamed, noReceiver⟩ := named first List.mem_cons_self
    obtain ⟨here, further⟩ := nested
    have seen := visible first List.mem_cons_self
    have unseen := unbound second List.mem_cons_self
    cases rest with
    | nil =>
      obtain rfl := List.map_eq_nil_iff.mp sameRest
      obtain ⟨one, other, oneRun, otherRun, same, -, -⟩ :=
        h.behind_member ids segment nonempty sameName isNamed noReceiver seen unseen
          fun isBase => here (.inr isBase)
      exact ⟨one, other, oneRun, otherRun, same⟩
    | cons next rest =>
      obtain ⟨one, other, oneRun, otherRun, -, oneBase, otherBase⟩ :=
        h.behind_member ids segment nonempty sameName isNamed noReceiver seen unseen
          fun _ => here (.inl (List.cons_ne_nil _ _))
      have path' : (Expr.member full second).dottedPath? = some (path ++ "." ++ first.name) := by
        rw [Expr.dottedPath?, h.path, sameName]
        rfl
      have alike : scene.BasesAlike scope inStatic use (path ++ "." ++ first.name)
          (scene.memberBase scope below first.name) (.member short first) (.member full second) :=
        ⟨⟨one, oneRun, oneBase⟩, ⟨other, otherRun, otherBase⟩, h.head, path'⟩
      refine ih alike (by simp) (List.cons_ne_nil next rest) sameRest
        (fun access listed => named access (List.mem_cons_of_mem _ listed))
        (fun access listed => visible access (List.mem_cons_of_mem _ listed))
        (fun access listed => ?_) further
      rw [RecordName.splitHead_append_dot]
      exact unbound access (List.mem_cons_of_mem _ listed)

end

/-- A record is denoted by its simple name and, behind a package whose first segment denotes
nothing, by its full name. -/
structure NamedInFull (scene : Scene) (scope : ScopeId) (inStatic : Bool) (use : Reference)
    (package : Expr) (path : String) (inPackage : MemberName) (record : RecordInfo) : Prop where
  simple : (scene.lookupBase scope use.name use.span inStatic).2 = some ⟨record, true⟩
  named : use.name ≠ ""
  segment : (RecordName.splitHead use.name).2 = none
  package : package.dottedPath? = some path
  nonempty : path ≠ ""
  sameName : inPackage.name = use.name
  unbound : scene.DenotesNothing scope inStatic (RecordName.splitHead path).1 inPackage.span
  full : scene.index.resolveType? (path ++ "." ++ use.name) (scene.typeContext scope) = some record

/-- The two names of a record are bases that stand for it. -/
theorem NamedInFull.basesAlike {use : Reference} {package : Expr} {inPackage : MemberName}
    {record : RecordInfo} (h : scene.NamedInFull scope inStatic use package path inPackage record) :
    scene.BasesAlike scope inStatic use (path ++ "." ++ use.name) (some ⟨record, true⟩)
      (.reference use) (.member package inPackage) where
  shortBase := ⟨_, resolve_name_base h.named, h.simple⟩
  fullBase := by
    have whole := qualifiedRecord?_of_package h.package h.nonempty h.unbound
    rw [h.sameName, h.full] at whole
    exact ⟨_, resolve_whole whole, rfl⟩
  head := rfl
  path := by
    rw [Expr.dottedPath?, h.package, h.sameName]
    rfl

end Scene

/-- At every scope, and in either role, a chain of members denotes the same behind the simple and
behind the full name of a record: as long as, at every access, the simple name still denotes
something and the first segment of the package still nothing, and as long as every prefix that is
the full name of a record names one nested in the record reached before. -/
theorem full_names_mean_the_same {scene : Scene} (ids : (scene.index.records.map (·.id)).Nodup)
    {scope : ScopeId} {inStatic : Bool} {role : Role} {use : Reference} {package : Expr}
    {path : String} {inPackage : MemberName} {record : RecordInfo}
    (names : scene.NamedInFull scope inStatic use package path inPackage record)
    (inShort inFull : List MemberName) (members : inShort ≠ [])
    (sameNames : inFull.map (·.name) = inShort.map (·.name))
    (named : ∀ access ∈ inShort, access.name ≠ "" ∧ access.name ≠ "this")
    (visible : ∀ access ∈ inShort, ¬scene.DenotesNothing scope inStatic use.name access.span)
    (unbound : ∀ access ∈ inFull,
      scene.DenotesNothing scope inStatic (RecordName.splitHead path).1 access.span)
    (nested : scene.NestedAlong scope role (some ⟨record, true⟩) (path ++ "." ++ use.name)
      (inShort.map (·.name))) :
    ∃ one other,
      scene.resolve scope inStatic role ((Expr.reference use).behind inShort) = .ok one ∧
      scene.resolve scope inStatic role ((Expr.member package inPackage).behind inFull) =
        .ok other ∧
      one.found = other.found := by
  have nonempty : path ++ "." ++ use.name ≠ "" := by simp
  have sameHead : (RecordName.splitHead (path ++ "." ++ use.name)).1 =
      (RecordName.splitHead path).1 := RecordName.splitHead_append_dot path use.name
  exact names.basesAlike.chain ids names.segment nonempty members sameNames named visible
    (fun access listed => sameHead ▸ unbound access listed) nested

/-- A record of this name with a static field. -/
def staticRecord (id : NodeId) (name : String) (field : NodeId) (fieldName : String) : Record :=
  ⟨id, name, none, true,
    [{ id := field, name := fieldName, type := { name := "int" }, isStatic := true }], [], [], {}⟩

/-- A unit of the package `p` with an empty method and two records: `M` has the nested records `F`
and `I`, and a field `F`. -/
def fullNamesUnit : TranslationUnit :=
  let method : Method := ⟨⟨2⟩, "m", false, false, [], some ⟨⟨3⟩, [], {}⟩, {}⟩
  let field : Field := { id := ⟨5⟩, name := "F", type := { name := "int" } }
  { id := ⟨0⟩, name := "FullNames", package := some "p"
    records := [⟨⟨1⟩, "A", none, false, [], [method], [], {}⟩,
      ⟨⟨4⟩, "M", none, false, [field], [],
        [staticRecord ⟨6⟩ "F" ⟨7⟩ "x", staticRecord ⟨8⟩ "I" ⟨9⟩ "w"], {}⟩,
      staticRecord ⟨10⟩ "N" ⟨11⟩ "a"] }

/-- The unit behind one that declares `N` first, next to records from outside whose names start like
those of the unit. -/
def fullNamesIndex : RecordIndex :=
  let first : TranslationUnit :=
    { id := ⟨20⟩, name := "First", package := some "p"
      records := [staticRecord ⟨21⟩ "N" ⟨22⟩ "a"] }
  let outside (name field : String) : ExternalRecord :=
    { name, fields := some [⟨field, "int", true⟩] }
  .ofProgram [first, fullNamesUnit]
    [outside "p.M.G.H" "y", outside "p.M.K" "z", outside "p.p.M.K" "z"]

/-- Accesses of these names. -/
def accesses (names : List String) : List MemberName :=
  names.map fun name => { id := ⟨33⟩, name }

theorem full_names_mean_the_same_sample :
    ∃ analysis one other, resolveUnit fullNamesUnit fullNamesIndex {} = .ok analysis ∧
      (analysis.scene fullNamesUnit fullNamesIndex).resolve ⟨3⟩ false .value
        ((Expr.reference { id := ⟨30⟩, name := "M" }).behind (accesses ["I", "w"])) = .ok one ∧
      (analysis.scene fullNamesUnit fullNamesIndex).resolve ⟨3⟩ false .value
        ((Expr.member (.reference { id := ⟨31⟩, name := "p" }) { id := ⟨32⟩, name := "M" }).behind
          (accesses ["I", "w"])) = .ok other ∧
      one.found = some ⟨⟨9⟩, .staticField⟩ ∧ other.found = some ⟨⟨9⟩, .staticField⟩ := by
  let record : RecordInfo :=
    ⟨⟨4⟩, "p.M", "M", none, none, some [⟨⟨5⟩, "F", "int", false⟩], .unit "FullNames", {}⟩
  let inner : RecordInfo :=
    ⟨⟨8⟩, "p.M.I", "I", some "p.M", none, some [⟨⟨9⟩, "w", "int", true⟩], .unit "FullNames", {}⟩
  have ids : (fullNamesIndex.records.map (·.id)).Nodup := by decide +kernel
  have seen : (resolveUnit fullNamesUnit fullNamesIndex {}).toOption.map (fun analysis =>
      let scene := analysis.scene fullNamesUnit fullNamesIndex
      ((scene.resolve ⟨3⟩ false .value ((Expr.reference { id := ⟨30⟩, name := "M" }).behind
        (accesses ["I", "w"]))).toOption.map (·.found),
      decide ((scene.lookupBase ⟨3⟩ "M" {} false).2 = some ⟨record, true⟩ ∧
        scene.lookup? ⟨3⟩ "p" {} false = none ∧ scene.typeNamed? "p" ⟨3⟩ {} = none ∧
        scene.index.resolveType? "p.M" (scene.typeContext ⟨3⟩) = some record ∧
        scene.lookup? ⟨3⟩ "M" {} false ≠ none ∧
        scene.index.resolveType? "p.M.I" (scene.typeContext ⟨3⟩) = some inner ∧
        scene.index.findFieldIn record "I" = .notFound ∧
        scene.index.get? "p.M.I" = some inner))) =
      some (some (some ⟨⟨9⟩, .staticField⟩), true) := by
    decide +kernel
  obtain ⟨analysis, run, facts⟩ := exists_ok_of_toOption_map seen
  obtain ⟨resolved, facts⟩ := Prod.mk.inj facts
  obtain ⟨simple, looked, typed, full, visible, known, noField, nested⟩ := of_decide_eq_true facts
  have head : (RecordName.splitHead "p").1 = "p" := by decide +kernel
  have unbound : (analysis.scene fullNamesUnit fullNamesIndex).DenotesNothing ⟨3⟩ false
      (RecordName.splitHead "p").1 {} := head.symm ▸ ⟨looked, typed⟩
  have names : (analysis.scene fullNamesUnit fullNamesIndex).NamedInFull ⟨3⟩ false
      { id := ⟨30⟩, name := "M" } (.reference { id := ⟨31⟩, name := "p" }) "p"
      { id := ⟨32⟩, name := "M" } record :=
    ⟨simple, by decide, by decide +kernel, rfl, by decide, rfl, unbound, full⟩
  have spans : ∀ access ∈ accesses ["I", "w"], access.span = {} := by decide
  have along : (analysis.scene fullNamesUnit fullNamesIndex).NestedAlong ⟨3⟩ .value
      (some ⟨record, true⟩) "p.M" ["I", "w"] := by
    refine ⟨fun _ other found => ?_, fun asBase => by simp at asBase, trivial⟩
    obtain rfl := Option.some.inj (known.symm.trans found)
    exact ⟨record, rfl, fun _ _ => noField ▸ nofun, nested⟩
  obtain ⟨one, other, oneRun, otherRun, same⟩ := full_names_mean_the_same ids names
    (accesses ["I", "w"]) (accesses ["I", "w"]) (by decide) rfl (by decide)
    (fun access listed unseen => visible (spans access listed ▸ unseen.lookup))
    (fun access listed => (spans access listed).symm ▸ unbound) along
  obtain ⟨outcome, again, found⟩ := exists_ok_of_toOption_map resolved
  obtain rfl : outcome = one := Except.ok.inj (again.symm.trans oneRun)
  exact ⟨analysis, outcome, other, run, oneRun, otherRun, found, same.symm.trans found⟩

/-- A record has this full name and is denoted by its simple name, yet chains behind its two names
denote different things, though its package denotes nothing. -/
structure Scene.ReadApart (scene : Scene) (scope : ScopeId) (package name : String)
    (members : List String) (one other : Option Resolution) : Prop where
  unbound : scene.DenotesNothing scope false package {}
  simple : (scene.lookupBase scope name {} false).2.map (fun base =>
    (base.record.name, base.isName)) = some (package ++ "." ++ name, true)
  short : (scene.resolve scope false .value ((Expr.reference { id := ⟨30⟩, name }).behind
    (accesses members))).toOption.map (·.found) = some one
  full : (scene.resolve scope false .value ((Expr.member (.reference { id := ⟨31⟩, name := package })
    { id := ⟨32⟩, name }).behind (accesses members))).toOption.map (·.found) = some other
  differ : one ≠ other

instance (scene : Scene) (scope : ScopeId) (package name : String) (members : List String)
    (one other : Option Resolution) :
    Decidable (scene.ReadApart scope package name members one other) :=
  decidable_of_iff
    ((scene.lookup? scope package {} false = none ∧ scene.typeNamed? package scope {} = none) ∧
      (scene.lookupBase scope name {} false).2.map (fun base =>
        (base.record.name, base.isName)) = some (package ++ "." ++ name, true) ∧
      (scene.resolve scope false .value ((Expr.reference { id := ⟨30⟩, name }).behind
        (accesses members))).toOption.map (·.found) = some one ∧
      (scene.resolve scope false .value
        ((Expr.member (.reference { id := ⟨31⟩, name := package }) { id := ⟨32⟩, name }).behind
          (accesses members))).toOption.map (·.found) = some other ∧ one ≠ other)
    ⟨fun ⟨⟨looked, typed⟩, simple, short, full, differ⟩ =>
        ⟨⟨looked, typed⟩, simple, short, full, differ⟩,
      fun h => ⟨⟨h.unbound.lookup, h.unbound.typed⟩, h.simple, h.short, h.full, h.differ⟩⟩

/-- Chains behind the simple and the full name of a record denote different things: where a field has
the name of a nested record, where a longer name is known though its prefix is not, where a name is
taken relative to the package of the unit, and where another unit has declared the name first. -/
theorem full_names_read_apart :
    ∃ analysis, resolveUnit fullNamesUnit fullNamesIndex {} = .ok analysis ∧
      (analysis.scene fullNamesUnit fullNamesIndex).ReadApart ⟨3⟩ "p" "M" ["F", "x"] none
        (some ⟨⟨7⟩, .staticField⟩) ∧
      (analysis.scene fullNamesUnit fullNamesIndex).ReadApart ⟨3⟩ "p" "M" ["G", "H", "y"] none
        (some ⟨⟨4294967294⟩, .staticField⟩) ∧
      (analysis.scene fullNamesUnit fullNamesIndex).ReadApart ⟨3⟩ "p" "M" ["K", "z"]
        (some ⟨⟨4294967292⟩, .staticField⟩) (some ⟨⟨4294967290⟩, .staticField⟩) ∧
      (analysis.scene fullNamesUnit fullNamesIndex).ReadApart ⟨3⟩ "p" "N" ["a"]
        (some ⟨⟨11⟩, .staticField⟩) (some ⟨⟨22⟩, .staticField⟩) := by
  have seen : (resolveUnit fullNamesUnit fullNamesIndex {}).toOption.map (fun analysis =>
      let scene := analysis.scene fullNamesUnit fullNamesIndex
      decide (
        scene.ReadApart ⟨3⟩ "p" "M" ["F", "x"] none (some ⟨⟨7⟩, .staticField⟩) ∧
        scene.ReadApart ⟨3⟩ "p" "M" ["G", "H", "y"] none (some ⟨⟨4294967294⟩, .staticField⟩) ∧
        scene.ReadApart ⟨3⟩ "p" "M" ["K", "z"] (some ⟨⟨4294967292⟩, .staticField⟩)
          (some ⟨⟨4294967290⟩, .staticField⟩) ∧
        scene.ReadApart ⟨3⟩ "p" "N" ["a"] (some ⟨⟨11⟩, .staticField⟩)
          (some ⟨⟨22⟩, .staticField⟩))) = some true := by
    decide +kernel
  obtain ⟨analysis, run, apart⟩ := exists_ok_of_toOption_map seen
  exact ⟨analysis, run, of_decide_eq_true apart⟩

end NameBinding
