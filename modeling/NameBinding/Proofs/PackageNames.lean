import NameBinding.Proofs.ImplicitBase
import NameBinding.Proofs.MemberAccesses

/-!
# Packages at the head of a chain

A chain of member accesses is tried as the full name of a record only where its head can be nothing
but a package. The first segment of the head is looked up at the position of the whole access: it
denotes neither a variable nor a record there, and so at no earlier position either. A head that is
written behind the start of its access is out of this reach. A local declared before the head is
then passed over, and the chain is read as the name of a record (`local_taken_for_package`).
-/

namespace NameBinding

namespace Expr

/-- The bare name that a chain of member accesses starts with. -/
def head? : Expr → Option Reference
  | reference use => some use
  | member base _ => base.head?
  | _ => none

/-- The path that a chain spells starts with the first segment of its head. -/
theorem exists_head_of_dottedPath? {path : String} :
    (e : Expr) → e.dottedPath? = some path → ∃ head, e.head? = some head ∧
      (RecordName.splitHead path).1 = (RecordName.splitHead head.name).1
  | .reference use, h => by
    cases h
    exact ⟨use, rfl, rfl⟩
  | .member base access, h => by
    rw [dottedPath?] at h
    obtain ⟨front, spelled, rfl⟩ := Option.map_eq_some_iff.mp h
    obtain ⟨head, first, same⟩ := exists_head_of_dottedPath? base spelled
    exact ⟨head, first, (RecordName.splitHead_append_dot front access.name).trans same⟩

end Expr

/-! ### Names that denote nothing -/

namespace Scene

variable {scene : Scene} {scope : ScopeId} {name : String} {use later : Span} {inStatic : Bool}

/-- What a scope offers to a use it offers to every later one. -/
theorem offers_of_le {index : RecordIndex} {t : Scope} (offers : t.Offers index name use)
    (le : use.start ≤ later.start) : t.Offers index name later := by
  unfold Scope.Offers at *
  cases kind : t.kind with
  | block =>
    rw [kind] at offers
    obtain ⟨b, bound, visible⟩ := offers
    exact ⟨b, bound, UInt32.le_trans visible le⟩
  | _ =>
    rw [kind] at offers
    exact offers

/-- A record name that a scope does not offer to a use it does not offer to an earlier one. -/
theorem offeredType?_eq_none_of_le {t : Scope} (unoffered : offeredType? name later t = none)
    (le : use.start ≤ later.start) : offeredType? name use t = none := by
  unfold offeredType? at *
  rw [Option.filter_eq_none_iff] at *
  intro b bound visible
  refine unoffered b bound ?_
  rw [Bool.or_eq_true, Span.startsNoLaterThan_iff] at *
  exact visible.imp_right fun first => UInt32.le_trans first le

/-- A name denotes neither a variable or receiver nor a record. -/
structure DenotesNothing (scene : Scene) (scope : ScopeId) (inStatic : Bool) (name : String)
    (use : Span) : Prop where
  lookup : scene.lookup? scope name use inStatic = none
  typed : scene.typeNamed? name scope use = none

/-- A name that is looked up in vain is bound to no record. -/
theorem typeBinding?_of_lookup? (missing : scene.lookup? scope name use inStatic = none) :
    scene.typeBinding? scope name use = none := by
  rw [lookup?_eq, Option.or_eq_none_iff, Option.or_eq_none_iff, Option.map_eq_none_iff] at missing
  exact missing.2.1

/-- A single segment that denotes nothing has denoted nothing before. -/
theorem DenotesNothing.earlier (h : scene.DenotesNothing scope inStatic name later)
    (segment : (RecordName.splitHead name).2 = none) (le : use.start ≤ later.start) :
    scene.DenotesNothing scope inStatic name use := by
  have whole := RecordName.splitHead_of_segment segment
  have unbound := typeBinding?_of_lookup? h.lookup
  have unboundBefore : scene.typeBinding? scope name use = none :=
    List.findSome?_eq_none_iff.mpr fun s listed =>
      offeredType?_eq_none_of_le (List.findSome?_eq_none_iff.mp unbound s listed) le
  have missing := h.lookup
  rw [lookup?_eq, Option.or_eq_none_iff, Option.or_eq_none_iff] at missing
  obtain ⟨unoffered, -, receiver⟩ := missing
  refine ⟨?_, ?_⟩
  · have unofferedBefore : ∀ s ∈ scene.tree.chain scope, ¬s.Offers scene.index name use :=
      fun s listed offers => searchVariable?_eq_none_iff.mp unoffered s listed
        (offers_of_le offers le)
    rw [lookup?_eq, searchVariable?_eq_none unofferedBefore, unboundBefore, receiver]
    rfl
  · have typed := h.typed
    rw [typeNamed?_of_unbound (whole.symm ▸ unbound)] at typed
    rw [typeNamed?_of_unbound (whole.symm ▸ unboundBefore)]
    exact typed

/-- A chain of member accesses starts with a bare name whose first segment denotes nothing up to
the start of the access. So a head of one segment denotes nothing where it is written, as long as
the access does not start before it. -/
structure HeadedByPackage (scene : Scene) (scope : ScopeId) (inStatic : Bool) (base : Expr)
    (access : MemberName) : Prop where
  headed : ∃ head, base.head? = some head
  segment : ∀ head ∈ base.head?, ∀ use : Span, use.start ≤ access.span.start →
    scene.DenotesNothing scope inStatic (RecordName.splitHead head.name).1 use
  head : ∀ head ∈ base.head?, (RecordName.splitHead head.name).2 = none →
    head.span.start ≤ access.span.start →
    scene.DenotesNothing scope inStatic head.name head.span

/-- A member access that names a record in full starts with a package. -/
theorem headedByPackage_of_qualifiedRecord? {base : Expr} {access : MemberName}
    {record : RecordInfo}
    (named : scene.qualifiedRecord? scope inStatic base access = some record) :
    scene.HeadedByPackage scope inStatic base access := by
  obtain ⟨path, spelled, looked, typed, -⟩ := qualifiedRecord?_eq_some_iff.mp named
  obtain ⟨head, first, same⟩ := Expr.exists_head_of_dottedPath? base spelled
  rw [same] at looked typed
  have segment : ∀ use : Span, use.start ≤ access.span.start →
      scene.DenotesNothing scope inStatic (RecordName.splitHead head.name).1 use :=
    fun use le => DenotesNothing.earlier ⟨looked, typed⟩
      (congrArg Prod.snd (RecordName.splitHead_splitHead head.name)) le
  refine ⟨⟨head, first⟩, fun other isHead => ?_, fun other isHead single le => ?_⟩
  · obtain rfl := Option.some.inj (first.symm.trans isHead)
    exact segment
  · obtain rfl := Option.some.inj (first.symm.trans isHead)
    have whole := RecordName.splitHead_of_segment single
    exact whole ▸ segment head.span le

/-- A chain whose head denotes something at the access is not taken for a full name. -/
theorem qualifiedRecord?_of_visible {base : Expr} {access : MemberName} {head : Reference}
    (first : base.head? = some head)
    (segment : (RecordName.splitHead head.name).2 = none)
    (visible : ¬scene.DenotesNothing scope inStatic head.name access.span) :
    scene.qualifiedRecord? scope inStatic base access = none := by
  rw [Option.eq_none_iff_forall_ne_some]
  intro record named
  have unbound := (headedByPackage_of_qualifiedRecord? named).segment head first access.span
    (UInt32.le_refl _)
  rw [RecordName.splitHead_of_segment segment] at unbound
  exact visible unbound

end Scene

/-- In every unit that is resolved, the member accesses that are taken as the full names of records
start with packages, and every entry that names a record in full belongs to such an access. -/
theorem full_names_start_with_packages {unit : TranslationUnit} {index : RecordIndex}
    {options : Options} {analysis : UnitAnalysis}
    (run : resolveUnit unit index options = .ok analysis) :
    (∀ scope inStatic base access record,
      (analysis.scene unit index).qualifiedRecord? scope inStatic base access = some record →
      (analysis.scene unit index).HeadedByPackage scope inStatic base access) ∧
    ∃ log, resolveReferences unit analysis.tree analysis.declarations index = .ok log ∧
      analysis.resolutions = .ofLog log ∧
      ∀ site ∈ log.members, ∀ id, site.finding = .recordName id →
        ∃ base access inStatic record,
          (analysis.scene unit index).TakesWhole unit base access inStatic record site := by
  obtain ⟨tree, state, log, phases⟩ := UnitAnalysis.exists_phases run
  refine ⟨fun scope inStatic base access record => Scene.headedByPackage_of_qualifiedRecord?,
    log, phases.resolved_eq, phases.resolutions_eq, fun site listed id whole => ?_⟩
  rcases phases.taken_or_searched listed with taken | ⟨base, access, inStatic, below, searched⟩
  · exact taken
  · rw [searched.entry] at whole
    exact absurd whole (Scene.findAccess_ne_recordName below access id)

/-- A unit of the package `x` with a record that has a static field. -/
def packageUnit : TranslationUnit :=
  { id := ⟨10⟩, name := "Package", package := some "x"
    records := [⟨⟨11⟩, "Y", none, false,
      [{ id := ⟨12⟩, name := "z", type := { name := "int" }, isStatic := true }], [], [], {}⟩] }

/-- The chain `x.Y.z`, with its head at the offset 20 and the given span for its accesses. -/
def packageChain (span : Span) : Expr :=
  .member (.member (.reference { id := ⟨5⟩, name := "x", span := ⟨20, 21⟩ })
    { id := ⟨6⟩, name := "Y", span }) { id := ⟨7⟩, name := "z", span }

/-- A method that uses the chain after some other statements. -/
def chainUnit (before : List Stmt) (span : Span) : TranslationUnit :=
  { id := ⟨0⟩, name := "Chain"
    records := [⟨⟨1⟩, "A", none, false, [], [⟨⟨2⟩, "m", false, false, [],
      some ⟨⟨3⟩, before ++ [.expr (packageChain span)], {}⟩, {}⟩], [], {}⟩] }

theorem full_names_start_with_packages_sample :
    ∃ analysis log, resolveUnit (chainUnit [] ⟨20, 25⟩)
        (.build [chainUnit [] ⟨20, 25⟩, packageUnit]) {} = .ok analysis ∧
      analysis.resolutions = .ofLog log ∧
      ∃ site ∈ log.members, site.finding = .recordName ⟨11⟩ ∧
        ∃ base access inStatic,
          (analysis.scene (chainUnit [] ⟨20, 25⟩)
            (.build [chainUnit [] ⟨20, 25⟩, packageUnit])).HeadedByPackage site.scope inStatic base
              access := by
  have logged : (resolveUnit (chainUnit [] ⟨20, 25⟩)
      (.build [chainUnit [] ⟨20, 25⟩, packageUnit]) {}).toOption.map (fun analysis =>
        (resolveReferences (chainUnit [] ⟨20, 25⟩) analysis.tree analysis.declarations
          (.build [chainUnit [] ⟨20, 25⟩, packageUnit])).toOption.map fun log =>
            decide (∃ site ∈ log.members, site.finding = .recordName ⟨11⟩)) =
      some (some true) := by
    decide +kernel
  obtain ⟨analysis, run, found⟩ := exists_ok_of_toOption_map logged
  obtain ⟨other, again, found⟩ := exists_ok_of_toOption_map found
  obtain ⟨site, listed, whole⟩ := of_decide_eq_true found
  obtain ⟨headed, log, resolved, resolutions, taken⟩ := full_names_start_with_packages run
  obtain rfl : other = log := Except.ok.inj (again.symm.trans resolved)
  obtain ⟨base, access, inStatic, record, taken⟩ := taken site listed ⟨11⟩ whole
  exact ⟨analysis, other, run, resolutions, site, listed, whole, base, access, inStatic,
    headed _ _ _ _ _ taken.named⟩

/-- A method with a local `x` that uses the chain, whose accesses have no spans. -/
def localHeadUnit : TranslationUnit :=
  chainUnit [.localVar { id := ⟨4⟩, name := "x", type := { name := "int" }, span := ⟨5, 10⟩ }] {}

/-- A local at the head of a chain is taken for a package where the access starts before it, though
the head denotes the local where it is written. -/
theorem local_taken_for_package :
    ∃ analysis log, resolveUnit localHeadUnit (.build [localHeadUnit, packageUnit]) {} =
        .ok analysis ∧
      resolveReferences localHeadUnit analysis.tree analysis.declarations
        (.build [localHeadUnit, packageUnit]) = .ok log ∧
      ∃ site ∈ log.members, ∃ head access record,
        (analysis.scene localHeadUnit (.build [localHeadUnit, packageUnit])).TakesWhole
          localHeadUnit (.reference head) access false record site ∧
        head.name = "x" ∧ record.name = "x.Y" ∧
        ((analysis.scene localHeadUnit (.build [localHeadUnit, packageUnit])).lookup? site.scope
          head.name head.span false).map (·.resolved) = some ⟨⟨4⟩, .localVar⟩ := by
  let head : Reference := { id := ⟨5⟩, name := "x", span := ⟨20, 21⟩ }
  let access : MemberName := { id := ⟨6⟩, name := "Y" }
  let site : MemberSite := ⟨⟨6⟩, "Y", ⟨3⟩, {}, .recordName ⟨11⟩⟩
  have seen : (resolveUnit localHeadUnit (.build [localHeadUnit, packageUnit]) {}).toOption.map
      (fun analysis =>
        let scene := analysis.scene localHeadUnit (.build [localHeadUnit, packageUnit])
        ((resolveReferences localHeadUnit analysis.tree analysis.declarations
            (.build [localHeadUnit, packageUnit])).toOption.map fun log =>
          decide (site ∈ log.members),
        analysis.tree.placeOf (.node ⟨3⟩),
        decide ((scene.qualifiedRecord? ⟨3⟩ false (.reference head) access).map
            (fun record => (record.id, record.name)) = some (⟨11⟩, "x.Y") ∧
          (scene.lookup? ⟨3⟩ "x" ⟨20, 21⟩ false).map (·.resolved) = some ⟨⟨4⟩, .localVar⟩))) =
      some (some true, ⟨3⟩, true) := by
    decide +kernel
  obtain ⟨analysis, run, facts⟩ := exists_ok_of_toOption_map seen
  obtain ⟨logged, facts⟩ := Prod.mk.inj facts
  obtain ⟨place, facts⟩ := Prod.mk.inj facts
  obtain ⟨named, looked⟩ := of_decide_eq_true facts
  obtain ⟨log, resolved, listed⟩ := exists_ok_of_toOption_map logged
  obtain ⟨record, named, full⟩ := Option.map_eq_some_iff.mp named
  obtain ⟨id, full⟩ := Prod.mk.inj full
  have written : localHeadUnit.Writes analysis.tree ⟨3⟩ false (.member (.reference head) access) :=
    ⟨.node ⟨3⟩, packageChain {}, by simp [localHeadUnit, chainUnit, TranslationUnit.outline,
      Record.outlineAll, Record.outline, Method.outlineAll, Block.outline, Stmt.outlineAll,
      Stmt.outline, Position.uses, Position.inside], place, by simp [packageChain, Expr.walk, head,
      access]⟩
  have entry : site = ⟨access.id, access.name, ⟨3⟩, access.span, .recordName record.id⟩ := by
    rw [id]
  exact ⟨analysis, log, run, resolved, site, of_decide_eq_true listed, head, access, record,
    ⟨written, named, entry⟩, rfl, full, looked⟩

end NameBinding
