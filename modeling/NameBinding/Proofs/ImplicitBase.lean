import NameBinding.Proofs.Denotation
import NameBinding.Proofs.FirstDeclared
import NameBinding.Proofs.HitSources

/-!
# The receiver that is understood before a field

A field that is named without a base is understood behind a receiver or, where there is none,
behind its record. The search for the name in the record that this base stands for ends at the
same field, although the bare name is looked up in the scopes first and the member of a record
in the index alone. So writing the base out changes nothing.
-/

namespace NameBinding

namespace Scene

variable {scene : Scene} {scope : ScopeId} {name : String} {use : Span} {t : Scope}

/-! ### Reaching a receiver does not decide what a name denotes -/

/-- What a scope offers under a name does not depend on how far out it is, nor on whether a receiver
is reached there. -/
theorem offer?_resolved (level level' : Nat) (receiver receiver' : Bool) :
    (scene.offer? name use level receiver t).map (·.resolved) =
      (scene.offer? name use level' receiver' t).map (·.resolved) := by
  unfold offer? inherited?
  cases t.kind with
  | record =>
    cases t.varBinding? name with
    | some b => by_cases field : b.kind.isField <;> simp [field, Hit.ofField]
    | none =>
      cases scene.index.recordById? t.owner with
      | none => rfl
      | some record =>
        cases found : scene.index.findFieldIn record name <;> simp [found, Hit.ofField]
  | _ => rfl

/-- A search asks the innermost scope first. -/
theorem searchVariable?_cons (level : Nat) (receiver : Bool) (t : Scope) (around : List Scope) :
    scene.searchVariable? name use level receiver (t :: around) =
      (scene.offer? name use level receiver t).or
        (scene.searchVariable? name use (if t.kind = .record then level + 1 else level)
          (receiver && !t.isStatic) around) := by
  rw [searchVariable?]
  cases scene.offer? name use level receiver t <;> rfl

/-- Nor does what a search through scopes finds. -/
theorem searchVariable?_resolved (level level' : Nat) (receiver receiver' : Bool)
    (scopes : List Scope) :
    (scene.searchVariable? name use level receiver scopes).map (·.resolved) =
      (scene.searchVariable? name use level' receiver' scopes).map (·.resolved) := by
  induction scopes generalizing level level' receiver receiver' with
  | nil => rw [searchVariable?, searchVariable?]
  | cons t rest ih =>
    rw [searchVariable?_cons, searchVariable?_cons, Option.map_or, Option.map_or,
      offer?_resolved level level' receiver receiver', ih]

/-- Nor does the innermost record. -/
theorem innermostRecord?_owner (receiver receiver' : Bool) (scopes : List Scope) :
    (innermostRecord? receiver scopes).map (·.1) =
      (innermostRecord? receiver' scopes).map (·.1) := by
  induction scopes generalizing receiver receiver' with
  | nil => rfl
  | cons t rest ih =>
    rw [innermostRecord?, innermostRecord?]
    by_cases record : t.kind = .record
    · rw [if_pos record, if_pos record]
      rfl
    · rw [if_neg record, if_neg record]
      exact ih _ _

/-- What a receiver name denotes does not depend on whether the use is static. -/
theorem ownReceiver?_resolved (inStatic inStatic' : Bool) :
    (scene.ownReceiver? scope name inStatic).map (·.resolved) =
      (scene.ownReceiver? scope name inStatic').map (·.resolved) := by
  have same := innermostRecord?_owner (!inStatic) (!inStatic') (scene.tree.chain scope)
  unfold ownReceiver?
  cases first : innermostRecord? (!inStatic) (scene.tree.chain scope) with
  | none =>
    cases second : innermostRecord? (!inStatic') (scene.tree.chain scope) with
    | none => rfl
    | some other => simp [first, second] at same
  | some found =>
    cases second : innermostRecord? (!inStatic') (scene.tree.chain scope) with
    | none => simp [first, second] at same
    | some other =>
      obtain ⟨owner, reachable⟩ := found
      obtain ⟨owner', reachable'⟩ := other
      have owners : owner = owner' := by simpa [first, second] using same
      subst owners
      cases RecordName.dropEnding? ".this" name with
      | none => rfl
      | some qualifier =>
        cases declared : scene.table.get? owner with
        | none => simp [declared]
        | some decl => by_cases named : decl.name = qualifier <;> simp [declared, named]

/-- A name is looked up as a variable first, then as a record, then as a receiver. -/
theorem lookup?_eq (inStatic : Bool) :
    scene.lookup? scope name use inStatic =
      (scene.searchVariable? name use 0 (!inStatic) (scene.tree.chain scope)).or
        (((scene.typeBinding? scope name use).map fun b =>
          ({ resolved := ⟨b.target, .record⟩ } : Hit)).or
          (scene.ownReceiver? scope name inStatic)) := by
  unfold lookup?
  cases scene.searchVariable? name use 0 (!inStatic) (scene.tree.chain scope) with
  | some hit => rfl
  | none => cases scene.typeBinding? scope name use <;> rfl

/-- A name denotes the same in the initializer of a static field and elsewhere. -/
theorem resolved_eq {inStatic inStatic' : Bool} {hit other : Hit}
    (found : scene.lookup? scope name use inStatic = some hit)
    (found' : scene.lookup? scope name use inStatic' = some other) :
    hit.resolved = other.resolved := by
  have same : (scene.lookup? scope name use inStatic).map (·.resolved) =
      (scene.lookup? scope name use inStatic').map (·.resolved) := by
    simp only [lookup?_eq, Option.map_or]
    rw [searchVariable?_resolved 0 0 (!inStatic) (!inStatic'),
      ownReceiver?_resolved inStatic inStatic']
  rw [found, found'] at same
  exact Option.some.inj same

/-! ### Writing out a receiver -/

/-- The name of a receiver is a single segment. -/
theorem splitHead_this : (RecordName.splitHead "this").1 = "this" := by decide +kernel

/-- Behind `this` a field is found as it is found in the record that `this` denotes. -/
theorem resolve_behind_this {inStatic : Bool} (role : Role) {receiver : Reference}
    {access : MemberName} {this : Hit} {owner : NodeId} {record declarer : RecordInfo}
    {field : FieldInfo} (isThis : receiver.name = "this")
    (looked : scene.lookup? scope "this" receiver.span inStatic = some this)
    (denotes : this.resolved = ⟨owner, .this⟩)
    (known : scene.index.recordById? owner = some record)
    (sameSpan : access.span = receiver.span) (named : access.name ≠ "")
    (noReceiver : access.name ≠ "this")
    (found : scene.index.findFieldIn record access.name = .found declarer field) :
    ∃ outcome, scene.resolve scope inStatic role (.member (.reference receiver) access) =
        .ok outcome ∧
      outcome.log = [.reference ⟨receiver.id, "this", scope, receiver.span, some this⟩,
        .member ⟨access.id, access.name, scope, access.span, .member field.resolution false⟩] := by
  have inFull : scene.qualifiedRecord? scope inStatic (.reference receiver) access = none := by
    unfold qualifiedRecord?
    simp [Expr.dottedPath?, isThis, splitHead_this, sameSpan, looked]
  have base : scene.lookupBase scope "this" receiver.span inStatic =
      (some this, some ⟨record, false⟩) := by
    unfold lookupBase recordBehind?
    simp [looked, denotes, known]
  have member : scene.findAccess scope inStatic (some ⟨record, false⟩) access =
      (access.name, .member field.resolution false) := by
    unfold findAccess findMember
    simp [noReceiver, found]
  have behind : scene.resolve scope inStatic .base (.reference receiver) =
      .ok ⟨[.reference ⟨receiver.id, "this", scope, receiver.span, some this⟩],
        some ⟨record, false⟩⟩ := by
    rw [resolve_name_base (by simp [isThis])]
    simp [isThis, base]
  refine ⟨_, resolve_member (fun _ => inFull) named behind, ?_⟩
  simp [member]

end Scene

/-! ### The field behind the base -/

namespace RecordIndex

variable {index : RecordIndex} {record : RecordInfo} {name : String} {field : FieldInfo}

/-- A field that a record declares itself is found first. -/
theorem findFieldIn_own (own : record.field? name = some field) :
    index.findFieldIn record name = .found record field := by
  obtain ⟨fields, known, _⟩ := Option.bind_eq_some_iff.mp own
  simp only [findFieldIn, searchField, known, own]

/-- The record of the index has the first field of a name that the record in the unit has. -/
theorem ofSite_field? (units : List TranslationUnit) (externals : List ExternalRecord)
    (unit : TranslationUnit) {site : RecordSite} {own : Field}
    (first : site.decl.fields.find? (·.name == name) = some own) :
    ∃ field, (ofSite units externals unit site).field? name = some field ∧
      field.resolution = own.info.resolution := by
  rw [RecordInfo.field?, ofSite_fields, Option.bind_some, List.find?_map]
  have found : site.decl.fields.find? ((fun field : FieldInfo => field.name == name) ∘ fun field =>
      (RecordCollection.ofProgram units externals).settleField
        (site.decl.written unit site.name site.outer) field.info) = some own := first
  rw [found]
  exact ⟨_, rfl, rfl⟩

end RecordIndex

/-- The search for a name in the record that a base stands for ends at the field of a hit. -/
def Hit.FoundBehind (index : RecordIndex) (name : String) (base : Resolution) (hit : Hit) : Prop :=
  ∃ record declarer field, index.recordById? base.target = some record ∧
    index.findFieldIn record name = .found declarer field ∧
    field.id = hit.resolved.target ∧
    hit.resolved.kind = if field.isStatic then .staticField else .field

/-- A hit on a field that the search in the record of a base finds is found behind that base. -/
theorem Hit.FoundBehind.of_resolution {index : RecordIndex} {name : String} {base : Resolution}
    {hit : Hit} {record declarer : RecordInfo} {field : FieldInfo}
    (known : index.recordById? base.target = some record)
    (found : index.findFieldIn record name = .found declarer field)
    (same : hit.resolved = field.resolution) : hit.FoundBehind index name base :=
  ⟨record, declarer, field, known, found, by rw [same]; rfl, by rw [same]; rfl⟩

/-- What is found behind a base is a field. -/
theorem Hit.FoundBehind.isField {index : RecordIndex} {name : String} {base : Resolution}
    {hit : Hit} (h : hit.FoundBehind index name base) : hit.resolved.kind.isField = true := by
  obtain ⟨_, _, field, _, _, _, kind⟩ := h
  rw [kind]
  cases field.isStatic <;> rfl

section

variable {units : List TranslationUnit} {externals : List ExternalRecord} {unit : TranslationUnit}
  {tree : ScopeTree} {state : Registration}

/-- The scope of a record of a registered unit belongs to a record that the index knows, unless
this record stands in the header of a loop. -/
theorem registered_record_known (distinct : RecordIndex.DistinctIds units externals)
    (member : unit ∈ units) (headers : ∀ site ∈ unit.recordSites, site.inHeader = false)
    (built : ScopeTree.build unit = .ok tree)
    (registered : registerDeclarations unit tree = .ok state) {t : Scope}
    (ht : t ∈ state.tree.scopes) (record : t.kind = .record) :
    ∃ site ∈ unit.recordSites, t.owner = site.decl.id ∧
      (RecordIndex.ofProgram units externals).recordById? t.owner =
        some (RecordIndex.ofSite units externals unit site) := by
  obtain ⟨site, h, owner⟩ := registered_record_scope built registered ht record
  have known := RecordIndex.recordById?_site distinct member h
  rw [owner, if_neg (by simp [headers site h])] at known
  exact ⟨site, h, owner.symm, known⟩

/-- What a scope offers behind a base is found behind this base. -/
theorem foundBehind_of_offer (distinct : RecordIndex.DistinctIds units externals)
    (member : unit ∈ units) (headers : ∀ site ∈ unit.recordSites, site.inHeader = false)
    (built : ScopeTree.build unit = .ok tree)
    (registered : registerDeclarations unit tree = .ok state) {t : Scope}
    (ht : t ∈ state.tree.scopes) {name : String} {use : Span} {level : Nat} {receiver : Bool}
    {hit : Hit} {base : Resolution}
    (offer : (state.scene unit (.ofProgram units externals)).Offer name use level receiver t hit)
    (understood : hit.implicitBase = some base) :
    hit.FoundBehind (.ofProgram units externals) name base := by
  cases offer with
  | bound _ _ plain _ =>
    rw [plain] at understood
    cases understood
  | own record bound isField =>
    cases understood
    obtain ⟨site, h, owner, known⟩ :=
      registered_record_known distinct member headers built registered ht record
    obtain ⟨own, first, same⟩ := registered_field_first built registered ht h owner bound isField
    obtain ⟨field, declared, again⟩ := RecordIndex.ofSite_field? units externals unit first
    exact .of_resolution known (RecordIndex.findFieldIn_own declared) (same.trans again.symm)
  | inherited _ known found =>
    cases understood
    exact .of_resolution known found rfl

end

/-- The base that is understood before a bare name can be written out: the search for the name in
the record of the base ends at the same field, and where `this` denotes that record, the member
of `this` denotes what the bare name denotes. -/
structure ReferenceSite.BaseFaithful (site : ReferenceSite) (scene : Scene) (hit : Hit)
    (base : Resolution) : Prop where
  found : hit.FoundBehind scene.index site.name base
  explicit : ∀ inStatic role this (receiver : Reference) (access : MemberName),
    receiver.name = "this" → receiver.span = site.span →
    access.name = site.name → access.span = site.span →
    scene.lookup? site.scope "this" site.span inStatic = some this →
    this.resolved = ⟨base.target, .this⟩ →
    ∃ outcome member,
      scene.resolve site.scope inStatic role (.member (.reference receiver) access) =
        .ok outcome ∧
      outcome.log.members = [member] ∧ member.id = access.id ∧
      member.finding.resolved = some hit.resolved

/-- A name with a base has been looked up as elsewhere. -/
theorem Scene.Explains.lookup_of_isField {scene : Scene} {site : ReferenceSite} {hit : Hit}
    (explained : scene.Explains (.reference site)) (found : site.hit = some hit)
    (isField : hit.resolved.kind.isField = true) :
    ∃ inStatic, scene.lookup? site.scope site.name site.span inStatic = some hit := by
  obtain ⟨_, inStatic, asValue | asBase⟩ := explained
  · exact ⟨inStatic, asValue ▸ found⟩
  · rcases lookupBase_eq_some (asBase ▸ found) with looked | record
    · exact ⟨inStatic, looked⟩
    · rw [record] at isField
      cases isField

/-- A field that is found behind a base is found there when the base is written out. -/
theorem baseFaithful_of_foundBehind {scene : Scene} {site : ReferenceSite} {hit : Hit}
    {base : Resolution} (explained : scene.Explains (.reference site))
    (found : site.hit = some hit) (behind : hit.FoundBehind scene.index site.name base) :
    site.BaseFaithful scene hit base := by
  refine ⟨behind, fun inStatic role this receiver access isThis span named accessSpan looked
    denotes => ?_⟩
  have isField := behind.isField
  obtain ⟨inStatic', lookedUp⟩ := explained.lookup_of_isField found isField
  obtain ⟨record, declarer, field, known, search, id, kind⟩ := behind
  have noReceiver : site.name ≠ "this" := by
    intro same
    rw [same] at lookedUp
    have denotesThis := (Scene.resolved_eq lookedUp looked).trans denotes
    rw [denotesThis] at isField
    cases isField
  have resolution : field.resolution = hit.resolved := by
    unfold FieldInfo.resolution
    rw [id, ← kind]
  rw [← span] at looked
  rw [← named] at search noReceiver
  obtain ⟨outcome, resolved, log⟩ := Scene.resolve_behind_this role isThis looked denotes known
    (accessSpan.trans span.symm) (named ▸ explained.1) noReceiver search
  refine ⟨outcome, _, resolved, by rw [log]; rfl, rfl, ?_⟩
  exact congrArg some resolution

/-- The slots of bare names tell only what has been found for some bare name of a log. -/
def Resolutions.ComeFrom (log : UseLog) (resolutions : Resolutions) : Prop :=
  ∀ slot ∈ resolutions.references, ∃ site ∈ log.references,
    slot = (site.id, ⟨site.resolved, site.hit.bind (·.implicitBase)⟩)

/-- What a log leaves behind comes from it. -/
theorem Resolutions.ofLog_comeFrom (log : UseLog) : (Resolutions.ofLog log).ComeFrom log := by
  refine List.foldlRecOn log Resolutions.record (motive := ComeFrom log)
    (fun slot h => absurd h List.not_mem_nil) fun slots all entry logged => ?_
  cases entry with
  | member site =>
    have same : (slots.record (.member site)).references = slots.references := by
      cases found : site.finding.resolved <;> simp [Resolutions.record, found]
    unfold ComeFrom
    rw [same]
    exact all
  | reference site =>
    intro slot h
    rcases mem_putEntry h with rfl | h
    · exact ⟨site, List.mem_filterMap.mpr ⟨_, logged, rfl⟩, rfl⟩
    · exact all slot h

/-- In a program with distinct ids and no records in the headers of loops, every base that is
understood before a bare name can be written out, and the slots tell only such bases. -/
theorem implicit_bases_faithful {units : List TranslationUnit} {externals : List ExternalRecord}
    (distinct : RecordIndex.DistinctIds units externals)
    (headers : ∀ unit ∈ units, ∀ site ∈ unit.recordSites, site.inHeader = false)
    {unit : TranslationUnit} (member : unit ∈ units) {options : Options} {analysis : UnitAnalysis}
    (run : resolveUnit unit (.ofProgram units externals) options = .ok analysis) :
    ∃ log,
      resolveReferences unit analysis.tree analysis.declarations (.ofProgram units externals) =
        .ok log ∧
      analysis.resolutions = .ofLog log ∧
      (∀ site ∈ log.references, ∀ hit base, site.hit = some hit → hit.implicitBase = some base →
        site.BaseFaithful ⟨analysis.tree, analysis.declarations, .ofProgram units externals,
          unit.package, unit.imports⟩ hit base) ∧
      ∀ slot ∈ analysis.resolutions.references, ∀ base, slot.2.implicitBase = some base →
        ∃ site ∈ log.references, ∃ hit, site.id = slot.1 ∧ site.hit = some hit ∧
          hit.implicitBase = some base ∧ slot.2.resolved = some hit.resolved := by
  obtain ⟨tree, state, log, phases⟩ := UnitAnalysis.exists_phases run
  rw [phases.tree_eq, phases.declarations_eq, phases.resolutions_eq]
  refine ⟨log, phases.resolved, rfl, fun site listed hit base found understood => ?_,
    fun slot written base understood => ?_⟩
  · have explained := phases.explains listed
    rcases explained.offersHit_or_plain found with ⟨t, inChain, level, receiver, offer⟩ | plain
    · have ht : t ∈ state.tree.scopes := ScopeTree.mem_of_mem_chain inChain
      have behind := foundBehind_of_offer distinct member (headers unit member) phases.built
        phases.registered ht offer understood
      exact baseFaithful_of_foundBehind explained found behind
    · rw [plain.1] at understood
      cases understood
  · obtain ⟨site, listed, rfl⟩ := Resolutions.ofLog_comeFrom log slot written
    obtain ⟨hit, found, hasBase⟩ := Option.bind_eq_some_iff.mp understood
    exact ⟨site, listed, hit, rfl, found, hasBase, congrArg (·.map (·.resolved)) found⟩

theorem implicit_bases_faithful_sample :
    ∃ analysis log, RecordIndex.DistinctIds [sampleUnit] [sampleOutside] ∧
      resolveUnit sampleUnit (.ofProgram [sampleUnit] [sampleOutside]) {} = .ok analysis ∧
      analysis.resolutions = .ofLog log ∧
      log.references.filterMap (fun site => site.hit.bind (·.implicitBase)) = [⟨⟨1⟩, .this⟩] ∧
      ∀ site ∈ log.references, ∀ hit base, site.hit = some hit → hit.implicitBase = some base →
        site.BaseFaithful ⟨analysis.tree, analysis.declarations,
          .ofProgram [sampleUnit] [sampleOutside], sampleUnit.package, sampleUnit.imports⟩
          hit base := by
  have distinct : RecordIndex.DistinctIds [sampleUnit] [sampleOutside] :=
    ⟨by decide +kernel, by decide +kernel⟩
  have headers : ∀ unit ∈ [sampleUnit], ∀ site ∈ unit.recordSites, site.inHeader = false := by
    decide +kernel
  have counted : (resolveUnit sampleUnit (.ofProgram [sampleUnit] [sampleOutside]) {}).toOption.map
      (fun analysis => (resolveReferences sampleUnit analysis.tree analysis.declarations
        (.ofProgram [sampleUnit] [sampleOutside])).toOption.map
          fun log => log.references.filterMap fun site => site.hit.bind (·.implicitBase)) =
      some (some [⟨⟨1⟩, .this⟩]) := by
    decide +kernel
  obtain ⟨analysis, run, logged⟩ := exists_ok_of_toOption_map counted
  obtain ⟨other, resolved, bases⟩ := exists_ok_of_toOption_map logged
  obtain ⟨log, again, resolutions, faithful, _⟩ :=
    implicit_bases_faithful distinct headers List.mem_cons_self run
  have same := resolved.symm.trans again
  cases same
  exact ⟨analysis, other, distinct, run, resolutions, bases, faithful⟩

end NameBinding
