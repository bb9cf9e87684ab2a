import NameBinding.Proofs.RegisteredUnit
import NameBinding.Proofs.UseOrigins

/-!
# The nearest scope wins

A bare name is resolved by the nearest scope around it that offers the name, and what it then
denotes belongs to this very scope: a local or parameter that is declared there, a field reached
through the record of the scope, or a receiver that is bound there. If no scope offers the name,
it denotes a record, the innermost record spelled out as a receiver, or nothing.
-/

namespace NameBinding

/-- A scope offers a name to a use. A block offers what it binds from the declaration on; a record
offers what it binds and the fields it has or inherits; any other scope offers what it binds. -/
def Scope.Offers (index : RecordIndex) (name : String) (use : Span) (t : Scope) : Prop :=
  match t.kind with
  | .block => ∃ b, t.varBinding? name = some b ∧ b.definedAt.start ≤ use.start
  | .record => (∃ b, t.varBinding? name = some b) ∨
    ∃ record owner field, index.recordById? t.owner = some record ∧
      index.findFieldIn record name = .found owner field
  | .global | .method | .loop | .handler => ∃ b, t.varBinding? name = some b

/-- What a bare name is found to denote comes from a scope: a local or parameter is declared in
it, a field is reached through its record, a receiver is bound in it. -/
def Hit.ComesFrom (table : DeclTable) (name : String) (t : Scope) (hit : Hit) : Prop :=
  match hit.resolved.kind with
  | .localVar | .parameter => ∃ d, table.get? hit.resolved.target = some d ∧ d.name = name ∧
    d.scope = t.id
  | .field | .staticField => ∃ base, hit.implicitBase = some base ∧ base.target = t.owner
  | .this | .outerThis => ∃ b, t.varBinding? name = some b ∧ b.resolution = hit.resolved
  | .record => False

namespace Scene

variable {scene : Scene} {name : String} {use : Span} {level : Nat} {receiver : Bool} {t : Scope}

/-- A name is bound exactly if its binding is there. -/
theorem exists_varBinding?_iff :
    (∃ b, t.varBinding? name = some b) ↔ (t.varBinding? name).isSome = true :=
  Option.isSome_iff_exists.symm

/-- A hit on an inherited field is a hit on a field that the search in the record finds. -/
theorem inherited?_eq_some_iff {owner : NodeId} {hit : Hit} :
    scene.inherited? owner name level receiver = some hit ↔
      ∃ record declarer field, scene.index.recordById? owner = some record ∧
        scene.index.findFieldIn record name = .found declarer field ∧
        Hit.ofField owner level receiver field.resolution = hit := by
  unfold inherited?
  cases known : scene.index.recordById? owner with
  | none => simp
  | some record =>
    cases found : scene.index.findFieldIn record name <;> simp [found]

/-- A record hands down a name exactly if the search in it finds a field. -/
theorem inherited?_isSome_iff {owner : NodeId} :
    (scene.inherited? owner name level receiver).isSome = true ↔
      ∃ record declarer field, scene.index.recordById? owner = some record ∧
        scene.index.findFieldIn record name = .found declarer field := by
  rw [Option.isSome_iff_exists]
  simp only [inherited?_eq_some_iff]
  constructor
  · rintro ⟨_, record, declarer, field, known, found, _⟩
    exact ⟨record, declarer, field, known, found⟩
  · rintro ⟨record, declarer, field, known, found⟩
    exact ⟨_, record, declarer, field, known, found, rfl⟩

/-- A scope has a hit for a name exactly if it offers the name. -/
theorem offer?_isSome_iff :
    (scene.offer? name use level receiver t).isSome = true ↔ t.Offers scene.index name use := by
  unfold offer? Scope.Offers
  cases kind : t.kind with
  | record =>
    cases bound : t.varBinding? name with
    | none => simp [inherited?_isSome_iff]
    | some b =>
      by_cases field : b.kind.isField <;> simp [field]
  | block =>
    cases bound : t.varBinding? name with
    | none => simp
    | some b =>
      by_cases visible : b.definedAt.startsNoLaterThan use
      · simp [visible, (Span.startsNoLaterThan_iff _ _).mp visible]
      · simp [visible, mt (Span.startsNoLaterThan_iff _ _).mpr visible]
  | global => simp [exists_varBinding?_iff]
  | method => simp [exists_varBinding?_iff]
  | loop => simp [exists_varBinding?_iff]
  | handler => simp [exists_varBinding?_iff]

/-- A scope has no hit for a name exactly if it does not offer the name. -/
theorem offer?_eq_none_iff :
    scene.offer? name use level receiver t = none ↔ ¬t.Offers scene.index name use := by
  rw [← offer?_isSome_iff, Option.not_isSome_iff_eq_none]

/-- The search passes over scopes that do not offer the name and ends at the first that does. -/
theorem searchVariable?_of_nearest (scene : Scene) {before : List Scope} (after : List Scope)
    (level : Nat) (receiver : Bool)
    (passed : ∀ s ∈ before, ¬s.Offers scene.index name use)
    (offers : t.Offers scene.index name use) :
    ∃ level' receiver' hit, scene.offer? name use level' receiver' t = some hit ∧
      scene.searchVariable? name use level receiver (before ++ t :: after) = some hit := by
  induction before generalizing level receiver with
  | nil =>
    obtain ⟨hit, found⟩ := Option.isSome_iff_exists.mp (offer?_isSome_iff.mpr offers)
    have search : scene.searchVariable? name use level receiver (t :: after) = some hit := by
      rw [searchVariable?, found]
    exact ⟨level, receiver, hit, found, search⟩
  | cons s rest ih =>
    have none : scene.offer? name use level receiver s = none :=
      offer?_eq_none_iff.mpr (passed s List.mem_cons_self)
    have further : ∀ other ∈ rest, ¬other.Offers scene.index name use :=
      fun other member => passed other (List.mem_cons_of_mem _ member)
    obtain ⟨level', receiver', hit, found, search⟩ := ih _ _ further
    refine ⟨level', receiver', hit, found, ?_⟩
    rw [List.cons_append, searchVariable?, none, search]

/-- The search is in vain where no scope offers the name. -/
theorem searchVariable?_eq_none {scopes : List Scope}
    (passed : ∀ s ∈ scopes, ¬s.Offers scene.index name use) :
    scene.searchVariable? name use level receiver scopes = none := by
  induction scopes generalizing level receiver with
  | nil => rw [searchVariable?]
  | cons s rest ih =>
    have none : scene.offer? name use level receiver s = none :=
      offer?_eq_none_iff.mpr (passed s List.mem_cons_self)
    rw [searchVariable?, none]
    exact ih fun other member => passed other (List.mem_cons_of_mem _ member)

/-- The search is in vain exactly where no scope offers the name. -/
theorem searchVariable?_eq_none_iff {scopes : List Scope} :
    scene.searchVariable? name use level receiver scopes = none ↔
      ∀ s ∈ scopes, ¬s.Offers scene.index name use := by
  refine ⟨fun missing s listed offers => ?_, searchVariable?_eq_none⟩
  induction scopes generalizing level receiver with
  | nil => cases listed
  | cons first rest ih =>
    rw [searchVariable?] at missing
    split at missing
    · cases missing
    · rename_i unoffered
      rcases List.mem_cons.mp listed with rfl | listed
      · exact offer?_eq_none_iff.mp unoffered offers
      · exact ih missing listed

/-- The innermost record is the first record scope of the chain. -/
theorem find?_of_innermostRecord? {scopes : List Scope} {owner : NodeId} {reachable : Bool}
    (h : innermostRecord? receiver scopes = some (owner, reachable)) :
    ∃ s, scopes.find? (·.kind == .record) = some s ∧ s.owner = owner := by
  induction scopes generalizing receiver with
  | nil => simp [innermostRecord?] at h
  | cons s rest ih =>
    rw [innermostRecord?] at h
    split at h
    · rename_i kind
      cases h
      exact ⟨s, by simp [kind], rfl⟩
    · rename_i kind
      obtain ⟨other, found, same⟩ := ih h
      exact ⟨other, by simp [kind, found], same⟩

end Scene

/-- A name that ends in something is put together from what stands before it and the ending. -/
theorem RecordName.eq_append_of_dropEnding? {ending name rest : String}
    (h : RecordName.dropEnding? ending name = some rest) : name = rest ++ ending := by
  unfold dropEnding? at h
  split at h
  · rename_i ends
    cases h
    obtain ⟨front, hfront⟩ := List.isSuffixOf_iff_suffix.mp ends
    apply String.toList_injective
    simp [← hfront]
  · cases h

/-- A receiver that is spelled out without being bound is that of the innermost record. -/
theorem Scene.ownReceiver?_eq_some {scene : Scene} {scope : ScopeId} {name : String}
    {inStatic : Bool} {hit : Hit} (found : scene.ownReceiver? scope name inStatic = some hit) :
    ∃ s d, (scene.tree.chain scope).find? (·.kind == .record) = some s ∧
      scene.table.get? s.owner = some d ∧ name = d.name ++ ".this" ∧
      hit.resolved = ⟨s.owner, .this⟩ := by
  unfold ownReceiver? at found
  split at found
  · rename_i owner reachable qualifier innermost ending
    obtain ⟨s, first, rfl⟩ := find?_of_innermostRecord? innermost
    split at found
    · rename_i d declared
      split at found
      · rename_i same
        cases found
        exact ⟨s, d, first, declared, same ▸ RecordName.eq_append_of_dropEnding? ending, rfl⟩
      · cases found
    · cases found
  · cases found

section

variable {unit : TranslationUnit} {tree : ScopeTree} {state : Registration} {index : RecordIndex}
  {name : String} {use : Span} {level : Nat} {receiver : Bool} {t : Scope} {hit : Hit}

/-- The scene in which the uses of a registered unit are resolved. -/
def Registration.scene (state : Registration) (unit : TranslationUnit) (index : RecordIndex) :
    Scene :=
  ⟨state.tree, state.table, index, unit.package, unit.imports⟩

/-- What is found under a name is a variable of the scope and has this name. -/
theorem Scope.mem_of_varBinding? {b : Binding} (h : t.varBinding? name = some b) :
    b ∈ t.vars ∧ b.name = name :=
  of_find?_key h

/-- A hit on a binding that is no field comes from the scope that binds it. -/
theorem comesFrom_of_binding (built : ScopeTree.build unit = .ok tree)
    (registered : registerDeclarations unit tree = .ok state) (ht : t ∈ state.tree.scopes)
    {b : Binding} (bound : t.varBinding? name = some b) (noField : b.kind.isField = false)
    (resolved : hit.resolved = b.resolution) : hit.ComesFrom state.table name t := by
  obtain ⟨hb, named⟩ := Scope.mem_of_varBinding? bound
  obtain ⟨noRecord, origin⟩ := (registered_traced built registered).vars t ht b hb
  have declared : b.kind.isReceiver = false →
      ∃ d, state.table.get? b.target = some d ∧ d.name = name ∧ d.scope = t.id := by
    intro noReceiver
    obtain ⟨receiver, _⟩ | ⟨d, hd, rfl, here⟩ := origin
    · rw [receiver] at noReceiver
      cases noReceiver
    · exact ⟨d, registered_get? built registered hd, named, here⟩
  unfold Hit.ComesFrom
  rw [resolved, Binding.resolution]
  cases kind : b.kind with
  | localVar => exact declared (by rw [kind]; rfl)
  | parameter => exact declared (by rw [kind]; rfl)
  | this => exact ⟨b, bound, by rw [Binding.resolution, kind]⟩
  | outerThis => exact ⟨b, bound, by rw [Binding.resolution, kind]⟩
  | record => exact absurd kind noRecord
  | field => simp [kind, BindingKind.isField] at noField
  | staticField => simp [kind, BindingKind.isField] at noField

/-- A use that reaches a field denotes a field. -/
theorem FieldInfo.isField_resolution (field : FieldInfo) :
    field.resolution.kind.isField = true := by
  unfold FieldInfo.resolution
  cases field.isStatic <;> rfl

/-- A hit on a field comes from the scope of the record that has the field. -/
theorem comesFrom_ofField {field : Resolution} (isField : field.kind.isField = true) :
    (Hit.ofField t.owner level receiver field).ComesFrom state.table name t := by
  unfold Hit.ComesFrom Hit.ofField
  cases kind : field.kind with
  | field => exact ⟨_, rfl, rfl⟩
  | staticField => exact ⟨_, rfl, rfl⟩
  | localVar => simp [kind, BindingKind.isField] at isField
  | parameter => simp [kind, BindingKind.isField] at isField
  | this => simp [kind, BindingKind.isField] at isField
  | outerThis => simp [kind, BindingKind.isField] at isField
  | record => simp [kind, BindingKind.isField] at isField

/-- What a scope offers comes from it. -/
theorem comesFrom_of_offer? (built : ScopeTree.build unit = .ok tree)
    (registered : registerDeclarations unit tree = .ok state) (ht : t ∈ state.tree.scopes)
    (offered : (state.scene unit index).offer? name use level receiver t = some hit) :
    hit.ComesFrom state.table name t := by
  have noField : ∀ b, t.varBinding? name = some b → t.kind ≠ .record → b.kind.isField = false := by
    intro b bound other
    rw [← Bool.not_eq_true]
    exact fun field => other
      (registered_field_binding built registered ht (Scope.mem_of_varBinding? bound).1 field)
  unfold Scene.offer? at offered
  cases kind : t.kind with
  | record =>
    simp only [kind] at offered
    cases bound : t.varBinding? name with
    | none =>
      simp only [bound] at offered
      obtain ⟨_, _, field, _, _, rfl⟩ := Scene.inherited?_eq_some_iff.mp offered
      exact comesFrom_ofField field.isField_resolution
    | some b =>
      simp only [bound] at offered
      split at offered
      · rename_i field
        cases offered
        exact comesFrom_ofField field
      · rename_i field
        cases offered
        exact comesFrom_of_binding built registered ht bound (by simpa using field) rfl
  | block =>
    simp only [kind] at offered
    cases bound : t.varBinding? name with
    | none => simp [bound] at offered
    | some b =>
      simp only [bound] at offered
      split at offered
      · cases offered
        have noRecord : t.kind ≠ .record := by simp [kind]
        exact comesFrom_of_binding built registered ht bound (noField b bound noRecord) rfl
      · cases offered
  | _ =>
    simp only [kind] at offered
    obtain ⟨b, bound, rfl⟩ := Option.map_eq_some_iff.mp offered
    have noRecord : t.kind ≠ .record := by simp [kind]
    exact comesFrom_of_binding built registered ht bound (noField b bound noRecord) rfl

/-- A bare name is resolved by the nearest scope that offers it. -/
theorem lookup?_of_nearest (built : ScopeTree.build unit = .ok tree)
    (registered : registerDeclarations unit tree = .ok state) {scope : ScopeId} {inStatic : Bool}
    {before after : List Scope} (chain : state.tree.chain scope = before ++ t :: after)
    (passed : ∀ s ∈ before, ¬s.Offers index name use) (offers : t.Offers index name use) :
    ∃ hit, (state.scene unit index).lookup? scope name use inStatic = some hit ∧
      hit.ComesFrom state.table name t := by
  have ht : t ∈ state.tree.scopes := by
    have member : t ∈ state.tree.chain scope :=
      chain ▸ List.mem_append_right _ List.mem_cons_self
    exact ScopeTree.mem_of_mem_chain member
  have whole : (state.scene unit index).tree.chain scope = before ++ t :: after := chain
  obtain ⟨level', receiver', hit, offered, search⟩ :=
    (state.scene unit index).searchVariable?_of_nearest after 0 (!inStatic) passed offers
  refine ⟨hit, ?_, comesFrom_of_offer? built registered ht offered⟩
  rw [Scene.lookup?, whole, search]

/-- A bare name that no scope offers denotes a record, the innermost record spelled out as a
receiver, or nothing. -/
theorem lookup?_of_passed {scene : Scene} {scope : ScopeId} {inStatic : Bool}
    (passed : ∀ s ∈ scene.tree.chain scope, ¬s.Offers scene.index name use)
    (found : scene.lookup? scope name use inStatic = some hit) :
    hit.resolved.kind = .record ∨
      ∃ s d, (scene.tree.chain scope).find? (·.kind == .record) = some s ∧
        scene.table.get? s.owner = some d ∧ name = d.name ++ ".this" ∧
        hit.resolved = ⟨s.owner, .this⟩ := by
  rw [Scene.lookup?, Scene.searchVariable?_eq_none passed] at found
  simp only at found
  split at found
  · cases found
    exact .inl rfl
  · exact .inr (Scene.ownReceiver?_eq_some found)

/-- As a base a name denotes what it denotes elsewhere. -/
theorem lookupBase_of_lookup? {scene : Scene} {scope : ScopeId} {inStatic : Bool}
    (found : scene.lookup? scope name use inStatic = some hit) :
    (scene.lookupBase scope name use inStatic).1 = some hit := by
  rw [Scene.lookupBase, found]

/-- As a base a name denotes what it denotes elsewhere or else a record. -/
theorem lookupBase_eq_some {scene : Scene} {scope : ScopeId} {inStatic : Bool}
    (found : (scene.lookupBase scope name use inStatic).1 = some hit) :
    scene.lookup? scope name use inStatic = some hit ∨ hit.resolved.kind = .record := by
  unfold Scene.lookupBase at found
  split at found
  · rename_i other elsewhere
    cases found
    exact .inl elsewhere
  · split at found
    · cases found
      exact .inr rfl
    · cases found

end

/-- The nearest scope wins: a name that some scope around its use offers comes from the nearest
such scope; a name that none offers denotes a record, the innermost record spelled out as a
receiver, or nothing. -/
structure ReferenceSite.NearestWins (site : ReferenceSite) (tree : ScopeTree) (table : DeclTable)
    (index : RecordIndex) : Prop where
  nearest : ∀ before t after, tree.chain site.scope = before ++ t :: after →
    (∀ s ∈ before, ¬s.Offers index site.name site.span) → t.Offers index site.name site.span →
    ∃ hit, site.hit = some hit ∧ hit.ComesFrom table site.name t
  otherwise : (∀ s ∈ tree.chain site.scope, ¬s.Offers index site.name site.span) →
    ∀ hit, site.hit = some hit → hit.resolved.kind = .record ∨
      ∃ s d, (tree.chain site.scope).find? (·.kind == .record) = some s ∧
        table.get? s.owner = some d ∧ site.name = d.name ++ ".this" ∧
        hit.resolved = ⟨s.owner, .this⟩

/-- The nearest scope wins for a bare name that has been looked up in a registered unit. -/
theorem nearestWins_of_explains {unit : TranslationUnit} {tree : ScopeTree}
    {state : Registration} {index : RecordIndex} {site : ReferenceSite}
    (built : ScopeTree.build unit = .ok tree)
    (registered : registerDeclarations unit tree = .ok state)
    (explained : (state.scene unit index).Explains (.reference site)) :
    site.NearestWins state.tree state.table index := by
  obtain ⟨_, inStatic, asValue | asBase⟩ := explained
  · refine ⟨fun before t after chain passed offers => ?_, fun passed hit found => ?_⟩
    · rw [asValue]
      exact lookup?_of_nearest built registered chain passed offers
    · rw [asValue] at found
      exact lookup?_of_passed passed found
  · refine ⟨fun before t after chain passed offers => ?_, fun passed hit found => ?_⟩
    · rw [asBase]
      obtain ⟨hit, found, comes⟩ := lookup?_of_nearest built registered chain passed offers
      exact ⟨hit, lookupBase_of_lookup? found, comes⟩
    · rw [asBase] at found
      rcases lookupBase_eq_some found with found | kind
      · exact lookup?_of_passed passed found
      · exact .inl kind

/-- In every unit that is resolved, the nearest scope wins for every bare name. -/
theorem nearest_scope_wins {unit : TranslationUnit} {index : RecordIndex} {options : Options}
    {analysis : UnitAnalysis} (run : resolveUnit unit index options = .ok analysis) :
    ∃ log, resolveReferences unit analysis.tree analysis.declarations index = .ok log ∧
      analysis.resolutions = .ofLog log ∧
      ∀ site ∈ log.references,
        site.NearestWins analysis.tree analysis.declarations index := by
  obtain ⟨tree, built, run⟩ := bind_eq_ok_iff.mp run
  obtain ⟨state, registered, run⟩ := bind_eq_ok_iff.mp run
  obtain ⟨log, resolved, run⟩ := bind_eq_ok_iff.mp run
  cases run
  refine ⟨log, resolved, rfl, fun site listed => ?_⟩
  obtain ⟨entry, member, reference⟩ := List.mem_filterMap.mp listed
  cases entry with
  | member other => cases reference
  | reference other =>
    cases reference
    exact nearestWins_of_explains built registered (resolveReferences_explained resolved _ member)

theorem nearest_scope_wins_sample :
    ∃ analysis, resolveUnit sampleUnit (.build [sampleUnit]) {} = .ok analysis ∧
      analysis.resolutions.references.length = 3 ∧
      ∃ log, analysis.resolutions = .ofLog log ∧ ∀ site ∈ log.references,
        site.NearestWins analysis.tree analysis.declarations (.build [sampleUnit]) := by
  have counted : (resolveUnit sampleUnit (.build [sampleUnit]) {}).toOption.map
      (·.resolutions.references.length) = some 3 := by decide +kernel
  obtain ⟨analysis, run, three⟩ := Option.map_eq_some_iff.mp counted
  have run := eq_ok_of_toOption run
  obtain ⟨log, _, resolutions, wins⟩ := nearest_scope_wins run
  exact ⟨analysis, run, three, log, resolutions, wins⟩

end NameBinding
