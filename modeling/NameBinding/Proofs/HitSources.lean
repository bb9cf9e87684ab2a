import NameBinding.Proofs.NearestScope

/-!
# Where a hit comes from

A hit on a bare name is what some scope around the use offers, or it denotes a record or the
receiver of the innermost record and is understood behind no other receiver.
-/

namespace NameBinding

/-- A hit that no scope has to offer denotes a record or a receiver, with nothing understood
before it. -/
def Hit.Plain (hit : Hit) : Prop :=
  hit.implicitBase = none ∧ (hit.resolved.kind = .record ∨ hit.resolved.kind = .this)

/-- A plain hit is no field. -/
theorem Hit.Plain.not_isField {hit : Hit} (plain : hit.Plain) :
    hit.resolved.kind.isField ≠ true := by
  rcases plain.2 with record | this
  · rw [record]
    exact Bool.false_ne_true
  · rw [this]
    exact Bool.false_ne_true

namespace Scene

variable {scene : Scene} {scope : ScopeId} {name : String} {use : Span} {inStatic : Bool}
  {hit : Hit} {level : Nat} {receiver : Bool} {t : Scope}

/-- The ways in which a scope offers a hit for a name. -/
inductive Offer (scene : Scene) (name : String) (use : Span) (level : Nat) (receiver : Bool)
    (t : Scope) : Hit → Prop
  /-- A variable that the scope binds; in a block, one that is declared no later than the use. -/
  | bound {hit : Hit} {b : Binding} : t.varBinding? name = some b → hit.resolved = b.resolution →
    hit.implicitBase = none → (t.kind = .block → b.definedAt.start ≤ use.start) →
    scene.Offer name use level receiver t hit
  /-- A field that the scope of a record binds. -/
  | own {b : Binding} : t.kind = .record → t.varBinding? name = some b → b.kind.isField = true →
    scene.Offer name use level receiver t (.ofField t.owner level receiver b.resolution)
  /-- A field that is found for the record of the scope. -/
  | inherited {record declarer : RecordInfo} {field : FieldInfo} : t.kind = .record →
    scene.index.recordById? t.owner = some record →
    scene.index.findFieldIn record name = .found declarer field →
    scene.Offer name use level receiver t (.ofField t.owner level receiver field.resolution)

/-- What a scope offers, it offers in one of these ways. -/
theorem offer_of_offer? (offered : scene.offer? name use level receiver t = some hit) :
    scene.Offer name use level receiver t hit := by
  unfold offer? at offered
  cases kind : t.kind with
  | record =>
    simp only [kind] at offered
    cases bound : t.varBinding? name with
    | none =>
      simp only [bound] at offered
      obtain ⟨record, declarer, field, known, found, rfl⟩ := inherited?_eq_some_iff.mp offered
      exact .inherited kind known found
    | some b =>
      simp only [bound] at offered
      split at offered
      · rename_i field
        cases offered
        exact .own kind bound field
      · cases offered
        exact .bound bound rfl rfl (by simp [kind])
  | block =>
    simp only [kind] at offered
    cases bound : t.varBinding? name with
    | none => simp [bound] at offered
    | some b =>
      simp only [bound] at offered
      split at offered
      · rename_i visible
        cases offered
        exact .bound bound rfl rfl fun _ => (Span.startsNoLaterThan_iff _ _).mp visible
      · cases offered
  | _ =>
    simp only [kind] at offered
    obtain ⟨b, bound, rfl⟩ := Option.map_eq_some_iff.mp offered
    exact .bound bound rfl rfl (by simp [kind])

/-- Some scope around the place of a use offers the hit. -/
def OffersHit (scene : Scene) (scope : ScopeId) (name : String) (use : Span) (hit : Hit) : Prop :=
  ∃ t ∈ scene.tree.chain scope, ∃ level receiver, scene.Offer name use level receiver t hit

/-- What a search along some scopes finds is offered by the first scope that offers anything. The
search has counted the records before this scope, and a receiver can be reached in it unless a
static scope comes before. -/
theorem exists_split_of_search {scopes : List Scope}
    (found : scene.searchVariable? name use level receiver scopes = some hit) :
    ∃ before t after, scopes = before ++ t :: after ∧
      scene.offer? name use (level + before.countP (·.kind == .record))
        (receiver && before.all (!·.isStatic)) t = some hit := by
  induction scopes generalizing level receiver with
  | nil =>
    rw [searchVariable?] at found
    cases found
  | cons t rest ih =>
    rw [searchVariable?] at found
    split at found
    · rename_i offered
      cases found
      exact ⟨[], t, rest, rfl, by simpa using offered⟩
    · obtain ⟨before, other, after, rfl, offered⟩ := ih found
      refine ⟨t :: before, other, after, rfl, ?_⟩
      rw [List.all_cons, ← Bool.and_assoc]
      by_cases record : t.kind = .record
      · have counted : level + (t :: before).countP (·.kind == .record) =
            level + 1 + before.countP (·.kind == .record) := by
          rw [List.countP_cons_of_pos (by simp [record])]
          omega
        rw [counted]
        rwa [if_pos record] at offered
      · rw [List.countP_cons_of_neg (by simpa using record)]
        rwa [if_neg record] at offered

/-- A name is looked up in the scopes around it, or it is plain. -/
theorem search_or_plain (found : scene.lookup? scope name use inStatic = some hit) :
    scene.searchVariable? name use 0 (!inStatic) (scene.tree.chain scope) = some hit ∨
      hit.Plain := by
  unfold lookup? at found
  split at found
  · rename_i search
    cases found
    exact .inl search
  · right
    split at found
    · cases found
      exact ⟨rfl, .inl rfl⟩
    · unfold ownReceiver? at found
      split at found
      · split at found
        · split at found
          · cases found
            exact ⟨rfl, .inr rfl⟩
          · cases found
        · cases found
      · cases found

/-- A name that is looked up is offered by a scope around it, or it is plain. -/
theorem offersHit_or_plain (found : scene.lookup? scope name use inStatic = some hit) :
    scene.OffersHit scope name use hit ∨ hit.Plain := by
  refine (search_or_plain found).imp_left fun search => ?_
  obtain ⟨before, t, after, chain, offered⟩ := exists_split_of_search search
  exact ⟨t, chain ▸ List.mem_append_right _ List.mem_cons_self, _, _, offer_of_offer? offered⟩

/-- As a base a name is looked up in the scopes around it, too, or it is plain. -/
theorem offersHit_or_plain_of_base
    (found : (scene.lookupBase scope name use inStatic).1 = some hit) :
    scene.OffersHit scope name use hit ∨ hit.Plain := by
  unfold lookupBase at found
  split at found
  · rename_i looked
    cases found
    exact offersHit_or_plain looked
  · right
    split at found
    · cases found
      exact ⟨rfl, .inl rfl⟩
    · cases found

/-- A bare name in the log of a unit has been found in one of the two ways. -/
theorem Explains.offersHit_or_plain {site : ReferenceSite}
    (explained : scene.Explains (.reference site)) (found : site.hit = some hit) :
    scene.OffersHit site.scope site.name site.span hit ∨ hit.Plain := by
  obtain ⟨_, inStatic, asValue | asBase⟩ := explained
  · exact Scene.offersHit_or_plain (asValue ▸ found)
  · exact offersHit_or_plain_of_base (asBase ▸ found)

end Scene

/-- The three phases that an analysis of a unit has gone through. -/
structure UnitAnalysis.Phases (analysis : UnitAnalysis) (unit : TranslationUnit)
    (index : RecordIndex) (tree : ScopeTree) (state : Registration) (log : UseLog) : Prop where
  built : ScopeTree.build unit = .ok tree
  registered : registerDeclarations unit tree = .ok state
  resolved : resolveReferences unit state.tree state.table index = .ok log
  tree_eq : analysis.tree = state.tree
  declarations_eq : analysis.declarations = state.table
  resolutions_eq : analysis.resolutions = .ofLog log

namespace UnitAnalysis

variable {analysis : UnitAnalysis} {unit : TranslationUnit} {index : RecordIndex}
  {tree : ScopeTree} {state : Registration} {log : UseLog}

/-- A unit that is resolved has gone through the three phases. -/
theorem exists_phases {options : Options} (run : resolveUnit unit index options = .ok analysis) :
    ∃ tree state log, analysis.Phases unit index tree state log := by
  obtain ⟨tree, built, run⟩ := bind_eq_ok_iff.mp run
  obtain ⟨state, registered, run⟩ := bind_eq_ok_iff.mp run
  obtain ⟨log, resolved, run⟩ := bind_eq_ok_iff.mp run
  cases run
  exact ⟨tree, state, log, built, registered, resolved, rfl, rfl, rfl⟩

/-- The bare names in the log of an analysis have been looked up. -/
theorem Phases.explains (phases : analysis.Phases unit index tree state log)
    {site : ReferenceSite} (listed : site ∈ log.references) :
    (state.scene unit index).Explains (.reference site) :=
  resolveReferences_explained phases.resolved _ (UseLog.mem_references.mp listed)

/-- The log of an analysis is put together from the logs of the steps of its unit, and each bare
name is found at its step. -/
theorem Phases.exists_parts (phases : analysis.Phases unit index tree state log) :
    ∃ parts : List UseLog, log = parts.flatten ∧
      List.Forall₂ (fun item (part : UseLog) => ∀ site ∈ part.references,
        (state.scene unit index).FoundAt item (.reference site))
        (unit.outline .recordsFirst) parts := by
  have run := phases.resolved
  rw [resolveReferences_eq] at run
  obtain ⟨parts, whole, steps⟩ := Scene.resolveSteps_parts run
  exact ⟨parts, whole, steps.imp fun _ _ step site listed =>
    Scene.resolveStep_foundAt step _ (UseLog.mem_references.mp listed)⟩

/-- The log is that of resolving the uses over the tree and the table of the analysis. -/
theorem Phases.resolved_eq (phases : analysis.Phases unit index tree state log) :
    resolveReferences unit analysis.tree analysis.declarations index = .ok log := by
  rw [phases.tree_eq, phases.declarations_eq]
  exact phases.resolved

end UnitAnalysis

end NameBinding
