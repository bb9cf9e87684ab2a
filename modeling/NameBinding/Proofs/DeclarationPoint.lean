import NameBinding.Proofs.HitSources

/-!
# From where on a local is seen

Parameters belong to the scopes of methods, caught variables to those of catch clauses, all other
locals to the scopes of blocks and loops. A use that is resolved to a local lies inside the scope
of the local. In a block it does not come before the declaration either; in the scope of a loop
it may: a loop offers its locals to everything that is written inside it.
-/

namespace NameBinding

variable {unit : TranslationUnit} {tree : ScopeTree} {state : Registration}

/-- Variables that are no fields are declared in scopes that take them. -/
theorem registered_variable_scope (built : ScopeTree.build unit = .ok tree)
    (registered : registerDeclarations unit tree = .ok state) {d : Declaration}
    (hd : d ∈ state.table.entries) (noRecord : d.kind ≠ .record) (noField : d.kind ≠ .field) :
    ∃ t ∈ state.tree.scopes, t.id = d.scope ∧ t.kind.Takes d.kind := by
  rcases registered_cases registered hd with ⟨_, _, _, rfl⟩ | ⟨within, item, listed, rfl⟩
  · exact absurd rfl noRecord
  · rcases ScopeTree.build_sits built _ listed with field | ⟨around, surrounds, takes⟩
    · exact absurd field noField
    · obtain ⟨t, ht, id, rfl⟩ := registered_surroundings built registered surrounds
      exact ⟨t, ht, id, takes⟩

/-- A variable that a scope binds, fields and receivers apart, is declared in it. -/
theorem registered_binding_declared (built : ScopeTree.build unit = .ok tree)
    (registered : registerDeclarations unit tree = .ok state) {t : Scope}
    (ht : t ∈ state.tree.scopes) {b : Binding} (hb : b ∈ t.vars) (isLocal : b.kind = .localVar) :
    ∃ d ∈ state.table.entries, d.binding = b ∧ d.scope = t.id ∧ t.kind.Takes d.kind ∧
      (d.kind = .localVar ∨ d.kind = .caught) := by
  have traced := registered_traced built registered
  obtain ⟨_, ⟨receiver, _⟩ | ⟨d, hd, rfl, here⟩⟩ := traced.vars t ht b hb
  · rw [isLocal] at receiver
    cases receiver
  · have kind : d.kind = .localVar ∨ d.kind = .caught := by
      have bindingKind : d.bindingKind = .localVar := isLocal
      unfold Declaration.bindingKind at bindingKind
      cases kind : d.kind <;> simp [kind] at bindingKind ⊢
      split at bindingKind <;> cases bindingKind
    have noRecord : d.kind ≠ .record := by rcases kind with kind | kind <;> simp [kind]
    have noField : d.kind ≠ .field := by rcases kind with kind | kind <;> simp [kind]
    obtain ⟨u, hu, id, takes⟩ := registered_variable_scope built registered hd noRecord noField
    have same : u = t := traced.formed.eq_of_id hu ht (id.trans here)
    subst same
    exact ⟨d, hd, rfl, here, takes, kind⟩

/-- A scope that offers a local binds it. -/
theorem Scene.Offer.binding_of_localVar {scene : Scene} {name : String} {use : Span} {level : Nat}
    {receiver : Bool} {t : Scope} {hit : Hit} (offer : scene.Offer name use level receiver t hit)
    (isLocal : hit.resolved.kind = .localVar) :
    ∃ b, t.varBinding? name = some b ∧ hit.resolved = b.resolution ∧
      (t.kind = .block → b.definedAt.start ≤ use.start) := by
  cases offer with
  | bound found same _ visible => exact ⟨_, found, same, visible⟩
  | @own b _ _ field =>
    have kind : b.kind = .localVar := isLocal
    rw [kind] at field
    cases field
  | @inherited _ _ field _ _ _ =>
    have isField := field.isField_resolution
    have kind : field.resolution.kind = .localVar := isLocal
    rw [kind] at isField
    cases isField

/-- A bare name that denotes a local denotes one that is declared under this name in a scope
around the use: in a block, no later than the use, or in a loop; a caught variable in a catch
clause. -/
def ReferenceSite.SeesLocal (site : ReferenceSite) (tree : ScopeTree) (table : DeclTable) : Prop :=
  ∀ hit, site.hit = some hit → hit.resolved.kind = .localVar →
    ∃ d, table.get? hit.resolved.target = some d ∧ d.name = site.name ∧
      ∃ t ∈ tree.chain site.scope, d.scope = t.id ∧
        ((d.kind = .localVar ∧ t.kind = .block ∧ d.span.start ≤ site.span.start) ∨
          (d.kind = .localVar ∧ t.kind = .loop) ∨ (d.kind = .caught ∧ t.kind = .handler))

/-- A bare name that has been looked up in a registered unit sees only locals in scope. -/
theorem seesLocal_of_explains {index : RecordIndex} {site : ReferenceSite}
    (built : ScopeTree.build unit = .ok tree)
    (registered : registerDeclarations unit tree = .ok state)
    (explained : (state.scene unit index).Explains (.reference site)) :
    site.SeesLocal state.tree state.table := by
  intro hit found isLocal
  rcases explained.offersHit_or_plain found with
    ⟨t, inChain, level, receiver, offer⟩ | ⟨_, record | this⟩
  · have ht : t ∈ state.tree.scopes := ScopeTree.mem_of_mem_chain inChain
    obtain ⟨b, bound, same, visible⟩ := offer.binding_of_localVar isLocal
    obtain ⟨hb, named⟩ := Scope.mem_of_varBinding? bound
    have kind : b.kind = .localVar := by
      rw [same] at isLocal
      exact isLocal
    obtain ⟨d, hd, rfl, here, takes, sort⟩ :=
      registered_binding_declared built registered ht hb kind
    refine ⟨d, ?_, named, t, inChain, here, ?_⟩
    · rw [same]
      exact registered_get? built registered hd
    · rcases sort with sort | sort
      · cases place : t.kind with
        | block => exact .inl ⟨sort, rfl, visible place⟩
        | loop => exact .inr (.inl ⟨sort, rfl⟩)
        | _ => simp [place, sort, ScopeKind.Takes] at takes
      · cases place : t.kind with
        | handler => exact .inr (.inr ⟨sort, rfl⟩)
        | _ => simp [place, sort, ScopeKind.Takes] at takes
  · rw [isLocal] at record
    cases record
  · rw [isLocal] at this
    cases this

/-- In every unit that is resolved, a bare name that denotes a local lies in the scope of the
local and, in a block, not before its declaration. -/
theorem locals_seen_in_scope {index : RecordIndex} {options : Options} {analysis : UnitAnalysis}
    (run : resolveUnit unit index options = .ok analysis) :
    ∃ log, resolveReferences unit analysis.tree analysis.declarations index = .ok log ∧
      analysis.resolutions = .ofLog log ∧
      ∀ site ∈ log.references, site.SeesLocal analysis.tree analysis.declarations := by
  obtain ⟨tree, state, log, phases⟩ := UnitAnalysis.exists_phases run
  rw [phases.tree_eq, phases.declarations_eq]
  refine ⟨log, phases.resolved, phases.resolutions_eq, fun site listed => ?_⟩
  exact seesLocal_of_explains phases.built phases.registered (phases.explains listed)

theorem locals_seen_in_scope_sample :
    ∃ analysis log, resolveUnit sampleUnit (.build [sampleUnit]) {} = .ok analysis ∧
      analysis.resolutions = .ofLog log ∧
      log.references.filterMap (·.resolved) = [⟨⟨4⟩, .parameter⟩, ⟨⟨2⟩, .field⟩, ⟨⟨6⟩, .localVar⟩] ∧
      ∀ site ∈ log.references, site.SeesLocal analysis.tree analysis.declarations := by
  have counted : (resolveUnit sampleUnit (.build [sampleUnit]) {}).toOption.map
      (fun analysis => (resolveReferences sampleUnit analysis.tree analysis.declarations
        (.build [sampleUnit])).toOption.map fun log => log.references.filterMap (·.resolved)) =
      some (some [⟨⟨4⟩, .parameter⟩, ⟨⟨2⟩, .field⟩, ⟨⟨6⟩, .localVar⟩]) := by
    decide +kernel
  obtain ⟨analysis, run, logged⟩ := exists_ok_of_toOption_map counted
  obtain ⟨other, resolved, three⟩ := exists_ok_of_toOption_map logged
  obtain ⟨log, again, resolutions, sees⟩ := locals_seen_in_scope run
  have same := resolved.symm.trans again
  cases same
  exact ⟨analysis, other, run, resolutions, three, sees⟩

/-- A method that declares a local `x` and then, in the header of a loop, uses the name and
declares another local of that name. -/
def lateUnit : TranslationUnit :=
  let int : TypeRef := { name := "int" }
  let first : LocalDecl := { id := ⟨4⟩, name := "x", type := int, span := { start := 5 } }
  let use : Expr := .reference { id := ⟨6⟩, name := "x", span := { start := 20 } }
  let second : LocalDecl := { id := ⟨7⟩, name := "x", type := int, span := { start := 30 } }
  let loop : Stmt := .forLoop ⟨5⟩ [.expr use, .localVar second] none [] (.block ⟨⟨8⟩, [], {}⟩) {}
  let method : Method := ⟨⟨2⟩, "m", false, false, [], some ⟨⟨3⟩, [.localVar first, loop], {}⟩, {}⟩
  { id := ⟨0⟩, name := "Late", records := [⟨⟨1⟩, "A", none, false, [], [method], [], {}⟩] }

/-- In the scope of a loop a local is seen by a use before its declaration, even where another
local of that name is declared further out before the use. -/
theorem loop_local_seen_early :
    ∃ analysis log, resolveUnit lateUnit (.build [lateUnit]) {} = .ok analysis ∧
      resolveReferences lateUnit analysis.tree analysis.declarations (.build [lateUnit]) =
        .ok log ∧
      log.references.map (fun site => (site.span.start, site.resolved)) =
        [(20, some ⟨⟨7⟩, .localVar⟩)] ∧
      (analysis.declarations.get? ⟨7⟩).map (fun d => (d.kind, d.span.start)) =
        some (.localVar, 30) := by
  have seen : (resolveUnit lateUnit (.build [lateUnit]) {}).toOption.map
      (fun analysis => ((resolveReferences lateUnit analysis.tree analysis.declarations
        (.build [lateUnit])).toOption.map
          fun log => log.references.map fun site => (site.span.start, site.resolved),
        (analysis.declarations.get? ⟨7⟩).map fun d => (d.kind, d.span.start))) =
      some (some [(20, some ⟨⟨7⟩, .localVar⟩)], some (.localVar, 30)) := by
    decide +kernel
  obtain ⟨analysis, run, both⟩ := exists_ok_of_toOption_map seen
  obtain ⟨logged, declared⟩ := Prod.mk.inj both
  obtain ⟨log, resolved, early⟩ := exists_ok_of_toOption_map logged
  exact ⟨analysis, log, run, resolved, early, declared⟩

end NameBinding
