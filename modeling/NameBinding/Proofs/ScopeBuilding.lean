import NameBinding.Proofs.Outcome
import NameBinding.Proofs.Outline
import NameBinding.Proofs.ScopeTree
import NameBinding.Scope.Build

/-!
# Building a scope tree, step by step

The builder walks a unit with a stack of open scopes. Here the walk is shown to do exactly what
the openings of the outline say, one after the other, and to leave the stack as it found it: it
never meets an exit that does not match, and nothing stays open at the end. The invariant is that
the innermost open scope is the scope of the place the walk has come to.
-/

namespace NameBinding

namespace ScopeTree

variable {tree later : ScopeTree} {opening : Opening} {openings : List Opening} {place : Place}
  {id : ScopeId}

/-- The scope of a place, once it has been opened. -/
def scopeAt? (tree : ScopeTree) : Place → Option ScopeId
  | .unit => some .global
  | .node id => tree.scopeOf? id

/-- Opens the scope of one construct of an outline. -/
def openScope (tree : ScopeTree) (opening : Opening) : Except Issue ScopeTree :=
  if opening.simpleName = some "" then .error (.malformed .namelessRecord opening.span)
  else
    match tree.scopeOf? opening.header.owner with
    | some existing =>
      .error (.malformed (.scopeTaken opening.header.owner existing) opening.span)
    | none => .ok (tree.push ((tree.scopeAt? opening.within).getD .global) opening.header)

/-- Opens the scopes of several constructs, one after the other. -/
def openScopes (tree : ScopeTree) (openings : List Opening) : Except Issue ScopeTree :=
  openings.foldlM openScope tree

/-- Constructs open their scopes one after the other. -/
theorem openScopes_cons (opening : Opening) (rest : List Opening) :
    tree.openScopes (opening :: rest) = tree.openScope opening >>= (·.openScopes rest) := rfl

/-- The constructs of two lists open their scopes one after the other. -/
theorem openScopes_append (xs ys : List Opening) :
    tree.openScopes (xs ++ ys) = tree.openScopes xs >>= (·.openScopes ys) :=
  List.foldlM_append

/-- A construct opens its scope if it does not lack a name and its node is new. -/
theorem openScope_eq_ok_iff :
    tree.openScope opening = .ok later ↔
      opening.simpleName ≠ some "" ∧ tree.scopeOf? opening.header.owner = none ∧
        later = tree.push ((tree.scopeAt? opening.within).getD .global) opening.header := by
  by_cases nameless : opening.simpleName = some ""
  · simp [openScope, nameless]
  · cases found : tree.scopeOf? opening.header.owner with
    | some existing => simp [openScope, nameless, found]
    | none => simp [openScope, nameless, found, eq_comm]

/-- Opening a scope adds to the tree. -/
theorem openScope_grows (h : tree.openScope opening = .ok later) :
    tree.GrowsTo later := by
  obtain ⟨_, _, rfl⟩ := openScope_eq_ok_iff.mp h
  exact growsTo_push

/-- Opening any number of scopes adds to the tree. -/
theorem openScopes_grow (h : tree.openScopes openings = .ok later) :
    tree.GrowsTo later :=
  foldlM_preserves (fun t => tree.GrowsTo t)
    (fun _ grown _ _ _ step => grown.trans (openScope_grows step)) (.refl tree) h

namespace Formed

/-- The scope of a place is a scope of the tree. -/
theorem lt_of_scopeAt? (formed : tree.Formed) (h : tree.scopeAt? place = some id) :
    id.index < tree.size := by
  cases place with
  | unit =>
    cases h
    exact formed.size_pos
  | node node =>
    obtain ⟨s, hs, _⟩ := formed.scope?_of_scopeOf? h
    exact index_lt_of_scope? hs

/-- A tree stays formed when a scope is opened. -/
theorem openScope (formed : tree.Formed) (h : tree.openScope opening = .ok later) :
    later.Formed := by
  obtain ⟨_, fresh, rfl⟩ := openScope_eq_ok_iff.mp h
  refine formed.push ?_ fresh
  cases found : tree.scopeAt? opening.within with
  | none => exact formed.size_pos
  | some id => exact formed.lt_of_scopeAt? found

/-- A tree stays formed when any number of scopes is opened. -/
theorem openScopes (formed : tree.Formed) (h : tree.openScopes openings = .ok later) :
    later.Formed :=
  foldlM_preserves Formed (fun _ formed _ _ _ step => formed.openScope step) formed h

end Formed

/-- A place keeps its scope when further scopes are opened. -/
theorem scopeAt?_of_grown (grown : tree.GrowsTo later)
    (h : tree.scopeAt? place = some id) : later.scopeAt? place = some id := by
  cases place with
  | unit => exact h
  | node node => exact scopeOf?_of_grown grown h

end ScopeTree

namespace ScopeBuilder

open ScopeTree

variable {builder : ScopeBuilder} {place : Place} {opening : Opening} {inner : List Opening}

/-- The walk has come to a place: the innermost open scope is the scope of the place. -/
structure At (builder : ScopeBuilder) (place : Place) : Prop where
  formed : builder.tree.Formed
  here : builder.tree.scopeAt? place = some builder.current

/-- A walk that starts from `builder` follows openings if it opens their scopes and leaves the
stack as it was. -/
def Follows (builder : ScopeBuilder) (openings : List Opening)
    (result : Except Issue ScopeBuilder) : Prop :=
  result = (builder.tree.openScopes openings).map fun tree => ⟨tree, builder.stack⟩

/-- The builder just inside a construct that has opened its scope. -/
def entered (builder : ScopeBuilder) (header : ScopeHeader) : ScopeBuilder :=
  ⟨builder.tree.push builder.current header, ⟨builder.tree.size⟩ :: builder.stack⟩

/-- Doing nothing follows no openings. -/
theorem follows_nil : builder.Follows [] (.ok builder) := rfl

/-- One walk after the other follows their openings one after the other. -/
theorem Follows.append {first : Except Issue ScopeBuilder}
    {xs ys : List Opening} (hx : builder.Follows xs first)
    (second : ScopeBuilder → Except Issue ScopeBuilder)
    (hy : ∀ tree, builder.tree.openScopes xs = .ok tree →
      Follows ⟨tree, builder.stack⟩ ys (second ⟨tree, builder.stack⟩)) :
    builder.Follows (xs ++ ys) (first >>= second) := by
  unfold Follows at hx ⊢
  rw [hx, openScopes_append]
  cases run : builder.tree.openScopes xs with
  | error issue => rfl
  | ok tree => exact hy tree run

/-- A construct is entered by opening its scope. -/
theorem enter_eq (named : opening.simpleName ≠ some "") :
    builder.enter opening.header opening.span =
      (builder.tree.openScope opening).map fun _ => builder.entered opening.header := by
  cases found : builder.tree.scopeOf? opening.header.owner with
  | some existing => simp [enter, addScope_eq, openScope, found, named, Except.map]
  | none => simp [enter, addScope_eq, openScope, found, named, Except.map, entered]

namespace At

/-- The walk is still at its place when scopes have been opened and left again. -/
theorem grown (h : builder.At place) {openings : List Opening} {tree : ScopeTree}
    (run : builder.tree.openScopes openings = .ok tree) :
    At ⟨tree, builder.stack⟩ place where
  formed := h.formed.openScopes run
  here := scopeAt?_of_grown (openScopes_grow run) h.here

/-- The walk has come to a scope of the tree. -/
theorem current_lt (h : builder.At place) : builder.current.index < builder.tree.size :=
  h.formed.lt_of_scopeAt? h.here

/-- Entering a construct takes the walk to its place. -/
theorem entered (h : builder.At place) {header : ScopeHeader}
    (fresh : builder.tree.scopeOf? header.owner = none) :
    (builder.entered header).At (.node header.owner) where
  formed := h.formed.push h.current_lt fresh
  here := (h.formed.push h.current_lt fresh).scopeOf?_owner
    (mem_of_scope? scope?_push)

/-- Entering a construct, walking what is inside it and leaving it follows its opening and those
inside it: the scope that is left is the one that was entered. -/
theorem bracket (h : builder.At place) (opening : Opening) (within : opening.within = place)
    (named : opening.simpleName ≠ some "") (walk : ScopeBuilder → Except Issue ScopeBuilder)
    (inside : builder.tree.scopeOf? opening.header.owner = none →
      (builder.entered opening.header).Follows inner (walk (builder.entered opening.header))) :
    builder.Follows (opening :: inner) (do
      let builder ← builder.enter opening.header opening.span
      let builder ← walk builder
      builder.exit opening.header.owner opening.span) := by
  unfold Follows
  rw [enter_eq named, openScopes_cons]
  cases first : builder.tree.openScope opening with
  | error issue => rfl
  | ok tree =>
    obtain ⟨_, fresh, rfl⟩ := openScope_eq_ok_iff.mp first
    have hin := inside fresh
    unfold Follows at hin
    rw [Except.map, ok_bind, hin, ok_bind, within, h.here, Option.getD_some]
    change _ = ((builder.entered opening.header).tree.openScopes inner).map _
    cases rest : (builder.entered opening.header).tree.openScopes inner with
    | error issue => rfl
    | ok tree =>
      have kept := scope?_of_grown (openScopes_grow rest) scope?_push
      have notGlobal : (⟨builder.tree.size⟩ : ScopeId) ≠ .global := by
        have := h.formed.size_pos
        simp only [ScopeId.global, ne_eq, ScopeId.mk.injEq]
        omega
      simp [exit, kept, notGlobal, nextScope, Except.map, ok_bind, ScopeBuilder.entered]

/-- The record around the current place is the first record scope of the chain. -/
theorem recordName?_eq (h : builder.At place) :
    builder.recordName? =
      ((builder.tree.chain builder.current).find? (·.kind == .record)).bind (·.recordName) := by
  unfold recordName? enclosingRecord?
  cases found : (builder.tree.chain builder.current).find? (·.kind == .record) with
  | none => rfl
  | some s =>
    have hs := mem_of_mem_chain (List.mem_of_find?_eq_some found)
    simp [h.formed.scope?_id hs]

/-- The current scope is a scope of the tree. -/
theorem scope?_current (h : builder.At place) :
    ∃ s, builder.tree.scope? builder.current = some s :=
  ⟨_, List.getElem?_eq_getElem h.current_lt⟩

/-- Scopes that have been opened and left again do not change the record around the walk. -/
theorem recordName?_grown (h : builder.At place) {openings : List Opening} {tree : ScopeTree}
    (run : builder.tree.openScopes openings = .ok tree) :
    recordName? ⟨tree, builder.stack⟩ = builder.recordName? := by
  obtain ⟨s, hs⟩ := h.scope?_current
  have chain := h.formed.chain_of_grown (openScopes_grow run) hs
  rw [(h.grown run).recordName?_eq, h.recordName?_eq]
  exact congrArg (fun scopes : List Scope => (scopes.find? (·.kind == .record)).bind _) chain

/-- The chain inside a construct starts with its scope. -/
theorem chain_entered (h : builder.At place) {header : ScopeHeader}
    (fresh : builder.tree.scopeOf? header.owner = none) :
    (builder.entered header).tree.chain (builder.entered header).current =
      builder.tree.nextScope builder.current header :: builder.tree.chain builder.current := by
  obtain ⟨s, hs⟩ := h.scope?_current
  have formed := h.formed.push h.current_lt fresh
  change (builder.tree.push builder.current header).chain ⟨builder.tree.size⟩ = _
  rw [formed.chain_of_parent scope?_push rfl, h.formed.chain_of_grown growsTo_push hs]

/-- Inside a record its own name is at hand. -/
theorem recordName?_entered_record (h : builder.At place) {header : ScopeHeader}
    (fresh : builder.tree.scopeOf? header.owner = none) (kind : header.kind = .record) :
    (builder.entered header).recordName? = header.recordName := by
  rw [(h.entered fresh).recordName?_eq, h.chain_entered fresh, List.find?_cons_of_pos]
  · rfl
  · simp [nextScope, kind]

/-- Any other construct leaves the record around the walk as it is. -/
theorem recordName?_entered (h : builder.At place) {header : ScopeHeader}
    (fresh : builder.tree.scopeOf? header.owner = none) (kind : header.kind ≠ .record) :
    (builder.entered header).recordName? = builder.recordName? := by
  rw [(h.entered fresh).recordName?_eq, h.chain_entered fresh, List.find?_cons_of_neg,
    h.recordName?_eq]
  simpa [nextScope] using kind

end At

/-- The walk has come to the position of a statement: it is at the place, inside the record. -/
structure Stands (builder : ScopeBuilder) (position : Position) : Prop where
  placed : builder.At position.place
  record : builder.recordName? = some position.record

namespace Stands

variable {position : Position}

/-- The walk still stands there when scopes have been opened and left again. -/
theorem grown (h : builder.Stands position) {openings : List Opening} {tree : ScopeTree}
    (run : builder.tree.openScopes openings = .ok tree) :
    Stands ⟨tree, builder.stack⟩ position where
  placed := h.placed.grown run
  record := (h.placed.recordName?_grown run).trans h.record

/-- A construct that is no record takes the walk one place further in. -/
theorem entered (h : builder.Stands position) {header : ScopeHeader}
    (kind : header.kind ≠ .record) (fresh : builder.tree.scopeOf? header.owner = none) :
    (builder.entered header).Stands (position.inside header.owner) where
  placed := h.placed.entered fresh
  record := (h.placed.recordName?_entered fresh kind).trans h.record

end Stands

end ScopeBuilder

/-- A walk inside a method, block, loop or catch clause, bracketed by its scope. -/
theorem ScopeBuilder.Stands.bracket {builder : ScopeBuilder} {position : Position}
    (h : builder.Stands position) (header : ScopeHeader) (kind : header.kind ≠ .record)
    (span : Span) {inner : List Opening} (walk : ScopeBuilder → Except Issue ScopeBuilder)
    (inside : ∀ builder : ScopeBuilder, builder.Stands (position.inside header.owner) →
      builder.Follows inner (walk builder)) :
    builder.Follows (⟨position.place, header, none, span⟩ :: inner) (do
      let builder ← builder.enter header span
      let builder ← walk builder
      builder.exit header.owner span) :=
  h.placed.bracket ⟨position.place, header, none, span⟩ rfl (by simp) walk
    fun fresh => inside _ (h.entered kind fresh)

open ScopeBuilder in
mutual

/-- The walk over a statement follows its openings. -/
theorem Stmt.openScopes_follows {builder : ScopeBuilder} {position : Position}
    (h : builder.Stands position) :
    (s : Stmt) →
      builder.Follows (openingsOf (s.outline .methodsFirst position)) (s.openScopes builder)
  | .localVar decl => by
    simp only [Stmt.outline, openingsOf_declares, openingsOf_usesOption]
    exact follows_nil
  | .expr value => follows_nil
  | .ret value _ => by
    simp only [Stmt.outline, openingsOf_usesOption]
    exact follows_nil
  | .block block => by
    rw [Stmt.outline, Stmt.openScopes]
    exact Block.openScopes_follows h block
  | .ifElse _ thenBranch none _ => by
    simp only [Stmt.outline, Stmt.openScopes, openingsOf_position_uses]
    exact Stmt.openScopes_follows h thenBranch
  | .ifElse _ thenBranch (some elseBranch) _ => by
    simp only [Stmt.outline, Stmt.openScopes, List.cons_append, openingsOf_position_uses,
      openingsOf_append]
    exact (Stmt.openScopes_follows h thenBranch).append _ fun _ run =>
      Stmt.openScopes_follows (h.grown run) elseBranch
  | .forLoop id init condition update body span => by
    have walk := h.bracket { kind := .loop, owner := id } (by simp) span
      (fun builder => Stmt.openScopesAll builder init >>= (body.openScopes ·))
      fun _ hin =>
        have header : ScopeBuilder.Stands _ { position.inside id with inHeader := true } :=
          ⟨hin.placed, hin.record⟩
        (Stmt.openScopesAll_follows header init).append _ fun _ run =>
          Stmt.openScopes_follows (hin.grown run) body
    simp only [Stmt.outline, Stmt.openScopes, List.cons_append, List.append_assoc,
      openingsOf_opens, openingsOf_append, openingsOf_usesOption, openingsOf_map_uses,
      List.nil_append]
    simpa only [bind_assoc] using walk
  | .forEach id item iterable body span => by
    simp only [Stmt.outline, Stmt.openScopes, openingsOf_opens, openingsOf_declares,
      openingsOf_position_uses]
    exact h.bracket _ (by simp) _ _ fun _ hin => Stmt.openScopes_follows hin body
  | .whileLoop id condition body span => by
    simp only [Stmt.outline, Stmt.openScopes, openingsOf_opens, openingsOf_position_uses]
    exact h.bracket _ (by simp) _ _ fun _ hin => Stmt.openScopes_follows hin body
  | .tryCatch body catches none _ => by
    simp only [Stmt.outline, Stmt.openScopes, openingsOf_append]
    exact (Block.openScopes_follows h body).append _ fun _ run =>
      CatchClause.openScopesAll_follows (h.grown run) catches
  | .tryCatch body catches (some finalizer) _ => by
    simp only [Stmt.outline, Stmt.openScopes, openingsOf_append]
    rw [← bind_assoc]
    refine Follows.append ?_ _ fun _ run => Block.openScopes_follows (h.grown run) finalizer
    exact (Block.openScopes_follows h body).append _ fun _ run =>
      CatchClause.openScopesAll_follows (h.grown run) catches
  | .record decl => by
    rw [Stmt.outline, Stmt.openScopes, h.record, Option.getD_some]
    exact Record.openScopes_follows h.placed _ _ _ decl

/-- The walk over a list of statements follows their openings. -/
theorem Stmt.openScopesAll_follows {builder : ScopeBuilder} {position : Position}
    (h : builder.Stands position) :
    (statements : List Stmt) →
      builder.Follows (openingsOf (Stmt.outlineAll .methodsFirst position statements))
        (Stmt.openScopesAll builder statements)
  | [] => follows_nil
  | s :: rest => by
    simp only [Stmt.outlineAll, Stmt.openScopesAll, openingsOf_append]
    exact (Stmt.openScopes_follows h s).append _ fun _ run =>
      Stmt.openScopesAll_follows (h.grown run) rest

/-- The walk over a block follows its openings. -/
theorem Block.openScopes_follows {builder : ScopeBuilder} {position : Position}
    (h : builder.Stands position) :
    (block : Block) →
      builder.Follows (openingsOf (block.outline .methodsFirst position))
        (block.openScopes builder)
  | ⟨id, statements, span⟩ => by
    simp only [Block.outline, Block.openScopes, openingsOf_opens]
    exact h.bracket _ (by simp) _ _ fun _ hin => Stmt.openScopesAll_follows hin statements

/-- The walk over catch clauses follows their openings. -/
theorem CatchClause.openScopesAll_follows {builder : ScopeBuilder} {position : Position}
    (h : builder.Stands position) :
    (catches : List CatchClause) →
      builder.Follows (openingsOf (CatchClause.outlineAll .methodsFirst position catches))
        (CatchClause.openScopesAll builder catches)
  | [] => follows_nil
  | ⟨id, parameter, _, body, span⟩ :: rest => by
    have walk := h.bracket { kind := .handler, owner := id } (by simp) span _
      fun _ hin => Block.openScopes_follows hin body
    simp only [CatchClause.outlineAll, CatchClause.openScopesAll, openingsOf_append,
      openingsOf_opens, openingsOf_declares]
    simpa only [bind_assoc] using walk.append _ fun _ run =>
      CatchClause.openScopesAll_follows (h.grown run) rest

/-- The walk over methods follows their openings. -/
theorem Method.openScopesAll_follows {builder : ScopeBuilder} {position : Position}
    (h : builder.Stands position) :
    (methods : List Method) →
      builder.Follows (openingsOf (Method.outlineAll .methodsFirst position methods))
        (Method.openScopesAll builder methods)
  | [] => follows_nil
  | ⟨id, _, isStatic, _, parameters, none, span⟩ :: rest => by
    have walk := h.bracket { kind := .method, owner := id, isStatic } (by simp) span
      .ok fun _ _ => follows_nil
    simp only [Method.outlineAll, Method.openScopesAll, openingsOf_append, openingsOf_opens,
      openingsOf_parameters]
    simpa only [bind_assoc, ok_bind] using walk.append _ fun _ run =>
      Method.openScopesAll_follows (h.grown run) rest
  | ⟨id, _, isStatic, _, parameters, some body, span⟩ :: rest => by
    have walk := h.bracket { kind := .method, owner := id, isStatic } (by simp) span _
      fun _ hin => Block.openScopes_follows hin body
    simp only [Method.outlineAll, Method.openScopesAll, openingsOf_append, openingsOf_opens,
      openingsOf_parameters, List.cons_append, List.nil_append]
    simpa only [bind_assoc, List.cons_append] using walk.append _ fun _ run =>
      Method.openScopesAll_follows (h.grown run) rest

/-- The walk over a record follows its openings. -/
theorem Record.openScopes_follows {builder : ScopeBuilder} {place : Place}
    (h : builder.At place) (name : String) (outer : Option String) (inHeader : Bool) :
    (decl : Record) →
      builder.Follows (openingsOf (decl.outline .methodsFirst place name outer inHeader))
        (decl.openScopes builder name)
  | ⟨id, simpleName, _, isStatic, fields, methods, records, span⟩ => by
    simp only [Record.outline, Record.openScopes, openingsOf_append, openingsOf_record,
      openingsOf_fields, List.cons_append, List.nil_append]
    by_cases nameless : simpleName = ""
    · simp [Follows, ScopeTree.openScopes_cons, ScopeTree.openScope, nameless, error_bind,
        Except.map]
    · rw [if_neg nameless]
      have walk := h.bracket ⟨place, ⟨.record, id, isStatic, some name⟩, some simpleName, span⟩
        rfl (by simpa using nameless)
        (fun builder => Method.openScopesAll builder methods >>=
          (Record.openScopesAll · (some name) records))
        fun fresh =>
          have hin := h.entered fresh
          have stands : ScopeBuilder.Stands _ ⟨.node id, name, inHeader⟩ :=
            ⟨hin, h.recordName?_entered_record fresh rfl⟩
          (Method.openScopesAll_follows stands methods).append _ fun _ run =>
            Record.openScopesAll_follows (hin.grown run) (some name) (some name) inHeader records
      simpa only [bind_assoc] using walk

/-- The walk over records follows their openings. -/
theorem Record.openScopesAll_follows {builder : ScopeBuilder} {place : Place}
    (h : builder.At place) (qualifier outer : Option String) (inHeader : Bool) :
    (records : List Record) →
      builder.Follows
        (openingsOf (Record.outlineAll .methodsFirst place qualifier outer inHeader records))
        (Record.openScopesAll builder qualifier records)
  | [] => follows_nil
  | r :: rest => by
    simp only [Record.outlineAll, Record.openScopesAll, openingsOf_append]
    exact (Record.openScopes_follows h _ _ _ r).append _ fun _ run =>
      Record.openScopesAll_follows (h.grown run) _ _ _ rest

end

namespace ScopeTree

/-- A unit's tree is built by opening the scopes of its outline, one after the other. -/
theorem build_eq (unit : TranslationUnit) :
    build unit = (ofUnit unit.id).openScopes unit.openings := by
  have start : (ScopeBuilder.ofUnit unit.id).At .unit := ⟨ofUnit_formed unit.id, rfl⟩
  have walk := Record.openScopesAll_follows start unit.package none false unit.records
  unfold build
  rw [walk, TranslationUnit.openings, TranslationUnit.outline]
  cases run : (ScopeBuilder.ofUnit unit.id).tree.openScopes
      (openingsOf (Record.outlineAll .methodsFirst .unit unit.package none false unit.records)) with
  | error issue => exact run.symm
  | ok tree => exact run.symm

end ScopeTree

end NameBinding
