import NameBinding.Proofs.IndexedUnit
import NameBinding.Proofs.RegisteredUnit

/-!
# The first declaration holds a name

A variable that a scope binds is the first one that is declared in the scope under its name,
unless a receiver has taken the name before. For the scope of a record this makes the field that
is bound under a name the first field of that name in the record.
-/

namespace NameBinding

variable {state next : Registration} {t : Scope} {name : String}

/-- Binding a variable offers it under its name, behind what is bound before. -/
theorem Scope.varBinding?_bind (s : Scope) (b : Binding) (name : String) :
    (s.bind b).varBinding? name =
      (s.varBinding? name).or (if b.kind ≠ .record ∧ b.name = name then some b else none) := by
  unfold Scope.bind
  by_cases record : b.kind = .record
  · simp [record, varBinding?]
  · by_cases same : b.name = name <;> simp [record, same, varBinding?, List.find?_append]

/-- After a name is bound, each scope is as before, but for the one that binds it now. -/
theorem ScopeTree.Formed.exists_of_declare {tree later : ScopeTree} {id : ScopeId}
    {binding : Binding} (formed : tree.Formed) (h : tree.declare id binding = .ok later)
    (ht : t ∈ later.scopes) :
    ∃ s ∈ tree.scopes, s.id = t.id ∧ t = if s.id = id then s.bind binding else s := by
  obtain ⟨_, rfl⟩ := declare_eq_ok_iff.mp h
  obtain ⟨i, hi⟩ := List.mem_iff_getElem?.mp ht
  rw [List.getElem?_modify] at hi
  obtain ⟨s, hs, rfl⟩ := Option.map_eq_some_iff.mp hi
  have here : s.id = id ↔ id.index = i := by
    rw [formed.id_eq hs]
    exact ⟨fun same => same ▸ rfl, fun same => same ▸ rfl⟩
  refine ⟨s, List.mem_of_getElem? hs, ?_, ?_⟩
  · split
    · exact (congrArg (·.2.1) (frame_bind s binding)).symm
    · rfl
  · simp only [here]

/-- A name that cannot be bound is held already. -/
theorem ScopeTree.declare_eq_error_iff {tree : ScopeTree} {id : ScopeId}
    {binding first : Binding} :
    tree.declare id binding = .error first ↔
      (tree.scope? id).bind (·.holder? binding.kind binding.name) = some first := by
  unfold declare
  cases (tree.scope? id).bind (·.holder? binding.kind binding.name) with
  | some existing => simp
  | none => simp

/-- A variable is declared under a name in a scope. -/
def Declaration.Names (d : Declaration) (scope : ScopeId) (name : String) : Prop :=
  d.kind ≠ .record ∧ d.scope = scope ∧ d.name = name

instance (d : Declaration) (scope : ScopeId) (name : String) : Decidable (d.Names scope name) :=
  inferInstanceAs (Decidable (_ ∧ _))

/-- A declaration, if it declares a variable under this name in this scope. -/
def Declaration.at? (d : Declaration) (scope : ScopeId) (name : String) : Option Declaration :=
  if d.Names scope name then some d else none

/-- A declaration is none in another scope. -/
theorem Declaration.at?_elsewhere {d : Declaration} {scope : ScopeId} (h : d.scope ≠ scope)
    (name : String) : d.at? scope name = none :=
  if_neg fun here => h here.2.1

/-- The variable that is declared first under a name in a scope. -/
def DeclTable.first? (table : DeclTable) (scope : ScopeId) (name : String) : Option Declaration :=
  table.entries.find? fun d => decide (d.Names scope name)

/-- The first variable under a name is declared, under this name and in this scope. -/
theorem DeclTable.of_first? {table : DeclTable} {d : Declaration} {scope : ScopeId} {name : String}
    (h : table.first? scope name = some d) : d ∈ table.entries ∧ d.Names scope name := by
  have names := List.find?_some h
  exact ⟨List.mem_of_find?_eq_some h, of_decide_eq_true names⟩

/-- A further declaration comes first only where there was none. -/
theorem DeclTable.first?_append (entries : List Declaration) (d : Declaration) (scope : ScopeId)
    (name : String) :
    first? ⟨entries ++ [d]⟩ scope name = (first? ⟨entries⟩ scope name).or (d.at? scope name) := by
  unfold first? Declaration.at?
  rw [List.find?_append, List.find?_singleton]
  simp only [decide_eq_true_eq]

/-- Binding a declaration in its scope offers it if it is a variable. -/
theorem Scope.varBinding?_bind_declared (s : Scope) (d : Declaration) (name : String) :
    (s.bind d.binding).varBinding? name =
      (s.varBinding? name).or ((d.at? d.scope name).map (·.binding)) := by
  have record : d.binding.kind ≠ .record ↔ d.kind ≠ .record :=
    not_congr Declaration.bindingKind_eq_record_iff
  rw [varBinding?_bind, Declaration.at?]
  simp only [Declaration.Names, record, true_and]
  by_cases here : d.kind ≠ .record ∧ d.name = name
  · have named : d.kind ≠ .record ∧ d.binding.name = name := here
    rw [if_pos here, if_pos named, Option.map_some]
  · have other : ¬(d.kind ≠ .record ∧ d.binding.name = name) := here
    rw [if_neg here, if_neg other, Option.map_none]

/-- What a scope binds under a name is a receiver, or the first variable declared under it. -/
def Scope.HeldByFirst (t : Scope) (table : DeclTable) (name : String) : Prop :=
  (∃ b, t.varBinding? name = some b ∧ b.kind.isReceiver = true) ∨
    t.varBinding? name = (table.first? t.id name).map (·.binding)

namespace Registration

/-- All names are held by the first declarations of them. -/
structure FirstHeld (state : Registration) : Prop where
  formed : state.tree.Formed
  held : ∀ t ∈ state.tree.scopes, ∀ name, t.HeldByFirst state.table name

namespace FirstHeld

/-- A declaration leaves names held by the first declarations of them. -/
theorem declare {decl : Declaration} (h : FirstHeld state)
    (taken : state.declare decl = .ok next) : FirstHeld next := by
  obtain ⟨_, _, ⟨tree, took, rfl⟩ | ⟨first, kept, rfl⟩⟩ := declare_eq_ok_iff.mp taken
  · refine ⟨(ScopeTree.declare_sameShape took).formed h.formed, fun t ht name => ?_⟩
    obtain ⟨s, hs, id, became⟩ := h.formed.exists_of_declare took ht
    have bound : t.varBinding? name =
        (s.varBinding? name).or ((decl.at? t.id name).map (·.binding)) := by
      by_cases here : s.id = decl.scope
      · have same : t = s.bind decl.binding := became.trans (if_pos here)
        calc t.varBinding? name
            = (s.bind decl.binding).varBinding? name := by rw [same]
          _ = (s.varBinding? name).or ((decl.at? decl.scope name).map (·.binding)) :=
            s.varBinding?_bind_declared decl name
          _ = (s.varBinding? name).or ((decl.at? t.id name).map (·.binding)) := by rw [← here, id]
      · have same : t = s := became.trans (if_neg here)
        have elsewhere : decl.scope ≠ t.id := fun there => here (id.trans there.symm)
        rw [decl.at?_elsewhere elsewhere, Option.map_none, Option.or_none, same]
    unfold Scope.HeldByFirst
    rw [DeclTable.first?_append, bound]
    rcases h.held s hs name with ⟨b, held, receiver⟩ | held
    · exact .inl ⟨b, by rw [held, Option.some_or], receiver⟩
    · right
      rw [held, id, Option.map_or]
  · refine ⟨h.formed, fun t ht name => ?_⟩
    unfold Scope.HeldByFirst
    rw [DeclTable.first?_append]
    rcases h.held t ht name with receiver | held
    · exact .inl receiver
    · right
      by_cases here : decl.Names t.id name
      · obtain ⟨noRecord, there, named⟩ := here
        have notRecord : decl.binding.kind ≠ .record := fun record =>
          noRecord (Declaration.bindingKind_eq_record_iff.mp record)
        have taken := ScopeTree.declare_eq_error_iff.mp kept
        rw [there, h.formed.scope?_id ht, Option.bind_some, Scope.holder?,
          if_neg notRecord] at taken
        have bound : t.varBinding? name = some first := named ▸ taken
        rw [bound] at held
        obtain ⟨d, found, _⟩ := Option.map_eq_some_iff.mp held.symm
        rw [bound, held, found, Option.some_or]
      · rw [Declaration.at?, if_neg here, Option.or_none]
        exact held

/-- Binding a receiver leaves names held by the first declarations of them. -/
theorem bindReceiver {scope : ScopeId} {binding : Binding} (h : FirstHeld state)
    (receiver : binding.kind.isReceiver = true) :
    FirstHeld (state.bindReceiver scope binding) := by
  unfold Registration.bindReceiver
  cases took : state.tree.declare scope binding with
  | error first => exact h
  | ok tree =>
    refine ⟨(ScopeTree.declare_sameShape took).formed h.formed, fun t ht name => ?_⟩
    obtain ⟨s, hs, id, became⟩ := h.formed.exists_of_declare took ht
    by_cases here : s.id = scope
    · have same : t = s.bind binding := became.trans (if_pos here)
      have bound := s.varBinding?_bind binding name
      rw [← same] at bound
      rcases h.held s hs name with ⟨b, held, isReceiver⟩ | held
      · exact .inl ⟨b, by rw [bound, held, Option.some_or], isReceiver⟩
      · by_cases named : binding.kind ≠ .record ∧ binding.name = name
        · rw [if_pos named] at bound
          cases before : s.varBinding? name with
          | none => exact .inl ⟨binding, by rw [bound, before, Option.none_or], receiver⟩
          | some b =>
            right
            rw [bound, before, Option.some_or, ← id, ← held, before]
        · right
          rw [if_neg named, Option.or_none] at bound
          rw [bound, ← id]
          exact held
    · have same : t = s := became.trans (if_neg here)
      rw [same]
      exact h.held s hs name

/-- Binding the receivers of a record leaves names held by the first declarations of them. -/
theorem bindReceivers {scope : ScopeId} {decl : Record} (h : FirstHeld state) :
    FirstHeld (state.bindReceivers scope decl) := by
  refine List.foldlRecOn _ _ h fun s held binding member => held.bindReceiver ?_
  rcases List.mem_cons.mp member with rfl | member
  · rfl
  · obtain ⟨owner, _, named⟩ := List.mem_filterMap.mp member
    obtain ⟨d, _, rfl⟩ := Option.map_eq_some_iff.mp named
    rfl

end FirstHeld

/-- Registering steps leaves names held by the first declarations of them. -/
theorem steps_firstHeld {outline : List Step} (h : FirstHeld state)
    (run : state.steps outline = .ok next) : FirstHeld next :=
  steps_preserves FirstHeld (fun held declared => held.declare declared)
    (fun _ _ held => held.bindReceivers) h run

end Registration

variable {unit : TranslationUnit} {tree : ScopeTree}

/-- In a registered unit all names are held by the first declarations of them. -/
theorem registered_firstHeld (built : ScopeTree.build unit = .ok tree)
    (registered : registerDeclarations unit tree = .ok state) : state.FirstHeld := by
  rw [registerDeclarations_eq] at registered
  refine Registration.steps_firstHeld ⟨ScopeTree.build_formed built, fun t ht name => ?_⟩ registered
  right
  rw [Scope.varBinding?, (ScopeTree.build_empty built t ht).1]
  rfl

/-! ### The fields of a record -/

/-- Steps of fields declare the fields in their order. -/
theorem Field.outline_sublist (place : Place) (fields : List Field) :
    (fields.map fun field => Step.declares place field.declared).Sublist
      (fields.flatMap (Field.outline place)) := by
  induction fields with
  | nil => exact List.Sublist.refl _
  | cons field rest ih =>
    rw [List.map_cons, List.flatMap_cons, Field.outline, List.cons_append]
    exact (ih.trans (List.sublist_append_right _ _)).cons_cons _

/-- Fields alone declare no records. -/
theorem Field.record_not_mem_outline {place within : Place} {site : RecordSite}
    {fields : List Field} : .record within site ∉ fields.flatMap (Field.outline place) := by
  intro listed
  obtain ⟨field, _, listed⟩ := List.mem_flatMap.mp listed
  rcases List.mem_cons.mp listed with other | listed
  · cases other
  · cases initializer : field.initializer <;> simp [initializer] at listed

/-- The fields of a record are declared in their order. -/
theorem Nests.fields_sublist {place : Place} {steps : List Step} (h : Nests place steps)
    {within : Place} {site : RecordSite} (listed : .record within site ∈ steps) :
    (site.decl.fields.map fun field =>
      Step.declares (.node site.decl.id) field.declared).Sublist steps := by
  induction h with
  | nil => cases listed
  | append _ _ ihx ihy =>
    rcases List.mem_append.mp listed with listed | listed
    · exact (ihx listed).trans (List.sublist_append_left _ _)
    · exact (ihy listed).trans (List.sublist_append_right _ _)
  | declares _ _ => simp at listed
  | uses => simp at listed
  | opens _ _ ih =>
    rcases List.mem_cons.mp listed with other | listed
    · cases other
    · exact (ih listed).trans (List.sublist_cons_self _ _)
  | loopOver _ _ _ ihv ihb =>
    rcases List.mem_append.mp listed with listed | listed
    · rcases List.mem_cons.mp listed with other | listed
      · cases other
      · exact ((ihv listed).trans (List.sublist_cons_self _ _)).trans (List.sublist_append_left _ _)
    · rcases List.mem_cons.mp listed with other | listed
      · cases other
      · exact ((ihb listed).trans (List.sublist_cons_self _ _)).trans
          (List.sublist_append_right _ _)
  | @record place other inner _ ih =>
    rcases List.mem_append.mp listed with listed | listed
    · rcases List.mem_cons.mp listed with same | listed
      · cases same
        have own := (Field.outline_sublist (.node site.decl.id) site.decl.fields).trans
          (List.sublist_cons_self (.record within site) _)
        exact own.trans (List.sublist_append_left _ _)
      · exact absurd listed Field.record_not_mem_outline
    · exact (ih listed).trans (List.sublist_append_right _ _)

/-- The table lists the fields of a record in their order, as variables of its scope. -/
theorem registered_fields_sublist (built : ScopeTree.build unit = .ok tree)
    (registered : registerDeclarations unit tree = .ok state) {site : RecordSite}
    (h : site ∈ unit.recordSites) {s : Scope} (hs : s ∈ tree.scopes)
    (owner : s.owner = site.decl.id) :
    (site.decl.fields.map fun field => field.declared.declaration s.id).Sublist
      state.table.entries := by
  obtain ⟨within, listed⟩ := TranslationUnit.mem_recordSites.mp h
  have there : tree.scopeAt? (.node site.decl.id) = some s.id :=
    owner ▸ (ScopeTree.build_formed built).scopeOf?_owner hs
  have declared := (unit.outline_nests.fields_sublist listed).filterMap (Step.declaration? tree)
  rw [← registered_entries registered, List.filterMap_map] at declared
  have each : (Step.declaration? tree ∘ fun field : Field =>
      Step.declares (.node site.decl.id) field.declared) =
      fun field => some (field.declared.declaration s.id) := by
    funext field
    simp only [Function.comp_apply, Step.declaration?, ScopeTree.placeOf_eq there]
  rw [each, List.filterMap_eq_map'] at declared
  exact declared

/-- The field that the scope of a record binds under a name is the first field of this name in the
record. -/
theorem registered_field_first (built : ScopeTree.build unit = .ok tree)
    (registered : registerDeclarations unit tree = .ok state) (ht : t ∈ state.tree.scopes)
    {site : RecordSite} (h : site ∈ unit.recordSites) (owner : t.owner = site.decl.id)
    {b : Binding} (bound : t.varBinding? name = some b) (isField : b.kind.isField = true) :
    ∃ field, site.decl.fields.find? (·.name == name) = some field ∧
      b.resolution = field.info.resolution := by
  have formed := ScopeTree.build_formed built
  have distinct := registered_nodup built registered
  have first : ∃ d, state.table.first? t.id name = some d ∧ d.binding = b := by
    rcases (registered_firstHeld built registered).held t ht name with
      ⟨other, held, receiver⟩ | held
    · rw [bound] at held
      cases held
      cases kind : b.kind <;>
        simp [kind, BindingKind.isField, BindingKind.isReceiver] at isField receiver
    · exact Option.map_eq_some_iff.mp (held.symm.trans bound)
  obtain ⟨d, first, rfl⟩ := first
  obtain ⟨hd, names⟩ := DeclTable.of_first? first
  obtain ⟨u, hu, alike⟩ := (registered_traced built registered).shape.symm.exists_mem ht
  have header : u.toScopeHeader = t.toScopeHeader := congrArg (·.1) alike
  have sameId : u.id = t.id := congrArg (·.2.1) alike
  have sameOwner : u.owner = site.decl.id := by rw [header, owner]
  obtain ⟨within, other, listed, ⟨own, hown, declared⟩, s, hs, _, otherOwner, here⟩ :=
    registered_field_scope built registered hd (Declaration.kind_of_isField isField)
  have sameScope : s = u := formed.eq_of_id hs hu (by rw [← here, names.2.1, sameId])
  have sameSite : other = site :=
    TranslationUnit.site_eq_of_id distinct (TranslationUnit.mem_recordSites.mpr ⟨within, listed⟩) h
      (by rw [← otherOwner, sameScope, sameOwner])
  subst sameSite
  have part := registered_fields_sublist built registered h hu sameOwner
  have entriesDistinct : state.table.entries.Nodup :=
    (registered_entries_nodup built registered).of_map
  have member : d ∈ other.decl.fields.map fun field => field.declared.declaration u.id := by
    rw [sameId, ← names.2.1, declared]
    exact List.mem_map_of_mem hown
  have found := find?_of_sublist part entriesDistinct first member
  rw [List.find?_map] at found
  obtain ⟨field, foundField, rfl⟩ := Option.map_eq_some_iff.mp found
  refine ⟨field, ?_, rfl⟩
  rw [← foundField]
  congr 1
  funext f
  simp [Declaration.Names, Variable.declaration, Field.declared, sameId, beq_eq_decide]

end NameBinding
