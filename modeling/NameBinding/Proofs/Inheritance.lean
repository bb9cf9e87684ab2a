import NameBinding.Proofs.AlikeIndexes

/-!
# Fields along superclasses

A field is searched on a record and then along its superclass chain. Records that are known, have
their fields available and lack the field are passed; the first other one decides: it has the field,
or the search ends there because the record is unknown or keeps its fields to itself.

So a search that passes a record goes on as if it had started at the superclass. That holds for
cyclic superclasses, too, although the two chains are cut at different names: the chain from the
superclass may come back to the record, but there it ends, and the record is passed once more.
-/

namespace NameBinding

/-- The field is the first one of that name that the record declares. -/
def RecordInfo.Declares (record : RecordInfo) (name : String) (field : FieldInfo) : Prop :=
  ∃ before after, record.fields = some (before ++ field :: after) ∧ field.name = name ∧
    ∀ other ∈ before, other.name ≠ name

namespace RecordIndex

/-! ### One record after the other -/

/-- A search passes a record that is known and has its fields available, none of them under the
name. -/
def Passed (name : String) (entry : Option RecordInfo) : Prop :=
  ∃ record fields, entry = some record ∧ record.fields = some fields ∧
    ∀ field ∈ fields, field.name ≠ name

/-- A search cannot go on at a record that is not known or keeps its fields to itself. -/
def Closed (entry : Option RecordInfo) : Prop :=
  entry = none ∨ ∃ record, entry = some record ∧ record.fields = none

/-- How a search for a field along some records ends. -/
inductive SearchEnds (name : String) : List (Option RecordInfo) → FieldLookup → Prop
  /-- The first record that is not passed has the field. -/
  | found {before after : List (Option RecordInfo)} {owner : RecordInfo} {field : FieldInfo} :
    (∀ entry ∈ before, Passed name entry) → owner.Declares name field →
    SearchEnds name (before ++ some owner :: after) (.found owner field)
  /-- The first record that is not passed is closed. -/
  | external {before after : List (Option RecordInfo)} {entry : Option RecordInfo} :
    (∀ entry ∈ before, Passed name entry) → Closed entry →
    SearchEnds name (before ++ entry :: after) .external
  /-- All records are passed. -/
  | notFound {way : List (Option RecordInfo)} :
    (∀ entry ∈ way, Passed name entry) → SearchEnds name way .notFound

section searchField

variable {name : String} {entry : Option RecordInfo} {record : RecordInfo} {field : FieldInfo}
  {before rest way : List (Option RecordInfo)} {outcome : FieldLookup}

/-- A search goes on behind a record without the field. -/
theorem searchField_cons_of_passed (passed : Passed name entry) :
    searchField name (entry :: rest) = searchField name rest := by
  obtain ⟨record, fields, rfl, available, others⟩ := passed
  have lacks : record.field? name = none := by
    rw [RecordInfo.field?, available, Option.bind_some, List.find?_eq_none]
    simpa using others
  rw [searchField, available, lacks]

/-- A search ends at a record that is closed. -/
theorem searchField_cons_of_closed (closed : Closed entry) :
    searchField name (entry :: rest) = .external := by
  obtain rfl | ⟨record, rfl, hidden⟩ := closed
  · rw [searchField]
  · rw [searchField, hidden]

/-- A search ends at a record that has the field. -/
theorem searchField_cons_of_declares (declares : record.Declares name field) :
    searchField name (some record :: rest) = .found record field := by
  obtain ⟨earlier, later, available, same, others⟩ := declares
  have first : record.field? name = some field := by
    rw [RecordInfo.field?, available, Option.bind_some, List.find?_eq_some_iff_append]
    exact ⟨beq_iff_eq.mpr same, earlier, later, rfl, by simpa using others⟩
  rw [searchField, available, first]

/-- A record is passed, or it is closed, or it has the field. -/
theorem passed_or_closed_or_declares (name : String) (entry : Option RecordInfo) :
    Passed name entry ∨ Closed entry ∨
      ∃ record field, entry = some record ∧ record.Declares name field := by
  cases entry with
  | none => exact .inr (.inl (.inl rfl))
  | some record =>
    cases available : record.fields with
    | none => exact .inr (.inl (.inr ⟨record, rfl, available⟩))
    | some fields =>
      cases found : fields.find? (·.name == name) with
      | none =>
        refine .inl ⟨record, fields, rfl, available, fun field member same => ?_⟩
        exact List.find?_eq_none.mp found field member (beq_iff_eq.mpr same)
      | some field =>
        obtain ⟨same, earlier, later, rfl, others⟩ := List.find?_eq_some_iff_append.mp found
        refine .inr (.inr ⟨record, field, rfl, earlier, later, available, beq_iff_eq.mp same, ?_⟩)
        simpa using others

/-- Records that are passed do not count. -/
theorem searchField_append_of_passed (passed : ∀ entry ∈ before, Passed name entry) :
    searchField name (before ++ rest) = searchField name rest := by
  induction before with
  | nil => rfl
  | cons entry others ih =>
    rw [List.cons_append, searchField_cons_of_passed (passed entry List.mem_cons_self)]
    exact ih fun other member => passed other (List.mem_cons_of_mem _ member)

/-- A search that passes a record ends as it does behind it. -/
theorem SearchEnds.cons_of_passed (passed : Passed name entry)
    (ends : SearchEnds name rest outcome) : SearchEnds name (entry :: rest) outcome := by
  cases ends with
  | found earlier declares =>
    rw [← List.cons_append]
    exact .found (List.forall_mem_cons.mpr ⟨passed, earlier⟩) declares
  | external earlier closed =>
    rw [← List.cons_append]
    exact .external (List.forall_mem_cons.mpr ⟨passed, earlier⟩) closed
  | notFound all => exact .notFound (List.forall_mem_cons.mpr ⟨passed, all⟩)

/-- Every search ends in one of these ways. -/
theorem searchField_ends (name : String) (way : List (Option RecordInfo)) :
    SearchEnds name way (searchField name way) := by
  induction way with
  | nil => exact .notFound nofun
  | cons entry rest ih =>
    obtain passed | closed | ⟨record, field, rfl, declares⟩ :=
      passed_or_closed_or_declares name entry
    · rw [searchField_cons_of_passed passed]
      exact ih.cons_of_passed passed
    · rw [searchField_cons_of_closed closed]
      rw [← List.nil_append (entry :: rest)]
      exact .external nofun closed
    · rw [searchField_cons_of_declares declares]
      rw [← List.nil_append (some record :: rest)]
      exact .found nofun declares

/-- The outcome of a search is the way in which it ends. -/
theorem searchField_eq_iff : searchField name way = outcome ↔ SearchEnds name way outcome := by
  constructor
  · rintro rfl
    exact searchField_ends name way
  · intro ends
    cases ends with
    | found earlier declares =>
      rw [searchField_append_of_passed earlier, searchField_cons_of_declares declares]
    | external earlier closed =>
      rw [searchField_append_of_passed earlier, searchField_cons_of_closed closed]
    | notFound all =>
      rw [← List.append_nil way, searchField_append_of_passed all, searchField]

/-- It makes no difference to a search whether one more record comes last that is passed. -/
theorem searchField_append_passed (passed : Passed name entry) (way : List (Option RecordInfo)) :
    searchField name (way ++ [entry]) = searchField name way := by
  rw [searchField_eq_iff]
  have ends := searchField_ends name way
  generalize searchField name way = outcome at ends
  cases ends with
  | found earlier declares =>
    rw [List.append_assoc, List.cons_append]
    exact .found earlier declares
  | external earlier closed =>
    rw [List.append_assoc, List.cons_append]
    exact .external earlier closed
  | notFound all =>
    exact .notFound (List.forall_mem_append.mpr ⟨all, List.forall_mem_singleton.mpr passed⟩)

end searchField

/-! ### Chains that are cut at different names -/

section trail

variable {index : RecordIndex} {link : RecordInfo → Option String} {visited seen : List String}
  {next : Option String} {name last : String} {record : RecordInfo}

/-- Where a trail is cut depends on which names were met, in whatever order. -/
theorem trail_congr_visited (same : ∀ name, name ∈ visited ↔ name ∈ seen) :
    index.trail link visited next = index.trail link seen next := by
  fun_induction index.trail link visited next generalizing seen with
  | case1 visited => rw [trail_none]
  | case2 visited name met =>
    rw [trail_seen (List.contains_iff_mem.mpr ((same name).mp (List.contains_iff_mem.mp met)))]
  | case3 visited name new absent =>
    have fresh : ¬seen.contains name = true := by
      simpa [← same name] using new
    rw [trail_unknown fresh absent]
  | case4 visited name new record found ih =>
    have fresh : name ∉ seen := by
      simpa [← same name] using new
    rw [trail_known fresh found]
    congr 1
    exact ih fun other => by simp only [List.mem_cons, same other]

/-- If a record links to a name that was met, a trail that may come by the record is at most longer
by its name, at the end, than one that may not. -/
theorem trail_cons_visited (known : index.get? last = some record)
    (links : ∃ name ∈ visited, link record = some name) :
    index.trail link visited next = index.trail link (last :: visited) next ∨
      index.trail link visited next = index.trail link (last :: visited) next ++ [last] := by
  fun_induction index.trail link visited next with
  | case1 visited => exact .inl trail_none.symm
  | case2 visited name met =>
    have again : (last :: visited).contains name = true := by
      simp [List.contains_iff_mem.mp met]
    exact .inl (trail_seen again).symm
  | case3 visited name new absent =>
    have apart : name ≠ last := by
      rintro rfl
      rw [known] at absent
      cases absent
    have fresh : ¬(last :: visited).contains name = true := by
      simpa [apart] using new
    exact .inl (trail_unknown fresh absent).symm
  | case4 visited name new other found ih =>
    obtain ⟨linked, met, link_eq⟩ := links
    by_cases same : name = last
    · subst same
      rw [known] at found
      cases found
      have back : index.trail link (name :: visited) (link record) = [] := by
        rw [link_eq]
        exact trail_seen (by simp [met])
      rw [back, trail_seen (by simp)]
      exact .inr rfl
    · have fresh : name ∉ last :: visited := by
        simpa [same] using new
      have swapped : index.trail link (name :: last :: visited) (link other) =
          index.trail link (last :: name :: visited) (link other) :=
        trail_congr_visited fun _ => List.Perm.mem_iff (.swap last name visited)
      rw [trail_known fresh found, swapped]
      rcases ih ⟨linked, List.mem_cons_of_mem _ met, link_eq⟩ with shorter | longer
      · exact .inl (congrArg (name :: ·) shorter)
      · exact .inr (congrArg (name :: ·) longer)

end trail

/-! ### Along the superclass chain -/

variable {index : RecordIndex} {record : RecordInfo} {name superclass : String}

/-- A record, followed by what is known under the names of its superclass chain. -/
def lineage (index : RecordIndex) (record : RecordInfo) : List (Option RecordInfo) :=
  some record :: (index.ancestors record).map index.get?

/-- A field is searched along the lineage of a record. -/
theorem findFieldIn_eq_iff {outcome : FieldLookup} :
    index.findFieldIn record name = outcome ↔
      SearchEnds name (index.lineage record) outcome :=
  searchField_eq_iff

/-- The chain of a record starts with its superclass and goes on as the chain of the superclass
does, but it does not come back to the record. -/
theorem ancestors_of_superclass (inherits : record.superclass = some superclass)
    (new : superclass ≠ record.name) {parent : RecordInfo}
    (known : index.get? superclass = some parent) :
    index.ancestors record =
      superclass :: index.trail (·.superclass) [record.name, superclass] parent.superclass := by
  have fresh : superclass ∉ [record.name] := by simpa using new
  rw [ancestors, inherits, trail_known fresh known]
  exact congrArg (superclass :: ·)
    (trail_congr_visited fun _ => List.Perm.mem_iff (.swap record.name superclass []))

/-- A record that owns its name and is passed leaves the search to its superclass. -/
theorem findField_of_superclass (owns : index.get? record.name = some record)
    (passed : Passed name (some record)) (inherits : record.superclass = some superclass)
    (known : (index.get? superclass).isSome) :
    index.findField record.name name = index.findField superclass name := by
  by_cases own : superclass = record.name
  · rw [own]
  · obtain ⟨parent, found⟩ := Option.isSome_iff_exists.mp known
    have named : parent.name = superclass := name_of_get? found
    have there : index.ancestors parent =
        index.trail (·.superclass) [superclass] parent.superclass := by
      rw [ancestors, named]
    have further :
        index.trail (·.superclass) [superclass] parent.superclass =
            index.trail (·.superclass) [record.name, superclass] parent.superclass ∨
          index.trail (·.superclass) [superclass] parent.superclass =
            index.trail (·.superclass) [record.name, superclass] parent.superclass ++
              [record.name] :=
      trail_cons_visited owns ⟨superclass, List.mem_singleton_self _, inherits⟩
    have here : index.findField record.name name = searchField name
        (some parent ::
          (index.trail (·.superclass) [record.name, superclass] parent.superclass).map
            index.get?) := by
      rw [findField, owns]
      show searchField name (some record :: _) = _
      rw [searchField_cons_of_passed passed, ancestors_of_superclass inherits own found,
        List.map_cons, found]
    rw [here, findField, found]
    show _ = searchField name (some parent :: _)
    rw [there]
    rcases further with same | longer
    · rw [same]
    · rw [longer, List.map_append, List.map_singleton, owns, ← List.cons_append,
        searchField_append_passed passed]

end RecordIndex

/-- A field is found on the first record of the lineage that is not passed, if this one declares it;
the search ends outside if this one is closed, and finds nothing if there is none. A record that
owns its name and is passed leaves the search to its superclass, if that is known. -/
theorem field_search_follows_inheritance (index : RecordIndex) (record : RecordInfo)
    (name : String) :
    (∀ outcome, index.findFieldIn record name = outcome ↔
      RecordIndex.SearchEnds name (index.lineage record) outcome) ∧
    ∀ superclass, index.get? record.name = some record →
      RecordIndex.Passed name (some record) → record.superclass = some superclass →
      (index.get? superclass).isSome →
      index.findField record.name name = index.findField superclass name :=
  ⟨fun _ => RecordIndex.findFieldIn_eq_iff,
    fun _ owns passed inherits known =>
      RecordIndex.findField_of_superclass owns passed inherits known⟩

/-- A unit of three records that inherit from each other in a circle; the last one has a field. -/
def circularUnit : TranslationUnit :=
  let f : Field := ⟨⟨4⟩, "f", ⟨"int", {}⟩, false, none, {}⟩
  let record (id : UInt32) (name superclass : String) (fields : List Field) : Record :=
    ⟨⟨id⟩, name, some ⟨superclass, {}⟩, false, fields, [], [], {}⟩
  { id := ⟨0⟩, name := "Circle", package := some "p"
    records := [record 1 "A" "B" [], record 2 "B" "C" [], record 3 "C" "A" [f]] }

/-- A record of that unit, as the index has it. -/
def circularRecord (id : UInt32) (simpleName superclass : String) (fields : List FieldInfo) :
    RecordInfo :=
  ⟨⟨id⟩, "p." ++ simpleName, simpleName, none, some superclass, some fields, .unit "Circle", {}⟩

theorem field_search_follows_inheritance_sample :
    let index := RecordIndex.build [circularUnit]
    let first := circularRecord 1 "A" "p.B" []
    let f : FieldInfo := ⟨⟨4⟩, "f", "int", false⟩
    index.get? first.name = some first ∧ RecordIndex.Passed "g" (some first) ∧
      first.superclass = some "p.B" ∧ (index.get? "p.B").isSome ∧
      index.findField first.name "g" = index.findField "p.B" "g" ∧
      RecordIndex.SearchEnds "g" (index.lineage first) .notFound ∧
      RecordIndex.SearchEnds "f" (index.lineage first)
        (.found (circularRecord 3 "C" "p.A" [f]) f) := by
  intro index first f
  have owns : index.get? first.name = some first := by decide +kernel
  have passed : RecordIndex.Passed "g" (some first) := ⟨first, [], rfl, rfl, nofun⟩
  have known : (index.get? "p.B").isSome := by decide +kernel
  have law := field_search_follows_inheritance index first
  have missed : index.findFieldIn first "g" = .notFound := by decide +kernel
  have found : index.findFieldIn first "f" =
      .found (circularRecord 3 "C" "p.A" [f]) f := by decide +kernel
  exact ⟨owns, passed, rfl, known, (law "g").2 "p.B" owns passed rfl known,
    ((law "g").1 _).mp missed, ((law "f").1 _).mp found⟩

end NameBinding
