import NameBinding.Proofs.Inheritance

/-!
# Superclass chains

The chain of a record is walked round by round: the next name joins the chain, and the walk turns
to the superclass of the record that owns the name. A name that was met ends the walk, so it ends
for cyclic superclasses, too. What one round keeps (no name twice, each name the superclass of the
one before) holds of the whole chain, and with the reason why the walk has ended it determines the
chain.
-/

namespace NameBinding

namespace RecordIndex

variable {index : RecordIndex} {record : RecordInfo} {chain : List String} {name : String}

/-- The superclass at the end of a chain: that of the record itself where the chain is empty, else
that of the record that owns the last name. -/
def superclassAfter (index : RecordIndex) (record : RecordInfo) (chain : List String) :
    Option String :=
  match chain.getLast? with
  | none => record.superclass
  | some last => (index.get? last).bind (·.superclass)

theorem superclassAfter_nil : index.superclassAfter record [] = record.superclass := rfl

/-- Behind a name the chain goes on to the superclass of the record that owns it. -/
theorem superclassAfter_concat :
    index.superclassAfter record (chain ++ [name]) = (index.get? name).bind (·.superclass) := by
  rw [superclassAfter, List.getLast?_concat]

/-- The names are the superclass chain of a record. -/
structure IsChainOf (index : RecordIndex) (record : RecordInfo) (chain : List String) : Prop where
  /-- No name is met twice. -/
  distinct : chain.Nodup
  /-- The name of the record itself is not met. -/
  apart : record.name ∉ chain
  /-- The first name is that of the superclass of the record. -/
  first : ∀ name rest, chain = name :: rest → record.superclass = some name
  /-- Each further name is that of the superclass of the record that owns the name before. -/
  further : ∀ before name next after, chain = before ++ name :: next :: after →
    ∃ parent, index.get? name = some parent ∧ parent.superclass = some next
  /-- Only the last name may be unknown. -/
  known : ∀ name ∈ chain.dropLast, (index.get? name).isSome
  /-- An empty chain means that the record has no superclass, or itself for one. -/
  none_met : chain = [] → record.superclass = none ∨ record.superclass = some record.name
  /-- The chain ends at a name that is not known, or at a record that has no superclass, or at one
  whose superclass was met. -/
  ends : ∀ before last, chain = before ++ [last] → index.get? last = none ∨
    ∃ parent, index.get? last = some parent ∧ (parent.superclass = none ∨
      ∃ next, parent.superclass = some next ∧ (next = record.name ∨ next ∈ chain))

/-! ### The walk -/

/-- Where a walk along superclasses stands. -/
structure ChainWalk where
  /-- The names that end the walk when it comes to them. -/
  visited : List String
  /-- The chain so far. -/
  chain : List String
  /-- The name that the walk comes to next. -/
  next : Option String

namespace ChainWalk

/-- The walk sets out from a record to its superclass. -/
def start (record : RecordInfo) : ChainWalk := ⟨[record.name], [], record.superclass⟩

/-- One round of a walk that goes on; `none` at its end. -/
def round? (index : RecordIndex) (walk : ChainWalk) : Option ChainWalk :=
  match walk.next with
  | none => none
  | some name =>
    if name ∈ walk.visited then none
    else some ⟨name :: walk.visited, walk.chain ++ [name], (index.get? name).bind (·.superclass)⟩

/-- A walk after some rounds, if it goes on for as many. -/
def after? (index : RecordIndex) : Nat → ChainWalk → Option ChainWalk
  | 0, walk => some walk
  | rounds + 1, walk => (walk.round? index).bind (after? index rounds)

variable {walk later : ChainWalk} {rounds : Nat}

/-- A walk goes on exactly if it comes to a name that was not met. -/
theorem round?_eq_some_iff : walk.round? index = some later ↔
    ∃ name, walk.next = some name ∧ name ∉ walk.visited ∧
      later = ⟨name :: walk.visited, walk.chain ++ [name],
        (index.get? name).bind (·.superclass)⟩ := by
  unfold round?
  cases next : walk.next with
  | none => simp
  | some name =>
    by_cases met : name ∈ walk.visited
    · simp [met]
    · simp [met, eq_comm]

/-- A walk has ended when there is no next name or when it was met. -/
theorem round?_eq_none_iff : walk.round? index = none ↔
    ∀ name, walk.next = some name → name ∈ walk.visited := by
  unfold round?
  cases walk.next <;> simp

/-- What holds of the walk from a record at every moment. -/
structure OnTrack (index : RecordIndex) (record : RecordInfo) (walk : ChainWalk) : Prop where
  visited : ∀ name, name ∈ walk.visited ↔ name ∈ record.name :: walk.chain
  distinct : (record.name :: walk.chain).Nodup
  linked : ∀ before name after, walk.chain = before ++ name :: after →
    index.superclassAfter record before = some name
  next : walk.next = index.superclassAfter record walk.chain

/-- A walk is on track when it sets out. -/
theorem start_onTrack : (start record).OnTrack index record where
  visited _ := Iff.rfl
  distinct := List.nodup_singleton _
  linked before name after split := by simp [start] at split
  next := rfl

/-- A round keeps the walk on track. -/
theorem OnTrack.round (onTrack : walk.OnTrack index record)
    (goes : walk.round? index = some later) : later.OnTrack index record := by
  obtain ⟨name, next, new, rfl⟩ := round?_eq_some_iff.mp goes
  have reached : index.superclassAfter record walk.chain = some name := onTrack.next ▸ next
  have fresh : name ∉ record.name :: walk.chain := fun met => new ((onTrack.visited name).mpr met)
  refine ⟨fun other => ?_, ?_, fun before other after split => ?_, superclassAfter_concat.symm⟩
  · simp only [List.mem_cons, onTrack.visited, List.mem_append, List.not_mem_nil, or_false]
    tauto
  · have onward := List.perm_append_singleton name (record.name :: walk.chain)
    exact onward.nodup_iff.mpr (List.nodup_cons.mpr ⟨fresh, onTrack.distinct⟩)
  · rcases split_of_append_singleton split with ⟨rfl, rfl⟩ | ⟨rest, earlier⟩
    · exact reached
    · exact onTrack.linked before other rest earlier

/-- A walk stays on track however long it goes on. -/
theorem OnTrack.after (onTrack : walk.OnTrack index record)
    (goes : after? index rounds walk = some later) : later.OnTrack index record := by
  induction rounds generalizing walk with
  | zero =>
    cases goes
    exact onTrack
  | succ rounds ih =>
    obtain ⟨middle, first, rest⟩ := Option.bind_eq_some_iff.mp goes
    exact ih (onTrack.round first) rest

/-- A walk from a record that has ended has found the chain of the record. -/
theorem OnTrack.isChainOf (onTrack : walk.OnTrack index record)
    (ended : walk.round? index = none) : index.IsChainOf record walk.chain := by
  have distinct := List.nodup_cons.mp onTrack.distinct
  have finished : ∀ name, index.superclassAfter record walk.chain = some name →
      name = record.name ∨ name ∈ walk.chain := by
    intro name reached
    rw [← onTrack.next] at reached
    exact List.mem_cons.mp ((onTrack.visited name).mp (round?_eq_none_iff.mp ended name reached))
  have further : ∀ before name next after, walk.chain = before ++ name :: next :: after →
      ∃ parent, index.get? name = some parent ∧ parent.superclass = some next := by
    intro before name next after split
    have reached := onTrack.linked (before ++ [name]) next after (by simp [split])
    rw [superclassAfter_concat] at reached
    exact Option.bind_eq_some_iff.mp reached
  refine ⟨distinct.2, distinct.1, ?_, further, ?_, ?_, ?_⟩
  · intro name rest split
    exact onTrack.linked [] name rest split
  · intro name listed
    obtain ⟨before, after, split⟩ := List.append_of_mem listed
    have nonempty : walk.chain ≠ [] := by
      intro empty
      rw [empty] at listed
      cases listed
    have whole := List.dropLast_append_getLast nonempty
    obtain ⟨next, rest, tail⟩ := List.exists_cons_of_ne_nil
      (List.concat_ne_nil (walk.chain.getLast nonempty) after)
    rw [split, List.append_assoc, List.cons_append, tail] at whole
    obtain ⟨parent, found, _⟩ := further before name next rest whole.symm
    rw [found, Option.isSome_some]
  · intro empty
    rw [empty, superclassAfter_nil] at finished
    cases inherits : record.superclass with
    | none => exact .inl rfl
    | some name => simpa using finished name inherits
  · intro before last split
    cases found : index.get? last with
    | none => exact .inl rfl
    | some parent =>
      refine .inr ⟨parent, rfl, ?_⟩
      cases inherits : parent.superclass with
      | none => exact .inl rfl
      | some next =>
        refine .inr ⟨next, rfl, finished next ?_⟩
        rw [split, superclassAfter_concat, found, Option.bind_some, inherits]

end ChainWalk

/-! ### The chain of a record -/

/-- A walk takes one round for each name of the trail and has come to its end then. -/
theorem after?_trail (visited : List String) (next : Option String) (chain : List String) :
    let trail := index.trail (·.superclass) visited next
    ∃ last, ChainWalk.after? index trail.length ⟨visited, chain, next⟩ = some last ∧
      last.round? index = none ∧ last.chain = chain ++ trail := by
  fun_induction index.trail (·.superclass) visited next generalizing chain with
  | case1 visited => exact ⟨_, rfl, rfl, (List.append_nil chain).symm⟩
  | case2 visited name met =>
    have ended : name ∈ visited := List.contains_iff_mem.mp met
    exact ⟨_, rfl, if_pos ended, (List.append_nil chain).symm⟩
  | case3 visited name new absent =>
    have fresh : name ∉ visited := by simpa using new
    refine ⟨⟨name :: visited, chain ++ [name], none⟩, ?_, rfl, rfl⟩
    simp [ChainWalk.after?, ChainWalk.round?, fresh, absent]
  | case4 visited name new record found ih =>
    have fresh : name ∉ visited := by simpa using new
    obtain ⟨last, goes, ended, whole⟩ := ih (chain ++ [name])
    refine ⟨last, ?_, ended, by rw [whole, List.append_assoc, List.singleton_append]⟩
    rw [List.length_cons, ChainWalk.after?, ChainWalk.round?]
    simpa only [if_neg fresh, found, Option.bind_some] using goes

/-- At most one name of a trail is not that of a record that was to be visited. -/
theorem length_trail_le (link : RecordInfo → Option String) (visited : List String)
    (next : Option String) :
    (index.trail link visited next).length ≤ index.unvisited visited + 1 := by
  fun_induction index.trail link visited next with
  | case1 visited => exact Nat.zero_le _
  | case2 visited name met => exact Nat.zero_le _
  | case3 visited name new absent => exact Nat.le_add_left _ _
  | case4 visited name new record found ih =>
    have fewer := unvisited_lt found (by simpa using new)
    rw [List.length_cons]
    omega

/-- The walk from a record ends with the names of its superclasses. -/
theorem start_after?_ancestors (index : RecordIndex) (record : RecordInfo) :
    ∃ last, (ChainWalk.start record).after? index (index.ancestors record).length = some last ∧
      last.round? index = none ∧ last.chain = index.ancestors record :=
  after?_trail [record.name] record.superclass []

/-- The names of the superclasses of a record are its chain. -/
theorem ancestors_isChainOf (index : RecordIndex) (record : RecordInfo) :
    index.IsChainOf record (index.ancestors record) := by
  obtain ⟨last, goes, ended, whole⟩ := start_after?_ancestors index record
  rw [← whole]
  exact (ChainWalk.start_onTrack.after goes).isChainOf ended

namespace IsChainOf

/-- Each name of a chain is that of the superclass at the end of the names before. -/
theorem linked (isChain : index.IsChainOf record chain) {before after : List String}
    (split : chain = before ++ name :: after) :
    index.superclassAfter record before = some name := by
  rcases List.eq_nil_or_concat before with rfl | ⟨earlier, last, rfl⟩
  · exact isChain.first name after split
  · rw [List.concat_eq_append, List.append_assoc] at split
    obtain ⟨parent, found, inherits⟩ := isChain.further earlier last name after split
    rw [List.concat_eq_append, superclassAfter_concat, found, Option.bind_some, inherits]

/-- The superclass at the end of a chain was met. -/
theorem met (isChain : index.IsChainOf record chain)
    (reached : index.superclassAfter record chain = some name) : name ∈ record.name :: chain := by
  rcases List.eq_nil_or_concat chain with rfl | ⟨before, last, rfl⟩
  · rw [superclassAfter_nil] at reached
    simpa [reached] using isChain.none_met rfl
  · rw [List.concat_eq_append, superclassAfter_concat] at reached
    obtain ⟨parent, found, inherits⟩ := Option.bind_eq_some_iff.mp reached
    simpa [found, inherits] using isChain.ends before last (List.concat_eq_append ..)

/-- From any of its names on, a chain goes on as the trail does. -/
theorem trail_eq (isChain : index.IsChainOf record chain) {before rest : List String}
    (split : chain = before ++ rest) :
    index.trail (·.superclass) (record.name :: before) (index.superclassAfter record before) =
      rest := by
  induction rest generalizing before with
  | nil =>
    rw [List.append_nil] at split
    subst split
    cases reached : index.superclassAfter record chain with
    | none => exact trail_none
    | some name => exact trail_seen (List.contains_iff_mem.mpr (isChain.met reached))
  | cons name rest ih =>
    have distinct := List.nodup_cons.mpr ⟨isChain.apart, isChain.distinct⟩
    have new : name ∉ record.name :: before := by
      rw [split, ← List.cons_append, List.nodup_append] at distinct
      exact fun listed => distinct.2.2 name listed name List.mem_cons_self rfl
    have onward : chain = (before ++ [name]) ++ rest := by rw [split, List.append_assoc]; rfl
    have further := ih onward
    rw [superclassAfter_concat] at further
    rw [isChain.linked split]
    cases found : index.get? name with
    | none =>
      rw [found, Option.bind_none, trail_none] at further
      rw [← further]
      exact trail_unknown (by simpa using new) found
    | some parent =>
      have reordered : index.trail (·.superclass) (name :: record.name :: before)
          parent.superclass = rest := by
        rw [found, Option.bind_some] at further
        rw [← further]
        exact trail_congr_visited fun other => by
          simp only [List.mem_cons, List.mem_append, List.not_mem_nil, or_false]
          tauto
      rw [trail_known new found, reordered]

end IsChainOf

/-- A record has one superclass chain. -/
theorem isChainOf_iff : index.IsChainOf record chain ↔ chain = index.ancestors record := by
  constructor
  · intro isChain
    have all : chain = [] ++ chain := rfl
    exact (isChain.trail_eq all).symm
  · rintro rfl
    exact ancestors_isChainOf index record

end RecordIndex

/-- The walk along the superclasses of a record ends after one round for each name of its chain, of
which there is at most one more than there are records of other names. What it finds is the one
superclass chain of the record, and this is what is listed for a name that the record owns. -/
theorem superclass_chains_finite_and_exact (index : RecordIndex) (record : RecordInfo) :
    (∃ rounds ≤ index.unvisited [record.name] + 1, ∃ last,
      (RecordIndex.ChainWalk.start record).after? index rounds = some last ∧
        last.round? index = none ∧ last.chain = index.ancestors record) ∧
    (∀ chain, index.IsChainOf record chain ↔ chain = index.ancestors record) ∧
    ∀ name, index.get? name = some record →
      index.superclassChain name = index.ancestors record := by
  obtain ⟨last, goes, ended, whole⟩ := RecordIndex.start_after?_ancestors index record
  refine ⟨⟨_, RecordIndex.length_trail_le _ _ _, last, goes, ended, whole⟩,
    fun _ => RecordIndex.isChainOf_iff, fun name owns => ?_⟩
  rw [RecordIndex.superclassChain, owns]

theorem superclass_chains_finite_and_exact_sample :
    let index := RecordIndex.build [circularUnit]
    let first := circularRecord 1 "A" "p.B" []
    index.get? "p.A" = some first ∧ index.superclassChain "p.A" = ["p.B", "p.C"] ∧
      index.IsChainOf first ["p.B", "p.C"] ∧ index.unvisited [first.name] + 1 = 3 := by
  intro index first
  have owns : index.get? "p.A" = some first := by decide +kernel
  have listed : index.superclassChain "p.A" = ["p.B", "p.C"] := by decide +kernel
  obtain ⟨_, only, named⟩ := superclass_chains_finite_and_exact index first
  have chain : ["p.B", "p.C"] = index.ancestors first := listed.symm.trans (named "p.A" owns)
  exact ⟨owns, listed, (only _).mpr chain, by decide +kernel⟩

end NameBinding
