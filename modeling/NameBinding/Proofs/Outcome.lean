/-!
# Computations that may fail

A computation over `Except` succeeds when all its parts do. Folding a step that may fail over a
list is how every phase runs; what each step keeps, the whole run keeps.
-/

namespace NameBinding

variable {α β ε : Type} {x : Except ε α} {f : α → Except ε β} {b : β} {e : ε}

/-- A sequence succeeds when both its parts do. -/
theorem bind_eq_ok_iff : x >>= f = .ok b ↔ ∃ a, x = .ok a ∧ f a = .ok b := by
  cases x with
  | error e => simp [bind, Except.bind]
  | ok a => simp [bind, Except.bind]

/-- A sequence fails when one of its parts does. -/
theorem bind_eq_error_iff :
    x >>= f = .error e ↔ x = .error e ∨ ∃ a, x = .ok a ∧ f a = .error e := by
  cases x with
  | error e => simp [bind, Except.bind]
  | ok a => simp [bind, Except.bind]

theorem ok_bind (a : α) (f : α → Except ε β) : (Except.ok a : Except ε α) >>= f = f a := rfl

theorem error_bind (e : ε) (f : α → Except ε β) :
    (Except.error e : Except ε α) >>= f = .error e := rfl

/-- What comes back as a value was a success. -/
theorem eq_ok_of_toOption {a : α} (h : x.toOption = some a) : x = .ok a := by
  cases x with
  | error e => cases h
  | ok b =>
    cases h
    rfl

/-- What is told about the result of a computation, it has a result. -/
theorem exists_ok_of_toOption_map {β : Type} {f : α → β} {b : β}
    (h : x.toOption.map f = some b) : ∃ a, x = .ok a ∧ f a = b := by
  obtain ⟨a, found, told⟩ := Option.map_eq_some_iff.mp h
  exact ⟨a, eq_ok_of_toOption found, told⟩

/-- A computation fails when it does not succeed. -/
theorem fails_iff_not_succeeds : (∃ e, x = .error e) ↔ ¬∃ a, x = .ok a := by
  cases x with
  | error e => simp
  | ok a => simp

/-- What is made of a result does not decide whether there is one. -/
theorem bind_ok_succeeds_iff (g : α → β) :
    (∃ b, (x >>= fun a => (.ok (g a) : Except ε β)) = .ok b) ↔ ∃ a, x = .ok a := by
  cases x with
  | error e => simp [bind, Except.bind]
  | ok a => simp [bind, Except.bind]

/-- What every step of a run keeps, the run keeps. -/
theorem foldlM_preserves {step : β → α → Except ε β} {items : List α} {first last : β}
    (P : β → Prop) (keeps : ∀ s, P s → ∀ item ∈ items, ∀ t, step s item = .ok t → P t)
    (start : P first) (run : items.foldlM step first = .ok last) : P last := by
  induction items generalizing first with
  | nil =>
    cases run
    exact start
  | cons item rest ih =>
    rw [List.foldlM_cons] at run
    obtain ⟨next, taken, run⟩ := bind_eq_ok_iff.mp run
    have kept := keeps first start item List.mem_cons_self next taken
    exact ih (fun s hs item member => keeps s hs item (List.mem_cons_of_mem _ member)) kept run

/-- A run that fails has failed at one of its steps. -/
theorem foldlM_error {step : β → α → Except ε β} {items : List α} {first : β} (P : β → Prop)
    (keeps : ∀ s, P s → ∀ item ∈ items, ∀ t, step s item = .ok t → P t)
    (start : P first) (run : items.foldlM step first = .error e) :
    ∃ s, P s ∧ ∃ item ∈ items, step s item = .error e := by
  induction items generalizing first with
  | nil => cases run
  | cons item rest ih =>
    rw [List.foldlM_cons] at run
    rcases bind_eq_error_iff.mp run with failed | ⟨next, taken, run⟩
    · exact ⟨first, start, item, List.mem_cons_self, failed⟩
    · have kept := keeps first start item List.mem_cons_self next taken
      obtain ⟨s, hs, other, member, failed⟩ := ih
        (fun s hs item member => keeps s hs item (List.mem_cons_of_mem _ member)) kept run
      exact ⟨s, hs, other, List.mem_cons_of_mem _ member, failed⟩

/-- A run whose steps each claim at most one key succeeds when every step is in order and no key
is claimed twice. -/
theorem foldlM_ok_iff {κ : Type} {step : β → α → Except ε β} {items : List α} {first : β}
    (P : β → Prop) (Good : α → Prop) (keys : β → List κ) (key? : α → Option κ)
    (keeps : ∀ s, P s → ∀ item ∈ items, ∀ t, step s item = .ok t →
      P t ∧ keys t = keys s ++ (key? item).toList)
    (passes : ∀ s, P s → ∀ item ∈ items,
      ((∃ t, step s item = .ok t) ↔ Good item ∧ ∀ key ∈ key? item, key ∉ keys s))
    (start : P first) (distinct : (keys first).Nodup) :
    (∃ last, items.foldlM step first = .ok last) ↔
      (∀ item ∈ items, Good item) ∧ (keys first ++ items.filterMap key?).Nodup := by
  induction items generalizing first with
  | nil => simpa [pure, Except.pure] using distinct
  | cons item rest ih =>
    have head := passes first start item List.mem_cons_self
    have claimed : (item :: rest).filterMap key? = (key? item).toList ++ rest.filterMap key? := by
      cases h : key? item <;> simp [h]
    rw [List.foldlM_cons, claimed, ← List.append_assoc]
    by_cases taken : ∃ next, step first item = .ok next
    · obtain ⟨next, taken⟩ := taken
      obtain ⟨good, new⟩ := head.mp ⟨next, taken⟩
      obtain ⟨kept, grown⟩ := keeps first start item List.mem_cons_self next taken
      have distinctNext : (keys next).Nodup := by
        rw [grown, List.nodup_append]
        refine ⟨distinct, by cases key? item <;> simp, ?_⟩
        rintro key hkey other hother rfl
        exact new key (Option.mem_toList.mp hother) hkey
      have tail := ih (fun s hs item member => keeps s hs item (List.mem_cons_of_mem _ member))
        (fun s hs item member => passes s hs item (List.mem_cons_of_mem _ member)) kept distinctNext
      rw [taken, ok_bind, tail, grown]
      simp [good]
    · cases failed : step first item with
      | ok next => exact absurd ⟨next, failed⟩ taken
      | error e =>
        rw [error_bind]
        constructor
        · rintro ⟨last, run⟩
          cases run
        · rintro ⟨good, all⟩
          refine absurd (head.mpr ⟨good item List.mem_cons_self, ?_⟩) taken
          intro key hkey hold
          rw [List.nodup_append, List.nodup_append] at all
          exact all.1.2.2 key hold key (Option.mem_toList.mpr hkey) rfl

end NameBinding
