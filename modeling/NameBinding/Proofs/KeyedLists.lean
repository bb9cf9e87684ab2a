import Mathlib.Data.List.Forall2
import Mathlib.Data.List.Nodup
import Mathlib.Data.List.Pairwise

/-!
# Looking up by a key

Scopes are found by their owners, declarations and fields by their ids, bindings by their names:
each time the first item of a list that has the key. If no two items share a key, every item is
found under its own, and what items contribute to a list can be told apart. What is found in a
list is found in any part of the list that still has it. An item of two lists, one after the other,
stands in one of them. In lists that are paired item by item, every item has its counterpart.
-/

namespace NameBinding

variable {α κ : Type} [BEq κ] [LawfulBEq κ] {xs : List α} {x : α}

/-- What is found under a key has this key. -/
theorem of_find?_key {key : α → κ} {k : κ} (h : xs.find? (key · == k) = some x) :
    x ∈ xs ∧ key x = k := by
  have same := List.find?_some h
  exact ⟨List.mem_of_find?_eq_some h, beq_iff_eq.mp same⟩

/-- If no two items share a key, every item is found under its own. -/
theorem find?_key (key : α → κ) (distinct : (xs.map key).Nodup) (h : x ∈ xs) :
    xs.find? (key · == key x) = some x := by
  cases found : xs.find? (key · == key x) with
  | none =>
    have absent := List.find?_eq_none.mp found x h
    exact absurd (beq_self_eq_true (key x)) absent
  | some other =>
    obtain ⟨member, same⟩ := of_find?_key found
    rw [List.inj_on_of_nodup_map distinct member h same]

/-- If no two items share a key, an item is the only one with its key. -/
theorem filter_key (key : α → κ) (distinct : (xs.map key).Nodup) (h : x ∈ xs) :
    xs.filter (key · == key x) = [x] := by
  induction xs with
  | nil => cases h
  | cons y rest ih =>
    rw [List.map_cons, List.nodup_cons] at distinct
    rcases List.mem_cons.mp h with rfl | h
    · have others : rest.filter (key · == key x) = [] := by
        rw [List.filter_eq_nil_iff]
        intro other member same
        exact distinct.1 (beq_iff_eq.mp same ▸ List.mem_map_of_mem member)
      rw [List.filter_cons, if_pos (beq_self_eq_true (key x)), others]
    · have apart : ¬(key y == key x) = true := by
        intro same
        exact distinct.1 (beq_iff_eq.mp same ▸ List.mem_map_of_mem h)
      rw [List.filter_cons, if_neg apart, ih distinct.2 h]

/-- If items with other keys contribute nothing, a list of contributions is that of one item. -/
theorem flatMap_key {β ι : Type} (key : α → ι) {f : α → List β} (distinct : (xs.map key).Nodup)
    (h : x ∈ xs) (others : ∀ y ∈ xs, key y ≠ key x → f y = []) : xs.flatMap f = f x := by
  obtain ⟨before, after, rfl⟩ := List.append_of_mem h
  rw [List.map_append, List.map_cons, List.nodup_middle, List.nodup_cons,
    List.mem_append] at distinct
  have none : ∀ ys : List α, (∀ y ∈ ys, y ∈ before ++ x :: after) → key x ∉ ys.map key →
      ys.flatMap f = [] := by
    intro ys part apart
    rw [List.flatMap_eq_nil_iff]
    intro y member
    exact others y (part y member) fun same => apart (same ▸ List.mem_map_of_mem member)
  have first := none before (fun y member => List.mem_append_left _ member) fun member =>
    distinct.1 (.inl member)
  have last := none after
    (fun y member => List.mem_append_right _ (List.mem_cons_of_mem _ member)) fun member =>
    distinct.1 (.inr member)
  rw [List.flatMap_append, List.flatMap_cons, first, last, List.append_nil, List.nil_append]

/-- If nothing is contributed twice, what two items both contribute shows that they are one. -/
theorem eq_of_mem_flatMap {β : Type} {f : α → List β} (distinct : (xs.flatMap f).Nodup) {y : α}
    (hx : x ∈ xs) (hy : y ∈ xs) {b : β} (h : b ∈ f x) (h' : b ∈ f y) : x = y := by
  by_contra different
  have symmetric : Std.Symm (Function.onFun List.Disjoint f) :=
    ⟨fun _ _ disjoint _ first second => disjoint second first⟩
  exact (List.nodup_flatMap.mp distinct).2.forall hx hy different h h'

/-- What is found first in a list is found first in each sublist that has it. -/
theorem find?_of_sublist {p : α → Bool} {ys : List α} (part : ys.Sublist xs) (distinct : xs.Nodup)
    (found : xs.find? p = some x) (member : x ∈ ys) : ys.find? p = some x := by
  induction part with
  | slnil => cases member
  | @cons ys xs y part ih =>
    rw [List.nodup_cons] at distinct
    by_cases first : p y
    · rw [List.find?_cons_of_pos first] at found
      cases found
      exact absurd (part.subset member) distinct.1
    · rw [List.find?_cons_of_neg first] at found
      exact ih distinct.2 found member
  | @cons_cons ys xs y part ih =>
    rw [List.nodup_cons] at distinct
    by_cases first : p y
    · rw [List.find?_cons_of_pos first] at found ⊢
      exact found
    · rw [List.find?_cons_of_neg first] at found ⊢
      rcases List.mem_cons.mp member with rfl | member
      · exact absurd (List.find?_some found) first
      · exact ih distinct.2 found member

/-- An item of two lists, one after the other, stands in the second one or in the first. -/
theorem split_of_append {ys before after : List α} {y : α}
    (split : xs ++ ys = before ++ y :: after) :
    (∃ rest, before = xs ++ rest ∧ ys = rest ++ y :: after) ∨
      ∃ rest, xs = before ++ y :: rest := by
  rcases List.append_eq_append_iff.mp split with ⟨rest, same, tail⟩ | ⟨rest, same, tail⟩
  · exact .inl ⟨rest, same, tail⟩
  · cases rest with
    | nil =>
      rw [List.append_nil] at same
      exact .inl ⟨[], by rw [same, List.append_nil], tail.symm⟩
    | cons z rest =>
      obtain ⟨rfl, _⟩ := List.cons.inj tail
      exact .inr ⟨rest, same⟩

/-- An item of a list that grew by one is the new one or was there before. -/
theorem split_of_append_singleton {before after : List α} {y : α}
    (split : xs ++ [x] = before ++ y :: after) :
    (y = x ∧ before = xs) ∨ ∃ rest, xs = before ++ y :: rest := by
  refine (split_of_append split).imp_left fun ⟨rest, same, last⟩ => ?_
  cases rest with
  | nil => exact ⟨(List.cons.inj last).1.symm, same.trans (List.append_nil _)⟩
  | cons z rest => simp at last

/-- In lists that are paired item by item, every item of the second has its counterpart. -/
theorem exists_left_of_forall₂ {β : Type} {R : α → β → Prop} {ys : List β}
    (paired : List.Forall₂ R xs ys) : ∀ y ∈ ys, ∃ x ∈ xs, R x y := by
  induction paired with
  | nil => simp
  | cons related _ ih =>
    intro y member
    rcases List.mem_cons.mp member with rfl | member
    · exact ⟨_, List.mem_cons_self, related⟩
    · obtain ⟨x, listed, found⟩ := ih y member
      exact ⟨x, List.mem_cons_of_mem _ listed, found⟩

end NameBinding
