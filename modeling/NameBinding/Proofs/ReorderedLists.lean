import Mathlib.Data.List.Flatten
import NameBinding.Proofs.KeyedLists

/-!
# Lists up to order

Two lists are reorderings of each other if their items correspond one to one, wherever they stand;
corresponding items are related, they need not be the same. Building lists item by item keeps this,
and an item that is found by a key no two items share is found in either list.
-/

namespace NameBinding

variable {α β γ δ : Type} {S : α → β → Prop} {T : γ → δ → Prop} {xs xs' : List α} {ys ys' : List β}

/-! ### Related optional values -/

/-- Optional values that are related by equality are the same. -/
theorem eq_of_optionRel {x y : Option α} (h : Option.Rel Eq x y) : x = y := by
  cases h with
  | none => rfl
  | some same => rw [same]

/-- Related optional values agree in what related values agree in. -/
theorem map_eq_of_optionRel {x : Option α} {y : Option β} (h : Option.Rel S x y) {f : α → γ}
    {g : β → γ} (same : ∀ a b, S a b → f a = g b) : x.map f = y.map g := by
  cases h with
  | none => rfl
  | some related => exact congrArg some (same _ _ related)

/-! ### Reordered lists -/

/-- The items of two lists correspond one to one, in whatever order they stand. -/
def Reordered (S : α → β → Prop) (xs : List α) (ys : List β) : Prop :=
  ∃ mid, xs.Perm mid ∧ List.Forall₂ S mid ys

namespace Reordered

/-- Lists that are related entry by entry are reordered. -/
theorem of_forall₂ (paired : List.Forall₂ S xs ys) : Reordered S xs ys := ⟨xs, .rfl, paired⟩

/-- A reordered list of items that are related to themselves. -/
theorem of_perm {S : α → α → Prop} {zs : List α} (refl : ∀ x, S x x) (perm : xs.Perm zs) :
    Reordered S xs zs :=
  ⟨zs, perm, List.forall₂_same.mpr fun x _ => refl x⟩

/-- A list is reordered to itself. -/
theorem refl {S : α → α → Prop} (refl : ∀ x, S x x) (xs : List α) : Reordered S xs xs :=
  of_perm refl .rfl

/-- Items that correspond by equality are the same items. -/
theorem perm {zs : List α} (h : Reordered Eq xs zs) : xs.Perm zs := by
  obtain ⟨mid, perm, paired⟩ := h
  rw [List.forall₂_eq_eq_eq] at paired
  exact paired ▸ perm

/-- The order of the first list does not matter. -/
theorem of_perm_left (perm : xs.Perm xs') (h : Reordered S xs' ys) : Reordered S xs ys := by
  obtain ⟨mid, perm', paired⟩ := h
  exact ⟨mid, perm.trans perm', paired⟩

/-- Reordered lists can be put together. -/
theorem append (first : Reordered S xs ys) (second : Reordered S xs' ys') :
    Reordered S (xs ++ xs') (ys ++ ys') := by
  obtain ⟨mid, perm, paired⟩ := first
  obtain ⟨mid', perm', paired'⟩ := second
  exact ⟨mid ++ mid', perm.append perm', List.rel_append paired paired'⟩

/-- Related entries can be put in front. -/
theorem cons {x : α} {y : β} (head : S x y) (tail : Reordered S xs ys) :
    Reordered S (x :: xs) (y :: ys) := by
  obtain ⟨mid, perm, paired⟩ := tail
  exact ⟨x :: mid, perm.cons x, .cons head paired⟩

/-- Reordered lists can be reversed. -/
theorem reverse (h : Reordered S xs ys) : Reordered S xs.reverse ys.reverse := by
  obtain ⟨mid, perm, paired⟩ := h
  exact ⟨mid.reverse, (List.reverse_perm xs).trans (perm.trans (List.reverse_perm mid).symm),
    List.forall₂_reverse_iff.mpr paired⟩

/-- Every item of the first list has its counterpart in the second. -/
theorem exists_right (h : Reordered S xs ys) {x : α} (member : x ∈ xs) : ∃ y ∈ ys, S x y := by
  obtain ⟨mid, perm, paired⟩ := h
  exact exists_left_of_forall₂ paired.flip x (perm.mem_iff.mp member)

/-- Every item of the second list has its counterpart in the first. -/
theorem exists_left (h : Reordered S xs ys) {y : β} (member : y ∈ ys) : ∃ x ∈ xs, S x y := by
  obtain ⟨mid, perm, paired⟩ := h
  obtain ⟨x, hx, related⟩ := exists_left_of_forall₂ paired y member
  exact ⟨x, perm.mem_iff.mpr hx, related⟩

/-- Corresponding items are items of their lists. -/
theorem with_mem (h : Reordered S xs ys) : Reordered (fun x y => x ∈ xs ∧ S x y) xs ys := by
  obtain ⟨mid, perm, paired⟩ := h
  have listed : ∀ x ∈ mid, x ∈ xs := fun x member => perm.mem_iff.mpr member
  exact ⟨mid, perm, (List.forall₂_and_left _ _).mpr ⟨listed, paired⟩⟩

/-- Images of related entries make reordered lists. -/
theorem map {f : α → γ} {g : β → δ} (keeps : ∀ x y, S x y → T (f x) (g y))
    (h : Reordered S xs ys) : Reordered T (xs.map f) (ys.map g) := by
  obtain ⟨mid, perm, paired⟩ := h
  refine ⟨mid.map f, perm.map f, ?_⟩
  rw [List.forall₂_map_left_iff, List.forall₂_map_right_iff]
  exact paired.imp keeps

/-- The same of images that may be missing. -/
theorem filterMap {f : α → Option γ} {g : β → Option δ}
    (keeps : ∀ x y, S x y → Option.Rel T (f x) (g y)) (h : Reordered S xs ys) :
    Reordered T (xs.filterMap f) (ys.filterMap g) := by
  obtain ⟨mid, perm, paired⟩ := h
  exact ⟨mid.filterMap f, perm.filterMap f, List.rel_filterMap keeps paired⟩

/-- The same of images that are lists. -/
theorem flatMap {f : α → List γ} {g : β → List δ}
    (keeps : ∀ x y, S x y → Reordered T (f x) (g y)) (h : Reordered S xs ys) :
    Reordered T (xs.flatMap f) (ys.flatMap g) := by
  obtain ⟨mid, perm, paired⟩ := h
  refine of_perm_left (perm.flatMap_right f) ?_
  clear perm
  induction paired with
  | nil => exact of_forall₂ .nil
  | cons related _ ih =>
    rw [List.flatMap_cons, List.flatMap_cons]
    exact (keeps _ _ related).append ih

/-- Items that are told apart by equal keys have the keys in either list. -/
theorem map_perm {f : α → γ} {g : β → γ} (same : ∀ x y, S x y → f x = g y)
    (h : Reordered S xs ys) : (xs.map f).Perm (ys.map g) :=
  Reordered.perm (h.map same)

/-- Items that yield equal values yield them in either list. -/
theorem filterMap_perm {f : α → Option γ} {g : β → Option γ} (same : ∀ x y, S x y → f x = g y)
    (h : Reordered S xs ys) : (xs.filterMap f).Perm (ys.filterMap g) := by
  refine Reordered.perm (h.filterMap fun x y related => ?_)
  rw [same x y related]
  cases g y with
  | none => exact .none
  | some value => exact .some rfl

/-- Where no two items share a key, an item and its counterpart are found under the same key. -/
theorem find?_rel {κ : Type} [BEq κ] [LawfulBEq κ] {key : α → κ} {key' : β → κ}
    (h : Reordered S xs ys) (same : ∀ x y, S x y → key x = key' y)
    (distinct : (xs.map key).Nodup) (k : κ) :
    Option.Rel S (xs.find? (key · == k)) (ys.find? (key' · == k)) := by
  have distinct' : (ys.map key').Nodup := (h.map_perm same).nodup_iff.mp distinct
  cases found : xs.find? (key · == k) with
  | some x =>
    obtain ⟨member, rfl⟩ := of_find?_key found
    obtain ⟨y, listed, related⟩ := h.exists_right member
    rw [same _ _ related, find?_key key' distinct' listed]
    exact .some related
  | none =>
    have absent : ys.find? (key' · == k) = none := by
      rw [List.find?_eq_none] at found ⊢
      intro y listed
      obtain ⟨x, member, related⟩ := h.exists_left listed
      rw [← same _ _ related]
      exact found x member
    rw [absent]
    exact .none

end Reordered

end NameBinding
