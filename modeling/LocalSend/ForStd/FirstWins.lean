import Mathlib.Data.List.Basic
import Mathlib.Data.List.Infix
import Mathlib.Data.List.Pairwise

/-!
# Lists that keep the first of what clashes

An element is appended to a list unless one that is there already clashes with it. What is kept is
never given up, so the list says of each element whether it, or one it clashes with, came first.

## Key results

- `prefix_keepFirst`: what is kept stays
- `keepFirst_pairwise`: what is kept does not clash
- `exists_mem_keepFirst`: every element is kept, or clashes with one that is
-/

namespace FirstWins

variable {α : Type*} (clash : α → α → Bool)

/-- Append an element, unless it clashes with one that is kept. -/
def keep (kept : List α) (x : α) : List α :=
  if kept.any fun y => clash y x then kept else kept ++ [x]

/-- Append one element after the other. -/
def keepFirst (kept xs : List α) : List α := xs.foldl (keep clash) kept

variable {clash}

@[simp] theorem keepFirst_nil (kept : List α) : keepFirst clash kept [] = kept := rfl

@[simp] theorem keepFirst_cons (kept : List α) (x : α) (xs : List α) :
    keepFirst clash kept (x :: xs) = keepFirst clash (keep clash kept x) xs := rfl

/-- Two runs of sightings are kept one after the other. -/
theorem keepFirst_append (kept xs ys : List α) :
    keepFirst clash kept (xs ++ ys) = keepFirst clash (keepFirst clash kept xs) ys :=
  List.foldl_append

/-! ## One element -/

/-- What clashes with something kept is not kept. -/
theorem keep_of_clash {kept : List α} {x y : α} (hy : y ∈ kept) (h : clash y x = true) :
    keep clash kept x = kept :=
  if_pos (List.any_eq_true.mpr ⟨y, hy, h⟩)

/-- What clashes with nothing kept is kept last. -/
theorem keep_of_not_clash {kept : List α} {x : α} (h : ∀ y ∈ kept, clash y x = false) :
    keep clash kept x = kept ++ [x] := by
  unfold keep
  rw [if_neg]
  intro hany
  obtain ⟨y, hy, hclash⟩ := List.any_eq_true.mp hany
  rw [h y hy] at hclash
  cases hclash

/-- An element is kept, or one that is there already clashes with it. -/
theorem keep_cases (clash : α → α → Bool) (kept : List α) (x : α) :
    (∃ y ∈ kept, clash y x = true ∧ keep clash kept x = kept) ∨
      (∀ y ∈ kept, clash y x = false) ∧ keep clash kept x = kept ++ [x] := by
  by_cases hany : ∃ y ∈ kept, clash y x = true
  · obtain ⟨y, hy, hclash⟩ := hany
    exact .inl ⟨y, hy, hclash, keep_of_clash hy hclash⟩
  · have hnone : ∀ y ∈ kept, clash y x = false := by
      intro y hy
      cases hc : clash y x with
      | false => rfl
      | true => exact absurd ⟨y, hy, hc⟩ hany
    exact .inr ⟨hnone, keep_of_not_clash hnone⟩

/-- What is kept stays, in its order. -/
theorem prefix_keep (kept : List α) (x : α) : kept <+: keep clash kept x := by
  cases keep_cases clash kept x with
  | inl h =>
    obtain ⟨-, -, -, heq⟩ := h
    rw [heq]
  | inr h =>
    rw [h.2]
    exact List.prefix_append kept [x]

/-- What is kept was kept before or has just come. -/
theorem mem_keep {kept : List α} {x y : α} (h : y ∈ keep clash kept x) : y ∈ kept ∨ y = x := by
  cases keep_cases clash kept x with
  | inl hkeep =>
    obtain ⟨-, -, -, heq⟩ := hkeep
    rw [heq] at h
    exact .inl h
  | inr hkeep =>
    rw [hkeep.2, List.mem_append, List.mem_singleton] at h
    exact h

/-- What is kept never clashes with what was kept before it. -/
theorem keep_pairwise {kept : List α} (x : α) (h : kept.Pairwise fun a b => clash a b = false) :
    (keep clash kept x).Pairwise fun a b => clash a b = false := by
  cases keep_cases clash kept x with
  | inl hkeep =>
    obtain ⟨-, -, -, heq⟩ := hkeep
    rw [heq]
    exact h
  | inr hkeep =>
    rw [hkeep.2]
    refine List.pairwise_append.mpr ⟨h, List.pairwise_singleton .., ?_⟩
    intro a ha b hb
    rw [List.mem_singleton.mp hb]
    exact hkeep.1 a ha

/-- What comes is kept, or something kept clashes with it. -/
theorem exists_mem_keep (kept : List α) (x : α) :
    ∃ y ∈ keep clash kept x, y = x ∨ clash y x = true := by
  cases keep_cases clash kept x with
  | inl hkeep =>
    obtain ⟨y, hy, hclash, heq⟩ := hkeep
    rw [heq]
    exact ⟨y, hy, .inr hclash⟩
  | inr hkeep =>
    rw [hkeep.2]
    exact ⟨x, List.mem_append_right _ (List.mem_singleton_self x), .inl rfl⟩

/-! ## Many elements -/

/-- What is kept stays, at the place it has. -/
theorem prefix_keepFirst (kept xs : List α) : kept <+: keepFirst clash kept xs := by
  induction xs generalizing kept with
  | nil => exact List.prefix_rfl
  | cons x xs ih => exact (prefix_keep kept x).trans (ih _)

/-- What is kept was kept at the start or has come. -/
theorem mem_keepFirst {kept xs : List α} {y : α} (h : y ∈ keepFirst clash kept xs) :
    y ∈ kept ∨ y ∈ xs := by
  induction xs generalizing kept with
  | nil => exact .inl h
  | cons x xs ih =>
    cases ih h with
    | inl hkept =>
      cases mem_keep hkept with
      | inl hkept => exact .inl hkept
      | inr hx =>
        rw [hx]
        exact .inr (List.mem_cons_self ..)
    | inr hxs => exact .inr (List.mem_cons_of_mem _ hxs)

/-- What is kept does not clash. -/
theorem keepFirst_pairwise {kept : List α} (xs : List α)
    (h : kept.Pairwise fun a b => clash a b = false) :
    (keepFirst clash kept xs).Pairwise fun a b => clash a b = false := by
  induction xs generalizing kept with
  | nil => exact h
  | cons x xs ih => exact ih (keep_pairwise x h)

/-- Two elements that are kept and clash are one. -/
theorem keepFirst_unique (hsymm : ∀ x y, clash x y = clash y x) {xs : List α} {x y : α}
    (hx : x ∈ keepFirst clash [] xs) (hy : y ∈ keepFirst clash [] xs) (h : clash x y = true) : x = y := by
  have hinst : Std.Symm fun a b => clash a b = false := ⟨fun a b hab => (hsymm b a).trans hab⟩
  have hpair : (keepFirst clash [] xs).Pairwise fun a b => clash a b = false :=
    keepFirst_pairwise xs List.Pairwise.nil
  by_contra hne
  rw [hpair.forall hx hy hne] at h
  cases h

/-- Every element is kept, or clashes with one that is. -/
theorem exists_mem_keepFirst (kept : List α) {xs : List α} {x : α} (h : x ∈ xs) :
    ∃ y ∈ keepFirst clash kept xs, y = x ∨ clash y x = true := by
  induction xs generalizing kept with
  | nil => cases h
  | cons z xs ih =>
    cases List.mem_cons.mp h with
    | inl hx =>
      -- decided where it is appended, and kept from there on
      obtain ⟨y, hy, hcase⟩ : ∃ y ∈ keep clash kept x, y = x ∨ clash y x = true :=
        exists_mem_keep kept x
      rw [← hx]
      exact ⟨y, (prefix_keepFirst _ xs).subset hy, hcase⟩
    | inr hxs => exact ih _ hxs

end FirstWins
