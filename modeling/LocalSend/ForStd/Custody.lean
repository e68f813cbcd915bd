import Mathlib.Logic.Function.Basic

/-!
# Custody of linear resources

Places hold at most one resource each. A resource is issued once, moves between places,
and is spent out of the place that holds it.

## Key results

- `Linear.step`: what is issued is spent once or held in one place, at every step
-/

/-- Who holds what, what has been issued, and how often each resource has been spent. -/
structure Custody (P R : Type*) where
  held : P → Option R
  issued : R → Prop
  spent : R → Nat

namespace Custody

variable {P R : Type*}

/-- Every issued resource is held in one place, or has been spent once. -/
structure Linear (c : Custody P R) : Prop where
  unique : ∀ a b r, c.held a = some r → c.held b = some r → a = b
  unspent : ∀ a r, c.held a = some r → c.spent r = 0
  once : ∀ r, c.spent r ≤ 1
  accounted : ∀ r, c.issued r ↔ c.spent r = 1 ∨ ∃ a, c.held a = some r

theorem Linear.issued_of_held {c : Custody P R} (h : c.Linear) {a : P} {r : R}
    (ha : c.held a = some r) : c.issued r := (h.accounted r).mpr (.inr ⟨a, ha⟩)

variable [DecidableEq P]

/-- A fresh resource is nowhere yet. -/
theorem Linear.issue {c : Custody P R} (h : c.Linear) {a : P} {r : R} (free : c.held a = none)
    (fresh : ¬c.issued r) :
    (⟨Function.update c.held a (some r), fun x => x = r ∨ c.issued x, c.spent⟩ :
      Custody P R).Linear := by
  -- had it been spent, it would have been issued
  have hspent : c.spent r = 0 := by
    have hle := h.once r
    have hne : c.spent r ≠ 1 := fun hone => fresh ((h.accounted r).mpr (.inl hone))
    omega
  -- `a` holds the new resource, and nobody held it before
  have hheld : ∀ {b x}, Function.update c.held a (some r) b = some x →
      (b = a ∧ x = r) ∨ (b ≠ a ∧ x ≠ r ∧ c.held b = some x) := by
    intro b x hb
    by_cases hba : b = a
    · subst hba
      rw [Function.update_self] at hb
      exact .inl ⟨rfl, (Option.some.inj hb).symm⟩
    · rw [Function.update_of_ne hba] at hb
      exact .inr ⟨hba, fun hxr => fresh (hxr ▸ h.issued_of_held hb), hb⟩
  constructor
  · intro b b' x hb hb'
    rcases hheld hb with ⟨hba, hx⟩ | ⟨_, hx, hb⟩ <;> rcases hheld hb' with ⟨hba', hx'⟩ | ⟨_, hx', hb'⟩
    · rw [hba, hba']
    · exact absurd hx hx'
    · exact absurd hx' hx
    · exact h.unique b b' x hb hb'
  · intro b x hb
    rcases hheld hb with ⟨_, rfl⟩ | ⟨_, _, hb⟩
    · exact hspent
    · exact h.unspent b x hb
  · exact h.once
  · intro x
    constructor
    · rintro (rfl | hx)
      · exact .inr ⟨a, Function.update_self ..⟩
      · refine ((h.accounted x).mp hx).imp_right fun ⟨b, hb⟩ => ⟨b, ?_⟩
        have hba : b ≠ a := fun hba => by simp [hba, free] at hb
        exact (Function.update_of_ne hba ..).trans hb
    · rintro (hx | ⟨b, hb⟩)
      · exact .inr ((h.accounted x).mpr (.inl hx))
      · rcases hheld hb with ⟨_, rfl⟩ | ⟨_, _, hb⟩
        · exact .inl rfl
        · exact .inr (h.issued_of_held hb)

/-- A resource that moves is held where it goes, and nowhere else. -/
theorem Linear.move {c : Custody P R} (h : c.Linear) {a b : P} {r : R} (ha : c.held a = some r)
    (hb : c.held b = none) :
    (⟨Function.update (Function.update c.held a none) b (some r), c.issued, c.spent⟩ :
      Custody P R).Linear := by
  -- `b` holds it now, and nobody but `a` held it before
  have hheld : ∀ {d x}, Function.update (Function.update c.held a none) b (some r) d = some x →
      (d = b ∧ x = r) ∨ (d ≠ b ∧ x ≠ r ∧ c.held d = some x) := by
    intro d x hd
    by_cases hdb : d = b
    · subst hdb
      rw [Function.update_self] at hd
      exact .inl ⟨rfl, (Option.some.inj hd).symm⟩
    · rw [Function.update_of_ne hdb] at hd
      by_cases hda : d = a
      · rw [hda, Function.update_self] at hd
        simp at hd
      · rw [Function.update_of_ne hda] at hd
        exact .inr ⟨hdb, fun hxr => hda (h.unique d a r (hxr ▸ hd) ha), hd⟩
  constructor
  · intro d d' x hd hd'
    rcases hheld hd with ⟨hdb, hx⟩ | ⟨_, hx, hd⟩ <;> rcases hheld hd' with ⟨hdb', hx'⟩ | ⟨_, hx', hd'⟩
    · rw [hdb, hdb']
    · exact absurd hx hx'
    · exact absurd hx' hx
    · exact h.unique d d' x hd hd'
  · intro d x hd
    rcases hheld hd with ⟨_, rfl⟩ | ⟨_, _, hd⟩
    · exact h.unspent a _ ha
    · exact h.unspent d x hd
  · exact h.once
  · intro x
    refine (h.accounted x).trans (or_congr_right ⟨?_, ?_⟩)
    · rintro ⟨d, hd⟩
      by_cases hda : d = a
      · have hxr : x = r := Option.some.inj ((hda ▸ hd).symm.trans ha)
        exact ⟨b, hxr ▸ Function.update_self ..⟩
      · have hdb : d ≠ b := fun hdb => by simp [hdb, hb] at hd
        refine ⟨d, ?_⟩
        dsimp only
        rw [Function.update_of_ne hdb, Function.update_of_ne hda, hd]
    · rintro ⟨d, hd⟩
      rcases hheld hd with ⟨_, rfl⟩ | ⟨_, _, hd⟩
      · exact ⟨a, ha⟩
      · exact ⟨d, hd⟩

variable [DecidableEq R]

/-- A resource that is spent was held, so it had not been spent before. -/
theorem Linear.spend {c : Custody P R} (h : c.Linear) {a : P} {r : R} (ha : c.held a = some r) :
    (⟨Function.update c.held a none, c.issued, Function.update c.spent r (c.spent r + 1)⟩ :
      Custody P R).Linear := by
  have hzero := h.unspent a r ha
  -- nobody but `a` held it
  have hheld : ∀ {d x}, Function.update c.held a none d = some x → x ≠ r ∧ c.held d = some x := by
    intro d x hd
    by_cases hda : d = a
    · rw [hda, Function.update_self] at hd
      simp at hd
    · rw [Function.update_of_ne hda] at hd
      exact ⟨fun hxr => hda (h.unique d a r (hxr ▸ hd) ha), hd⟩
  constructor
  · exact fun d d' x hd hd' => h.unique d d' x (hheld hd).2 (hheld hd').2
  · intro d x hd
    obtain ⟨hxr, hd⟩ := hheld hd
    exact (Function.update_of_ne hxr ..).trans (h.unspent d x hd)
  · intro x
    show Function.update c.spent r (c.spent r + 1) x ≤ 1
    by_cases hxr : x = r
    · rw [hxr, Function.update_self]
      omega
    · rw [Function.update_of_ne hxr]
      exact h.once x
  · intro x
    show c.issued x ↔ Function.update c.spent r (c.spent r + 1) x = 1 ∨ _
    by_cases hxr : x = r
    · -- issued because it was held, and spent once
      rw [hxr, Function.update_self]
      exact iff_of_true (h.issued_of_held ha) (.inl (by omega))
    · rw [Function.update_of_ne hxr]
      refine (h.accounted x).trans (or_congr_right ⟨?_, fun ⟨d, hd⟩ => ⟨d, (hheld hd).2⟩⟩)
      rintro ⟨d, hd⟩
      have hda : d ≠ a := fun hda => hxr (Option.some.inj ((hda ▸ hd).symm.trans ha))
      exact ⟨d, (Function.update_of_ne hda ..).trans hd⟩

/-- What can happen to the resources. -/
inductive Step (c : Custody P R) : Custody P R → Prop
  | keep : Step c c
  | issue {a r} (free : c.held a = none) (fresh : ¬c.issued r) :
    Step c ⟨Function.update c.held a (some r), fun x => x = r ∨ c.issued x, c.spent⟩
  | move {a b r} (ha : c.held a = some r) (hb : c.held b = none) :
    Step c ⟨Function.update (Function.update c.held a none) b (some r), c.issued, c.spent⟩
  | spend {a r} (ha : c.held a = some r) :
    Step c ⟨Function.update c.held a none, c.issued, Function.update c.spent r (c.spent r + 1)⟩

theorem Step.of_eq {c c' : Custody P R} (h : c' = c) : c.Step c' := h ▸ .keep

/-- Nothing spent comes back. -/
theorem Step.spent_le {c c' : Custody P R} (hstep : c.Step c') (r : R) :
    c.spent r ≤ c'.spent r := by
  cases hstep with
  | keep | issue | move => exact Nat.le_refl _
  | @spend a x ha =>
    show c.spent r ≤ Function.update c.spent x (c.spent x + 1) r
    by_cases hr : r = x
    · subst hr
      have hspent : Function.update c.spent r (c.spent r + 1) r = c.spent r + 1 :=
        Function.update_self ..
      omega
    · exact Nat.le_of_eq (Function.update_of_ne hr ..).symm

/-- Every step keeps the resources linear. -/
theorem Linear.step {c c' : Custody P R} (h : c.Linear) (hstep : c.Step c') : c'.Linear := by
  cases hstep with
  | keep => exact h
  | issue free fresh => exact h.issue free fresh
  | move ha hb => exact h.move ha hb
  | spend ha => exact h.spend ha

end Custody
