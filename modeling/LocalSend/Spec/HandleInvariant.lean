import LocalSend.Core.ReceiveHandles
import LocalSend.Spec.SessionCorrect

/-!
# Cancellation against publication on one session

The handles of one session keep three facts in every interleaving: a file has at
most one live handle, a handle's kind fits the phase of its slot, and a slot that is
`Receiving` or `Publishing` has a handle. From these follow the linearization of
`try_cancel_receives` against publication, and that `Published` and `Cancelled`
absorb.

## Key results

- `inv_of_reachable`: the three facts hold in every reachable state
- `PhaseStep.absorbing`: one section never leaves `Published` or `Cancelled`
- `cancel_publish_linearization`: the whole race, over every run
-/

namespace LocalSend

open ReceiveLifecycle

/-- The phases a slot can be in while `handle` is live. A live lease may have been
    cancelled under its owner; a permit cannot. -/
def ReceiveHandle.Fits : ReceiveHandle → Option ReceivePhase → Prop
  | .lease _, p => p = some .receiving ∨ p = some .cancelled
  | .spentLease _, p => p = some .cancelled
  | .permit _, p => p = some .publishing

/-- No handle fits a slot that is ready for the next upload. -/
theorem ReceiveHandle.Fits.ne_ready {handle : ReceiveHandle} {p : Option ReceivePhase}
    (h : handle.Fits p) : p ≠ some .ready := by
  rintro rfl
  cases handle <;> simp [Fits] at h

namespace HandleState

/-- The invariant that ties live handles to phases. -/
structure Inv (s : HandleState) : Prop where
  unique : ∀ h₁ h₂ f, s.Holds h₁ f → s.Holds h₂ f → h₁ = h₂
  fits : ∀ h handle, s.handles h = some handle → handle.Fits (s.lifecycle.phase? handle.file)
  owned : ∀ f, s.lifecycle.phase? f = some .receiving ∨ s.lifecycle.phase? f = some .publishing →
    ∃ h, s.Holds h f

@[simp] theorem update_lifecycle (s : HandleState) (h : HandleId) (handle : Option ReceiveHandle)
    (l : ReceiveLifecycle) : (s.update h handle l).lifecycle = l := rfl

theorem update_handles (s : HandleState) (h g : HandleId) (handle : Option ReceiveHandle)
    (l : ReceiveLifecycle) :
    (s.update h handle l).handles g = if g = h then handle else s.handles g := by
  simp only [update, Function.update_apply]

theorem inv_init {s : HandleState} (h : Init s) : s.Inv := by
  obtain ⟨files, rfl⟩ := h
  refine ⟨?_, ?_, ?_⟩
  · rintro h₁ h₂ f ⟨handle, hh, _⟩ _
    simp at hh
  · intro h handle hh
    simp at hh
  · intro f hf
    simp [phase?_newLifecycle] at hf

/-- One section of handle `h` on file `f` keeps the invariant when it touches no other
    slot, `h` is the only handle the file may have had, and what it leaves in the
    table fits the slot, or frees it. -/
theorem Inv.update {s : HandleState} (hinv : s.Inv) {h : HandleId} {f : FileId}
    {new : Option ReceiveHandle} {l : ReceiveLifecycle}
    (hframe : ∀ g, g ≠ f → l.phase? g = s.lifecycle.phase? g)
    (hself : ∀ g, s.Holds h g → g = f)
    (halone : ∀ h', s.Holds h' f → h' = h)
    (hnew : ∀ handle, new = some handle → handle.file = f ∧ handle.Fits (l.phase? f))
    (hfree : new = none → l.phase? f ≠ some .receiving ∧ l.phase? f ≠ some .publishing) :
    (s.update h new l).Inv := by
  -- who holds what afterwards: `h` holds `f` or nothing, the others what they held
  have hholds : ∀ h' g, (s.update h new l).Holds h' g → (h' = h ∧ g = f) ∨
      (h' ≠ h ∧ s.Holds h' g) := by
    rintro h' g ⟨handle, hh, rfl⟩
    rw [update_handles] at hh
    split at hh
    · exact .inl ⟨by assumption, (hnew handle hh).1⟩
    · exact .inr ⟨by assumption, handle, hh, rfl⟩
  refine ⟨?_, ?_, ?_⟩
  · intro h₁ h₂ g hg₁ hg₂
    rcases hholds h₁ g hg₁ with ⟨rfl, rfl⟩ | ⟨_, held₁⟩ <;>
      rcases hholds h₂ g hg₂ with ⟨rfl, hgf⟩ | ⟨_, held₂⟩
    · rfl
    · exact (halone h₂ held₂).symm
    · exact halone h₁ (hgf ▸ held₁)
    · exact hinv.unique h₁ h₂ g held₁ held₂
  · intro h' handle hh
    rw [update_handles] at hh
    rw [update_lifecycle]
    split at hh
    · obtain ⟨hfile, hfits⟩ := hnew handle hh
      rw [hfile]
      exact hfits
    · have hne : handle.file ≠ f := fun heq =>
        absurd (halone h' ⟨handle, hh, heq⟩) (by assumption)
      rw [hframe _ hne]
      exact hinv.fits h' handle hh
  · intro g hg
    rw [update_lifecycle] at hg
    by_cases hgf : g = f
    · subst hgf
      cases new with
      | none =>
        obtain ⟨hr, hp⟩ := hfree rfl
        exact absurd hg (by simp [hr, hp])
      | some handle => exact ⟨h, handle, by simp [update_handles], (hnew handle rfl).1⟩
    · rw [hframe g hgf] at hg
      obtain ⟨h', handle, hh, hfile⟩ := hinv.owned g hg
      have hne : h' ≠ h := by
        rintro rfl
        exact hgf (hself g ⟨handle, hh, hfile⟩)
      exact ⟨h', handle, by rw [update_handles, if_neg hne]; exact hh, hfile⟩

/-- A section that replaces the handle `h` already has on `f`. -/
theorem Inv.update_held {s : HandleState} (hinv : s.Inv) {h : HandleId} {old : ReceiveHandle}
    {f : FileId} {new : Option ReceiveHandle} {l : ReceiveLifecycle}
    (hold : s.handles h = some old) (hfile : old.file = f)
    (hframe : ∀ g, g ≠ f → l.phase? g = s.lifecycle.phase? g)
    (hnew : ∀ handle, new = some handle → handle.file = f ∧ handle.Fits (l.phase? f))
    (hfree : new = none → l.phase? f ≠ some .receiving ∧ l.phase? f ≠ some .publishing) :
    (s.update h new l).Inv := by
  refine hinv.update hframe ?_ ?_ hnew hfree
  · rintro g ⟨handle, hh, rfl⟩
    rw [hold] at hh
    cases hh
    exact hfile
  · exact fun h' hh' => hinv.unique h' h f hh' ⟨old, hold, hfile⟩

/-- Every mutex section keeps the invariant. -/
theorem inv_step {s s' : HandleState} {a : HandleAction} (hinv : s.Inv)
    (hstep : s.step a = some s') : s'.Inv := by
  cases a with
  | beginReceive h f =>
    simp only [step] at hstep
    split at hstep
    · simp at hstep
    · rename_i hnone
      split at hstep
      · cases hstep; exact hinv
      · rename_i l hl
        cases hstep
        obtain ⟨hready, rfl⟩ := beginReceive_eq_some.mp hl
        have hfresh : ∀ g, ¬s.Holds h g := by
          rintro g ⟨handle, hh, _⟩
          cases hnone ▸ hh
        -- a file whose slot is `Ready` has no live handle
        have halone : ∀ h', ¬s.Holds h' f := by
          rintro h' ⟨handle, hh, rfl⟩
          exact (hinv.fits h' handle hh).ne_ready hready
        refine hinv.update (f := f) ?_ (fun g hg => absurd hg (hfresh g))
          (fun h' hh' => absurd hh' (halone h')) ?_ (fun hn => (by cases hn))
        · intro g hg
          rw [phase?_setPhase, if_neg hg]
        · rintro handle hh
          cases hh
          exact ⟨rfl, .inl (by simp [phase?_setPhase, hready])⟩
  | beginPublication h =>
    simp only [step] at hstep
    split at hstep
    · rename_i f hlease
      have hfits := hinv.fits h _ hlease
      split at hstep
      · rename_i hfail
        cases hstep
        -- the lease lost the race: its slot is no longer `Receiving`
        refine hinv.update_held (f := f) hlease rfl (fun _ _ => rfl) ?_ (fun hn => (by cases hn))
        rintro handle hh
        cases hh
        exact ⟨rfl, hfits.resolve_left (beginPublication_eq_none.mp hfail)⟩
      · rename_i l hl
        cases hstep
        obtain ⟨hrecv, rfl⟩ := beginPublication_eq_some.mp hl
        refine hinv.update_held (f := f) hlease rfl ?_ ?_ (fun hn => (by cases hn))
        · intro g hg
          rw [phase?_setPhase, if_neg hg]
        · rintro handle hh
          cases hh
          exact ⟨rfl, by simp [ReceiveHandle.Fits, phase?_setPhase, hrecv]⟩
    · simp at hstep
  | dropLease h =>
    simp only [step] at hstep
    split at hstep
    · rename_i f hlease
      cases hstep
      have hfits := hinv.fits h _ hlease
      refine hinv.update_held (f := f) hlease rfl ?_ (fun _ hn => (by cases hn)) (fun _ => ?_)
      · intro g hg
        rw [phase?_dropLease, if_neg fun hgf => hg hgf.1]
      · rw [phase?_dropLease]
        rcases hfits with hp | hp <;> simp_all [ReceiveHandle.file]
    · rename_i f hspent
      cases hstep
      have hfits : s.lifecycle.phase? f = some .cancelled := hinv.fits h _ hspent
      refine hinv.update_held (f := f) hspent rfl ?_ (fun _ hn => (by cases hn)) (fun _ => ?_)
      · intro g hg
        rw [phase?_dropLease, if_neg fun hgf => hg hgf.1]
      · rw [phase?_dropLease]
        simp [hfits]
    · simp at hstep
  | finish h =>
    simp only [step] at hstep
    split at hstep
    · rename_i f hpermit
      cases hstep
      have hfits : s.lifecycle.phase? f = some .publishing := hinv.fits h _ hpermit
      refine hinv.update_held (f := f) hpermit rfl ?_ (fun _ hn => (by cases hn)) (fun _ => ?_)
      · intro g hg
        rw [phase?_finish, if_neg hg]
      · rw [phase?_finish]
        simp [hfits]
    · simp at hstep
  | dropPermit h =>
    simp only [step] at hstep
    split at hstep
    · rename_i f hpermit
      cases hstep
      have hfits : s.lifecycle.phase? f = some .publishing := hinv.fits h _ hpermit
      refine hinv.update_held (f := f) hpermit rfl ?_ (fun _ hn => (by cases hn)) (fun _ => ?_)
      · intro g hg
        rw [phase?_dropPermit, if_neg fun hgf => hg hgf.1]
      · rw [phase?_dropPermit]
        simp [hfits]
    · simp at hstep
  | tryCancelReceives =>
    simp only [step] at hstep
    cases hstep
    refine ⟨hinv.unique, ?_, ?_⟩
    · intro h handle hh
      have hfits := hinv.fits h handle hh
      rcases phase?_tryCancelReceives_cases s.lifecycle handle.file with heq | ⟨hp, hc⟩
      · rw [heq]; exact hfits
      · rw [hc]
        cases handle <;> simp_all [ReceiveHandle.Fits, ReceiveHandle.file]
    · intro f hf
      rcases phase?_tryCancelReceives_cases s.lifecycle f with heq | ⟨_, hc⟩
      · rw [heq] at hf; exact hinv.owned f hf
      · simp [hc] at hf

theorem inv_of_reachable {s : HandleState} (h : system.Reachable s) : s.Inv :=
  system.reachable_induction Inv (fun _ => inv_init) (fun _ _ _ => inv_step) h

/-! ## The phases of one slot along a run -/

/-- What one mutex section can do to the phase of a slot. -/
inductive PhaseStep : ReceivePhase → ReceivePhase → Prop
  | stay (p : ReceivePhase) : PhaseStep p p
  | claim : PhaseStep .ready .receiving
  | release : PhaseStep .receiving .ready
  | publish : PhaseStep .receiving .publishing
  | abandon : PhaseStep .publishing .ready
  | finish : PhaseStep .publishing .published
  | cancelReady : PhaseStep .ready .cancelled
  | cancelReceiving : PhaseStep .receiving .cancelled

/-- No section leaves `Published` or `Cancelled`. -/
theorem PhaseStep.absorbing {p p' : ReceivePhase} (h : PhaseStep p p')
    (hp : p = .cancelled ∨ p = .published) : p' = p := by
  cases h <;> simp_all

/-- The phase of slot `f` before and after a section: the slot stays absent, or makes
    one `PhaseStep`. -/
def SlotStep (l l' : ReceiveLifecycle) (f : FileId) : Prop :=
  (l.phase? f = none ∧ l'.phase? f = none) ∨
    ∃ p p', l.phase? f = some p ∧ l'.phase? f = some p' ∧ PhaseStep p p'

theorem SlotStep.of_eq {l l' : ReceiveLifecycle} {f : FileId} (h : l'.phase? f = l.phase? f) :
    SlotStep l l' f := by
  cases hp : l.phase? f with
  | none => exact .inl ⟨hp, h.trans hp⟩
  | some p => exact .inr ⟨p, p, hp, h.trans hp, .stay p⟩

/-- Every section makes one step of the slot state machine at every file. -/
theorem slotStep_of_step {s s' : HandleState} {a : HandleAction} (hinv : s.Inv)
    (hstep : s.step a = some s') (g : FileId) : SlotStep s.lifecycle s'.lifecycle g := by
  cases a with
  | beginReceive h f =>
    simp only [step] at hstep
    split at hstep
    · simp at hstep
    · split at hstep
      · cases hstep; exact .of_eq rfl
      · rename_i l hl
        cases hstep
        obtain ⟨hready, rfl⟩ := beginReceive_eq_some.mp hl
        by_cases hg : g = f
        · subst hg
          exact .inr ⟨_, _, hready, by simp [phase?_setPhase, hready], .claim⟩
        · exact .of_eq (by simp [phase?_setPhase, hg])
  | beginPublication h =>
    simp only [step] at hstep
    split at hstep
    · rename_i f hlease
      split at hstep
      · cases hstep; exact .of_eq rfl
      · rename_i l hl
        cases hstep
        obtain ⟨hrecv, rfl⟩ := beginPublication_eq_some.mp hl
        by_cases hg : g = f
        · subst hg
          exact .inr ⟨_, _, hrecv, by simp [phase?_setPhase, hrecv], .publish⟩
        · exact .of_eq (by simp [phase?_setPhase, hg])
    · simp at hstep
  | dropLease h =>
    simp only [step] at hstep
    split at hstep
    case h_3 => simp at hstep
    all_goals
      rename_i f _
      cases hstep
      by_cases hg : g = f ∧ s.lifecycle.phase? f = some .receiving
      · obtain ⟨rfl, hrecv⟩ := hg
        exact .inr ⟨_, _, hrecv, by simp [phase?_dropLease, hrecv], .release⟩
      · exact .of_eq (by simp [phase?_dropLease, hg])
  | finish h =>
    simp only [step] at hstep
    split at hstep
    · rename_i f hpermit
      cases hstep
      -- the permit proves that its file is being published
      have hpub : s.lifecycle.phase? f = some .publishing := hinv.fits h _ hpermit
      by_cases hg : g = f
      · subst hg
        exact .inr ⟨_, _, hpub, by simp [phase?_finish, hpub], .finish⟩
      · exact .of_eq (by simp [phase?_finish, hg])
    · simp at hstep
  | dropPermit h =>
    simp only [step] at hstep
    split at hstep
    · rename_i f hpermit
      cases hstep
      have hpub : s.lifecycle.phase? f = some .publishing := hinv.fits h _ hpermit
      by_cases hg : g = f
      · subst hg
        exact .inr ⟨_, _, hpub, by simp [phase?_dropPermit, hpub], .abandon⟩
      · exact .of_eq (by simp [phase?_dropPermit, hg])
    · simp at hstep
  | tryCancelReceives =>
    cases hstep
    -- `Ready` and `Receiving` are cancelled, the other phases stay
    rcases phase?_tryCancelReceives_cases s.lifecycle g with heq | ⟨hr | hr, hc⟩
    · exact .of_eq heq
    · exact .inr ⟨_, _, hr, hc, .cancelReady⟩
    · exact .inr ⟨_, _, hr, hc, .cancelReceiving⟩

/-- `Published` and `Cancelled` absorb along every run. -/
theorem absorbing_of_exec {s s' : HandleState} {as : List HandleAction} (h : system.Reachable s)
    (hrun : system.exec s as = some s') {f : FileId} {p : ReceivePhase}
    (hp : p = .cancelled ∨ p = .published) (hf : s.lifecycle.phase? f = some p) :
    s'.lifecycle.phase? f = some p := by
  refine (system.exec_induction (fun t => t.Inv ∧ t.lifecycle.phase? f = some p) ?_
    ⟨inv_of_reachable h, hf⟩ hrun).2
  rintro t a t' ⟨hinv, ht⟩ hstep
  refine ⟨inv_step hinv hstep, ?_⟩
  rcases slotStep_of_step hinv hstep f with ⟨hnone, _⟩ | ⟨q, q', hq, hq', hphase⟩
  · cases ht.symm.trans hnone
  · obtain rfl : p = q := Option.some.inj (ht.symm.trans hq)
    rw [hq', hphase.absorbing hp]

/-! ## A cancelled session -/

/-- Every slot is `Cancelled` or `Published`. -/
def Closed (l : ReceiveLifecycle) : Prop :=
  ∀ f p, l.phase? f = some p → p = .cancelled ∨ p = .published

/-- No section reopens a closed session. -/
theorem closed_step {s s' : HandleState} {a : HandleAction} (hinv : s.Inv)
    (hstep : s.step a = some s') (h : Closed s.lifecycle) : Closed s'.lifecycle := by
  intro f p' hp'
  rcases slotStep_of_step hinv hstep f with ⟨_, hnone⟩ | ⟨q, q', hq, hq', hphase⟩
  · cases hp'.symm.trans hnone
  · obtain rfl : p' = q' := Option.some.inj (hp'.symm.trans hq')
    rw [hphase.absorbing (h f q hq)]
    exact h f q hq

/-- On a closed session neither `begin_receive` nor `begin_publication` succeeds. -/
theorem Closed.refuses {l : ReceiveLifecycle} (h : Closed l) (f : FileId) :
    l.beginReceive f = none ∧ l.beginPublication f = none := by
  rw [beginReceive_eq_none, beginPublication_eq_none]
  constructor <;> intro hp <;> rcases h f _ hp with hc | hc <;> cases hc

/-! ## Finished permits -/

/-- How many permits of file `f` the run of `as` from `s` finishes. -/
def finishCount (f : FileId) (s : HandleState) : List HandleAction → Nat
  | [] => 0
  | a :: as =>
    let here := match a with
      | .finish h => if s.handles h = some (.permit f) then 1 else 0
      | _ => 0
    match s.step a with
    | none => here
    | some s' => here + finishCount f s' as

/-- Once a file is published no permit of it is finished again. -/
theorem finishCount_of_published {f : FileId} {s : HandleState} (hinv : s.Inv)
    (hf : s.lifecycle.phase? f = some .published) (as : List HandleAction) :
    finishCount f s as = 0 := by
  induction as generalizing s with
  | nil => rfl
  | cons a as ih =>
    -- no live permit fits a published slot
    have hnone : ∀ h, s.handles h ≠ some (.permit f) := by
      intro h hh
      cases hf.symm.trans (hinv.fits h _ hh)
    have hzero : (match a with
        | .finish h => if s.handles h = some (.permit f) then 1 else 0
        | _ => 0 : Nat) = 0 := by
      split
      · rw [if_neg (hnone _)]
      · rfl
    simp only [finishCount, hzero, Nat.zero_add]
    split
    · rfl
    · rename_i s' hstep
      refine ih (inv_step hinv hstep) ?_
      rcases slotStep_of_step hinv hstep f with ⟨hn, _⟩ | ⟨q, q', hq, hq', hphase⟩
      · cases hf.symm.trans hn
      · obtain rfl : ReceivePhase.published = q := Option.some.inj (hf.symm.trans hq)
        rw [hq', hphase.absorbing (.inr rfl)]

/-- Along any run a file has at most one permit finished. -/
theorem finishCount_le_one {f : FileId} {s : HandleState} (hinv : s.Inv)
    (as : List HandleAction) : finishCount f s as ≤ 1 := by
  induction as generalizing s with
  | nil => exact Nat.zero_le 1
  | cons a as ih =>
    simp only [finishCount]
    split
    · split <;> (try split) <;> omega
    · rename_i s' hstep
      split
      · rename_i h
        split
        · rename_i hpermit
          -- this is the finish: afterwards the slot is published
          have hpub : s.lifecycle.phase? f = some .publishing := hinv.fits h _ hpermit
          have hinv' := inv_step hinv hstep
          simp only [step, hpermit, Option.some.injEq] at hstep
          subst hstep
          rw [finishCount_of_published hinv' (by simp [phase?_finish, hpub])]
        · have := ih (inv_step hinv hstep)
          omega
      · have := ih (inv_step hinv hstep)
        omega

/-- Handle `h` owns the slot of `f`: it is live, and the slot is `Receiving` or
    `Publishing`. -/
def Owns (s : HandleState) (h : HandleId) (f : FileId) : Prop :=
  s.Holds h f ∧
    (s.lifecycle.phase? f = some .receiving ∨ s.lifecycle.phase? f = some .publishing)

/-- Cancellation and publication of one session, over every set of files and every
    interleaving of the mutex sections: at most one handle owns a slot, `Published`
    and `Cancelled` absorb and a file is finished at most once, a refused cancellation
    changes nothing, and a successful one is final for every handle. -/
theorem cancel_publish_linearization {s₀ s : HandleState} {as : List HandleAction}
    (hinit : Init s₀) (hrun : system.exec s₀ as = some s) :
    (∀ h₁ h₂ f, s.Owns h₁ f → s.Owns h₂ f → h₁ = h₂) ∧
    ((∀ bs s' f p, system.exec s bs = some s' → p = .cancelled ∨ p = .published →
        s.lifecycle.phase? f = some p → s'.lifecycle.phase? f = some p) ∧
      ∀ f, finishCount f s₀ as ≤ 1) ∧
    ((s.lifecycle.tryCancelReceives.1 = false ↔ ∃ f, s.lifecycle.phase? f = some .publishing) ∧
      (s.lifecycle.tryCancelReceives.1 = false →
        s.lifecycle.tryCancelReceives.2 = s.lifecycle)) ∧
    (s.lifecycle.tryCancelReceives.1 = true →
      ∀ bs s', system.exec s (.tryCancelReceives :: bs) = some s' →
        (∀ f p, s'.lifecycle.phase? f = some p → p = .cancelled ∨ p = .published) ∧
        ∀ f, s'.lifecycle.beginReceive f = none ∧ s'.lifecycle.beginPublication f = none) := by
  have hreach : system.Reachable s := TransitionSystem.Reachable.exec (.init hinit) hrun
  have hinv := inv_of_reachable hreach
  refine ⟨fun h₁ h₂ f o₁ o₂ => hinv.unique h₁ h₂ f o₁.1 o₂.1, ⟨?_, ?_⟩, ⟨?_, ?_⟩, ?_⟩
  · exact fun bs s' f p hrun' hp hf => absorbing_of_exec hreach hrun' hp hf
  · exact fun f => finishCount_le_one (inv_init hinit) as
  · exact tryCancelReceives_fst_eq_false
  · intro hfalse
    obtain ⟨f, hf⟩ := tryCancelReceives_fst_eq_false.mp hfalse
    rw [tryCancelReceives_of_publishing hf]
  · intro htrue bs s' hrun'
    simp only [TransitionSystem.exec_cons] at hrun'
    -- the cancelling section closes the session, and no later section reopens it
    have hclosed : s'.Inv ∧ Closed s'.lifecycle := by
      refine system.exec_induction (fun t => t.Inv ∧ Closed t.lifecycle) ?_ ?_ hrun'
      · exact fun t a t' ht hstep => ⟨inv_step ht.1 hstep, closed_step ht.1 hstep ht.2⟩
      · exact ⟨inv_step (a := .tryCancelReceives) hinv rfl,
          fun f p hp => phase?_of_tryCancelReceives htrue hp⟩
    exact ⟨hclosed.2, hclosed.2.refuses⟩

/-- The race on a two-file session: the first file is published while the second, still
    receiving, is cancelled under its live lease. -/
theorem cancel_publish_linearization_two_files :
    let files : AssocMap FileId FileMetadata :=
      ⟨[(⟨"a"⟩, ⟨⟨"a"⟩, "a.bin", 1, "", none, none, none⟩),
        (⟨"b"⟩, ⟨⟨"b"⟩, "b.bin", 1, "", none, none, none⟩)], by decide⟩
    let as : List HandleAction :=
      [.beginReceive 0 ⟨"a"⟩, .beginReceive 1 ⟨"b"⟩, .beginPublication 0, .finish 0]
    ∃ s, system.exec ⟨Session.newLifecycle files, fun _ => none⟩ as = some s ∧
      (s.lifecycle.tryCancelReceives.1 = true → ∀ bs s',
        system.exec s (.tryCancelReceives :: bs) = some s' →
        ∀ f, s'.lifecycle.beginPublication f = none) ∧
      s.lifecycle.tryCancelReceives.1 = true ∧ s.handles 1 = some (.lease ⟨"b"⟩) := by
  intro files as
  refine ⟨_, rfl, fun htrue bs s' hrun' f => ?_, by decide, by decide⟩
  exact ((@cancel_publish_linearization _ _ as ⟨files, rfl⟩ rfl).2.2.2 htrue bs s' hrun').2 f |>.2

end HandleState

end LocalSend
