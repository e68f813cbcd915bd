import LocalSend.Core.Session

/-!
# What each mutex section of a session does

One lemma for each function on `ReceiveLifecycle`, stating the phase of every slot
afterwards. Every proof about leases, permits and cancellation goes through these and
never unfolds the functions.
-/

namespace LocalSend

namespace ReceiveLifecycle

theorem phase?_setPhase (l : ReceiveLifecycle) (f g : FileId) (p : ReceivePhase) :
    (l.setPhase f p).phase? g = if g = f then (l.phase? g).map fun _ => p else l.phase? g := by
  simp only [phase?, setPhase, AssocMap.get?_modify]
  split
  · simp [Option.map_map, Function.comp_def]
  · rfl

/-- Some slot is publishing, as a statement about phases. -/
theorem isPublishing_iff {l : ReceiveLifecycle} :
    l.isPublishing = true ↔ ∃ f, l.phase? f = some .publishing := by
  simp only [isPublishing, AssocMap.any_eq_true_iff, decide_eq_true_eq, phase?,
    Option.map_eq_some_iff]

/-- `begin_receive` succeeds exactly on a `Ready` slot and moves it to `Receiving`. -/
theorem beginReceive_eq_some {l l' : ReceiveLifecycle} {f : FileId} :
    l.beginReceive f = some l' ↔ l.phase? f = some .ready ∧ l' = l.setPhase f .receiving := by
  simp only [beginReceive, phase?]
  cases l.slots.get? f with
  | none => simp
  | some slot =>
    by_cases h : slot.phase = .ready
    · simp [h, eq_comm]
    · simp [h]

/-- `begin_publication` succeeds exactly on a `Receiving` slot and moves it to `Publishing`. -/
theorem beginPublication_eq_some {l l' : ReceiveLifecycle} {f : FileId} :
    l.beginPublication f = some l' ↔
      l.phase? f = some .receiving ∧ l' = l.setPhase f .publishing := by
  simp only [beginPublication, phase?]
  cases l.slots.get? f with
  | none => simp
  | some slot =>
    by_cases h : slot.phase = .receiving
    · simp [h, eq_comm]
    · simp [h]

theorem beginReceive_eq_none {l : ReceiveLifecycle} {f : FileId} :
    l.beginReceive f = none ↔ l.phase? f ≠ some .ready := by
  rw [Option.eq_none_iff_forall_ne_some]
  simp [beginReceive_eq_some]

theorem beginPublication_eq_none {l : ReceiveLifecycle} {f : FileId} :
    l.beginPublication f = none ↔ l.phase? f ≠ some .receiving := by
  rw [Option.eq_none_iff_forall_ne_some]
  simp [beginPublication_eq_some]

/-- Dropping a lease makes a `Receiving` slot `Ready` and touches nothing else. -/
theorem phase?_dropLease (l : ReceiveLifecycle) (f g : FileId) :
    (l.dropLease f).phase? g =
      if g = f ∧ l.phase? f = some .receiving then some .ready else l.phase? g := by
  simp only [dropLease]
  cases hslot : l.slots.get? f with
  | none => simp [phase?, hslot]
  | some slot =>
    have hphase : l.phase? f = some slot.phase := by simp [phase?, hslot]
    by_cases h : slot.phase = .receiving
    · simp only [h, if_true, phase?_setPhase, hphase, and_true]
      by_cases hg : g = f <;> simp [hg, hphase]
    · simp [h, hphase]

/-- Dropping a permit makes a `Publishing` slot `Ready` and touches nothing else. -/
theorem phase?_dropPermit (l : ReceiveLifecycle) (f g : FileId) :
    (l.dropPermit f).phase? g =
      if g = f ∧ l.phase? f = some .publishing then some .ready else l.phase? g := by
  simp only [dropPermit]
  cases hslot : l.slots.get? f with
  | none => simp [phase?, hslot]
  | some slot =>
    have hphase : l.phase? f = some slot.phase := by simp [phase?, hslot]
    by_cases h : slot.phase = .publishing
    · simp only [h, if_true, phase?_setPhase, hphase, and_true]
      by_cases hg : g = f <;> simp [hg, hphase]
    · simp [h, hphase]

/-- Finishing a permit makes the slot `Published` and touches nothing else. -/
theorem phase?_finish (l : ReceiveLifecycle) (f g : FileId) :
    (l.finish f).phase? g = if g = f then (l.phase? g).map fun _ => .published else l.phase? g :=
  phase?_setPhase l f g .published

/-! ## Cancellation -/

/-- The phase `try_cancel_receives` leaves in a slot of phase `p`. -/
def cancelPhase : ReceivePhase → ReceivePhase
  | .ready | .receiving => .cancelled
  | p => p

/-- `try_cancel_receives` refuses exactly when some slot is publishing. -/
theorem tryCancelReceives_fst_eq_false {l : ReceiveLifecycle} :
    l.tryCancelReceives.1 = false ↔ ∃ f, l.phase? f = some .publishing := by
  rw [← isPublishing_iff, tryCancelReceives]
  split <;> simp_all

/-- A refused cancellation changes nothing. -/
theorem tryCancelReceives_of_publishing {l : ReceiveLifecycle} {f : FileId}
    (h : l.phase? f = some .publishing) : l.tryCancelReceives = (false, l) := by
  rw [tryCancelReceives, if_pos (isPublishing_iff.mpr ⟨f, h⟩)]

/-- Cancelling succeeds when no slot is publishing. -/
theorem tryCancelReceives_fst_eq_true {l : ReceiveLifecycle} :
    l.tryCancelReceives.1 = true ↔ ∀ f, l.phase? f ≠ some .publishing := by
  rw [← Bool.not_eq_false, tryCancelReceives_fst_eq_false, not_exists]

/-- The lifecycle a successful cancellation leaves. -/
theorem tryCancelReceives_of_true {l : ReceiveLifecycle} (h : l.tryCancelReceives.1 = true) :
    l.tryCancelReceives =
      (true, { l with slots := l.slots.mapVal fun _ slot => cancelSlot slot }) := by
  simp only [tryCancelReceives] at h ⊢
  split at h
  · simp at h
  · rw [if_neg (by assumption)]

/-- A successful cancellation cancels every `Ready` and every `Receiving` slot. -/
theorem phase?_tryCancelReceives {l : ReceiveLifecycle} (h : l.tryCancelReceives.1 = true)
    (g : FileId) : l.tryCancelReceives.2.phase? g = (l.phase? g).map cancelPhase := by
  rw [tryCancelReceives_of_true h]
  simp only [phase?, AssocMap.get?_mapVal, Option.map_map]
  cases l.slots.get? g with
  | none => rfl
  | some slot =>
    obtain ⟨phase, cancellation⟩ := slot
    cases phase <;> rfl

/-- The phases `try_cancel_receives` can leave behind, whatever it answers. -/
theorem phase?_tryCancelReceives_cases (l : ReceiveLifecycle) (g : FileId) :
    l.tryCancelReceives.2.phase? g = l.phase? g ∨
      ((l.phase? g = some .ready ∨ l.phase? g = some .receiving) ∧
        l.tryCancelReceives.2.phase? g = some .cancelled) := by
  cases hc : l.tryCancelReceives.1 with
  | false =>
    obtain ⟨f, hf⟩ := tryCancelReceives_fst_eq_false.mp hc
    rw [tryCancelReceives_of_publishing hf]
    exact .inl rfl
  | true =>
    rw [phase?_tryCancelReceives hc]
    cases l.phase? g with
    | none => exact .inl rfl
    | some p => cases p <;> simp [cancelPhase]

/-- A successful cancellation leaves only `Cancelled` and `Published` slots. -/
theorem phase?_of_tryCancelReceives {l : ReceiveLifecycle} (h : l.tryCancelReceives.1 = true)
    {g : FileId} {p : ReceivePhase} (hp : l.tryCancelReceives.2.phase? g = some p) :
    p = .cancelled ∨ p = .published := by
  have hnot := tryCancelReceives_fst_eq_true.mp h g
  rw [phase?_tryCancelReceives h, Option.map_eq_some_iff] at hp
  obtain ⟨q, hq, rfl⟩ := hp
  cases q with
  | ready | receiving | cancelled => exact .inl rfl
  | published => exact .inr rfl
  | publishing => exact absurd hq hnot

end ReceiveLifecycle

/-- Every slot of a new session is `Ready`. -/
theorem phase?_newLifecycle (files : AssocMap FileId FileMetadata) (f : FileId) :
    (Session.newLifecycle files).phase? f = (files.get? f).map fun _ => .ready := by
  simp [ReceiveLifecycle.phase?, Session.newLifecycle, ReceiveSlot.new, Function.comp_def]

end LocalSend
