import LocalSend.Spec.SlotAttribution

/-!
# Cancelling a protected upload

The protected half has its own session, its own token and its own record of the running
upload. Its `/cancel` goes through the check of the standard half all the same: a peer
other than the last sender of a standard offer is turned away before anything of the
protected half is looked at, and that sender stays on record after its session is gone.

## Key results

- `handleCancel_of_blocks`, `cancelEffect_of_open`: what decides a cancel
- `protected_cancel_iff`: which pairs of states answer a cancel alike
-/

namespace LocalSend

/-- The observations of a protected upload's owner or of its cancellation token. -/
def Observation.ofOwner : Observation → Bool
  | .ownerCancelled _ | .ownerSignalled _ => true
  | _ => false

/-- What a cancel answers, and does to the protected half. -/
structure CancelEffect where
  status : StatusCode
  session : Option CrossCopyAuthorizedSession
  activeUpload : Option CrossCopyAuthorizedActiveUpload
  stopping : Bool
  owners : List Observation
deriving DecidableEq

namespace World

/-- The effect of a `/cancel` that names `x` on the protected half. -/
def cancelEffect (w : World) (peer : IpAddr) (x : SessionId) : CancelEffect :=
  let r := w.handleCancel peer (some x)
  { status := r.1
    session := r.2.state.crosscopyAuthorizedSession
    activeUpload := r.2.state.crosscopyAuthorizedActiveUpload
    stopping := r.2.state.crosscopyAuthorizedStopping
    owners := ((r.2.log.drop w.log.length).map Prod.snd).filter Observation.ofOwner }

/-- Two states agree on the protected half. -/
structure SameProtected (w₁ w₂ : World) : Prop where
  session : w₁.state.crosscopyAuthorizedSession = w₂.state.crosscopyAuthorizedSession
  activeUpload : w₁.state.crosscopyAuthorizedActiveUpload = w₂.state.crosscopyAuthorizedActiveUpload
  stopping : w₁.state.crosscopyAuthorizedStopping = w₂.state.crosscopyAuthorizedStopping

/-- The protected session or the recorded running upload has id `x`. -/
def Protected (w : World) (x : SessionId) : Prop :=
  (∃ s, w.state.crosscopyAuthorizedSession = some s ∧ s.sessionId = x) ∨
    ∃ a, w.state.crosscopyAuthorizedActiveUpload = some a ∧ a.sessionId = x

/-- The sender on record is another peer. -/
def Blocks (w : World) (peer : IpAddr) : Prop :=
  ∃ ip, w.state.currentSessionFrom = some ip ∧ ip ≠ peer

/-- A peer that is not the sender on record is turned away, whatever it names. -/
theorem handleCancel_of_blocks {w : World} {peer : IpAddr} (h : w.Blocks peer) (x : SessionId) :
    w.handleCancel peer (some x) = (.forbidden, w) := by
  obtain ⟨ip, hfrom, hne⟩ := h
  simp [handleCancel, hfrom, hne]

/-- What a cancel does to the protected half, when it is not turned away. -/
def protectedCancel (session : Option CrossCopyAuthorizedSession)
    (active : Option CrossCopyAuthorizedActiveUpload) (x : SessionId) :
    Option CrossCopyAuthorizedSession × List Observation :=
  match session.filter fun s => s.sessionId = x with
  | some s => (none, [.ownerCancelled s.owner])
  | none =>
    match active.filter fun a => a.sessionId = x with
    | some a => (session, [.ownerSignalled a.owner])
    | none => (session, [])

/-- Where nothing blocks it, a cancel of a protected upload is decided by the protected half. -/
theorem cancelEffect_of_open {w : World} {peer : IpAddr} {x : SessionId} (h : ¬w.Blocks peer)
    (hx : w.Protected x) :
    w.cancelEffect peer x =
      let r := protectedCancel w.state.crosscopyAuthorizedSession
        w.state.crosscopyAuthorizedActiveUpload x
      ⟨.ok, r.1, w.state.crosscopyAuthorizedActiveUpload, w.state.crosscopyAuthorizedStopping, r.2⟩ := by
  have hopen : (!(w.state.currentSessionFrom.any fun ip => ip = peer) &&
      w.state.currentSessionFrom.isSome) = false := by
    cases hfrom : w.state.currentSessionFrom with
    | none => rfl
    | some ip =>
      have hip : ip = peer := Classical.not_not.mp fun hne => h ⟨ip, hfrom, hne⟩
      simp [hip]
  unfold cancelEffect handleCancel protectedCancel
  dsimp only
  rw [hopen]
  cases hsession : w.state.crosscopyAuthorizedSession.filter fun s => s.sessionId = x with
  | some s => simp [observe, Observation.ofOwner]
  | none =>
    cases hactive : w.state.crosscopyAuthorizedActiveUpload.filter fun a => a.sessionId = x with
    | some a => simp [observe, Observation.ofOwner]
    | none =>
      -- `x` is not protected
      simp only [Option.filter_eq_none_iff, decide_eq_true_eq] at hsession hactive
      rcases hx with ⟨s, hs, hid⟩ | ⟨a, ha, hid⟩
      · exact absurd hid (hsession s hs)
      · exact absurd hid (hactive a ha)

theorem cancelEffect_of_blocks {w : World} {peer : IpAddr} (h : w.Blocks peer) (x : SessionId) :
    w.cancelEffect peer x = ⟨.forbidden, w.state.crosscopyAuthorizedSession,
      w.state.crosscopyAuthorizedActiveUpload, w.state.crosscopyAuthorizedStopping, []⟩ := by
  unfold cancelEffect
  rw [handleCancel_of_blocks h x]
  simp

/-- Two states that agree on the protected half answer a cancel of a protected upload alike,
    and do the same to it, exactly when the sender on record blocks the peer in both of them
    or in neither. -/
theorem protected_cancel_iff (w₁ w₂ : World) (hsame : SameProtected w₁ w₂) (peer : IpAddr)
    (x : SessionId) (hx : w₁.Protected x) :
    w₁.cancelEffect peer x = w₂.cancelEffect peer x ↔ (w₁.Blocks peer ↔ w₂.Blocks peer) := by
  have hx' : w₂.Protected x := by
    unfold Protected at hx ⊢
    rw [← hsame.session, ← hsame.activeUpload]
    exact hx
  by_cases h₁ : w₁.Blocks peer <;> by_cases h₂ : w₂.Blocks peer
  · rw [cancelEffect_of_blocks h₁, cancelEffect_of_blocks h₂, hsame.session, hsame.activeUpload,
      hsame.stopping]
    exact iff_of_true rfl (iff_of_true h₁ h₂)
  · rw [cancelEffect_of_blocks h₁, cancelEffect_of_open h₂ hx']
    refine iff_of_false (fun h => ?_) fun h => h₂ (h.mp h₁)
    cases congrArg CancelEffect.status h
  · rw [cancelEffect_of_open h₁ hx, cancelEffect_of_blocks h₂]
    refine iff_of_false (fun h => ?_) fun h => h₁ (h.mpr h₂)
    cases congrArg CancelEffect.status h
  · rw [cancelEffect_of_open h₁ hx, cancelEffect_of_open h₂ hx', hsame.session, hsame.activeUpload,
      hsame.stopping]
    exact iff_of_true rfl (iff_of_false h₁ h₂)

end World

namespace Scenario

/-- A protected session as the protected prepare installs it. -/
def protectedSession : CrossCopyAuthorizedSession := ⟨⟨"protected"⟩, ⟨"f"⟩, ⟨"p"⟩, 0, 0⟩

/-- Alice's offer has been declined before the protected session is installed. -/
def protectedAfterDecline : List Action :=
  declining ++ [.prepare 0 .decline, .installCrosscopy protectedSession]

end Scenario

namespace World

/-- On a fresh receiver and on one that has declined another offer, a cancel of the protected
    session by the peer that offer came from. -/
theorem protected_cancel_iff_declined :
    (Scenario.world [.installCrosscopy Scenario.protectedSession]).cancelEffect Scenario.alice
        ⟨"protected"⟩ =
      (Scenario.world Scenario.protectedAfterDecline).cancelEffect Scenario.alice ⟨"protected"⟩ ↔
    ((Scenario.world [.installCrosscopy Scenario.protectedSession]).Blocks Scenario.alice ↔
      (Scenario.world Scenario.protectedAfterDecline).Blocks Scenario.alice) :=
  protected_cancel_iff _ _ ⟨by decide, by decide, by decide⟩ _ _
    (.inl ⟨Scenario.protectedSession, by decide, by decide⟩)

/-- Alice's offer was declined, and Bob cannot cancel his protected upload any more. -/
theorem protected_cancel_after_decline :
    ¬∀ (sha : List UInt8 → String) (w₁ w₂ : World), (receiver sha).Reachable w₁ →
      (receiver sha).Reachable w₂ → SameProtected w₁ w₂ → ∀ (peer : IpAddr) (x : SessionId),
        w₁.Protected x → w₁.cancelEffect peer x = w₂.cancelEffect peer x := by
  intro h
  have heffect := h Scenario.digest (Scenario.world [.installCrosscopy Scenario.protectedSession])
    (Scenario.world Scenario.protectedAfterDecline) (Scenario.reachable_world _ (by decide))
    (Scenario.reachable_world _ (by decide)) ⟨by decide, by decide, by decide⟩ Scenario.bob
    ⟨"protected"⟩ (.inl ⟨Scenario.protectedSession, by decide, by decide⟩)
  revert heffect
  decide

end World

end LocalSend
