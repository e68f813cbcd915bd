import LocalSend.Spec.SlotOwnership

/-!
# The three fields of the slot

`current_session`, `current_session_from` and `awaiting_consent` describe one slot. They
are written together when a prepare reserves it, when a `/cancel` frees it and when a
release task does; the refuse, decline and text paths, the last upload of a session, the
sweep and `stop` clear the first and leave the other two behind. `KeepsAttribution` says,
action by action and in terms of the world before it, when that loses nothing.

## Key results

- `coherent_step`: a step that keeps the attribution leaves the fields coherent
- `keepsAttribution_of_coherent`: any other step does not
- `slot_attribution`: both along every run, and what `/cancel` can rely on then
-/

namespace LocalSend

/-- No move changes the peer a handler serves. -/
theorem PrepareMove.peer_eq {w : World} {t t' : PrepareTask} {a : PrepareAction}
    (hmove : PrepareMove w (some t) a t') : t'.peer = t.peer := by
  cases hmove with
  | reserved =>
    unfold PrepareTask.reservedAs
    split <;> rfl
  | _ => rfl

namespace World

/-- The session with id `s` was created by a prepare request from `ip`. -/
def SenderOf (w : World) (s : SessionId) (ip : IpAddr) : Prop :=
  ∃ h t, w.prepares h = some t ∧ t.Owns s ∧ t.peer = ip

/-- The three fields agree: the recorded sender is that of the session in the slot, and
    what awaits consent is the placeholder in the slot. -/
structure Coherent (w : World) : Prop where
  sender : ∀ ip, w.state.currentSessionFrom = some ip ↔
    ∃ s, w.state.currentSession = some s ∧ w.SenderOf s.id ip
  awaiting : ∀ r, w.state.awaitingConsent = some r →
    (∃ s, w.state.currentSession = some s ∧ s.id = r.sessionId) ∧
      w.state.currentSessionFrom = some r.fromIp

/-- A `/cancel` with this session id from this peer takes the session out of the slot. -/
def CancelHits (w : World) (peer : IpAddr) (sid : SessionId) : Prop :=
  w.state.currentSessionFrom = some peer ∧
  (w.state.crosscopyAuthorizedSession.filter fun s => s.sessionId = sid) = none ∧
  (w.state.crosscopyAuthorizedActiveUpload.filter fun u => u.sessionId = sid) = none ∧
  ∃ s, w.state.currentSession = some s ∧ s.id = sid ∧ w.Cancellable sid

/-- The next action loses no attribution: the paths that clear only `current_session` find
    the slot free already, an accepted session goes where its own placeholder was, and no
    `/cancel` names a session that awaits consent. -/
def KeepsAttribution (w : World) : Action → Prop
  | .prepare _ .refuse | .prepare _ .decline | .prepare _ .deliverText =>
    w.state.currentSession = none
  | .prepare h .install => ∀ t, w.prepares h = some t →
    w.state.currentSessionFrom = some t.peer ∧ w.state.awaitingConsent = none
  | .upload u .record => ∀ t s, w.Recording u t s → (s.markReceived t.fileId w.now).1 = false
  | .cancel peer (some sid) => w.CancelHits peer sid → w.state.awaitingConsent = none
  | .sweep => ∀ s, w.state.currentSession = some s →
    s.isTimedOut w.now w.state.sessionTimeout = true → ¬w.Cancellable s.id
  | .stop => ∀ s, w.state.currentSession = some s → ¬w.Cancellable s.id
  | _ => True

/-! ## Senders along a step -/

/-- The sender of a session is fixed when its id is drawn. -/
theorem senderOf_step {sha : List UInt8 → String} {w w' : World} {a : Action}
    (hinv : w.PrepareInv) (hstep : w.step sha a = some w') {s : SessionId} (hs : s ∈ w.issued)
    (ip : IpAddr) : w'.SenderOf s ip ↔ w.SenderOf s ip := by
  constructor
  · rintro ⟨h, t', ht', hown, hpeer⟩
    rcases prepares_before hstep ht' with ht | ⟨b, rfl, hmove, _⟩
    · exact ⟨h, t', ht, hown, hpeer⟩
    · rcases hmove.owns hown with ⟨t, ht, hown'⟩ | ⟨hfresh, _⟩
      · rw [ht] at hmove
        exact ⟨h, t, ht, hown', hmove.peer_eq.symm.trans hpeer⟩
      · exact absurd hs hfresh
  · rintro ⟨h, t, ht, hown, hpeer⟩
    rcases prepares_of_step hstep ht with ⟨ht', _⟩ | ⟨b, t', _, _, ht', hmove⟩
    · exact ⟨h, t, ht', hown, hpeer⟩
    · exact ⟨h, t', ht', hmove.owns_mono (hinv.wf h t ht) hown, hmove.peer_eq.trans hpeer⟩

/-- A session has one sender. -/
theorem PrepareInv.senderOf_unique {w : World} (hinv : w.PrepareInv) {s : SessionId}
    {ip ip' : IpAddr} (h : w.SenderOf s ip) (h' : w.SenderOf s ip') : ip = ip' := by
  obtain ⟨g, t, ht, hown, rfl⟩ := h
  obtain ⟨g', t', ht', hown', rfl⟩ := h'
  obtain rfl : g = g' := hinv.owner g g' t t' s ht ht' hown hown'
  cases ht.symm.trans ht'
  rfl

/-- The session in the slot has a sender. -/
theorem PrepareInv.exists_senderOf {w : World} (hinv : w.PrepareInv) {s : Session}
    (hs : w.state.currentSession = some s) : ∃ ip, w.SenderOf s.id ip := by
  obtain ⟨h, t, ht, hplaced⟩ := hinv.placed s hs
  exact ⟨t.peer, h, t, ht, hplaced.imp id fun hacc => hacc.1, rfl⟩

/-- In a coherent slot without a recorded sender there is no session. -/
theorem Coherent.session_none {w : World} (hinv : w.PrepareInv) (hc : w.Coherent)
    (hfrom : w.state.currentSessionFrom = none) : w.state.currentSession = none := by
  cases hs : w.state.currentSession with
  | none => rfl
  | some s =>
    obtain ⟨ip, hsender⟩ := hinv.exists_senderOf hs
    have h := (hc.sender ip).mpr ⟨s, hs, hsender⟩
    cases hfrom.symm.trans h

/-- In a coherent slot without a session nothing is recorded. -/
theorem Coherent.sender_none {w : World} (hc : w.Coherent)
    (hs : w.state.currentSession = none) :
    w.state.currentSessionFrom = none ∧ w.state.awaitingConsent = none := by
  have hfrom : w.state.currentSessionFrom = none := by
    cases hfrom : w.state.currentSessionFrom with
    | none => rfl
    | some ip =>
      obtain ⟨s, hs', _⟩ := (hc.sender ip).mp hfrom
      cases hs.symm.trans hs'
  refine ⟨hfrom, ?_⟩
  cases hr : w.state.awaitingConsent with
  | none => rfl
  | some r => cases hfrom.symm.trans (hc.awaiting r hr).2

/-- The idle slot is coherent. -/
theorem coherent_of_idle {w : World} (h : w.slot = ⟨none, none, none⟩) : w.Coherent := by
  simp only [slot, Slot.mk.injEq] at h
  constructor
  · intro ip
    simp [h.1, h.2.1]
  · intro r hr
    cases h.2.2.symm.trans hr

/-- A step that leaves the sender and keeps the id of the session keeps the slot
    coherent, when at most the consent reservation goes. -/
theorem Coherent.of_slot {sha : List UInt8 → String} {w w' : World} {a : Action}
    (hinv : w.PrepareInv) (hc : w.Coherent) (hstep : w.step sha a = some w')
    (hsession : w'.state.currentSession.map Session.id = w.state.currentSession.map Session.id)
    (hsender : w'.state.currentSessionFrom = w.state.currentSessionFrom)
    (hawait : w'.state.awaitingConsent = w.state.awaitingConsent ∨
      w'.state.awaitingConsent = none) : w'.Coherent := by
  -- a step that keeps the slot's id keeps every fact that is about the id
  have hids : ∀ {v v' : World}, v'.state.currentSession.map Session.id =
      v.state.currentSession.map Session.id → ∀ s, v.state.currentSession = some s →
        ∃ s', v'.state.currentSession = some s' ∧ s'.id = s.id := by
    intro v v' hv s hs
    rw [hs, Option.map_some, Option.map_eq_some_iff] at hv
    exact hv
  constructor
  -- ids are drawn once, so a session has one sender before and after the step
  · intro ip
    rw [hsender, hc.sender ip]
    constructor
    · rintro ⟨s, hs, hown⟩
      obtain ⟨s', hs', hid⟩ := hids hsession s hs
      refine ⟨s', hs', ?_⟩
      rw [hid]
      exact (senderOf_step hinv hstep (hinv.issued_current hs) ip).mpr hown
    · rintro ⟨s', hs', hown⟩
      obtain ⟨s, hs, hid⟩ := hids hsession.symm s' hs'
      refine ⟨s, hs, ?_⟩
      rw [← hid] at hown
      exact (senderOf_step hinv hstep (hinv.issued_current hs) ip).mp hown
  -- the offer that awaits consent is in the slot, and so is its sender
  · intro r hr
    cases hawait with
    | inl hsame =>
      obtain ⟨⟨s, hs, hid⟩, hfrom⟩ := hc.awaiting r (hsame ▸ hr)
      obtain ⟨s', hs', hid'⟩ := hids hsession s hs
      exact ⟨⟨s', hs', hid'.trans hid⟩, hsender.trans hfrom⟩
    | inr hnone => cases hnone.symm.trans hr

/-- A slot that a prepare has just filled with a session of its own is coherent, when the
    recorded sender is its peer. -/
theorem coherent_of_filled {w : World} (hinv : w.PrepareInv) {h : TaskId} {t : PrepareTask}
    {s : Session} (ht : w.prepares h = some t) (hown : t.Owns s.id)
    (hs : w.state.currentSession = some s) (hfrom : w.state.currentSessionFrom = some t.peer)
    (hawait : ∀ r, w.state.awaitingConsent = some r → s.id = r.sessionId ∧ t.peer = r.fromIp) :
    w.Coherent := by
  have hsender : w.SenderOf s.id t.peer := ⟨h, t, ht, hown, rfl⟩
  constructor
  · intro ip
    rw [hfrom, Option.some.injEq]
    constructor
    · rintro rfl
      exact ⟨s, hs, hsender⟩
    · rintro ⟨s', hs', hsender'⟩
      cases hs.symm.trans hs'
      exact hinv.senderOf_unique hsender hsender'
  · intro r hr
    obtain ⟨hid, hpeer⟩ := hawait r hr
    exact ⟨⟨s, hs, hid⟩, by rw [hfrom, hpeer]⟩

/-! ## One step -/

/-- A step that keeps the attribution leaves the slot coherent. -/
theorem coherent_step {sha : List UInt8 → String} {w w' : World} {a : Action}
    (hinv : w.PrepareInv) (hc : w.Coherent) (hstep : w.step sha a = some w')
    (hkeeps : w.KeepsAttribution a) : w'.Coherent := by
  have hinv' := prepareInv_step hinv hstep
  have hfields : ∀ x : Slot, w'.slot = x → w'.state.currentSession = x.session ∧
      w'.state.currentSessionFrom = x.sender ∧ w'.state.awaitingConsent = x.awaiting := by
    rintro x rfl
    exact ⟨rfl, rfl, rfl⟩
  cases slotMove_of_step hstep with
  | keep slot =>
    obtain ⟨hs, hfrom, hawait⟩ := hfields _ slot
    -- the reserve step writes the session, its sender and the offer together
    exact hc.of_slot hinv hstep (congrArg _ hs) hfrom (.inl hawait)
  | @place h t id token _ ht live phase fresh free after slot =>
    obtain ⟨hs, hfrom, hawait⟩ := hfields _ slot
    have hres : (t.reservedAs id w.state.autoAccept).reserved = some id ∧
        (t.reservedAs id w.state.autoAccept).peer = t.peer := by
      unfold PrepareTask.reservedAs
      split <;> exact ⟨rfl, rfl⟩
    -- what awaits consent now is the session that was placed
    refine coherent_of_filled hinv' after (.inl hres.1) hs (by rw [hfrom, hres.2]) fun r hr => ?_
    cases hawait.symm.trans hr
    exact ⟨rfl, hres.2⟩
  | consented _ _ _ _ _ slot =>
    obtain ⟨hs, hfrom, hawait⟩ := hfields _ slot
    exact hc.of_slot hinv hstep (congrArg _ hs) hfrom (.inr hawait)
  -- these empty the slot and leave the sender: the condition says that it was empty
  | refused _ _ _ slot | declined _ _ _ slot | delivered _ _ _ slot =>
    obtain ⟨hs, hfrom, hawait⟩ := hfields _ slot
    have hfree : w.state.currentSession = none := hkeeps
    exact hc.of_slot hinv hstep (by rw [hs, hfree]) hfrom (.inl hawait)
  | @installed h t s _ ht live phase slot =>
    obtain ⟨hs, hfrom, hawait⟩ := hfields _ slot
    -- the condition: the sender is still the handler's own, and nothing awaits consent
    obtain ⟨hpeer, hnone⟩ := hkeeps t ht
    have hwf := hinv.wf h t ht
    simp only [PrepareTask.Wf, phase] at hwf
    rcases prepares_of_step hstep ht with ⟨_, hother⟩ | ⟨b, t', hb, _, ht', hmove⟩
    · exact absurd rfl (hother _)
    · refine coherent_of_filled hinv' ht' (hmove.owns_mono (hinv.wf h t ht) (.inr hwf.2.1)) hs ?_ ?_
      · rw [hmove.peer_eq]
        exact hfrom.trans hpeer
      · exact fun r hr => (by cases (hawait.trans hnone).symm.trans hr)
  | withdrawn _ _ _ _ slot => exact coherent_of_idle slot
  | withdrawnLate _ own hne _ =>
    obtain ⟨⟨s, hs, hid⟩, _⟩ := hc.awaiting _ own
    exact absurd hid (hne s hs)
  -- whichever test let the sender in, it is the recorded one
  | @cancelled peer s _ hs sender unprotected inactive cancellable slot =>
    have hfrom : w.state.currentSessionFrom = some peer := by
      cases sender with
      | inl h => exact h
      | inr h => cases (hc.session_none hinv h).symm.trans hs
    have hnone := hkeeps ⟨hfrom, unprotected, inactive, s, hs, rfl, cancellable⟩
    apply coherent_of_idle
    rw [slot]
    show Slot.mk none none w.state.awaitingConsent = _
    rw [hnone]
  -- the sweep, the stop and the last file empty the slot without its sender
  | swept hs timed cancellable => exact absurd cancellable (hkeeps _ hs timed)
  | stopped hs cancellable => exact absurd cancellable (hkeeps _ hs)
  | @recorded u t s _ hrec more slot =>
    obtain ⟨hs, hfrom, hawait⟩ := hfields _ slot
    refine hc.of_slot hinv hstep ?_ hfrom (.inl hawait)
    rw [hs, hrec.2.2.2.1]
    exact congrArg some (markReceived_id ..).1
  | completed hrec last => cases last.symm.trans (hkeeps _ _ hrec)

/-- Clearing only the session of a coherent slot leaves it coherent only if there was none. -/
theorem Coherent.session_none_of_cleared {w w' : World} (hinv : w.PrepareInv) (hc : w.Coherent)
    (hc' : w'.Coherent) (hslot : w'.slot = { w.slot with session := none }) :
    w.state.currentSession = none := by
  have hs' : w'.state.currentSession = none := congrArg Slot.session hslot
  have hfrom' : w'.state.currentSessionFrom = w.state.currentSessionFrom :=
    congrArg Slot.sender hslot
  exact hc.session_none hinv (hfrom'.symm.trans (hc'.sender_none hs').1)

theorem slot_sweep_timed {w : World} {s : Session} (hs : w.state.currentSession = some s)
    (htimed : s.isTimedOut w.now w.state.sessionTimeout = true) (hc : w.Cancellable s.id) :
    w.sessionSweep.slot = { w.slot with session := none } := by
  rw [sessionSweep, slot_sweepCrosscopy]
  rcases tryClearSlot_cases w s with ⟨_, heq⟩ | ⟨hfalse, _⟩
  · simp only [sweepStandard, hs, htimed, heq, if_true]
    rfl
  · cases hfalse.symm.trans hc

theorem slot_stop_some {w : World} {s : Session} (hs : w.state.currentSession = some s)
    (hc : w.Cancellable s.id) : w.stop.slot = { w.slot with session := none } := by
  have hstop : w.stop =
      ({ w with state.crosscopyAuthorizedStopping := true }.tryClearSlot s).2.stopCrosscopy := by
    simp only [stop, hs]
  rw [hstop, slot_stopCrosscopy]
  rcases tryClearSlot_cases { w with state.crosscopyAuthorizedStopping := true } s with
    ⟨_, heq⟩ | ⟨hfalse, _⟩
  · rw [heq]
    rfl
  · cases hfalse.symm.trans hc

theorem handleCancel_hit {w : World} {peer : IpAddr} {sid : SessionId}
    (h : w.CancelHits peer sid) : (w.handleCancel peer (some sid)).1 = .ok ∧
      (w.handleCancel peer (some sid)).2.slot =
        { w.slot with session := none, sender := none } := by
  obtain ⟨hfrom, hunprotected, hinactive, s, hs, rfl, hc⟩ := h
  have hc' : (w.tryCancelReceives s.id).1 = true := hc
  have hfilter : (w.state.currentSession.filter fun c => c.id = s.id) = some s := by simp [hs]
  have heq : w.handleCancel peer (some s.id) =
      (.ok, { (w.tryCancelReceives s.id).2.trySend (.sessionDone s.id) with
        state.currentSession := none, state.currentSessionFrom := none }) := by
    simp [handleCancel, hfrom, hunprotected, hinactive, hfilter, hc']
  rw [heq]
  exact ⟨rfl, rfl⟩

/-- A step after which the slot is coherent has kept the attribution. -/
theorem keepsAttribution_of_coherent {sha : List UInt8 → String} {w w' : World} {a : Action}
    (hinv : w.PrepareInv) (hc : w.Coherent) (hstep : w.step sha a = some w')
    (hc' : w'.Coherent) : w.KeepsAttribution a := by
  cases a with
  | prepare h b =>
    -- a step that empties the slot with a sender left breaks coherence after it
    cases b with
    | refuse =>
      cases step_prepare hstep with
      | refuse => exact hc.session_none_of_cleared hinv hc' (slot_refuse ..)
    | decline =>
      cases step_prepare hstep with
      | decline => exact hc.session_none_of_cleared hinv hc' (slot_decline ..)
    | deliverText =>
      cases step_prepare hstep with
      | deliverText => exact hc.session_none_of_cleared hinv hc' (slot_deliverText ..)
    | install =>
      intro t ht
      -- the step of the offer that installs its session
      have hinv' := prepareInv_step hinv hstep
      obtain ⟨t', ht', hmove⟩ : ∃ t', w'.prepares h = some t' ∧
          PrepareMove w (some t) .install t' := by
        rcases prepares_of_step hstep ht with ⟨_, hother⟩ | ⟨b, t', hb, _, ht', hmove⟩
        · exact absurd rfl (hother _)
        · cases hb
          exact ⟨t', ht', hmove⟩
      cases step_prepare hstep with
      | @install u s hu live phase =>
        cases ht.symm.trans hu
        have hslot := slot_install w h t s
        have hwf := hinv.wf h t ht
        simp only [PrepareTask.Wf, phase] at hwf
        have hs : (w.install h t s).state.currentSession = some s := congrArg Slot.session hslot
        have hfrom : (w.install h t s).state.currentSessionFrom = w.state.currentSessionFrom :=
          congrArg Slot.sender hslot
        have hawait : (w.install h t s).state.awaitingConsent = w.state.awaitingConsent :=
          congrArg Slot.awaiting hslot
        constructor
        -- the recorded sender is the installed session's, and that is the handler's peer
        · obtain ⟨ip, hsender⟩ := hinv'.exists_senderOf hs
          have hown : t'.Owns s.id := hmove.owns_mono (hinv.wf h t ht) (.inr hwf.2.1)
          obtain rfl : ip = t.peer :=
            hinv'.senderOf_unique hsender ⟨h, t', ht', hown, hmove.peer_eq⟩
          exact hfrom.symm.trans ((hc'.sender _).mpr ⟨s, hs, hsender⟩)
        · cases hr : w.state.awaitingConsent with
          | none => rfl
          | some r =>
            -- what awaits consent is a placeholder, and `s` is an accepted session
            obtain ⟨⟨s', hs', hid⟩, _⟩ := hc'.awaiting r (hawait.trans hr)
            cases hs.symm.trans hs'
            obtain ⟨g, v, hv, hres, _⟩ := hinv.awaiting r hr
            rw [← hid] at hres
            obtain rfl : h = g := hinv.owner h g t v _ ht hv (.inr hwf.2.1) (.inl hres)
            cases ht.symm.trans hv
            exact absurd hwf.2.1 (hinv.apart h t _ ht hres)
    | _ => trivial
  | upload u b =>
    cases b with
    | record =>
      intro t s hrec
      cases step_upload hstep with
      | @record v path hv live phase =>
        cases hrec.1.symm.trans hv
        cases hlast : (s.markReceived t.fileId w.now).1 with
        | false => rfl
        | true =>
          have hslot := slot_record path hrec
          rw [hlast, if_pos rfl] at hslot
          have hnone := hc.session_none_of_cleared hinv hc' hslot
          cases hnone.symm.trans hrec.2.2.2.1
    | _ => trivial
  | cancel peer sessionId =>
    cases sessionId with
    | none => trivial
    | some sid =>
      intro hhit
      cases hstep
      have hslot := (handleCancel_hit hhit).2
      have hs' : (w.handleCancel peer (some sid)).2.state.currentSession = none :=
        congrArg Slot.session hslot
      have hawait := congrArg Slot.awaiting hslot
      exact hawait.symm.trans (hc'.sender_none hs').2
  | sweep =>
    intro s hs htimed hcancellable
    cases hstep
    have hnone := hc.session_none_of_cleared hinv hc' (slot_sweep_timed hs htimed hcancellable)
    cases hnone.symm.trans hs
  | stop =>
    intro s hs hcancellable
    cases hstep
    have hnone := hc.session_none_of_cleared hinv hc' (slot_stop_some hs hcancellable)
    cases hnone.symm.trans hs
  | _ => trivial

/-! ## Every run -/

/-- No protected upload has this session id. -/
def Unprotected (w : World) (sid : SessionId) : Prop :=
  (w.state.crosscopyAuthorizedSession.filter fun s => s.sessionId = sid) = none ∧
    (w.state.crosscopyAuthorizedActiveUpload.filter fun u => u.sessionId = sid) = none

/-- `/cancel` with a session id lets exactly the sender of the live session cancel it:
    every other peer is answered 403, and the sender's takes the session out of the slot,
    or is answered 409 while one of its files is publishing. -/
def OnlySenderCancels (w : World) : Prop :=
  ∀ s ip, w.state.currentSession = some s → w.SenderOf s.id ip →
    (∀ peer sid, peer ≠ ip → w.handleCancel peer (some sid) = (.forbidden, w)) ∧
    (w.Unprotected s.id → w.Cancellable s.id →
      (w.handleCancel ip (some s.id)).1 = .ok ∧
      (w.handleCancel ip (some s.id)).2.slot = { w.slot with session := none, sender := none }) ∧
    (w.Unprotected s.id → ¬w.Cancellable s.id →
      w.handleCancel ip (some s.id) = (.conflict, w))

/-- What `/cancel` can rely on in a coherent slot. -/
theorem Coherent.onlySenderCancels {w : World} (hc : w.Coherent) : w.OnlySenderCancels := by
  intro s ip hs hsender
  have hfrom : w.state.currentSessionFrom = some ip := (hc.sender ip).mpr ⟨s, hs, hsender⟩
  refine ⟨?_, ?_, ?_⟩
  · intro peer sid hne
    have hclaim : (ip = peer) = False := by simp [hne.symm]
    simp [handleCancel, hfrom, hclaim]
  · rintro ⟨hunprotected, hinactive⟩ hcancellable
    exact handleCancel_hit ⟨hfrom, hunprotected, hinactive, s, hs, rfl, hcancellable⟩
  · rintro ⟨hunprotected, hinactive⟩ hnot
    have hc' : (w.tryCancelReceives s.id).1 = false := Bool.not_eq_true _ ▸ hnot
    have hfilter : (w.state.currentSession.filter fun c => c.id = s.id) = some s := by simp [hs]
    simp [handleCancel, hfrom, hunprotected, hinactive, hfilter, hc',
      tryCancelReceives_of_false hc']

/-- The slot is coherent in every state of a run exactly when every action of the run keeps
    the attribution, and then only the sender of the session in the slot can cancel it. -/
theorem slot_attribution (sha : List UInt8 → String) (c : ServerConfig) (as : List Action) :
    (receiver sha).Always (fun _ _ w' => w'.Coherent ∧ w'.OnlySenderCancels) (World.start c) as ↔
      (receiver sha).Always (fun w a _ => w.KeepsAttribution a) (World.start c) as := by
  refine (receiver sha).always_iff_of_invariant (fun w => w.PrepareInv ∧ w.Coherent) ?_
    ⟨prepareInv_start c, coherent_of_idle rfl⟩
  rintro w a w' ⟨hinv, hc⟩ hstep
  have hinv' : w'.PrepareInv := prepareInv_step hinv hstep
  refine ⟨⟨?_, ?_⟩, fun hc' => ⟨hinv', hc'.1⟩⟩
  · exact fun hc' => keepsAttribution_of_coherent hinv hc hstep hc'.1
  · intro hkeeps
    have hc' : w'.Coherent := coherent_step hinv hc hstep hkeeps
    exact ⟨hc', hc'.onlySenderCancels⟩

/-- Alice's offer is declined, and the slot still names her as its sender. -/
theorem slot_attribution_after_decline :
    ¬∀ (sha : List UInt8 → String) (c : ServerConfig) (as : List Action),
      (receiver sha).Always (fun _ _ w' => w'.Coherent) (World.start c) as := by
  intro h
  refine (receiver Scenario.digest).not_always_of_test (World.start Scenario.config)
    Scenario.declining (.prepare 0 .decline)
    (fun _ w' => w'.state.currentSession.isNone && w'.state.currentSessionFrom.isSome)
    (by decide) ?_ (h Scenario.digest Scenario.config _)
  intro w w' _ htest hc
  simp only [Bool.and_eq_true, Option.isNone_iff_eq_none, Option.isSome_iff_ne_none] at htest
  exact htest.2 (hc.sender_none htest.1).1

end World

end LocalSend
