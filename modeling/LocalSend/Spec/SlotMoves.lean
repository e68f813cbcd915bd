import LocalSend.Spec.StepCases

/-!
# What one step does to the slot

The slot is described by three fields of the server state: `current_session`,
`current_session_from` and `awaiting_consent`. `SlotMove` lists every way a step of the
receiver can change them, with the guards of each; whatever is proved about the slot
goes through this list.

Below it, the same for the lifecycle of a session: away from the uploads, only
`try_cancel_receives` on the session in the slot changes one.

## Key results

- `slotMove_of_step`: every step makes one of the moves on the slot
- `lifecycleMove_of_step`: what a step does to the lifecycle of an issued session
-/

namespace LocalSend

namespace World

/-- The three fields that describe the slot. -/
structure Slot where
  session : Option Session
  sender : Option IpAddr
  awaiting : Option ConsentReservation

/-- The slot of a world. -/
def slot (w : World) : Slot :=
  ⟨w.state.currentSession, w.state.currentSessionFrom, w.state.awaitingConsent⟩

/-- A session whose receives `try_cancel_receives` would cancel. -/
def Cancellable (w : World) (s : SessionId) : Prop := (w.lifecycles s).tryCancelReceives.1 = true

/-- The upload `u` is about to record its file in the installed session `s`. -/
def Recording (w : World) (u : TaskId) (t : UploadTask) (s : Session) : Prop :=
  w.uploads u = some t ∧ t.dropped = false ∧ (∃ path, t.phase = .recording path) ∧
    w.state.currentSession = some s ∧ s.id = t.grant.sessionId

/-- What a step can do to the slot. -/
inductive SlotMove (w : World) : Action → World → Prop
  | keep {a w'} (slot : w'.slot = w.slot) : SlotMove w a w'
  /-- A prepare reserves a free slot, or one whose session has timed out. -/
  | place {h t id token w'} (ht : w.prepares h = some t) (live : t.dropped = false)
    (phase : t.phase = .reserving) (fresh : id ∉ w.issued)
    (free : w.state.currentSession = none ∨ ∃ s, w.state.currentSession = some s ∧
      s.isTimedOut w.now w.state.sessionTimeout = true ∧ w.Cancellable s.id)
    (after : w'.prepares h = some (t.reservedAs id w.state.autoAccept))
    (slot : w'.slot = ⟨some (Session.new t.request.info.deviceAlias t.request.files id token w.now),
        some t.peer, some ⟨id, t.peer⟩⟩) :
    SlotMove w (.prepare h (.reserve id token)) w'
  /-- A decided prepare clears its own consent reservation. -/
  | consented {h t id token r w'} (ht : w.prepares h = some t) (live : t.dropped = false)
    (phase : t.phase = .clearing) (own : w.state.awaitingConsent = some r)
    (hr : t.reserved = some r.sessionId) (slot : w'.slot = { w.slot with awaiting := none }) :
    SlotMove w (.prepare h (.clearAwaiting id token)) w'
  | refused {h t w'} (ht : w.prepares h = some t) (live : t.dropped = false)
    (phase : t.phase = .refusing) (slot : w'.slot = { w.slot with session := none }) :
    SlotMove w (.prepare h .refuse) w'
  | declined {h t w'} (ht : w.prepares h = some t) (live : t.dropped = false)
    (phase : t.phase = .declining) (slot : w'.slot = { w.slot with session := none }) :
    SlotMove w (.prepare h .decline) w'
  | installed {h t s w'} (ht : w.prepares h = some t) (live : t.dropped = false)
    (phase : t.phase = .installing s) (slot : w'.slot = { w.slot with session := some s }) :
    SlotMove w (.prepare h .install) w'
  | delivered {h t text w'} (ht : w.prepares h = some t) (live : t.dropped = false)
    (phase : t.phase = .messaging text) (slot : w'.slot = { w.slot with session := none }) :
    SlotMove w (.prepare h .deliverText) w'
  /-- A release or a `/cancel` without session id takes the placeholder out with its
      reservation. -/
  | withdrawn {a r s w'} (ha : a = .release r.sessionId ∨ a = .cancel r.fromIp none)
    (own : w.state.awaitingConsent = some r) (hs : w.state.currentSession = some s)
    (hid : s.id = r.sessionId) (slot : w'.slot = ⟨none, none, none⟩) : SlotMove w a w'
  /-- Either of them finds another session in the slot, or none. -/
  | withdrawnLate {a r w'} (ha : a = .release r.sessionId ∨ a = .cancel r.fromIp none)
    (own : w.state.awaitingConsent = some r)
    (hs : ∀ s, w.state.currentSession = some s → s.id ≠ r.sessionId)
    (slot : w'.slot = { w.slot with awaiting := none }) : SlotMove w a w'
  | cancelled {peer s w'} (hs : w.state.currentSession = some s)
    (sender : w.state.currentSessionFrom = some peer ∨ w.state.currentSessionFrom = none)
    (unprotected : (w.state.crosscopyAuthorizedSession.filter fun c => c.sessionId = s.id) = none)
    (inactive : (w.state.crosscopyAuthorizedActiveUpload.filter fun c => c.sessionId = s.id) = none)
    (cancellable : w.Cancellable s.id)
    (slot : w'.slot = { w.slot with session := none, sender := none }) :
    SlotMove w (.cancel peer (some s.id)) w'
  | swept {s w'} (hs : w.state.currentSession = some s)
    (timed : s.isTimedOut w.now w.state.sessionTimeout = true) (cancellable : w.Cancellable s.id)
    (slot : w'.slot = { w.slot with session := none }) : SlotMove w .sweep w'
  | stopped {s w'} (hs : w.state.currentSession = some s) (cancellable : w.Cancellable s.id)
    (slot : w'.slot = { w.slot with session := none }) : SlotMove w .stop w'
  | recorded {u t s w'} (ht : w.Recording u t s)
    (more : (s.markReceived t.fileId w.now).1 = false)
    (slot : w'.slot = { w.slot with session := some (s.markReceived t.fileId w.now).2 }) :
    SlotMove w (.upload u .record) w'
  | completed {u t s w'} (ht : w.Recording u t s)
    (last : (s.markReceived t.fileId w.now).1 = true)
    (slot : w'.slot = { w.slot with session := none }) : SlotMove w (.upload u .record) w'

/-- The unwinding of an ended offer takes the session out of the slot, whatever session it is. -/
theorem slot_unwind (w : World) : w.unwind.slot = { w.slot with session := none } := by
  unfold unwind
  split <;> rfl

/-- A refusal unwinds. -/
theorem slot_refuse (w : World) (h : TaskId) (t : PrepareTask) :
    (w.refuse h t).slot = { w.slot with session := none } := slot_unwind w

/-- So does a decline. -/
theorem slot_decline (w : World) (h : TaskId) (t : PrepareTask) :
    (w.decline h t).slot = { w.slot with session := none } := slot_unwind w

/-- An installation replaces the session, and leaves the sender and the reservation. -/
theorem slot_install (w : World) (h : TaskId) (t : PrepareTask) (s : Session) :
    (w.install h t s).slot = { w.slot with session := some s } := by
  have hunwind := slot_unwind w
  simp only [slot, Slot.mk.injEq] at hunwind
  unfold install
  dsimp only
  split <;> simp [slot, answerPrepare, setPrepare, hunwind]

/-- The end of a message takes its session out of the slot. -/
theorem slot_deliverText (w : World) (h : TaskId) (t : PrepareTask) (id : SessionId)
    (text : String) : (w.deliverText h t id text).slot = { w.slot with session := none } := rfl

/-- The section that clears a reservation finds its own and takes it out, or finds another or
    none. -/
theorem slot_clearReservation (w : World) (t : PrepareTask) :
    (∃ r, w.state.awaitingConsent = some r ∧ t.reserved = some r.sessionId ∧
      (w.clearReservation t).slot = { w.slot with awaiting := none }) ∨
    ((∀ r, w.state.awaitingConsent = some r → t.reserved ≠ some r.sessionId) ∧
      w.clearReservation t = w) := by
  cases hr : w.state.awaitingConsent with
  | none => exact .inr ⟨fun r h => (by cases h), by simp [clearReservation, hr]⟩
  | some r =>
    by_cases hres : some r.sessionId = t.reserved
    · exact .inl ⟨r, rfl, hres.symm, by simp [clearReservation, hr, hres, slot]⟩
    · refine .inr ⟨fun r' h => ?_, by simp [clearReservation, hr, hres]⟩
      cases h
      exact fun heq => hres heq.symm

/-- A prepare's section makes one of the moves. -/
theorem slotMove_prepare {w w' : World} {h : TaskId} {a : PrepareAction}
    (hstep : PrepareStep w h a w') : SlotMove w (.prepare h a) w' := by
  cases hstep with
  | checkPin fresh =>
    -- the gate's table is no part of the slot
    refine .keep ?_
    unfold checkPin
    dsimp only
    repeat' split
    all_goals rfl
  | @reserve t id token ht live phase hid =>
    have hafter : ∀ v : World, (v.placeReservation h t id token).prepares h =
        some (t.reservedAs id v.state.autoAccept) :=
      fun v => Function.update_self ..
    -- refused with a conflict, put into a free slot, or put where an idle session was reclaimed
    rcases reserve_cases w h t id token with ⟨s, _, _, heq⟩ | ⟨hcur, heq⟩ |
        ⟨s, hcur, htimed, hc, heq⟩
    · rw [heq]
      exact .keep rfl
    · rw [heq]
      exact .place ht live phase hid (.inl hcur) (hafter w) rfl
    · rw [heq]
      exact .place ht live phase hid (.inr ⟨s, hcur, htimed, hc⟩) (hafter _) rfl
  | sendRequest =>
    unfold sendRequest
    split <;> exact .keep rfl
  | decide => exact .keep rfl
  | @clearAwaiting t d id token ht live phase hd hid =>
    -- the task of the handler is no part of the slot either
    have hslot : (w.clearAwaiting h t d id token).slot = (w.clearReservation t).slot := by
      rcases clearAwaiting_cases w h t d id token with ⟨_, _, heq⟩ | ⟨_, _, heq⟩ | ⟨_, heq⟩ <;>
        (rw [heq]; rfl)
    rcases slot_clearReservation w t with ⟨r, hr, hres, heq⟩ | ⟨_, heq⟩
    · exact .consented ht live phase hr hres (hslot.trans heq)
    · exact .keep (hslot.trans (congrArg slot heq))
  | refuse ht live phase => exact .refused ht live phase (slot_refuse ..)
  | decline ht live phase => exact .declined ht live phase (slot_decline ..)
  | install ht live phase => exact .installed ht live phase (slot_install ..)
  | deliverText ht live phase => exact .delivered ht live phase (slot_deliverText ..)
  | drop => exact .keep rfl

/-- The last lock section of an upload whose session is in the slot. -/
theorem slot_record {w : World} {u : TaskId} {t : UploadTask} {s : Session} (path : PathBuf)
    (hrec : w.Recording u t s) :
    (w.record u t path).slot = { w.slot with
      session := if (s.markReceived t.fileId w.now).1 then none
        else some (s.markReceived t.fileId w.now).2 } := by
  obtain ⟨_, _, _, hs, hid⟩ := hrec
  have hfilter : (w.state.currentSession.filter fun s => s.id = t.grant.sessionId) = some s := by
    simp [hs, hid]
  unfold record
  rw [hfilter]
  dsimp only
  cases (s.markReceived t.fileId w.now).1 <;> rfl

/-- An upload's section makes one of the moves. -/
theorem slotMove_upload {sha : List UInt8 → String} {w w' : World} {u : TaskId} {a : UploadAction}
    (hstep : UploadStep sha w u a w') : SlotMove w (.upload u a) w' := by
  cases hstep with
  -- a lease changes the record of active uploads, not the slot
  | begin_ =>
    refine .keep ?_
    unfold beginUpload
    dsimp only
    repeat' split
    all_goals rfl
  | @sinkCreated t result => rcases result with (_ | _) | _ <;> exact .keep rfl
  | @chunkWritten t chunk ok => cases ok <;> exact .keep rfl
  | flushed =>
    refine .keep ?_
    unfold bodyFlushed
    dsimp only
    repeat' split
    all_goals rfl
  | @reject t amount status abort => cases abort <;> exact .keep rfl
  | publish =>
    unfold publish
    split <;> exact .keep rfl
  | @committed t result => cases result <;> exact .keep rfl
  | @record t path ht live phase =>
    unfold record
    cases hfilter : w.state.currentSession.filter fun s => s.id = t.grant.sessionId with
    | none => exact .keep rfl
    | some s =>
      -- only here does an upload write the slot: the file is marked in the session it is of
      simp only [Option.filter_eq_some_iff, decide_eq_true_eq] at hfilter
      have hrec : w.Recording u t s := ⟨ht, live, ⟨path, phase⟩, hfilter⟩
      dsimp only
      -- with the last file the session is cleared
      cases hlast : (s.markReceived t.fileId w.now).1 with
      | true => exact .completed hrec hlast rfl
      | false => exact .recorded hrec hlast rfl
  | _ => exact .keep rfl

/-- What the release task of a dropped handler does to the slot. -/
theorem slotMove_release (w : World) (reserved : SessionId) (pending : List SessionId) :
    SlotMove w (.release reserved)
      ({ w with releases := pending }.releaseReservation reserved) := by
  unfold releaseReservation
  cases hr : w.state.awaitingConsent with
  | none => exact .keep rfl
  -- the guard withdraws its own reservation only
  | some r =>
    simp only [Option.any_some, Bool.not_eq_true', decide_eq_false_iff_not]
    split
    · exact .keep (by simp [slot, hr])
    · rename_i hid
      simp only [Decidable.not_not] at hid
      subst hid
      cases hcur : w.state.currentSession with
      -- the placeholder is gone already: the offer alone is withdrawn
      | none =>
        exact .withdrawnLate (.inl rfl) hr (fun s hs => (by cases hcur.symm.trans hs))
          (by simp [slot, hcur])
      | some s =>
        dsimp only
        split
        · exact .withdrawn (.inl rfl) hr hcur (by assumption) rfl
        -- another session is in the slot and stays there
        · refine .withdrawnLate (.inl rfl) hr (fun s' hs' => ?_) (by simp [slot, hcur])
          cases hcur.symm.trans hs'
          assumption

/-- What a `/cancel` does to the slot: it withdraws a reservation, clears a session, or finds
    nothing of its peer. -/
theorem slotMove_cancel (w : World) (peer : IpAddr) (sessionId : Option SessionId) :
    SlotMove w (.cancel peer sessionId) (w.handleCancel peer sessionId).2 := by
  cases sessionId with
  | none =>
    -- without an id the sender of the offer withdraws it
    unfold handleCancel
    cases hr : w.state.awaitingConsent with
    | none => exact .keep rfl
    | some r =>
      dsimp only
      split
      · exact .keep rfl
      · rename_i hpeer
        simp only [Decidable.not_not] at hpeer
        subst hpeer
        cases hfilter : w.state.currentSession.filter fun s => s.id = r.sessionId with
        -- the placeholder is no longer in the slot
        | none =>
          refine .withdrawnLate (.inr rfl) hr (fun s hs => ?_) rfl
          simpa [hs] using hfilter
        | some s =>
          simp only [Option.filter_eq_some_iff, decide_eq_true_eq] at hfilter
          exact .withdrawn (.inr rfl) hr hfilter.1 hfilter.2 rfl
  | some sid =>
    -- with an id: the order of the guards is that of the handler
    unfold handleCancel
    dsimp only
    split
    · exact .keep rfl
    · rename_i hclaim
      split
      -- the protected session of that id
      · exact .keep rfl
      · rename_i hunprotected
        split
        -- the protected upload of that id
        · exact .keep rfl
        · rename_i hinactive
          split
          -- no session of that id
          · exact .keep rfl
          · rename_i s hfilter
            simp only [Option.filter_eq_some_iff, decide_eq_true_eq] at hfilter
            obtain ⟨hs, rfl⟩ := hfilter
            split
            -- a file of it is publishing
            · exact .keep rfl
            · rename_i hc
              simp only [Bool.not_eq_true', Bool.not_eq_false] at hc
              refine .cancelled hs ?_ hunprotected hinactive hc rfl
              -- the peer that asks is the one the slot is of, or the slot has no peer
              cases hfrom : w.state.currentSessionFrom with
              | none => exact .inr rfl
              | some ip =>
                simp only [hfrom, Option.any_some, Option.isSome_some, Bool.and_true,
                  Bool.not_eq_true', decide_eq_false_iff_not, Decidable.not_not] at hclaim
                exact .inl (by rw [hclaim])

/-- The sweep of protected uploads leaves the slot alone. -/
@[simp] theorem slot_sweepCrosscopy (w : World) : w.sweepCrosscopy.slot = w.slot := by
  unfold sweepCrosscopy
  split <;> rfl

/-- Stopping the protected uploads does so too. -/
@[simp] theorem slot_stopCrosscopy (w : World) : w.stopCrosscopy.slot = w.slot := by
  unfold stopCrosscopy
  dsimp only
  repeat' split
  all_goals rfl

/-- What the session sweep does to the slot. -/
theorem slotMove_sweep (w : World) : SlotMove w .sweep w.sessionSweep := by
  have hslot : w.sessionSweep.slot = w.sweepStandard.slot := slot_sweepCrosscopy _
  cases hcur : w.state.currentSession with
  | none => exact .keep (hslot.trans (by simp [sweepStandard, hcur]))
  | some s =>
    cases htimed : s.isTimedOut w.now w.state.sessionTimeout with
    | false => exact .keep (hslot.trans (by simp [sweepStandard, hcur, htimed]))
    | true =>
      rcases tryClearSlot_cases w s with ⟨hc, heq⟩ | ⟨_, heq⟩
      · refine .swept hcur htimed hc (hslot.trans ?_)
        simp only [sweepStandard, hcur, htimed, heq, if_true]
        rfl
      · exact .keep (hslot.trans (by simp [sweepStandard, hcur, htimed, heq]))

/-- What `stop` does to the slot. -/
theorem slotMove_stop (w : World) : SlotMove w .stop w.stop := by
  unfold stop
  dsimp only
  split
  · exact .keep (slot_stopCrosscopy _)
  · rename_i s hcur
    rcases tryClearSlot_cases { w with state.crosscopyAuthorizedStopping := true } s with
      ⟨hc, heq⟩ | ⟨_, heq⟩
    · rw [heq]
      exact .stopped hcur hc (slot_stopCrosscopy _)
    · rw [heq]
      exact .keep (slot_stopCrosscopy _)

/-- Every step of the receiver makes one of the moves. -/
theorem slotMove_of_step {sha : List UInt8 → String} {w w' : World} {a : Action}
    (hstep : w.step sha a = some w') : SlotMove w a w' := by
  -- each action by the lemma of its handler; the protected route never writes the slot
  cases a with
  | prepare h b => exact slotMove_prepare (step_prepare hstep)
  | upload u b => exact slotMove_upload (step_upload hstep)
  | release reserved =>
    simp only [step, Option.ite_none_right_eq_some, Option.some.injEq] at hstep
    obtain ⟨_, rfl⟩ := hstep
    exact slotMove_release w reserved _
  | cancel peer sessionId => cases hstep; exact slotMove_cancel w peer sessionId
  | sweep => cases hstep; exact slotMove_sweep w
  | stop => cases hstep; exact slotMove_stop w
  | installCrosscopy session =>
    -- installing a protected session touches only its own fields
    cases hstep
    refine .keep ?_
    unfold installCrosscopy
    split <;> rfl
  | finishCrosscopy sessionId =>
    cases hstep
    refine .keep ?_
    unfold finishCrosscopy
    split <;> rfl
  | env b =>
    cases hstep
    cases b <;> exact .keep rfl

/-! ## Lifecycles -/

/-- No cancellation of session `x` is logged from `w` to `w'`. -/
def SameCancels (w : World) (x : SessionId) (w' : World) : Prop :=
  ∀ time, (time, .receivesCancelled x) ∈ w'.log ↔ (time, .receivesCancelled x) ∈ w.log

/-- A step without an observation signals no cancellation. -/
theorem SameCancels.of_eq {w w' : World} {x : SessionId} (h : w'.log = w.log) :
    w.SameCancels x w' := fun _ => by rw [h]

/-- Logging other observations. -/
theorem SameCancels.append {w w' : World} {x : SessionId} (new : List (Nat × Observation))
    (h : w'.log = w.log ++ new) (hnew : ∀ e ∈ new, e.2 ≠ .receivesCancelled x) :
    w.SameCancels x w' := by
  intro time
  rw [h, List.mem_append]
  exact ⟨fun hmem => hmem.resolve_right fun hin => hnew _ hin rfl, .inl⟩

/-- Two steps that signal no cancellation of a session, one after the other. -/
theorem SameCancels.trans {w v w' : World} {x : SessionId} (h : w.SameCancels x v)
    (h' : v.SameCancels x w') : w.SameCancels x w' := fun time => (h' time).trans (h time)

/-- The lifecycles stay what they are, or those of the session in the slot are
    cancelled, when that has an id in `ids`; and the log says which. -/
def CancelsAtMost (w : World) (ids : SessionId → Prop) (w' : World) : Prop :=
  (w'.lifecycles = w.lifecycles ∧ ∀ x, w.SameCancels x w') ∨
    ∃ s, w.state.currentSession = some s ∧ ids s.id ∧
      w'.lifecycles = (w.tryCancelReceives s.id).2.lifecycles ∧
      ∀ x, (w.tryCancelReceives s.id).2.SameCancels x w'

/-- A step that neither moves a lifecycle nor observes anything cancels nothing. -/
theorem CancelsAtMost.none {w w' : World} {ids : SessionId → Prop}
    (hlife : w'.lifecycles = w.lifecycles) (hlog : w'.log = w.log) : w.CancelsAtMost ids w' :=
  .inl ⟨hlife, fun _ => .of_eq hlog⟩

/-- A step that tries to cancel the session in the slot cancels no other. -/
theorem CancelsAtMost.current {w w' : World} {ids : SessionId → Prop} {s : Session}
    (hs : w.state.currentSession = some s) (hids : ids s.id)
    (hlife : w'.lifecycles = (w.tryCancelReceives s.id).2.lifecycles)
    (hlog : w'.log = (w.tryCancelReceives s.id).2.log) : w.CancelsAtMost ids w' :=
  .inr ⟨s, hs, hids, hlife, fun _ => .of_eq hlog⟩

/-- Logging another observation afterwards. -/
theorem CancelsAtMost.append {w v w' : World} {ids : SessionId → Prop}
    (h : w.CancelsAtMost ids v) (new : List (Nat × Observation))
    (hlife : w'.lifecycles = v.lifecycles) (hlog : w'.log = v.log ++ new)
    (hnew : ∀ x, ∀ e ∈ new, e.2 ≠ .receivesCancelled x) : w.CancelsAtMost ids w' := by
  have hsame : ∀ x, v.SameCancels x w' := fun x => .append new hlog (hnew x)
  rcases h with ⟨heq, hcancels⟩ | ⟨s, hs, hids, heq, hcancels⟩
  · exact .inl ⟨hlife.trans heq, fun x => (hcancels x).trans (hsame x)⟩
  · exact .inr ⟨s, hs, hids, hlife.trans heq, fun x => (hcancels x).trans (hsame x)⟩

/-- An unwinding cancels the session that it finds in the slot at most. -/
theorem cancelsAtMost_unwind (w : World) : w.CancelsAtMost (fun _ => True) w.unwind := by
  unfold unwind
  split
  · exact .none rfl rfl
  · exact .current (by assumption) trivial rfl rfl

/-- The release task cancels its own reservation at most. -/
theorem cancelsAtMost_releaseReservation (w : World) (reserved : SessionId)
    (pending : List SessionId) :
    w.CancelsAtMost (· = reserved)
      ({ w with releases := pending }.releaseReservation reserved) := by
  unfold releaseReservation
  dsimp only
  split
  · exact .none rfl rfl
  · split
    · exact .none rfl rfl
    · split
      · exact .current (by assumption) (by assumption) rfl rfl
      · exact .none rfl rfl

/-- Clearing the slot moves the lifecycles as the attempt to cancel does. -/
theorem lifecycles_tryClearSlot (w : World) (session : Session) :
    (w.tryClearSlot session).2.lifecycles = (w.tryCancelReceives session.id).2.lifecycles ∧
      (w.tryClearSlot session).2.log = (w.tryCancelReceives session.id).2.log := by
  unfold tryClearSlot
  dsimp only
  split <;> exact ⟨rfl, rfl⟩

/-- A `/cancel` cancels the session in the slot at most. -/
theorem cancelsAtMost_handleCancel (w : World) (peer : IpAddr) (sessionId : Option SessionId) :
    w.CancelsAtMost (fun _ => True) (w.handleCancel peer sessionId).2 := by
  cases sessionId with
  | none =>
    unfold handleCancel
    dsimp only
    -- the offer is another peer's, or there is none
    split
    · exact .none rfl rfl
    · rename_i r _
      split
      · exact .none rfl rfl
      · split
        · rename_i s hfilter
          -- the receives of the placeholder are cancelled with the offer
          have hs := (Option.filter_eq_some_iff.mp hfilter).1
          have hcancelled : w.CancelsAtMost (fun _ => True) (w.tryCancelReceives s.id).2 :=
            .current hs trivial rfl rfl
          exact hcancelled.append [(w.now, .offerWithdrawn r.sessionId)] rfl rfl (by simp)
        · have hnone : w.CancelsAtMost (fun _ => True) w := .none rfl rfl
          exact hnone.append [(w.now, .offerWithdrawn r.sessionId)] rfl rfl (by simp)
  -- the guards that only look log nothing of the session
  | some sid =>
    have hnone : w.CancelsAtMost (fun _ => True) w := .none rfl rfl
    unfold handleCancel
    dsimp only
    split
    · exact hnone
    · split
      · rename_i c _
        -- the protected owner is told, which is no cancellation of a receive
        exact hnone.append [(w.now, .ownerCancelled c.owner)] rfl rfl (by simp)
      · split
        · rename_i c _
          exact hnone.append [(w.now, .ownerSignalled c.owner)] rfl rfl (by simp)
        · split
          · exact hnone
          · rename_i s hfilter
            have hs := (Option.filter_eq_some_iff.mp hfilter).1
            have hcancelled : w.CancelsAtMost (fun _ => True) (w.tryCancelReceives s.id).2 :=
              .current hs trivial rfl rfl
            split
            · exact hcancelled
            · exact hcancelled.append [(w.now, .emitted (.sessionDone sid))] rfl rfl (by simp)

/-- The sweep cancels the session in the slot at most. -/
theorem cancelsAtMost_sessionSweep (w : World) :
    w.CancelsAtMost (fun _ => True) w.sessionSweep := by
  have hstandard : w.CancelsAtMost (fun _ => True) w.sweepStandard := by
    -- only an idle session of the standard route is cleared
    unfold sweepStandard
    dsimp only
    split
    · exact .none rfl rfl
    · rename_i s hs
      obtain ⟨hlife, hlog⟩ := lifecycles_tryClearSlot w s
      have hcleared : w.CancelsAtMost (fun _ => True) (w.tryClearSlot s).2 :=
        .current hs trivial hlife hlog
      split
      · split
        · exact hcleared.append [((w.tryClearSlot s).2.now, .sessionReclaimed s.id)] rfl rfl (by simp)
        · exact hcleared
      · exact .none rfl rfl
  unfold sessionSweep sweepCrosscopy
  split
  · rename_i c _
    exact hstandard.append [(w.sweepStandard.now, .ownerCancelled c.owner)] rfl rfl (by simp)
  · exact hstandard

/-- `stop` cancels the session in the slot at most. -/
theorem cancelsAtMost_stop (w : World) : w.CancelsAtMost (fun _ => True) w.stop := by
  -- the protected records are told once the slot has been cleared
  have hprotected : ∀ v : World, w.CancelsAtMost (fun _ => True) v →
      w.CancelsAtMost (fun _ => True) v.stopCrosscopy := by
    intro v hv
    unfold stopCrosscopy
    cases v.state.crosscopyAuthorizedActiveUpload <;> cases v.state.crosscopyAuthorizedSession
    · exact hv
    · exact hv.append [(v.now, .ownerCancelled _)] rfl rfl (by simp)
    · exact hv.append [(v.now, .ownerSignalled _)] rfl rfl (by simp)
    · rename_i active session
      have hsignalled : w.CancelsAtMost (fun _ => True)
          (v.observe (.ownerSignalled active.owner)) :=
        hv.append [(v.now, .ownerSignalled active.owner)] rfl rfl (by simp)
      exact hsignalled.append [(v.now, .ownerCancelled session.owner)] rfl rfl (by simp)
  unfold stop
  dsimp only
  split
  · exact hprotected _ (.none rfl rfl)
  · rename_i s hs
    obtain ⟨hlife, hlog⟩ := lifecycles_tryClearSlot
      { w with state.crosscopyAuthorizedStopping := true } s
    exact hprotected _ (.current hs trivial hlife hlog)

/-- What a step can do to the lifecycle of an issued session, and what it logs of it. -/
inductive LifecycleMove (w : World) (x : SessionId) : Action → World → Prop
  | keep {a w'} (lifecycle : w'.lifecycles x = w.lifecycles x) (log : w.SameCancels x w') :
    LifecycleMove w x a w'
  /-- `try_cancel_receives` on the session in the slot, whatever it answers. -/
  | cancel {a s w'} (hs : w.state.currentSession = some s) (hid : s.id = x)
    (release : ∀ r, a = .release r → r = x)
    (prepare : ∀ h b, a = .prepare h b →
      b = .refuse ∨ b = .decline ∨ b = .install ∨ ∃ id token, b = .reserve id token)
    (lifecycle : w'.lifecycles x = (w.lifecycles x).tryCancelReceives.2)
    (log : (w.tryCancelReceives x).2.SameCancels x w') : LifecycleMove w x a w'
  /-- A section of an upload. -/
  | upload {u b w'} : LifecycleMove w x (.upload u b) w'

/-- The pointwise form of `CancelsAtMost`. -/
theorem CancelsAtMost.lifecycleMove {w w' : World} {ids : SessionId → Prop} {a : Action}
    {x : SessionId} (h : w.CancelsAtMost ids w')
    (release : ∀ r, a = .release r → ids x → r = x)
    (prepare : ∀ g b, a = .prepare g b →
      b = .refuse ∨ b = .decline ∨ b = .install ∨ ∃ id token, b = .reserve id token) :
    LifecycleMove w x a w' := by
  rcases h with ⟨heq, hlog⟩ | ⟨s, hs, hids, heq, hlog⟩
  -- nothing was cancelled
  · exact .keep (congrFun heq x) (hlog x)
  · by_cases hx : s.id = x
    · subst x
      refine .cancel hs rfl (fun r hr => release r hr hids) prepare ?_ (hlog s.id)
      rw [heq]
      exact Function.update_self ..
    · -- the cancellation is logged for another session
      have hother : w.SameCancels x (w.tryCancelReceives s.id).2 := by
        intro time
        show _ ∈ (if _ then _ else _) ↔ _
        split
        · simp [Ne.symm hx]
        · exact Iff.rfl
      refine .keep ?_ (hother.trans (hlog x))
      rw [heq]
      exact Function.update_of_ne (Ne.symm hx) ..

/-- A prepare's section keeps an issued lifecycle, or cancels the one in the slot. -/
theorem lifecycleMove_prepare {w w' : World} {h : TaskId} {a : PrepareAction} {x : SessionId}
    (hx : x ∈ w.issued) (hstep : PrepareStep w h a w') : LifecycleMove w x (.prepare h a) w' := by
  -- what the new session adds to the log is about its own id, which is not yet issued
  have hallocated : ∀ (v : World) id files, id ∉ w.issued →
      (v.allocate id files).lifecycles x = v.lifecycles x ∧
        v.SameCancels x (v.allocate id files) := by
    intro v id files hid
    have hne : x ≠ id := fun heq => hid (heq ▸ hx)
    exact ⟨Function.update_of_ne hne .., .append [(v.now, .sessionCreated id)] rfl (by simp)⟩
  -- refusing, declining and installing share the unwinding of the slot
  have hunwind : ∀ b v, b = .refuse ∨ b = .decline ∨ b = .install →
      v.lifecycles = w.unwind.lifecycles → v.log = w.unwind.log →
      LifecycleMove w x (.prepare h b) v := by
    intro b v hb hlife hlog
    have hcancels := (cancelsAtMost_unwind w).append [] hlife (by simp [hlog]) (by simp)
    refine hcancels.lifecycleMove (by simp) fun g c hc => ?_
    cases hc
    rcases hb with hb | hb | hb
    · exact .inl hb
    · exact .inr (.inl hb)
    · exact .inr (.inr (.inl hb))
  cases hstep with
  | @checkPin peer pin request fresh =>
    -- checking the PIN moves no lifecycle
    have heq : (w.checkPin h peer pin request).lifecycles = w.lifecycles ∧
        (w.checkPin h peer pin request).log = w.log := by
      unfold checkPin
      dsimp only
      repeat' split
      all_goals exact ⟨rfl, rfl⟩
    exact .keep (congrFun heq.1 x) (.of_eq heq.2)
  | @reserve t id token ht live phase hid =>
    -- refused: nothing happens to any session
    rcases reserve_cases w h t id token with ⟨s, _, _, heq⟩ | ⟨_, heq⟩ | ⟨s, hs, _, _, heq⟩
    · rw [heq]
      exact .keep rfl (.of_eq rfl)
    -- placed in a free slot
    · rw [heq]
      obtain ⟨hlife, hlog⟩ := hallocated w id t.request.files hid
      exact .keep hlife hlog
    -- placed after the idle session before it was cancelled
    · have hcancelled : w.CancelsAtMost (fun _ => True) (w.clearSlot s) :=
        .current hs trivial rfl rfl
      have hreclaimed : w.CancelsAtMost (fun _ => True)
          ((w.clearSlot s).observe (.sessionReclaimed s.id)) :=
        hcancelled.append [(w.now, .sessionReclaimed s.id)] rfl rfl (by simp)
      obtain ⟨hlife, hlog⟩ := hallocated ((w.clearSlot s).observe (.sessionReclaimed s.id)) id
        t.request.files hid
      have hmove := hreclaimed.lifecycleMove (a := .prepare h (.reserve id token)) (x := x)
        (by simp) fun g c hc => by
          cases hc
          exact .inr (.inr (.inr ⟨id, token, rfl⟩))
      rw [heq]
      -- the cancellation of the reclaimed session is what `x` sees, if it is `x`
      cases hmove with
      | keep lifecycle log => exact .keep (hlife.trans lifecycle) (log.trans hlog)
      | cancel hs hid release prepare lifecycle log =>
        exact .cancel hs hid release prepare (hlife.trans lifecycle) (log.trans hlog)
  | sendRequest =>
    unfold sendRequest
    split
    · exact .keep rfl (.of_eq rfl)
    · exact .keep rfl (.append [(w.now, .emitted _)] rfl (by simp))
  | decide => exact .keep rfl (.of_eq rfl)
  | @clearAwaiting t d id token ht live phase hd hid =>
    have hclear : (w.clearReservation t).lifecycles = w.lifecycles ∧
        (w.clearReservation t).log = w.log := by
      unfold clearReservation
      split <;> exact ⟨rfl, rfl⟩
    rcases clearAwaiting_cases w h t d id token with ⟨_, _, heq⟩ | ⟨_, _, heq⟩ | ⟨_, heq⟩
    · rw [heq]
      exact .keep (congrFun hclear.1 x) (.of_eq hclear.2)
    · rw [heq]
      exact .keep (congrFun hclear.1 x) (.of_eq hclear.2)
    · rw [heq]
      obtain ⟨hlife, hlog⟩ := hallocated (w.clearReservation t) id
        (t.request.acceptedFiles (t.request.acceptedIds d)) hid
      have hbefore : w.SameCancels x (w.clearReservation t) := .of_eq hclear.2
      exact .keep (hlife.trans (congrFun hclear.1 x)) (hbefore.trans hlog)
  | refuse => exact hunwind _ _ (.inl rfl) rfl rfl
  | decline => exact hunwind _ _ (.inr (.inl rfl)) rfl rfl
  | @install t s ht live phase =>
    have heq : (w.install h t s).lifecycles = w.unwind.lifecycles ∧
        (w.install h t s).log = w.unwind.log := by
      unfold install
      dsimp only
      split <;> exact ⟨rfl, rfl⟩
    exact hunwind _ _ (.inr (.inr rfl)) heq.1 heq.2
  | deliverText =>
    exact .keep rfl (.append [(w.now, .emitted _), (w.now, .emitted _)]
      (by simp [deliverText, trySend, observe, answerPrepare, setPrepare]; exact ⟨rfl, rfl⟩) (by simp))
  | drop => exact .keep rfl (.of_eq rfl)

/-- A step keeps an issued lifecycle, cancels the one in the slot, or is an upload's. -/
theorem lifecycleMove_of_step {sha : List UInt8 → String} {w w' : World} {a : Action}
    {x : SessionId} (hx : x ∈ w.issued) (hstep : w.step sha a = some w') :
    LifecycleMove w x a w' := by
  cases a with
  | prepare h b => exact lifecycleMove_prepare hx (step_prepare hstep)
  | upload u b => exact .upload
  | release reserved =>
    simp only [step, Option.ite_none_right_eq_some, Option.some.injEq] at hstep
    obtain ⟨_, rfl⟩ := hstep
    refine (cancelsAtMost_releaseReservation w reserved _).lifecycleMove (fun r hr hx => ?_) (by simp)
    cases hr
    exact hx.symm
  | cancel peer sessionId =>
    cases hstep
    exact (cancelsAtMost_handleCancel w peer sessionId).lifecycleMove (by simp) (by simp)
  | sweep =>
    cases hstep
    exact (cancelsAtMost_sessionSweep w).lifecycleMove (by simp) (by simp)
  | stop =>
    cases hstep
    exact (cancelsAtMost_stop w).lifecycleMove (by simp) (by simp)
  | installCrosscopy session =>
    cases hstep
    unfold installCrosscopy
    split
    · exact .keep rfl (.append [(w.now, .ownerCancelled session.owner)] rfl (by simp))
    · exact .keep rfl (.of_eq rfl)
  | finishCrosscopy sessionId =>
    cases hstep
    unfold finishCrosscopy
    split <;> exact .keep rfl (.of_eq rfl)
  | env b =>
    cases hstep
    cases b with
    | register => exact .keep rfl (.append [(w.now, .emitted _)] rfl (by simp))
    | _ => exact .keep rfl (.of_eq rfl)

end World

end LocalSend
