import LocalSend.Spec.StepCases

/-!
# What one step adds to the log

Every new entry of the log carries the time of its step, and each of the observations
the properties speak of has one cause: `Observed` lists them.

## Key results

- `observed_of_step`: the cause of every new entry
- `log_mono`: entries stay
-/

namespace LocalSend

/-- The observations whose cause no property asks for. -/
def Observation.Routine : Observation → Prop
  | .sessionReclaimed _ | .offerWithdrawn _ | .ownerCancelled _ | .ownerSignalled _ => True
  | .emitted (.textReceived ..) | .emitted (.fileReceived ..) => False
  | .emitted _ => True
  | _ => False

namespace World

/-- What an action can observe in a world. -/
inductive Observed (w : World) : Action → Observation → Prop
  | routine {a o} (h : o.Routine) : Observed w a o
  /-- A session is created over a fresh id, for a placeholder or for accepted files. -/
  | created {h b id} (fresh : id ∉ w.issued)
    (draws : (∃ token, b = .reserve id token) ∨ ∃ token, b = .clearAwaiting id token) :
    Observed w (.prepare h b) (.sessionCreated id)
  | cancelled {a s} (other : ∀ u b, a ≠ .upload u b) (hs : w.state.currentSession = some s)
    (cancellable : (w.lifecycles s.id).tryCancelReceives.1 = true) :
    Observed w a (.receivesCancelled s.id)
  | delivered {h t id text} (ht : w.prepares h = some t) (live : t.dropped = false)
    (phase : t.phase = .messaging text) (hid : t.accepted = some id) :
    Observed w (.prepare h .deliverText)
      (.emitted (.textReceived id text t.request.info.deviceAlias))
  | began {u token s f file l} (fresh : w.uploads u = none)
    (hs : w.state.currentSession = some s) (hfile : s.files.get? f = some file)
    (verified : s.verifyToken f token = true)
    (begun : (w.lifecycles s.id).beginReceive f = some l) :
    Observed w (.upload u (.begin_ s.id f token)) (.sinkCreate u s.id f)
  | written {u t chunk} (ht : w.uploads u = some t) (live : t.dropped = false)
    (phase : t.phase = .writing chunk) :
    Observed w (.upload u (.chunkWritten true)) (.chunkWritten t.grant.sessionId t.fileId)
  | committed {u t path} (ht : w.uploads u = some t) (live : t.dropped = false)
    (phase : t.phase = .committing) :
    Observed w (.upload u (.committed (some path)))
      (.fileCommitted u t.grant.sessionId t.fileId path t.body.written)
  | completed {u t path s} (ht : w.uploads u = some t) (live : t.dropped = false)
    (phase : t.phase = .recording path) (hs : w.state.currentSession = some s)
    (hid : s.id = t.grant.sessionId) (hfile : s.files.contains t.fileId = true) :
    Observed w (.upload u .record) (.fileCompleted s.id t.fileId)
  | announced {u t path s} (ht : w.uploads u = some t) (live : t.dropped = false)
    (phase : t.phase = .recording path) (hs : w.state.currentSession = some s)
    (hid : s.id = t.grant.sessionId) :
    Observed w (.upload u .record) (.emitted (.fileReceived s.id t.fileId
      (path.fileName.getD t.grant.fileName) path t.body.bytesWritten t.grant.senderAlias none))
  | answered {u b status} : Observed w (.upload u b) (.uploadAnswered u status)

/-- The log of `w'` is that of `w` and entries of the time of `w` that satisfy `P`. -/
def LogGrows (w : World) (P : Observation → Prop) (w' : World) : Prop :=
  ∃ new, w'.log = w.log ++ new ∧ ∀ e ∈ new, e.1 = w.now ∧ P e.2

variable {P : Observation → Prop}

/-- A section that logs nothing. -/
theorem LogGrows.same {w w' : World} (h : w'.log = w.log) : w.LogGrows P w' :=
  ⟨[], by simp [h], by simp⟩

/-- A section that logs one thing. -/
theorem LogGrows.one {w w' : World} {o : Observation} (h : w'.log = w.log ++ [(w.now, o)])
    (ho : P o) : w.LogGrows P w' :=
  ⟨[(w.now, o)], h, by simp [ho]⟩

/-- A section that logs two things. -/
theorem LogGrows.two {w w' : World} {o o' : Observation}
    (h : w'.log = w.log ++ [(w.now, o)] ++ [(w.now, o')]) (ho : P o) (ho' : P o') :
    w.LogGrows P w' :=
  ⟨[(w.now, o), (w.now, o')], by simp [h], by simp [ho, ho']⟩

/-- Two sections of the same time, one after the other. -/
theorem LogGrows.trans {w v w' : World} (h : w.LogGrows P v) (hnow : v.now = w.now)
    (h' : v.LogGrows P w') : w.LogGrows P w' := by
  obtain ⟨new, hlog, hnew⟩ := h
  obtain ⟨new', hlog', hnew'⟩ := h'
  refine ⟨new ++ new', by rw [hlog', hlog, List.append_assoc], fun e he => ?_⟩
  rw [List.mem_append] at he
  cases he with
  | inl he => exact hnew e he
  | inr he =>
    have h := hnew' e he
    exact ⟨h.1.trans hnow, h.2⟩

/-- Cancelling the session in the slot logs that it was cancelled, if it was. -/
theorem logGrows_tryCancelReceives {w v : World} {a : Action} (other : ∀ u b, a ≠ .upload u b)
    {s : Session}
    (hsame : v.log = w.log ∧ v.now = w.now ∧ v.lifecycles = w.lifecycles)
    (hs : w.state.currentSession = some s) :
    w.LogGrows (w.Observed a) (v.tryCancelReceives s.id).2 := by
  obtain ⟨hlog, hnow, hlife⟩ := hsame
  have heq : (v.tryCancelReceives s.id).2.log = if (w.lifecycles s.id).tryCancelReceives.1 then
      w.log ++ [(w.now, .receivesCancelled s.id)] else w.log := by
    rw [← hlog, ← hnow, ← hlife]
    rfl
  cases hc : (w.lifecycles s.id).tryCancelReceives.1 with
  | false => exact .same (by rw [heq, hc]; rfl)
  | true => exact .one (by rw [heq, hc]; rfl) (.cancelled other hs hc)

/-- Unwinding a declined offer logs at most that the receives of the slot were cancelled. -/
theorem logGrows_unwind (w : World) {a : Action} (other : ∀ u b, a ≠ .upload u b) :
    w.LogGrows (w.Observed a) w.unwind := by
  unfold unwind
  split
  · exact .same rfl
  · exact logGrows_tryCancelReceives other ⟨rfl, rfl, rfl⟩ (by assumption)

/-- Clearing the slot logs at most that its receives were cancelled. -/
theorem logGrows_tryClearSlot {w v : World} {a : Action} (other : ∀ u b, a ≠ .upload u b)
    {s : Session}
    (hsame : v.log = w.log ∧ v.now = w.now ∧ v.lifecycles = w.lifecycles)
    (hs : w.state.currentSession = some s) :
    w.LogGrows (w.Observed a) (v.tryClearSlot s).2 := by
  have hlog : (v.tryClearSlot s).2.log = (v.tryCancelReceives s.id).2.log := by
    unfold tryClearSlot
    dsimp only
    split <;> rfl
  obtain ⟨new, hnew, hall⟩ := logGrows_tryCancelReceives other hsame hs
  exact ⟨new, hlog.trans hnew, hall⟩

/-- Clearing the slot takes no time. -/
theorem now_tryClearSlot (w : World) (s : Session) : (w.tryClearSlot s).2.now = w.now := by
  unfold tryClearSlot
  dsimp only
  split <;> rfl

/-- A prepare's section logs observations with their causes. -/
theorem logGrows_prepare {w w' : World} {h : TaskId} {a : PrepareAction}
    (hstep : PrepareStep w h a w') : w.LogGrows (w.Observed (.prepare h a)) w' := by
  cases hstep with
  -- the gate keeps no log
  | checkPin =>
    unfold checkPin
    dsimp only
    repeat' split
    all_goals exact .same rfl
  | @reserve t id token ht live phase hid =>
    have hcreated : w.Observed (.prepare h (.reserve id token)) (.sessionCreated id) :=
      .created hid (.inl ⟨token, rfl⟩)
    -- a conflict logs nothing; a placeholder logs that it was created, after the end of the session
    -- reclaimed for it
    rcases reserve_cases w h t id token with ⟨s, _, _, heq⟩ | ⟨_, heq⟩ | ⟨s, hs, _, _, heq⟩
    · rw [heq]
      exact .same rfl
    · rw [heq]
      exact .one rfl hcreated
    · rw [heq]
      have hcancelled : w.LogGrows (w.Observed (.prepare h (.reserve id token))) (w.clearSlot s) :=
        logGrows_tryCancelReceives (by simp) ⟨rfl, rfl, rfl⟩ hs
      exact hcancelled.trans rfl (.two rfl (.routine trivial) hcreated)
  | sendRequest =>
    unfold sendRequest
    split
    · exact .same rfl
    · exact .one rfl (.routine trivial)
  | decide => exact .same rfl
  | @clearAwaiting t d id token ht live phase hd hid =>
    -- the reservation is cleared without a word
    have hsame : (w.clearReservation t).log = w.log ∧ (w.clearReservation t).now = w.now := by
      unfold clearReservation
      split <;> exact ⟨rfl, rfl⟩
    rcases clearAwaiting_cases w h t d id token with ⟨_, _, heq⟩ | ⟨_, _, heq⟩ | ⟨_, heq⟩
    · rw [heq]
      exact .same hsame.1
    · rw [heq]
      exact .same hsame.1
    · rw [heq]
      refine .one ?_ (.created hid (.inr ⟨token, rfl⟩))
      show (w.clearReservation t).log ++ [((w.clearReservation t).now, _)] = _
      rw [hsame.1, hsame.2]
  -- refused, declined and installed log the unwinding of the slot and no more
  | refuse => exact logGrows_unwind w (by simp)
  | decline => exact logGrows_unwind w (by simp)
  | @install t s ht live phase =>
    have hlog : (w.install h t s).log = w.unwind.log := by
      unfold install
      dsimp only
      split <;> rfl
    obtain ⟨new, hnew, hall⟩ := @logGrows_unwind w (.prepare h .install) (by simp)
    exact ⟨new, hlog.trans hnew, hall⟩
  | deliverText ht live phase hid =>
    exact .two rfl (.delivered ht live phase hid) (.routine trivial)
  | drop => exact .same rfl

/-- An upload's section logs observations with their causes. -/
theorem logGrows_upload {sha : List UInt8 → String} {w w' : World} {u : TaskId}
    {a : UploadAction} (hstep : UploadStep sha w u a w') :
    w.LogGrows (w.Observed (.upload u a)) w' := by
  cases hstep with
  -- a lease is logged with the file it is for, any refusal only as an answer
  | @begin_ sid f token fresh =>
    unfold beginUpload
    split
    · dsimp only
      split
      · exact .two rfl (.routine trivial) .answered
      · exact .same rfl
    · split
      · exact .one rfl .answered
      · rename_i s hs
        split
        · exact .one rfl .answered
        · rename_i hid
          simp only [Decidable.not_not] at hid
          subst hid
          split
          · exact .one rfl .answered
          · rename_i hverified
            simp only [Bool.not_eq_true', Bool.not_eq_false] at hverified
            split
            · exact .one rfl .answered
            · split
              · exact .one rfl .answered
              · exact .one rfl (.began fresh hs (by assumption) hverified (by assumption))
  | @sinkCreated t result =>
    rcases result with (_ | _) | _
    · exact .one rfl .answered
    · exact .one rfl .answered
    · exact .same rfl
  -- what is written is logged once the sink has taken it
  | @chunkWritten t chunk ok ht live phase =>
    cases ok with
    | true => exact .one rfl (.written ht live phase)
    | false => exact .same rfl
  | reportProgress => exact .one rfl (.routine trivial)
  | flushed =>
    unfold bodyFlushed
    dsimp only
    repeat' split
    all_goals exact .same rfl
  -- a lost upload logs its rejection before its answer
  | @reject t amount status abort =>
    cases abort with
    | true => exact .one rfl (.routine trivial)
    | false => exact .two rfl (.routine trivial) .answered
  | aborted => exact .one rfl .answered
  | publish =>
    unfold publish
    split <;> exact .same rfl
  -- the commit of the sink is the moment of the publication
  | @committed t result ht live phase =>
    cases result with
    | some path => exact .one rfl (.committed ht live phase)
    | none => exact .same rfl
  | @record t path ht live phase =>
    unfold record
    -- the session may be gone by now
    cases hfilter : w.state.currentSession.filter fun s => s.id = t.grant.sessionId with
    | none => exact .one rfl .answered
    | some s =>
      simp only [Option.filter_eq_some_iff, decide_eq_true_eq] at hfilter
      obtain ⟨hs, hid⟩ := hfilter
      have hstored : w.LogGrows (w.Observed (.upload u .record)) (w.storeReceived s t.fileId) := by
        -- a file outside the session's list is announced all the same
        cases hfile : s.files.contains t.fileId with
        | false => exact .same (by simp [storeReceived, hfile])
        | true =>
          exact .one (by simp [storeReceived, hfile]) (.completed ht live phase hs hid hfile)
      have hrecorded : w.LogGrows (w.Observed (.upload u .record)) (w.recordFile t s path) :=
        hstored.trans rfl (.one rfl (.announced ht live phase hs hid))
      dsimp only
      -- the last file ends the session as well
      cases hlast : (s.markReceived t.fileId w.now).1 with
      | false => exact hrecorded.trans rfl (.one rfl .answered)
      | true => exact hrecorded.trans rfl (.two rfl (.routine trivial) .answered)
  | _ => exact .same rfl

/-- Releasing a reservation logs at most that its receives were cancelled. -/
theorem logGrows_releaseReservation (w : World) (reserved : SessionId) (pending : List SessionId)
    {a : Action} (other : ∀ u b, a ≠ .upload u b) :
    w.LogGrows (w.Observed a) ({ w with releases := pending }.releaseReservation reserved) := by
  unfold releaseReservation
  dsimp only
  split
  · exact .same rfl
  · split
    · exact .same rfl
    · rename_i s hs
      split
      · exact logGrows_tryCancelReceives other ⟨rfl, rfl, rfl⟩ hs
      · exact .same rfl

/-- A cancellation logs that its receives were cancelled and that its session is done. -/
theorem logGrows_handleCancel (w : World) (peer : IpAddr) (sessionId : Option SessionId)
    {a : Action} (other : ∀ u b, a ≠ .upload u b) :
    w.LogGrows (w.Observed a) (w.handleCancel peer sessionId).2 := by
  -- the offer that awaits consent, by its sender
  cases sessionId with
  | none =>
    unfold handleCancel
    dsimp only
    split
    · exact .same rfl
    · split
      · exact .same rfl
      · split
        · rename_i hfilter
          have hs := (Option.filter_eq_some_iff.mp hfilter).1
          have hcancelled := logGrows_tryCancelReceives other ⟨rfl, rfl, rfl⟩ hs
          exact hcancelled.trans rfl (.one rfl (.routine trivial))
        · exact .one rfl (.routine trivial)
  -- with an id: the protected session, the protected upload, then the slot
  | some sid =>
    unfold handleCancel
    dsimp only
    split
    · exact .same rfl
    · split
      · exact .one rfl (.routine trivial)
      · split
        · exact .one rfl (.routine trivial)
        · split
          · exact .same rfl
          · rename_i hfilter
            have hs := (Option.filter_eq_some_iff.mp hfilter).1
            have hcancelled := logGrows_tryCancelReceives other ⟨rfl, rfl, rfl⟩ hs
            split
            · exact hcancelled
            · exact hcancelled.trans rfl (.one rfl (.routine trivial))

/-- The sweep logs at most that the receives of an idle session were cancelled. -/
theorem logGrows_sessionSweep (w : World) {a : Action} (other : ∀ u b, a ≠ .upload u b) :
    w.LogGrows (w.Observed a) w.sessionSweep := by
  -- the slot first, then the protected session
  have hstandard : w.LogGrows (w.Observed a) w.sweepStandard ∧ w.sweepStandard.now = w.now := by
    unfold sweepStandard
    split
    · exact ⟨.same rfl, rfl⟩
    · rename_i s hs
      have hcleared := logGrows_tryClearSlot other ⟨rfl, rfl, rfl⟩ hs
      have hnow := now_tryClearSlot w s
      split
      · dsimp only
        split
        · exact ⟨hcleared.trans hnow (.one rfl (.routine trivial)), hnow⟩
        · exact ⟨hcleared, hnow⟩
      · exact ⟨.same rfl, rfl⟩
  refine hstandard.1.trans hstandard.2 ?_
  unfold sessionSweep sweepCrosscopy
  split
  · exact .one rfl (.routine trivial)
  · exact .same rfl

/-- Stopping logs at most that the receives of the slot were cancelled. -/
theorem logGrows_stop (w : World) {a : Action} (other : ∀ u b, a ≠ .upload u b) :
    w.LogGrows (w.Observed a) w.stop := by
  -- the protected records are told last
  have hprotected : ∀ v : World, v.LogGrows (w.Observed a) v.stopCrosscopy := by
    intro v
    unfold stopCrosscopy
    cases v.state.crosscopyAuthorizedActiveUpload <;> cases v.state.crosscopyAuthorizedSession
    · exact .same rfl
    · exact .one rfl (.routine trivial)
    · exact .one rfl (.routine trivial)
    · exact .two rfl (.routine trivial) (.routine trivial)
  unfold stop
  dsimp only
  split
  · exact hprotected _
  · rename_i s hs
    have hcleared := @logGrows_tryClearSlot w
      { w with state.crosscopyAuthorizedStopping := true } a other s ⟨rfl, rfl, rfl⟩ hs
    exact hcleared.trans (now_tryClearSlot _ s) (hprotected _)

/-- Every new entry of the log has the time of the step and its cause. -/
theorem logGrows_of_step {sha : List UInt8 → String} {w w' : World} {a : Action}
    (hstep : w.step sha a = some w') : w.LogGrows (w.Observed a) w' := by
  -- each action by the lemma of its handler
  cases a with
  | prepare h b => exact logGrows_prepare (step_prepare hstep)
  | upload u b => exact logGrows_upload (step_upload hstep)
  | release reserved =>
    simp only [step, Option.ite_none_right_eq_some, Option.some.injEq] at hstep
    obtain ⟨_, rfl⟩ := hstep
    exact logGrows_releaseReservation w reserved _ (by simp)
  | cancel peer sessionId => cases hstep; exact logGrows_handleCancel w peer sessionId (by simp)
  | sweep => cases hstep; exact logGrows_sessionSweep w (by simp)
  | stop => cases hstep; exact logGrows_stop w (by simp)
  | installCrosscopy session =>
    cases hstep
    unfold installCrosscopy
    split
    · exact .one rfl (.routine trivial)
    · exact .same rfl
  | finishCrosscopy sessionId =>
    cases hstep
    unfold finishCrosscopy
    split <;> exact .same rfl
  | env b =>
    -- a registration is announced; the other parts of the world say nothing
    cases hstep
    cases b with
    | register => exact .one rfl (.routine trivial)
    | _ => exact .same rfl

/-- The cause of every entry a step adds. -/
theorem observed_of_step {sha : List UInt8 → String} {w w' : World} {a : Action}
    (hstep : w.step sha a = some w') {time : Nat} {o : Observation} (ho : (time, o) ∈ w'.log) :
    (time, o) ∈ w.log ∨ (time = w.now ∧ w.Observed a o) := by
  obtain ⟨new, hlog, hnew⟩ := logGrows_of_step hstep
  rw [hlog, List.mem_append] at ho
  exact ho.imp id (hnew (time, o))

/-- An entry of the log stays. -/
theorem log_mono {sha : List UInt8 → String} {w w' : World} {a : Action}
    (hstep : w.step sha a = some w') {e : Nat × Observation} (he : e ∈ w.log) : e ∈ w'.log := by
  obtain ⟨new, hlog, _⟩ := logGrows_of_step hstep
  rw [hlog]
  exact List.mem_append_left _ he

end World

end LocalSend
