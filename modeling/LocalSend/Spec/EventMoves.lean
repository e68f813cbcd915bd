import LocalSend.Spec.SlotMoves

/-!
# What one step announces of a session

Two kinds of events say what has become of a session: `FileReceived` for each of its files, and
`SessionDone`. Three sections send them: the one that delivers a text, a `/cancel` that names the
session in the slot, and the last one of an upload.

## Key results

- `eventMove_of_step`: every step sends what one of these sections sends, or nothing
-/

namespace LocalSend

/-- What an event says of a session. -/
inductive SessionEvent where
  | fileReceived (s : SessionId) (f : FileId)
  | sessionDone (s : SessionId)
deriving DecidableEq

/-- The session event an observation is the sending of. -/
def Observation.sessionEvent? : Observation → Option SessionEvent
  | .emitted (.fileReceived s f ..) => some (.fileReceived s f)
  | .emitted (.sessionDone s) => some (.sessionDone s)
  | _ => none

namespace World

/-- The session events sent so far, whether or not there was room for them. -/
def sessionEvents (w : World) : List SessionEvent := w.log.filterMap fun e => e.2.sessionEvent?

/-- What a step can send. -/
inductive EventMove (w : World) : Action → World → Prop
  | quiet {a w'} (events : w'.sessionEvents = w.sessionEvents)
    (unrecorded : ∀ u t s, a = .upload u .record → ¬w.Recording u t s) : EventMove w a w'
  | delivered {h t id text w'} (ht : w.prepares h = some t) (live : t.dropped = false)
    (phase : t.phase = .messaging text) (hid : t.accepted = some id)
    (events : w'.sessionEvents = w.sessionEvents ++ [.sessionDone id]) :
    EventMove w (.prepare h .deliverText) w'
  | cancelled {peer s w'} (hs : w.state.currentSession = some s)
    (cleared : w'.state.currentSession = none)
    (events : w'.sessionEvents = w.sessionEvents ++ [.sessionDone s.id]) :
    EventMove w (.cancel peer (some s.id)) w'
  | received {u t s w'} (ht : w.Recording u t s) (more : (s.markReceived t.fileId w.now).1 = false)
    (kept : w'.state.currentSession = some (s.markReceived t.fileId w.now).2)
    (events : w'.sessionEvents = w.sessionEvents ++ [.fileReceived s.id t.fileId]) :
    EventMove w (.upload u .record) w'
  | completed {u t s w'} (ht : w.Recording u t s) (last : (s.markReceived t.fileId w.now).1 = true)
    (cleared : w'.state.currentSession = none)
    (events : w'.sessionEvents =
      w.sessionEvents ++ [.fileReceived s.id t.fileId, .sessionDone s.id]) :
    EventMove w (.upload u .record) w'

/-- What is new in the log tells what is new of the session events. -/
theorem sessionEvents_append {w w' : World} {new : List (Nat × Observation)}
    (h : w'.log = w.log ++ new) :
    w'.sessionEvents = w.sessionEvents ++ new.filterMap fun e => e.2.sessionEvent? := by
  unfold sessionEvents
  rw [h, List.filterMap_append]

/-- Without a new entry in the log there is no new session event. -/
theorem sessionEvents_of_log {w w' : World} (h : w'.log = w.log) :
    w'.sessionEvents = w.sessionEvents := by
  unfold sessionEvents
  rw [h]

/-- An observation adds the session event that it is, if it is one. -/
@[simp] theorem sessionEvents_observe (w : World) (o : Observation) :
    (w.observe o).sessionEvents = w.sessionEvents ++ o.sessionEvent?.toList := by
  rw [@sessionEvents_append w _ [(w.now, o)] rfl]
  cases h : o.sessionEvent? <;> simp [h]

/-- An attempt to emit counts, whether or not there is room for it. -/
@[simp] theorem sessionEvents_trySend (w : World) (e : ServerEvent) :
    (w.trySend e).sessionEvents = w.sessionEvents ++ (Observation.emitted e).sessionEvent?.toList :=
  sessionEvents_observe { w with channel := w.channel.trySend e } (.emitted e)

/-- Answering an upload emits nothing. -/
@[simp] theorem sessionEvents_answerUpload (w : World) (u : TaskId) (t : UploadTask)
    (status : StatusCode) : (w.answerUpload u t status).sessionEvents = w.sessionEvents := by
  rw [@sessionEvents_append w _ [(w.now, .uploadAnswered u status)] rfl]
  exact List.append_nil _

/-- Cancelling the receives emits nothing by itself. -/
theorem sessionEvents_tryCancelReceives (w : World) (s : SessionId) :
    (w.tryCancelReceives s).2.sessionEvents = w.sessionEvents := by
  unfold tryCancelReceives
  dsimp only
  -- a cancellation is logged, but is no event of the session
  split
  · rw [@sessionEvents_append w _ [(w.now, .receivesCancelled s)] rfl]
    exact List.append_nil _
  · rfl

/-- Clearing the slot emits nothing by itself. -/
theorem sessionEvents_tryClearSlot (w : World) (s : Session) :
    (w.tryClearSlot s).2.sessionEvents = w.sessionEvents := by
  have hcancel := sessionEvents_tryCancelReceives w s.id
  unfold tryClearSlot
  dsimp only
  split <;> exact hcancel

/-- Unwinding a declined offer emits nothing by itself. -/
theorem sessionEvents_unwind (w : World) : w.unwind.sessionEvents = w.sessionEvents := by
  unfold unwind
  split
  · rfl
  · exact sessionEvents_tryCancelReceives ..

/-- A section that emits no session event is silent, unless it records a file. -/
theorem EventMove.silent {w w' : World} {a : Action} (events : w'.sessionEvents = w.sessionEvents)
    (other : ∀ u, a ≠ .upload u .record) : EventMove w a w' :=
  .quiet events fun u _ _ h => absurd h (other u)

/-- The sections of a transfer request: only a delivered text is done at once. -/
theorem eventMove_prepare {w w' : World} {h : TaskId} {a : PrepareAction}
    (hstep : PrepareStep w h a w') : EventMove w (.prepare h a) w' := by
  cases hstep with
  | checkPin fresh =>
    refine .silent ?_ (by simp)
    unfold checkPin
    dsimp only
    repeat' split
    all_goals rfl
  | @reserve t id token ht live phase hid =>
    -- the placeholder is logged as created, which nobody is told
    have hplaced : ∀ v : World, (v.placeReservation h t id token).sessionEvents =
        v.sessionEvents := by
      intro v
      rw [@sessionEvents_append v _ [(v.now, .sessionCreated id)] rfl]
      exact List.append_nil _
    refine .silent ?_ (by simp)
    rcases reserve_cases w h t id token with ⟨s, _, _, heq⟩ | ⟨_, heq⟩ | ⟨s, _, _, _, heq⟩
    · rw [heq]
      rfl
    · rw [heq, hplaced]
    · rw [heq, hplaced, sessionEvents_observe]
      have hcancel := sessionEvents_tryCancelReceives w s.id
      -- the session that makes way was silent as well
      have hclear : (w.clearSlot s).sessionEvents = w.sessionEvents := hcancel
      rw [hclear]
      exact List.append_nil _
  | sendRequest =>
    refine .silent ?_ (by simp)
    unfold sendRequest
    split
    · rfl
    · exact (sessionEvents_trySend ..).trans (List.append_nil _)
  | decide => exact .silent rfl (by simp)
  | @clearAwaiting t d id token ht live phase hd hid =>
    have hlog : (w.clearReservation t).log = w.log := by
      unfold clearReservation
      split <;> rfl
    refine .silent ?_ (by simp)
    rcases clearAwaiting_cases w h t d id token with ⟨_, _, heq⟩ | ⟨_, _, heq⟩ | ⟨_, heq⟩
    · rw [heq]
      exact sessionEvents_of_log hlog
    · rw [heq]
      exact sessionEvents_of_log hlog
    · rw [heq]
      have hcreated : ∀ files, ((w.clearReservation t).allocate id files).sessionEvents =
          (w.clearReservation t).sessionEvents := by
        intro files
        rw [@sessionEvents_append (w.clearReservation t) _ [(_, .sessionCreated id)] rfl]
        exact List.append_nil _
      exact (hcreated _).trans (sessionEvents_of_log hlog)
  | refuse | decline => exact .silent (sessionEvents_unwind w) (by simp)
  | @install t s ht live phase =>
    have hlog : (w.install h t s).log = w.unwind.log := by
      unfold install
      dsimp only
      split <;> rfl
    exact .silent ((sessionEvents_of_log hlog).trans (sessionEvents_unwind w)) (by simp)
  | @deliverText t text id ht live phase hid =>
    refine .delivered ht live phase hid ?_
    -- the text goes out first, then the end of its session
    have hlog : (w.deliverText h t id text).log = ((w.trySend (.textReceived id text
      t.request.info.deviceAlias)).trySend (.sessionDone id)).log := rfl
    rw [sessionEvents_of_log hlog, sessionEvents_trySend, sessionEvents_trySend]
    simp [Observation.sessionEvent?]
  | drop => exact .silent rfl (by simp)

/-- The sections of an upload: only a record tells that a file has come. -/
theorem eventMove_upload {sha : List UInt8 → String} {w w' : World} {u : TaskId} {a : UploadAction}
    (hstep : UploadStep sha w u a w') : EventMove w (.upload u a) w' := by
  cases hstep with
  | begin_ =>
    refine .silent ?_ (by simp)
    unfold beginUpload
    dsimp only
    have hobserved : ∀ (v : World) (status : StatusCode),
        (v.observe (.uploadAnswered u status)).sessionEvents = v.sessionEvents :=
      fun v status => (sessionEvents_observe ..).trans (List.append_nil _)
    -- every answer of the first section is about the request, not about the session
    repeat' split
    all_goals first
      | rfl
      | exact hobserved ..
      | exact (sessionEvents_observe ..).trans (List.append_nil _)
      | exact (hobserved ..).trans ((sessionEvents_observe ..).trans (List.append_nil _))
  | @sinkCreated t result =>
    rcases result with (_ | _) | _
    · exact .silent (sessionEvents_answerUpload ..) (by simp)
    · exact .silent (sessionEvents_answerUpload ..) (by simp)
    · exact .silent rfl (by simp)
  | @chunkWritten t chunk ok =>
    cases ok with
    | false => exact .silent rfl (by simp)
    | true => exact .silent ((sessionEvents_observe ..).trans (List.append_nil _)) (by simp)
  | reportProgress => exact .silent ((sessionEvents_trySend ..).trans (List.append_nil _)) (by simp)
  | flushed =>
    refine .silent ?_ (by simp)
    unfold bodyFlushed
    dsimp only
    repeat' split
    all_goals rfl
  | @reject t amount status abort =>
    have hrolled : (w.rollbackProgress t amount).sessionEvents = w.sessionEvents :=
      (sessionEvents_trySend ..).trans (List.append_nil _)
    cases abort with
    | true => exact .silent hrolled (by simp)
    | false => exact .silent ((sessionEvents_answerUpload ..).trans hrolled) (by simp)
  | aborted => exact .silent (sessionEvents_answerUpload ..) (by simp)
  | publish =>
    unfold publish
    split <;> exact .silent rfl (by simp)
  | @committed t result =>
    cases result with
    | none => exact .silent rfl (by simp)
    | some path => exact .silent ((sessionEvents_observe ..).trans (List.append_nil _)) (by simp)
  | @record t path ht live phase =>
    unfold record
    cases hfilter : w.state.currentSession.filter fun s => s.id = t.grant.sessionId with
    | none =>
      -- its session has left the slot: nothing is recorded
      refine .quiet (sessionEvents_answerUpload ..) fun u' t' s heq hrec => ?_
      cases heq
      obtain ⟨ht', _, _, hs, hid⟩ := hrec
      cases ht.symm.trans ht'
      simp [hs, hid] at hfilter
    | some s =>
      simp only [Option.filter_eq_some_iff, decide_eq_true_eq] at hfilter
      have hrec : w.Recording u t s := ⟨ht, live, ⟨path, phase⟩, hfilter⟩
      -- `FileCompleted` goes into the log with the stored session
      have hstored : (w.storeReceived s t.fileId).sessionEvents = w.sessionEvents := by
        cases hfile : s.files.contains t.fileId with
        | false => exact sessionEvents_of_log (by simp [storeReceived, hfile])
        | true =>
          rw [@sessionEvents_append w _ [(w.now, .fileCompleted s.id t.fileId)]
            (by simp [storeReceived, hfile])]
          exact List.append_nil _
      have hrecorded : (w.recordFile t s path).sessionEvents =
          w.sessionEvents ++ [.fileReceived s.id t.fileId] := by
        have hsent := sessionEvents_trySend (w.storeReceived s t.fileId)
            (.fileReceived s.id t.fileId
          (path.fileName.getD t.grant.fileName) path t.body.bytesWritten t.grant.senderAlias none)
        rw [hstored] at hsent
        exact hsent
      dsimp only
      -- the last file of the session ends it in the same section
      cases hlast : (s.markReceived t.fileId w.now).1 with
      | false =>
        exact .received hrec hlast rfl ((sessionEvents_answerUpload ..).trans hrecorded)
      | true =>
        refine .completed hrec hlast rfl ((sessionEvents_answerUpload ..).trans ?_)
        have hsent := sessionEvents_trySend (w.recordFile t s path) (.sessionDone s.id)
        rw [hrecorded, List.append_assoc] at hsent
        exact hsent
  | _ => exact .silent rfl (by simp)

/-- A cancellation tells of its session once, and only where it clears the slot. -/
theorem eventMove_cancel (w : World) (peer : IpAddr) (sessionId : Option SessionId) :
    EventMove w (.cancel peer sessionId) (w.handleCancel peer sessionId).2 := by
  cases sessionId with
  | none =>
    refine .silent ?_ (by simp)
    unfold handleCancel
    cases w.state.awaitingConsent with
    | none => rfl
    | some r =>
      dsimp only
      split
      · rfl
      · rw [sessionEvents_observe]
        refine (List.append_nil _).trans ?_
        split
        · exact sessionEvents_tryCancelReceives ..
        · rfl
  | some sid =>
    unfold handleCancel
    dsimp only
    split
    · exact .silent rfl (by simp)
    · split
      · exact .silent ((sessionEvents_observe ..).trans (List.append_nil _)) (by simp)
      · split
        · exact .silent ((sessionEvents_observe ..).trans (List.append_nil _)) (by simp)
        · split
          · exact .silent rfl (by simp)
          · rename_i s hfilter
            simp only [Option.filter_eq_some_iff, decide_eq_true_eq] at hfilter
            obtain ⟨hs, rfl⟩ := hfilter
            have hcancel := sessionEvents_tryCancelReceives w s.id
            split
            · exact .silent hcancel (by simp)
            · -- only the session in the slot can be cancelled by its id
              refine .cancelled hs rfl ?_
              have hsent := sessionEvents_trySend (w.tryCancelReceives s.id).2 (.sessionDone s.id)
              rw [hcancel] at hsent
              exact hsent

/-- What any step of the receiver does to the session events. -/
theorem eventMove_of_step {sha : List UInt8 → String} {w w' : World} {a : Action}
    (hstep : w.step sha a = some w') : EventMove w a w' := by
  cases a with
  | prepare h b => exact eventMove_prepare (step_prepare hstep)
  | upload u b => exact eventMove_upload (step_upload hstep)
  | cancel peer sessionId =>
    cases hstep
    exact eventMove_cancel w peer sessionId
  | release reserved =>
    simp only [step, Option.ite_none_right_eq_some, Option.some.injEq] at hstep
    obtain ⟨_, rfl⟩ := hstep
    refine .silent ?_ (by simp)
    unfold releaseReservation
    dsimp only
    repeat' split
    all_goals first
      | rfl
      | exact sessionEvents_tryCancelReceives ..
  | sweep =>
    cases hstep
    refine .silent ?_ (by simp)
    -- a sweep clears the slot without an event, and observes the timeout
    have hstandard : w.sweepStandard.sessionEvents = w.sessionEvents := by
      unfold sweepStandard
      split
      · rfl
      · split
        · dsimp only
          split
          · rw [sessionEvents_observe, sessionEvents_tryClearSlot]
            exact List.append_nil _
          · exact sessionEvents_tryClearSlot ..
        · rfl
    unfold sessionSweep sweepCrosscopy
    split
    · rw [sessionEvents_observe]
      exact (List.append_nil _).trans hstandard
    · exact hstandard
  | stop =>
    cases hstep
    refine .silent ?_ (by simp)
    -- the events of the protected sessions are not events of a session
    have hprotected : ∀ v : World, v.stopCrosscopy.sessionEvents = v.sessionEvents := by
      intro v
      unfold stopCrosscopy
      cases v.state.crosscopyAuthorizedActiveUpload <;> cases v.state.crosscopyAuthorizedSession <;>
        simp [Observation.sessionEvent?] <;> rfl
    unfold stop
    dsimp only
    split
    · exact hprotected _
    · exact (hprotected _).trans (sessionEvents_tryClearSlot ..)
  | installCrosscopy session =>
    cases hstep
    refine .silent ?_ (by simp)
    unfold installCrosscopy
    split
    · exact (sessionEvents_observe ..).trans (List.append_nil _)
    · rfl
  | finishCrosscopy sessionId =>
    cases hstep
    refine .silent ?_ (by simp)
    unfold finishCrosscopy
    split <;> rfl
  | env b =>
    cases hstep
    refine .silent ?_ (by simp)
    -- a registration is an event of no session
    cases b with
    | register => exact (sessionEvents_trySend ..).trans (List.append_nil _)
    | _ => rfl

end World

end LocalSend
