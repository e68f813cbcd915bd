import LocalSend.Server.Protected
import LocalSend.Spec.LogMoves
import LocalSend.Spec.ProtectedCancel

/-!
# What one step does to the protected half

Three fields of the server state and the calls on owners and their tokens describe the
protected half. The handlers of the standard half never touch them: only the lock
sections that serve both halves do, and each in one way.

## Key results

- `protection_of_prepareStep`, `protection_of_uploadStep`: the standard handlers keep it
- `protection_beginUpload`, `protection_stop`, …: one equation for each shared section
- `move_of_step`: every step of the receiver makes one of four moves
- `step_cases`: inversion of the protected receiver
-/

namespace LocalSend

/-- The protected half of a world: its fields, and what its owners have been told. -/
structure Protection where
  session : Option CrossCopyAuthorizedSession
  activeUpload : Option CrossCopyAuthorizedActiveUpload
  stopping : Bool
  owners : List Observation

/-- `stop` takes both halves of the record out, signals the one and cancels the other. -/
def Protection.stop (q : Protection) : Protection where
  session := none
  activeUpload := none
  stopping := true
  owners := q.owners ++ (q.activeUpload.map fun a => Observation.ownerSignalled a.owner).toList ++
    (q.session.map fun s => Observation.ownerCancelled s.owner).toList

/-- What a step of the receiver can do to the protected half. -/
inductive Protection.Move (q : Protection) : Protection → Prop
  | keep : Move q q
  | cancelled {s} (hs : q.session = some s) :
    Move q { q with session := none, owners := q.owners ++ [.ownerCancelled s.owner] }
  | signalled {a} (ha : q.activeUpload = some a) :
    Move q { q with owners := q.owners ++ [.ownerSignalled a.owner] }
  | stopped : Move q q.stop

namespace World

/-- The protected half of a world. -/
def protection (w : World) : Protection where
  session := w.state.crosscopyAuthorizedSession
  activeUpload := w.state.crosscopyAuthorizedActiveUpload
  stopping := w.state.crosscopyAuthorizedStopping
  owners := (w.log.map Prod.snd).filter Observation.ofOwner

/-- An observation of something else leaves the protected half alone. -/
theorem protection_observe (w : World) {o : Observation} (ho : o.ofOwner = false) :
    (w.observe o).protection = w.protection := by
  simp [protection, observe, ho]

/-- A call on an owner or its token is all that an observation of it adds. -/
theorem protection_observe_owner (w : World) {o : Observation} (ho : o.ofOwner = true) :
    (w.observe o).protection = { w.protection with owners := w.protection.owners ++ [o] } := by
  simp [protection, observe, ho]

/-- An event that is tried moves no protected upload. -/
@[simp] theorem protection_trySend (w : World) (e : ServerEvent) :
    (w.trySend e).protection = w.protection := protection_observe _ rfl

/-- Nor does one that is sent. -/
@[simp] theorem protection_send (w : World) (sender : EventSender) (e : ServerEvent) :
    (w.send sender e).protection = w.protection :=
  protection_observe _ rfl

/-- Nor does a step of a standard offer. -/
@[simp] theorem protection_setPrepare (w : World) (h : TaskId) (t : PrepareTask) :
    (w.setPrepare h t).protection = w.protection := rfl

/-- Nor does a step of a standard upload. -/
@[simp] theorem protection_setUpload (w : World) (u : TaskId) (t : UploadTask) :
    (w.setUpload u t).protection = w.protection := rfl

/-- Nor does a standard lifecycle. -/
@[simp] theorem protection_setLifecycle (w : World) (s : SessionId) (l : ReceiveLifecycle) :
    (w.setLifecycle s l).protection = w.protection := rfl

/-- Nor does the answer to an offer. -/
@[simp] theorem protection_answerPrepare (w : World) (h : TaskId) (t : PrepareTask)
    (status : StatusCode) (body : Option PrepareUploadResponse) :
    (w.answerPrepare h t status body).protection = w.protection := rfl

/-- Nor does the answer to an upload. -/
@[simp] theorem protection_answerUpload (w : World) (u : TaskId) (t : UploadTask)
    (status : StatusCode) : (w.answerUpload u t status).protection = w.protection :=
  protection_observe _ rfl

/-- Nor does the attempt to cancel the standard receives. -/
@[simp] theorem protection_tryCancelReceives (w : World) (s : SessionId) :
    (w.tryCancelReceives s).2.protection = w.protection := by
  unfold tryCancelReceives protection
  dsimp only
  split <;> simp [setLifecycle, Observation.ofOwner]

/-- Nor does a new standard session. -/
@[simp] theorem protection_allocate (w : World) (id : SessionId)
    (files : AssocMap FileId FileMetadata) :
    (w.allocate id files).protection = w.protection := protection_observe _ rfl

/-- Nor does an unwinding. -/
theorem protection_unwind (w : World) : w.unwind.protection = w.protection := by
  unfold unwind
  cases w.state.currentSession with
  | none => rfl
  | some s => exact protection_tryCancelReceives w s.id

/-- Nor does the end of a reservation. -/
theorem protection_clearReservation (w : World) (t : PrepareTask) :
    (w.clearReservation t).protection = w.protection := by
  unfold clearReservation
  split <;> rfl

/-- Nor does clearing the slot. -/
theorem protection_tryClearSlot (w : World) (session : Session) :
    (w.tryClearSlot session).2.protection = w.protection := by
  unfold tryClearSlot
  dsimp only
  split
  · exact protection_tryCancelReceives w session.id
  · exact protection_tryCancelReceives w session.id

/-- Nor does a placeholder. -/
theorem protection_placeReservation (w : World) (h : TaskId) (t : PrepareTask) (id : SessionId)
    (token : FileId → Token) :
    (w.placeReservation h t id token).protection = w.protection :=
  protection_allocate w id t.request.files

/-- A standard prepare leaves the protected half alone. -/
theorem protection_of_prepareStep {w w' : World} {h : TaskId} {a : PrepareAction}
    (hstep : PrepareStep w h a w') : w'.protection = w.protection := by
  cases hstep with
  | checkPin =>
    unfold checkPin
    dsimp only
    repeat' split
    all_goals rfl
  | @reserve t id token =>
    -- a placeholder is no protected record, and neither is the session reclaimed for it
    rcases reserve_cases w h t id token with ⟨s, _, _, heq⟩ | ⟨_, heq⟩ |
        ⟨s, _, _, _, heq⟩ <;> rw [heq]
    · rfl
    · exact protection_placeReservation w h t id token
    · rw [protection_placeReservation, protection_observe _ rfl]
      exact protection_tryCancelReceives w s.id
  | sendRequest =>
    unfold sendRequest
    split <;> simp
  | decide => rfl
  | @clearAwaiting t d id token =>
    rcases clearAwaiting_cases w h t d id token with ⟨_, _, heq⟩ | ⟨_, _, heq⟩ | ⟨_, heq⟩ <;>
      simp [heq, protection_clearReservation]
  -- the unwinding is about the slot of the standard route
  | refuse => exact protection_unwind w
  | decline => exact protection_unwind w
  | @install t session =>
    have hunwind := protection_unwind w
    unfold install
    dsimp only
    split <;> exact hunwind
  -- both texts go to the channel only
  | @deliverText t text id =>
    have hsent : ((w.trySend (.textReceived id text t.request.info.deviceAlias)).trySend
        (.sessionDone id)).protection = w.protection := by simp
    exact hsent
  | drop => rfl

/-- Nor does a progress that is rolled back. -/
theorem protection_rollbackProgress (w : World) (t : UploadTask) (amount : Nat) :
    (w.rollbackProgress t amount).protection = w.protection := protection_trySend _ _

/-- Nor does the record of a file. -/
theorem protection_record (w : World) (u : TaskId) (t : UploadTask) (path : PathBuf) :
    (w.record u t path).protection = w.protection := by
  have hstore : ∀ s : Session, (w.storeReceived s t.fileId).protection = w.protection := by
    intro s
    unfold storeReceived protection
    split <;> simp [Observation.ofOwner]
  have hrecord : ∀ s : Session, (w.recordFile t s path).protection = w.protection := fun s =>
    (protection_trySend _ _).trans (hstore s)
  unfold record
  split
  · exact protection_answerUpload w u t _
  · rename_i s _
    dsimp only
    rw [protection_answerUpload]
    split
    · exact (protection_trySend _ _).trans (hrecord s)
    · exact hrecord s

/-- A standard upload that holds or held a lease leaves the protected half alone. -/
theorem protection_of_uploadStep {sha : List UInt8 → String} {w w' : World} {u : TaskId}
    {a : UploadAction} (hstep : UploadStep sha w u a w')
    (hbegin : ∀ s f tok, a ≠ .begin_ s f tok) : w'.protection = w.protection := by
  cases hstep with
  -- the lease is treated apart: it may take the protected session
  | begin_ => exact absurd rfl (hbegin _ _ _)
  | @sinkCreated t result => rcases result with (_ | _) | _ <;> simp [sinkCreated]
  | @chunkWritten t chunk ok =>
    cases ok with
    | true => exact protection_observe _ rfl
    | false => rfl
  | reportProgress => exact protection_trySend _ _
  | flushed =>
    unfold bodyFlushed
    dsimp only
    repeat' split
    all_goals rfl
  | @reject t amount status abort =>
    have hrollback := protection_rollbackProgress w t amount
    cases abort with
    | true => exact hrollback
    | false => exact (protection_answerUpload _ u t status).trans hrollback
  | aborted => exact protection_answerUpload w u _ _
  | publish =>
    unfold publish
    split <;> rfl
  | @committed t result =>
    cases result with
    | none => rfl
    | some path => exact protection_observe _ rfl
  -- recording is about the session in the slot
  | @record t path => exact protection_record w u t path
  | _ => rfl

/-! ## The shared sections -/

/-- The first lock section of an upload takes a protected session it names out, to cancel
    its owner or to record the upload. -/
theorem protection_beginUpload (w : World) (u : TaskId) (x : SessionId) (f : FileId) (tok : Token) :
    (w.beginUpload u x f tok).protection =
      match w.state.crosscopyAuthorizedSession.filter fun s => s.sessionId = x with
      | none => w.protection
      | some s =>
        if s.fileId ≠ f ∨ s.uploadToken ≠ tok then
          { w.protection with
            session := none, owners := w.protection.owners ++ [.ownerCancelled s.owner] }
        else { w.protection with session := none, activeUpload := some ⟨s.sessionId,
          s.owner⟩ } := by
  unfold beginUpload
  -- the session that waits for this upload, by its id
  cases w.state.crosscopyAuthorizedSession.filter fun s => s.sessionId = x with
  | some s =>
    -- a wrong file or token ends the session
    by_cases hwrong : s.fileId ≠ f ∨ s.uploadToken ≠ tok
    · simp only [hwrong, if_true]
      rw [protection_observe _ rfl, protection_observe_owner _ rfl]
      rfl
    -- the right one becomes the active upload
    · simp only [hwrong, if_false]
      rfl
  -- no protected session of that id: the standard route decides
  | none =>
    dsimp only
    repeat' split
    all_goals exact protection_observe _ rfl

/-- Nor does the release task. -/
theorem protection_releaseReservation (w : World) (reserved : SessionId) :
    (w.releaseReservation reserved).protection = w.protection := by
  unfold releaseReservation
  dsimp only
  repeat' split
  · rfl
  · rfl
  · exact protection_tryCancelReceives _ _
  · rfl

/-- `stop` stops the protected uploads as it does without the standard ones. -/
theorem protection_stop (w : World) : w.stop.protection = w.protection.stop := by
  have hcrosscopy : ∀ v : World, v.state.crosscopyAuthorizedStopping = true →
      v.stopCrosscopy.protection = v.protection.stop := by
    intro v hv
    unfold stopCrosscopy protection Protection.stop
    cases v.state.crosscopyAuthorizedActiveUpload <;> cases v.state.crosscopyAuthorizedSession <;>
      simp [observe, Observation.ofOwner, hv]
  unfold stop
  dsimp only
  split
  · exact hcrosscopy _ rfl
  · rename_i s _
    have hclear := protection_tryClearSlot { w with state.crosscopyAuthorizedStopping := true } s
    rw [hcrosscopy _ (congrArg Protection.stopping hclear), hclear]
    rfl

/-- A tick of the sweep cancels the owner of a protected session that has timed out. -/
theorem protection_sessionSweep (w : World) :
    w.sessionSweep.protection =
      match w.state.crosscopyAuthorizedSession.filter fun s => s.isTimedOut w.now 300 with
      | none => w.protection
      | some s => { w.protection with
          session := none, owners := w.protection.owners ++ [.ownerCancelled s.owner] } := by
  -- the part of the sweep that is about the slot touches no protected record
  have hstandard : w.sweepStandard.protection = w.protection ∧ w.sweepStandard.now = w.now := by
    unfold sweepStandard
    dsimp only
    repeat' split
    · exact ⟨rfl, rfl⟩
    · exact ⟨(protection_observe _ rfl).trans (protection_tryClearSlot w _), now_tryClearSlot w _⟩
    · exact ⟨protection_tryClearSlot w _, now_tryClearSlot w _⟩
    · exact ⟨rfl, rfl⟩
  have hsession : w.sweepStandard.state.crosscopyAuthorizedSession =
      w.state.crosscopyAuthorizedSession := congrArg Protection.session hstandard.1
  unfold sessionSweep sweepCrosscopy
  rw [hsession, hstandard.2]
  cases w.state.crosscopyAuthorizedSession.filter fun s => s.isTimedOut w.now 300 with
  | none => exact hstandard.1
  | some s =>
    dsimp only
    rw [protection_observe_owner _ rfl, ← hstandard.1]
    rfl

/-- A `/cancel` cancels the owner of the session it names, or signals the upload. -/
theorem move_handleCancel (w : World) (peer : IpAddr) (x : Option SessionId) :
    w.protection.Move (w.handleCancel peer x).2.protection := by
  cases x with
  -- without an id only the standard offer can be withdrawn
  | none =>
    have hkeep : (w.handleCancel peer none).2.protection = w.protection := by
      unfold handleCancel
      dsimp only
      repeat' split
      · rfl
      · rfl
      · exact (protection_observe _ rfl).trans (protection_tryCancelReceives _ _)
      · exact protection_observe _ rfl
    rw [hkeep]
    exact .keep
  -- with an id the protected session comes first, then the active upload
  | some x =>
    unfold handleCancel
    dsimp only
    split
    · exact .keep
    · split
      · rename_i s hs
        have hs' : w.protection.session = some s := (Option.filter_eq_some_iff.mp hs).1
        rw [protection_observe_owner _ rfl]
        exact .cancelled hs'
      · split
        · rename_i a ha
          have ha' : w.protection.activeUpload = some a := (Option.filter_eq_some_iff.mp ha).1
          rw [protection_observe_owner _ rfl]
          exact .signalled ha'
        -- what is left is about the slot
        · have hkeep : ∀ s : Session, (w.tryCancelReceives s.id).2.protection = w.protection :=
            fun s => protection_tryCancelReceives w s.id
          repeat' split
          · exact .keep
          · rw [hkeep]
            exact .keep
          · rename_i s _ _
            have hsent : ({ (w.tryCancelReceives s.id).2.trySend (.sessionDone x) with
                state.currentSession := none, state.currentSessionFrom := none } : World).protection =
                w.protection := (protection_trySend _ _).trans (hkeep s)
            rw [hsent]
            exact .keep

/-- Every step that is not one of the protected sections makes one of the moves. -/
theorem move_of_step {sha : List UInt8 → String} {w w' : World} {a : Action}
    (hstep : w.step sha a = some w') (ha : a.ofProtected = false) :
    w.protection.Move w'.protection := by
  cases a with
  | prepare h b =>
    rw [protection_of_prepareStep (step_prepare hstep)]
    exact .keep
  | upload u b =>
    -- of the uploads only the lease could, and it is left out
    rw [protection_of_uploadStep (step_upload hstep) fun s f tok hb => by
      simp [hb, Action.ofProtected] at ha]
    exact .keep
  | release reserved =>
    simp only [step, Option.ite_none_right_eq_some, Option.some.injEq] at hstep
    obtain ⟨_, rfl⟩ := hstep
    rw [protection_releaseReservation]
    exact .keep
  | cancel peer x =>
    cases hstep
    exact move_handleCancel w peer x
  | sweep =>
    cases hstep
    rw [protection_sessionSweep]
    -- the sweep takes an idle protected session
    cases hs : w.state.crosscopyAuthorizedSession.filter fun s => s.isTimedOut w.now 300 with
    | none => exact .keep
    | some s => exact .cancelled (Option.filter_eq_some_iff.mp hs).1
  | stop =>
    cases hstep
    rw [protection_stop]
    exact .stopped
  | installCrosscopy session => cases ha
  | finishCrosscopy x => cases ha
  | env b =>
    cases hstep
    -- the clock, the consumer and the registrations touch no protected record
    have hkeep : (w.envStep b).protection = w.protection := by
      cases b with
      | register device => exact protection_trySend w _
      | _ => rfl
    rw [hkeep]
    exact .keep

/-- An owner that cannot be installed is cancelled. -/
theorem protection_installCrosscopy (w : World) (s : CrossCopyAuthorizedSession) :
    (w.installCrosscopy s).protection =
      if w.protection.stopping ∨ w.protection.session.isSome then
        { w.protection with owners := w.protection.owners ++ [.ownerCancelled s.owner] }
      else { w.protection with session := some s } := by
  unfold installCrosscopy
  by_cases hfull : w.state.crosscopyAuthorizedStopping ∨ w.state.crosscopyAuthorizedSession.isSome
  · rw [if_pos hfull]
    exact (protection_observe_owner w rfl).trans (if_pos hfull).symm
  · rw [if_neg hfull]
    exact (if_neg hfull).symm

/-- A returned upload clears the record if it is its own. -/
theorem protection_finishCrosscopy (w : World) (x : SessionId) :
    (w.finishCrosscopy x).protection =
      if w.protection.activeUpload.any fun a => a.sessionId = x then
        { w.protection with activeUpload := none }
      else w.protection := by
  unfold finishCrosscopy
  by_cases hown : w.state.crosscopyAuthorizedActiveUpload.any fun a => a.sessionId = x
  · rw [if_pos hown]
    exact (if_pos hown).symm
  · rw [if_neg hown]
    exact (if_neg hown).symm

/-- A send of an event leaves the protected half alone. -/
theorem protection_sendEvent {w w' : World} {sender : EventSender} {e : ServerEvent}
    (h : w.sendEvent sender e = some w') : w'.protection = w.protection := by
  unfold sendEvent at h
  split at h
  · cases h; rfl
  · split at h
    · cases h; exact protection_send w sender e
    · simp at h

end World

/-! ## Inversion -/

namespace ProtectedWorld

/-- The handlers and the bookkeeping of the protected half are the same in both worlds. -/
structure SameHandlers (p p' : ProtectedWorld) : Prop where
  prepares : p'.prepares = p.prepares
  uploads : p'.uploads = p.uploads
  sessions : p'.sessions = p.sessions
  received : p'.received = p.received

/-- The steps of the protected half. -/
inductive Step (p : ProtectedWorld) : ProtectedAction → ProtectedWorld → Prop
  | receiver {a p'} (move : p.world.protection.Move p'.world.protection)
    (same : p.SameHandlers p') : Step p (.receiver a) p'
  | begin_ {h values request} (fresh : p.prepares h = none) :
    Step p (.prepare h (.begin_ values request)) (p.beginPrepare h values request)
  | preflight {h t} (ht : p.prepares h = some t) (live : t.dropped = false)
    (phase : t.phase = .checking) : Step p (.prepare h .preflight) (p.preflight h t)
  | askGate {h t} (ht : p.prepares h = some t) (live : t.dropped = false)
    (phase : t.phase = .asking) : Step p (.prepare h .askGate) (p.askGate h t)
  | gateAnswered {h t owner id token} (ht : p.prepares h = some t) (live : t.dropped = false)
    (phase : t.phase = .taking) (fresh : ∀ o ∈ owner, o ∉ p.taken) (hid : id ∉ p.ids) :
    Step p (.prepare h (.gateAnswered owner id token)) (p.gateAnswered h t owner id token)
  | install {h t s} (ht : p.prepares h = some t) (live : t.dropped = false)
    (phase : t.phase = .installing s) : Step p (.prepare h .install) (p.install h t s)
  | prepareCancelled {h t status} (ht : p.prepares h = some t) (live : t.dropped = false)
    (phase : t.phase = .cancelling status) :
    Step p (.prepare h .cancelled) (p.setPrepare h { t with phase := .answered status none })
  | dropPrepare {h t} (ht : p.prepares h = some t) (live : t.dropped = false)
    (awaits : t.phase.awaits = true) :
    Step p (.prepare h .drop) (p.setPrepare h { t with dropped := true })
  | beginUpload {u x f tok} (fresh : p.uploads u = none) :
    Step p (.begin_ u x f tok)
      { p.beginUpload u x f tok with world := p.world.beginUpload u x f tok }
  | uploadCancelled {u t} (ht : p.uploads u = some t) (live : t.dropped = false)
    (phase : t.phase = .cancelling) :
    Step p (.upload u .cancelled) (p.setUpload u { t with phase := .answered .forbidden })
  | received {u t result} (ht : p.uploads u = some t) (live : t.dropped = false)
    (phase : t.phase = .receiving) :
    Step p (.upload u (.received result)) (p.setUpload u { t with phase := .finishing result })
  | finish {u t result} (ht : p.uploads u = some t) (live : t.dropped = false)
    (phase : t.phase = .finishing result) : Step p (.upload u .finish) (p.finish u t result)
  | announce {u t receipt w'} (ht : p.uploads u = some t) (live : t.dropped = false)
    (phase : t.phase = .announcing receipt) (sent : w'.protection = p.world.protection) :
    Step p (.upload u .announce) { p.setUpload u { t with phase := .closing } with world := w' }
  | close {u t w'} (ht : p.uploads u = some t) (live : t.dropped = false)
    (phase : t.phase = .closing) (sent : w'.protection = p.world.protection) :
    Step p (.upload u .close) { p.setUpload u { t with phase := .answered .ok } with world := w' }
  | awaitRoom {u t w'} (ht : p.uploads u = some t) (live : t.dropped = false)
    (waits : w'.protection = p.world.protection) :
    Step p (.upload u .awaitRoom) { p.setUpload u t with world := w' }
  | dropUpload {u t w'} (ht : p.uploads u = some t) (live : t.dropped = false)
    (awaits : t.phase.awaits = true) (left : w'.protection = p.world.protection) :
    Step p (.upload u .drop) { p.setUpload u { t with dropped := true } with world := w' }

/-- A step of a protected prepare is one of its sections. -/
theorem step_prepare {sha : List UInt8 → String} {p p' : ProtectedWorld} {h : TaskId}
    {a : ProtectedPrepareAction} (hstep : p.step sha (.prepare h a) = some p') :
    p.Step (.prepare h a) p' := by
  simp only [step] at hstep
  -- only a protected request that begins creates a task
  cases ht : p.prepares h with
  | none =>
    cases a <;> simp only [ht, Option.some.injEq, reduceCtorEq] at hstep
    subst hstep
    exact .begin_ ht
  | some t =>
    simp only [ht, Option.ite_none_left_eq_some, Bool.not_eq_true] at hstep
    obtain ⟨hlive, hstep⟩ := hstep
    cases a with
    | begin_ => cases hstep
    | preflight =>
      simp only [prepareStep, Option.ite_none_right_eq_some, Option.some.injEq] at hstep
      obtain ⟨hphase, rfl⟩ := hstep
      exact .preflight ht hlive hphase
    | askGate =>
      simp only [prepareStep, Option.ite_none_right_eq_some, Option.some.injEq] at hstep
      obtain ⟨hphase, rfl⟩ := hstep
      exact .askGate ht hlive hphase
    | gateAnswered owner id token =>
      simp only [prepareStep, Option.ite_none_right_eq_some, Option.some.injEq] at hstep
      obtain ⟨⟨hphase, hfresh, hid, _⟩, rfl⟩ := hstep
      exact .gateAnswered ht hlive hphase hfresh hid
    -- the session to install is in the phase
    | install =>
      simp only [prepareStep] at hstep
      split at hstep
      · cases hstep; exact .install ht hlive (by assumption)
      · simp at hstep
    | cancelled =>
      simp only [prepareStep] at hstep
      split at hstep
      · cases hstep; exact .prepareCancelled ht hlive (by assumption)
      · simp at hstep
    | drop =>
      simp only [prepareStep, Option.ite_none_right_eq_some, Option.some.injEq] at hstep
      obtain ⟨hawaits, rfl⟩ := hstep
      exact .dropPrepare ht hlive hawaits

/-- To write a record back as it is changes nothing. -/
theorem setUpload_self {p : ProtectedWorld} {u : TaskId} {t : ProtectedUpload}
    (ht : p.uploads u = some t) :
    p.setUpload u t = p := by
  unfold setUpload
  rw [Function.update_eq_self_iff.mpr ht.symm]

/-- A step of a protected upload is one of its sections. -/
theorem step_upload {sha : List UInt8 → String} {p p' : ProtectedWorld} {u : TaskId}
    {a : ProtectedUploadAction} (hstep : p.step sha (.upload u a) = some p') :
    p.Step (.upload u a) p' := by
  simp only [step] at hstep
  -- an upload's task is made by the lease of the standard route
  cases ht : p.uploads u with
  | none => simp [ht] at hstep
  | some t =>
    simp only [ht, Option.ite_none_left_eq_some, Bool.not_eq_true] at hstep
    obtain ⟨hlive, hstep⟩ := hstep
    cases a with
    | cancelled =>
      simp only [uploadStep, Option.ite_none_right_eq_some, Option.some.injEq] at hstep
      obtain ⟨hphase, rfl⟩ := hstep
      exact .uploadCancelled ht hlive hphase
    | received result =>
      simp only [uploadStep, Option.ite_none_right_eq_some, Option.some.injEq] at hstep
      obtain ⟨hphase, rfl⟩ := hstep
      exact .received ht hlive hphase
    | finish =>
      simp only [uploadStep] at hstep
      split at hstep
      · cases hstep; exact .finish ht hlive (by assumption)
      -- the event waits for room in the channel
      · simp at hstep
    | announce =>
      simp only [uploadStep] at hstep
      split at hstep
      · simp only [Option.map_eq_some_iff] at hstep
        obtain ⟨w', hsent, rfl⟩ := hstep
        exact .announce ht hlive (by assumption) (World.protection_sendEvent hsent)
      · simp at hstep
    | close =>
      simp only [uploadStep, Option.ite_none_right_eq_some, Option.map_eq_some_iff] at hstep
      obtain ⟨hphase, w', hsent, rfl⟩ := hstep
      exact .close ht hlive hphase (World.protection_sendEvent hsent)
    | drop =>
      simp only [uploadStep, Option.ite_none_right_eq_some, Option.some.injEq] at hstep
      obtain ⟨hawaits, rfl⟩ := hstep
      exact .dropUpload ht hlive hawaits rfl
    -- joining the waiters changes no record
    | awaitRoom =>
      simp only [uploadStep, Option.ite_none_right_eq_some, Option.some.injEq] at hstep
      obtain ⟨-, rfl⟩ := hstep
      have hself : p.setUpload u t = p := setUpload_self ht
      have hmove : p.Step (.upload u .awaitRoom) { p.setUpload u t with
          world := { p.world with channel := p.world.channel.wait (.upload u) } } :=
        .awaitRoom ht hlive rfl
      rw [hself] at hmove
      exact hmove

/-- Every step of the protected receiver is one of the sections. -/
theorem step_cases {sha : List UInt8 → String} {p p' : ProtectedWorld} {a : ProtectedAction}
    (hstep : (protectedReceiver sha).step p a = some p') : p.Step a p' := by
  have hstep : p.step sha a = some p' := hstep
  cases a with
  | prepare h b => exact step_prepare hstep
  | upload u b => exact step_upload hstep
  -- every other action of the receiver; the lease goes by its own step
  | receiver b =>
    simp only [step, Option.ite_none_left_eq_some, Bool.not_eq_true,
      Option.map_eq_some_iff] at hstep
    obtain ⟨hb, w', hw, rfl⟩ := hstep
    have hmove := World.move_of_step hw hb
    exact .receiver hmove ⟨rfl, rfl, rfl, rfl⟩
  | begin_ u x f tok =>
    simp only [step, Option.ite_none_right_eq_some, Option.map_eq_some_iff] at hstep
    obtain ⟨hu, w', hw, rfl⟩ := hstep
    have hbegin : World.UploadStep sha p.world u (.begin_ x f tok) w' := World.step_upload hw
    cases hbegin with
    | begin_ => exact .beginUpload hu

end ProtectedWorld

end LocalSend
