import LocalSend.Server.State

/-!
# The receive handlers

Model of `src/server/handlers.rs`, and of the sweep and the critical section of `stop`
in `src/server/server.rs`. Each function is the code between two await points, run on
the shared `World`: what it does under the `RwLock`, and the local computation up to
the next await. `System.lean` says in which phase of a handler each one runs.
-/

namespace LocalSend

/-! ## handle_standard_prepare_upload -/

/-- The `message_text` of an offer: exactly one small item with a non-empty preview. -/
def PrepareUploadRequest.messageText (request : PrepareUploadRequest) : Option String :=
  match request.files.entries with
  | [(_, file)] => file.preview.filter fun text => text ≠ "" && file.size < 1024 * 1024
  | _ => none

/-- The `accepted_ids` a decision leaves of an offer. -/
def PrepareUploadRequest.acceptedIds (request : PrepareUploadRequest) :
    TransferDecision → List FileId
  | .accept => request.files.keys
  | .acceptFiles ids => ids.filter request.files.contains
  | .decline => []
  | .refuse _ => []

/-- The `accepted_files` the real session is built from. -/
def PrepareUploadRequest.acceptedFiles (request : PrepareUploadRequest) (ids : List FileId) :
    AssocMap FileId FileMetadata :=
  request.files.filter fun f _ => ids.contains f

/-- A prepare that has reserved the slot: with `auto_accept` it is decided already,
    otherwise the event consumer is asked. -/
def PrepareTask.reservedAs (t : PrepareTask) (id : SessionId)
    (autoAccept : Bool) : PrepareTask :=
  if autoAccept then
    { t with
      reserved := some id, autoAccept := true, decision := some .accept, phase := .clearing }
  else { t with reserved := some id, autoAccept := false, phase := .sending }

namespace World

/-- Answer a prepare. Leaving the function drops its `ReservationGuard`, if it got as
    far as the reservation, and the guard spawns its release task. -/
def answerPrepare (w : World) (h : TaskId) (t : PrepareTask) (status : StatusCode)
    (body : Option PrepareUploadResponse) : World :=
  { w.setPrepare h { t with phase := .answered status body } with
    releases := w.releases ++ t.reserved.toList }

/-- Drop a prepare at an await point: the answer is lost, the guard runs, and where it awaits the
    channel, it leaves that. -/
def dropPrepare (w : World) (h : TaskId) (t : PrepareTask) : World :=
  { w.setPrepare h { t with dropped := true } with
    releases := w.releases ++ t.reserved.toList
    channel := w.channel.leave (.prepare h) }

/-- The first lock section: the PIN gate. Then the empty offer, before any session. -/
def checkPin (w : World) (h : TaskId) (peer : IpAddr) (pin : Option String)
    (request : PrepareUploadRequest) : World :=
  let r := w.state.pinGate.check w.now pin peer
  let w := { w with state.pinGate := r.2 }
  let t : PrepareTask :=
    { peer, request, verdict := r.1, autoAccept := false, reserved := none, decision := none,
      accepted := none, dropped := false, phase := .reserving }
  match r.1 with
  | .unauthorized => w.answerPrepare h t .unauthorized none
  | .lockedOut => w.answerPrepare h t .tooManyRequests none
  | .ok _ =>
    if request.files.isEmpty then w.answerPrepare h t .noContent none else w.setPrepare h t

/-- Cancel the receives of the installed session and clear the slot, unless one of its
    files is publishing; whether the slot was cleared. Prepare, the sweep and `stop`
    all free the slot this way. -/
def tryClearSlot (w : World) (session : Session) : Bool × World :=
  let r := w.tryCancelReceives session.id
  (r.1, if r.1 then { r.2 with state.currentSession := none } else r.2)

/-- Install the placeholder over the offered files, and load `auto_accept`. -/
def placeReservation (w : World) (h : TaskId) (t : PrepareTask) (id : SessionId)
    (token : FileId → Token) : World :=
  let placeholder := Session.new t.request.info.deviceAlias t.request.files id token w.now
  { w.allocate id t.request.files with
    state.awaitingConsent := some ⟨id, t.peer⟩
    state.currentSessionFrom := some t.peer
    state.currentSession := some placeholder }.setPrepare h (t.reservedAs id w.state.autoAccept)

/-- The second lock section: reject a conflicting session, or reserve the slot. -/
def reserve (w : World) (h : TaskId) (t : PrepareTask) (id : SessionId)
    (token : FileId → Token) : World :=
  match w.state.currentSession with
  | none => w.placeReservation h t id token
  | some session =>
    if session.isTimedOut w.now w.state.sessionTimeout then
      let r := w.tryClearSlot session
      if r.1 then (r.2.observe (.sessionReclaimed session.id)).placeReservation h t id token
      else r.2.answerPrepare h t .conflict none
    else w.answerPrepare h t .conflict none

/-- `events_tx.send(TransferRequest)`, once there is a permit or the channel is closed. -/
def sendRequest (w : World) (h : TaskId) (t : PrepareTask) : World :=
  if w.channel.closed then
    -- no consumer listening: decline
    w.setPrepare h { t with decision := some .decline, phase := .clearing }
  else
    (w.send (.prepare h) (.transferRequest t.request.info t.request.files)).setPrepare h
      { t with phase := .deciding }

/-- The biased `select!`: the withdraw token wins over the answer. `none` is a dropped
    request or the accept timeout. -/
def decide (w : World) (h : TaskId) (t : PrepareTask) (answer : Option TransferDecision) : World :=
  let withdrawn := t.reserved.any fun r => r ∈ w.withdrawn
  let decision := if withdrawn then .decline else answer.getD .decline
  w.setPrepare h { t with decision := some decision, phase := .clearing }

/-- The lock section after the decision: the reservation no longer awaits consent, if it
    is still this handler's. -/
def clearReservation (w : World) (t : PrepareTask) : World :=
  if w.state.awaitingConsent.any fun r => some r.sessionId = t.reserved then
    { w with state.awaitingConsent := none }
  else w

/-- That lock section, then everything up to the next lock: the choice of the unwinding
    path, or building the real session. -/
def clearAwaiting (w : World) (h : TaskId) (t : PrepareTask) (decision : TransferDecision)
    (id : SessionId) (token : FileId → Token) : World :=
  let w := w.clearReservation t
  match decision with
  | .refuse _ => w.setPrepare h { t with phase := .refusing }
  | decision =>
    let ids := t.request.acceptedIds decision
    if ids.isEmpty then w.setPrepare h { t with phase := .declining }
    else
      let files := t.request.acceptedFiles ids
      let session := Session.new t.request.info.deviceAlias files id token w.now
      (w.allocate id files).setPrepare h
        { t with accepted := some id, phase := .installing session }

/-- The unwinding that `Refuse` and a decline share: cancel whatever session is
    installed, without looking at the answer, and clear the slot. -/
def unwind (w : World) : World :=
  let w := match w.state.currentSession with
    | none => w
    | some session => (w.tryCancelReceives session.id).2
  { w with state.currentSession := none }

/-- The lock section of the refuse path. -/
def refuse (w : World) (h : TaskId) (t : PrepareTask) : World :=
  w.unwind.answerPrepare h t .badRequest none

/-- The lock section of the decline path. -/
def decline (w : World) (h : TaskId) (t : PrepareTask) : World :=
  w.unwind.answerPrepare h t .forbidden none

/-- The lock section that installs the accepted session over the placeholder. -/
def install (w : World) (h : TaskId) (t : PrepareTask) (session : Session) : World :=
  let w := { w.unwind with state.currentSession := some session }
  match t.request.messageText with
  | some text => w.setPrepare h { t with phase := .messaging text }
  | none => w.answerPrepare h t .ok (some ⟨session.id, session.tokens⟩)

/-- The lock section of the message branch. -/
def deliverText (w : World) (h : TaskId) (t : PrepareTask) (id : SessionId) (text : String) :
    World :=
  let w := w.trySend (.textReceived id text t.request.info.deviceAlias)
  let w := w.trySend (.sessionDone id)
  { w with state.currentSession := none }.answerPrepare h t .noContent none

/-- The task `ReservationGuard::drop` spawns. -/
def releaseReservation (w : World) (reserved : SessionId) : World :=
  let ours := w.state.awaitingConsent.any fun r => r.sessionId = reserved
  if !ours then w
  else
    let w := { w with state.awaitingConsent := none }
    match w.state.currentSession with
    | none => w
    | some session =>
      if session.id = reserved then
        { (w.tryCancelReceives session.id).2 with
          state.currentSession := none, state.currentSessionFrom := none }
      else w

/-! ## handle_upload -/

/-- `ReceiveProgressContext::emit`. -/
def emitProgress (w : World) (t : UploadTask) (bytesReceived : Nat) : World :=
  w.trySend (.fileReceiveProgress t.grant.sessionId t.fileId t.grant.fileName
    t.grant.senderAlias bytesReceived t.grant.totalBytes t.grant.fileCount)

/-- `ReceiveProgressContext::add`. -/
def addProgress (w : World) (t : UploadTask) (amount : Nat) : World :=
  let bytes := min (w.receivedBytes t.grant.sessionId + amount) t.grant.totalBytes
  { w with receivedBytes := Function.update w.receivedBytes t.grant.sessionId bytes }.emitProgress
    t bytes

/-- `ReceiveProgressContext::rollback`. -/
def rollbackProgress (w : World) (t : UploadTask) (amount : Nat) : World :=
  let bytes := w.receivedBytes t.grant.sessionId - amount
  { w with receivedBytes := Function.update w.receivedBytes t.grant.sessionId bytes }.emitProgress
    t bytes

/-- Answer an upload, dropping the lease or permit it still holds. -/
def answerUpload (w : World) (u : TaskId) (t : UploadTask) (status : StatusCode) : World :=
  ((w.dropHandle t.grant.sessionId t.handle).setUpload u
    { t with handle := none, phase := .answered status }).observe (.uploadAnswered u status)

/-- Drop an upload at an await point, and the lease or permit with it. -/
def dropUpload (w : World) (u : TaskId) (t : UploadTask) : World :=
  (w.dropHandle t.grant.sessionId t.handle).setUpload u { t with handle := none, dropped := true }

/-- What the session hands an upload of `meta`: the tuple taken out under the lock. -/
def grantUpload (state : ServerState) (session : Session) (file : FileMetadata) : UploadGrant where
  fileName := file.fileName
  sessionId := session.id
  senderAlias := session.senderAlias
  declaredSize := file.size
  declaredSha := file.sha256
  totalBytes := (session.files.values.map FileMetadata.size).foldl
    (fun total size => min (total + size) (2 ^ 64 - 1)) 0
  fileCount := session.files.size
  receiveRateLimitBytesPerSecond := state.receiveRateLimitBytesPerSecond
  saveDir := state.saveDir

/-- The first lock section of `handle_upload`, up to the call of `sink.create`. -/
def beginUpload (w : World) (u : TaskId) (sessionId : SessionId) (fileId : FileId)
    (token : Token) : World :=
  match w.state.crosscopyAuthorizedSession.filter fun s => s.sessionId = sessionId with
  | some session =>
    -- the protected session owns a one-shot token and is removed either way
    let w := { w with state.crosscopyAuthorizedSession := none }
    if session.fileId ≠ fileId ∨ session.uploadToken ≠ token then
      (w.observe (.ownerCancelled session.owner)).observe (.uploadAnswered u .forbidden)
    else
      { w with
        state.crosscopyAuthorizedActiveUpload := some ⟨session.sessionId, session.owner⟩ }
  | none =>
    match w.state.currentSession with
    | none => w.observe (.uploadAnswered u .forbidden)
    | some session =>
      if session.id ≠ sessionId then w.observe (.uploadAnswered u .forbidden)
      else if !session.verifyToken fileId token then w.observe (.uploadAnswered u .forbidden)
      else
        match session.files.get? fileId with
        | none => w.observe (.uploadAnswered u .notFound)
        | some file =>
          match (w.lifecycles session.id).beginReceive fileId with
          | none => w.observe (.uploadAnswered u .conflict)
          | some l =>
            ((w.setLifecycle session.id l).setUpload u
              { fileId, grant := grantUpload w.state session file, handle := some (.lease fileId),
                body := .new, dropped := false, phase := .creating }).observe
                  (.sinkCreate u session.id fileId)

/-- `sink.create` has returned. -/
def sinkCreated (w : World) (u : TaskId) (t : UploadTask) (result : Except SinkError PathBuf) :
    World :=
  match result with
  | .ok _ => w.setUpload u { t with phase := .streaming }
  | .error (.rejected _) => w.answerUpload u t .badRequest
  | .error (.failed _) => w.answerUpload u t .internalServerError

/-- The stream has yielded a chunk: it is counted and hashed, and `write_all` starts. -/
def receiveChunk (w : World) (u : TaskId) (t : UploadTask) (chunk : List UInt8) : World :=
  w.setUpload u { t with
    body := { t.body with
      chunks := t.body.chunks ++ [chunk]
      bytesWritten := t.body.bytesWritten + chunk.length
      hashed := t.body.hashed ++ chunk }
    phase := .writing chunk }

/-- `write_all` has returned. -/
def chunkWritten (w : World) (u : TaskId) (t : UploadTask) (chunk : List UInt8) (ok : Bool) :
    World :=
  if ok then
    (w.setUpload u { t with
      body := { t.body with written := t.body.written ++ chunk }
      phase := .reporting }).observe (.chunkWritten t.grant.sessionId t.fileId)
  else w.setUpload u { t with phase := .rejecting t.body.reported .internalServerError true }

/-- The progress callback. -/
def reportProgress (w : World) (u : TaskId) (t : UploadTask) : World :=
  (w.addProgress t (t.body.bytesWritten - t.body.reported)).setUpload u
    { t with body := { t.body with reported := t.body.bytesWritten }, phase := .streaming }

/-- `str::eq_ignore_ascii_case`. -/
def eqIgnoreAsciiCase (a b : String) : Bool :=
  a.toList.map Char.toLower = b.toList.map Char.toLower

/-- `flush` has returned, and on success the body is checked against the metadata
    declared in prepare-upload. -/
def bodyFlushed (sha256 : List UInt8 → String) (w : World) (u : TaskId) (t : UploadTask)
    (ok : Bool) : World :=
  let reject (amount : Nat) :=
    w.setUpload u { t with phase := .rejecting amount .internalServerError true }
  if !ok then reject t.body.reported
  else if t.body.bytesWritten ≠ t.grant.declaredSize then reject t.body.bytesWritten
  else if t.grant.declaredSha.any fun expected =>
      !eqIgnoreAsciiCase (sha256 t.body.hashed) expected then reject t.body.bytesWritten
  else w.setUpload u { t with phase := .validated }

/-- The session's token fired first: the biased `select!` abandons the body. -/
def interruptBody (w : World) (u : TaskId) (t : UploadTask) : World :=
  w.setUpload u { t with phase := .rejecting t.body.reported .conflict true }

/-- Roll progress back; then abort the pending receive, or answer. -/
def rejectUpload (w : World) (u : TaskId) (t : UploadTask) (amount : Nat) (status : StatusCode)
    (abort : Bool) : World :=
  let w := w.rollbackProgress t amount
  if abort then w.setUpload u { t with phase := .aborting status } else w.answerUpload u t status

/-- `begin_publication`. -/
def publish (w : World) (u : TaskId) (t : UploadTask) : World :=
  match (w.lifecycles t.grant.sessionId).beginPublication t.fileId with
  | some l => (w.setLifecycle t.grant.sessionId l).setUpload u
      { t with handle := some (.permit t.fileId), phase := .committing }
  | none => w.setUpload u
      { t with handle := some (.spentLease t.fileId), phase := .surrendering }

/-- The drop of the lease that `begin_publication` consumed without publishing. -/
def surrender (w : World) (u : TaskId) (t : UploadTask) : World :=
  (w.dropHandle t.grant.sessionId t.handle).setUpload u
    { t with handle := none, phase := .rejecting t.body.bytesWritten .conflict true }

/-- `pending.commit` has returned. A failed commit publishes nothing and leaves the
    pending receive to its own cleanup. -/
def committed (w : World) (u : TaskId) (t : UploadTask) (result : Option PathBuf) : World :=
  match result with
  | some path => (w.setUpload u { t with phase := .recording path }).observe
      (.fileCommitted u t.grant.sessionId t.fileId path t.body.written)
  | none => w.setUpload u
      { t with phase := .rejecting t.body.bytesWritten .internalServerError false }

/-- `mark_received` on the session in the slot. -/
def storeReceived (w : World) (session : Session) (f : FileId) : World :=
  { w with
    state.currentSession := some (session.markReceived f w.now).2
    log := if session.files.contains f then w.log ++ [(w.now, .fileCompleted session.id f)]
      else w.log }

/-- Record the file in the session, announce it and finish the permit. -/
def recordFile (w : World) (t : UploadTask) (session : Session) (path : PathBuf) : World :=
  let w := (w.storeReceived session t.fileId).trySend (.fileReceived session.id t.fileId
    (path.fileName.getD t.grant.fileName) path t.body.bytesWritten t.grant.senderAlias none)
  w.setLifecycle session.id ((w.lifecycles session.id).finish t.fileId)

/-- The last lock section: record the file, and clear the slot after the last one. -/
def record (w : World) (u : TaskId) (t : UploadTask) (path : PathBuf) : World :=
  match w.state.currentSession.filter fun session => session.id = t.grant.sessionId with
  | none => w.answerUpload u t .internalServerError
  | some session =>
    let allDone := (session.markReceived t.fileId w.now).1
    let w := w.recordFile t session path
    let w := if allDone then
        { w.trySend (.sessionDone session.id) with state.currentSession := none }
      else w
    w.answerUpload u { t with handle := none } .ok

/-! ## handle_cancel -/

/-- `handle_cancel`, one lock section. -/
def handleCancel (w : World) (peer : IpAddr) (sessionId : Option SessionId) : StatusCode × World :=
  match sessionId with
  | none =>
    match w.state.awaitingConsent with
    | none => (.badRequest, w)
    | some reservation =>
      if reservation.fromIp ≠ peer then (.forbidden, w)
      else
        let w := { w with state.awaitingConsent := none }
        let w := match w.state.currentSession.filter fun s => s.id = reservation.sessionId with
          | some session => { (w.tryCancelReceives session.id).2 with
              state.currentSession := none, state.currentSessionFrom := none }
          | none => w
        -- wakes the parked handler, which unwinds through its own decline path
        (.ok, { w with withdrawn := reservation.sessionId :: w.withdrawn }.observe
          (.offerWithdrawn reservation.sessionId))
  | some sessionId =>
    let claimedBySender := w.state.currentSessionFrom.any fun ip => ip = peer
    if !claimedBySender && w.state.currentSessionFrom.isSome then (.forbidden, w)
    else
      match w.state.crosscopyAuthorizedSession.filter fun s => s.sessionId = sessionId with
      | some session => (.ok, { w with state.crosscopyAuthorizedSession := none }.observe
          (.ownerCancelled session.owner))
      | none =>
        match w.state.crosscopyAuthorizedActiveUpload.filter fun a => a.sessionId = sessionId with
        | some active => (.ok, w.observe (.ownerSignalled active.owner))
        | none =>
          match w.state.currentSession.filter fun s => s.id = sessionId with
          | none => (.ok, w)
          | some session =>
            let r := w.tryCancelReceives session.id
            if !r.1 then (.conflict, r.2)
            else (.ok, { r.2.trySend (.sessionDone sessionId) with
              state.currentSession := none, state.currentSessionFrom := none })

/-! ## The sweep, stop, and the protected sections that share the lock -/

/-- The standard half of a tick of `spawn_session_sweep`. -/
def sweepStandard (w : World) : World :=
  match w.state.currentSession with
  | none => w
  | some session =>
    if session.isTimedOut w.now w.state.sessionTimeout then
      let r := w.tryClearSlot session
      if r.1 then r.2.observe (.sessionReclaimed session.id) else r.2
    else w

/-- The protected half of the tick. -/
def sweepCrosscopy (w : World) : World :=
  match w.state.crosscopyAuthorizedSession.filter fun s => s.isTimedOut w.now 300 with
  | some session => { w with state.crosscopyAuthorizedSession := none }.observe
      (.ownerCancelled session.owner)
  | none => w

/-- One tick of `spawn_session_sweep`. -/
def sessionSweep (w : World) : World := w.sweepStandard.sweepCrosscopy

/-- `stop` takes the protected session and the running protected upload out, and
    cancels both after the lock is released. -/
def stopCrosscopy (w : World) : World :=
  let owner := w.state.crosscopyAuthorizedSession.map CrossCopyAuthorizedSession.owner
  let active := w.state.crosscopyAuthorizedActiveUpload.map CrossCopyAuthorizedActiveUpload.owner
  let w := { w with
    state.crosscopyAuthorizedSession := none, state.crosscopyAuthorizedActiveUpload := none }
  let w := match active with
    | some o => w.observe (.ownerSignalled o)
    | none => w
  match owner with
  | some o => w.observe (.ownerCancelled o)
  | none => w

/-- The critical section of `LocalSendServer::stop` and the two cancellations after it. -/
def stop (w : World) : World :=
  let w := { w with state.crosscopyAuthorizedStopping := true }
  match w.state.currentSession with
  | none => w.stopCrosscopy
  | some session => (w.tryClearSlot session).2.stopCrosscopy

/-- The lock section of `handle_crosscopy_authorized_prepare` after the gate has handed
    out an owner. -/
def installCrosscopy (w : World) (session : CrossCopyAuthorizedSession) : World :=
  if w.state.crosscopyAuthorizedStopping ∨ w.state.crosscopyAuthorizedSession.isSome then
    w.observe (.ownerCancelled session.owner)
  else { w with state.crosscopyAuthorizedSession := some session }

/-- The lock section of a protected `handle_upload` after `receive` has returned. -/
def finishCrosscopy (w : World) (sessionId : SessionId) : World :=
  if w.state.crosscopyAuthorizedActiveUpload.any fun a => a.sessionId = sessionId then
    { w with state.crosscopyAuthorizedActiveUpload := none }
  else w

end World

end LocalSend
