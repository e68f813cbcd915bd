import LocalSend.ForStd.TransitionSystem
import LocalSend.Server.Handlers

/-!
# The receiver as a transition system

Any number of prepare and upload handlers, `/cancel` requests, release tasks, the
sweep, `stop`, the protected sections and the environment, in any interleaving of the
pieces of code between two awaits.

The random source is an input: an action that builds a session carries the id and the
tokens it draws, and is enabled for an id that was never issued before.
-/

namespace LocalSend

/-- What a `handle_standard_prepare_upload` does next. -/
inductive PrepareAction where
  | checkPin (peer : IpAddr) (pin : Option String) (request : PrepareUploadRequest)
  | reserve (id : SessionId) (token : FileId → Token)
  | sendRequest
  | decide (answer : Option TransferDecision)
  | clearAwaiting (id : SessionId) (token : FileId → Token)
  | refuse
  | decline
  | install
  | deliverText
  /-- The client disconnects, and the future is dropped at its await point. -/
  | drop

/-- What a `handle_upload` does next. -/
inductive UploadAction where
  | begin_ (sessionId : SessionId) (fileId : FileId) (token : Token)
  | sinkCreated (result : Except SinkError PathBuf)
  | chunk (bytes : List UInt8)
  | streamError
  | streamEnd
  | chunkWritten (ok : Bool)
  | reportProgress
  | flushed (ok : Bool)
  | interrupt
  | reject
  | aborted
  | publish
  | surrender
  | committed (result : Option PathBuf)
  | record
  | drop

/-- What the Web Share half does with the channel: it tries to send, it polls a `send`, or it drops
    one. -/
inductive ShareAction where
  | trySend
  | send (k : Nat)
  | drop (k : Nat)

/-- The channel after an action of the Web Share half. -/
def EventChannel.share (ch : EventChannel) : ShareAction → EventChannel
  | .trySend => ch.trySend .webShare
  | .send k =>
    if ch.closed then ch
    else if ch.isReady (.share k) then ch.send (.share k) .webShare
    else ch.wait (.share k)
  | .drop k => ch.leave (.share k)

/-- What the surroundings of the receiver do. -/
inductive EnvAction where
  | tick (d : Nat)
  | setAutoAccept (yes : Bool)
  /-- The consumer takes the next event. -/
  | receiveEvent
  /-- The consumer drops its end of the channel. -/
  | closeEvents
  /-- `/register` from some peer. -/
  | register (device : DeviceInfo)
  /-- The `send` of a prepare is polled and finds no permit: it waits for one from then on. -/
  | awaitRoom (h : TaskId)
  | share (a : ShareAction)

inductive Action where
  | prepare (h : TaskId) (a : PrepareAction)
  | upload (u : TaskId) (a : UploadAction)
  | release (reserved : SessionId)
  | cancel (peer : IpAddr) (sessionId : Option SessionId)
  /-- The sweep runs; after `stop` only until that has aborted its task. -/
  | sweep
  | stop
  | installCrosscopy (session : CrossCopyAuthorizedSession)
  | finishCrosscopy (sessionId : SessionId)
  | env (a : EnvAction)

/-- Whether an upload has an await point where it is now, so that its future can be
    dropped, or interrupted by the `select!`, there. The rate-limit sleep is one only
    when a rate is set. -/
def UploadTask.awaits (t : UploadTask) : Bool :=
  match t.phase with
  | .creating | .streaming | .writing _ | .flushing | .aborting _ | .committing
  | .recording _ => true
  | .reporting => t.grant.receiveRateLimitBytesPerSecond.any fun rate => rate > 0
  | .rejecting .. | .validated | .surrendering | .answered _ => false

/-- Whether an upload is inside `write_body_to_file_with_progress`. -/
def UploadPhase.inBody : UploadPhase → Bool
  | .streaming | .writing _ | .reporting | .flushing => true
  | _ => false

/-- Whether a prepare is at an await point. -/
def PreparePhase.awaits : PreparePhase → Bool
  | .answered .. => false
  | _ => true

namespace World

/-- One step of prepare `h`, which is live and described by `t`. -/
def prepareStep (w : World) (h : TaskId) (t : PrepareTask) : PrepareAction → Option World
  | .checkPin .. => none
  | .reserve id token =>
    if t.phase = .reserving ∧ id ∉ w.issued then some (w.reserve h t id token) else none
  | .sendRequest =>
    if t.phase = .sending ∧ w.channel.isReady (.prepare h) then some (w.sendRequest h t) else none
  | .decide answer => if t.phase = .deciding then some (w.decide h t answer) else none
  | .clearAwaiting id token =>
    match t.decision with
    | some d =>
      if t.phase = .clearing ∧ id ∉ w.issued then some (w.clearAwaiting h t d id token) else none
    | none => none
  | .refuse => if t.phase = .refusing then some (w.refuse h t) else none
  | .decline => if t.phase = .declining then some (w.decline h t) else none
  | .install =>
    match t.phase with
    | .installing session => some (w.install h t session)
    | _ => none
  | .deliverText =>
    match t.phase, t.accepted with
    | .messaging text, some id => some (w.deliverText h t id text)
    | _, _ => none
  | .drop => if t.phase.awaits then some (w.dropPrepare h t) else none

/-- One step of upload `u`, which holds or held a lease and is described by `t`. -/
def uploadStep (sha256 : List UInt8 → String) (w : World) (u : TaskId) (t : UploadTask) :
    UploadAction → Option World
  | .begin_ .. => none
  | .sinkCreated result => if t.phase = .creating then some (w.sinkCreated u t result) else none
  | .chunk bytes => if t.phase = .streaming then some (w.receiveChunk u t bytes) else none
  | .streamError =>
    if t.phase = .streaming then
      some (w.setUpload u { t with phase := .rejecting t.body.reported .internalServerError true })
    else none
  | .streamEnd =>
    if t.phase = .streaming then some (w.setUpload u { t with phase := .flushing }) else none
  | .chunkWritten ok =>
    match t.phase with
    | .writing chunk => some (w.chunkWritten u t chunk ok)
    | _ => none
  | .reportProgress => if t.phase = .reporting then some (w.reportProgress u t) else none
  | .flushed ok => if t.phase = .flushing then some (bodyFlushed sha256 w u t ok) else none
  | .interrupt =>
    if t.phase.inBody ∧ t.awaits ∧ (w.lifecycles t.grant.sessionId).fired t.fileId then
      some (w.interruptBody u t)
    else none
  | .reject =>
    match t.phase with
    | .rejecting amount status abort => some (w.rejectUpload u t amount status abort)
    | _ => none
  | .aborted =>
    match t.phase with
    | .aborting status => some (w.answerUpload u t status)
    | _ => none
  | .publish => if t.phase = .validated then some (w.publish u t) else none
  | .surrender => if t.phase = .surrendering then some (w.surrender u t) else none
  | .committed result => if t.phase = .committing then some (w.committed u t result) else none
  | .record =>
    match t.phase with
    | .recording path => some (w.record u t path)
    | _ => none
  | .drop => if t.awaits then some (w.dropUpload u t) else none

/-- Whether a prepare is at its `send`. -/
def isSending (w : World) (h : TaskId) : Bool :=
  (w.prepares h).any fun t => !t.dropped && t.phase = .sending

def envStep (w : World) : EnvAction → World
  | .tick d => { w with now := w.now + d }
  | .setAutoAccept yes => { w with state.autoAccept := yes }
  | .receiveEvent => { w with channel := w.channel.recv }
  | .closeEvents => { w with channel := w.channel.close }
  | .register device => w.trySend (.peerRegistered device)
  | .awaitRoom h =>
    { w with channel := if w.isSending h then w.channel.wait (.prepare h) else w.channel }
  | .share a => { w with channel := w.channel.share a }

/-- One step of the receiver; `none` when the action is not enabled. A new handler needs
    a fresh name, a dropped one makes no step. -/
def step (sha256 : List UInt8 → String) (w : World) : Action → Option World
  | .prepare h a =>
    match w.prepares h, a with
    | none, .checkPin peer pin request => some (w.checkPin h peer pin request)
    | none, _ => none
    | some t, a => if t.dropped then none else w.prepareStep h t a
  | .upload u a =>
    match w.uploads u, a with
    | none, .begin_ sessionId fileId token => some (w.beginUpload u sessionId fileId token)
    | none, _ => none
    | some t, a => if t.dropped then none else uploadStep sha256 w u t a
  | .release reserved =>
    if reserved ∈ w.releases then
      some ({ w with releases := w.releases.erase reserved }.releaseReservation reserved)
    else none
  | .cancel peer sessionId => some (w.handleCancel peer sessionId).2
  | .sweep => some w.sessionSweep
  | .stop => some w.stop
  | .installCrosscopy session => some (w.installCrosscopy session)
  | .finishCrosscopy sessionId => some (w.finishCrosscopy sessionId)
  | .env a => some (w.envStep a)

end World

/-- What `LocalSendServer::start` is given. -/
structure ServerConfig where
  saveDir : PathBuf
  autoAccept : Bool
  sessionTimeout : Nat
  receiveRateLimitBytesPerSecond : Option Nat
  pin : Option String
  startedAt : Nat

/-- The world `LocalSendServer::start` builds. -/
def World.start (c : ServerConfig) : World where
  state :=
    { currentSession := none
      currentSessionFrom := none
      awaitingConsent := none
      saveDir := c.saveDir
      autoAccept := c.autoAccept
      sessionTimeout := c.sessionTimeout
      receiveRateLimitBytesPerSecond := c.receiveRateLimitBytesPerSecond
      pinGate := .new c.pin
      crosscopyAuthorizedSession := none
      crosscopyAuthorizedActiveUpload := none
      crosscopyAuthorizedStopping := false }
  lifecycles := fun _ => ⟨.empty⟩
  receivedBytes := fun _ => 0
  withdrawn := []
  channel := .new 64
  now := c.startedAt
  issued := []
  prepares := fun _ => none
  uploads := fun _ => none
  releases := []
  log := []

/-- The receiver with every interleaving of its handlers. `sha256` is the hex digest of
    the hashing crate. -/
def receiver (sha256 : List UInt8 → String) : TransitionSystem World Action where
  Init w := ∃ c, w = World.start c
  step := World.step sha256

end LocalSend
