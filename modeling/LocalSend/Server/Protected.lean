import LocalSend.Server.System

/-!
# The protected half of the server

Model of `src/server/crosscopy_authorized.rs` and of the protected branches of
`src/server/handlers.rs`: the prepares that carry a handoff, and the uploads to the
sessions they install. They run beside the handlers of `Server.System` on one
`ServerState`, whose `/cancel`, sweep and `stop` serve both halves.

The host's gate and the owners it hands out are the environment: the gate answers with
an owner it has not handed out before, or refuses, and `receive` returns what it likes.
-/

namespace LocalSend

/-! ## crosscopy_authorized.rs -/

/-- Whether a header value is 64 lowercase hex digits. -/
def isCanonicalHandoff (value : String) : Bool :=
  value.utf8ByteSize = 64 && value.toList.all fun c => c.isDigit || 'a' ≤ c && c ≤ 'f'

/-- Canonical receiver-issued handoff credential. -/
structure CrossCopyAuthorizedHandoff where
  value : String
  canonical : isCanonicalHandoff value = true
deriving DecidableEq

/-- `CrossCopyAuthorizedHandoff::parse`. -/
def CrossCopyAuthorizedHandoff.parse : List String → Option CrossCopyAuthorizedHandoff
  | [value] => if h : isCanonicalHandoff value = true then some ⟨value, h⟩ else none
  | _ => none

/-- Exact one-file metadata that the gate may compare to receiver-owned facts. -/
structure CrossCopyAuthorizedPrepareMetadata where
  sender : DeviceInfo
  fileId : FileId
  file : FileMetadata
deriving DecidableEq

structure CrossCopyAuthorizedPrepare where
  handoff : CrossCopyAuthorizedHandoff
  metadata : CrossCopyAuthorizedPrepareMetadata
deriving DecidableEq

/-- Opaque confirmation that the protected sink durably published its exact file. -/
structure CrossCopyAuthorizedUploadReceipt where
  path : PathBuf
  size : Nat
deriving DecidableEq

/-- `char::is_whitespace`. -/
def isWhitespace (c : Char) : Bool :=
  let n := c.toNat
  (0x9 ≤ n && n ≤ 0xD) || n = 0x20 || n = 0x85 || n = 0xA0 || n = 0x1680 ||
    (0x2000 ≤ n && n ≤ 0x200A) || n = 0x2028 || n = 0x2029 || n = 0x202F || n = 0x205F || n = 0x3000

/-- What a protected prepare hands to the gate, if it has one canonical handoff and offers
    one exact regular file. `values` are the header's values as `to_str` reads them. -/
def CrossCopyAuthorizedPrepare.ofRequest (values : List (Option String))
    (request : PrepareUploadRequest) : Option CrossCopyAuthorizedPrepare :=
  ((values.mapM id).bind CrossCopyAuthorizedHandoff.parse).bind fun handoff =>
    match request.files.entries with
    | [(fileId, file)] =>
      -- `file_name.trim().is_empty()`
      if file.fileName.toList.all isWhitespace || file.preview.isSome then none
      else some ⟨handoff, ⟨request.info, fileId, file⟩⟩
    | _ => none

/-! ## Suspended handlers -/

/-- Where a `handle_crosscopy_authorized_prepare` is suspended, or how it answered. -/
inductive ProtectedPreparePhase where
  /-- Awaiting the lock of the preflight. -/
  | checking
  /-- Awaiting the lock to read the gate. -/
  | asking
  /-- Awaiting `take_authorized_upload`. -/
  | taking
  /-- Holding the owner of the session it has built, awaiting the lock to install it. -/
  | installing (session : CrossCopyAuthorizedSession)
  /-- Not installed; awaiting `cancel` of the owner. -/
  | cancelling (status : StatusCode)
  | answered (status : StatusCode) (body : Option PrepareUploadResponse)
deriving DecidableEq

structure ProtectedPrepare where
  prepare : CrossCopyAuthorizedPrepare
  dropped : Bool
  phase : ProtectedPreparePhase
deriving DecidableEq

/-- Where a `handle_upload` that took the protected session out is suspended, or how it
    answered. -/
inductive ProtectedUploadPhase where
  /-- The wrong file or token; awaiting `cancel` of the owner. -/
  | cancelling
  /-- Awaiting `receive` of the owner. -/
  | receiving
  /-- `receive` has returned; awaiting the lock. -/
  | finishing (result : Option CrossCopyAuthorizedUploadReceipt)
  /-- Awaiting room for `FileReceived`. -/
  | announcing (receipt : CrossCopyAuthorizedUploadReceipt)
  /-- Awaiting room for `SessionDone`. -/
  | closing
  | answered (status : StatusCode)
deriving DecidableEq

structure ProtectedUpload where
  /-- The session it took out. -/
  session : CrossCopyAuthorizedSession
  dropped : Bool
  phase : ProtectedUploadPhase
deriving DecidableEq

/-- A call of `receive`, with what the upload presented for it. -/
structure ReceiveCall where
  session : CrossCopyAuthorizedSession
  sessionId : SessionId
  fileId : FileId
  token : Token
deriving DecidableEq

/-- The receiver with its protected half. -/
structure ProtectedWorld where
  world : World
  /-- Whether the host has installed a gate. -/
  gate : Bool
  /-- The metadata each protected session carries. -/
  metadata : SessionId → Option CrossCopyAuthorizedPrepareMetadata
  prepares : TaskId → Option ProtectedPrepare
  uploads : TaskId → Option ProtectedUpload
  -- what follows is bookkeeping that no handler reads
  /-- The protected sessions built so far, one for each owner the gate has handed out. -/
  sessions : List CrossCopyAuthorizedSession
  received : List ReceiveCall

/-! ## The handlers -/

/-- `events_tx.send`, once there is a permit for the sender or the channel is closed. -/
def World.sendEvent (w : World) (s : EventSender) (e : ServerEvent) : Option World :=
  if w.channel.closed then some w
  else if w.channel.isReady s then some (w.send s e)
  else none

namespace ProtectedWorld

/-- The owners the gate has handed out. -/
def taken (p : ProtectedWorld) : List OwnerId :=
  p.sessions.map CrossCopyAuthorizedSession.owner

/-- The ids of the protected sessions. -/
def ids (p : ProtectedWorld) : List SessionId :=
  p.sessions.map CrossCopyAuthorizedSession.sessionId

def setPrepare (p : ProtectedWorld) (h : TaskId) (t : ProtectedPrepare) : ProtectedWorld :=
  { p with prepares := Function.update p.prepares h (some t) }

def setUpload (p : ProtectedWorld) (u : TaskId) (t : ProtectedUpload) : ProtectedWorld :=
  { p with uploads := Function.update p.uploads u (some t) }

/-- The checks before the first `await`. A refused request gets no handler here: it is
    answered 400. -/
def beginPrepare (p : ProtectedWorld) (h : TaskId) (values : List (Option String))
    (request : PrepareUploadRequest) : ProtectedWorld :=
  match CrossCopyAuthorizedPrepare.ofRequest values request with
  | some prepare => p.setPrepare h ⟨prepare, false, .checking⟩
  | none => p

/-- Only a preflight: a concurrent prepare can still win the race after this read. -/
def preflight (p : ProtectedWorld) (h : TaskId) (t : ProtectedPrepare) : ProtectedWorld :=
  if p.world.state.crosscopyAuthorizedStopping then
    p.setPrepare h { t with phase := .answered .serviceUnavailable none }
  else if p.world.state.crosscopyAuthorizedSession.isSome then
    p.setPrepare h { t with phase := .answered .conflict none }
  else p.setPrepare h { t with phase := .asking }

/-- The default listener has no gate. -/
def askGate (p : ProtectedWorld) (h : TaskId) (t : ProtectedPrepare) : ProtectedWorld :=
  p.setPrepare h { t with phase := if p.gate then .taking else .answered .forbidden none }

/-- The gate has answered: `CrossCopyAuthorizedSession::new` over the owner, if it gave one. -/
def gateAnswered (p : ProtectedWorld) (h : TaskId) (t : ProtectedPrepare)
    (owner : Option OwnerId) (id : SessionId) (token : Token) : ProtectedWorld :=
  match owner with
  | none => p.setPrepare h { t with phase := .answered .forbidden none }
  | some owner =>
    let session := ⟨id, t.prepare.metadata.fileId, token, owner, p.world.now⟩
    { p.setPrepare h { t with phase := .installing session } with
      metadata := Function.update p.metadata id (some t.prepare.metadata)
      sessions := session :: p.sessions }

/-- The lock section after the gate. An owner that cannot be installed is cancelled. -/
def install (p : ProtectedWorld) (h : TaskId) (t : ProtectedPrepare)
    (session : CrossCopyAuthorizedSession) : ProtectedWorld :=
  { p.setPrepare h { t with
      phase :=
        if p.world.state.crosscopyAuthorizedStopping then .cancelling .serviceUnavailable
        else if p.world.state.crosscopyAuthorizedSession.isSome then .cancelling .conflict
        else .answered .ok
          (some ⟨session.sessionId, .singleton session.fileId session.uploadToken⟩) } with
    world := p.world.installCrosscopy session }

/-- What the first lock section of `handle_upload` leaves to do, when it finds the
    protected session: the owner's `cancel` or its `receive` has been called. -/
def beginUpload (p : ProtectedWorld) (u : TaskId) (sessionId : SessionId) (fileId : FileId)
    (token : Token) : ProtectedWorld :=
  match p.world.state.crosscopyAuthorizedSession.filter fun s => s.sessionId = sessionId with
  | none => p
  | some session =>
    if session.fileId ≠ fileId ∨ session.uploadToken ≠ token then
      p.setUpload u ⟨session, false, .cancelling⟩
    else
      { p.setUpload u ⟨session, false, .receiving⟩ with
        received := p.received ++ [⟨session, sessionId, fileId, token⟩] }

/-- The lock section after `receive`. -/
def finish (p : ProtectedWorld) (u : TaskId) (t : ProtectedUpload)
    (result : Option CrossCopyAuthorizedUploadReceipt) : ProtectedWorld :=
  { p.setUpload u { t with
      phase := match result with
        | some receipt => .announcing receipt
        | none => .answered .internalServerError } with
    world := p.world.finishCrosscopy t.session.sessionId }

end ProtectedWorld

/-! ## The transition system -/

/-- What a protected prepare does next. -/
inductive ProtectedPrepareAction where
  | begin_ (values : List (Option String)) (request : PrepareUploadRequest)
  | preflight
  | askGate
  | gateAnswered (owner : Option OwnerId) (id : SessionId) (token : Token)
  | install
  | cancelled
  /-- The client disconnects, and the future is dropped at its await point. -/
  | drop

/-- What an upload that took the protected session out does next. -/
inductive ProtectedUploadAction where
  | cancelled
  | received (result : Option CrossCopyAuthorizedUploadReceipt)
  | finish
  | announce
  | close
  /-- A `send` is polled and finds no permit: it waits for one from then on. -/
  | awaitRoom
  | drop

inductive ProtectedAction where
  /-- A step of `Server.System` that is not one of the protected sections there. -/
  | receiver (a : Action)
  | prepare (h : TaskId) (a : ProtectedPrepareAction)
  /-- The first lock section of `handle_upload`, protected or not. -/
  | begin_ (u : TaskId) (sessionId : SessionId) (fileId : FileId) (token : Token)
  | upload (u : TaskId) (a : ProtectedUploadAction)

/-- The actions of `Server.System` that belong to a protected handler. -/
def Action.ofProtected : Action → Bool
  | .upload _ (.begin_ ..) | .installCrosscopy _ | .finishCrosscopy _ => true
  | _ => false

/-- Whether a protected prepare is at an await point. -/
def ProtectedPreparePhase.awaits : ProtectedPreparePhase → Bool
  | .answered .. => false
  | _ => true

/-- Whether a protected upload is at an await point. -/
def ProtectedUploadPhase.awaits : ProtectedUploadPhase → Bool
  | .answered _ => false
  | _ => true

/-- Whether a protected upload awaits the channel. -/
def ProtectedUploadPhase.isSending : ProtectedUploadPhase → Bool
  | .announcing _ | .closing => true
  | _ => false

namespace ProtectedWorld

/-- One step of protected prepare `h`, which is live and described by `t`. -/
def prepareStep (p : ProtectedWorld) (h : TaskId) (t : ProtectedPrepare) :
    ProtectedPrepareAction → Option ProtectedWorld
  | .begin_ .. => none
  | .preflight => if t.phase = .checking then some (p.preflight h t) else none
  | .askGate => if t.phase = .asking then some (p.askGate h t) else none
  | .gateAnswered owner id token =>
    if t.phase = .taking ∧ (∀ o ∈ owner, o ∉ p.taken) ∧ id ∉ p.ids ∧ id ∉ p.world.issued then
      some (p.gateAnswered h t owner id token)
    else none
  | .install =>
    match t.phase with
    | .installing session => some (p.install h t session)
    | _ => none
  | .cancelled =>
    match t.phase with
    | .cancelling status => some (p.setPrepare h { t with phase := .answered status none })
    | _ => none
  | .drop => if t.phase.awaits then some (p.setPrepare h { t with dropped := true }) else none

/-- One step of protected upload `u`, which is live and described by `t`. -/
def uploadStep (p : ProtectedWorld) (u : TaskId) (t : ProtectedUpload) :
    ProtectedUploadAction → Option ProtectedWorld
  | .cancelled =>
    if t.phase = .cancelling then some (p.setUpload u { t with phase := .answered .forbidden })
    else none
  | .received result =>
    if t.phase = .receiving then some (p.setUpload u { t with phase := .finishing result }) else none
  | .finish =>
    match t.phase with
    | .finishing result => some (p.finish u t result)
    | _ => none
  | .announce =>
    match t.phase, p.metadata t.session.sessionId with
    | .announcing receipt, some m =>
      (p.world.sendEvent (.upload u)
        (.fileReceived t.session.sessionId m.fileId m.file.fileName receipt.path
        receipt.size m.sender.deviceAlias none)).map fun w =>
          { p.setUpload u { t with phase := .closing } with world := w }
    | _, _ => none
  | .close =>
    if t.phase = .closing then
      (p.world.sendEvent (.upload u) (.sessionDone t.session.sessionId)).map fun w =>
        { p.setUpload u { t with phase := .answered .ok } with world := w }
    else none
  | .awaitRoom =>
    if t.phase.isSending then
      some { p with world := { p.world with channel := p.world.channel.wait (.upload u) } }
    else none
  | .drop =>
    if t.phase.awaits then
      -- where it awaits the channel, it leaves that
      some { p.setUpload u { t with dropped := true } with
        world := { p.world with channel := p.world.channel.leave (.upload u) } }
    else none

/-- One step of the receiver with its protected half. -/
def step (sha256 : List UInt8 → String) (p : ProtectedWorld) :
    ProtectedAction → Option ProtectedWorld
  | .receiver a =>
    if a.ofProtected then none
    else (p.world.step sha256 a).map fun w => { p with world := w }
  | .prepare h a =>
    match p.prepares h, a with
    | none, .begin_ values request => some (p.beginPrepare h values request)
    | none, _ => none
    | some t, a => if t.dropped then none else p.prepareStep h t a
  | .begin_ u sessionId fileId token =>
    if p.uploads u = none then
      (p.world.step sha256 (.upload u (.begin_ sessionId fileId token))).map fun w =>
        { p.beginUpload u sessionId fileId token with world := w }
    else none
  | .upload u a =>
    match p.uploads u with
    | none => none
    | some t => if t.dropped then none else p.uploadStep u t a

end ProtectedWorld

/-- The server `LocalSendServer::start` builds, with or without a gate. -/
def ProtectedWorld.start (c : ServerConfig) (gate : Bool) : ProtectedWorld where
  world := .start c
  gate := gate
  metadata := fun _ => none
  prepares := fun _ => none
  uploads := fun _ => none
  sessions := []
  received := []

/-- The receiver with its protected half, in any interleaving. -/
def protectedReceiver (sha256 : List UInt8 → String) :
    TransitionSystem ProtectedWorld ProtectedAction where
  Init p := ∃ c gate, p = ProtectedWorld.start c gate
  step := ProtectedWorld.step sha256

end LocalSend
