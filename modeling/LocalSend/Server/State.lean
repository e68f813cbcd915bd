import LocalSend.Core.ReceiveHandles
import LocalSend.Core.Sink
import LocalSend.Server.Events
import LocalSend.Server.Pin

/-!
# Server state

Model of `src/server/state.rs` and of everything else the receive handlers share: the
state behind the `RwLock`, the objects sessions keep behind an `Arc`, the event
channel, and the handlers that are suspended at an await point.

A handler runs between two awaits without being interrupted by the lock it holds, so
a handler is modelled by the phase it is suspended in (`PreparePhase`, `UploadPhase`)
and by one function on `World` for each piece of code between two awaits.
-/

namespace LocalSend

/-- The placeholder reservation held while somebody decides. Its `withdraw` token is
    `World.withdrawn` at `sessionId`. -/
structure ConsentReservation where
  sessionId : SessionId
  fromIp : IpAddr
deriving DecidableEq, Repr

/-- Names one opaque upload owner handed out by the host's gate. -/
abbrev OwnerId := Nat

/-- The part of a protected session the standard handlers look at. -/
structure CrossCopyAuthorizedSession where
  sessionId : SessionId
  fileId : FileId
  uploadToken : Token
  owner : OwnerId
  createdAt : Nat
deriving DecidableEq, Repr

/-- `CrossCopyAuthorizedSession::is_timed_out`, in whole seconds. -/
def CrossCopyAuthorizedSession.isTimedOut (s : CrossCopyAuthorizedSession)
    (now seconds : Nat) : Bool :=
  (now - s.createdAt) / 1000000000 ≥ seconds

structure CrossCopyAuthorizedActiveUpload where
  sessionId : SessionId
  owner : OwnerId
deriving DecidableEq, Repr

/-- What is behind the server's `RwLock`. -/
structure ServerState where
  currentSession : Option Session
  currentSessionFrom : Option IpAddr
  awaitingConsent : Option ConsentReservation
  saveDir : PathBuf
  autoAccept : Bool
  sessionTimeout : Nat
  receiveRateLimitBytesPerSecond : Option Nat
  pinGate : PinGate
  crosscopyAuthorizedSession : Option CrossCopyAuthorizedSession
  crosscopyAuthorizedActiveUpload : Option CrossCopyAuthorizedActiveUpload
  crosscopyAuthorizedStopping : Bool

/-! ## Suspended handlers -/

/-- Where a `handle_standard_prepare_upload` is suspended, or how it answered. -/
inductive PreparePhase where
  /-- Past the PIN gate, awaiting the lock to reserve the slot. -/
  | reserving
  /-- Reserved, awaiting room in the event channel. -/
  | sending
  /-- In the `select!` over the withdraw token and the decision. -/
  | deciding
  /-- Decided, awaiting the lock to clear `awaiting_consent`. -/
  | clearing
  /-- Awaiting the lock of the refuse unwind. -/
  | refusing
  /-- Awaiting the lock of the decline unwind. -/
  | declining
  /-- The accepted session is built, awaiting the lock to install it. -/
  | installing (session : Session)
  /-- A message session is installed, awaiting the lock to deliver the text. -/
  | messaging (text : String)
  | answered (status : StatusCode) (body : Option PrepareUploadResponse)
deriving DecidableEq

/-- One `handle_standard_prepare_upload` future, with what it has seen so far. -/
structure PrepareTask where
  peer : IpAddr
  request : PrepareUploadRequest
  verdict : PinVerdict
  /-- `auto_accept` as loaded at the reservation. -/
  autoAccept : Bool
  /-- The id of the placeholder it reserved the slot with. -/
  reserved : Option SessionId
  decision : Option TransferDecision
  /-- The id of the session it built from the accepted files. -/
  accepted : Option SessionId
  /-- Whether the future was dropped at its current await point. -/
  dropped : Bool
  phase : PreparePhase
deriving DecidableEq

/-- What `handle_upload` takes out of the session under the lock. -/
structure UploadGrant where
  fileName : String
  sessionId : SessionId
  senderAlias : String
  declaredSize : Nat
  declaredSha : Option String
  totalBytes : Nat
  fileCount : Nat
  receiveRateLimitBytesPerSecond : Option Nat
  saveDir : PathBuf
deriving DecidableEq

/-- The locals of `write_body_to_file_with_progress` and of its callback. -/
structure BodyWriter where
  /-- The chunks the stream has yielded. -/
  chunks : List (List UInt8)
  bytesWritten : Nat
  /-- The bytes the hasher has been fed. -/
  hashed : List UInt8
  /-- The bytes the pending receive's writer has taken. -/
  written : List UInt8
  /-- `file_reported`, which is also the callback's `previous_file_bytes`. -/
  reported : Nat
deriving DecidableEq

def BodyWriter.new : BodyWriter := ⟨[], 0, [], [], 0⟩

/-- Where a `handle_upload` that has taken its lease is suspended, or how it answered.
    The phases without an await (`rejecting`, `validated`, `surrendering`) stand between
    two accesses to shared data, where other threads can run. -/
inductive UploadPhase where
  /-- Awaiting `sink.create`. -/
  | creating
  /-- Awaiting the next chunk of the body. -/
  | streaming
  /-- Awaiting `write_all` of a chunk that is already counted and hashed. -/
  | writing (chunk : List UInt8)
  /-- The chunk is written; sleeping for the rate limit, then reporting progress. -/
  | reporting
  /-- The stream has ended; awaiting `flush`. -/
  | flushing
  /-- About to roll `amount` bytes of progress back and answer `status`, after aborting
      the pending receive when `abort` is set. -/
  | rejecting (amount : Nat) (status : StatusCode) (abort : Bool)
  /-- Awaiting `pending.abort`. -/
  | aborting (status : StatusCode)
  /-- Size and digest agree; about to call `begin_publication`. -/
  | validated
  /-- `begin_publication` returned `None`; the consumed lease is being dropped. -/
  | surrendering
  /-- Holding the permit, awaiting `pending.commit`. -/
  | committing
  /-- Committed at `path`, holding the permit, awaiting the lock. -/
  | recording (path : PathBuf)
  | answered (status : StatusCode)
deriving DecidableEq

/-- One `handle_upload` future that got as far as its lease. -/
structure UploadTask where
  fileId : FileId
  grant : UploadGrant
  handle : Option ReceiveHandle
  body : BodyWriter
  dropped : Bool
  phase : UploadPhase
deriving DecidableEq

/-! ## The shared world -/

/-- What an observer of the receiver can see, in order of time. -/
inductive Observation where
  | sessionCreated (s : SessionId)
  /-- The timed-out branch of a prepare, or the sweep, took the session out. -/
  | sessionReclaimed (s : SessionId)
  /-- `try_cancel_receives` returned true. -/
  | receivesCancelled (s : SessionId)
  /-- A `/cancel` without session id answered 200 for this reservation. -/
  | offerWithdrawn (reserved : SessionId)
  | emitted (e : ServerEvent)
  | sinkCreate (task : TaskId) (s : SessionId) (f : FileId)
  | chunkWritten (s : SessionId) (f : FileId)
  | fileCommitted (task : TaskId) (s : SessionId) (f : FileId) (path : PathBuf)
      (content : List UInt8)
  /-- `mark_received` recorded the file. -/
  | fileCompleted (s : SessionId) (f : FileId)
  | uploadAnswered (task : TaskId) (status : StatusCode)
  /-- `cancel` of a protected upload's owner was called. -/
  | ownerCancelled (owner : OwnerId)
  /-- The cancellation token of a running protected upload was fired. -/
  | ownerSignalled (owner : OwnerId)
deriving DecidableEq

structure World where
  state : ServerState
  /-- The lifecycle each session ever created holds behind its `Arc`. -/
  lifecycles : SessionId → ReceiveLifecycle
  /-- The `received_bytes` counter each session holds behind its `Arc`. -/
  receivedBytes : SessionId → Nat
  /-- The reservations whose withdraw token has been fired. -/
  withdrawn : List SessionId
  channel : EventChannel
  /-- The clock behind `Instant::now`, in nanoseconds. -/
  now : Nat
  /-- Every id `SessionId::new` has returned. -/
  issued : List SessionId
  prepares : TaskId → Option PrepareTask
  uploads : TaskId → Option UploadTask
  /-- The reservations whose guard has spawned its release task, not yet run. -/
  releases : List SessionId
  log : List (Nat × Observation)

namespace World

/-- Append an observation, stamped with the current time. -/
def observe (w : World) (o : Observation) : World := { w with log := w.log ++ [(w.now, o)] }

/-- `events_tx.try_send`. The attempt is observed whether or not there was room. -/
def trySend (w : World) (e : ServerEvent) : World :=
  { w with channel := w.channel.trySend e }.observe (.emitted e)

/-- `events_tx.send`, where the channel is open and there is a permit for the sender. -/
def send (w : World) (s : EventSender) (e : ServerEvent) : World :=
  { w with channel := w.channel.send s e }.observe (.emitted e)

def setPrepare (w : World) (h : TaskId) (t : PrepareTask) : World :=
  { w with prepares := Function.update w.prepares h (some t) }

def setUpload (w : World) (u : TaskId) (t : UploadTask) : World :=
  { w with uploads := Function.update w.uploads u (some t) }

def setLifecycle (w : World) (s : SessionId) (l : ReceiveLifecycle) : World :=
  { w with lifecycles := Function.update w.lifecycles s l }

/-- `Session::try_cancel_receives` on the session with id `s`. -/
def tryCancelReceives (w : World) (s : SessionId) : Bool × World :=
  let r := (w.lifecycles s).tryCancelReceives
  (r.1, { w.setLifecycle s r.2 with
    log := if r.1 then w.log ++ [(w.now, .receivesCancelled s)] else w.log })

/-- Allocate what `Session::new` puts behind `Arc`s for a session over `files`. -/
def allocate (w : World) (id : SessionId) (files : AssocMap FileId FileMetadata) : World :=
  { w with
    lifecycles := Function.update w.lifecycles id (Session.newLifecycle files)
    receivedBytes := Function.update w.receivedBytes id 0
    issued := id :: w.issued }.observe (.sessionCreated id)

/-- The `Drop` of whatever receive handle an upload of session `s` still holds. -/
def dropHandle (w : World) (s : SessionId) (handle : Option ReceiveHandle) : World :=
  w.setLifecycle s ((w.lifecycles s).dropHandle handle)

end World

end LocalSend
