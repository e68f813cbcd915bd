import LocalSend.Protocol.Types
import Mathlib.Algebra.Order.Ring.Nat
import Mathlib.Data.Finset.Card

/-!
# Sessions and their receive lifecycle

Model of `src/core/session.rs`. A session owns one `ReceiveSlot` for each offered
file. The slots sit behind one mutex, shared by the session, its leases and its
publication permits, so every function on `ReceiveLifecycle` here is one mutex
section of the source.
-/

namespace LocalSend

inductive ReceivePhase where
  | ready
  | receiving
  | publishing
  | published
  | cancelled
deriving DecidableEq, Repr

structure ReceiveSlot where
  phase : ReceivePhase
  /-- Whether the slot's `CancellationToken` has been fired. -/
  cancellation : Bool
deriving DecidableEq, Repr

structure ReceiveLifecycle where
  slots : AssocMap FileId ReceiveSlot
deriving DecidableEq

/-- A slot as `Session::new` builds it. -/
def ReceiveSlot.new : ReceiveSlot := ⟨.ready, false⟩

namespace ReceiveLifecycle

/-- The phase of a file's slot, if the session has the file. -/
def phase? (l : ReceiveLifecycle) (f : FileId) : Option ReceivePhase :=
  (l.slots.get? f).map ReceiveSlot.phase

/-- Whether the token of a file's slot has been fired. -/
def fired (l : ReceiveLifecycle) (f : FileId) : Bool :=
  ((l.slots.get? f).map ReceiveSlot.cancellation).getD false

/-- Store a phase in a file's slot. -/
def setPhase (l : ReceiveLifecycle) (f : FileId) (p : ReceivePhase) : ReceiveLifecycle :=
  { l with slots := l.slots.modify f fun slot => { slot with phase := p } }

/-- Whether some slot is publishing. -/
def isPublishing (l : ReceiveLifecycle) : Bool :=
  l.slots.any fun _ slot => slot.phase = .publishing

/-- `Session::begin_receive`: claim the one receive body allowed for a file id. -/
def beginReceive (l : ReceiveLifecycle) (f : FileId) : Option ReceiveLifecycle :=
  match l.slots.get? f with
  | none => none
  | some slot => if slot.phase ≠ .ready then none else some (l.setPhase f .receiving)

/-- `StandardReceiveLease::begin_publication`: choose publication over cancellation.
    On `none` the lease is dropped next, in a mutex section of its own. -/
def beginPublication (l : ReceiveLifecycle) (f : FileId) : Option ReceiveLifecycle :=
  match l.slots.get? f with
  | none => none
  | some slot => if slot.phase = .receiving then some (l.setPhase f .publishing) else none

/-- `Drop for StandardReceiveLease`, for an armed lease. -/
def dropLease (l : ReceiveLifecycle) (f : FileId) : ReceiveLifecycle :=
  match l.slots.get? f with
  | none => l
  | some slot => if slot.phase = .receiving then l.setPhase f .ready else l

/-- `StandardPublicationPermit::finish`. It stores `Published` without looking at the
    phase it replaces, and leaves the permit disarmed. -/
def finish (l : ReceiveLifecycle) (f : FileId) : ReceiveLifecycle :=
  l.setPhase f .published

/-- `Drop for StandardPublicationPermit`, for an armed permit. -/
def dropPermit (l : ReceiveLifecycle) (f : FileId) : ReceiveLifecycle :=
  match l.slots.get? f with
  | none => l
  | some slot => if slot.phase = .publishing then l.setPhase f .ready else l

/-- What `try_cancel_receives` does to one slot. -/
def cancelSlot (slot : ReceiveSlot) : ReceiveSlot :=
  match slot.phase with
  | .ready | .receiving => ⟨.cancelled, true⟩
  | .publishing | .published | .cancelled => slot

/-- `Session::try_cancel_receives`: cancel every not-yet-published receive, unless a
    publishing permit has won the race. -/
def tryCancelReceives (l : ReceiveLifecycle) : Bool × ReceiveLifecycle :=
  if l.isPublishing then (false, l)
  else (true, { l with slots := l.slots.mapVal fun _ slot => cancelSlot slot })

end ReceiveLifecycle

/-- Active file transfer session. The lifecycle and the byte counter are behind `Arc`s
    that outlive the session value, so they live beside it (see `World`). -/
structure Session where
  id : SessionId
  files : AssocMap FileId FileMetadata
  tokens : AssocMap FileId Token
  received : Finset FileId
  senderAlias : String
  createdAt : Nat
  lastActivity : Nat
deriving DecidableEq

namespace Session

/-- `Session::new` at time `now`; `id` and `token` are what the random source returns. -/
def new (senderAlias : String) (files : AssocMap FileId FileMetadata) (id : SessionId)
    (token : FileId → Token) (now : Nat) : Session where
  id := id
  files := files
  tokens := files.mapVal fun f _ => token f
  received := ∅
  senderAlias := senderAlias
  createdAt := now
  lastActivity := now

/-- The lifecycle `Session::new` allocates: every file `Ready`, no token fired. -/
def newLifecycle (files : AssocMap FileId FileMetadata) : ReceiveLifecycle :=
  ⟨files.mapVal fun _ _ => ReceiveSlot.new⟩

/-- `Session::touch`: update the last activity timestamp. -/
def touch (s : Session) (now : Nat) : Session := { s with lastActivity := now }

/-- `Session::is_timed_out`: strictly more than `timeout` since the last activity. -/
def isTimedOut (s : Session) (now timeout : Nat) : Bool := now - s.lastActivity > timeout

/-- `Session::verify_token`. -/
def verifyToken (s : Session) (f : FileId) (token : Token) : Bool :=
  match s.tokens.get? f with
  | none => false
  | some expected => expected = token

/-- `Session::mark_received`: record a completed file; whether every file has arrived.
    A file id of another session is ignored. -/
def markReceived (s : Session) (f : FileId) (now : Nat) : Bool × Session :=
  if s.files.contains f then
    let s' := { s with received := insert f s.received, lastActivity := now }
    (s'.received.card = s'.files.size, s')
  else (false, s)

end Session

end LocalSend
