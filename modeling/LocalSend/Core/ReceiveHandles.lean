import LocalSend.Core.Session
import LocalSend.ForStd.TransitionSystem

/-!
# Leases and permits racing on one lifecycle

`StandardReceiveLease` and `StandardPublicationPermit` are RAII handles: what is
done with one, dropping it included, is one section of the lifecycle mutex. This
file is the transition system of any number of handles on one `Session`, with the
sections in any order.
-/

namespace LocalSend

/-- Names one `begin_receive` call and the handle it returned. -/
abbrev HandleId := Nat

/-- A live handle. A lease whose `begin_publication` returned `None` has been consumed
    by that call, and what is left of it is its drop. -/
inductive ReceiveHandle where
  | lease (f : FileId)
  | spentLease (f : FileId)
  | permit (f : FileId)
deriving DecidableEq, Repr

/-- The file a handle is for. -/
def ReceiveHandle.file : ReceiveHandle → FileId
  | .lease f | .spentLease f | .permit f => f

/-- The `Drop` of a handle that is still live; nothing for a handle already consumed. -/
def ReceiveLifecycle.dropHandle (l : ReceiveLifecycle) : Option ReceiveHandle → ReceiveLifecycle
  | none => l
  | some (.lease f) | some (.spentLease f) => l.dropLease f
  | some (.permit f) => l.dropPermit f

/-- One session's lifecycle and the handles on it that are still live. -/
structure HandleState where
  lifecycle : ReceiveLifecycle
  handles : HandleId → Option ReceiveHandle

/-- The mutex sections of `Session`, `StandardReceiveLease` and
    `StandardPublicationPermit`. -/
inductive HandleAction where
  | beginReceive (h : HandleId) (f : FileId)
  | beginPublication (h : HandleId)
  | dropLease (h : HandleId)
  | finish (h : HandleId)
  | dropPermit (h : HandleId)
  | tryCancelReceives
deriving DecidableEq, Repr

namespace HandleState

/-- The lifecycle and the handle table after a section of handle `h`. -/
def update (s : HandleState) (h : HandleId) (handle : Option ReceiveHandle)
    (lifecycle : ReceiveLifecycle) : HandleState :=
  ⟨lifecycle, Function.update s.handles h handle⟩

/-- One mutex section. It is enabled when the handle it acts on is live and of the
    right kind; a `begin_receive` needs a fresh name for the lease it may return. -/
def step (s : HandleState) : HandleAction → Option HandleState
  | .beginReceive h f =>
    match s.handles h with
    | some _ => none
    | none =>
      match s.lifecycle.beginReceive f with
      | none => some s
      | some l => some (s.update h (some (.lease f)) l)
  | .beginPublication h =>
    match s.handles h with
    | some (.lease f) =>
      match s.lifecycle.beginPublication f with
      | none => some (s.update h (some (.spentLease f)) s.lifecycle)
      | some l => some (s.update h (some (.permit f)) l)
    | _ => none
  | .dropLease h =>
    match s.handles h with
    | some (.lease f) | some (.spentLease f) => some (s.update h none (s.lifecycle.dropLease f))
    | _ => none
  | .finish h =>
    match s.handles h with
    | some (.permit f) => some (s.update h none (s.lifecycle.finish f))
    | _ => none
  | .dropPermit h =>
    match s.handles h with
    | some (.permit f) => some (s.update h none (s.lifecycle.dropPermit f))
    | _ => none
  | .tryCancelReceives => some { s with lifecycle := s.lifecycle.tryCancelReceives.2 }

/-- A session just built by `Session::new`: no handle yet. -/
def Init (s : HandleState) : Prop :=
  ∃ files, s = ⟨Session.newLifecycle files, fun _ => none⟩

/-- The handles of one session, in any interleaving of their sections. -/
def system : TransitionSystem HandleState HandleAction := ⟨Init, step⟩

/-- Handle `h` is live and is for file `f`. -/
def Holds (s : HandleState) (h : HandleId) (f : FileId) : Prop :=
  ∃ handle, s.handles h = some handle ∧ handle.file = f

end HandleState

end LocalSend
