import LocalSend.Spec.AnswerCauses
import LocalSend.Spec.ConsentSafety
import LocalSend.Spec.ConsumerFrame
import LocalSend.Spec.PinAutomaton
import LocalSend.Spec.SlotAttribution

/-!
# What the PIN guards

A receiver with a PIN does nothing for a request that does not carry it: every session in the slot,
every offer that its consumer is asked about, every file and every message goes back to a
`prepare-upload` request with this PIN. Nothing is assumed of the ids and tokens that uploads name.

## Key results

- `checkPin_cases`: a request without the PIN is answered 401 or 429 at once
- `pin_guards_sessions`: every run
-/

namespace LocalSend

/-- Only the PIN passes the gate. -/
theorem PinGate.provided_of_ok {g : PinGate} {pin : String} (hpin : g.pin = some pin) {now : Nat}
    {provided : Option String} {peer : IpAddr} {cleared : Bool}
    (h : (g.check now provided peer).1 = .ok cleared) : provided = some pin := by
  unfold check at h
  rw [hpin] at h
  dsimp only at h
  split at h
  · cases h
  · cases provided with
    | none => cases h
    | some text =>
      dsimp only at h
      split at h
      · rename_i hequal
        rw [(constantTimeEq_toUTF8 text pin).mp hequal]
      · cases h

/-- The handler has answered that the PIN is wrong, or that the peer is locked out. -/
def PrepareTask.TurnedAway (t : PrepareTask) : Prop :=
  t.reserved = none ∧ t.accepted = none ∧
    (t.phase = .answered .unauthorized none ∨ t.phase = .answered .tooManyRequests none)

/-- The request of a handler carried the PIN. -/
def PrepareTask.Carried (t : PrepareTask) (pin : String) (as : List Action) (h : TaskId) : Prop :=
  Action.prepare h (.checkPin t.peer (some pin) t.request) ∈ as

namespace World

/-- The session with id `x` is of a handler whose request carried the PIN. -/
def FromPin (w : World) (pin : String) (as : List Action) (x : SessionId) : Prop :=
  ∃ h t, w.prepares h = some t ∧ t.Owns x ∧ t.Carried pin as h

/-- What an observation needs. -/
def GuardedBy (w : World) (pin : String) (as : List Action) : Observation → Prop
  | .sinkCreate _ x _ | .chunkWritten x _ | .fileCommitted _ x _ _ _ | .fileCompleted x _
  | .emitted (.textReceived x _ _) | .emitted (.fileReceived x _ _ _ _ _ _) => w.FromPin pin as x
  | _ => True

structure PinInv (pin : String) (as : List Action) (w : World) : Prop where
  prepare : w.PrepareInv
  gate : w.state.pinGate.pin = some pin
  carried : ∀ h t, w.prepares h = some t → t.TurnedAway ∨ t.Carried pin as h
  uploads : ∀ u t, w.uploads u = some t → w.FromPin pin as t.grant.sessionId
  offers : ∀ request ∈ w.offers, ∃ h peer, Action.prepare h (.checkPin peer (some pin) request) ∈ as
  log : ∀ time o, (time, o) ∈ w.log → w.GuardedBy pin as o

variable {sha : List UInt8 → String} {w w' : World} {a : Action} {pin : String} {as : List Action}

theorem checkPin_cases (hpin : w.state.pinGate.pin = some pin) (h : TaskId) (peer : IpAddr)
    (provided : Option String) (request : PrepareUploadRequest) {t : PrepareTask}
    (ht : (w.checkPin h peer provided request).prepares h = some t) :
    t.TurnedAway ∨ (provided = some pin ∧ t.peer = peer ∧ t.request = request) := by
  revert ht
  unfold checkPin
  dsimp only
  -- turned away by the verdict of the gate
  cases hverdict : (w.state.pinGate.check w.now provided peer).1 with
  | unauthorized =>
    intro ht
    cases (Function.update_self ..).symm.trans ht
    exact .inl ⟨rfl, rfl, .inl rfl⟩
  | lockedOut =>
    intro ht
    cases (Function.update_self ..).symm.trans ht
    exact .inl ⟨rfl, rfl, .inr rfl⟩
  -- the gate lets pass only the PIN that is set
  | ok cleared =>
    have hprovided := PinGate.provided_of_ok hpin hverdict
    dsimp only
    intro ht
    split at ht
    · cases (Function.update_self ..).symm.trans ht
      exact .inr ⟨hprovided, rfl, rfl⟩
    · cases (Function.update_self ..).symm.trans ht
      exact .inr ⟨hprovided, rfl, rfl⟩

theorem FromPin.step (hinv : w.PrepareInv) (hstep : w.step sha a = some w') {x : SessionId}
    (h : w.FromPin pin as x) : w'.FromPin pin (as ++ [a]) x := by
  obtain ⟨g, t, ht, howns, hcarried⟩ := h
  obtain ⟨ht', -⟩ | ⟨b, t', -, -, ht', hmove⟩ := prepares_of_step hstep ht
  · exact ⟨g, t, ht', howns, List.mem_append_left _ hcarried⟩
  · refine ⟨g, t', ht', hmove.owns_mono (hinv.wf g t ht) howns, ?_⟩
    unfold PrepareTask.Carried
    rw [hmove.peer_eq, hmove.request_eq]
    exact List.mem_append_left _ hcarried

/-- The session in the slot is of a handler that was not turned away. -/
theorem PinInv.current (hinv : PinInv pin as w) {s : Session}
    (hs : w.state.currentSession = some s) :
    w.FromPin pin as s.id := by
  obtain ⟨h, t, ht, hplaced⟩ := hinv.prepare.placed s hs
  have howns : t.Owns s.id := hplaced.imp id fun hacc => hacc.1
  obtain ⟨hreserved, haccepted, -⟩ | hcarried := hinv.carried h t ht
  · cases howns with
    | inl hr => cases hreserved.symm.trans hr
    | inr hacc => cases haccepted.symm.trans hacc
  · exact ⟨h, t, ht, howns, hcarried⟩

theorem GuardedBy.step (hinv : w.PrepareInv) (hstep : w.step sha a = some w') {o : Observation}
    (h : w.GuardedBy pin as o) : w'.GuardedBy pin (as ++ [a]) o := by
  cases o with
  | sinkCreate | chunkWritten | fileCommitted | fileCompleted => exact FromPin.step hinv hstep h
  | emitted e =>
    cases e with
    | textReceived | fileReceived => exact FromPin.step hinv hstep h
    | _ => trivial
  | _ => trivial

/-- What a step observes of a session, it observes of the one in the slot or of an upload. -/
theorem PinInv.observed (hinv : PinInv pin as w) {o : Observation} (ho : w.Observed a o) :
    w.GuardedBy pin as o := by
  cases ho with
  -- what is observed goes back to the session in the slot or to the handler of a text
  | routine h =>
    cases o with
    | emitted e =>
      cases e with
      | fileReceived | textReceived => exact h.elim
      | _ => trivial
    | sinkCreate | chunkWritten | fileCommitted | fileCompleted => exact h.elim
    | _ => trivial
  | @delivered h t id text ht live phase hid =>
    obtain ⟨-, haccepted, -⟩ | hcarried := hinv.carried h t ht
    · cases haccepted.symm.trans hid
    · exact ⟨h, t, ht, .inr hid, hcarried⟩
  | began _ hs => exact hinv.current hs
  | @written u t chunk ht => exact hinv.uploads u t ht
  | @committed u t path ht => exact hinv.uploads u t ht
  | completed _ _ _ hs => exact hinv.current hs
  | announced _ _ _ hs => exact hinv.current hs
  | created | cancelled | answered => trivial

theorem pinInv_step (hinv : PinInv pin as w) (hstep : w.step sha a = some w') :
    PinInv pin (as ++ [a]) w' where
  prepare := prepareInv_step hinv.prepare hstep
  gate := (pin_of_step hstep).trans hinv.gate
  carried h t' ht' := by
    obtain hold | ⟨b, rfl, hmove, -⟩ := prepares_before hstep ht'
    · exact (hinv.carried h t' hold).imp_right (List.mem_append_left _)
    -- a new handler has just passed the gate, an old one stays as it was
    · generalize hold : w.prepares h = old at hmove
      cases old with
      | none =>
        cases step_prepare hstep with
        | checkPin =>
          refine (checkPin_cases hinv.gate h _ _ _ ht').imp_right fun ⟨hprovided, hpeer,
            hrequest⟩ => ?_
          subst hprovided hpeer hrequest
          exact List.mem_append_right _ (List.mem_singleton.mpr rfl)
        | reserve ht | sendRequest ht | decide ht | clearAwaiting ht | refuse ht | decline ht | install ht
        | deliverText ht | drop ht => cases hold.symm.trans ht
      | some t =>
        obtain haway | hcarried := hinv.carried h t hold
        · -- it has answered, and makes no further step
          have hstays : w'.prepares h = some t := by
            obtain ⟨-, -, hphase | hphase⟩ := haway
            · exact answered_of_step hstep hold hphase
            · exact answered_of_step hstep hold hphase
          cases hstays.symm.trans ht'
          exact .inl haway
        · refine .inr ?_
          unfold PrepareTask.Carried
          rw [hmove.peer_eq, hmove.request_eq]
          exact List.mem_append_left _ hcarried
  -- an upload is of the session it began in
  uploads u t' ht' := by
    obtain hold | ⟨b, l, rfl, hsection, hmove, -⟩ := uploads_before hstep ht'
    · exact (hinv.uploads u t' hold).step hinv.prepare hstep
    · apply FromPin.step hinv.prepare hstep
      generalize hold : w.uploads u = old at hmove
      cases old with
      | some t =>
        rw [hmove.grant_eq.2]
        exact hinv.uploads u t hold
      | none =>
        cases hmove with
        | began hs => exact hinv.current hs
  offers request hrequest := by
    have hkept (hold : request ∈ w.offers) :
        ∃ h peer, Action.prepare h (.checkPin peer (some pin) request) ∈ as ++ [a] :=
      let ⟨h, peer, hmem⟩ := hinv.offers request hold
      ⟨h, peer, List.mem_append_left _ hmem⟩
    -- the offers in the channel are those of admitted handlers
    cases consumerMove_of_step hstep with
    | same hsame | queues hsame => exact hkept (hsame.offers ▸ hrequest)
    -- a handler that was turned away does not ask
    | asks _ ht _ phase _ _ _ _ _ hoffers =>
      rw [hoffers, List.mem_append, List.mem_singleton] at hrequest
      obtain hold | rfl := hrequest
      · exact hkept hold
      · obtain ⟨-, -, hanswered⟩ | hcarried := hinv.carried _ _ ht
        · rw [phase] at hanswered
          obtain h | h := hanswered <;> cases h
        · exact ⟨_, _, List.mem_append_left _ hcarried⟩
    -- the consumer takes an offer out
    | receives action =>
      subst action
      cases hstep
      have hsub : w.channel.recv.queue.Sublist w.channel.queue :=
        BoundedChannel.queue_recv w.channel ▸ List.tail_sublist _
      exact hkept ((hsub.filterMap _).mem hrequest)
    | closes action | switches action =>
      subst action
      cases hstep
      exact hkept hrequest
  log time o ho := by
    obtain hold | ⟨-, hnew⟩ := observed_of_step hstep ho
    · exact (hinv.log time o hold).step hinv.prepare hstep
    · exact (hinv.observed hnew).step hinv.prepare hstep

theorem pinInv_start {c : ServerConfig} (hpin : c.pin = some pin) :
    PinInv pin [] (World.start c) where
  prepare := prepareInv_start c
  gate := hpin
  carried _ _ h := by cases h
  uploads _ _ h := by cases h
  offers _ h := by cases h
  log _ _ h := by cases h

/-- In a run of a receiver with a PIN, a handler whose request did not carry the PIN has answered
    401 or 429. The session in the slot, the sessions of the uploads, the offers that wait for the
    consumer, and whatever was created, written, committed or announced, all come from requests that
    carried it. -/
theorem pin_guards_sessions (sha : List UInt8 → String) (c : ServerConfig) {pin : String}
    (hpin : c.pin = some pin) (as : List Action) {w : World}
    (hrun : (receiver sha).exec (World.start c) as = some w) :
    (∀ h t, w.prepares h = some t → t.TurnedAway ∨ t.Carried pin as h) ∧
      (∀ s, w.state.currentSession = some s → w.FromPin pin as s.id) ∧
      (∀ u t, w.uploads u = some t → w.FromPin pin as t.grant.sessionId) ∧
      (∀ request ∈ w.offers, ∃ h peer, Action.prepare h (.checkPin peer (some pin) request) ∈ as) ∧
      ∀ time o, (time, o) ∈ w.log → w.GuardedBy pin as o :=
  have hinv : PinInv pin as w :=
    (receiver sha).exec_history (pinInv_start hpin) (fun _ _ _ _ h hstep => pinInv_step h hstep) hrun
  ⟨hinv.carried, fun _ hs => hinv.current hs, hinv.uploads, hinv.offers, hinv.log⟩

end World

namespace Scenario

def pinned : ServerConfig := { config with pin := some "1234" }

/-- Bob guesses, and Alice knows the PIN. -/
def guessed : List Action :=
  [.prepare 1 (.checkPin bob (some "0000") offer),
    .prepare 0 (.checkPin alice (some "1234") offer),
    .prepare 0 (.reserve ⟨"reserved"⟩ (token "r"))]

end Scenario

namespace World

/-- The slot is Alice's, and not of the one who guessed. -/
theorem pin_guards_sessions_guessed : ∃ w : World,
    (receiver Scenario.digest).exec (World.start Scenario.pinned) Scenario.guessed = some w ∧
      ∃ s, w.state.currentSession = some s ∧ w.FromPin "1234" Scenario.guessed s.id := by
  have hslot : ((receiver Scenario.digest).exec (World.start Scenario.pinned) Scenario.guessed).any
      (fun w => w.state.currentSession.isSome) = true := by decide +kernel
  obtain ⟨w, hrun, hsome⟩ := (Option.any_eq_true ..).mp hslot
  obtain ⟨s, hs⟩ := Option.isSome_iff_exists.mp hsome
  exact ⟨w, hrun, s, hs,
    (pin_guards_sessions Scenario.digest Scenario.pinned rfl Scenario.guessed hrun).2.1 s hs⟩

end World

end LocalSend
