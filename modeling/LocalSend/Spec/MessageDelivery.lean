import LocalSend.Spec.UploadOutcome

/-!
# What a 204 acknowledges

A text message is its offer: there is no upload after it, and the text exists nowhere but in
the event that delivers it. The handler tries to send that event and answers 204 whatever has
become of it, so an acknowledged message is with the consumer exactly when the channel had room
at that moment. Anybody can fill the channel with `/register`.

## Key results

- `offers_of_messageText`: the text of a message is the preview of its one item
- `acknowledged_of_step`: only the section that delivers a text answers 204 to an offer
- `message_delivery`: in every run, what an acknowledged message needs of the channel
-/

namespace LocalSend

/-- The offer is a message: its one item has the text as its preview. -/
def PrepareUploadRequest.Offers (request : PrepareUploadRequest) (text : String) : Prop :=
  ∃ f file, request.files.entries = [(f, file)] ∧ file.preview = some text

theorem PrepareUploadRequest.offers_of_messageText {request : PrepareUploadRequest} {text : String}
    (h : request.messageText = some text) : request.Offers text := by
  unfold messageText at h
  split at h
  · rename_i f file hentries
    exact ⟨f, file, hentries, (Option.filter_eq_some_iff.mp h).1⟩
  · simp at h

theorem PrepareUploadRequest.Offers.unique {request : PrepareUploadRequest} {text text' : String}
    (h : request.Offers text) (h' : request.Offers text') : text = text' := by
  obtain ⟨f, file, hentries, hpreview⟩ := h
  obtain ⟨f', file', hentries', hpreview'⟩ := h'
  cases hentries.symm.trans hentries'
  exact Option.some.inj (hpreview.symm.trans hpreview')

namespace World

/-- The step puts the text into the channel, as sent for one of the sender's sessions. -/
def Enqueues (w : World) (text senderAlias : String) (w' : World) : Prop :=
  ∃ id, w.channel.queue ++ [.textReceived id text senderAlias] <+: w'.channel.queue

/-- A prepare that is answered 204 on an offer of something has put the offered text into the
    channel. -/
def AcknowledgedEnqueued (w : World) (_ : Action) (w' : World) : Prop :=
  ∀ h t body, w'.prepares h = some t → w.prepares h ≠ some t →
    t.phase = .answered .noContent body → t.request.files.isEmpty = false →
    ∃ text, t.request.Offers text ∧ w.Enqueues text t.request.info.deviceAlias w'

/-- A text is delivered only while the channel has room. -/
def DeliversWithRoom (w : World) (a : Action) (_ : World) : Prop :=
  ∀ h, a = .prepare h .deliverText → w.channel.hasRoom = true

variable {sha : List UInt8 → String} {w w' : World} {a : Action}

/-- Only delivering a text answers 204 to an offer of something. -/
theorem acknowledged_of_step (hstep : w.step sha a = some w') {h : TaskId} {t : PrepareTask}
    {body : Option PrepareUploadResponse} (ht : w'.prepares h = some t)
    (hnew : w.prepares h ≠ some t) (hphase : t.phase = .answered .noContent body)
    (hfiles : t.request.files.isEmpty = false) :
    a = .prepare h .deliverText := by
  rcases prepares_before hstep ht with hold | ⟨b, rfl, hmove, _⟩
  · exact absurd hold hnew
  · generalize hold : w.prepares h = old at hmove
    -- every other answer has another status, or is to an empty offer
    cases hmove with
    | delivered => rfl
    | emptyOffer hempty => cases hfiles.symm.trans hempty
    | refusedPin _ hstatus =>
      cases hphase
      rcases hstatus with hstatus | hstatus <;> simp at hstatus
    | dropped awaits =>
      have hphase : PreparePhase.answered .noContent body = _ := hphase.symm
      rw [← hphase] at awaits
      cases awaits
    | @reserved t id token =>
      unfold PrepareTask.reservedAs at hphase
      split at hphase <;> simp at hphase
    | _ => simp at hphase

/-- The message a handler delivers is the one it was offered. -/
theorem offers_of_deliverText (hinv : w.PrepareInv) (hstep : w.step sha a = some w') {h : TaskId}
    (ha : a = .prepare h .deliverText) :
    ∃ t text id, w.prepares h = some t ∧ t.phase = .messaging text ∧ t.request.Offers text ∧
      w' = w.deliverText h t id text := by
  subst ha
  cases step_prepare hstep with
  | @deliverText t text id ht live phase hid =>
    have hwf := hinv.wf h t ht
    simp only [PrepareTask.Wf, phase] at hwf
    exact ⟨t, text, id, ht, phase, PrepareUploadRequest.offers_of_messageText hwf.2.2, rfl⟩

/-- Delivering a text puts it into the channel exactly when there is room. -/
theorem enqueues_deliverText_iff (h : TaskId) (t : PrepareTask) (id : SessionId) (text : String) :
    w.Enqueues text t.request.info.deviceAlias (w.deliverText h t id text) ↔
      w.channel.hasRoom = true := by
  have hchannel : (w.deliverText h t id text).channel =
      (w.channel.trySend (.textReceived id text t.request.info.deviceAlias)).trySend
        (.sessionDone id) := rfl
  unfold Enqueues
  rw [hchannel]
  constructor
  · rintro ⟨x, henqueued⟩
    -- a full channel takes neither the text nor the end of the session
    by_contra hfull
    have hfull := Bool.not_eq_true _ ▸ hfull
    rw [BoundedChannel.trySend_of_not_room hfull,
      BoundedChannel.trySend_of_not_room hfull] at henqueued
    have hle := henqueued.length_le
    rw [List.length_append, List.length_singleton] at hle
    omega
  · intro hroom
    refine ⟨id, ?_⟩
    rw [← BoundedChannel.queue_trySend_of_room hroom]
    exact BoundedChannel.queue_prefix_trySend ..

/-- One step: what is acknowledged is in the channel if and only if there was room for it. -/
theorem acknowledgedEnqueued_iff (hinv : w.PrepareInv) (hstep : w.step sha a = some w') :
    DeliversWithRoom w a w' ↔ AcknowledgedEnqueued w a w' := by
  constructor
  · intro hroom h t body ht hnew hphase hfiles
    have ha := acknowledged_of_step hstep ht hnew hphase hfiles
    obtain ⟨t₀, text, id, _, _, hoffers, rfl⟩ := offers_of_deliverText hinv hstep ha
    have hself : (w.deliverText h t₀ id text).prepares h =
        some { t₀ with phase := .answered .noContent none } := Function.update_self ..
    cases ht.symm.trans hself
    exact ⟨text, hoffers, (enqueues_deliverText_iff h t₀ id text).mpr (hroom h ha)⟩
  · intro hack h ha
    obtain ⟨t, text, id, ht, phase, hoffers, rfl⟩ := offers_of_deliverText hinv hstep ha
    have hself : (w.deliverText h t id text).prepares h =
        some { t with phase := .answered .noContent none } := Function.update_self ..
    -- it was not answered before, so the claim is about this step
    have hnew : w.prepares h ≠ some { t with phase := .answered .noContent none } := by
      rw [ht]
      intro heq
      have hphase := congrArg PrepareTask.phase (Option.some.inj heq)
      cases phase.symm.trans hphase
    have hfiles : t.request.files.isEmpty = false := by
      obtain ⟨f, file, hentries, _⟩ := hoffers
      simp [AssocMap.isEmpty, hentries]
    obtain ⟨text', hoffers', henqueued⟩ := hack h _ none hself hnew rfl hfiles
    cases hoffers.unique hoffers'
    exact (enqueues_deliverText_iff h t id text).mp henqueued

/-- In every run: every 204 to an offer of something comes with its text in the channel exactly
    when every text is delivered while the channel has room. -/
theorem message_delivery (sha : List UInt8 → String) (c : ServerConfig) (as : List Action) :
    (receiver sha).Always DeliversWithRoom (World.start c) as ↔
      (receiver sha).Always AcknowledgedEnqueued (World.start c) as := by
  apply (receiver sha).always_iff_of_invariant PrepareInv _ (prepareInv_start c)
  intro w a w' hinv hstep
  exact ⟨acknowledgedEnqueued_iff hinv hstep, fun _ => prepareInv_step hinv hstep⟩

end World

namespace Scenario

/-- Alice's message is accepted while strangers register until the channel is full. -/
def floodedMessage : List Action :=
  [.env (.setAutoAccept true),
    .prepare 0 (.checkPin alice none message),
    .prepare 0 (.reserve ⟨"reserved"⟩ (token "r")),
    .prepare 0 (.clearAwaiting ⟨"session"⟩ (token "s")),
    .prepare 0 .install] ++ List.replicate 64 (.env (.register message.info))

end Scenario

namespace World

/-- Alice is told 204, and her text is gone. -/
theorem message_lost :
    ¬∀ (sha : List UInt8 → String) (c : ServerConfig) (as : List Action),
      (receiver sha).Always AcknowledgedEnqueued (World.start c) as := by
  intro hall
  -- the registrations have filled all 64 places when the text is delivered
  obtain ⟨w, w', hrun, hstep, htest⟩ := (receiver Scenario.digest).exists_run_of_test
    (World.start Scenario.config) Scenario.floodedMessage (.prepare 0 .deliverText)
    (fun w _ => !w.channel.hasRoom) (by decide +kernel)
  have hreachable : (receiver Scenario.digest).Reachable w :=
    TransitionSystem.Reachable.exec (.init ⟨Scenario.config, rfl⟩) hrun
  have hack := (hall Scenario.digest Scenario.config
    (Scenario.floodedMessage ++ [.prepare 0 .deliverText])).last hrun hstep
  have hstep : w.step Scenario.digest (.prepare 0 .deliverText) = some w' := hstep
  have hroom := (acknowledgedEnqueued_iff (prepareInv_of_reachable hreachable) hstep).mpr hack 0 rfl
  rw [hroom] at htest
  simp at htest

end World

end LocalSend
