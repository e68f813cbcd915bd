import LocalSend.Spec.ConfirmDialog
import LocalSend.Spec.MessageDelivery

/-!
# What the receiver does to its consumer

A handler asks the consumer with one event, the request that it then waits for. Every other section puts
events into the channel that ask for nothing, and none touches the switch that the consumer sets.

## Key results

- `consumerMove_of_step`: the offers in the channel and the switch, through a step of the receiver
- `passed_of_step`: no event is taken back
-/

namespace LocalSend

/-- The gate keeps its PIN. -/
theorem PinGate.check_pin (g : PinGate) (now : Nat) (provided : Option String) (peer : IpAddr) :
    (g.check now provided peer).2.pin = g.pin := by
  have hroom : ∀ g : PinGate, (g.makeRoom now).pin = g.pin := by
    intro g
    unfold makeRoom
    dsimp only
    repeat' split
    all_goals rfl
  unfold check
  dsimp only
  repeat' split
  all_goals first | rfl | exact hroom _

namespace World

/-- The offers in the channel. -/
def offers (w : World) : List PrepareUploadRequest := w.channel.queue.filterMap ServerEvent.offer?

/-- No event has left the channel, no offer has come, and the switch is the same. -/
structure SameOffers (w w' : World) : Prop where
  capacity : w'.channel.capacity = w.channel.capacity
  closed : w'.channel.closed = w.channel.closed
  received : w'.channel.received = w.channel.received
  queue : w.channel.queue <+: w'.channel.queue
  offers : w'.offers = w.offers
  autoAccept : w'.state.autoAccept = w.state.autoAccept
  pin : w'.state.pinGate.pin = w.state.pinGate.pin

/-- Nor has a sender joined or left the line at the channel. -/
structure SameConsumer (w w' : World) : Prop extends SameOffers w w' where
  senders : w'.channel.senders = w.channel.senders

/-- What leaves the channel, the switch and the PIN as they are leaves the consumer alone. -/
theorem SameConsumer.of_eq {w w' : World} (hchannel : w'.channel = w.channel)
    (hauto : w'.state.autoAccept = w.state.autoAccept)
    (hpin : w'.state.pinGate.pin = w.state.pinGate.pin) : SameConsumer w w' where
  capacity := by rw [hchannel]
  closed := by rw [hchannel]
  received := by rw [hchannel]
  queue := by rw [hchannel]
  offers := by
    unfold World.offers
    rw [hchannel]
  autoAccept := hauto
  pin := hpin
  senders := by rw [hchannel]

/-- As does nothing. -/
theorem SameConsumer.refl (w : World) : SameConsumer w w := .of_eq rfl rfl rfl

/-- Two steps that leave the offers alone, one after the other. -/
theorem SameOffers.trans {w w' w'' : World} (h : SameOffers w w') (h' : SameOffers w' w'') :
    SameOffers w w'' where
  capacity := h'.capacity.trans h.capacity
  closed := h'.closed.trans h.closed
  received := h'.received.trans h.received
  queue := h.queue.trans h'.queue
  offers := h'.offers.trans h.offers
  autoAccept := h'.autoAccept.trans h.autoAccept
  pin := h'.pin.trans h.pin

/-- Two steps that leave the consumer alone, one after the other. -/
theorem SameConsumer.trans {w w' w'' : World} (h : SameConsumer w w') (h' : SameConsumer w' w'') :
    SameConsumer w w'' :=
  ⟨h.toSameOffers.trans h'.toSameOffers, h'.senders.trans h.senders⟩

/-- Those in line do not concern the consumer. -/
theorem SameOffers.of_sameEvents {w : World} {ch : EventChannel} (h : w.channel.SameEvents ch) :
    SameOffers w { w with channel := ch } where
  capacity := h.capacity
  closed := h.closed
  received := h.received
  queue := by rw [h.queue]
  offers := by
    show ch.queue.filterMap ServerEvent.offer? = w.offers
    rw [h.queue]
    rfl
  autoAccept := rfl
  pin := rfl

/-- The offers in a channel that has got one more event. -/
theorem offers_of_queue {w : World} {ch : EventChannel} {e : ServerEvent}
    (h : ch.queue = w.channel.queue ++ [e]) :
    ch.queue.filterMap ServerEvent.offer? = w.offers ++ e.offer?.toList := by
  rw [h, List.filterMap_append]
  cases he : e.offer? <;> simp [he, World.offers]

/-- An event that asks for nothing. -/
theorem sameConsumer_trySend (w : World) {e : ServerEvent} (h : e.offer? = none) :
    SameConsumer w (w.trySend e) where
  capacity := w.channel.capacity_trySend e
  closed := w.channel.closed_trySend e
  received := w.channel.received_trySend e
  queue := w.channel.queue_prefix_trySend e
  offers := by
    show (w.channel.trySend e).queue.filterMap ServerEvent.offer? = w.offers
    cases hroom : w.channel.hasRoom with
    | true =>
      rw [offers_of_queue (BoundedChannel.queue_trySend_of_room hroom e), h, Option.toList_none,
        List.append_nil]
    | false =>
      rw [BoundedChannel.trySend_of_not_room hroom]
      rfl
  autoAccept := rfl
  pin := rfl
  senders := w.channel.senders_trySend e

/-- The Web Share half asks for nothing. -/
theorem sameOffers_share (w : World) (a : ShareAction) :
    SameOffers w { w with channel := w.channel.share a } := by
  cases a with
  -- what is shared is no offer, with or without room for it
  | trySend =>
    have hsame := w.sameConsumer_trySend (e := .webShare) rfl
    exact ⟨hsame.capacity, hsame.closed, hsame.received, hsame.queue, hsame.offers, rfl, rfl⟩
  | drop k => exact .of_sameEvents (w.channel.sameEvents_leave (.share k))
  | send k =>
    unfold EventChannel.share
    dsimp only
    -- a closed channel fails at once, an open one takes the event or lets its sender wait
    split
    · exact (SameConsumer.refl w).toSameOffers
    · rename_i hopen
      rw [Bool.not_eq_true] at hopen
      split
      · rename_i hready
        refine ⟨w.channel.capacity_send _ _, w.channel.closed_send _ _, w.channel.received_send _ _,
          w.channel.queue_prefix_send _ _, ?_, rfl, rfl⟩
        show (w.channel.send (.share k) .webShare).queue.filterMap ServerEvent.offer? = w.offers
        rw [offers_of_queue (BoundedChannel.queue_send hopen hready .webShare)]
        exact List.append_nil _
      · exact .of_sameEvents (w.channel.sameEvents_wait (.share k))

/-! ## The sections -/

/-- An unwinding leaves the consumer alone. -/
theorem sameConsumer_unwind (w : World) : SameConsumer w w.unwind := by
  unfold unwind
  split <;> exact .of_eq rfl rfl rfl

/-- Clearing the slot leaves the consumer alone. -/
theorem sameConsumer_tryClearSlot (w : World) (s : Session) :
    SameConsumer w (w.tryClearSlot s).2 := by
  unfold tryClearSlot
  dsimp only
  split <;> exact .of_eq rfl rfl rfl

/-- The section that asks for the slot leaves the consumer alone. -/
theorem sameConsumer_reserve (w : World) (h : TaskId) (t : PrepareTask) (id : SessionId)
    (token : FileId → Token) : SameConsumer w (w.reserve h t id token) := by
  rcases reserve_cases w h t id token with ⟨s, _, _, heq⟩ | ⟨_, heq⟩ | ⟨s, _, _, _, heq⟩
  · rw [heq]
    exact .of_eq rfl rfl rfl
  · rw [heq]
    exact .of_eq rfl rfl rfl
  · rw [heq]
    exact .of_eq rfl rfl rfl

/-- The section that clears the reservation leaves the consumer alone, whatever was decided. -/
theorem sameConsumer_clearAwaiting (w : World) (h : TaskId) (t : PrepareTask) (d : TransferDecision)
    (id : SessionId) (token : FileId → Token) :
    SameConsumer w (w.clearAwaiting h t d id token) := by
  have hclear : SameConsumer w (w.clearReservation t) := by
    unfold clearReservation
    split <;> exact .of_eq rfl rfl rfl
  rcases clearAwaiting_cases w h t d id token with ⟨_, _, heq⟩ | ⟨_, _, heq⟩ | ⟨_, heq⟩
  · rw [heq]
    exact hclear.trans (.of_eq rfl rfl rfl)
  · rw [heq]
    exact hclear.trans (.of_eq rfl rfl rfl)
  · rw [heq]
    exact hclear.trans (.of_eq rfl rfl rfl)

/-- An installation leaves the consumer alone. -/
theorem sameConsumer_install (w : World) (h : TaskId) (t : PrepareTask) (s : Session) :
    SameConsumer w (w.install h t s) := by
  refine (sameConsumer_unwind w).trans ?_
  unfold install
  dsimp only
  split <;> exact .of_eq rfl rfl rfl

/-- The text of a message is no offer. -/
theorem sameConsumer_deliverText (w : World) (h : TaskId) (t : PrepareTask) (id : SessionId)
    (text : String) : SameConsumer w (w.deliverText h t id text) := by
  have htext := sameConsumer_trySend w (e := .textReceived id text t.request.info.deviceAlias) rfl
  exact (htext.trans (sameConsumer_trySend _ (e := .sessionDone id) rfl)).trans (.of_eq rfl rfl rfl)

/-- The release task leaves the consumer alone. -/
theorem sameConsumer_releaseReservation (w : World) (reserved : SessionId) :
    SameConsumer w (w.releaseReservation reserved) := by
  unfold releaseReservation
  dsimp only
  repeat' split
  all_goals exact .of_eq rfl rfl rfl

/-- A `/cancel` leaves the consumer alone. -/
theorem sameConsumer_handleCancel (w : World) (peer : IpAddr) (sessionId : Option SessionId) :
    SameConsumer w (w.handleCancel peer sessionId).2 := by
  unfold handleCancel
  dsimp only
  repeat' split
  all_goals first
    | exact .of_eq rfl rfl rfl
    | exact .trans (.of_eq rfl rfl rfl)
        ((sameConsumer_trySend _ (e := .sessionDone _) rfl).trans (.of_eq rfl rfl rfl))

/-- The sweep leaves the consumer alone. -/
theorem sameConsumer_sessionSweep (w : World) : SameConsumer w w.sessionSweep := by
  have hstandard : SameConsumer w w.sweepStandard := by
    unfold sweepStandard
    dsimp only
    split
    · exact .refl w
    · rename_i s _
      have h := sameConsumer_tryClearSlot w s
      split
      · split
        · exact h.trans (.of_eq rfl rfl rfl)
        · exact h
      · exact .refl w
  refine hstandard.trans ?_
  unfold sessionSweep sweepCrosscopy
  split <;> exact .of_eq rfl rfl rfl

/-- `stop` leaves the consumer alone. -/
theorem sameConsumer_stop (w : World) : SameConsumer w w.stop := by
  have hmark : SameConsumer w { w with state.crosscopyAuthorizedStopping := true } :=
    .of_eq rfl rfl rfl
  have hcrosscopy : ∀ v : World, SameConsumer v v.stopCrosscopy := by
    intro v
    unfold stopCrosscopy
    dsimp only
    repeat' split
    all_goals exact .of_eq rfl rfl rfl
  unfold stop
  dsimp only
  split
  · exact hmark.trans (hcrosscopy _)
  · exact (hmark.trans (sameConsumer_tryClearSlot _ _)).trans (hcrosscopy _)

/-! ### Uploads -/

/-- Progress is counted and announced. -/
theorem sameConsumer_emitProgress (w : World) (receivedBytes : SessionId → Nat) (t : UploadTask)
    (bytes : Nat) : SameConsumer w
      ({ w with receivedBytes := receivedBytes }.emitProgress t bytes) := by
  have hcount : SameConsumer w { w with receivedBytes := receivedBytes } := .of_eq rfl rfl rfl
  exact hcount.trans (sameConsumer_trySend _ rfl)

/-- An upload that is turned away leaves the consumer alone. -/
theorem sameConsumer_rejectUpload (w : World) (u : TaskId) (t : UploadTask) (amount : Nat)
    (status : StatusCode) (abort : Bool) :
    SameConsumer w (w.rejectUpload u t amount status abort) := by
  have hroll : SameConsumer w (w.rollbackProgress t amount) := sameConsumer_emitProgress w _ t _
  unfold rejectUpload
  dsimp only
  split
  · exact hroll.trans (.of_eq rfl rfl rfl)
  · exact hroll.trans (.of_eq rfl rfl rfl)

/-- The events that record a file are no offers. -/
theorem sameConsumer_record (w : World) (u : TaskId) (t : UploadTask) (path : PathBuf) :
    SameConsumer w (w.record u t path) := by
  have hfile : ∀ session, SameConsumer w (w.recordFile t session path) := by
    intro session
    unfold recordFile
    dsimp only
    refine .trans (.trans ?_ (sameConsumer_trySend _ rfl)) (.of_eq rfl rfl rfl)
    unfold storeReceived
    exact .of_eq rfl rfl rfl
  unfold record
  split
  · exact .of_eq rfl rfl rfl
  · dsimp only
    split
    · refine (hfile _).trans
        (.trans (sameConsumer_trySend _ (e := .sessionDone _) rfl) (.of_eq rfl rfl rfl))
    · exact (hfile _).trans (.of_eq rfl rfl rfl)

/-- No step of an upload is seen by the consumer but for the events that report it. -/
theorem sameConsumer_uploadStep {sha : List UInt8 → String} {w w' : World} {u : TaskId}
    {a : UploadAction} (hstep : UploadStep sha w u a w') : SameConsumer w w' := by
  cases hstep with
  -- a lease tells the consumer nothing
  | begin_ =>
    unfold beginUpload
    dsimp only
    repeat' split
    all_goals exact .of_eq rfl rfl rfl
  | @sinkCreated t result =>
    rcases result with (_ | _) | _ <;> exact .of_eq rfl rfl rfl
  | @chunkWritten t chunk ok =>
    cases ok <;> exact .of_eq rfl rfl rfl
  -- only the reports of an upload reach the channel, and they are no offers
  | @reportProgress t => exact .trans (sameConsumer_emitProgress w _ t _) (.of_eq rfl rfl rfl)
  | flushed =>
    unfold bodyFlushed
    dsimp only
    repeat' split
    all_goals exact .of_eq rfl rfl rfl
  | @reject t amount status abort => exact sameConsumer_rejectUpload w u t amount status abort
  | publish =>
    unfold publish
    split <;> exact .of_eq rfl rfl rfl
  | @committed t result =>
    cases result <;> exact .of_eq rfl rfl rfl
  | @record t path => exact sameConsumer_record w u t path
  | _ => exact .of_eq rfl rfl rfl

/-! ## A step -/

/-- What a step of the receiver does to the offers in the channel and to the switch. -/
inductive ConsumerMove (w : World) (a : Action) (w' : World) : Prop
  | same (h : SameConsumer w w')
    (quiet : ∀ h, a = .prepare h .sendRequest → w.channel.closed = true)
    (stays : ∀ h, a ≠ .prepare h .drop)
  /-- Those in line may be others, too. -/
  | queues (h : SameOffers w w') (quiet : ∀ h, a ≠ .prepare h .sendRequest)
    (action : (∃ h, a = .prepare h .drop ∧
      w'.channel.senders = w.channel.senders.erase (.prepare h)) ∨
      (∃ h, a = .env (.awaitRoom h)) ∨ ∃ b, a = .env (.share b))
  | asks {h : TaskId} {t : PrepareTask} (action : a = .prepare h .sendRequest)
    (ht : w.prepares h = some t) (live : t.dropped = false) (phase : t.phase = .sending)
    (opened : w.channel.closed = false) (capacity : w'.channel.capacity = w.channel.capacity)
    (closed : w'.channel.closed = w.channel.closed)
    (received : w'.channel.received = w.channel.received)
    (queue : w.channel.queue <+: w'.channel.queue) (offers : w'.offers = w.offers ++ [t.request])
    (autoAccept : w'.state.autoAccept = w.state.autoAccept)
    (pin : w'.state.pinGate.pin = w.state.pinGate.pin)
    (senders : w'.channel.senders = w.channel.senders.erase (.prepare h))
  | receives (action : a = .env .receiveEvent)
  | closes (action : a = .env .closeEvents)
  | switches {yes : Bool} (action : a = .env (.setAutoAccept yes))

/-- The steps of an offer: only `sendRequest` asks the consumer, or waits in line for it. -/
theorem consumerMove_prepare {w w' : World} {h : TaskId} {a : PrepareAction}
    (hstep : PrepareStep w h a w') : ConsumerMove w (.prepare h a) w' := by
  cases hstep with
  -- the PIN itself is kept by the gate
  | checkPin fresh =>
    refine .same ?_ (by simp) (by simp)
    unfold checkPin
    dsimp only
    repeat' split
    all_goals exact .of_eq rfl rfl (w.state.pinGate.check_pin ..)
  | @reserve t id token => exact .same (sameConsumer_reserve w h t id token) (by simp) (by simp)
  | @sendRequest t ht live phase ready =>
    unfold sendRequest
    -- a closed channel declines at once, otherwise the offer goes into its room
    split
    · rename_i hclosed
      exact .same (.of_eq rfl rfl rfl) (fun _ _ => hclosed) (by simp)
    · rename_i hopen
      rw [Bool.not_eq_true] at hopen
      exact .asks rfl ht live phase hopen (w.channel.capacity_send _ _) (w.channel.closed_send _ _)
        (w.channel.received_send _ _) (w.channel.queue_prefix_send _ _)
        (offers_of_queue (BoundedChannel.queue_send hopen ready _)) rfl rfl
        (BoundedChannel.senders_send hopen ready _)
  -- an answer changes nothing for the consumer
  | decide => exact .same (.of_eq rfl rfl rfl) (by simp) (by simp)
  | @clearAwaiting t d id token =>
    exact .same (sameConsumer_clearAwaiting w h t d id token) (by simp) (by simp)
  | refuse | decline =>
    exact .same ((sameConsumer_unwind w).trans (.of_eq rfl rfl rfl)) (by simp) (by simp)
  | @install t s => exact .same (sameConsumer_install w h t s) (by simp) (by simp)
  | @deliverText t text id =>
    exact .same (sameConsumer_deliverText w h t id text) (by simp) (by simp)
  | @drop t =>
    -- what is dropped leaves the line of the waiting senders
    have hleft : SameOffers w { w with channel := w.channel.leave (.prepare h) } :=
      .of_sameEvents (w.channel.sameEvents_leave (.prepare h))
    have hdropped : SameConsumer { w with channel := w.channel.leave (.prepare h) }
        (w.dropPrepare h t) :=
      .of_eq rfl rfl rfl
    exact .queues (hleft.trans hdropped.toSameOffers) (by simp)
      (.inl ⟨h, rfl, w.channel.senders_leave (.prepare h)⟩)

/-- A step of the receiver puts one offer into the channel, the one of the handler that asks, or
    none. -/
theorem consumerMove_of_step {sha : List UInt8 → String} {w w' : World} {a : Action}
    (hstep : w.step sha a = some w') : ConsumerMove w a w' := by
  cases a with
  | prepare h b => exact consumerMove_prepare (step_prepare hstep)
  -- uploads and what follows send no offer
  | upload u b => exact .same (sameConsumer_uploadStep (step_upload hstep)) (by simp) (by simp)
  | release reserved =>
    simp only [step, Option.ite_none_right_eq_some, Option.some.injEq] at hstep
    obtain ⟨_, rfl⟩ := hstep
    have herase : SameConsumer w { w with releases := w.releases.erase reserved } :=
      .of_eq rfl rfl rfl
    exact .same (herase.trans (sameConsumer_releaseReservation _ reserved)) (by simp) (by simp)
  | cancel peer sessionId =>
    cases hstep
    exact .same (sameConsumer_handleCancel w peer sessionId) (by simp) (by simp)
  | sweep =>
    cases hstep
    exact .same (sameConsumer_sessionSweep w) (by simp) (by simp)
  | stop =>
    cases hstep
    exact .same (sameConsumer_stop w) (by simp) (by simp)
  | installCrosscopy session =>
    cases hstep
    refine .same ?_ (by simp) (by simp)
    unfold installCrosscopy
    split <;> exact .of_eq rfl rfl rfl
  | finishCrosscopy sessionId =>
    cases hstep
    refine .same ?_ (by simp) (by simp)
    unfold finishCrosscopy
    split <;> exact .of_eq rfl rfl rfl
  -- the consumer's own actions are the cases of their own
  | env b =>
    cases hstep
    cases b with
    | tick d => exact .same (.of_eq rfl rfl rfl) (by simp) (by simp)
    | setAutoAccept yes => exact .switches rfl
    | receiveEvent => exact .receives rfl
    | closeEvents => exact .closes rfl
    -- a registration is no offer
    | register device => exact .same (sameConsumer_trySend w rfl) (by simp) (by simp)
    | awaitRoom h =>
      refine .queues (.of_sameEvents ?_) (by simp) (.inr (.inl ⟨h, rfl⟩))
      -- there is nothing to wait for unless the handler is about to send
      split
      · exact w.channel.sameEvents_wait (.prepare h)
      · exact .refl w.channel
    | share b => exact .queues (sameOffers_share w b) (by simp) (.inr (.inr ⟨b, rfl⟩))

/-- What has passed the channel stays so. -/
theorem passed_of_step {sha : List UInt8 → String} {w w' : World} {a : Action}
    (hstep : w.step sha a = some w') : w.channel.passed <+: w'.channel.passed := by
  have hgrown : ∀ {ch ch' : EventChannel}, ch'.received = ch.received → ch.queue <+: ch'.queue →
      ch.passed <+: ch'.passed := by
    rintro ch ch' hreceived ⟨new, hqueue⟩
    exact ⟨new, by rw [BoundedChannel.passed, BoundedChannel.passed, hreceived, ← hqueue,
      List.append_assoc]⟩
  cases consumerMove_of_step hstep with
  | same h | queues h => exact hgrown h.received h.queue
  | asks _ _ _ _ _ _ _ received queue => exact hgrown received queue
  | receives action =>
    subst action
    cases hstep
    exact w.channel.passed_recv ▸ List.prefix_rfl
  | switches action | closes action =>
    subst action
    cases hstep
    exact List.prefix_rfl

/-- The PIN is that of the configuration. -/
theorem pin_of_step {sha : List UInt8 → String} {w w' : World} {a : Action}
    (hstep : w.step sha a = some w') : w'.state.pinGate.pin = w.state.pinGate.pin := by
  cases consumerMove_of_step hstep with
  | same h | queues h => exact h.pin
  | asks _ _ _ _ _ _ _ _ _ _ _ pin => exact pin
  | receives action | closes action | switches action =>
    subst action
    cases hstep
    rfl

end World

end LocalSend
