import LocalSend.Spec.ConsentSafety
import LocalSend.Spec.TerminalSteps

/-!
# What the application accepts, a key has accepted

The handlers of the server ask in the order in which the application takes their requests, so a
dialog has the offer of the handler that waits for its answer. Whatever the server creates for an
upload goes back to a key that has accepted the file while such a dialog was open, with enter if its
row was selected or with y, or to an offer that came while the switch of the settings screen was on.
The dialog may not have been drawn by then: a key that was pressed before goes to it as well.

## Key results

- `Terminal.Inv.step`: the invariant of the two ends of the channel
- `Terminal.deciding_in_hand`: a handler that waits is not forgotten, and gets the answer of its dialog
- `Terminal.created_was_accepted`: what the user has agreed to
-/

namespace LocalSend

variable {I : Type} {lib : TuiLibrary I} {sha : List UInt8 → String}

/-! ## The handlers that ask -/

/-- Whether a handler has not come to asking the consumer. -/
def PreparePhase.beforeAsk : PreparePhase → Bool
  | .reserving | .sending => true
  | _ => false

/-- A request that has asked for consent is never again before asking. -/
theorem PrepareMove.beforeAsk {w : World} {t t' : PrepareTask} {a : PrepareAction}
    (hmove : PrepareMove w (some t) a t') (h : t.phase.beforeAsk = false) :
    t'.phase.beforeAsk = false := by
  cases hmove with
  | reserved hphase =>
    rw [hphase] at h
    cases h
  | dropped => exact h
  | _ => rfl

/-- The switch is looked at with the reservation. -/
theorem PrepareMove.autoAccept {w : World} {old : Option PrepareTask} {a : PrepareAction}
    {t' : PrepareTask} (hmove : PrepareMove w old a t') (hauto : t'.autoAccept = true) :
    (∃ t, old = some t ∧ t.autoAccept = true) ∨
      (w.state.autoAccept = true ∧ ∃ id token, a = .reserve id token) := by
  cases hmove with
  | refusedPin | emptyOffer | admitted => cases hauto
  | @reserved t id token _ _ =>
    unfold PrepareTask.reservedAs at hauto
    split at hauto
    · rename_i hswitch
      exact .inr ⟨hswitch, id, token, rfl⟩
    · cases hauto
  | _ => exact .inl ⟨_, rfl, hauto⟩

/-- Without the switch, only the consumer accepts. -/
theorem PrepareMove.accepting {w : World} {old : Option PrepareTask} {a : PrepareAction}
    {t' : PrepareTask} (hmove : PrepareMove w old a t') (hwf : ∀ t, old = some t → t.Wf)
    {d : TransferDecision} (hd : t'.decision = some d) (haccepts : d.accepts = true)
    (hauto : t'.autoAccept = false) :
    (∃ t, old = some t ∧ t.decision = some d ∧ t.autoAccept = false) ∨ a = .decide (some d) := by
  cases hmove with
  | refusedPin | emptyOffer | admitted => cases hd
  -- the reservation decides only where the switch is on
  | @reserved t id token hphase _ =>
    have hnone := hwf t rfl
    simp only [PrepareTask.Wf, hphase] at hnone
    unfold PrepareTask.reservedAs at hd hauto
    split at hd
    · rename_i hswitch
      rw [if_pos hswitch] at hauto
      cases hauto
    · cases hnone.2.2.1.symm.trans hd
  -- without a listener the offer is declined
  | nobodyListening =>
    cases hd
    cases haccepts
  | @decided t answer _ =>
    -- a withdrawn offer is declined, and so is one without an answer
    have heq := Option.some.inj hd
    split at heq
    · subst heq
      cases haccepts
    · cases answer with
      | none =>
        subst heq
        cases haccepts
      | some d' =>
        subst heq
        exact .inr rfl
  -- no other move touches the decision
  | _ => exact .inl ⟨_, rfl, hd, hauto⟩

namespace World

/-- The offer of a handler. -/
def offerOf (w : World) (h : TaskId) : Option PrepareUploadRequest :=
  (w.prepares h).map PrepareTask.request

/-- An offer under way keeps its message, also over later steps. -/
theorem offerOf_of_step {w w' : World} {a : Action} (hstep : w.step sha a = some w') {h : TaskId}
    {offer : PrepareUploadRequest} (hoffer : w.offerOf h = some offer) :
    w'.offerOf h = some offer := by
  unfold offerOf at hoffer ⊢
  rw [Option.map_eq_some_iff] at hoffer ⊢
  obtain ⟨p, hp, rfl⟩ := hoffer
  rcases prepares_of_step hstep hp with ⟨hsame, _⟩ | ⟨_, p', _, _, hp', hmove⟩
  · exact ⟨p, hsame, rfl⟩
  · exact ⟨p', hp', hmove.request_eq⟩

end World

namespace Terminal

/-- The two ends of the channel: who has asked, which dialog is open, and what is still in the
    channel. -/
structure Inv (t : Terminal I) : Prop where
  events : t.tui.events = t.world.channel.queue
  switch : t.tui.app.autoAccept = t.world.state.autoAccept
  taken : t.tui.taken ≤ t.askers.length
  /-- The offers in the channel are those of the handlers that asked last. -/
  offers : t.world.offers.map some = (t.askers.drop t.tui.taken).map t.world.offerOf
  dialog : ∀ state, t.tui.app.dialog? = some state → state.Lists ∧
    ∃ h, t.askers[state.request.responder]? = some h ∧
      t.world.offerOf h = some ⟨state.request.sender, state.request.files⟩
  known : ∀ h ∈ t.askers, ∃ p, t.world.prepares h = some p ∧ p.phase.beforeAsk = false
  distinct : t.askers.Nodup
  asked : ∀ h p, t.world.prepares h = some p → p.phase = .deciding → h ∈ t.askers

/-- At the start nobody has asked and no dialog is open. -/
theorem Inv.start (c : ServerConfig) (deviceInfo : DeviceInfo) : Inv (.start lib c deviceInfo) where
  events := rfl
  switch := rfl
  taken := Nat.le_refl 0
  offers := rfl
  dialog _ h := by cases h
  known _ h := by cases h
  distinct := List.nodup_nil
  asked _ _ h := by cases h

/-- The offer of a handler that has asked. -/
theorem Inv.offerOf {t : Terminal I} (hinv : t.Inv) {h : TaskId} (hh : h ∈ t.askers) :
    ∃ offer, t.world.offerOf h = some offer := by
  obtain ⟨p, hp, _⟩ := hinv.known h hh
  exact ⟨p.request, by unfold World.offerOf; rw [hp]; rfl⟩

/-- The handler that asks is about to, and waits for its answer then. -/
theorem asks_cases {t : Terminal I} {a : Action} {w' : World} (hstep : t.world.step sha a = some w')
    {h : TaskId} (hh : h ∈ t.asks a) :
    a = .prepare h .sendRequest ∧ ∃ p, t.world.prepares h = some p ∧ p.phase = .sending ∧
      w'.prepares h = some { p with phase := .deciding } := by
  unfold asks at hh
  split at hh
  · split at hh
    · cases hh
    · rename_i hopen
      cases List.mem_singleton.mp hh
      cases World.step_prepare hstep with
      | @sendRequest p hp live phase ready =>
        refine ⟨rfl, p, hp, phase, ?_⟩
        unfold World.sendRequest
        rw [if_neg hopen]
        exact Function.update_self ..
  · cases hh

/-- A handler that comes to wait has asked. -/
theorem mem_asks_of_deciding {t : Terminal I} {a : Action} {w' : World}
    (hstep : t.world.step sha a = some w') {h : TaskId} {p' : PrepareTask}
    (hp' : w'.prepares h = some p') (hphase : p'.phase = .deciding) :
    (∃ p, t.world.prepares h = some p ∧ p.phase = .deciding) ∨ h ∈ t.asks a := by
  rcases World.prepares_before hstep hp' with hold | ⟨b, rfl, hmove, _⟩
  · exact .inl ⟨p', hold, hphase⟩
  · generalize hold : t.world.prepares h = old at hmove
    cases hmove with
    -- the handler sends its request: it asks, unless the channel is closed
    | @sent p _ =>
      refine .inr ?_
      cases World.step_prepare hstep with
      | @sendRequest q hq live phase ready =>
        cases hold.symm.trans hq
        unfold World.sendRequest at hp'
        by_cases hclosed : t.world.channel.closed = true
        · rw [if_pos hclosed] at hp'
          simp only [World.setPrepare, Function.update_self, Option.some.injEq,
            PrepareTask.mk.injEq, reduceCtorEq, and_false] at hp'
        · show h ∈ if t.world.channel.closed then [] else [h]
          rw [if_neg hclosed]
          exact List.mem_singleton_self h
    -- a handler that is dropped keeps its phase
    | @dropped p => exact .inl ⟨p, rfl, hphase⟩
    | @reserved p id token =>
      unfold PrepareTask.reservedAs at hphase
      split at hphase <;> cases hphase
    | _ => cases hphase

/-- A step of the server. -/
theorem Inv.server {t : Terminal I} (hinv : t.Inv) {a : Action} {w' : World}
    (hallowed : t.allows a = true) (hstep : t.world.step sha a = some w') :
    Inv { world := w', tui := { t.tui with events := w'.channel.queue },
          askers := t.askers ++ t.asks a } := by
  obtain ⟨_, hswitch, hoffers⟩ := consumerMove_of_allowed hallowed hstep
  -- an offer that was made stays the same
  have hsame : ∀ h ∈ t.askers, w'.offerOf h = t.world.offerOf h := by
    intro h hh
    obtain ⟨offer, hoffer⟩ := hinv.offerOf hh
    rw [hoffer]
    exact World.offerOf_of_step hstep hoffer
  constructor
  · rfl
  · exact hinv.switch.trans hswitch.symm
  · exact hinv.taken.trans (by rw [List.length_append]; omega)
  · -- the handler that asks now is the last
    show w'.offers.map some = ((t.askers ++ t.asks a).drop t.tui.taken).map w'.offerOf
    rw [hoffers, hinv.offers, List.drop_append_of_le_length hinv.taken, List.map_append]
    congr 1
    · exact List.map_congr_left fun h hh => (hsame h (List.mem_of_mem_drop hh)).symm
    · refine List.map_congr_left fun h hh => ?_
      obtain ⟨_, p, hp, _, hp'⟩ := asks_cases hstep hh
      unfold World.offerOf
      rw [hp, hp']
      rfl
  -- the dialog's request is still the one of its asker
  · intro state hdialog
    obtain ⟨hlists, h, hget, hoffer⟩ := hinv.dialog state hdialog
    refine ⟨hlists, h, ?_, World.offerOf_of_step hstep hoffer⟩
    obtain ⟨hlt, _⟩ := List.getElem?_eq_some_iff.mp hget
    rw [List.getElem?_append_left hlt]
    exact hget
  -- who has asked stands past its question
  · intro h hh
    cases List.mem_append.mp hh with
    | inl hold =>
      obtain ⟨p, hp, hphase⟩ := hinv.known h hold
      rcases World.prepares_of_step hstep hp with ⟨hsame, _⟩ | ⟨_, p', _, _, hp', hmove⟩
      · exact ⟨p, hsame, hphase⟩
      · exact ⟨p', hp', hmove.beforeAsk hphase⟩
    | inr hnew =>
      obtain ⟨_, p, _, _, hp'⟩ := asks_cases hstep hnew
      exact ⟨_, hp', rfl⟩
  · -- who has asked does not ask again
    refine List.Nodup.append hinv.distinct ?_ ?_
    · unfold asks
      split
      · split
        · exact List.nodup_nil
        · exact List.nodup_singleton _
      · exact List.nodup_nil
    · intro h hold hnew
      obtain ⟨p, hp, hphase⟩ := hinv.known h hold
      obtain ⟨_, q, hq, hsending, _⟩ := asks_cases hstep hnew
      cases hp.symm.trans hq
      rw [hsending] at hphase
      cases hphase
  -- who decides has asked, before or in this step
  · intro h p' hp' hphase
    rcases mem_asks_of_deciding hstep hp' hphase with ⟨p, hp, hold⟩ | hnew
    · exact List.mem_append_left _ (hinv.asked h p hp hold)
    · exact List.mem_append_right _ hnew

/-- The handler of the request that the loop takes next. -/
theorem Inv.asker_taken {t : Terminal I} (hinv : t.Inv) {offer : PrepareUploadRequest}
    {rest : List PrepareUploadRequest} (hoffers : t.tui.offers = offer :: rest) :
    ∃ h, t.askers[t.tui.taken]? = some h ∧ t.world.offerOf h = some offer ∧
      rest.map some = (t.askers.drop (t.tui.taken + 1)).map t.world.offerOf := by
  -- the request at the head of the channel is the first that was not taken
  have hworld : t.world.offers = offer :: rest := by
    unfold World.offers
    rw [← hinv.events]
    exact hoffers
  have hmap := hinv.offers
  rw [hworld, List.map_cons] at hmap
  cases hdrop : t.askers.drop t.tui.taken with
  | nil =>
    rw [hdrop] at hmap
    cases hmap
  | cons h later =>
    rw [hdrop, List.map_cons] at hmap
    obtain ⟨hhead, htail⟩ := List.cons.inj hmap
    refine ⟨h, ?_, hhead.symm, ?_⟩
    · rw [← List.head?_drop, hdrop]
      rfl
    · rw [htail, ← List.tail_drop, hdrop]
      rfl

/-- A step of the application. -/
theorem Inv.app {t : Terminal I} (hinv : t.Inv) {a : TuiAction} {s' : TuiWorld I}
    (own : ∀ ev, a ≠ .event ev) (hstep : tuiStep lib t.tui a = some s') :
    Inv { t with tui := s', world := t.serve lib a } := by
  have hevents := events_of_tuiStep hinv.events own hstep
  have hworld : (t.serve lib a).offers = s'.offers := by
    unfold World.offers TuiWorld.offers
    rw [hevents]
  have hprepares := serve_prepares lib t a
  have hofferOf : (t.serve lib a).offerOf = t.world.offerOf := by
    funext h
    unfold World.offerOf
    rw [hprepares]
  -- the application offers nothing
  have hown : a.offers = [] := by
    cases a with
    | event ev => exact absurd rfl (own ev)
    | _ => rfl
  -- the application and the server change the switch together
  have hswitch : s'.app.autoAccept = (t.serve lib a).state.autoAccept := by
    rw [autoAccept_of_tuiStep hstep]
    rcases serve_cases lib t a with ⟨heq, hnone, _⟩ | ⟨env, rfl, heq⟩ | ⟨yes, hyes, heq⟩
    · rw [heq, hnone]
      exact hinv.switch
    · rw [heq]
      exact hinv.switch
    · rw [heq, hyes]
      rfl
  -- the handlers are the same, so only the requests and the dialog are to be looked at
  have hrest : s'.taken ≤ t.askers.length →
      s'.offers.map some = (t.askers.drop s'.taken).map t.world.offerOf →
      (∀ state, s'.app.dialog? = some state → state.Lists ∧
        ∃ h, t.askers[state.request.responder]? = some h ∧
          t.world.offerOf h = some ⟨state.request.sender, state.request.files⟩) →
      Inv { t with tui := s', world := t.serve lib a } := by
    intro htaken hoffers hdialog
    refine ⟨hevents, hswitch, htaken, ?_, ?_, ?_, hinv.distinct, ?_⟩
    · show (t.serve lib a).offers.map some = (t.askers.drop s'.taken).map (t.serve lib a).offerOf
      rw [hworld, hofferOf]
      exact hoffers
    · show ∀ state, s'.app.dialog? = some state → state.Lists ∧ ∃ h, t.askers[_]? = some h ∧
        (t.serve lib a).offerOf h = _
      rw [hofferOf]
      exact hdialog
    · intro h hh
      show ∃ p, (t.serve lib a).prepares h = some p ∧ _
      rw [hprepares]
      exact hinv.known h hh
    · intro h p hp
      exact hinv.asked h p (hprepares ▸ hp)
  have hbefore : t.tui.offers.map some = (t.askers.drop t.tui.taken).map t.world.offerOf := by
    rw [← hinv.offers]
    unfold TuiWorld.offers World.offers
    rw [hinv.events]
  -- by what the step does to the dialog
  cases dialogMove_of_step hstep with
  -- the dialog stays, or closes
  | keeps hkeeps _ htaken hoffers =>
    refine hrest ?_ ?_ ?_
    · rw [htaken]
      exact hinv.taken
    · rw [htaken, hoffers, hown, List.append_nil]
      exact hbefore
    · intro state hdialog
      obtain ⟨state₀, hdialog₀, hrequest, hlists⟩ := hkeeps state hdialog
      obtain ⟨hlists₀, hasker⟩ := hinv.dialog state₀ hdialog₀
      rw [hrequest]
      exact ⟨hlists hlists₀, hasker⟩
  -- the next request is taken, and its dialog opens
  | opens hoffers hoffers' htaken _ hopened hlists hrequest =>
    obtain ⟨h, hget, hoffer, hlater⟩ := hinv.asker_taken hoffers
    refine hrest ?_ ?_ ?_
    · rw [htaken]
      exact (List.getElem?_eq_some_iff.mp hget).1
    · rw [htaken, hoffers']
      exact hlater
    · intro state hdialog
      cases hopened.symm.trans hdialog
      rw [hrequest]
      exact ⟨hlists, h, hget, hoffer⟩
  -- the next request is taken and declined
  | declines hoffers hoffers' htaken _ hsame =>
    obtain ⟨h, hget, _, hlater⟩ := hinv.asker_taken hoffers
    refine hrest ?_ ?_ ?_
    · rw [htaken]
      exact (List.getElem?_eq_some_iff.mp hget).1
    · rw [htaken, hoffers']
      exact hlater
    · rw [hsame]
      exact hinv.dialog
  -- the dialog is answered and closes
  | answers _ _ _ hnone _ htaken hoffers =>
    refine hrest ?_ ?_ ?_
    · rw [htaken]
      exact hinv.taken
    · rw [htaken, hoffers]
      exact hbefore
    · intro state hdialog
      cases hnone.symm.trans hdialog

/-- A step of either keeps the two ends of the channel together. -/
theorem Inv.step {t t' : Terminal I} {a : TerminalAction} (hinv : t.Inv)
    (hstep : (terminal sha lib).step t a = some t') : t'.Inv := by
  cases step_cases hstep with
  | server hallowed hw => exact hinv.server hallowed hw
  | app own htui => exact hinv.app own htui

/-- The dialogs stand for requests in every reachable state. -/
theorem inv_of_reachable {t : Terminal I} (h : (terminal sha lib).Reachable t) : t.Inv := by
  refine (terminal sha lib).reachable_induction Inv ?_ (fun _ _ _ hinv hstep => hinv.step hstep) h
  intro t hinit
  obtain ⟨c, deviceInfo, rfl⟩ := hinit
  exact Inv.start c deviceInfo

/-! ## A handler that waits -/

/-- What the channel of a request holds was put there by the application. -/
theorem answerTo_eq_some {t : Terminal I} {h : TaskId} {d : TransferDecision}
    (hanswer : t.answerTo h = some d) : ∃ n, t.askers[n]? = some h ∧ (n, d) ∈ t.tui.decisions := by
  obtain ⟨e, he, rfl⟩ := Option.map_eq_some_iff.mp hanswer
  have hasker : t.askers[e.1]? = some h := by simpa using List.find?_some he
  exact ⟨e.1, hasker, List.mem_of_find?_eq_some he⟩

/-- The application has handled a key while the dialog was open. -/
def Pressed (sha : List UInt8 → String) (lib : TuiLibrary I) (t₀ : Terminal I)
    (as : List TerminalAction) (state : ConfirmState) (key : KeyCode) : Prop :=
  (terminal sha lib).Occurred (fun t a => t.tui.app.dialog? = some state ∧ ∃ env,
    a = .app (.key (some key) env))
    t₀ as

/-- The handler reserved the slot while the switch of the settings screen was on. -/
def SwitchedOn (sha : List UInt8 → String) (lib : TuiLibrary I) (t₀ : Terminal I)
    (as : List TerminalAction) (h : TaskId) : Prop :=
  (terminal sha lib).Occurred (fun t a => t.tui.app.autoAccept = true ∧
    ∃ id token, a = .server (.prepare h (.reserve id token))) t₀ as

/-- A key accepted the file of an offer while a dialog of that offer was open, or the switch was
    on. -/
def Agreed (sha : List UInt8 → String) (lib : TuiLibrary I) (t₀ : Terminal I)
    (as : List TerminalAction) (h : TaskId) (offer : PrepareUploadRequest) (f : FileId) : Prop :=
  SwitchedOn sha lib t₀ as h ∨
    ∃ state key, state.Lists ∧ state.request.sender = offer.info ∧
      state.request.files = offer.files ∧
      state.AcceptedBy key f ∧ Pressed sha lib t₀ as state key

/-- What the state says of the keys that were pressed. -/
structure Traced (sha : List UInt8 → String) (lib : TuiLibrary I) (t₀ : Terminal I)
    (as : List TerminalAction) (t : Terminal I) : Prop where
  inv : t.Inv
  prepare : t.world.PrepareInv
  decided : ∀ e ∈ t.tui.decisions, e.2.accepts = true → ∃ h state key, t.askers[e.1]? = some h ∧
    t.world.offerOf h = some ⟨state.request.sender, state.request.files⟩ ∧ state.Lists ∧
      state.answer? key = some e.2 ∧ Pressed sha lib t₀ as state key
  switched : ∀ h p, t.world.prepares h = some p → p.autoAccept = true → SwitchedOn sha lib t₀ as h
  accepted : ∀ h p d, t.world.prepares h = some p → p.decision = some d → d.accepts = true →
    p.autoAccept = false → ∃ n, t.askers[n]? = some h ∧ (n, d) ∈ t.tui.decisions

/-- The run without a step is traced. -/
theorem Traced.start (c : ServerConfig) (deviceInfo : DeviceInfo) :
    Traced sha lib (.start lib c deviceInfo) [] (.start lib c deviceInfo) where
  inv := Inv.start c deviceInfo
  prepare := World.prepareInv_start c
  decided _ h := by cases h
  switched _ _ h := by cases h
  accepted _ _ _ h := by cases h

/-- A step of the server goes on with the trace. -/
theorem Traced.server {t₀ t : Terminal I} {as : List TerminalAction} (h : Traced sha lib t₀ as t)
    (hrun : (terminal sha lib).exec t₀ as = some t) {a : Action} {w' : World}
    (hallowed : t.allows a = true) (hstep : t.world.step sha a = some w') :
    Traced sha lib t₀ (as ++ [.server a])
      { world := w', tui := { t.tui with events := w'.channel.queue },
        askers := t.askers ++ t.asks a } := by
  have hget : ∀ {n : Nat} {g : TaskId}, t.askers[n]? = some g →
      (t.askers ++ t.asks a)[n]? = some g := by
    intro n g hn
    obtain ⟨hlt, _⟩ := List.getElem?_eq_some_iff.mp hn
    rw [List.getElem?_append_left hlt]
    exact hn
  constructor
  · exact h.inv.server hallowed hstep
  · exact World.prepareInv_step h.prepare hstep
  · intro e he haccepts
    obtain ⟨g, state, key, hasker, hoffer, hlists, hanswer, hpressed⟩ := h.decided e he haccepts
    exact ⟨g, state, key, hget hasker, World.offerOf_of_step hstep hoffer, hlists, hanswer,
      hpressed.snoc _⟩
  · intro g p' hp' hauto
    rcases World.prepares_before hstep hp' with hold | ⟨b, rfl, hmove, _⟩
    · exact (h.switched g p' hold hauto).snoc _
    · rcases hmove.autoAccept hauto with ⟨p, hp, hbefore⟩ | ⟨hswitch, id, token, rfl⟩
      · exact (h.switched g p hp hbefore).snoc _
      · -- the server's switch is the application's
        exact .last hrun ⟨h.inv.switch.trans hswitch, id, token, rfl⟩
  · intro g p' d hp' hd haccepts hauto
    rcases World.prepares_before hstep hp' with hold | ⟨b, rfl, hmove, _⟩
    · obtain ⟨n, hn, hmem⟩ := h.accepted g p' d hold hd haccepts hauto
      exact ⟨n, hget hn, hmem⟩
    · have hwf : ∀ p, t.world.prepares g = some p → p.Wf := fun p hp => h.prepare.wf g p hp
      rcases hmove.accepting hwf hd haccepts hauto with ⟨p, hp, hd', hauto'⟩ | rfl
      · obtain ⟨n, hn, hmem⟩ := h.accepted g p d hp hd' haccepts hauto'
        exact ⟨n, hget hn, hmem⟩
      · -- the answer was in the channel of its request
        have hanswer : some d = t.answerTo g := by simpa [allows] using hallowed
        obtain ⟨n, hn, hmem⟩ := answerTo_eq_some hanswer.symm
        exact ⟨n, hget hn, hmem⟩

/-- A step of the application goes on with the trace. -/
theorem Traced.app {t₀ t : Terminal I} {as : List TerminalAction} (h : Traced sha lib t₀ as t)
    (hrun : (terminal sha lib).exec t₀ as = some t) {a : TuiAction} {s' : TuiWorld I}
    (own : ∀ ev, a ≠ .event ev) (hstep : tuiStep lib t.tui a = some s') :
    Traced sha lib t₀ (as ++ [.app a]) { t with tui := s', world := t.serve lib a } := by
  have hprepares := serve_prepares lib t a
  have hofferOf : (t.serve lib a).offerOf = t.world.offerOf := by
    funext g
    unfold World.offerOf
    rw [hprepares]
  -- no answer is taken back, and one that accepts is that of a key
  have hdecisions : (∀ e ∈ t.tui.decisions, e ∈ s'.decisions) ∧ ∀ e ∈ s'.decisions,
      e.2.accepts = true →
      e ∈ t.tui.decisions ∨ ∃ state key env, a = .key (some key) env ∧
        t.tui.app.dialog? = some state ∧
        state.answer? key = some e.2 ∧ state.request.responder = e.1 := by
    cases dialogMove_of_step hstep with
    -- no answer is given
    | keeps _ heq | opens _ _ _ heq =>
      rw [heq]
      exact ⟨fun e he => he, fun e he _ => .inl he⟩
    -- the answer of this step declines
    | declines _ _ _ heq =>
      rw [heq]
      refine ⟨fun e he => List.mem_append_left _ he, fun e he haccepts => ?_⟩
      cases List.mem_append.mp he with
      | inl he => exact .inl he
      | inr he =>
        rw [List.mem_singleton.mp he] at haccepts
        cases haccepts
    -- the answer of this step is that of a key in the dialog
    | @answers key env state decision action hdialog hanswer _ heq =>
      rw [heq]
      refine ⟨fun e he => List.mem_append_left _ he, fun e he _ => ?_⟩
      cases List.mem_append.mp he with
      | inl he => exact .inl he
      | inr he =>
        rw [List.mem_singleton.mp he]
        exact .inr ⟨state, key, env, action, hdialog, hanswer, rfl⟩
  constructor
  · exact h.inv.app own hstep
  · obtain ⟨bs, hbs⟩ := serve_exec sha lib t a
    exact (receiver sha).exec_induction World.PrepareInv (fun _ _ _ hinv hs =>
      World.prepareInv_step hinv hs)
      h.prepare hbs
  -- an answer that accepts was given by a key in the dialog of its request
  · intro e he haccepts
    show ∃ g state key, t.askers[e.1]? = some g ∧ (t.serve lib a).offerOf g = _ ∧ _
    rw [hofferOf]
    rcases hdecisions.2 e he haccepts with hold |
        ⟨state, key, env, rfl, hdialog, hanswer, hresponder⟩
    · obtain ⟨g, state, key, hasker, hoffer, hlists, hanswer, hpressed⟩ := h.decided e hold haccepts
      exact ⟨g, state, key, hasker, hoffer, hlists, hanswer, hpressed.snoc _⟩
    · obtain ⟨hlists, g, hasker, hoffer⟩ := h.inv.dialog state hdialog
      rw [hresponder] at hasker
      exact ⟨g, state, key, hasker, hoffer, hlists, hanswer, .last hrun ⟨hdialog, env, rfl⟩⟩
  -- a request that the switch decided
  · intro g p hp hauto
    exact (h.switched g p (hprepares ▸ hp) hauto).snoc _
  -- a request that an answer decided
  · intro g p d hp hd haccepts hauto
    obtain ⟨n, hn, hmem⟩ := h.accepted g p d (hprepares ▸ hp) hd haccepts hauto
    exact ⟨n, hn, hdecisions.1 _ hmem⟩

/-- Every run is traced: by the length of the run. -/
theorem traced_of_exec {c : ServerConfig} {deviceInfo : DeviceInfo} {as : List TerminalAction}
    {t : Terminal I} (hrun : (terminal sha lib).exec (.start lib c deviceInfo) as = some t) :
    Traced sha lib (.start lib c deviceInfo) as t := by
  have hboth := (terminal sha lib).exec_history (P := fun as t =>
    (terminal sha lib).exec (.start lib c deviceInfo) as = some t ∧
      Traced sha lib (.start lib c deviceInfo) as t) ⟨rfl, Traced.start c deviceInfo⟩ ?_ hrun
  · exact hboth.2
  · intro as t a t' h hstep
    refine ⟨?_, ?_⟩
    · rw [TransitionSystem.exec_append, h.1]
      exact (TransitionSystem.exec_singleton t a).trans hstep
    · cases step_cases hstep with
      | server hallowed hw => exact h.2.server h.1 hallowed hw
      | app own htui => exact h.2.app h.1 own htui

/-- The decision of a handler that accepts a file is the user's. -/
theorem Traced.agreed {t₀ t : Terminal I} {as : List TerminalAction} (h : Traced sha lib t₀ as t)
    {g : TaskId} {p : PrepareTask} (hp : t.world.prepares g = some p) {f : FileId}
    (hf : p.Consents f) :
    Agreed sha lib t₀ as g p.request f := by
  -- accepted by the switch, or by an answer
  cases hauto : p.autoAccept with
  | true => exact .inl (h.switched g p hp hauto)
  | false =>
    have hd : ∃ d, p.decision = some d ∧ d.accepts = true ∧ f ∈ p.request.acceptedIds d := by
      rcases hf.2 with hswitch | haccept | ⟨ids, hids, hmem⟩
      · cases hauto.symm.trans hswitch
      · exact ⟨.accept, haccept, rfl, AssocMap.contains_iff_mem_keys.mp hf.1⟩
      · exact ⟨.acceptFiles ids, hids, rfl, List.mem_filter.mpr ⟨hmem, hf.1⟩⟩
    -- the answer is that of a key, and its dialog ticked what is accepted
    obtain ⟨d, hd, haccepts, hmem⟩ := hd
    obtain ⟨n, hn, hdecision⟩ := h.accepted g p d hp hd haccepts hauto
    obtain ⟨g', state, key, hasker, hoffer, hlists, hanswer, hpressed⟩ :=
      h.decided (n, d) hdecision haccepts
    cases hn.symm.trans hasker
    have hrequest : p.request = ⟨state.request.sender, state.request.files⟩ := by
      unfold World.offerOf at hoffer
      rw [hp] at hoffer
      exact Option.some.inj hoffer
    have haccepted := (hlists.mem_acceptedIds_iff hanswer (by rw [hrequest]) f).mp hmem
    exact .inr ⟨state, key, hlists, by rw [hrequest], by rw [hrequest], haccepted, hpressed⟩

/-- An upload request names no session whose id was not disclosed. -/
def OnlyDisclosed (t : Terminal I) (a : TerminalAction) (_ : Terminal I) : Prop :=
  ∀ b, a = .server b → World.OnlyDisclosed t.world b t.world

/-- What an observation of the server needs the user to have agreed to. -/
def Approved (sha : List UInt8 → String) (lib : TuiLibrary I) (t₀ : Terminal I)
    (as : List TerminalAction) (t : Terminal I) : Observation → Prop
  | .sinkCreate _ x f | .emitted (.fileReceived x f ..) =>
    ∃ h p, t.world.prepares h = some p ∧ p.accepted = some x ∧ p.request.files.contains f = true ∧
      Agreed sha lib t₀ as h p.request f
  | .emitted (.textReceived x text _) =>
    ∃ h p f, t.world.prepares h = some p ∧ p.accepted = some x ∧ p.request.files.contains f = true ∧
      p.request.messageText = some text ∧ Agreed sha lib t₀ as h p.request f
  | _ => True

/-- In every run whose uploads name disclosed sessions only, the server creates no file, announces
    none and hands out no text but of an offer in whose open dialog a key has accepted the file, or
    that came while the switch of the settings screen was on. -/
theorem created_was_accepted (sha : List UInt8 → String) (lib : TuiLibrary I) (c : ServerConfig)
    (deviceInfo : DeviceInfo) {as : List TerminalAction} {t : Terminal I}
    (hrun : (terminal sha lib).exec (.start lib c deviceInfo) as = some t)
    (hdisclosed : (terminal sha lib).Always OnlyDisclosed (.start lib c deviceInfo) as) {time : Nat}
    {o : Observation} (ho : (time, o) ∈ t.world.log) :
    Approved sha lib (.start lib c deviceInfo) as t o := by
  -- what the terminal's run says of keys and the switch
  have htraced := traced_of_exec hrun
  -- what the server's run says of consent
  have hconsent : t.world.ConsentInv := by
    refine (terminal sha lib).exec_of_always (fun t => t.world.ConsentInv) ?_
      (World.consentInv_start c) hrun hdisclosed
    intro t a t' hinv hstep honly
    cases step_cases hstep with
    | @server a w' _ hw => exact World.consentInv_step hinv (honly a rfl) hw
    | @app a s' _ _ =>
      -- the application makes no upload
      obtain ⟨bs, hbs⟩ := serve_exec sha lib t a
      refine (receiver sha).exec_of_always World.ConsentInv (C := World.OnlyDisclosed)
        (fun _ _ _ h hs hd => World.consentInv_step h hd hs) hinv hbs ?_
      refine (receiver sha).always_of_allPass (fun _ a => a matches .env _) ?_ ?_
      · intro w b w' hb u x f token hbegin
        subst hbegin
        cases hb
      · clear hbs
        generalize t.world = w
        induction bs generalizing w with
        | nil => rfl
        | cons b bs ih => exact ih (w.envStep b)
  -- by what is observed: a file that is created or received, or a text
  have hcase := hconsent.observed time o ho
  cases o with
  | sinkCreate u x f =>
    obtain ⟨h, p, hp, hx, _, hf⟩ := hcase
    exact ⟨h, p, hp, hx, hf.1, htraced.agreed hp hf⟩
  | emitted e =>
    cases e with
    | fileReceived x f =>
      obtain ⟨h, p, hp, hx, _, hf⟩ := hcase
      exact ⟨h, p, hp, hx, hf.1, htraced.agreed hp hf⟩
    | textReceived x text sender =>
      obtain ⟨h, p, f, hp, hx, _, hf, htext⟩ := hcase
      exact ⟨h, p, f, hp, hx, hf.1, htext, htraced.agreed hp hf⟩
    | _ => trivial
  | _ => trivial

end Terminal

/-! ## Alice's offer, answered with enter -/

namespace Scenario

/-- The dialog for Alice's offer has been opened. -/
def dialogOpen : List TerminalAction :=
  [.app (.draw plainEnv)] ++ asked.map .server ++
    [.app (.serverEvent plainEnv), .app .serverEventsDone, .app (.sendUpdatesDone false)]

/-- It has been drawn and accepted with enter, and Alice's upload has begun. -/
def enterPressed : List TerminalAction :=
  dialogOpen ++ [.app (.key none plainEnv), .app (.draw plainEnv), .app .serverEventsDone,
    .app (.sendUpdatesDone false), .app (.key (some .enter) plainEnv)] ++
    [.server (.prepare 0 (.decide (some .accept))),
      .server (.prepare 0 (.clearAwaiting ⟨"session"⟩ (token "s"))), .server (.prepare 0 .install),
      .server (.upload 0 (.begin_ ⟨"session"⟩ ⟨"f"⟩ ⟨"s"⟩))]

/-- An upload request names the session id the first prepare was answered with. -/
def serverNamesAnswered (t : Terminal String) : TerminalAction → Bool
  | .server a => namesAnswered t.world a
  | .app _ => true

/-- The test for disclosure tells the truth. -/
theorem onlyDisclosed_of_serverNamesAnswered (t : Terminal String) (a : TerminalAction)
    (t' : Terminal String) (h : serverNamesAnswered t a = true) :
    Terminal.OnlyDisclosed t a t' := by
  intro b hb
  subst hb
  exact onlyDisclosed_of_namesAnswered t.world b t.world h

end Scenario

namespace Terminal

/-- The file of Alice's upload was accepted with enter. -/
theorem created_was_accepted_enter :
    ∃ t, (terminal Scenario.digest TuiLibrary.plain).exec
        (.start TuiLibrary.plain Scenario.config (plainDevice "self")) Scenario.enterPressed = some t ∧
      Approved Scenario.digest TuiLibrary.plain
        (.start TuiLibrary.plain Scenario.config (plainDevice "self")) Scenario.enterPressed t
        (.sinkCreate 0 ⟨"session"⟩ ⟨"f"⟩) := by
  have hrun : ((terminal Scenario.digest TuiLibrary.plain).exec
      (.start TuiLibrary.plain Scenario.config (plainDevice "self")) Scenario.enterPressed).any
        (fun t => (0, .sinkCreate 0 ⟨"session"⟩ ⟨"f"⟩) ∈ t.world.log) = true := by decide
  obtain ⟨t, ht, htest⟩ := (Option.any_eq_true ..).mp hrun
  refine ⟨t, ht, created_was_accepted Scenario.digest TuiLibrary.plain Scenario.config
    (plainDevice "self") ht ?_
    (of_decide_eq_true htest)⟩
  exact (terminal Scenario.digest TuiLibrary.plain).always_of_allPass Scenario.serverNamesAnswered
    Scenario.onlyDisclosed_of_serverNamesAnswered (by decide)

end Terminal

end LocalSend
