import LocalSend.Spec.PrepareInvariant

/-!
# Who may touch the session in the slot

A prepare handler that has reserved the slot runs up to five more sections: the refuse
and the decline unwind, the installation of the accepted session, the clear after a text
message, and the release task of its guard. Only the release task compares ids. The
other four act on whatever session is installed, so they keep to their own session
exactly as long as no later offer got into the slot before they ran.

## Key results

- `respectsSlot_iff`: one step touches a foreign session iff an unwinding section finds one
- `pendingInv_step`: while offers are admitted one at a time, the slot is the pending handler's
- `slot_ownership`: both, over every run
-/

namespace LocalSend

/-- The prepare future is still running, and has reserved the slot at some point. -/
def PrepareTask.Pending (t : PrepareTask) : Prop :=
  t.dropped = false ∧ t.phase ≠ .reserving ∧ t.phase.awaits = true

namespace World

/-- Action `a` is a step of prepare handler `h`, or the release task of its guard. -/
def ActsFor (w : World) (h : TaskId) (a : Action) : Prop :=
  (∃ b, a = .prepare h b) ∨
    ∃ t r, w.prepares h = some t ∧ t.reserved = some r ∧ a = .release r

/-- A handler that has reserved the slot leaves a session that is neither its placeholder
    nor its accepted session where it is, and its receives uncancelled. -/
def RespectsSlot (w : World) (a : Action) (w' : World) : Prop :=
  ∀ h t s, w.prepares h = some t → t.reserved ≠ none → w.ActsFor h a →
    w.state.currentSession = some s → ¬t.Owns s.id →
    w'.state.currentSession = some s ∧ w'.lifecycles s.id = w.lifecycles s.id

/-- The sections of a prepare that assign `current_session` without comparing ids. -/
def PrepareAction.assignsSlot : PrepareAction → Bool
  | .refuse | .decline | .install | .deliverText => true
  | _ => false

/-- A section that assigns the slot finds it free, or holding a session of its handler. -/
def UnwindsOwnSlot (w : World) (a : Action) (_ : World) : Prop :=
  ∀ h b t s, a = .prepare h b → PrepareAction.assignsSlot b = true → w.prepares h = some t →
    w.state.currentSession = some s → t.Owns s.id

/-- A handler past its reservation is not about to reserve. -/
theorem PrepareInv.ne_reserving {w : World} (hinv : w.PrepareInv) {h : TaskId} {t : PrepareTask}
    (ht : w.prepares h = some t) (hres : t.reserved ≠ none) : t.phase ≠ .reserving := by
  intro hphase
  have hwf := hinv.wf h t ht
  simp only [PrepareTask.Wf, hphase] at hwf
  exact hres hwf.2.1

/-- A section that assigns the slot is one of a pending handler past its reservation, and
    leaves no foreign session in the slot. -/
theorem PrepareStep.assigns {w w' : World} {h : TaskId} {t : PrepareTask} {b : PrepareAction}
    (hinv : w.PrepareInv) (hstep : PrepareStep w h b w')
    (hassigns : PrepareAction.assignsSlot b = true) (ht : w.prepares h = some t) :
    t.Pending ∧ t.reserved ≠ none ∧ ∀ s, w'.state.currentSession = some s → t.Owns s.id := by
  have hwf := hinv.wf h t ht
  cases hstep with
  | checkPin | reserve | sendRequest | decide | clearAwaiting | drop => exact nomatch hassigns
  -- a refusal and a decline write an empty slot
  | refuse ht' live phase =>
    cases ht.symm.trans ht'
    simp only [PrepareTask.Wf, phase] at hwf
    refine ⟨⟨live, by simp [phase], by rw [phase]; rfl⟩, hwf.1, fun s hs => ?_⟩
    have hslot := congrArg Slot.session (slot_refuse w h t)
    cases hslot.symm.trans hs
  | decline ht' live phase =>
    cases ht.symm.trans ht'
    simp only [PrepareTask.Wf, phase] at hwf
    refine ⟨⟨live, by simp [phase], by rw [phase]; rfl⟩, hwf.1, fun s hs => ?_⟩
    have hslot := congrArg Slot.session (slot_decline w h t)
    cases hslot.symm.trans hs
  -- the accepted session is one of the handler's own
  | @install _ session ht' live phase =>
    cases ht.symm.trans ht'
    simp only [PrepareTask.Wf, phase] at hwf
    refine ⟨⟨live, by simp [phase], by rw [phase]; rfl⟩, hwf.1.2.1, fun s hs => ?_⟩
    have hslot := congrArg Slot.session (slot_install w h t session)
    cases hslot.symm.trans hs
    exact .inr hwf.2.1
  -- a text leaves the slot empty as well
  | @deliverText _ text id ht' live phase hid =>
    cases ht.symm.trans ht'
    simp only [PrepareTask.Wf, phase] at hwf
    refine ⟨⟨live, by simp [phase], by rw [phase]; rfl⟩, hwf.1.2.1, fun s hs => ?_⟩
    have hslot := congrArg Slot.session (slot_deliverText w h t id text)
    cases hslot.symm.trans hs

/-- A section of a prepare past its reservation leaves the session in the slot alone,
    unless it assigns the slot. -/
theorem PrepareInv.prepare_respects {sha : List UInt8 → String} {w w' : World} {h : TaskId}
    {b : PrepareAction} {t : PrepareTask} {s : Session} (hinv : w.PrepareInv)
    (hstep : w.step sha (.prepare h b) = some w') (ht : w.prepares h = some t)
    (hres : t.reserved ≠ none) (hs : w.state.currentSession = some s)
    (hb : PrepareAction.assignsSlot b ≠ true) :
    w'.state.currentSession = some s ∧ w'.lifecycles s.id = w.lifecycles s.id := by
  -- a handler that holds a reservation does not reserve again
  have hnoreserve : ∀ id token, b ≠ .reserve id token := by
    rintro id token rfl
    cases step_prepare hstep with
    | reserve ht' live phase hid =>
      cases ht.symm.trans ht'
      exact hinv.ne_reserving ht hres phase
  have hslot := slotMove_of_step hstep
  have hlife := lifecycleMove_of_step (hinv.issued_current hs) hstep
  -- from here the cases are those of the step, whichever action it was
  generalize ha : Action.prepare h b = a at hslot hlife
  constructor
  -- the session in the slot
  · change w'.slot.session = some s
    cases hslot with
    | keep slot | consented _ _ _ _ _ slot | withdrawnLate _ _ _ slot =>
      rw [slot]
      exact hs
    | place =>
      cases ha
      exact absurd rfl (hnoreserve _ _)
    | refused | declined | installed | delivered =>
      cases ha
      exact absurd rfl hb
    | withdrawn hcause =>
      subst ha
      rcases hcause with hc | hc <;> simp at hc
    | cancelled | swept | stopped | recorded | completed => simp at ha
  -- its lifecycle
  · cases hlife with
    | keep lifecycle => exact lifecycle
    | cancel _ _ _ hprepare =>
      rcases hprepare h b ha.symm with rfl | rfl | rfl | ⟨id, token, rfl⟩
      · exact absurd rfl hb
      · exact absurd rfl hb
      · exact absurd rfl hb
      · exact absurd rfl (hnoreserve id token)
    | upload => simp at ha

/-- The release task of a guard leaves every session but its own placeholder alone. -/
theorem PrepareInv.release_respects {sha : List UInt8 → String} {w w' : World} {r : SessionId}
    {s : Session} (hinv : w.PrepareInv) (hstep : w.step sha (.release r) = some w')
    (hs : w.state.currentSession = some s) (hne : r ≠ s.id) :
    w'.state.currentSession = some s ∧ w'.lifecycles s.id = w.lifecycles s.id := by
  have hslot := slotMove_of_step hstep
  have hlife := lifecycleMove_of_step (hinv.issued_current hs) hstep
  -- as above, by the cases of a release
  generalize ha : Action.release r = a at hslot hlife
  constructor
  · change w'.slot.session = some s
    cases hslot with
    | keep slot | withdrawnLate _ _ _ slot =>
      rw [slot]
      exact hs
    | @withdrawn _ r' s' _ hcause own hs' hid slot =>
      subst ha
      cases hs.symm.trans hs'
      rcases hcause with hc | hc <;> cases hc
      exact absurd hid.symm hne
    | place | consented | refused | declined | installed | delivered | cancelled | swept
    | stopped | recorded | completed => simp at ha
  · cases hlife with
    | keep lifecycle => exact lifecycle
    | cancel _ _ hrelease _ => exact absurd (hrelease r ha.symm) hne
    | upload => simp at ha

/-- A step touches a foreign session exactly when an unwinding section finds one. -/
theorem respectsSlot_iff {sha : List UInt8 → String} {w w' : World} {a : Action}
    (hinv : w.PrepareInv) (hstep : w.step sha a = some w') :
    UnwindsOwnSlot w a w' ↔ RespectsSlot w a w' := by
  constructor
  · intro hown h t s ht hres hacts hs hforeign
    rcases hacts with ⟨b, rfl⟩ | ⟨u, r, hu, hr, rfl⟩
    · exact hinv.prepare_respects hstep ht hres hs
        fun hb => hforeign (hown h b t s rfl hb ht hs)
    · cases ht.symm.trans hu
      refine hinv.release_respects hstep hs ?_
      rintro rfl
      exact hforeign (.inl hr)
  · intro hrespects h b t s ha hassigns ht hs
    subst ha
    obtain ⟨_, hres, hafter⟩ := PrepareStep.assigns hinv (step_prepare hstep) hassigns ht
    by_contra hforeign
    obtain ⟨hs', _⟩ := hrespects h t s ht hres (.inl ⟨b, rfl⟩) hs hforeign
    exact hforeign (hafter s hs')

/-! ## One offer at a time -/

/-- The slot can be reserved: it is free, or holds a timed-out session whose receives
    can be cancelled. -/
def Reservable (w : World) : Prop :=
  w.state.currentSession = none ∨ ∃ s, w.state.currentSession = some s ∧
    s.isTimedOut w.now w.state.sessionTimeout = true ∧ w.Cancellable s.id

/-- No offer gets into the slot while the handler of another offer is still running. -/
def OneOfferAtATime (w : World) (a : Action) (_ : World) : Prop :=
  ∀ g id token, a = .prepare g (.reserve id token) → w.Reservable →
    ∀ h t, w.prepares h = some t → ¬t.Pending

/-- At most one handler is pending, and while it is, the slot is free or its own. -/
structure PendingInv (w : World) : Prop where
  prepare : w.PrepareInv
  unique : ∀ h h' t t', w.prepares h = some t → w.prepares h' = some t' →
    t.Pending → t'.Pending → h = h'
  slot : ∀ h t s, w.prepares h = some t → t.Pending → w.state.currentSession = some s →
    t.Owns s.id

/-- A handler becomes pending only by a reservation that succeeds. -/
theorem pending_of_step {sha : List UInt8 → String} {w w' : World} {a : Action}
    (hstep : w.step sha a = some w') {h : TaskId} {t' : PrepareTask}
    (ht' : w'.prepares h = some t') (hpending : t'.Pending) :
    (∃ t, w.prepares h = some t ∧ t.Pending ∧ (t.Wf → ∀ s, t.Owns s → t'.Owns s)) ∨
      (w.Reservable ∧ (∃ id token, a = .prepare h (.reserve id token)) ∧
        ∀ s, w'.state.currentSession = some s → t'.Owns s.id) := by
  rcases prepares_before hstep ht' with ht | ⟨b, rfl, hmove, _⟩
  · exact .inl ⟨t', ht, hpending, fun _ _ hs => hs⟩
  · have hstep' := step_prepare hstep
    have howns : ∀ t, w.prepares h = some t → t.Wf → ∀ s, t.Owns s → t'.Owns s := by
      intro t ht hwf s hs
      rw [ht] at hmove
      exact hmove.owns_mono hwf hs
    generalize w.prepares h = old at hmove howns ⊢
    -- a move after which the handler is still pending: its first reservation, or one before the
    -- answer
    cases hmove with
    | refusedPin | emptyOffer | conflict | refused | declined | installed | delivered =>
      cases hpending.2.2
    | admitted => exact absurd rfl hpending.2.1
    | dropped => cases hpending.1
    | @reserved t id token hphase =>
      cases hstep' with
      | @reserve u _ _ hu _ _ hid =>
        rcases reserve_cases w h u id token with ⟨_, _, _, heq⟩ | ⟨hcur, heq⟩ |
            ⟨s, hs, htimed, hc, heq⟩
        · -- the offer was answered 409: its handler is done
          have hdone : (w.reserve h u id token).prepares h =
              some { u with phase := .answered .conflict none } := by
            rw [heq]
            exact Function.update_self ..
          have hphase' := congrArg (fun t => t.phase.awaits)
              (Option.some.inj (ht'.symm.trans hdone))
          cases hpending.2.2.symm.trans hphase'
        -- the slot was empty
        · refine .inr ⟨.inl hcur, ⟨id, token, rfl⟩, fun s hs => ?_⟩
          rw [heq] at hs
          cases hs
          exact .inl (by unfold PrepareTask.reservedAs; split <;> rfl)
        -- the slot held an idle session that could be cancelled
        · refine .inr ⟨.inr ⟨s, hs, htimed, hc⟩, ⟨id, token, rfl⟩, fun s' hs' => ?_⟩
          rw [heq] at hs'
          cases hs'
          exact .inl (by unfold PrepareTask.reservedAs; split <;> rfl)
    | @nobodyListening t hphase | @sent t hphase | @decided t _ hphase | @toRefuse t _ _ _ hphase
    | @toDecline t _ _ _ hphase | @toInstall t _ _ _ hphase | @installedMessage t _ _ hphase =>
      exact .inl ⟨t, rfl, ⟨hpending.1, by simp [hphase], by rw [hphase]; rfl⟩, howns t rfl⟩

/-- While offers are admitted one at a time the invariant is kept. -/
theorem pendingInv_step {sha : List UInt8 → String} {w w' : World} {a : Action}
    (hinv : w.PendingInv) (hstep : w.step sha a = some w') (hone : OneOfferAtATime w a w') :
    w'.PendingInv := by
  refine ⟨prepareInv_step hinv.prepare hstep, ?_, ?_⟩
  -- two pending handlers after the step
  · intro h h' t t' ht ht' hp hp'
    rcases pending_of_step hstep ht hp with ⟨u, hu, hpu, _⟩ | ⟨hres, ⟨id, token, ha⟩, _⟩ <;>
      rcases pending_of_step hstep ht' hp' with ⟨u', hu', hpu', _⟩ | ⟨hres', ⟨id', token', ha'⟩, _⟩
    -- both were pending before
    · exact hinv.unique h h' u u' hu hu' hpu hpu'
    -- one of them reserved in this step, while the other was pending
    · exact absurd hpu (hone h' id' token' ha' hres' h u hu)
    · exact absurd hpu' (hone h id token ha hres h' u' hu')
    -- both reserved in this step: they are one
    · cases ha.symm.trans ha'
      rfl
  · intro h t s' ht hp hs'
    rcases pending_of_step hstep ht hp with ⟨u, hu, hpu, howns⟩ | ⟨_, _, hplaced⟩
    · -- `h` was pending before the step, so what was in the slot was its own
      have hkept : ∀ s, w.state.currentSession = some s → s'.id = s.id → t.Owns s'.id := by
        intro s hs hid
        rw [hid]
        exact howns (hinv.prepare.wf h u hu) _ (hinv.slot h u s hu hpu hs)
      have hslot' : w'.slot.session = some s' := hs'
      cases slotMove_of_step hstep with
      | keep slot | consented _ _ _ _ _ slot | withdrawnLate _ _ _ slot =>
        rw [slot] at hslot'
        exact hkept s' hslot' rfl
      | @place g _ id token _ _ _ _ _ free =>
        exact absurd hpu (hone g id token rfl free h u hu)
      | @installed g v s _ hv live phase slot =>
        rw [slot] at hslot'
        cases hslot'
        -- the installing handler is pending, so it is `h`
        obtain rfl : h = g :=
          hinv.unique h g u v hu hv hpu ⟨live, by simp [phase], by rw [phase]; rfl⟩
        cases hu.symm.trans hv
        have hwf := hinv.prepare.wf h u hu
        refine howns hwf _ (.inr ?_)
        simp only [PrepareTask.Wf, phase] at hwf
        exact hwf.2.1
      | @recorded _ v s _ hrec more slot =>
        rw [slot] at hslot'
        cases hslot'
        exact hkept s hrec.2.2.2.1 (markReceived_id ..).1
      | refused _ _ _ slot | declined _ _ _ slot | delivered _ _ _ slot | withdrawn _ _ _ _ slot
      | cancelled _ _ _ _ _ slot | swept _ _ _ slot | stopped _ _ slot | completed _ _ slot =>
        rw [slot] at hslot'
        simp at hslot'
    · exact hplaced s' hs'

/-- Slot ownership over every run. Handlers keep to their own sessions exactly when no
    unwinding section finds another session in the slot, and they all do when offers are
    admitted one at a time. -/
theorem slot_ownership (sha : List UInt8 → String) (c : ServerConfig) (as : List Action) :
    ((receiver sha).Always RespectsSlot (World.start c) as ↔
      (receiver sha).Always UnwindsOwnSlot (World.start c) as) ∧
    ((receiver sha).Always OneOfferAtATime (World.start c) as →
      (receiver sha).Always RespectsSlot (World.start c) as) := by
  constructor
  · refine (receiver sha).always_iff_of_invariant PrepareInv ?_ (prepareInv_start c)
    intro w a w' hinv hstep
    exact ⟨(respectsSlot_iff hinv hstep).symm, fun _ => prepareInv_step hinv hstep⟩
  · refine (receiver sha).always_of_invariant PendingInv ?_ ?_
    · intro w a w' hinv hstep hone
      refine ⟨pendingInv_step hinv hstep hone, (respectsSlot_iff hinv.prepare hstep).mp ?_⟩
      intro h b t s ha hassigns ht hs
      subst ha
      have hsection : w.step sha (.prepare h b) = some w' := hstep
      obtain ⟨hpending, _⟩ := PrepareStep.assigns hinv.prepare (step_prepare hsection) hassigns ht
      exact hinv.slot h t s ht hpending hs
    · exact ⟨prepareInv_start c, fun _ _ _ _ h => (by cases h), fun _ _ _ h => (by cases h)⟩

end World

/-! ## A stale handler in the slot of another sender -/

namespace Scenario

/-- A receiver that asks before it accepts. -/
def config : ServerConfig where
  saveDir := ⟨[]⟩
  autoAccept := false
  sessionTimeout := 300000000000
  receiveRateLimitBytesPerSecond := none
  pin := none
  startedAt := 0

def digest : List UInt8 → String := fun _ => ""

/-- Two senders on different addresses. -/
def alice : IpAddr := .v4 1
def bob : IpAddr := .v4 2

def file : FileMetadata := ⟨⟨"f"⟩, "a.bin", 1, "application/octet-stream", none, none, none⟩

/-- An offer of one small binary file. -/
def offer : PrepareUploadRequest where
  info := ⟨"sender", "2.1", none, none, "fp", 53317, .http, false, none⟩
  files := .singleton ⟨"f"⟩ file

def token (s : String) : FileId → Token := fun _ => ⟨s⟩

/-- The world a run ends in. -/
def world (as : List Action) : World :=
  ((receiver digest).exec (World.start config) as).getD (World.start config)

theorem reachable_world (as : List Action)
    (h : ((receiver digest).exec (World.start config) as).isSome = true) :
    (receiver digest).Reachable (world as) := by
  obtain ⟨w, hw⟩ := Option.isSome_iff_exists.mp h
  have hinit : (receiver digest).Reachable (World.start config) := .init ⟨config, rfl⟩
  rw [world, hw]
  exact hinit.exec hw

/-- Alice's offer is with the event consumer. -/
def asked : List Action :=
  [.prepare 0 (.checkPin alice none offer),
    .prepare 0 (.reserve ⟨"alice"⟩ (token "a")),
    .prepare 0 .sendRequest]

/-- The consumer has accepted it. -/
def accepted : List Action := asked ++ [.prepare 0 (.decide (some .accept))]

/-- The consumer has declined it. -/
def declining : List Action :=
  asked ++ [.prepare 0 (.decide (some .decline)),
    .prepare 0 (.clearAwaiting ⟨"unused"⟩ (token "u"))]

/-- Alice's accepted session is installed, and its id and token are on the way to her. -/
def installed : List Action :=
  accepted ++ [.prepare 0 (.clearAwaiting ⟨"session"⟩ (token "s")), .prepare 0 .install]

/-- Alice withdraws her offer before she has a session id, Bob gets the slot, and Alice's
    handler wakes up and takes its decline path. -/
def staleDecline : List Action :=
  asked ++ [.cancel alice none,
    .prepare 1 (.checkPin bob none offer),
    .prepare 1 (.reserve ⟨"bob"⟩ (token "b")),
    .prepare 0 (.decide none),
    .prepare 0 (.clearAwaiting ⟨"unused"⟩ (token "u"))]

end Scenario

namespace World

/-- Alice's decline cancels and clears the session Bob has obtained meanwhile. -/
theorem slot_ownership_stale_decline :
    ¬∀ (sha : List UInt8 → String) (c : ServerConfig) (as : List Action),
      (receiver sha).Always RespectsSlot (World.start c) as := by
  intro h
  refine (receiver Scenario.digest).not_always_of_test (World.start Scenario.config)
    Scenario.staleDecline (.prepare 0 .decline)
    (fun w w' => (w.prepares 0).any (fun t => t.reserved = some ⟨"alice"⟩ ∧ t.accepted = none) &&
      w.state.currentSession.any (fun s => s.id = ⟨"bob"⟩) && w'.state.currentSession.isNone)
    (by decide) ?_ (h Scenario.digest Scenario.config _)
  intro w w' _ htest hrespects
  simp only [Bool.and_eq_true, Option.any_eq_true, decide_eq_true_eq, Option.isNone_iff_eq_none]
    at htest
  obtain ⟨⟨⟨t, ht, hres, hacc⟩, s, hs, hid⟩, hnone⟩ := htest
  have hforeign : ¬t.Owns s.id := by
    rintro (hr | ha)
    · rw [hres, hid] at hr
      exact absurd hr (by decide)
    · cases hacc.symm.trans ha
  obtain ⟨hs', _⟩ := hrespects 0 t s ht (by simp [hres]) (.inl ⟨_, rfl⟩) hs hforeign
  cases hnone.symm.trans hs'

end World

end LocalSend
