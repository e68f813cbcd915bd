import LocalSend.Spec.LogMoves
import LocalSend.Spec.SlotAttribution

/-!
# Reclaiming an idle session

The sweep and the timed-out branch of a prepare take the session in the slot out when its
`last_activity` is older than the session timeout. That timestamp is set when a session is
created and when one of its files completes, so both of these keep a session alive.
Writing a chunk does not set it.

## Key results

- `activityInv_step`: `last_activity` bounds the creation and every completion
- `reclaims_iff`: which steps reclaim the session in the slot
- `only_idle_reclaimed`: over every run, what a reclaim says about the chunks written
-/

namespace LocalSend

/-- The observations that `last_activity` accounts for. -/
def Observation.LifeSign (o : Observation) (s : SessionId) : Prop :=
  o = .sessionCreated s ∨ ∃ f, o = .fileCompleted s f

/-- What counts as activity of a session: it is created, one of its files completes, or a
    chunk of one of its uploads is written. -/
def Observation.Activity (o : Observation) (s : SessionId) : Prop :=
  o.LifeSign s ∨ ∃ f, o = .chunkWritten s f

namespace World

/-- The sweep or a reservation takes the session `s` out of the slot. -/
def Reclaims (w : World) (a : Action) (w' : World) (s : Session) : Prop :=
  (a = .sweep ∨ ∃ h id token, a = .prepare h (.reserve id token)) ∧
    w.state.currentSession = some s ∧ w'.state.currentSession ≠ some s

/-- A session is reclaimed only after it was idle for longer than the session timeout. -/
def OnlyIdleReclaimed (w : World) (a : Action) (w' : World) : Prop :=
  ∀ s, w.Reclaims a w' s → ∀ time o, (time, o) ∈ w.log → o.Activity s.id →
    w.state.sessionTimeout < w.now - time

/-- When the sweep or a reservation finds a session timed out that it can cancel, no chunk
    of that session was written within the session timeout. -/
def NoRecentChunk (w : World) (a : Action) (_ : World) : Prop :=
  (a = .sweep ∨ ∃ h id token, a = .prepare h (.reserve id token)) →
    ∀ s time f, w.state.currentSession = some s →
      s.isTimedOut w.now w.state.sessionTimeout = true → w.Cancellable s.id →
      (time, .chunkWritten s.id f) ∈ w.log → w.state.sessionTimeout < w.now - time

/-! ## The activity timestamp -/

/-- `last_activity` is not before any sign of life of the session. -/
def LastActivity (w : World) (s : Session) : Prop :=
  ∀ time o, (time, o) ∈ w.log → o.LifeSign s.id → time ≤ s.lastActivity

/-- The timestamps of the sessions that are, or are about to be, in the slot. -/
structure ActivityInv (w : World) : Prop where
  prepare : w.PrepareInv
  past : ∀ time o, (time, o) ∈ w.log → time ≤ w.now
  current : ∀ s, w.state.currentSession = some s → w.LastActivity s
  installing : ∀ h t s, w.prepares h = some t → t.phase = .installing s → w.LastActivity s

/-- A session whose timestamp is now has no later sign of life. -/
theorem ActivityInv.lastActivity_now {sha : List UInt8 → String} {w w' : World} {a : Action}
    (hinv : w.ActivityInv) (hstep : w.step sha a = some w') {s : Session}
    (hs : s.lastActivity = w.now) : w'.LastActivity s := by
  intro time o ho _
  rw [hs]
  cases observed_of_step hstep ho with
  | inl hold => exact hinv.past time o hold
  | inr hnew => exact Nat.le_of_eq hnew.1

/-- Without a new sign of life a timestamp stays good. -/
theorem LastActivity.step {sha : List UInt8 → String} {w w' : World} {a : Action} {s : Session}
    (h : w.LastActivity s) (hstep : w.step sha a = some w')
    (hquiet : ∀ o, w.Observed a o → ¬o.LifeSign s.id) : w'.LastActivity s := by
  intro time o ho hlife
  cases observed_of_step hstep ho with
  | inl hold => exact h time o hold hlife
  | inr hnew => exact absurd hlife (hquiet o hnew.2)

/-- The id of a session of some handler is not drawn again. -/
theorem not_created_of_issued {w : World} {a : Action} {s : SessionId} (hs : s ∈ w.issued) :
    ¬w.Observed a (.sessionCreated s) := by
  intro h
  cases h with
  | routine h => exact h
  | created fresh => exact fresh hs

/-- A session that stays in the slot although one of its files completes is stamped now. -/
theorem lastActivity_of_completed {sha : List UInt8 → String} {w w' : World} {a : Action}
    (hstep : w.step sha a = some w') {s : SessionId} {f : FileId}
    (hcompleted : w.Observed a (.fileCompleted s f)) {s' : Session}
    (hs' : w'.state.currentSession = some s') : s'.lastActivity = w.now := by
  cases hcompleted with
  | routine h => exact h.elim
  | @completed u t path s ht live phase hs hid hfile =>
    cases step_upload hstep with
    | @record v path' hv _ _ =>
      cases ht.symm.trans hv
      have hslot := slot_record path' ⟨ht, live, ⟨path, phase⟩, hs, hid⟩
      have hsession : (if (s.markReceived t.fileId w.now).1 then none
          else some (s.markReceived t.fileId w.now).2) = some s' :=
        (congrArg Slot.session hslot).symm.trans hs'
      split at hsession
      · simp at hsession
      · cases hsession
        simp only [Session.markReceived, hfile, if_true]

/-- Every step keeps the timestamps good. -/
theorem activityInv_step {sha : List UInt8 → String} {w w' : World} {a : Action}
    (hinv : w.ActivityInv) (hstep : w.step sha a = some w') : w'.ActivityInv := by
  refine ⟨prepareInv_step hinv.prepare hstep, ?_, ?_, ?_⟩
  · intro time o ho
    have hmono := now_mono hstep
    cases observed_of_step hstep ho with
    | inl hold =>
      have := hinv.past time o hold
      omega
    | inr hnew => omega
  · intro s' hs'
    by_cases hcompleted : ∃ f, w.Observed a (.fileCompleted s'.id f)
    · obtain ⟨f, hf⟩ := hcompleted
      exact hinv.lastActivity_now hstep (lastActivity_of_completed hstep hf hs')
    · have hquiet : s'.id ∈ w.issued → ∀ o, w.Observed a o → ¬o.LifeSign s'.id := by
        rintro hissued o ho (rfl | ⟨f, rfl⟩)
        · exact not_created_of_issued hissued ho
        · exact hcompleted ⟨f, ho⟩
      have hslot' : w'.slot.session = some s' := hs'
      cases slotMove_of_step hstep with
      | keep slot | consented _ _ _ _ _ slot | withdrawnLate _ _ _ slot =>
        rw [slot] at hslot'
        exact (hinv.current s' hslot').step hstep (hquiet (hinv.prepare.issued_current hslot'))
      | place _ _ _ _ _ _ slot =>
        rw [slot] at hslot'
        cases hslot'
        exact hinv.lastActivity_now hstep rfl
      | @installed h t s _ ht live phase slot =>
        rw [slot] at hslot'
        cases hslot'
        have hwf := hinv.prepare.wf h t ht
        simp only [PrepareTask.Wf, phase] at hwf
        have hissued := hinv.prepare.issued h t s'.id ht (.inr hwf.2.1)
        exact (hinv.installing h t s' ht phase).step hstep (hquiet hissued)
      | @recorded u t s _ hrec more slot =>
        rw [slot] at hslot'
        cases hslot'
        cases hfile : s.files.contains t.fileId with
        | true =>
          apply hinv.lastActivity_now hstep
          simp only [Session.markReceived, hfile, if_true]
        | false =>
          have hsame : (s.markReceived t.fileId w.now).2 = s := by
            simp only [Session.markReceived, hfile, Bool.false_eq_true, if_false]
          rw [hsame] at hquiet ⊢
          have hs := hrec.2.2.2.1
          exact (hinv.current s hs).step hstep (hquiet (hinv.prepare.issued_current hs))
      | refused _ _ _ slot | declined _ _ _ slot | delivered _ _ _ slot | withdrawn _ _ _ _ slot
      | cancelled _ _ _ _ _ slot | swept _ _ _ slot | stopped _ _ slot | completed _ _ slot =>
        rw [slot] at hslot'
        simp at hslot'
  · intro h t' s ht' hphase'
    -- a session about to be installed is not in the slot, so none of its files completes
    have hquiet : ∀ t, w.prepares h = some t → t.phase = .installing s →
        ∀ o, w.Observed a o → ¬o.LifeSign s.id := by
      intro t ht hphase o ho hlife
      have hwf := hinv.prepare.wf h t ht
      simp only [PrepareTask.Wf, hphase] at hwf
      cases hlife with
      | inl hcreated =>
        subst hcreated
        exact not_created_of_issued (hinv.prepare.issued h t s.id ht (.inr hwf.2.1)) ho
      | inr hcompleted =>
        obtain ⟨f, rfl⟩ := hcompleted
        generalize hid : s.id = id at ho
        cases ho with
        | routine h => exact h
        | @completed u v path c hv _ _ hc _ _ =>
          exact hinv.prepare.ne_installing hc ht hphase hid
    rcases prepares_before hstep ht' with ht | ⟨b, rfl, hmove, _⟩
    · exact (hinv.installing h t' s ht hphase').step hstep (hquiet t' ht hphase')
    · generalize hold : w.prepares h = old at hmove
      cases hmove with
      | toInstall =>
        cases hphase'
        exact hinv.lastActivity_now hstep rfl
      | dropped => exact (hinv.installing h _ s hold hphase').step hstep (hquiet _ hold hphase')
      | reserved =>
        unfold PrepareTask.reservedAs at hphase'
        split at hphase' <;> simp at hphase'
      | _ => simp at hphase'

/-! ## Reclaims -/

/-- A reservation over a timed-out session it can cancel takes that session out. -/
theorem reserve_of_timed {w : World} {h : TaskId} {t : PrepareTask} {id : SessionId}
    {token : FileId → Token} {s : Session} (hs : w.state.currentSession = some s)
    (htimed : s.isTimedOut w.now w.state.sessionTimeout = true) (hc : w.Cancellable s.id) :
    (w.reserve h t id token).state.currentSession =
      some (Session.new t.request.info.deviceAlias t.request.files id token w.now) := by
  rcases tryClearSlot_cases w s with ⟨_, heq⟩ | ⟨hfalse, _⟩
  · simp only [reserve, hs, htimed, heq, if_true]
    rfl
  · cases hfalse.symm.trans hc

/-- The sweep and a reservation reclaim exactly a timed-out session they can cancel. -/
theorem reclaims_iff {sha : List UInt8 → String} {w w' : World} {a : Action}
    (hinv : w.PrepareInv) (hstep : w.step sha a = some w') (s : Session) :
    w.Reclaims a w' s ↔ (a = .sweep ∨ ∃ h id token, a = .prepare h (.reserve id token)) ∧
      w.state.currentSession = some s ∧ s.isTimedOut w.now w.state.sessionTimeout = true ∧
      w.Cancellable s.id := by
  constructor
  · rintro ⟨ha, hs, hout⟩
    refine ⟨ha, hs, ?_⟩
    cases slotMove_of_step hstep with
    -- which moves take a session out without having cancelled or finished it
    | keep slot => exact absurd ((congrArg Slot.session slot).trans hs) hout
    | place _ _ _ _ free _ _ =>
      cases free with
      | inl hnone => cases hnone.symm.trans hs
      | inr hsome =>
        obtain ⟨s', hs', htimed, hc⟩ := hsome
        cases hs.symm.trans hs'
        exact ⟨htimed, hc⟩
    | swept hs' htimed hc _ =>
      cases hs.symm.trans hs'
      exact ⟨htimed, hc⟩
    | withdrawn hcause | withdrawnLate hcause =>
      rcases hcause with rfl | rfl <;> simp at ha
    | consented | refused | declined | installed | delivered | cancelled | stopped | recorded
    | completed => simp at ha
  · rintro ⟨ha, hs, htimed, hc⟩
    refine ⟨ha, hs, fun hstays => ?_⟩
    rcases ha with rfl | ⟨h, id, token, rfl⟩
    · cases hstep
      have hnone := congrArg Slot.session (slot_sweep_timed hs htimed hc)
      cases hnone.symm.trans hstays
    · cases step_prepare hstep with
      | reserve ht live phase hid =>
        cases (reserve_of_timed hs htimed hc).symm.trans hstays
        -- the new session would have the id of one that was issued
        exact hid (hinv.issued_current hs)

/-- A session is reclaimed after it was idle in every respect, in every step of a run,
    exactly when no reclaim follows a chunk of that session within the session timeout. -/
theorem only_idle_reclaimed (sha : List UInt8 → String) (c : ServerConfig) (as : List Action) :
    (receiver sha).Always OnlyIdleReclaimed (World.start c) as ↔
      (receiver sha).Always NoRecentChunk (World.start c) as := by
  have hstart : (World.start c).ActivityInv :=
    ⟨prepareInv_start c, fun _ _ h => (by cases h), fun _ h => (by cases h),
      fun _ _ _ h => (by cases h)⟩
  refine (receiver sha).always_iff_of_invariant ActivityInv ?_ hstart
  intro w a w' hinv hstep
  have hreclaims := reclaims_iff hinv.prepare hstep
  refine ⟨⟨?_, ?_⟩, fun _ => activityInv_step hinv hstep⟩
  · intro hidle ha s time f hs htimed hc hchunk
    exact hidle s ((hreclaims s).mpr ⟨ha, hs, htimed, hc⟩) time _ hchunk (.inr ⟨f, rfl⟩)
  · intro hquiet s hreclaimed time o ho hactivity
    -- life signs are counted by the timeout, chunks are not
    obtain ⟨ha, hs, htimed, hc⟩ := (hreclaims s).mp hreclaimed
    cases hactivity with
    | inl hlife =>
      have hle := hinv.current s hs time o ho hlife
      simp only [Session.isTimedOut, gt_iff_lt, decide_eq_true_eq] at htimed
      omega
    | inr hchunk =>
      obtain ⟨f, rfl⟩ := hchunk
      exact hquiet ha s time f hs htimed hc ho

end World

namespace Scenario

/-- Alice's upload writes a chunk 200 s after her session was created, and another 200 s
    later the session is older than the timeout. -/
def slowUpload : List Action :=
  installed ++ [.upload 0 (.begin_ ⟨"session"⟩ ⟨"f"⟩ ⟨"s"⟩),
    .upload 0 (.sinkCreated (.ok ⟨["a.bin"]⟩)),
    .env (.tick 200000000000),
    .upload 0 (.chunk [0]),
    .upload 0 (.chunkWritten true),
    .upload 0 .reportProgress,
    .env (.tick 200000000000)]

end Scenario

namespace World

/-- The sweep cancels an upload that wrote a chunk within the session timeout. -/
theorem only_idle_reclaimed_slow_upload :
    ¬∀ (sha : List UInt8 → String) (c : ServerConfig) (as : List Action),
      (receiver sha).Always OnlyIdleReclaimed (World.start c) as := by
  intro h
  refine (receiver Scenario.digest).not_always_of_test (World.start Scenario.config)
    Scenario.slowUpload .sweep
    (fun w w' => w.state.currentSession.any (fun s => s.id = ⟨"session"⟩) &&
      w'.state.currentSession.isNone && w.state.sessionTimeout = 300000000000 &&
      w.now = 400000000000 &&
      (200000000000, .chunkWritten ⟨"session"⟩ ⟨"f"⟩) ∈ w.log)
    (by decide) ?_ (h Scenario.digest Scenario.config _)
  intro w w' _ htest hidle
  simp only [Bool.and_eq_true, Option.any_eq_true, decide_eq_true_eq, Option.isNone_iff_eq_none]
    at htest
  obtain ⟨⟨⟨⟨⟨s, hs, hid⟩, hnone⟩, htimeout⟩, hnow⟩, hchunk⟩ := htest
  have hreclaimed : w.Reclaims .sweep w' s :=
    ⟨.inl rfl, hs, fun hstays => (by cases hnone.symm.trans hstays)⟩
  have hlate := hidle s hreclaimed _ _ hchunk (.inr ⟨⟨"f"⟩, by rw [hid]⟩)
  omega

end World

end LocalSend
