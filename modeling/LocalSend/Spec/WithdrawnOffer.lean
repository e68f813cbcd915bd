import LocalSend.Spec.SlotOwnership
import Mathlib.Data.Fintype.EquivFin
import Mathlib.Data.Finset.Dedup

/-!
# A withdrawn offer

A `/cancel` without session id is answered 200 for the reservation that awaits consent,
and fires its withdraw token. The handler looks at the token in its `select!` only, so
the withdrawal holds exactly when the handler has not yet taken a decision that accepts
a file.

## Key results

- `Doomed.step`: a doomed offer stays doomed, whatever else happens
- `stays_withdrawn_iff`: when a withdrawal holds in every continuation of the run
-/

namespace LocalSend

/-- There is always another id to draw. -/
instance : Infinite SessionId := by
  apply Infinite.of_surjective (fun s : SessionId => s.val.length)
  intro n
  exact ⟨⟨String.ofList (List.replicate n 'a')⟩, by simp⟩

/-- The random source can draw an id that was not issued before. -/
theorem World.exists_fresh (w : World) : ∃ id, id ∉ w.issued := by
  obtain ⟨id, hid⟩ := Infinite.exists_notMem_finset w.issued.toFinset
  exact ⟨id, by simpa using hid⟩

/-- The handler has decided to accept at least one offered file, and is about to apply
    that decision. -/
def PrepareTask.AboutToAccept (t : PrepareTask) : Prop :=
  t.dropped = false ∧ t.phase = .clearing ∧
    ∃ d, t.decision = some d ∧ t.request.acceptedIds d ≠ []

namespace World

/-- The offer of handler `h` has come to nothing so far: no session of its accepted files
    is in the slot, it was answered neither 200 nor 204, and its text was not delivered. -/
def OfferDead (w : World) (h : TaskId) : Prop :=
  ∀ t, w.prepares h = some t →
    (∀ s, w.state.currentSession = some s → t.accepted ≠ some s.id) ∧
    (∀ status body, t.phase = .answered status body → status ≠ .ok ∧ status ≠ .noContent) ∧
    ∀ s time text sender, t.accepted = some s →
      (time, .emitted (.textReceived s text sender)) ∉ w.log

/-- The offer of handler `h` comes to nothing in every continuation of the run. -/
def StaysWithdrawn (sha : List UInt8 → String) (w : World) (h : TaskId) : Prop :=
  ∀ as w', (receiver sha).exec w as = some w' → w'.OfferDead h

/-- The withdraw token of `h` has been fired, and `h` has no decision that accepts a
    file, or will never apply the one it has. -/
structure Doomed (w : World) (h : TaskId) (t : PrepareTask) : Prop where
  task : w.prepares h = some t
  reserved : ∃ r ∈ w.withdrawn, t.reserved = some r
  accepted : t.accepted = none
  decision : t.dropped = true ∨ ∀ d, t.decision = some d → t.request.acceptedIds d = []

/-- Whatever happens, a doomed offer stays doomed. -/
theorem Doomed.step {sha : List UInt8 → String} {w w' : World} {a : Action} {h : TaskId}
    {t : PrepareTask} (hd : w.Doomed h t) (hwf : t.Wf) (hstep : w.step sha a = some w') :
    ∃ t', w'.Doomed h t' := by
  obtain ⟨htask, ⟨r, hr, hres⟩, hacc, hdec⟩ := hd
  have hr' := withdrawn_mono hstep hr
  rcases prepares_of_step hstep htask with ⟨htask', _⟩ | ⟨b, t', _, hlive, htask', hmove⟩
  · exact ⟨t, htask', ⟨r, hr', hres⟩, hacc, hdec⟩
  · have hdec : ∀ d, t.decision = some d → t.request.acceptedIds d = [] := by
      cases hdec with
      | inl hdropped => cases hlive.symm.trans hdropped
      | inr hdec => exact hdec
    refine ⟨t', htask', ⟨r, hr', (hmove.reserved_eq hwf hres).1⟩, ?_, ?_⟩
    · cases hmove with
      | @reserved _ id token hphase =>
        simp only [PrepareTask.Wf, hphase] at hwf
        cases hres.symm.trans hwf.2.1
      | @toInstall _ d id token hphase hd hids => exact absurd (hdec d hd) hids
      | _ => exact hacc
    · cases hmove with
      | @reserved _ id token hphase =>
        simp only [PrepareTask.Wf, hphase] at hwf
        cases hres.symm.trans hwf.2.1
      | nobodyListening =>
        refine .inr fun d hd => ?_
        cases hd
        rfl
      | decided =>
        -- the biased `select!` sees the fired token first
        refine .inr fun d hd => ?_
        have hfired : t.reserved.any (fun r => r ∈ w.withdrawn) = true := by
          simp [hres, hr]
        simp only [hfired, if_true, Option.some.injEq] at hd
        subst hd
        rfl
      | _ => exact .inr hdec

/-- A doomed offer has come to nothing. -/
theorem Doomed.offerDead {w : World} {h : TaskId} {t : PrepareTask} (hd : w.Doomed h t)
    (hwf : t.Wf) : w.OfferDead h := by
  intro t' ht'
  cases hd.task.symm.trans ht'
  have hacc := hd.accepted
  refine ⟨fun s _ h => (by cases hacc.symm.trans h), ?_,
    fun s _ _ _ h => (by cases hacc.symm.trans h)⟩
  intro status body hphase
  obtain ⟨r, _, hres⟩ := hd.reserved
  simp only [PrepareTask.Wf, hphase] at hwf
  rcases hwf with ⟨_, _, hok, hno⟩ | ⟨_, hne, _⟩ | ⟨_, _, _, s, _, hs, _⟩
  · exact ⟨hok, hno (by simp [hres])⟩
  · exact absurd hacc hne
  · cases hacc.symm.trans hs

/-- A doomed offer comes to nothing in every continuation. -/
theorem Doomed.staysWithdrawn {sha : List UInt8 → String} {w : World} {h : TaskId}
    {t : PrepareTask} (hinv : w.PrepareInv) (hd : w.Doomed h t) : StaysWithdrawn sha w h := by
  intro as w' hrun
  have hrun' := (receiver sha).exec_induction (fun v => v.PrepareInv ∧ ∃ t, v.Doomed h t) ?_
    ⟨hinv, t, hd⟩ hrun
  · obtain ⟨hinv', t', hd'⟩ := hrun'
    exact hd'.offerDead (hinv'.wf h t' hd'.task)
  · rintro v a v' ⟨hv, u, hu⟩ hstep
    exact ⟨prepareInv_step hv hstep, hu.step (hv.wf h u hu.task) hstep⟩

/-- A handler about to accept can go on to build the session of the accepted files. -/
theorem exists_clearAwaiting {sha : List UInt8 → String} {w : World} {h : TaskId} {t : PrepareTask}
    (ht : w.prepares h = some t) (hlate : t.AboutToAccept) :
    ∃ a w' t' session, w.step sha a = some w' ∧ w'.prepares h = some t' ∧ t'.dropped = false ∧
      t'.accepted = some session.id ∧ t'.phase = .installing session := by
  obtain ⟨hlive, hphase, d, hd, hids⟩ := hlate
  obtain ⟨id, hid⟩ := w.exists_fresh
  let token : FileId → Token := fun _ => ⟨""⟩
  have hstep : w.step sha (.prepare h (.clearAwaiting id token)) =
      some (w.clearAwaiting h t d id token) := by
    simp [step, ht, hlive, prepareStep, hd, hphase, hid]
  obtain ⟨t', hmove, heffect⟩ := prepareMove_of_prepareStep (step_prepare hstep)
  have ht' : (w.clearAwaiting h t d id token).prepares h = some t' := by
    rw [heffect.prepares, Function.update_self]
  rw [ht] at hmove
  cases hmove with
  | toRefuse _ hd' =>
    cases hd.symm.trans hd'
    exact absurd rfl hids
  | toDecline _ hd' hids' =>
    cases hd.symm.trans hd'
    exact absurd hids' hids
  | toInstall => exact ⟨_, _, _, _, hstep, ht', hlive, rfl, rfl⟩

/-- A handler with a built session can go on to install it. -/
theorem exists_install {sha : List UInt8 → String} {w : World} {h : TaskId} {t : PrepareTask}
    {session : Session} (ht : w.prepares h = some t) (hlive : t.dropped = false)
    (hacc : t.accepted = some session.id) (hphase : t.phase = .installing session) :
    ∃ a w', w.step sha a = some w' ∧ ¬w'.OfferDead h := by
  have hstep : w.step sha (.prepare h .install) = some (w.install h t session) := by
    simp [step, ht, hlive, prepareStep, hphase]
  obtain ⟨t', hmove, heffect⟩ := prepareMove_of_prepareStep (step_prepare hstep)
  have ht' : (w.install h t session).prepares h = some t' := by
    rw [heffect.prepares, Function.update_self]
  have hcur := congrArg Slot.session (slot_install w h t session)
  have hacc' : t'.accepted = some session.id := by
    rw [ht] at hmove
    cases hmove <;> exact hacc
  exact ⟨_, _, hstep, fun hdead => (hdead t' ht').1 session hcur hacc'⟩

/-- When the withdrawal of an offer holds. A `/cancel` without session id is answered 200
    for the reservation that awaits consent; its offer comes to nothing in every
    continuation of the run exactly when the handler was not about to accept. -/
theorem stays_withdrawn_iff {sha : List UInt8 → String} {w : World} {r : ConsentReservation}
    {h : TaskId} {t : PrepareTask} (hw : (receiver sha).Reachable w)
    (hr : w.state.awaitingConsent = some r) (ht : w.prepares h = some t)
    (hres : t.reserved = some r.sessionId) :
    (w.handleCancel r.fromIp none).1 = .ok ∧
      (StaysWithdrawn sha (w.handleCancel r.fromIp none).2 h ↔ ¬t.AboutToAccept) := by
  have hinv := prepareInv_of_reachable hw
  have hwf := hinv.wf h t ht
  have hphase : t.phase.beforeClear = true := by
    obtain ⟨h', t', ht', hres', _, hphase⟩ := hinv.awaiting r hr
    obtain rfl : h = h' := hinv.owner h h' t t' _ ht ht' (.inl hres) (.inl hres')
    cases ht.symm.trans ht'
    exact hphase
  have hstep : w.step sha (.cancel r.fromIp none) = some (w.handleCancel r.fromIp none).2 := rfl
  have ht' : (w.handleCancel r.fromIp none).2.prepares h = some t := by
    rw [(sameTasks_handleCancel w r.fromIp none).prepares, ht]
  have hcancel : (w.handleCancel r.fromIp none).1 = .ok ∧
      r.sessionId ∈ (w.handleCancel r.fromIp none).2.withdrawn := by
    simp [handleCancel, hr, observe]
  generalize (w.handleCancel r.fromIp none) = answer at hstep ht' hcancel ⊢
  obtain ⟨status, w₀⟩ := answer
  dsimp only at hstep ht' hcancel ⊢
  refine ⟨hcancel.1, ?_, ?_⟩
  · intro hstays hlate
    obtain ⟨a₁, w₁, t₁, session, h₁, ht₁, hlive₁, hacc₁, hphase₁⟩ :=
      exists_clearAwaiting ht' hlate
    obtain ⟨a₂, w₂, h₂, hnot⟩ := exists_install ht₁ hlive₁ hacc₁ hphase₁
    apply hnot
    apply hstays [a₁, a₂] w₂
    show (w₀.step sha a₁).bind _ = some w₂
    rw [h₁]
    show (w₁.step sha a₂).bind _ = some w₂
    rw [h₂]
    rfl
  · intro hnot
    have hdoomed : w₀.Doomed h t := by
      refine ⟨ht', ⟨_, hcancel.2, hres⟩, ?_, ?_⟩
      · cases hp : t.phase <;> simp only [hp, PreparePhase.beforeClear,
          Bool.false_eq_true] at hphase <;>
          simp only [PrepareTask.Wf, hp] at hwf
        · exact hwf.2.2.2.1
        · exact hwf.2.2.2.1
        · exact hwf.2.2.1
      · cases hdropped : t.dropped with
        | true => exact .inl rfl
        | false =>
          refine .inr fun d hd => ?_
          by_contra hids
          apply hnot
          refine ⟨hdropped, ?_, d, hd, hids⟩
          cases hp : t.phase <;> simp only [hp, PreparePhase.beforeClear,
            Bool.false_eq_true] at hphase <;>
            simp only [PrepareTask.Wf, hp] at hwf
          · cases hwf.2.2.1.symm.trans hd
          · cases hwf.2.2.1.symm.trans hd
          · rfl
    exact hdoomed.staysWithdrawn (prepareInv_step hinv hstep)

/-- Alice withdraws while the receiver is still asked, and her offer comes to nothing. -/
theorem stays_withdrawn_while_asked :
    StaysWithdrawn Scenario.digest
      ((Scenario.world Scenario.asked).handleCancel Scenario.alice none).2 0 := by
  have hw := Scenario.reachable_world Scenario.asked (by decide)
  have hr : (Scenario.world Scenario.asked).state.awaitingConsent =
      some ⟨⟨"alice"⟩, Scenario.alice⟩ := by decide
  obtain ⟨t, ht, hres, hphase⟩ : ∃ t, (Scenario.world Scenario.asked).prepares 0 = some t ∧
      t.reserved = some ⟨"alice"⟩ ∧ t.phase = .deciding := ⟨_, rfl, rfl, rfl⟩
  have h := (stays_withdrawn_iff hw hr ht hres).2
  apply h.mpr
  rintro ⟨_, hclearing, _⟩
  cases hphase.symm.trans hclearing

/-- Alice withdraws after the receiver has accepted, is answered 200, and her session is
    installed all the same. -/
theorem stays_withdrawn_after_accept :
    ¬∀ (sha : List UInt8 → String) (w : World) (r : ConsentReservation) (h : TaskId)
      (t : PrepareTask), (receiver sha).Reachable w → w.state.awaitingConsent = some r →
      w.prepares h = some t → t.reserved = some r.sessionId →
      StaysWithdrawn sha (w.handleCancel r.fromIp none).2 h := by
  intro h
  have hw := Scenario.reachable_world Scenario.accepted (by decide)
  have hstays := h Scenario.digest _ ⟨⟨"alice"⟩, Scenario.alice⟩ 0 _ hw rfl rfl rfl
  have hdead := hstays
    [.prepare 0 (.clearAwaiting ⟨"session"⟩ (Scenario.token "s")), .prepare 0 .install] _ rfl
  exact ((hdead _ rfl).2.1 .ok _ rfl).1 rfl

end World

end LocalSend
