import LocalSend.Spec.AbandonedOffer
import LocalSend.Spec.LifecycleInvariant
import LocalSend.Spec.LogMoves

/-!
# The session of a publishing upload

An upload that holds a permit relies on its session staying in the slot until the file
is recorded. Everything that asks `try_cancel_receives` first leaves such a session
alone. The sections of a prepare that assign the slot, the release task and a `/cancel`
without session id go on whatever it answers; and the clear after a text message does
not even ask, so that an upload can go on to win publication with its session gone.

## Key results

- `stable_iff`: which steps keep the session of every publishing upload in the slot
- `announced_step`: while they all do, every committed file is recorded and announced
- `publication_stability`: both, over every run
-/

namespace LocalSend

/-- The upload has won `begin_publication`, and has neither finished its permit nor seen
    an error from `commit`. -/
def UploadTask.Publishing (t : UploadTask) : Prop :=
  t.dropped = false ∧ (t.phase = .committing ∨ ∃ path, t.phase = .recording path)

namespace World

/-- The session with id `x` is in the slot. -/
def Current (w : World) (x : SessionId) : Prop :=
  ∃ s, w.state.currentSession = some s ∧ s.id = x

/-- The session of every publishing upload is in the slot. -/
def Stable (w : World) : Prop :=
  ∀ u t, w.uploads u = some t → t.Publishing → w.Current t.grant.sessionId

/-- The file is recorded: `mark_received` took it, and as long as its session is in the
    slot it is among the received files. It has been announced. -/
def Recorded (w : World) (x : SessionId) (f : FileId) (path : PathBuf) : Prop :=
  (∃ time, (time, .fileCompleted x f) ∈ w.log) ∧
  (∃ time name size sender,
    (time, .emitted (.fileReceived x f name path size sender none)) ∈ w.log) ∧
  ∀ s, w.state.currentSession = some s → s.id = x → f ∈ s.received

/-- Every committed file is recorded and announced, unless its handler has yet to do so,
    or was dropped before it could. -/
def Announced (w : World) : Prop :=
  ∀ time u x f path content, (time, .fileCommitted u x f path content) ∈ w.log →
    ∃ t, w.uploads u = some t ∧ t.grant.sessionId = x ∧ t.fileId = f ∧
      (t.dropped = true ∨ t.phase = .recording path ∨ w.Recorded x f path)

/-- The step leaves the session of every publishing upload in the slot, answers a
    committed upload 200, and leaves no committed file behind. -/
def PublicationKept (w : World) (a : Action) (w' : World) : Prop :=
  w'.Stable ∧
  (∀ u t path, a = .upload u .record → w.uploads u = some t → t.phase = .recording path →
    ∃ t', w'.uploads u = some t' ∧ t'.phase = .answered .ok) ∧
  w'.Announced

/-- The action takes the session `s` out of the slot, or puts another in its place,
    whatever `try_cancel_receives` answers. -/
def ClearsUnheeding (w : World) (a : Action) (s : Session) : Prop :=
  (∃ h b, a = .prepare h b ∧ PrepareAction.assignsSlot b = true) ∨
    ∃ r, w.state.awaitingConsent = some r ∧ r.sessionId = s.id ∧
      (a = .release r.sessionId ∨ a = .cancel r.fromIp none)

/-- An upload that wins publication has its session in the slot. -/
def WinsInSlot (w : World) (a : Action) (_ : World) : Prop :=
  ∀ u t, a = .upload u .publish → w.uploads u = some t →
    (w.lifecycles t.grant.sessionId).phase? t.fileId = some .receiving →
    w.Current t.grant.sessionId

/-- None of these actions finds a session with a publishing upload in the slot, and an
    upload that wins publication still has its session there. -/
def SparesPublication (w : World) (a : Action) (w' : World) : Prop :=
  (∀ u t s, w.uploads u = some t → t.Publishing → w.state.currentSession = some s →
    s.id = t.grant.sessionId → ¬w.ClearsUnheeding a s) ∧ WinsInSlot w a w'

variable {sha : List UInt8 → String} {w w' : World} {a : Action}

/-! ## Which steps are stable -/

/-- A publishing upload holds its permit. -/
theorem LifecycleInv.permit_of_publishing (hinv : w.LifecycleInv sha) {u : TaskId}
    {t : UploadTask} (ht : w.uploads u = some t) (hpub : t.Publishing) :
    t.handle = some (.permit t.fileId) := by
  obtain ⟨live, phase | ⟨path, phase⟩⟩ := hpub
  · exact (hinv.wf u t ht).held_of live phase
  · exact (hinv.wf u t ht).held_of live phase

/-- The receives of a session with a publishing upload cannot be cancelled. -/
theorem LifecycleInv.not_cancellable (hinv : w.LifecycleInv sha) {u : TaskId} {t : UploadTask}
    (ht : w.uploads u = some t) (hpub : t.Publishing) : ¬w.Cancellable t.grant.sessionId := by
  intro hc
  have hslot := hinv.publishing_of_permit ht (hinv.permit_of_publishing ht hpub)
  exact ReceiveLifecycle.tryCancelReceives_fst_eq_true.mp hc t.fileId hslot

/-- An upload becomes publishing by winning publication. -/
theorem publishing_of_step (hstep : w.step sha a = some w') {u : TaskId} {t' : UploadTask}
    (ht' : w'.uploads u = some t') (hpub : t'.Publishing) :
    (∃ t, w.uploads u = some t ∧ t.Publishing ∧ t'.grant = t.grant ∧ a ≠ .upload u .record) ∨
      ∃ t, a = .upload u .publish ∧ w.uploads u = some t ∧ t'.grant = t.grant ∧
        (w.lifecycles t.grant.sessionId).phase? t.fileId = some .receiving := by
  obtain ⟨live, hphase⟩ := hpub
  -- the task is as it was, or this section has moved it
  rcases uploads_before hstep ht' with ht | ⟨b, l, rfl, hsection, hmove, _⟩
  · refine .inl ⟨t', ht, ⟨live, hphase⟩, rfl, ?_⟩
    rintro rfl
    -- the record section answers the upload
    rcases uploads_of_step hstep ht with ⟨_, hne⟩ | ⟨b, t, l, hb, _, ht'', hmove, _⟩
    · exact hne _ rfl
    · cases hb
      obtain ⟨status, hanswered⟩ := hmove.answered_of_record
      cases ht'.symm.trans ht''
      simp [hanswered] at hphase
  · generalize hold : w.uploads u = old at hmove
    cases hmove with
    -- the commit follows the permit, the permit is won by this section
    | @committed t path phase =>
      exact .inl ⟨t, rfl, ⟨live, .inl phase⟩, rfl, by simp⟩
    | @won t phase receiving => exact .inr ⟨t, rfl, rfl, rfl, receiving⟩
    | dropped => simp at live
    | _ => simp at hphase

/-- The session in the slot has received every file when an upload completes it. -/
theorem mem_received_of_last (hinv : w.LifecycleInv sha) {s : Session} {f g : FileId}
    (hs : w.state.currentSession = some s) (hlast : (s.markReceived f w.now).1 = true)
    (hg : s.files.contains g = true) : g = f ∨ g ∈ s.received := by
  unfold Session.markReceived at hlast
  split at hlast
  · rename_i hf
    simp only [decide_eq_true_eq] at hlast
    -- all files of the session are received, counting this one
    have hsub : insert f s.received ⊆ s.files.keys.toFinset := by
      intro x hx
      rw [List.mem_toFinset, ← AssocMap.contains_iff_mem_keys]
      rcases Finset.mem_insert.mp hx with rfl | hx
      · exact hf
      · have hslot := hinv.slots s (.inl hs) x
        rw [hinv.received s hs x hx] at hslot
        exact hslot.symm
    -- the number of received files is that of the files
    have hcard : s.files.keys.toFinset.card ≤ (insert f s.received).card := by
      rw [hlast]
      have hle := List.toFinset_card_le s.files.keys
      simpa [AssocMap.keys, AssocMap.size] using hle
    have heq := Finset.eq_of_subset_of_card_le hsub hcard
    have hmem : g ∈ insert f s.received := by
      rw [heq, List.mem_toFinset, ← AssocMap.contains_iff_mem_keys]
      exact hg
    exact Finset.mem_insert.mp hmem
  · simp at hlast

/-- A publishing upload is not the last one of its session. -/
theorem not_last_of_publishing (hinv : w.LifecycleInv sha) {u v : TaskId} {t x : UploadTask}
    {s : Session} (ht : w.uploads u = some t) (hpub : t.Publishing) (hrec : w.Recording v x s)
    (hsid : s.id = t.grant.sessionId) (hne : u ≠ v) :
    (s.markReceived x.fileId w.now).1 = false := by
  rw [← Bool.not_eq_true]
  intro hlast
  -- the upload holds a permit, so its file is publishing
  obtain ⟨hx, live, ⟨path, phase⟩, hs, hid⟩ := hrec
  have hpermit := hinv.permit_of_publishing ht hpub
  have hslot := hinv.publishing_of_permit ht hpermit
  have hfile : s.files.contains t.fileId = true := by
    rw [← hinv.slots s (.inl hs), hsid, hslot]
    rfl
  rcases mem_received_of_last hinv hs hlast hfile with hf | hf
  · -- both uploads hold a permit on one file
    have hxpermit : x.handle = some (.permit x.fileId) := (hinv.wf v x hx).held_of live phase
    have hholds : ∀ y z, w.uploads y = some z → z.grant.sessionId = s.id →
        z.handle = some (.permit z.fileId) → z.fileId = x.fileId →
        (w.handleState s.id).Holds y x.fileId := by
      intro y z hz hzid hzpermit hzf
      refine ⟨.permit z.fileId, ?_, hzf⟩
      simp only [handleState, hz, Option.bind_some, hzid, if_true, hzpermit]
    have hissued := hinv.prepare.issued_current hs
    have hhandles := HandleState.inv_of_reachable (hinv.handles s.id hissued)
    exact hne (hhandles.unique u v x.fileId (hholds u t ht hsid.symm hpermit hf)
      (hholds v x hx hid.symm hxpermit rfl))
  -- a received file is published, which the other one is not yet
  · have hpublished := hinv.received s hs t.fileId hf
    rw [hsid, hslot] at hpublished
    simp at hpublished

/-- A session in the slot stays there when no section clears it unheeding and its receives
    cannot be cancelled, unless its last file arrives. -/
theorem current_of_step (hstep : w.step sha a = some w') {s : Session}
    (hs : w.state.currentSession = some s) (hnot : ¬w.Cancellable s.id)
    (hheeds : ¬w.ClearsUnheeding a s)
    (hmore : ∀ v x, a = .upload v .record → w.Recording v x s →
      (s.markReceived x.fileId w.now).1 = false) : w'.Current s.id := by
  -- the session may change its books, not its id
  have hkept : w'.slot.session = some s → w'.Current s.id := fun h => ⟨s, h, rfl⟩
  cases slotMove_of_step hstep with
  | keep slot | consented _ _ _ _ _ slot | withdrawnLate _ _ _ slot =>
    apply hkept
    rw [slot]
    exact hs
  -- a busy slot takes a placeholder only after its session has been cancelled
  | place _ _ _ _ free =>
    rcases free with hnone | ⟨c, hc, _, hcancel⟩
    · cases hnone.symm.trans hs
    · cases hs.symm.trans hc
      exact absurd hcancel hnot
  -- these clear the slot without asking
  | refused | declined | installed | delivered =>
    exact absurd (.inl ⟨_, _, rfl, rfl⟩) hheeds
  | @withdrawn _ r c _ hcause own hc hid _ =>
    cases hs.symm.trans hc
    exact absurd (.inr ⟨r, own, hid.symm, hcause⟩) hheeds
  | cancelled hc _ _ _ hcancel | swept hc _ hcancel | stopped hc hcancel =>
    cases hs.symm.trans hc
    exact absurd hcancel hnot
  -- the record of another upload leaves the session in the slot
  | @recorded v x c _ hrec _ slot =>
    cases hs.symm.trans hrec.2.2.2.1
    refine ⟨_, ?_, (markReceived_id s x.fileId w.now).1⟩
    show w'.slot.session = _
    rw [slot]
  | @completed v x c _ hrec last =>
    cases hs.symm.trans hrec.2.2.2.1
    cases (hmore v x rfl hrec).symm.trans last

/-- Winning or losing publication does not touch the slot. -/
theorem slot_of_publish {u : TaskId} (hstep : w.step sha (.upload u .publish) = some w') :
    w'.slot = w.slot := by
  cases step_upload hstep with
  | publish =>
    unfold publish
    split <;> rfl

/-- A step that spares the publishing uploads keeps their sessions in the slot. -/
theorem stable_of_spares (hinv : w.LifecycleInv sha) (hstable : w.Stable)
    (hstep : w.step sha a = some w') (hspares : SparesPublication w a w') : w'.Stable := by
  intro u t' ht' hpub
  rcases publishing_of_step hstep ht' hpub with ⟨t, ht, hpubt, hgrant, hnot⟩ |
      ⟨t, rfl, ht, hgrant, hrecv⟩
  · rw [hgrant]
    obtain ⟨s, hs, hsid⟩ := hstable u t ht hpubt
    rw [← hsid]
    refine current_of_step hstep hs ?_ (hspares.1 u t s ht hpubt hs hsid) ?_
    · rw [hsid]
      exact hinv.not_cancellable ht hpubt
    · rintro v x rfl hrec
      refine not_last_of_publishing hinv ht hpubt hrec hsid ?_
      rintro rfl
      exact hnot rfl
  · rw [hgrant]
    obtain ⟨s, hs, hsid⟩ := hspares.2 u t rfl ht hrecv
    exact ⟨s, (congrArg Slot.session (slot_of_publish hstep)).trans hs, hsid⟩

/-- A `/cancel` without session id takes out the placeholder that awaits consent. -/
theorem slot_cancel_of_awaiting {s : Session} {r : ConsentReservation}
    (hs : w.state.currentSession = some s) (hr : w.state.awaitingConsent = some r)
    (hid : r.sessionId = s.id) : (w.handleCancel r.fromIp none).2.slot = ⟨none, none, none⟩ := by
  have hfilter : (w.state.currentSession.filter fun c => c.id = r.sessionId) = some s := by
    simp [hs, hid]
  unfold handleCancel
  rw [hr]
  dsimp only
  rw [if_neg (by simp), hfilter]
  rfl

/-- A section that clears the slot unheeding leaves no session of a publishing upload. -/
theorem not_current_of_unheeding (hinv : w.LifecycleInv sha) (hstep : w.step sha a = some w')
    {u : TaskId} {t : UploadTask} {s : Session} (ht : w.uploads u = some t)
    (hs : w.state.currentSession = some s) (hclears : w.ClearsUnheeding a s) :
    ¬w'.Current t.grant.sessionId := by
  rintro ⟨s', hs', hid⟩
  -- the slot is written in every case
  have hnone : w'.slot.session ≠ none := fun h => (by cases h.symm.trans hs')
  rcases hclears with ⟨h, b, rfl, hassigns⟩ | ⟨r, hr, hrid, ha⟩
  · cases step_prepare hstep with
    | checkPin | reserve | sendRequest | decide | clearAwaiting | drop => exact nomatch hassigns
    | refuse => exact hnone (congrArg Slot.session (slot_refuse w h _))
    | decline => exact hnone (congrArg Slot.session (slot_decline w h _))
    | deliverText => exact hnone (congrArg Slot.session (slot_deliverText w h _ _ _))
    | @install p session hp _ phase =>
      have hslot := congrArg Slot.session (slot_install w h p session)
      cases hslot.symm.trans hs'
      exact hinv.apart u t h p s' ht hp phase hid
  -- the guard's release and the withdrawal clear the session of their reservation
  · rcases ha with rfl | rfl
    · simp only [step, Option.ite_none_right_eq_some, Option.some.injEq] at hstep
      obtain ⟨_, rfl⟩ := hstep
      have hawait : w.state.awaitingConsent = some ⟨s.id, r.fromIp⟩ := by rw [hr, ← hrid]
      have hslot := release_of_awaiting (w.releases.erase r.sessionId) hs hawait
      rw [← hrid] at hslot
      exact hnone (congrArg Slot.session hslot)
    · cases hstep
      exact hnone (congrArg Slot.session (slot_cancel_of_awaiting hs hr hrid))

/-- A step from a stable world is stable exactly when it spares the publishing uploads. -/
theorem stable_iff (hinv : w.LifecycleInv sha) (hstable : w.Stable)
    (hstep : w.step sha a = some w') : w'.Stable ↔ SparesPublication w a w' := by
  refine ⟨fun hstable' => ⟨?_, ?_⟩, stable_of_spares hinv hstable hstep⟩
  · intro u t s ht hpub hs _ hclears
    refine not_current_of_unheeding hinv hstep ht hs hclears (hstable' u t ?_ hpub)
    rcases uploads_of_step hstep ht with ⟨ht', _⟩ | ⟨b, _, _, rfl, _⟩
    · exact ht'
    · -- none of these actions is one of an upload
      rcases hclears with ⟨_, _, ha, _⟩ | ⟨_, _, _, ha | ha⟩ <;> simp at ha
  · rintro u t rfl ht hrecv
    rcases uploads_of_step hstep ht with ⟨_, hne⟩ | ⟨b, t', l, hb, live, ht', hmove, _⟩
    · exact absurd rfl (hne _)
    · cases hb
      cases hmove with
      | lost phase taken => exact absurd hrecv taken
      | won =>
        obtain ⟨s, hs, hsid⟩ := hstable' u _ ht' ⟨live, .inl rfl⟩
        exact ⟨s, (congrArg Slot.session (slot_of_publish hstep)).symm.trans hs, hsid⟩

/-! ## What becomes of a committed file -/

/-- The section that records a file logs and announces it. -/
theorem recorded_of_record (hinv : w.LifecycleInv sha) {u : TaskId} {t : UploadTask} {s : Session}
    {path : PathBuf} (hrec : w.Recording u t s) (hphase : t.phase = .recording path) :
    (w.record u t path).Recorded t.grant.sessionId t.fileId path := by
  -- the session in the slot is that of the upload, and knows its file
  obtain ⟨ht, live, _, hs, hid⟩ := hrec
  have hpermit : t.handle = some (.permit t.fileId) := (hinv.wf u t ht).held_of live hphase
  have hfile : s.files.contains t.fileId = true := by
    rw [← hinv.slots s (.inl hs), hid, hinv.publishing_of_permit ht hpermit]
    rfl
  have hfilter : (w.state.currentSession.filter fun s => s.id = t.grant.sessionId) = some s := by
    simp [hs, hid]
  -- the completion and the announcement are logged in either case
  have hlog : ∃ rest, (w.record u t path).log = w.log ++ [(w.now, .fileCompleted s.id t.fileId)] ++
      [(w.now, .emitted (.fileReceived s.id t.fileId (path.fileName.getD t.grant.fileName) path
        t.body.bytesWritten t.grant.senderAlias none))] ++ rest := by
    unfold record
    rw [hfilter]
    dsimp only
    split
    · exact ⟨[_, _], by simp [answerUpload, observe, setUpload, dropHandle, setLifecycle, trySend,
        recordFile, storeReceived, hfile]; exact ⟨rfl, rfl⟩⟩
    · exact ⟨[_], by simp [answerUpload, observe, setUpload, dropHandle, setLifecycle, trySend,
        recordFile, storeReceived, hfile]; rfl⟩
  obtain ⟨rest, hlog⟩ := hlog
  refine ⟨⟨w.now, ?_⟩, ⟨w.now, path.fileName.getD t.grant.fileName, t.body.bytesWritten,
    t.grant.senderAlias, ?_⟩, ?_⟩
  · rw [hlog, ← hid]
    exact List.mem_append_left _ (List.mem_append_left _ List.mem_concat_self)
  · rw [hlog, ← hid]
    exact List.mem_append_left _ List.mem_concat_self
  -- the file is marked in the session, if that is still there
  · intro s' hs' _
    have hslot := slot_record path ⟨ht, live, ⟨path, hphase⟩, hs, hid⟩
    have hsession := (congrArg Slot.session hslot).symm.trans hs'
    dsimp only at hsession
    split at hsession
    · simp at hsession
    · cases hsession
      simp [Session.markReceived, hfile]

/-- A recorded file stays recorded. -/
theorem Recorded.step (hinv : w.LifecycleInv sha) (hstep : w.step sha a = some w') {u : TaskId}
    {t : UploadTask} {path : PathBuf} (ht : w.uploads u = some t)
    (h : w.Recorded t.grant.sessionId t.fileId path) :
    w'.Recorded t.grant.sessionId t.fileId path := by
  obtain ⟨⟨time, hcompleted⟩, ⟨time', name, size, sender, hemitted⟩, hreceived⟩ := h
  refine ⟨⟨time, log_mono hstep hcompleted⟩,
    ⟨time', name, size, sender, log_mono hstep hemitted⟩, ?_⟩
  intro s' hs' hid
  have hslot' : w'.slot.session = some s' := hs'
  -- what the slot can hold of the session has its files still
  cases slotMove_of_step hstep with
  | keep slot | consented _ _ _ _ _ slot | withdrawnLate _ _ _ slot =>
    rw [slot] at hslot'
    exact hreceived s' hslot' hid
  -- a fresh id is not the upload's
  | @place _ _ id _ _ _ _ _ fresh _ _ slot =>
    rw [slot] at hslot'
    cases hslot'
    exact absurd (hinv.session u t ht) (hid ▸ fresh)
  -- what a handler installs is not the session of an upload
  | @installed h p s _ hp _ phase slot =>
    rw [slot] at hslot'
    cases hslot'
    exact absurd hid (hinv.apart u t h p s' ht hp phase)
  | @recorded v x s _ hrec _ slot =>
    rw [slot] at hslot'
    cases hslot'
    have hmem := hreceived s hrec.2.2.2.1 ((markReceived_id s x.fileId w.now).1.symm.trans hid)
    unfold Session.markReceived
    split
    · exact Finset.mem_insert_of_mem hmem
    · exact hmem
  -- these clear the slot
  | refused _ _ _ slot | declined _ _ _ slot | delivered _ _ _ slot | withdrawn _ _ _ _ slot
  | cancelled _ _ _ _ _ slot | swept _ _ _ slot | stopped _ _ slot | completed _ _ slot =>
    rw [slot] at hslot'
    simp at hslot'

/-- The record section of an upload whose session is in the slot answers 200 and records
    the file. -/
theorem recorded_of_step (hinv : w.LifecycleInv sha) {u : TaskId} {t : UploadTask} {path : PathBuf}
    (hstep : w.step sha (.upload u .record) = some w') (ht : w.uploads u = some t)
    (hphase : t.phase = .recording path) (hcurrent : w.Current t.grant.sessionId) :
    (∃ t', w'.uploads u = some t' ∧ t'.phase = .answered .ok) ∧
      w'.Recorded t.grant.sessionId t.fileId path := by
  obtain ⟨s, hs, hid⟩ := hcurrent
  cases step_upload hstep with
  | @record t₀ path₀ ht₀ live phase =>
    cases ht.symm.trans ht₀
    cases hphase.symm.trans phase
    refine ⟨?_, recorded_of_record hinv ⟨ht, live, ⟨path, phase⟩, hs, hid⟩ phase⟩
    rcases record_cases w u t path with ⟨c, _, _, heffect⟩ | ⟨hgone, _⟩
    · exact ⟨_, by rw [heffect.uploads, Function.update_self], rfl⟩
    · exact absurd hid (hgone s hs)

/-- From a stable world every committed file is recorded and announced, or about to be. -/
theorem announced_step (hinv : w.LifecycleInv sha) (hstable : w.Stable) (h : w.Announced)
    (hstep : w.step sha a = some w') : w'.Announced := by
  intro time u x f path content hmem
  -- committed before, or in this step
  rcases observed_of_step hstep hmem with hold | ⟨_, hnew⟩
  · obtain ⟨t, ht, rfl, rfl, hcases⟩ := h time u x f path content hold
    rcases uploads_of_step hstep ht with ⟨ht', _⟩ | ⟨b, t', l, rfl, live, ht', hmove, _⟩
    · exact ⟨t, ht', rfl, rfl, hcases.imp id (Or.imp id (Recorded.step hinv hstep ht))⟩
    · obtain ⟨hfile, hgrant⟩ := hmove.grant_eq
      refine ⟨t', ht', by rw [hgrant], hfile, ?_⟩
      rcases hcases with hdropped | hphase | hrecorded
      · cases live.symm.trans hdropped
      -- the committed file is recorded, since its session is in the slot
      · cases hmove with
        | dropped => exact .inl rfl
        | recorded phase hs hid =>
          have hcurrent := hstable u t ht ⟨live, .inr ⟨path, hphase⟩⟩
          exact .inr (.inr (recorded_of_step hinv hstep ht hphase hcurrent).2)
        | orphaned phase hs =>
          obtain ⟨s, hs', hid⟩ := hstable u t ht ⟨live, .inr ⟨path, hphase⟩⟩
          exact absurd hid (hs s hs')
        | interrupted phase =>
          rw [hphase] at phase
          cases phase
        | created phase | notCreated phase | received phase | streamFailed phase | ended phase
        | wrote phase | notWritten phase | reported phase | invalid phase | valid phase
        | rejected phase | gaveUp phase | aborted phase | won phase | lost phase
        | surrendered phase | committed phase | notCommitted phase =>
          cases hphase.symm.trans phase
      · exact .inr (.inr (Recorded.step hinv hstep ht hrecorded))
  -- a commit leaves the upload at its record
  · cases hnew with
    | routine h => exact h.elim
    | @committed _ t _ ht live phase =>
      rcases uploads_of_step hstep ht with ⟨_, hne⟩ | ⟨b, t', l, hb, _, ht', hmove, _⟩
      · exact absurd rfl (hne _)
      · cases hb
        cases hmove with
        | committed => exact ⟨_, ht', rfl, rfl, .inr (.inl rfl)⟩

/-! ## Every run -/

/-- Publication is stable in every step of a run exactly when no section of the run clears
    the slot of a publishing upload unheeding, and no upload wins publication after its
    session has left the slot. -/
theorem publication_stability (sha : List UInt8 → String) (c : ServerConfig) (as : List Action) :
    (receiver sha).Always PublicationKept (World.start c) as ↔
      (receiver sha).Always SparesPublication (World.start c) as := by
  have hstart : (World.start c).LifecycleInv sha ∧ (World.start c).Stable ∧
      (World.start c).Announced :=
    ⟨lifecycleInv_start c, fun _ _ h => (by cases h), fun _ _ _ _ _ _ h => (by cases h)⟩
  -- by induction on the run, with the slot of a publication as the invariant
  refine (receiver sha).always_iff_of_invariant
    (fun w => w.LifecycleInv sha ∧ w.Stable ∧ w.Announced) ?_ hstart
  rintro w a w' ⟨hinv, hstable, hannounced⟩ hstep
  have hiff := stable_iff hinv hstable hstep
  have hannounced' := announced_step hinv hstable hannounced hstep
  constructor
  · constructor
    · exact fun hkept => hiff.mp hkept.1
    · intro hspares
      refine ⟨hiff.mpr hspares, ?_, hannounced'⟩
      rintro u t path rfl ht hphase
      have live : t.dropped = false := UploadStep.live (step_upload hstep) ht
      -- the session that the record needs is in the slot
      have hcurrent := hstable u t ht ⟨live, .inr ⟨path, hphase⟩⟩
      exact (recorded_of_step hinv hstep ht hphase hcurrent).1
  · exact fun hkept => ⟨lifecycleInv_step hinv hstep, hkept.1, hkept.2.2⟩

end World

namespace Scenario

/-- As in `staleDecline`, but before Alice's handler gets to its decline path Bob's offer is
    accepted, and his upload has won publication. -/
def stalePublication : List Action :=
  asked ++ [.cancel alice none,
    .prepare 1 (.checkPin bob none offer),
    .prepare 1 (.reserve ⟨"bob"⟩ (token "b")),
    .prepare 1 .sendRequest,
    .prepare 1 (.decide (some .accept)),
    .prepare 1 (.clearAwaiting ⟨"session"⟩ (token "s")),
    .prepare 1 .install,
    .upload 0 (.begin_ ⟨"session"⟩ ⟨"f"⟩ ⟨"s"⟩),
    .upload 0 (.sinkCreated (.ok ⟨["a.bin"]⟩)),
    .upload 0 (.chunk [0]),
    .upload 0 (.chunkWritten true),
    .upload 0 .reportProgress,
    .upload 0 .streamEnd,
    .upload 0 (.flushed true),
    .upload 0 .publish,
    .prepare 0 (.decide none),
    .prepare 0 (.clearAwaiting ⟨"unused"⟩ (token "u"))]

end Scenario

namespace World

/-- Alice's decline takes Bob's session out of the slot while his file is being committed. -/
theorem publication_stability_stale_decline :
    ¬∀ (sha : List UInt8 → String) (c : ServerConfig) (as : List Action),
      (receiver sha).Always PublicationKept (World.start c) as := by
  intro h
  refine (receiver Scenario.digest).not_always_of_test (World.start Scenario.config)
    Scenario.stalePublication (.prepare 0 .decline)
    (fun _ w' => (w'.uploads 0).any (fun t => t.dropped = false ∧ t.phase = .committing) &&
      w'.state.currentSession.isNone)
    (by decide) ?_ (h Scenario.digest Scenario.config _)
  intro w w' _ htest hkept
  simp only [Bool.and_eq_true, Option.any_eq_true, decide_eq_true_eq, Option.isNone_iff_eq_none]
    at htest
  obtain ⟨⟨t, ht, live, phase⟩, hnone⟩ := htest
  obtain ⟨s, hs, _⟩ := hkept.1 0 t ht ⟨live, .inl phase⟩
  cases hnone.symm.trans hs

end World

end LocalSend
