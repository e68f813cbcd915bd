import LocalSend.Spec.PublicationStability

/-!
# How an upload is answered

An upload that has taken its lease is answered 200 for a file that was committed with
exactly the bytes of the body, as declared, and recorded in its session. Any other
answer comes with nothing committed and gives the slot back, unless the session was
cancelled meanwhile. The one exception is a committed upload that finds its session
gone.

## Key results

- `outcomeInv_step`: what the log says of commits and cancellations
- `uploadSound_of_recordsInSlot`: one step of one upload
- `upload_outcome`: every answer of every run
-/

namespace LocalSend

open HandleState (Closed)

/-- An answer other than 200 drops what the upload still holds. -/
theorem UploadMove.answered_cases {sha : List UInt8 → String} {w : World} {t t' : UploadTask}
    {b : UploadAction} {l : ReceiveLifecycle} {status : StatusCode}
    (hmove : UploadMove sha w (some t) b t' l) (hwf : t.Wf sha)
    (hphase : t'.phase = .answered status) :
    t'.dropped = t.dropped ∧ t'.body = t.body ∧
      ((status = .ok ∧ b = .record ∧ ∃ path, t.phase = .recording path) ∨
        (status ≠ .ok ∧ l = (w.lifecycles t.grant.sessionId).dropHandle t.handle ∧
          (b = .record → ∀ s, w.state.currentSession = some s → s.id ≠ t.grant.sessionId))) := by
  -- the moves that answer, each with its status
  cases hmove with
  | notCreated phase hs =>
    cases hphase
    refine ⟨rfl, rfl, .inr ⟨?_, rfl, by simp⟩⟩
    rcases hs with rfl | rfl <;> decide
  -- what the phase carries is a refusal's status
  | gaveUp phase | aborted phase =>
    cases hphase
    exact ⟨rfl, rfl, .inr ⟨hwf.body_of phase, rfl, by simp⟩⟩
  | recorded phase =>
    cases hphase
    exact ⟨rfl, rfl, .inl ⟨rfl, rfl, _, phase⟩⟩
  -- the session is gone: the record answers 500
  | orphaned phase hs =>
    cases hphase
    exact ⟨rfl, rfl, .inr ⟨by decide, rfl, fun _ => hs⟩⟩
  -- a dropped handler had not answered
  | dropped awaits =>
    have hphase' : t.phase = .answered status := hphase
    simp only [UploadTask.awaits, hphase'] at awaits
    simp at awaits
  | _ => simp at hphase

namespace World

/-- `try_cancel_receives` has returned true on the session with id `x`. -/
def CancelledSession (w : World) (x : SessionId) : Prop :=
  ∃ time, (time, .receivesCancelled x) ∈ w.log

/-- The slot of a file is ready, or cancelled, and the latter only with its session. -/
def SlotReleased (w : World) (x : SessionId) (f : FileId) : Prop :=
  ((w.lifecycles x).phase? f = some .ready ∧ ¬w.CancelledSession x) ∨
    ((w.lifecycles x).phase? f = some .cancelled ∧ w.CancelledSession x)

/-- Upload `u`, described by `t`, has been answered `status`: 200 exactly for a file that
    it has committed with the whole body, as declared, and that is recorded; otherwise it
    has committed nothing, and its slot is ready again, or cancelled with its session. -/
structure AnsweredSoundly (sha256 : List UInt8 → String) (w : World) (u : TaskId) (t : UploadTask)
    (status : StatusCode) : Prop where
  ok_iff : status = .ok ↔ ∃ time path,
    (time, .fileCommitted u t.grant.sessionId t.fileId path t.body.bytes) ∈ w.log ∧
      t.grant.Accepts sha256 t.body.bytes ∧ w.Recorded t.grant.sessionId t.fileId path
  committed : ∀ time x f path content, (time, .fileCommitted u x f path content) ∈ w.log →
    status = .ok ∧ x = t.grant.sessionId ∧ f = t.fileId ∧ content = t.body.bytes
  slot : status ≠ .ok → w.SlotReleased t.grant.sessionId t.fileId

/-- What a step of an upload that holds or held a lease may do: it touches no slot but its
    own, and the session in the slot only to record its file; it is answered soundly; and
    the check after the last chunk depends on the whole body only. -/
def UploadSound (sha256 : List UInt8 → String) (w : World) (a : Action) (w' : World) : Prop :=
  ∀ u b t t', a = .upload u b → w.uploads u = some t → w'.uploads u = some t' →
    (∀ x g, (x ≠ t.grant.sessionId ∨ g ≠ t.fileId) →
      (w'.lifecycles x).phase? g = (w.lifecycles x).phase? g) ∧
    (t'.phase ≠ .answered .ok → w'.slot = w.slot) ∧
    (∀ status, t'.phase = .answered status → w'.AnsweredSoundly sha256 u t' status) ∧
    ∀ ok, b = .flushed ok →
      (t'.phase = .validated ↔ ok = true ∧ t.grant.Accepts sha256 t.body.bytes) ∧
      (t'.phase ≠ .validated → ∃ amount, t'.phase = .rejecting amount .internalServerError true)

/-- A committed upload finds its session in the slot when it takes the lock to record it. -/
def RecordsInSlot (w : World) (a : Action) (_ : World) : Prop :=
  ∀ u t path, a = .upload u .record → w.uploads u = some t → t.phase = .recording path →
    w.Current t.grant.sessionId

/-- No session leaves the slot while one of its uploads is publishing. -/
def KeepsPublishing (w : World) (_ : Action) (w' : World) : Prop :=
  ∀ u t t', w.uploads u = some t → t.Publishing → w'.uploads u = some t' → t'.Publishing →
    w.Current t.grant.sessionId → w'.Current t.grant.sessionId

variable {sha : List UInt8 → String} {w w' : World} {a : Action}

/-! ## Commits and cancellations in the log -/

/-- What the log says of cancellations. -/
structure CancelInv (sha256 : List UInt8 → String) (w : World) : Prop where
  lifecycle : w.LifecycleInv sha256
  closed : ∀ x, w.CancelledSession x → x ∈ w.issued ∧ Closed (w.lifecycles x)
  cancelled : ∀ x f, x ∈ w.issued → (w.lifecycles x).phase? f = some .cancelled →
    w.CancelledSession x
  surrendered : ∀ u t, w.uploads u = some t → t.dropped = false → t.handle = none →
    (∀ status, t.phase ≠ .answered status) →
    (w.lifecycles t.grant.sessionId).phase? t.fileId = some .cancelled

/-- What the log says of commits and cancellations. -/
structure OutcomeInv (sha256 : List UInt8 → String) (w : World) : Prop
    extends w.CancelInv sha256 where
  committed : ∀ time u x f path content, (time, .fileCommitted u x f path content) ∈ w.log →
    ∃ t, w.uploads u = some t ∧ x = t.grant.sessionId ∧ f = t.fileId ∧ content = t.body.bytes ∧
      (t.dropped = true ∨ t.phase = .recording path ∨ t.phase = .answered .ok)
  recording : ∀ u t path, w.uploads u = some t → t.phase = .recording path →
    ∃ time, (time, .fileCommitted u t.grant.sessionId t.fileId path t.body.bytes) ∈ w.log

theorem cancelInv_start (c : ServerConfig) : (World.start c).CancelInv sha where
  lifecycle := lifecycleInv_start c
  closed _ h := by cases h.choose_spec
  cancelled _ _ h := by cases h
  surrendered _ _ h := by cases h

theorem outcomeInv_start (c : ServerConfig) : (World.start c).OutcomeInv sha where
  toCancelInv := cancelInv_start c
  committed _ _ _ _ _ _ h := by cases h
  recording _ _ _ h := by cases h

/-- A commit keeps its upload, which is answered 200 or dropped when it is not recording
    any more. -/
theorem committed_step (hinv : w.OutcomeInv sha) (hstep : w.step sha a = some w')
    (hrecords : RecordsInSlot w a w') {time : Nat} {u : TaskId} {x : SessionId} {f : FileId}
    {path : PathBuf} {content : List UInt8}
    (hmem : (time, .fileCommitted u x f path content) ∈ w'.log) :
    ∃ t, w'.uploads u = some t ∧ x = t.grant.sessionId ∧ f = t.fileId ∧ content = t.body.bytes ∧
      (t.dropped = true ∨ t.phase = .recording path ∨ t.phase = .answered .ok) := by
  rcases observed_of_step hstep hmem with hold | ⟨_, hnew⟩
  -- an observation of before: its upload goes on, or has stopped
  · obtain ⟨t, ht, rfl, rfl, rfl, hcases⟩ := hinv.committed time u x f path content hold
    rcases uploads_of_step hstep ht with ⟨ht', _⟩ | ⟨b, t', l, rfl, live, ht', hmove, _⟩
    · exact ⟨t, ht', rfl, rfl, rfl, hcases⟩
    · rcases hcases with hdropped | hphase | hphase
      · cases live.symm.trans hdropped
      · cases hmove with
        | dropped => exact ⟨_, ht', rfl, rfl, rfl, .inl rfl⟩
        | recorded => exact ⟨_, ht', rfl, rfl, rfl, .inr (.inr rfl)⟩
        -- a record without its session is what the condition rules out
        | orphaned phase hs =>
          obtain ⟨s, hcurrent, hid⟩ := hrecords u t path rfl ht hphase
          exact absurd hid (hs s hcurrent)
        | interrupted phase =>
          rw [hphase] at phase
          cases phase
        | created phase | notCreated phase | received phase | streamFailed phase | ended phase
        | wrote phase | notWritten phase | reported phase | invalid phase | valid phase
        | rejected phase | gaveUp phase | aborted phase | won phase | lost phase
        | surrendered phase | committed phase | notCommitted phase =>
          cases hphase.symm.trans phase
      · exact absurd hphase hmove.ne_answered
  -- an observation of this step
  · cases hnew with
    | routine h => exact h.elim
    | @committed _ t _ ht live phase =>
      rcases uploads_of_step hstep ht with ⟨_, hne⟩ | ⟨b, t', l, hb, _, ht', hmove, _⟩
      · exact absurd rfl (hne _)
      · cases hb
        cases hmove with
        | committed =>
          have hbody := (hinv.lifecycle.wf u t ht).body_of phase
          exact ⟨_, ht', rfl, rfl, hbody.1, .inr (.inl rfl)⟩

/-- An upload that is to record its file has committed it. -/
theorem recording_step (hinv : w.OutcomeInv sha) (hstep : w.step sha a = some w') {u : TaskId}
    {t' : UploadTask} {path : PathBuf} (ht' : w'.uploads u = some t')
    (hphase' : t'.phase = .recording path) :
    ∃ time, (time, .fileCommitted u t'.grant.sessionId t'.fileId path t'.body.bytes) ∈ w'.log := by
  rcases uploads_before hstep ht' with ht | ⟨b, l, rfl, hsection, hmove, _⟩
  · obtain ⟨time, hmem⟩ := hinv.recording u t' path ht hphase'
    exact ⟨time, log_mono hstep hmem⟩
  · generalize hold : w.uploads u = old at hmove
    cases hmove with
    -- the publication succeeds: this step is the one that logs it
    | @committed t path' phase =>
      cases hphase'
      have hbody := (hinv.lifecycle.wf u t hold).body_of phase
      cases hsection with
      | @committed t₀ _ ht₀ _ _ =>
        cases hold.symm.trans ht₀
        refine ⟨w.now, ?_⟩
        rw [← hbody.1]
        exact List.mem_concat_self
    -- a dropped upload keeps its phase
    | @dropped t awaits =>
      obtain ⟨time, hmem⟩ := hinv.recording u t path hold hphase'
      exact ⟨time, log_mono hstep hmem⟩
    | _ => simp at hphase'

/-- A cancelled session is closed for good. -/
theorem closed_of_step (hinv : w.CancelInv sha) (hstep : w.step sha a = some w') {x : SessionId}
    (hx : w'.CancelledSession x) : x ∈ w'.issued ∧ Closed (w'.lifecycles x) := by
  -- a session that was cancelled before stays closed
  have hkeep : w.CancelledSession x → x ∈ w'.issued ∧ Closed (w'.lifecycles x) := by
    intro hold
    obtain ⟨hissued, hclosed⟩ := hinv.closed x hold
    refine ⟨issued_mono hstep hissued, ?_⟩
    rcases handleStep_of_step hinv.lifecycle hstep hissued with heq | ⟨b, hb⟩
    · have hlife : w'.lifecycles x = w.lifecycles x := congrArg HandleState.lifecycle heq
      rw [hlife]
      exact hclosed
    · have hhandles := HandleState.inv_of_reachable (hinv.lifecycle.handles x hissued)
      exact HandleState.closed_step hhandles hb hclosed
  obtain ⟨time, hmem⟩ := hx
  rcases observed_of_step hstep hmem with hold | ⟨_, hnew⟩
  · exact hkeep ⟨time, hold⟩
  · cases hnew with
    -- no other event says that a session was cancelled
    | routine h => exact h.elim
    | @cancelled _ s other hs cancellable =>
      -- the sweep and the stop cancel what is in the slot
      have hissued := hinv.lifecycle.prepare.issued_current hs
      cases lifecycleMove_of_step hissued hstep with
      | keep _ log => exact hkeep ⟨time, (log time).mp hmem⟩
      | cancel _ _ _ _ lifecycle =>
        refine ⟨issued_mono hstep hissued, fun f p hp => ?_⟩
        rw [lifecycle] at hp
        exact ReceiveLifecycle.phase?_of_tryCancelReceives cancellable hp
      | upload => exact absurd rfl (other _ _)

/-- A slot is cancelled with its session. -/
theorem cancelled_of_step (hinv : w.CancelInv sha) (hstep : w.step sha a = some w')
    {x : SessionId} {f : FileId} (hx : x ∈ w'.issued)
    (hf : (w'.lifecycles x).phase? f = some .cancelled) : w'.CancelledSession x := by
  -- what the log had it still has
  have hkeep : w.CancelledSession x → w'.CancelledSession x :=
    fun ⟨time, hmem⟩ => ⟨time, log_mono hstep hmem⟩
  by_cases hold : x ∈ w.issued
  · cases lifecycleMove_of_step hold hstep with
    | keep lifecycle =>
      rw [lifecycle] at hf
      exact hkeep (hinv.cancelled x f hold hf)
    | cancel _ _ _ _ lifecycle log =>
      -- an attempt to cancel: it succeeds, or a file in publication refuses it
      cases hc : (w.lifecycles x).tryCancelReceives.1 with
      | true =>
        refine ⟨w.now, (log w.now).mpr ?_⟩
        show _ ∈ (if _ then _ else _)
        rw [if_pos hc]
        exact List.mem_concat_self
      | false =>
        obtain ⟨g, hg⟩ := ReceiveLifecycle.tryCancelReceives_fst_eq_false.mp hc
        rw [lifecycle, ReceiveLifecycle.tryCancelReceives_of_publishing hg] at hf
        exact hkeep (hinv.cancelled x f hold hf)
    -- an upload's own step cancels no file
    | @upload u b =>
      rcases uploadMove_of_step hstep with ⟨v, b', t', l, _, _, hmove, heffect⟩ | ⟨_, hcause⟩
      · rw [heffect.lifecycles, Function.update_apply] at hf
        split at hf
        · rename_i heq
          subst heq
          exact hkeep (hinv.cancelled _ f hold (hmove.not_cancels hf))
        · exact hkeep (hinv.cancelled x f hold hf)
      · rcases hcause with hne | ⟨_, _, _, _, hlife⟩
        · exact absurd rfl (hne u b)
        · rw [hlife] at hf
          exact hkeep (hinv.cancelled x f hold hf)
  -- a session that is new has its files ready
  · obtain ⟨_, _, _, files, _, _, _, _, hlife⟩ := allocated_of_step hstep hx hold
    rw [hlife, phase?_newLifecycle, Option.map_eq_some_iff] at hf
    obtain ⟨_, _, hready⟩ := hf
    simp at hready

/-- An upload that lost publication and has given its lease back was cancelled. -/
theorem surrendered_step (hinv : w.CancelInv sha) (hstep : w.step sha a = some w') {u : TaskId}
    {t' : UploadTask} (ht' : w'.uploads u = some t') (live' : t'.dropped = false)
    (hnone : t'.handle = none) (hphase' : ∀ status, t'.phase ≠ .answered status) :
    (w'.lifecycles t'.grant.sessionId).phase? t'.fileId = some .cancelled := by
  -- a cancelled file stays cancelled
  have hkeep : ∀ t, w.uploads u = some t →
      (w.lifecycles t.grant.sessionId).phase? t.fileId = some .cancelled →
      (w'.lifecycles t.grant.sessionId).phase? t.fileId = some .cancelled := by
    intro t ht hslot
    have hissued := hinv.lifecycle.session u t ht
    rcases slotStep_of_step hinv.lifecycle hstep hissued t.fileId with
      ⟨hnone, _⟩ | ⟨p, p', hp, hp', hmove⟩
    · cases hnone.symm.trans hslot
    · cases hp.symm.trans hslot
      rw [hp', hmove.absorbing (.inl rfl)]
  rcases uploads_before hstep ht' with ht | ⟨b, l, rfl, hsection, hmove, _⟩
  · exact hkeep t' ht (hinv.surrendered u t' ht live' hnone hphase')
  · generalize hold : w.uploads u = old at hmove
    cases hmove with
    -- these phases still hold a handle, or have answered
    | began | won | lost => simp at hnone
    | notCreated | gaveUp | aborted | recorded | orphaned => exact absurd rfl (hphase' _)
    | dropped => simp at live'
    -- the surrender itself: the lease was spent on a cancelled file
    | @surrendered t phase =>
      have hspent := (hinv.lifecycle.wf u t hold).held_of (hsection.live hold) phase
      exact hkeep t hold (hinv.lifecycle.fits hold hspent)
    | @created t _ phase | @received t _ phase | @streamFailed t phase | @ended t phase
    | @wrote t _ phase | @notWritten t _ phase | @reported t phase | @invalid t _ _ phase
    | @valid t phase | @committed t _ phase | @notCommitted t phase =>
      have hheld := (hinv.lifecycle.wf u t hold).held_of (hsection.live hold) phase
      cases hnone.symm.trans hheld
    | @interrupted t phase =>
      have hheld := (hinv.lifecycle.wf u t hold).held (hsection.live hold)
      cases hnone.symm.trans (UploadPhase.holds_of_inBody phase hheld)
    | @rejected t amount status phase =>
      exact hkeep t hold (hinv.surrendered u t hold live' hnone (by simp [phase]))

/-- Every step keeps what the log says of cancellations. -/
theorem cancelInv_step (hinv : w.CancelInv sha) (hstep : w.step sha a = some w') :
    w'.CancelInv sha where
  lifecycle := lifecycleInv_step hinv.lifecycle hstep
  closed _ hx := closed_of_step hinv hstep hx
  cancelled _ _ hx hf := cancelled_of_step hinv hstep hx hf
  surrendered _ _ ht live hnone hphase := surrendered_step hinv hstep ht live hnone hphase

/-- The invariant is kept while committed uploads find their session in the slot. -/
theorem outcomeInv_step (hinv : w.OutcomeInv sha) (hstep : w.step sha a = some w')
    (hrecords : RecordsInSlot w a w') : w'.OutcomeInv sha where
  toCancelInv := cancelInv_step hinv.toCancelInv hstep
  committed _ _ _ _ _ _ hmem := committed_step hinv hstep hrecords hmem
  recording _ _ _ ht hphase := recording_step hinv hstep ht hphase

/-! ## One step of one upload -/

/-- Only recording a file touches the session in the slot. -/
theorem slot_of_upload (hinv : w.LifecycleInv sha) {u : TaskId} {b : UploadAction}
    {t t' : UploadTask} (hstep : w.step sha (.upload u b) = some w') (ht : w.uploads u = some t)
    (ht' : w'.uploads u = some t') (hphase : t'.phase ≠ .answered .ok) : w'.slot = w.slot := by
  have hcontra : ∀ s, b = .record → w.Recording u t s → False := by
    rintro s rfl ⟨_, _, ⟨path, phase⟩, hs, hid⟩
    obtain ⟨t₀, ht₀, hok⟩ := (recorded_of_step hinv hstep ht phase ⟨s, hs, hid⟩).1
    cases ht'.symm.trans ht₀
    exact hphase hok
  generalize ha : Action.upload u b = act at hstep
  cases slotMove_of_step hstep with
  | keep slot => exact slot
  | withdrawn hcause | withdrawnLate hcause =>
    subst ha
    rcases hcause with hc | hc <;> simp at hc
  | recorded hrec | completed hrec =>
    cases ha
    cases ht.symm.trans hrec.1
    exact (hcontra _ rfl hrec).elim
  | place | consented | refused | declined | installed | delivered | cancelled | swept
  | stopped => simp at ha

/-- Dropping what an upload holds makes its slot ready, unless that was cancelled. -/
theorem slot_of_dropHandle (hinv : w.CancelInv sha) {u : TaskId} {t : UploadTask}
    (ht : w.uploads u = some t) (live : t.dropped = false)
    (hphase : ∀ status, t.phase ≠ .answered status) :
    ((w.lifecycles t.grant.sessionId).dropHandle t.handle).phase? t.fileId = some .ready ∨
      ((w.lifecycles t.grant.sessionId).dropHandle t.handle).phase? t.fileId = some .cancelled := by
  -- by what is dropped
  cases hhandle : t.handle with
  | none => exact .inr (hinv.surrendered u t ht live hhandle hphase)
  | some handle =>
    have hfits := hinv.lifecycle.fits ht hhandle
    have hfile := (hinv.lifecycle.wf u t ht).file_eq hhandle
    -- a lease frees its file, if the file is not cancelled
    cases handle with
    | lease f =>
      cases hfile
      show ((w.lifecycles t.grant.sessionId).dropLease t.fileId).phase? t.fileId = _ ∨
        ((w.lifecycles t.grant.sessionId).dropLease t.fileId).phase? t.fileId = _
      rw [ReceiveLifecycle.phase?_dropLease]
      rcases hfits with hslot | hslot
      · exact .inl (if_pos ⟨rfl, hslot⟩)
      · have hslot' : (w.lifecycles t.grant.sessionId).phase? t.fileId = some .cancelled := hslot
        rw [hslot']
        exact .inr (if_neg fun h => (by cases h.2))
    -- a spent lease was refused, so its file is cancelled
    | spentLease f =>
      cases hfile
      have hslot : (w.lifecycles t.grant.sessionId).phase? t.fileId = some .cancelled := hfits
      show ((w.lifecycles t.grant.sessionId).dropLease t.fileId).phase? t.fileId = _ ∨
        ((w.lifecycles t.grant.sessionId).dropLease t.fileId).phase? t.fileId = _
      rw [ReceiveLifecycle.phase?_dropLease, hslot]
      exact .inr (if_neg fun h => (by cases h.2))
    -- a permit frees the file it publishes
    | permit f =>
      cases hfile
      have hslot : (w.lifecycles t.grant.sessionId).phase? t.fileId = some .publishing := hfits
      show ((w.lifecycles t.grant.sessionId).dropPermit t.fileId).phase? t.fileId = _ ∨ _
      rw [ReceiveLifecycle.phase?_dropPermit]
      exact .inl (if_pos ⟨rfl, hslot⟩)

/-- A section that drops what the upload holds releases its slot. -/
theorem slotReleased_of_drop (hinv : w.CancelInv sha) (hinv' : w'.CancelInv sha) {u : TaskId}
    {b : UploadAction} {t t' : UploadTask} {l : ReceiveLifecycle} (ht : w.uploads u = some t)
    (live : t.dropped = false) (ht' : w'.uploads u = some t')
    (hmove : UploadMove sha w (some t) b t' l) (heffect : w.UploadEffect u t' l w')
    (hl : l = (w.lifecycles t.grant.sessionId).dropHandle t.handle) :
    w'.SlotReleased t'.grant.sessionId t'.fileId := by
  obtain ⟨hfile, hgrant⟩ := hmove.grant_eq
  have hlife : w'.lifecycles t'.grant.sessionId = l := by
    rw [heffect.lifecycles, Function.update_self]
  have hissued := hinv'.lifecycle.session u t' ht'
  have hslot := slot_of_dropHandle hinv ht live fun _ => hmove.ne_answered
  rw [← hl, ← hlife, ← hfile] at hslot
  rcases hslot with hready | hcancelled
  · refine .inl ⟨hready, fun hc => ?_⟩
    rcases (hinv'.closed _ hc).2 _ _ hready with h | h <;> simp at h
  · exact .inr ⟨hcancelled, hinv'.cancelled _ _ hissued hcancelled⟩

/-- An upload is answered soundly, if it finds its session when it comes to record. -/
theorem answeredSoundly_of_step (hinv : w.OutcomeInv sha) {u : TaskId} {b : UploadAction}
    {t t' : UploadTask} {l : ReceiveLifecycle} {status : StatusCode}
    (hstep : w.step sha (.upload u b) = some w') (hrecords : RecordsInSlot w (.upload u b) w')
    (ht : w.uploads u = some t) (live : t.dropped = false) (ht' : w'.uploads u = some t')
    (hmove : UploadMove sha w (some t) b t' l) (heffect : w.UploadEffect u t' l w')
    (hphase : t'.phase = .answered status) : w'.AnsweredSoundly sha u t' status := by
  have hinv' := outcomeInv_step hinv hstep hrecords
  have hwf := hinv.lifecycle.wf u t ht
  obtain ⟨hfile, hgrant⟩ := hmove.grant_eq
  obtain ⟨hdropped, hbody, hcases⟩ := hmove.answered_cases hwf hphase
  -- whatever this upload has committed, it was answered 200 for
  have hcommitted : ∀ time x f path content,
      (time, .fileCommitted u x f path content) ∈ w'.log →
        status = .ok ∧ x = t'.grant.sessionId ∧ f = t'.fileId ∧ content = t'.body.bytes := by
    intro time x f path content hmem
    obtain ⟨t₀, ht₀, hx, hf, hcontent, hcause⟩ := hinv'.committed time u x f path content hmem
    cases ht'.symm.trans ht₀
    refine ⟨?_, hx, hf, hcontent⟩
    rcases hcause with hd | hp | hp
    · cases (hdropped.trans live).symm.trans hd
    · cases hphase.symm.trans hp
    · cases hphase.symm.trans hp
      rfl
  refine ⟨⟨?_, ?_⟩, hcommitted, ?_⟩
  -- 200 comes from the record, and the record has its session
  · intro hok
    rcases hcases with ⟨_, rfl, path, phase⟩ | ⟨hne, _⟩
    · obtain ⟨time, hmem⟩ := hinv.recording u t path ht phase
      have hcurrent := hrecords u t path rfl ht phase
      have hrecorded := (recorded_of_step hinv.lifecycle hstep ht phase hcurrent).2
      have haccepts := (hwf.body_of phase).2
      rw [hgrant, hfile, hbody]
      exact ⟨time, path, log_mono hstep hmem, haccepts, hrecorded⟩
    · exact absurd hok hne
  -- what is committed was answered 200 for
  · rintro ⟨time, path, hmem, _⟩
    exact (hcommitted _ _ _ _ _ hmem).1
  -- another answer has dropped the handle
  · intro hne
    rcases hcases with ⟨hok, _⟩ | ⟨_, hl, _⟩
    · exact absurd hok hne
    · exact slotReleased_of_drop hinv.toCancelInv hinv'.toCancelInv ht live ht' hmove heffect hl

/-- A step of an upload is sound, if it finds its session when it comes to record. -/
theorem uploadSound_of_recordsInSlot (hinv : w.OutcomeInv sha) (hstep : w.step sha a = some w')
    (hrecords : RecordsInSlot w a w') : UploadSound sha w a w' := by
  rintro u b t t' rfl ht ht'
  rcases uploads_of_step hstep ht with ⟨_, hne⟩ | ⟨c, t₀, l, hc, live, ht₀, hmove, heffect⟩
  · exact absurd rfl (hne b)
  cases hc
  cases ht'.symm.trans ht₀
  have hwf := hinv.lifecycle.wf u t ht
  obtain ⟨hfile, hgrant⟩ := hmove.grant_eq
  refine ⟨?_, slot_of_upload hinv.lifecycle hstep ht ht', ?_, ?_⟩
  -- the slots of all other files are as before
  · intro x g hne
    rw [heffect.lifecycles, Function.update_apply]
    split
    · rename_i hx
      subst hx
      rw [hgrant] at hne
      have hg : g ≠ t'.fileId := by
        rw [hfile]
        exact hne.resolve_left fun h => h rfl
      refine hmove.phase?_of_ne (fun t₁ ht₁ => ?_) hg
      cases ht₁
      exact hwf
    · rfl
  -- the answer, if this step gives one
  · exact fun status hphase =>
      answeredSoundly_of_step hinv hstep hrecords ht live ht' hmove heffect hphase
  -- the check of the hash decides as the offer's hash says
  · rintro ok rfl
    cases hmove with
    | invalid phase hbad =>
      refine ⟨⟨fun h => (by cases h), fun h => absurd h.2 (hbad h.1 hwf.counted)⟩,
        fun _ => ⟨_, rfl⟩⟩
    | valid phase hgood =>
      exact ⟨⟨fun _ => ⟨rfl, hgood hwf.counted⟩, fun _ => rfl⟩, fun h => absurd rfl h⟩

/-- A committed upload that does not find its session is not answered soundly. -/
theorem recordsInSlot_of_uploadSound (hinv : w.OutcomeInv sha) (hstep : w.step sha a = some w')
    (hsound : UploadSound sha w a w') : RecordsInSlot w a w' := by
  rintro u t path rfl ht phase
  rcases uploads_of_step hstep ht with ⟨_, hne⟩ | ⟨c, t', l, hc, live, ht', hmove, _⟩
  · exact absurd rfl (hne .record)
  cases hc
  obtain ⟨status, hphase⟩ := hmove.answered_of_record
  have hanswered := (hsound u .record t t' rfl ht ht').2.2.1 status hphase
  obtain ⟨time, hmem⟩ := hinv.recording u t path ht phase
  obtain ⟨hok, _⟩ := hanswered.committed _ _ _ _ _ (log_mono hstep hmem)
  cases hmove with
  | recorded _ hs hid => exact ⟨_, hs, hid⟩
  | orphaned =>
    cases hphase
    simp at hok

/-! ## Every run -/

/-- While sessions stay for their publishing uploads and uploads win publication in the slot
    only, the slot is stable. -/
theorem stable_step (hstable : w.Stable) (hstep : w.step sha a = some w')
    (hkeeps : KeepsPublishing w a w') (hwins : WinsInSlot w a w') : w'.Stable := by
  intro u t' ht' hpub
  rcases publishing_of_step hstep ht' hpub with ⟨t, ht, hpubt, hgrant, _⟩ |
      ⟨t, rfl, ht, hgrant, hrecv⟩
  · rw [hgrant]
    exact hkeeps u t t' ht hpubt ht' hpub (hstable u t ht hpubt)
  · rw [hgrant]
    obtain ⟨s, hs, hid⟩ := hwins u t rfl ht hrecv
    exact ⟨s, (congrArg Slot.session (slot_of_publish hstep)).trans hs, hid⟩

/-- Every upload of a run is answered soundly exactly when every committed upload finds its
    session in the slot; and that is so when no session leaves the slot while one of its
    uploads is publishing, and uploads win publication only with their session there. -/
theorem upload_outcome (sha : List UInt8 → String) (c : ServerConfig) (as : List Action) :
    ((receiver sha).Always (UploadSound sha) (World.start c) as ↔
      (receiver sha).Always RecordsInSlot (World.start c) as) ∧
    ((receiver sha).Always KeepsPublishing (World.start c) as →
      (receiver sha).Always WinsInSlot (World.start c) as →
      (receiver sha).Always (UploadSound sha) (World.start c) as) := by
  have hiff : (receiver sha).Always (UploadSound sha) (World.start c) as ↔
      (receiver sha).Always RecordsInSlot (World.start c) as := by
    refine (receiver sha).always_iff_of_invariant (OutcomeInv sha) ?_ (outcomeInv_start c)
    intro w a w' hinv hstep
    have hrecords := recordsInSlot_of_uploadSound hinv hstep
    exact ⟨⟨hrecords, uploadSound_of_recordsInSlot hinv hstep⟩,
      fun hsound => outcomeInv_step hinv hstep (hrecords hsound)⟩
  refine ⟨hiff, fun hkeeps hwins => hiff.mpr ?_⟩
  have hboth := TransitionSystem.always_and.mpr ⟨hkeeps, hwins⟩
  refine (receiver sha).always_of_invariant (fun w => w.Stable) ?_ ?_ hboth
  · intro w a w' hstable hstep hC
    refine ⟨stable_step hstable hstep hC.1 hC.2, ?_⟩
    rintro u t path rfl ht phase
    exact hstable u t ht ⟨UploadStep.live (step_upload hstep) ht, .inr ⟨path, phase⟩⟩
  · exact fun _ _ h => (by cases h)

end World

namespace Scenario

/-- A third sender. -/
def carol : IpAddr := .v4 3

/-- An offer of one text message. -/
def message : PrepareUploadRequest where
  info := offer.info
  files := .singleton ⟨"m"⟩ ⟨⟨"m"⟩, "m.txt", 2, "text/plain", none, some "hi", none⟩

/-- Carol withdraws her offer, and Alice's message is accepted. Carol's stale decline takes
    Alice's session out of the slot, and Bob's accepted session gets in and his upload
    streams. Alice's handler delivers her text and clears the slot, without cancelling what
    it finds there: Bob's upload still wins publication and commits its file. -/
def textClear : List Action :=
  [.prepare 0 (.checkPin carol none offer),
    .prepare 0 (.reserve ⟨"carol"⟩ (token "c")),
    .prepare 0 .sendRequest,
    .cancel carol none,
    .prepare 1 (.checkPin alice none message),
    .prepare 1 (.reserve ⟨"alice"⟩ (token "a")),
    .prepare 1 .sendRequest,
    .prepare 1 (.decide (some .accept)),
    .prepare 1 (.clearAwaiting ⟨"text"⟩ (token "t")),
    .prepare 1 .install,
    .prepare 0 (.decide none),
    .prepare 0 (.clearAwaiting ⟨"unused"⟩ (token "u")),
    .prepare 0 .decline,
    .prepare 2 (.checkPin bob none offer),
    .prepare 2 (.reserve ⟨"bob"⟩ (token "b")),
    .prepare 2 .sendRequest,
    .prepare 2 (.decide (some .accept)),
    .prepare 2 (.clearAwaiting ⟨"session"⟩ (token "s")),
    .prepare 2 .install,
    .upload 0 (.begin_ ⟨"session"⟩ ⟨"f"⟩ ⟨"s"⟩),
    .upload 0 (.sinkCreated (.ok ⟨["a.bin"]⟩)),
    .upload 0 (.chunk [0]),
    .prepare 1 .deliverText,
    .upload 0 (.chunkWritten true),
    .upload 0 .reportProgress,
    .upload 0 .streamEnd,
    .upload 0 (.flushed true),
    .upload 0 .publish,
    .upload 0 (.committed (some ⟨["a.bin"]⟩))]

end Scenario

namespace World

/-- A session whose slots tell that it is not publishing has no publishing upload. -/
theorem keepsPublishing_of_quiet (hinv : w.LifecycleInv sha)
    (hquiet : w.state.currentSession.all (fun s => !(w.lifecycles s.id).isPublishing) = true) :
    KeepsPublishing w a w' := by
  rintro u t _ ht hpub _ _ ⟨s, hs, hid⟩
  have hslot := hinv.publishing_of_permit ht (hinv.permit_of_publishing ht hpub)
  have hpublishing := ReceiveLifecycle.isPublishing_iff.mpr ⟨_, hslot⟩
  rw [hs, Option.all_some, hid, hpublishing] at hquiet
  simp at hquiet

/-- Bob's upload is answered 500 for a file it has committed. -/
theorem upload_outcome_session_gone :
    ¬∀ (sha : List UInt8 → String) (c : ServerConfig) (as : List Action),
      (receiver sha).Always KeepsPublishing (World.start c) as →
        (receiver sha).Always (UploadSound sha) (World.start c) as := by
  -- the run, computed: the session leaves the slot between publication and record
  intro h
  have hkeeps : (receiver Scenario.digest).Always KeepsPublishing (World.start Scenario.config)
      (Scenario.textClear ++ [.upload 0 .record]) := by
    have hquiet : (receiver Scenario.digest).Always
        (fun w _ _ => w.state.currentSession.all
          (fun s => !(w.lifecycles s.id).isPublishing) = true)
        (World.start Scenario.config) (Scenario.textClear ++ [.upload 0 .record]) :=
      (receiver Scenario.digest).always_of_allPass
        (fun w _ => w.state.currentSession.all fun s => !(w.lifecycles s.id).isPublishing)
        (fun _ _ _ htest => htest) (by decide)
    refine (receiver Scenario.digest).always_of_invariant (fun w => w.LifecycleInv Scenario.digest)
      ?_ (lifecycleInv_start Scenario.config) hquiet
    intro w a w' hinv hstep hC
    exact ⟨lifecycleInv_step hinv hstep, keepsPublishing_of_quiet hinv hC⟩
  -- its last step answers 500 for a file that was published
  refine (receiver Scenario.digest).not_always_of_test (World.start Scenario.config)
    Scenario.textClear (.upload 0 .record)
    (fun w w' => (w.uploads 0).isSome &&
      (w'.uploads 0).any (fun t => t.phase = .answered .internalServerError) &&
      w'.log.any fun e => match e.2 with
        | .fileCommitted 0 .. => true
        | _ => false)
    (by decide) ?_ (h Scenario.digest Scenario.config _ hkeeps)
  intro w w' _ htest hsound
  simp only [Bool.and_eq_true, Option.any_eq_true, Option.isSome_iff_exists, List.any_eq_true,
    decide_eq_true_eq] at htest
  obtain ⟨⟨⟨t, ht⟩, t', ht', hphase⟩, ⟨time, o⟩, hmem, ho⟩ := htest
  have hanswered := (hsound 0 .record t t' rfl ht ht').2.2.1 _ hphase
  cases o with
  | fileCommitted u x f path content =>
    have hu : u = 0 := by
      rcases u with _ | u
      · rfl
      · simp at ho
    subst hu
    cases (hanswered.committed _ _ _ _ _ hmem).1
  | _ => simp at ho

end World

end LocalSend
