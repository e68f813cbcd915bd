import LocalSend.Server.System
import LocalSend.Spec.SessionCorrect

/-!
# What one step of the receiver can do

Inversion of `World.step`: for each handler an inductive relation with one constructor
for each piece of code between two awaits, carrying the guards under which it runs.
Below them, for each section with branches, one lemma that lists its outcomes, and the
frame of every section: the handlers it leaves alone.

## Key results

- `step_prepare`, `step_upload`: inversion of a handler's step
- `sameTasks_of_step`, `samePrepares_of_uploadStep`: which handlers an action leaves alone
- `reserve_cases`, `clearAwaiting_cases`: the outcomes of the branching sections
-/

namespace LocalSend

namespace World

/-! ## Inversion -/

/-- The steps of prepare handler `h` from `w`. -/
inductive PrepareStep (w : World) (h : TaskId) : PrepareAction → World → Prop
  | checkPin {peer pin request} (fresh : w.prepares h = none) :
    PrepareStep w h (.checkPin peer pin request) (w.checkPin h peer pin request)
  | reserve {t id token} (ht : w.prepares h = some t) (live : t.dropped = false)
    (phase : t.phase = .reserving) (hid : id ∉ w.issued) :
    PrepareStep w h (.reserve id token) (w.reserve h t id token)
  | sendRequest {t} (ht : w.prepares h = some t) (live : t.dropped = false)
    (phase : t.phase = .sending) (ready : w.channel.isReady (.prepare h) = true) :
    PrepareStep w h .sendRequest (w.sendRequest h t)
  | decide {t answer} (ht : w.prepares h = some t) (live : t.dropped = false)
    (phase : t.phase = .deciding) : PrepareStep w h (.decide answer) (w.decide h t answer)
  | clearAwaiting {t d id token} (ht : w.prepares h = some t) (live : t.dropped = false)
    (phase : t.phase = .clearing) (hd : t.decision = some d) (hid : id ∉ w.issued) :
    PrepareStep w h (.clearAwaiting id token) (w.clearAwaiting h t d id token)
  | refuse {t} (ht : w.prepares h = some t) (live : t.dropped = false)
    (phase : t.phase = .refusing) : PrepareStep w h .refuse (w.refuse h t)
  | decline {t} (ht : w.prepares h = some t) (live : t.dropped = false)
    (phase : t.phase = .declining) : PrepareStep w h .decline (w.decline h t)
  | install {t session} (ht : w.prepares h = some t) (live : t.dropped = false)
    (phase : t.phase = .installing session) : PrepareStep w h .install (w.install h t session)
  | deliverText {t text id} (ht : w.prepares h = some t) (live : t.dropped = false)
    (phase : t.phase = .messaging text) (hid : t.accepted = some id) :
    PrepareStep w h .deliverText (w.deliverText h t id text)
  | drop {t} (ht : w.prepares h = some t) (live : t.dropped = false)
    (phase : t.phase.awaits = true) :
    PrepareStep w h .drop (w.dropPrepare h t)

/-- A step of a prepare handler is one of its sections. -/
theorem step_prepare {sha : List UInt8 → String} {w w' : World} {h : TaskId} {a : PrepareAction}
    (hstep : w.step sha (.prepare h a) = some w') : PrepareStep w h a w' := by
  simp only [step] at hstep
  -- only a check of the PIN creates a task, and a task is checked once
  cases ht : w.prepares h with
  | none =>
    cases a <;> simp only [ht, Option.some.injEq, reduceCtorEq] at hstep
    subst hstep
    exact .checkPin ht
  | some t =>
    -- what is dropped takes no more steps
    simp only [ht, Option.ite_none_left_eq_some, Bool.not_eq_true] at hstep
    obtain ⟨hlive, hstep⟩ := hstep
    cases a with
    | checkPin => cases hstep
    | reserve id token =>
      simp only [prepareStep, Option.ite_none_right_eq_some, Option.some.injEq] at hstep
      obtain ⟨⟨hphase, hid⟩, rfl⟩ := hstep
      exact .reserve ht hlive hphase hid
    | sendRequest =>
      simp only [prepareStep, Option.ite_none_right_eq_some, Option.some.injEq] at hstep
      obtain ⟨⟨hphase, hready⟩, rfl⟩ := hstep
      exact .sendRequest ht hlive hphase hready
    | decide answer =>
      simp only [prepareStep, Option.ite_none_right_eq_some, Option.some.injEq] at hstep
      obtain ⟨hphase, rfl⟩ := hstep
      exact .decide ht hlive hphase
    -- the section needs a decision and a fresh id
    | clearAwaiting id token =>
      simp only [prepareStep] at hstep
      split at hstep
      · simp only [Option.ite_none_right_eq_some, Option.some.injEq] at hstep
        obtain ⟨⟨hphase, hid⟩, rfl⟩ := hstep
        exact .clearAwaiting ht hlive hphase (by assumption) hid
      · simp at hstep
    | refuse =>
      simp only [prepareStep, Option.ite_none_right_eq_some, Option.some.injEq] at hstep
      obtain ⟨hphase, rfl⟩ := hstep
      exact .refuse ht hlive hphase
    | decline =>
      simp only [prepareStep, Option.ite_none_right_eq_some, Option.some.injEq] at hstep
      obtain ⟨hphase, rfl⟩ := hstep
      exact .decline ht hlive hphase
    | install =>
      simp only [prepareStep] at hstep
      split at hstep
      · cases hstep; exact .install ht hlive (by assumption)
      · simp at hstep
    | deliverText =>
      simp only [prepareStep] at hstep
      split at hstep
      · cases hstep; exact .deliverText ht hlive (by assumption) (by assumption)
      · simp at hstep
    | drop =>
      simp only [prepareStep, Option.ite_none_right_eq_some, Option.some.injEq] at hstep
      obtain ⟨hphase, rfl⟩ := hstep
      exact .drop ht hlive hphase

/-- A dropped handler makes no step. -/
theorem PrepareStep.live {w w' : World} {h : TaskId} {a : PrepareAction} {t : PrepareTask}
    (hstep : PrepareStep w h a w') (ht : w.prepares h = some t) : t.dropped = false := by
  cases hstep with
  | checkPin fresh => cases ht.symm.trans fresh
  | reserve ht' live | sendRequest ht' live | decide ht' live | clearAwaiting ht' live
  | refuse ht' live | decline ht' live | install ht' live | deliverText ht' live
  | drop ht' live =>
    cases ht.symm.trans ht'
    exact live

/-- The steps of upload handler `u` from `w`. -/
inductive UploadStep (sha : List UInt8 → String) (w : World) (u : TaskId) :
    UploadAction → World → Prop
  | begin_ {sessionId fileId token} (fresh : w.uploads u = none) :
    UploadStep sha w u (.begin_ sessionId fileId token) (w.beginUpload u sessionId fileId token)
  | sinkCreated {t result} (ht : w.uploads u = some t) (live : t.dropped = false)
    (phase : t.phase = .creating) :
    UploadStep sha w u (.sinkCreated result) (w.sinkCreated u t result)
  | chunk {t bytes} (ht : w.uploads u = some t) (live : t.dropped = false)
    (phase : t.phase = .streaming) : UploadStep sha w u (.chunk bytes) (w.receiveChunk u t bytes)
  | streamError {t} (ht : w.uploads u = some t) (live : t.dropped = false)
    (phase : t.phase = .streaming) :
    UploadStep sha w u .streamError
      (w.setUpload u { t with phase := .rejecting t.body.reported .internalServerError true })
  | streamEnd {t} (ht : w.uploads u = some t) (live : t.dropped = false)
    (phase : t.phase = .streaming) :
    UploadStep sha w u .streamEnd (w.setUpload u { t with phase := .flushing })
  | chunkWritten {t chunk ok} (ht : w.uploads u = some t) (live : t.dropped = false)
    (phase : t.phase = .writing chunk) :
    UploadStep sha w u (.chunkWritten ok) (w.chunkWritten u t chunk ok)
  | reportProgress {t} (ht : w.uploads u = some t) (live : t.dropped = false)
    (phase : t.phase = .reporting) : UploadStep sha w u .reportProgress (w.reportProgress u t)
  | flushed {t ok} (ht : w.uploads u = some t) (live : t.dropped = false)
    (phase : t.phase = .flushing) :
    UploadStep sha w u (.flushed ok) (bodyFlushed sha w u t ok)
  | interrupt {t} (ht : w.uploads u = some t) (live : t.dropped = false)
    (phase : t.phase.inBody = true) (awaits : t.awaits = true)
    (fired : (w.lifecycles t.grant.sessionId).fired t.fileId = true) :
    UploadStep sha w u .interrupt (w.interruptBody u t)
  | reject {t amount status abort} (ht : w.uploads u = some t) (live : t.dropped = false)
    (phase : t.phase = .rejecting amount status abort) :
    UploadStep sha w u .reject (w.rejectUpload u t amount status abort)
  | aborted {t status} (ht : w.uploads u = some t) (live : t.dropped = false)
    (phase : t.phase = .aborting status) :
    UploadStep sha w u .aborted (w.answerUpload u t status)
  | publish {t} (ht : w.uploads u = some t) (live : t.dropped = false)
    (phase : t.phase = .validated) : UploadStep sha w u .publish (w.publish u t)
  | surrender {t} (ht : w.uploads u = some t) (live : t.dropped = false)
    (phase : t.phase = .surrendering) : UploadStep sha w u .surrender (w.surrender u t)
  | committed {t result} (ht : w.uploads u = some t) (live : t.dropped = false)
    (phase : t.phase = .committing) :
    UploadStep sha w u (.committed result) (w.committed u t result)
  | record {t path} (ht : w.uploads u = some t) (live : t.dropped = false)
    (phase : t.phase = .recording path) : UploadStep sha w u .record (w.record u t path)
  | drop {t} (ht : w.uploads u = some t) (live : t.dropped = false) (awaits : t.awaits = true) :
    UploadStep sha w u .drop (w.dropUpload u t)

/-- A step of an upload handler is one of its sections. -/
theorem step_upload {sha : List UInt8 → String} {w w' : World} {u : TaskId} {a : UploadAction}
    (hstep : w.step sha (.upload u a) = some w') : UploadStep sha w u a w' := by
  simp only [step] at hstep
  -- only a lease creates a task
  cases ht : w.uploads u with
  | none =>
    cases a <;> simp only [ht, Option.some.injEq, reduceCtorEq] at hstep
    subst hstep
    exact .begin_ ht
  | some t =>
    simp only [ht, Option.ite_none_left_eq_some, Bool.not_eq_true] at hstep
    obtain ⟨hlive, hstep⟩ := hstep
    cases a with
    | begin_ => cases hstep
    | interrupt =>
      simp only [uploadStep, Option.ite_none_right_eq_some, Option.some.injEq] at hstep
      obtain ⟨⟨hphase, hawaits, hfired⟩, rfl⟩ := hstep
      exact .interrupt ht hlive hphase hawaits hfired
    | chunkWritten ok =>
      simp only [uploadStep] at hstep
      split at hstep
      · cases hstep; exact .chunkWritten ht hlive (by assumption)
      · simp at hstep
    | reject =>
      simp only [uploadStep] at hstep
      split at hstep
      · cases hstep; exact .reject ht hlive (by assumption)
      · simp at hstep
    | aborted =>
      simp only [uploadStep] at hstep
      split at hstep
      · cases hstep; exact .aborted ht hlive (by assumption)
      · simp at hstep
    | record =>
      simp only [uploadStep] at hstep
      split at hstep
      · cases hstep; exact .record ht hlive (by assumption)
      · simp at hstep
    -- the other sections ask for a phase of their own and nothing else
    | _ =>
      simp only [uploadStep, Option.ite_none_right_eq_some, Option.some.injEq] at hstep
      obtain ⟨hphase, rfl⟩ := hstep
      constructor <;> assumption

/-! ## Frames -/

/-- The handlers and the issued ids are the same in both worlds, no guard has spawned its
    release task in between, no withdraw token has been taken back, nor the clock. -/
structure SameTasks (w w' : World) : Prop where
  prepares : w'.prepares = w.prepares
  uploads : w'.uploads = w.uploads
  issued : w'.issued = w.issued
  releases : w'.releases ⊆ w.releases
  withdrawn : w.withdrawn ⊆ w'.withdrawn
  now : w.now ≤ w'.now

/-- What leaves the tasks and the clock as they are is no step of a task. -/
theorem SameTasks.of_eq {w w' : World} (hprepares : w'.prepares = w.prepares)
    (huploads : w'.uploads = w.uploads) (hissued : w'.issued = w.issued)
    (hreleases : w'.releases = w.releases) (hwithdrawn : w'.withdrawn = w.withdrawn)
    (hnow : w'.now = w.now) : SameTasks w w' :=
  ⟨hprepares, huploads, hissued, hreleases ▸ List.Subset.refl _, hwithdrawn ▸ List.Subset.refl _,
    hnow ▸ Nat.le_refl _⟩

/-- Nor is nothing. -/
theorem SameTasks.refl (w : World) : SameTasks w w := .of_eq rfl rfl rfl rfl rfl rfl

/-- Two steps that leave the tasks alone, one after the other. -/
theorem SameTasks.trans {w w' w'' : World} (h : SameTasks w w') (h' : SameTasks w' w'') :
    SameTasks w w'' where
  prepares := h'.prepares.trans h.prepares
  uploads := h'.uploads.trans h.uploads
  issued := h'.issued.trans h.issued
  releases := List.Subset.trans h'.releases h.releases
  withdrawn := List.Subset.trans h.withdrawn h'.withdrawn
  now := Nat.le_trans h.now h'.now

/-- An unwinding makes no step of a task. -/
theorem sameTasks_unwind (w : World) : SameTasks w w.unwind := by
  unfold unwind
  split <;> exact .of_eq rfl rfl rfl rfl rfl rfl

/-- The end of a reservation makes no step of a task. -/
theorem sameTasks_clearReservation (w : World) (t : PrepareTask) :
    SameTasks w (w.clearReservation t) := by
  unfold clearReservation
  split <;> exact .of_eq rfl rfl rfl rfl rfl rfl

/-- Clearing the slot makes no step of a task. -/
theorem sameTasks_tryClearSlot (w : World) (session : Session) :
    SameTasks w (w.tryClearSlot session).2 := by
  unfold tryClearSlot
  dsimp only
  split <;> exact .of_eq rfl rfl rfl rfl rfl rfl

/-- The release task makes no step of another. -/
theorem sameTasks_releaseReservation (w : World) (reserved : SessionId) :
    SameTasks w (w.releaseReservation reserved) := by
  unfold releaseReservation
  dsimp only
  repeat' split
  all_goals exact .of_eq rfl rfl rfl rfl rfl rfl

/-- A `/cancel` makes no step of a task. -/
theorem sameTasks_handleCancel (w : World) (peer : IpAddr) (sessionId : Option SessionId) :
    SameTasks w (w.handleCancel peer sessionId).2 := by
  unfold handleCancel
  dsimp only
  repeat' split
  all_goals first
    | exact .of_eq rfl rfl rfl rfl rfl rfl
    | exact ⟨rfl, rfl, rfl, List.Subset.refl _, List.subset_cons_self .., Nat.le_refl _⟩

/-- The sweep makes no step of a task. -/
theorem sameTasks_sessionSweep (w : World) : SameTasks w w.sessionSweep := by
  have hstandard : SameTasks w w.sweepStandard := by
    unfold sweepStandard
    dsimp only
    split
    · exact .refl w
    · rename_i s _
      have h := sameTasks_tryClearSlot w s
      split
      · split
        · exact h.trans (.of_eq rfl rfl rfl rfl rfl rfl)
        · exact h
      · exact .refl w
  refine hstandard.trans ?_
  unfold sessionSweep sweepCrosscopy
  split <;> exact .of_eq rfl rfl rfl rfl rfl rfl

/-- Stopping the protected uploads makes no step of a task. -/
theorem sameTasks_stopCrosscopy (w : World) : SameTasks w w.stopCrosscopy := by
  unfold stopCrosscopy
  dsimp only
  repeat' split
  all_goals exact .of_eq rfl rfl rfl rfl rfl rfl

/-- `stop` makes no step of a task. -/
theorem sameTasks_stop (w : World) : SameTasks w w.stop := by
  unfold stop
  dsimp only
  have hmark : SameTasks w { w with state.crosscopyAuthorizedStopping := true } :=
    .of_eq rfl rfl rfl rfl rfl rfl
  split
  · exact hmark.trans (sameTasks_stopCrosscopy _)
  · exact (hmark.trans (sameTasks_tryClearSlot _ _)).trans (sameTasks_stopCrosscopy _)

/-- The installation of a protected session makes no step of a standard task. -/
theorem sameTasks_installCrosscopy (w : World) (session : CrossCopyAuthorizedSession) :
    SameTasks w (w.installCrosscopy session) := by
  unfold installCrosscopy
  split <;> exact .of_eq rfl rfl rfl rfl rfl rfl

/-- Nor does the end of one. -/
theorem sameTasks_finishCrosscopy (w : World) (sessionId : SessionId) :
    SameTasks w (w.finishCrosscopy sessionId) := by
  unfold finishCrosscopy
  split <;> exact .of_eq rfl rfl rfl rfl rfl rfl

/-- What the surroundings do is no step of a task, but it may take time. -/
theorem sameTasks_envStep (w : World) (a : EnvAction) : SameTasks w (w.envStep a) := by
  cases a with
  | tick d => exact ⟨rfl, rfl, rfl, List.Subset.refl _, List.Subset.refl _, Nat.le_add_right _ d⟩
  | _ => exact .of_eq rfl rfl rfl rfl rfl rfl

/-- An action of neither a prepare nor an upload leaves every handler alone. -/
theorem sameTasks_of_step {sha : List UInt8 → String} {w w' : World} {a : Action}
    (hstep : w.step sha a = some w') (hp : ∀ h b, a ≠ .prepare h b) (hu : ∀ u b, a ≠ .upload u b) :
    SameTasks w w' := by
  -- the other actions touch no task; each by the lemma of its handler
  cases a with
  | prepare h b => exact absurd rfl (hp h b)
  | upload u b => exact absurd rfl (hu u b)
  | release reserved =>
    simp only [step, Option.ite_none_right_eq_some, Option.some.injEq] at hstep
    obtain ⟨_, rfl⟩ := hstep
    have herase : SameTasks w { w with releases := w.releases.erase reserved } :=
      ⟨rfl, rfl, rfl, List.erase_subset, List.Subset.refl _, Nat.le_refl _⟩
    exact herase.trans (sameTasks_releaseReservation _ reserved)
  | cancel peer sessionId => cases hstep; exact sameTasks_handleCancel w peer sessionId
  | sweep => cases hstep; exact sameTasks_sessionSweep w
  | stop => cases hstep; exact sameTasks_stop w
  | installCrosscopy session => cases hstep; exact sameTasks_installCrosscopy w session
  | finishCrosscopy sessionId => cases hstep; exact sameTasks_finishCrosscopy w sessionId
  | env b => cases hstep; exact sameTasks_envStep w b

/-- What the uploads never touch: the prepares, the issued ids, the reservations and the
    clock. -/
structure SamePrepares (w w' : World) : Prop where
  prepares : w'.prepares = w.prepares
  issued : w'.issued = w.issued
  releases : w'.releases = w.releases
  withdrawn : w'.withdrawn = w.withdrawn
  now : w'.now = w.now

/-- An upload leaves the prepares and the reservations alone. -/
theorem samePrepares_of_uploadStep {sha : List UInt8 → String} {w w' : World} {u : TaskId}
    {a : UploadAction} (hstep : UploadStep sha w u a w') : SamePrepares w w' := by
  cases hstep with
  | begin_ =>
    unfold beginUpload
    dsimp only
    repeat' split
    all_goals exact ⟨rfl, rfl, rfl, rfl, rfl⟩
  | @sinkCreated t result =>
    rcases result with (_ | _) | _ <;> exact ⟨rfl, rfl, rfl, rfl, rfl⟩
  | @chunkWritten t chunk ok =>
    cases ok <;> exact ⟨rfl, rfl, rfl, rfl, rfl⟩
  | flushed =>
    unfold bodyFlushed
    dsimp only
    repeat' split
    all_goals exact ⟨rfl, rfl, rfl, rfl, rfl⟩
  | @reject t amount status abort =>
    cases abort <;> exact ⟨rfl, rfl, rfl, rfl, rfl⟩
  | publish =>
    unfold publish
    split <;> exact ⟨rfl, rfl, rfl, rfl, rfl⟩
  | @committed t result =>
    cases result <;> exact ⟨rfl, rfl, rfl, rfl, rfl⟩
  | record =>
    unfold record
    dsimp only
    repeat' split
    all_goals exact ⟨rfl, rfl, rfl, rfl, rfl⟩
  | _ => exact ⟨rfl, rfl, rfl, rfl, rfl⟩

/-! ## Outcomes of the branching sections -/

/-- A refused cancellation leaves the world as it was. -/
theorem tryCancelReceives_of_false {w : World} {s : SessionId}
    (h : (w.lifecycles s).tryCancelReceives.1 = false) : (w.tryCancelReceives s).2 = w := by
  obtain ⟨f, hf⟩ := ReceiveLifecycle.tryCancelReceives_fst_eq_false.mp h
  simp only [tryCancelReceives, ReceiveLifecycle.tryCancelReceives_of_publishing hf, setLifecycle,
    Function.update_eq_self]
  rfl

/-- The world after `try_cancel_receives` succeeded on the installed session and the
    slot was cleared. -/
def clearSlot (w : World) (session : Session) : World :=
  { (w.tryCancelReceives session.id).2 with state.currentSession := none }

/-- `tryClearSlot` clears the slot or changes nothing. -/
theorem tryClearSlot_cases (w : World) (session : Session) :
    ((w.lifecycles session.id).tryCancelReceives.1 = true ∧
        w.tryClearSlot session = (true, w.clearSlot session)) ∨
      ((w.lifecycles session.id).tryCancelReceives.1 = false ∧
        w.tryClearSlot session = (false, w)) := by
  have hfst : (w.tryCancelReceives session.id).1 =
      (w.lifecycles session.id).tryCancelReceives.1 := rfl
  cases hc : (w.lifecycles session.id).tryCancelReceives.1 with
  | true =>
    refine .inl ⟨rfl, ?_⟩
    simp only [tryClearSlot, hfst, hc, if_true, clearSlot]
  | false =>
    refine .inr ⟨rfl, ?_⟩
    simp only [tryClearSlot, hfst, hc, Bool.false_eq_true, if_false, tryCancelReceives_of_false hc]

/-- A reservation is refused by the session in the slot, or placed: on a free slot, or
    over a timed-out session whose receives it could cancel. -/
theorem reserve_cases (w : World) (h : TaskId) (t : PrepareTask) (id : SessionId)
    (token : FileId → Token) :
    (∃ s, w.state.currentSession = some s ∧ (s.isTimedOut w.now w.state.sessionTimeout = true →
        (w.lifecycles s.id).tryCancelReceives.1 = false) ∧
      w.reserve h t id token = w.answerPrepare h t .conflict none) ∨
    (w.state.currentSession = none ∧
      w.reserve h t id token = w.placeReservation h t id token) ∨
    (∃ s, w.state.currentSession = some s ∧ s.isTimedOut w.now w.state.sessionTimeout = true ∧
      (w.lifecycles s.id).tryCancelReceives.1 = true ∧
      w.reserve h t id token =
        ((w.clearSlot s).observe (.sessionReclaimed s.id)).placeReservation h t id token) := by
  unfold reserve
  cases hcur : w.state.currentSession with
  -- a free slot
  | none => exact .inr (.inl ⟨rfl, rfl⟩)
  | some s =>
    dsimp only
    split
    -- an idle session is cleared, unless one of its files is publishing
    · rename_i htimed
      rcases tryClearSlot_cases w s with ⟨hc, heq⟩ | ⟨hc, heq⟩
      · refine .inr (.inr ⟨s, rfl, htimed, hc, ?_⟩)
        simp only [heq, if_true]
      · refine .inl ⟨s, rfl, fun _ => hc, ?_⟩
        simp only [heq, Bool.false_eq_true, if_false]
    -- a session that is not idle stays
    · rename_i hfresh
      exact .inl ⟨s, rfl, fun htimed => absurd htimed hfresh, rfl⟩

/-- After the decision a prepare goes to one of its two unwinding paths, or builds the
    session of the accepted files. -/
theorem clearAwaiting_cases (w : World) (h : TaskId) (t : PrepareTask) (d : TransferDecision)
    (id : SessionId) (token : FileId → Token) :
    (∃ reason, d = .refuse reason ∧
      w.clearAwaiting h t d id token =
        (w.clearReservation t).setPrepare h { t with phase := .refusing }) ∨
    ((∀ reason, d ≠ .refuse reason) ∧ t.request.acceptedIds d = [] ∧
      w.clearAwaiting h t d id token =
        (w.clearReservation t).setPrepare h { t with phase := .declining }) ∨
    (t.request.acceptedIds d ≠ [] ∧
      w.clearAwaiting h t d id token =
        ((w.clearReservation t).allocate id
          (t.request.acceptedFiles (t.request.acceptedIds d))).setPrepare h
            { t with
              accepted := some id
              phase := .installing (Session.new t.request.info.deviceAlias
                (t.request.acceptedFiles (t.request.acceptedIds d)) id token w.now) }) := by
  -- that the reservation no longer awaits consent takes no time
  have hnow : (w.clearReservation t).now = w.now := by
    unfold clearReservation
    split <;> rfl
  unfold clearAwaiting
  dsimp only
  split
  · exact .inl ⟨_, rfl, rfl⟩
  · rename_i hne
    split
    · rename_i hempty
      exact .inr (.inl ⟨fun reason => hne reason, by simpa using hempty, rfl⟩)
    · rename_i hempty
      refine .inr (.inr ⟨by simpa using hempty, ?_⟩)
      rw [hnow]

end World

end LocalSend
