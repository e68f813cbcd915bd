import LocalSend.Spec.UploadOutcome

/-!
# What an answer of the receiver tells

Every status that a prepare or an upload is answered with has its own reason. A client sees the
status only, so the reasons are invariants of the answered handlers.

## Key results

- `cause_of_step`: the reason of an answer to a prepare, in the step that gives it
- `occupied_of_conflict`, `passed_of_acknowledged`: what the receiver was like in that step
- `uploadAnswered_of_step`: an answer to an upload is that of its handler
- `answerInv_of_reachable`: the reasons hold in every state
-/

namespace LocalSend

/-- Why a prepare is answered with a status. -/
def PrepareTask.Cause (t : PrepareTask) : StatusCode → Prop
  | .unauthorized => t.verdict = .unauthorized ∧ t.reserved = none
  | .tooManyRequests => t.verdict = .lockedOut ∧ t.reserved = none
  | .noContent =>
    t.Admitted ∧ (t.request.files.isEmpty = true ∨
      (t.Granted ∧ t.request.messageText.isSome = true))
  | .conflict => t.Admitted ∧ t.reserved = none
  | .badRequest => ∃ reason, t.decision = some (.refuse reason)
  | .forbidden => ∃ d, t.decision = some d ∧ t.request.acceptedIds d = []
  | .ok => t.Granted ∧ t.request.messageText = none
  | .notFound | .internalServerError | .serviceUnavailable => False

/-- The request of a prepare stays what it is. -/
theorem PrepareMove.request_eq {w : World} {t t' : PrepareTask} {a : PrepareAction}
    (hmove : PrepareMove w (some t) a t') : t'.request = t.request := by
  cases hmove with
  | reserved =>
    unfold PrepareTask.reservedAs
    split <;> rfl
  | _ => rfl

/-- The status that an upload is answered with, or is to be. -/
def UploadPhase.status? : UploadPhase → Option StatusCode
  | .rejecting _ status _ | .aborting status | .answered status => some status
  | _ => none

/-- No move comes to 204. -/
theorem UploadMove.status_ne {sha : List UInt8 → String} {w : World} {old : Option UploadTask}
    {b : UploadAction} {t' : UploadTask} {l : ReceiveLifecycle}
    (hmove : UploadMove sha w old b t' l)
    (hold : ∀ t, old = some t → t.phase.status? ≠ some .noContent) :
    t'.phase.status? ≠ some .noContent := by
  cases hmove with
  | notCreated _ hs => rcases hs with rfl | rfl <;> simp [UploadPhase.status?]
  | @rejected t amount status phase | @gaveUp t amount status phase | @aborted t status phase =>
    have hstatus := hold t rfl
    rw [phase] at hstatus
    exact hstatus
  | @dropped t => exact hold t rfl
  | _ => simp [UploadPhase.status?]

namespace World

variable {sha : List UInt8 → String} {w w' : World} {a : Action}

/-- An answer to a prepare has its reason. -/
theorem cause_of_step (hinv : w.PrepareInv) (hstep : w.step sha a = some w') {h : TaskId}
    {t' : PrepareTask} (ht' : w'.prepares h = some t') (hnew : w.prepares h ≠ some t')
    {status : StatusCode} {body : Option PrepareUploadResponse}
    (hphase : t'.phase = .answered status body) : t'.Cause status := by
  rcases prepares_before hstep ht' with hold | ⟨b, rfl, hmove, heffect⟩
  · exact absurd hold hnew
  -- the section that answers is the one whose move ends the handler
  have hsection := step_prepare hstep
  generalize hold : w.prepares h = old at hmove
  have hwf : ∀ t, old = some t → t.Wf := fun t ht => hinv.wf h t (hold.trans ht)
  cases hmove with
  | @refusedPin peer pin request verdict status' hv hs =>
    -- the verdict of the gate decides between the two
    cases hphase
    cases hsection with
    | checkPin fresh =>
      have hself : (w.checkPin h peer pin request).prepares h = some _ := ht'
      revert hself
      unfold checkPin
      dsimp only
      cases hverdict : (w.state.pinGate.check w.now pin peer).1 with
      | unauthorized =>
        intro hself
        cases (Function.update_self ..).symm.trans hself
        exact ⟨rfl, rfl⟩
      | lockedOut =>
        intro hself
        cases (Function.update_self ..).symm.trans hself
        exact ⟨rfl, rfl⟩
      | ok cleared =>
        dsimp only
        intro hself
        split at hself
        · cases (Function.update_self ..).symm.trans hself
          exact absurd rfl (hv cleared)
        · cases (Function.update_self ..).symm.trans hself
  | emptyOffer hempty =>
    cases hphase
    exact ⟨⟨_, rfl⟩, .inl hempty⟩
  | @conflict t id token phase =>
    cases hphase
    -- what the handler was at this phase is what its answer says
    have hfits := hwf t rfl
    simp only [PrepareTask.Wf, phase] at hfits
    exact ⟨hfits.1, hfits.2.1⟩
  | @refused t phase =>
    cases hphase
    have hfits := hwf t rfl
    simp only [PrepareTask.Wf, phase] at hfits
    exact hfits.2.2
  | @declined t phase =>
    cases hphase
    have hfits := hwf t rfl
    simp only [PrepareTask.Wf, phase] at hfits
    exact hfits.2.2
  | @installed t s phase htext =>
    cases hphase
    have hfits := hwf t rfl
    simp only [PrepareTask.Wf, phase] at hfits
    exact ⟨hfits.1, htext⟩
  | @delivered t text id phase =>
    cases hphase
    have hfits := hwf t rfl
    simp only [PrepareTask.Wf, phase] at hfits
    exact ⟨hfits.1.1, .inr ⟨hfits.1, by rw [hfits.2.2]; rfl⟩⟩
  -- a dropped handler has not answered
  | dropped awaits =>
    have hphase : _ = PreparePhase.answered status body := hphase
    rw [hphase] at awaits
    cases awaits
  -- a placed reservation is not an answer
  | @reserved t id token =>
    unfold PrepareTask.reservedAs at hphase
    split at hphase <;> simp at hphase
  | _ => simp at hphase

/-- The slot is taken by a session that may not be reclaimed: it has not been idle for too long, or
    one of its files is being published. -/
def Occupied (w : World) : Prop :=
  ∃ s, w.state.currentSession = some s ∧ (s.isTimedOut w.now w.state.sessionTimeout = true →
    (w.lifecycles s.id).tryCancelReceives.1 = false)

/-- A message is acknowledged by the section that delivers its text, which gets into the channel if
    there is room. -/
theorem passed_of_acknowledged (hinv : w.PrepareInv) (hstep : w.step sha a = some w') {h : TaskId}
    {t' : PrepareTask} (ht' : w'.prepares h = some t') (hnew : w.prepares h ≠ some t')
    {body : Option PrepareUploadResponse} (hphase : t'.phase = .answered .noContent body)
    {x : SessionId} (hx : t'.accepted = some x) {text : String}
    (htext : t'.request.messageText = some text) :
    a = .prepare h .deliverText ∧ (w.channel.hasRoom = true →
      .textReceived x text t'.request.info.deviceAlias ∈ w'.channel.passed) := by
  rcases prepares_before hstep ht' with hold | ⟨b, rfl, hmove, -⟩
  · exact absurd hold hnew
  have hsection := step_prepare hstep
  generalize hold : w.prepares h = old at hmove
  cases hmove with
  | @delivered t text id phase hid =>
    have hfits := hinv.wf h t hold
    simp only [PrepareTask.Wf, phase] at hfits
    cases hid.symm.trans hx
    cases hfits.2.2.symm.trans htext
    refine ⟨rfl, fun hroom => ?_⟩
    -- both texts are emitted in the section that answers
    cases hsection with
    | @deliverText t₀ text₀ id₀ ht₀ _ phase₀ hid₀ =>
      cases hold.symm.trans ht₀
      cases phase.symm.trans phase₀
      cases hid.symm.trans hid₀
      exact (BoundedChannel.passed_prefix_trySend ..).mem
        (BoundedChannel.mem_passed_trySend hroom _)
  -- a dropped handler has not answered
  | dropped awaits =>
    have hphase : _ = PreparePhase.answered .noContent body := hphase
    rw [hphase] at awaits
    cases awaits
  | @reserved t id token =>
    unfold PrepareTask.reservedAs at hphase
    split at hphase <;> simp at hphase
  | _ => simp at hx hphase

/-- An upload is answered by its handler, or refused before there is one. -/
def AnsweredIn (w : World) (u : TaskId) (status : StatusCode) : Prop :=
  (w.uploads u = none ∧ status ≠ .ok ∧ status ≠ .noContent) ∨
    ∃ t, w.uploads u = some t ∧ t.phase = .answered status

/-- What answering an upload adds to the log, and what it makes of the handler. -/
theorem mem_log_answerUpload {v : World} {u : TaskId} {t : UploadTask} {status status' : StatusCode}
    {time : Nat} (h : (time, .uploadAnswered u status) ∈ (v.answerUpload u t status').log) :
    (time, .uploadAnswered u status) ∈ v.log ∨
      (v.answerUpload u t status').AnsweredIn u status := by
  have h : (time, Observation.uploadAnswered u status) ∈ v.log ++
      [(v.now, .uploadAnswered u status')] := h
  rw [List.mem_append, List.mem_singleton] at h
  rcases h with h | h
  · exact .inl h
  · cases h
    exact .inr (.inr ⟨_, Function.update_self .., rfl⟩)

/-- An event is no answer. -/
theorem mem_log_trySend {v : World} {e : ServerEvent} {u : TaskId} {status : StatusCode}
    {time : Nat} :
    (time, .uploadAnswered u status) ∈ (v.trySend e).log ↔
      (time, .uploadAnswered u status) ∈ v.log := by
  show _ ∈ v.log ++ [(v.now, .emitted e)] ↔ _
  simp

theorem answered_beginUpload {u : TaskId} {sid : SessionId} {f : FileId} {token : Token}
    (fresh : w.uploads u = none) {time : Nat} {status : StatusCode}
    (h : (time, .uploadAnswered u status) ∈ (w.beginUpload u sid f token).log) :
    (time, .uploadAnswered u status) ∈ w.log ∨
      (w.beginUpload u sid f token).AnsweredIn u status := by
  -- every answer of this section is an error, and leaves no handler
  have hfail : ∀ v : World, v.uploads u = none → ∀ status', status' ≠ .ok ∧ status' ≠ .noContent →
      (time, Observation.uploadAnswered u status) ∈ (v.observe (.uploadAnswered u status')).log →
      (time, .uploadAnswered u status) ∈ v.log ∨
        (v.observe (.uploadAnswered u status')).AnsweredIn u status := by
    intro v hv status' hne h
    have h : (time, Observation.uploadAnswered u status) ∈ v.log ++
        [(v.now, .uploadAnswered u status')] := h
    rw [List.mem_append, List.mem_singleton] at h
    rcases h with h | h
    · exact .inl h
    · cases h
      exact .inr (.inl ⟨hv, hne⟩)
  revert h
  unfold beginUpload
  split
  · dsimp only
    split
    · rename_i session _ _
      intro h
      let v : World := { w with state.crosscopyAuthorizedSession := none }
      rcases hfail (v.observe (.ownerCancelled session.owner)) fresh .forbidden (by decide) h with h | h
      · have h : (time, Observation.uploadAnswered u status) ∈
          w.log ++ [(w.now, .ownerCancelled session.owner)] := h
        rw [List.mem_append] at h
        exact .inl (h.resolve_right (by simp))
      · exact .inr h
    · exact .inl
  · split
    · exact hfail w fresh _ (by decide)
    · split
      · exact hfail w fresh _ (by decide)
      · split
        · exact hfail w fresh _ (by decide)
        · split
          · exact hfail w fresh _ (by decide)
          · split
            · exact hfail w fresh _ (by decide)
            · intro h
              have h : (time, Observation.uploadAnswered u status) ∈ w.log ++
                  [(w.now, .sinkCreate ..)] := h
              simp only [List.mem_append, List.mem_singleton, Prod.mk.injEq, reduceCtorEq,
                and_false, or_false] at h
              exact .inl h

/-- An answer to an upload is that of its handler, or the handler has not even begun. -/
theorem uploadAnswered_of_step (hstep : w.step sha a = some w') {time : Nat} {u : TaskId}
    {status : StatusCode} (hmem : (time, .uploadAnswered u status) ∈ w'.log) :
    (time, .uploadAnswered u status) ∈ w.log ∨
      ((∃ b, a = .upload u b) ∧ w'.AnsweredIn u status) := by
  rcases observed_of_step hstep hmem with hold | ⟨_, hcause⟩
  · exact .inl hold
  cases hcause with
  | routine h => exact h.elim
  | @answered _ b =>
    refine Or.imp id (fun h => ⟨⟨b, rfl⟩, h⟩) ?_
    cases step_upload hstep with
    -- every section logs at most one answer, and it ends the handler
    | begin_ fresh => exact answered_beginUpload fresh hmem
    | @sinkCreated t result =>
      -- only a failure of the sink is answered here
      rcases result with (reason | reason) | path
      · exact mem_log_answerUpload hmem
      · exact mem_log_answerUpload hmem
      · exact .inl hmem
    | @chunkWritten t chunk ok =>
      cases ok with
      | true =>
        have hmem : (time, Observation.uploadAnswered u status) ∈
          w.log ++ [(w.now, .chunkWritten t.grant.sessionId t.fileId)] := hmem
        simp only [List.mem_append, List.mem_singleton, Prod.mk.injEq, reduceCtorEq, and_false,
          or_false] at hmem
        exact .inl hmem
      | false => exact .inl hmem
    | @reportProgress t => exact .inl (mem_log_trySend.mp hmem)
    | @flushed t ok =>
      rcases bodyFlushed_cases sha w u t ok with ⟨_, _, heq⟩ | ⟨_, _, _, heq⟩ <;>
        (rw [heq] at hmem; exact .inl hmem)
    | @reject t amount status' abort =>
      cases abort with
      -- with an abort the answer comes after the sink is cleaned up
      | true => exact .inl (mem_log_trySend.mp hmem)
      | false => exact (mem_log_answerUpload hmem).imp mem_log_trySend.mp id
    | aborted => exact mem_log_answerUpload hmem
    | @publish t =>
      revert hmem
      unfold publish
      split <;> exact .inl
    | @committed t result =>
      cases result with
      -- the commit is logged, its answer waits for the record
      | some path =>
        have hmem : (time, Observation.uploadAnswered u status) ∈
          w.log ++ [(w.now, .fileCommitted u t.grant.sessionId t.fileId path t.body.written)] := hmem
        simp only [List.mem_append, List.mem_singleton, Prod.mk.injEq, reduceCtorEq, and_false,
          or_false] at hmem
        exact .inl hmem
      | none => exact .inl hmem
    | @record t path =>
      revert hmem
      unfold record
      split
      · exact mem_log_answerUpload
      · rename_i s _
        -- the record logs the completion and the announcements before the answer
        have hstored : (time, Observation.uploadAnswered u status) ∈
            (w.storeReceived s t.fileId).log →
            (time, .uploadAnswered u status) ∈ w.log := by
          unfold storeReceived
          dsimp only
          split
          · intro h
            simp only [List.mem_append, List.mem_singleton, Prod.mk.injEq, reduceCtorEq, and_false,
              or_false] at h
            exact h
          · exact id
        have hfile : (time, Observation.uploadAnswered u status) ∈ (w.recordFile t s path).log →
            (time, .uploadAnswered u status) ∈ w.log := fun h => hstored (mem_log_trySend.mp h)
        dsimp only
        intro h
        rcases mem_log_answerUpload h with h | h
        · refine .inl ?_
          split at h
          · exact hfile (mem_log_trySend.mp h)
          · exact hfile h
        · exact .inr h
    -- these log nothing
    | chunk | streamError | streamEnd | interrupt | surrender | drop => exact .inl hmem

/-! ## Every state -/

/-- The reasons of the answers that there have been. -/
structure AnswerInv (sha256 : List UInt8 → String) (w : World) : Prop where
  lifecycle : w.LifecycleInv sha256
  cause : ∀ h t status body, w.prepares h = some t → t.phase = .answered status body →
    t.Cause status
  recording : ∀ u t path, w.uploads u = some t → t.phase = .recording path →
    ∃ time, (time, .fileCommitted u t.grant.sessionId t.fileId path t.body.bytes) ∈ w.log
  /-- An upload is answered 200 for a file that it has committed. -/
  committed : ∀ u t, w.uploads u = some t → t.phase = .answered .ok → ∃ time path,
    (time, .fileCommitted u t.grant.sessionId t.fileId path t.body.bytes) ∈ w.log
  /-- No upload is answered 204, or about to be. -/
  content : ∀ u t, w.uploads u = some t → t.phase.status? ≠ some .noContent
  /-- The 200 of an upload is that of its handler. -/
  answered : ∀ time u status, (time, .uploadAnswered u status) ∈ w.log → status ≠ .noContent ∧
    (status = .ok → ∃ t, w.uploads u = some t ∧ t.phase = .answered .ok)

theorem answerInv_start (c : ServerConfig) : (World.start c).AnswerInv sha where
  lifecycle := lifecycleInv_start c
  cause _ _ _ _ h := by cases h
  recording _ _ _ h := by cases h
  committed _ _ h := by cases h
  content _ _ h := by cases h
  answered _ _ _ h := by cases h

/-- An upload that is to record its file has committed it. -/
theorem AnswerInv.recording_step (hinv : w.AnswerInv sha) (hstep : w.step sha a = some w')
    {u : TaskId} {t' : UploadTask} {path : PathBuf} (ht' : w'.uploads u = some t')
    (hphase' : t'.phase = .recording path) :
    ∃ time, (time, .fileCommitted u t'.grant.sessionId t'.fileId path t'.body.bytes) ∈ w'.log := by
  rcases uploads_before hstep ht' with ht | ⟨b, l, rfl, hsection, hmove, _⟩
  · obtain ⟨time, hmem⟩ := hinv.recording u t' path ht hphase'
    exact ⟨time, log_mono hstep hmem⟩
  · generalize hold : w.uploads u = old at hmove
    cases hmove with
    | @committed t path' phase =>
      cases hphase'
      have hbody := (hinv.lifecycle.wf u t hold).body_of phase
      cases hsection with
      | @committed t₀ _ ht₀ =>
        cases hold.symm.trans ht₀
        refine ⟨w.now, ?_⟩
        rw [← hbody.1]
        exact List.mem_concat_self
    | @dropped t awaits =>
      obtain ⟨time, hmem⟩ := hinv.recording u t path hold hphase'
      exact ⟨time, log_mono hstep hmem⟩
    | _ => simp at hphase'

/-- An upload that is answered 200 has committed its file. -/
theorem AnswerInv.committed_step (hinv : w.AnswerInv sha) (hstep : w.step sha a = some w') {u : TaskId}
    {t' : UploadTask} (ht' : w'.uploads u = some t') (hphase' : t'.phase = .answered .ok) :
    ∃ time path, (time, .fileCommitted u t'.grant.sessionId t'.fileId path t'.body.bytes) ∈ w'.log := by
  rcases uploads_before hstep ht' with ht | ⟨b, l, rfl, _, hmove, _⟩
  · obtain ⟨time, path, hmem⟩ := hinv.committed u t' ht hphase'
    exact ⟨time, path, log_mono hstep hmem⟩
  · generalize hold : w.uploads u = old at hmove
    rcases old with _ | t
    · cases hmove
      simp at hphase'
    · obtain ⟨hfile, hgrant⟩ := hmove.grant_eq
      obtain ⟨_, hbody, hcases⟩ := hmove.answered_cases (hinv.lifecycle.wf u t hold) hphase'
      rcases hcases with ⟨_, _, path, phase⟩ | ⟨hne, _⟩
      · obtain ⟨time, hmem⟩ := hinv.recording u t path hold phase
        rw [hgrant, hfile, hbody]
        exact ⟨time, path, log_mono hstep hmem⟩
      · exact absurd rfl hne

theorem AnswerInv.content_step (hinv : w.AnswerInv sha) (hstep : w.step sha a = some w')
    {u : TaskId} {t' : UploadTask} (ht' : w'.uploads u = some t') :
    t'.phase.status? ≠ some .noContent := by
  rcases uploads_before hstep ht' with ht | ⟨b, l, rfl, _, hmove, _⟩
  · exact hinv.content u t' ht
  · exact hmove.status_ne fun t hold => hinv.content u t hold

/-- An answer that was given stays. -/
theorem answered_upload_of_step (hstep : w.step sha a = some w') {u : TaskId} {t : UploadTask}
    {status : StatusCode} (ht : w.uploads u = some t) (hphase : t.phase = .answered status) :
    w'.uploads u = some t := by
  rcases uploads_of_step hstep ht with ⟨ht', _⟩ | ⟨_, _, _, _, _, _, hmove, _⟩
  · exact ht'
  · exact absurd hphase hmove.ne_answered

theorem answerInv_step (hinv : w.AnswerInv sha) (hstep : w.step sha a = some w') :
    w'.AnswerInv sha where
  lifecycle := lifecycleInv_step hinv.lifecycle hstep
  cause h t' status body ht' hphase := by
    by_cases hold : w.prepares h = some t'
    · exact hinv.cause h t' status body hold hphase
    · exact cause_of_step hinv.lifecycle.prepare hstep ht' hold hphase
  recording u t' path ht' hphase := hinv.recording_step hstep ht' hphase
  committed u t' ht' hphase := hinv.committed_step hstep ht' hphase
  content u t' ht' := hinv.content_step hstep ht'
  answered time u status hmem := by
    rcases uploadAnswered_of_step hstep hmem with hold | ⟨_, hanswered⟩
    · obtain ⟨hcontent, hok⟩ := hinv.answered time u status hold
      refine ⟨hcontent, fun h => ?_⟩
      obtain ⟨t, ht, hphase⟩ := hok h
      exact ⟨t, answered_upload_of_step hstep ht hphase, hphase⟩
    · rcases hanswered with ⟨_, hne, hcontent⟩ | ⟨t', ht', hphase⟩
      · exact ⟨hcontent, fun h => absurd h hne⟩
      · refine ⟨?_, fun h => ⟨t', ht', h ▸ hphase⟩⟩
        rintro rfl
        exact hinv.content_step hstep ht' (by rw [hphase]; rfl)

theorem answerInv_of_reachable (h : (receiver sha).Reachable w) : w.AnswerInv sha := by
  refine (receiver sha).reachable_induction (AnswerInv sha) ?_ (fun _ _ _ => answerInv_step) h
  rintro _ ⟨c, rfl⟩
  exact answerInv_start c

end World

end LocalSend
