import LocalSend.Spec.ProgressLedger
import LocalSend.Spec.EventDiscipline
import Mathlib.Algebra.Order.BigOperators.Group.Finset

/-!
# What the byte counter of a session says

The counter of a session is to be the bytes of its received files, plus what the uploads in flight
have reported. A report is cut off at the total of the session, but a rejected upload takes back
all it has reported. So once a report was cut off (some body was longer than declared), the
rejection of an upload takes bytes of the others with it, unless there are none.

## Key results

- `UploadMove.counterMove`: what a section of an upload does to the counter
- `ProgressInv.rejects_iff`: when a rejection takes bytes of others
- `progressInv_step`: the counter is what is credited, cut off at the total
- `receive_progress`: the counter in every run
-/

namespace LocalSend

/-- The sizes of the received files. -/
def Session.receivedSize (s : Session) : Nat :=
  ∑ f ∈ s.received, ((s.files.get? f).map FileMetadata.size).getD 0

/-- The `total_bytes` every upload of the session is given. -/
def Session.totalBytes (s : Session) : Nat :=
  (s.files.values.map FileMetadata.size).foldl (fun total size => min (total + size) (2 ^ 64 - 1)) 0

/-- What an upload in flight has reported and not taken back. -/
def UploadTask.pending (t : UploadTask) : Nat :=
  match t.phase with
  | .answered _ => 0
  | p => p.owes t.body

namespace World

/-- The uploads that have taken a lease on a session. -/
def uploadsOf (w : World) (x : SessionId) : Finset TaskId :=
  (w.log.filterMap fun e => match e.2 with
    | .sinkCreate u s _ => if s = x then some u else none
    | _ => none).toFinset

def pendingBytes (w : World) (u : TaskId) : Nat := ((w.uploads u).map UploadTask.pending).getD 0

/-- What all uploads of a session in flight have reported. -/
def inFlightBytes (w : World) (x : SessionId) : Nat := ∑ u ∈ w.uploadsOf x, w.pendingBytes u

/-- The bytes a session's counter is to show: of its received files, and of its uploads in
    flight. -/
def creditedBytes (w : World) (s : Session) : Nat := s.receivedSize + w.inFlightBytes s.id

/-- No upload of the session is in flight. -/
def Quiet (w : World) (x : SessionId) : Prop :=
  ∀ u t, w.uploads u = some t → t.grant.sessionId = x → ∃ status, t.phase = .answered status

/-- With no upload of the session in the slot in flight, its counter shows the sizes of the
    received files; and a rejected upload leaves on it what is of other files. -/
structure ProgressExact (w : World) (a : Action) (w' : World) : Prop where
  exact : ∀ s, w'.state.currentSession = some s → w'.Quiet s.id →
    w'.receivedBytes s.id = s.receivedSize
  others : ∀ u t s, a = .upload u .reject → w.uploads u = some t →
    w.state.currentSession = some s → s.id = t.grant.sessionId →
    min (w.receivedBytes s.id) (w'.creditedBytes s) ≤ w'.receivedBytes s.id

/-- No upload's future is dropped. -/
def RunsToCompletion (_ : World) (a : Action) (_ : World) : Prop := ∀ u, a ≠ .upload u .drop

/-- When an upload of the session in the slot is rejected, the received files and the uploads in
    flight come to no more than the session's total; or the upload has reported nothing; or there
    is nothing else; or the total is 0. -/
def RejectsWithin (w : World) (a : Action) : Prop :=
  ∀ u t s, a = .upload u .reject → w.uploads u = some t →
    w.state.currentSession = some s → s.id = t.grant.sessionId →
    w.creditedBytes s ≤ t.grant.totalBytes ∨ w.pendingBytes u = 0 ∨
      w.creditedBytes s = w.pendingBytes u ∨ t.grant.totalBytes = 0

/-- Rejections stay within the total, and the sizes of the received files fit 64 bits. -/
structure CountsFully (w : World) (a : Action) (w' : World) : Prop where
  rejects : RejectsWithin w a
  fits : ∀ s, w'.state.currentSession = some s → w'.Quiet s.id → s.receivedSize < 2 ^ 64

variable {sha : List UInt8 → String} {w w' : World} {a : Action}

/-! ## What uploads have reported -/

/-- The uploads of a session are those that created a sink for it. -/
theorem mem_uploadsOf {x : SessionId} {u : TaskId} :
    u ∈ w.uploadsOf x ↔ ∃ time f, (time, .sinkCreate u x f) ∈ w.log := by
  simp only [uploadsOf, List.mem_toFinset, List.mem_filterMap]
  constructor
  · rintro ⟨e, he, heq⟩
    obtain ⟨time, o⟩ := e
    cases o with
    | sinkCreate v s f =>
      simp only [Option.ite_none_right_eq_some, Option.some.injEq] at heq
      obtain ⟨rfl, rfl⟩ := heq
      exact ⟨time, f, he⟩
    | _ => simp at heq
  · rintro ⟨time, f, he⟩
    exact ⟨_, he, if_pos rfl⟩

/-- What an upload has reported is read off its task. -/
theorem pendingBytes_of {u : TaskId} {t : UploadTask} (ht : w.uploads u = some t) :
    w.pendingBytes u = t.pending := by
  unfold pendingBytes
  rw [ht]
  rfl

/-- Where one term of a sum changes. -/
theorem sum_of_changed {tasks : Finset TaskId} {f g : TaskId → Nat} {u : TaskId} (hu : u ∈ tasks)
    (hsame : ∀ v, v ≠ u → g v = f v) : ∑ v ∈ tasks, g v + f u = ∑ v ∈ tasks, f v + g u := by
  -- the changed term aside, the two sums are the same
  rw [← Finset.sum_erase_add _ _ hu, ← Finset.sum_erase_add _ f hu]
  have hrest : ∑ v ∈ tasks.erase u, g v = ∑ v ∈ tasks.erase u, f v := by
    apply Finset.sum_congr rfl
    intro v hv
    exact hsame v (Finset.ne_of_mem_erase hv)
  omega

/-- Only a lease adds to the uploads of a session. -/
theorem uploadsOf_of_log {new : List (Nat × Observation)} (h : w'.log = w.log ++ new)
    (hnew : ∀ time u y f, (time, .sinkCreate u y f) ∉ new) (x : SessionId) :
    w'.uploadsOf x = w.uploadsOf x := by
  apply Finset.ext
  intro u
  rw [mem_uploadsOf, mem_uploadsOf, h]
  constructor
  · rintro ⟨time, f, hmem⟩
    rcases List.mem_append.mp hmem with hmem | hmem
    · exact ⟨time, f, hmem⟩
    · exact absurd hmem (hnew time u x f)
  · rintro ⟨time, f, hmem⟩
    exact ⟨time, f, List.mem_append_left _ hmem⟩

/-- The first lock section of an upload takes a lease, which the log shows, or none. -/
theorem begun_cases (w : World) (u : TaskId) (x : SessionId) (f : FileId) (token : Token) :
    ((w.beginUpload u x f token).uploads = w.uploads ∧
      ∀ y, (w.beginUpload u x f token).uploadsOf y = w.uploadsOf y) ∨
    ∃ t, (w.beginUpload u x f token).uploads = Function.update w.uploads u (some t) ∧
      t.grant.sessionId = x ∧ t.pending = 0 ∧
      (w.beginUpload u x f token).log = w.log ++ [(w.now, .sinkCreate u x f)] := by
  have hanswered : ∀ y, (w.observe (.uploadAnswered u .forbidden)).uploadsOf y = w.uploadsOf y :=
    uploadsOf_of_log rfl (by simp)
  unfold beginUpload
  -- the branches in the order in which the section checks its request
  split
  · left
    dsimp only
    split
    · exact ⟨rfl, uploadsOf_of_log (List.append_assoc ..) (by simp)⟩
    · exact ⟨rfl, fun _ => rfl⟩
  · split
    · exact .inl ⟨rfl, hanswered⟩
    · rename_i s hs
      split
      · exact .inl ⟨rfl, hanswered⟩
      · rename_i hid
        simp only [Decidable.not_not] at hid
        subst hid
        split
        · exact .inl ⟨rfl, hanswered⟩
        · split
          · exact .inl ⟨rfl, uploadsOf_of_log rfl (by simp)⟩
          · split
            · exact .inl ⟨rfl, uploadsOf_of_log rfl (by simp)⟩
            · exact .inr ⟨_, rfl, rfl, rfl, rfl⟩

/-- The uploads of a session are those that hold or held a lease on it. -/
def TasksListed (w : World) : Prop :=
  ∀ u x, u ∈ w.uploadsOf x ↔ ∃ t, w.uploads u = some t ∧ t.grant.sessionId = x

/-- Every step keeps it so: only a lease makes a task. -/
theorem tasksListed_step (h : w.TasksListed) (hstep : w.step sha a = some w') : w'.TasksListed := by
  by_cases hbegin : ∃ u x f token, a = .upload u (.begin_ x f token)
  · obtain ⟨u, x, f, token, rfl⟩ := hbegin
    cases step_upload hstep with
    | begin_ fresh =>
      intro v y
      rcases begun_cases w u x f token with ⟨huploads, htasks⟩ | ⟨t, huploads, hid, _, hlog⟩
      · rw [huploads, htasks]
        exact h v y
      · rw [mem_uploadsOf, huploads, hlog]
        by_cases hv : v = u
        · subst hv
          -- the task is new, so no lease of its own is in the log yet
          have hnone : ∀ time g, (time, .sinkCreate v y g) ∉ w.log := by
            intro time g hmem
            obtain ⟨t₀, ht₀, _⟩ := (h v y).mp (mem_uploadsOf.mpr ⟨time, g, hmem⟩)
            cases fresh.symm.trans ht₀
          simp [hnone, hid, eq_comm]
        · have hold := h v y
          rw [mem_uploadsOf] at hold
          simp [hv, hold]
  · -- no other step logs a lease
    have htasks : ∀ x, w'.uploadsOf x = w.uploadsOf x := by
      obtain ⟨new, hlog, hnew⟩ := logGrows_of_step hstep
      apply uploadsOf_of_log hlog
      intro time u y f hmem
      cases (hnew _ hmem).2 with
      | routine h => exact h.elim
      | began => exact hbegin ⟨_, _, _, _, rfl⟩
    intro u x
    rw [htasks, h u x]
    constructor
    · rintro ⟨t, ht, hid⟩
      rcases uploads_of_step hstep ht with ⟨ht', _⟩ | ⟨b, t', l, _, _, ht', hmove, _⟩
      · exact ⟨t, ht', hid⟩
      · exact ⟨t', ht', by rw [hmove.grant_eq.2, hid]⟩
    · rintro ⟨t', ht', hid⟩
      rcases uploads_before hstep ht' with ht | ⟨b, l, rfl, _, hmove, _⟩
      · exact ⟨t', ht, hid⟩
      · generalize hold : w.uploads u = old at hmove
        cases old with
        | none =>
          cases hmove with
          | began => exact absurd ⟨_, _, _, _, rfl⟩ hbegin
        | some t => exact ⟨t, rfl, by rw [← hmove.grant_eq.2, hid]⟩

/-! ## What a step does to a counter -/

/-- A section of an upload leaves the counters of the other sessions alone. -/
theorem receivedBytes_of_ne {u : TaskId} {b : UploadAction} (hstep : UploadStep sha w u b w')
    {x : SessionId} (hx : ∀ t, w.uploads u = some t → x ≠ t.grant.sessionId) :
    w'.receivedBytes x = w.receivedBytes x := by
  -- only a report and a rejection write the counter of their own session
  cases hstep with
  | begin_ => rw [receivedBytes_beginUpload]
  | reportProgress ht => exact Function.update_of_ne (hx _ ht) ..
  | @reject t amount status abort ht =>
    have hrolled : (w.rollbackProgress t amount).receivedBytes x = w.receivedBytes x :=
      Function.update_of_ne (hx t ht) ..
    cases abort <;> exact hrolled
  | chunk | streamError | streamEnd | interrupt | aborted | surrender | drop => rfl
  | @sinkCreated t result => rcases result with (_ | _) | _ <;> rfl
  | @chunkWritten t chunk ok => cases ok <;> rfl
  | @flushed t ok =>
    rcases bodyFlushed_cases sha w u t ok with ⟨_, _, heq⟩ | ⟨_, _, _, heq⟩ <;> rw [heq] <;> rfl
  | publish =>
    unfold publish
    split <;> rfl
  | @committed t result => cases result <;> rfl
  | record =>
    unfold record
    split
    · rfl
    · dsimp only
      split <;> rfl

/-- A new session's counter is its own. -/
theorem receivedBytes_allocate (w : World) {id x : SessionId} (files : AssocMap FileId FileMetadata)
    (hne : x ≠ id) : (w.allocate id files).receivedBytes x = w.receivedBytes x :=
  Function.update_of_ne hne ..

/-- That a reservation no longer awaits consent changes no counter. -/
theorem receivedBytes_clearReservation (w : World) (t : PrepareTask) :
    (w.clearReservation t).receivedBytes = w.receivedBytes := by
  unfold clearReservation
  split <;> rfl

/-- Unwinding a declined offer takes no bytes back. -/
theorem receivedBytes_unwind (w : World) : w.unwind.receivedBytes = w.receivedBytes := by
  unfold unwind
  split <;> rfl

/-- A prepare makes the counters of new sessions, and moves none. -/
theorem receivedBytes_of_prepareStep {h : TaskId} {b : PrepareAction} (hstep : PrepareStep w h b w')
    {x : SessionId} (hx : x ∈ w.issued) : w'.receivedBytes x = w.receivedBytes x := by
  -- the session that is asked about has an id already, the new ones get fresh ones
  have hne : ∀ {id}, id ∉ w.issued → x ≠ id := fun hid heq => hid (heq ▸ hx)
  -- only a new session touches a counter, and it is of a fresh id
  cases hstep with
  | checkPin =>
    unfold checkPin
    dsimp only
    repeat' split
    all_goals rfl
  | @reserve t id token _ _ _ hid =>
    rcases reserve_cases w h t id token with ⟨_, _, _, heq⟩ | ⟨_, heq⟩ | ⟨s, _, _, _, heq⟩
    · rw [heq]
      rfl
    · rw [heq]
      exact w.receivedBytes_allocate t.request.files (hne hid)
    · rw [heq]
      exact receivedBytes_allocate ((w.clearSlot s).observe (.sessionReclaimed s.id))
        t.request.files
        (hne hid)
  | sendRequest =>
    unfold sendRequest
    split <;> rfl
  | @clearAwaiting t d id token _ _ _ _ hid =>
    have hclear := congrFun (w.receivedBytes_clearReservation t) x
    rcases clearAwaiting_cases w h t d id token with ⟨_, _, heq⟩ | ⟨_, _, heq⟩ | ⟨_, heq⟩
    · rw [heq]
      exact hclear
    · rw [heq]
      exact hclear
    · rw [heq]
      exact ((w.clearReservation t).receivedBytes_allocate
        (t.request.acceptedFiles (t.request.acceptedIds d)) (hne hid)).trans hclear
  | decide | deliverText | drop => rfl
  | refuse | decline => exact congrFun w.receivedBytes_unwind x
  | install =>
    unfold install
    dsimp only
    split <;> exact congrFun w.receivedBytes_unwind x

/-- Clearing the slot changes no counter. -/
theorem receivedBytes_tryClearSlot (w : World) (s : Session) :
    (w.tryClearSlot s).2.receivedBytes = w.receivedBytes := by
  unfold tryClearSlot
  dsimp only
  split <;> rfl

/-- The sweep changes no counter. -/
theorem receivedBytes_sessionSweep (w : World) :
    w.sessionSweep.receivedBytes = w.receivedBytes := by
  have hstandard : w.sweepStandard.receivedBytes = w.receivedBytes := by
    unfold sweepStandard
    split
    · rfl
    · split
      · dsimp only
        split <;> exact receivedBytes_tryClearSlot ..
      · rfl
  unfold sessionSweep sweepCrosscopy
  split <;> exact hstandard

/-- Stopping changes no counter. -/
theorem receivedBytes_stop (w : World) : w.stop.receivedBytes = w.receivedBytes := by
  have hprotected : ∀ v : World, v.stopCrosscopy.receivedBytes = v.receivedBytes := by
    intro v
    unfold stopCrosscopy
    cases v.state.crosscopyAuthorizedActiveUpload <;>
      cases v.state.crosscopyAuthorizedSession <;> rfl
  unfold stop
  dsimp only
  split
  · exact hprotected _
  · rw [hprotected, receivedBytes_tryClearSlot]

/-- Only the uploads of a session that was issued move its counter. -/
theorem receivedBytes_of_other (hstep : w.step sha a = some w') {x : SessionId} (hx : x ∈ w.issued)
    (hother : ∀ u b t, a = .upload u b → w.uploads u = some t → t.grant.sessionId ≠ x) :
    w'.receivedBytes x = w.receivedBytes x := by
  -- what is not an upload of the session leaves its counter alone
  cases a with
  | prepare h b => exact receivedBytes_of_prepareStep (step_prepare hstep) hx
  | upload u b =>
    apply receivedBytes_of_ne (step_upload hstep)
    intro t ht
    exact (hother u b t rfl ht).symm
  | release reserved =>
    simp only [step, Option.ite_none_right_eq_some, Option.some.injEq] at hstep
    obtain ⟨_, rfl⟩ := hstep
    unfold releaseReservation
    dsimp only
    repeat' split
    all_goals rfl
  | cancel peer sessionId =>
    cases hstep
    unfold handleCancel
    dsimp only
    repeat' split
    all_goals rfl
  | sweep =>
    cases hstep
    exact congrFun w.receivedBytes_sessionSweep x
  | stop =>
    cases hstep
    exact congrFun w.receivedBytes_stop x
  | installCrosscopy session =>
    cases hstep
    unfold installCrosscopy
    split <;> rfl
  | finishCrosscopy sessionId =>
    cases hstep
    unfold finishCrosscopy
    split <;> rfl
  | env b =>
    cases hstep
    cases b <;> rfl

/-- What the uploads of a session have reported moves with its own uploads only. -/
theorem inFlightBytes_of_other (htasks : w.TasksListed) (hstep : w.step sha a = some w')
    {x : SessionId}
    (hother : ∀ u b t, a = .upload u b → w.uploads u = some t → t.grant.sessionId ≠ x) :
    w'.inFlightBytes x = w.inFlightBytes x := by
  have htasks' := tasksListed_step htasks hstep
  -- an upload of the session stays as it was
  have hkept : ∀ u t, w.uploads u = some t → t.grant.sessionId = x → w'.uploads u = some t := by
    intro u t ht hid
    rcases uploads_of_step hstep ht with ⟨ht', _⟩ | ⟨b, _, _, ha, _⟩
    · exact ht'
    · exact absurd hid (hother u b t ha ht)
  symm
  apply Finset.sum_subset_zero_on_sdiff
  · intro u hu
    obtain ⟨t, ht, hid⟩ := (htasks u x).mp hu
    exact (htasks' u x).mpr ⟨t, hkept u t ht hid, hid⟩
  · -- an upload that is new to the session has just begun
    intro u hu
    obtain ⟨hmem, hnew⟩ := Finset.mem_sdiff.mp hu
    obtain ⟨t', ht', hid⟩ := (htasks' u x).mp hmem
    rw [pendingBytes_of ht']
    rcases uploads_before hstep ht' with ht | ⟨b, l, rfl, _, hmove, _⟩
    · exact absurd ((htasks u x).mpr ⟨t', ht, hid⟩) hnew
    · generalize hold : w.uploads u = old at hmove
      cases old with
      | none =>
        cases hmove with
        | began => rfl
      | some t =>
        rw [hmove.grant_eq.2] at hid
        exact absurd hid (hother u b t rfl hold)
  -- the others have reported what they had reported
  · intro u hu
    obtain ⟨t, ht, hid⟩ := (htasks u x).mp hu
    rw [pendingBytes_of ht, pendingBytes_of (hkept u t ht hid)]

/-- A section of an upload moves what its session's uploads have reported by what it has itself. -/
theorem inFlightBytes_of_upload (htasks : w.TasksListed) {u : TaskId} {b : UploadAction}
    (hstep : w.step sha (.upload u b) = some w') {t t' : UploadTask} (ht : w.uploads u = some t)
    (ht' : w'.uploads u = some t') (hgrant : t'.grant = t.grant) :
    w'.inFlightBytes t.grant.sessionId + t.pending = w.inFlightBytes t.grant.sessionId +
      t'.pending := by
  have htasks' := tasksListed_step htasks hstep
  have hsame : ∀ v, v ≠ u → w'.uploads v = w.uploads v := by
    intro v hv
    rcases uploadMove_of_step hstep with ⟨z, c, _, _, ha, _, _, heffect⟩ | ⟨huploads, _⟩
    · cases ha
      rw [heffect.uploads, Function.update_of_ne hv]
    · rw [huploads]
  -- the uploads of the session are the same ones
  have huploads : w'.uploadsOf t.grant.sessionId = w.uploadsOf t.grant.sessionId := by
    apply Finset.ext
    intro v
    rw [htasks', htasks]
    by_cases hv : v = u
    · subst hv
      simp [ht, ht', hgrant]
    · rw [hsame v hv]
  unfold inFlightBytes
  rw [huploads, ← pendingBytes_of ht, ← pendingBytes_of ht']
  -- only the term of `u` changes
  apply sum_of_changed ((htasks u _).mpr ⟨t, ht, rfl⟩)
  intro v hv
  unfold pendingBytes
  rw [hsame v hv]

end World

/-! ## One section of an upload -/

/-- What a section of an upload does to the counter and to what the upload has reported. -/
inductive CounterMove (w : World) (t t' : UploadTask) (b : UploadAction) : Prop
  | keeps (ne : b ≠ .reject ∧ b ≠ .record) (same : t'.pending = t.pending)
    (counter : w.counterAfter t b = w.receivedBytes t.grant.sessionId)
  | reports (amount : Nat) (ne : b ≠ .reject ∧ b ≠ .record) (more : t'.pending = t.pending + amount)
    (counter : w.counterAfter t b =
      min (w.receivedBytes t.grant.sessionId + amount) t.grant.totalBytes)
  | rejects (reject : b = .reject) (none : t'.pending = 0)
    (counter : w.counterAfter t b = w.receivedBytes t.grant.sessionId - t.pending)
  | records (record : b = .record) (none : t'.pending = 0) (size : t.pending = t.grant.declaredSize)
    (counter : w.counterAfter t b = w.receivedBytes t.grant.sessionId)

/-- Each section of an upload that is not dropped keeps, adds to, takes back or settles what it
    reported. -/
theorem UploadMove.counterMove {sha : List UInt8 → String} {w : World} {t t' : UploadTask}
    {b : UploadAction} {l : ReceiveLifecycle} (hmove : UploadMove sha w (some t) b t' l)
    (hwf : t.Wf sha) (hcounts : t.phase.Counts t.body) (hrun : b ≠ .drop) :
    CounterMove w t t' b := by
  have hphase : ∀ {p}, t.phase = p → p.Counts t.body := by
    intro p phase
    rw [← phase]
    exact hcounts
  cases hmove with
  | created phase | received phase | streamFailed phase | ended phase | wrote phase
  | notWritten phase | invalid phase | valid phase | won phase | lost phase | surrendered phase
  | committed phase | notCommitted phase | aborted phase =>
    apply CounterMove.keeps (by simp)
    · simp [UploadTask.pending, phase, UploadPhase.owes]
    · simp [World.counterAfter]
  | notCreated phase =>
    -- no body has been read yet, so there is nothing to give back
    have hzero : t.body.reported = 0 := (hphase phase).1
    apply CounterMove.keeps (by simp)
    · simp [UploadTask.pending, phase, UploadPhase.owes, hzero]
    · simp [World.counterAfter]
  | interrupted phase =>
    apply CounterMove.keeps (by simp)
    · -- an interrupted body keeps what it has reported until it is rejected
      cases hp : t.phase with
      | streaming | writing | reporting
      | flushing => simp [UploadTask.pending, hp, UploadPhase.owes]
      | _ =>
        rw [hp] at phase
        simp [UploadPhase.inBody] at phase
    · simp [World.counterAfter]
  | reported phase =>
    have hle : t.body.reported ≤ t.body.bytesWritten := hphase phase
    apply CounterMove.reports (t.body.bytesWritten - t.body.reported) (by simp)
    · simp only [UploadTask.pending, phase, UploadPhase.owes]
      omega
    · simp [World.counterAfter]
  | rejected phase | gaveUp phase =>
    have hamount : _ = t.body.reported := hphase phase
    apply CounterMove.rejects rfl rfl
    simp [World.counterAfter, UploadTask.pending, UploadPhase.owes, phase, hamount]
  | recorded phase | orphaned phase =>
    have hreported : t.body.reported = t.body.bytesWritten := hphase phase
    -- a body that was valid is as long as it was declared
    have hlength : t.body.bytes.length = t.grant.declaredSize := (hwf.body_of phase).2.1
    apply CounterMove.records rfl rfl
    · simp only [UploadTask.pending, phase, UploadPhase.owes]
      rw [hreported, hwf.counted.1, hlength]
    · simp [World.counterAfter]
  | dropped => exact absurd rfl hrun

/-! ## Sizes -/

/-- A saturating sum. -/
theorem foldl_saturating (sizes : List Nat) {limit start : Nat} (h : start ≤ limit) :
    sizes.foldl (fun total size => min (total + size) limit) start =
      min (start + sizes.sum) limit := by
  -- induction on the sizes, for any total so far
  induction sizes generalizing start with
  | nil =>
    simp only [List.foldl_nil, List.sum_nil]
    omega
  | cons size sizes ih =>
    rw [List.foldl_cons, ih (Nat.min_le_right ..), List.sum_cons]
    omega

/-- The total of a session is the sum of the sizes, cut at 64 bits. -/
theorem Session.totalBytes_eq (s : Session) :
    s.totalBytes = min (s.files.values.map FileMetadata.size).sum (2 ^ 64 - 1) := by
  unfold Session.totalBytes
  rw [foldl_saturating _ (Nat.zero_le _), Nat.zero_add]

/-- Received files are no larger than all files. -/
theorem Session.receivedSize_le (s : Session) (hsub : ∀ f ∈ s.received, f ∈ s.files.keys) :
    s.receivedSize ≤ (s.files.values.map FileMetadata.size).sum := by
  have hvalues : s.files.keys.map (fun f => ((s.files.get? f).map FileMetadata.size).getD 0) =
      s.files.values.map FileMetadata.size := by
    unfold AssocMap.keys AssocMap.values
    rw [List.map_map, List.map_map]
    apply List.map_congr_left
    intro e he
    have hget : s.files.get? e.1 = some e.2 := AssocMap.get?_eq_some_iff.mpr he
    simp [hget]
  -- the keys have no duplicates, so the list may be summed as a set
  have hall := List.sum_toFinset (fun f => ((s.files.get? f).map FileMetadata.size).getD 0) s.files.nodup
  have hall : ∑ f ∈ s.files.keys.toFinset, ((s.files.get? f).map FileMetadata.size).getD 0 =
      (s.files.values.map FileMetadata.size).sum := hall.trans (congrArg List.sum hvalues)
  rw [← hall]
  apply Finset.sum_le_sum_of_subset
  intro f hf
  exact List.mem_toFinset.mpr (hsub f hf)

/-- The received files of a session fit its counter exactly when they fit 64 bits. -/
theorem Session.receivedSize_le_totalBytes_iff (s : Session)
    (hsub : ∀ f ∈ s.received, f ∈ s.files.keys) :
    s.receivedSize ≤ s.totalBytes ↔ s.receivedSize < 2 ^ 64 := by
  have hle := s.receivedSize_le hsub
  rw [s.totalBytes_eq]
  omega

/-- Receiving a file adds its size. -/
theorem Session.receivedSize_markReceived {s : Session} {f : FileId} {size : Nat}
    (hsize : (s.files.get? f).map FileMetadata.size = some size) (hnew : f ∉ s.received) (now : Nat) :
    (s.markReceived f now).2.receivedSize = s.receivedSize + size := by
  have hfile : s.files.contains f = true := by
    obtain ⟨file, hget, _⟩ := Option.map_eq_some_iff.mp hsize
    exact AssocMap.contains_iff.mpr ⟨file, hget⟩
  obtain ⟨_, hfiles⟩ := World.markReceived_id s f now
  unfold Session.receivedSize
  rw [(World.markReceived_of_contains hfile now).1, hfiles, Finset.sum_insert hnew, hsize,
    Option.getD_some, Nat.add_comm]

namespace World

variable {sha : List UInt8 → String} {w w' : World} {a : Action}

/-! ## The counter of the session in the slot -/

/-- The counter of the session in the slot is what is credited, cut off at the session's total. -/
structure ProgressInv (sha256 : List UInt8 → String) (w : World) : Prop where
  lifecycle : w.LifecycleInv sha256
  tasks : w.TasksListed
  counts : ∀ u t, w.uploads u = some t → t.phase.Counts t.body
  live : ∀ u t, w.uploads u = some t → t.dropped = false
  untouched : ∀ h p s, w.prepares h = some p → p.phase = .installing s → w.receivedBytes s.id = 0
  granted : ∀ u t s, w.uploads u = some t → w.state.currentSession = some s →
    s.id = t.grant.sessionId → t.grant.totalBytes = s.totalBytes ∧
      (s.files.get? t.fileId).map FileMetadata.size = some t.grant.declaredSize
  credited : ∀ s, w.state.currentSession = some s →
    w.receivedBytes s.id = min (w.creditedBytes s) s.totalBytes

/-- Before anything is received the counters are 0. -/
theorem progressInv_start (c : ServerConfig) : (World.start c).ProgressInv sha where
  lifecycle := lifecycleInv_start c
  tasks u x := by
    rw [mem_uploadsOf]
    constructor
    · rintro ⟨_, _, h⟩
      cases h
    · rintro ⟨_, h, _⟩
      cases h
  counts _ _ h := by cases h
  live _ _ h := by cases h
  untouched _ _ _ h := by cases h
  granted _ _ _ h := by cases h
  credited _ h := by cases h

/-- A received file of the session in the slot is one of its files. -/
theorem ProgressInv.received_sub (hinv : w.ProgressInv sha) {s : Session}
    (hs : w.state.currentSession = some s) : ∀ f ∈ s.received, f ∈ s.files.keys := by
  intro f hf
  have hslot := hinv.lifecycle.slots s (.inl hs) f
  rw [hinv.lifecycle.received s hs f hf] at hslot
  exact AssocMap.contains_iff_mem_keys.mp hslot.symm

/-- With none of its uploads in flight, all that is credited to a session are its files. -/
theorem creditedBytes_of_quiet (htasks : w.TasksListed) {s : Session} (hquiet : w.Quiet s.id) :
    w.creditedBytes s = s.receivedSize := by
  have hzero : w.inFlightBytes s.id = 0 := by
    apply Finset.sum_eq_zero
    intro u hu
    obtain ⟨t, ht, hid⟩ := (htasks u s.id).mp hu
    obtain ⟨status, phase⟩ := hquiet u t ht hid
    rw [pendingBytes_of ht]
    unfold UploadTask.pending
    rw [phase]
  unfold creditedBytes
  omega

/-- With none of its uploads in flight, the counter of the session in the slot shows its received
    files exactly when their sizes fit 64 bits. -/
theorem ProgressInv.exact_iff (hinv : w.ProgressInv sha) {s : Session}
    (hs : w.state.currentSession = some s) (hquiet : w.Quiet s.id) :
    w.receivedBytes s.id = s.receivedSize ↔ s.receivedSize < 2 ^ 64 := by
  rw [← s.receivedSize_le_totalBytes_iff (hinv.received_sub hs), hinv.credited s hs,
    creditedBytes_of_quiet hinv.tasks hquiet]
  omega

/-- What a move of an upload of the session in the slot amounts to. -/
theorem ProgressInv.counterMove (hinv : w.ProgressInv sha) {u : TaskId} {b : UploadAction}
    (hstep : w.step sha (.upload u b) = some w') (hrun : b ≠ .drop) {t : UploadTask}
    (ht : w.uploads u = some t) :
    ∃ t', CounterMove w t t' b ∧
      w'.inFlightBytes t.grant.sessionId + t.pending =
        w.inFlightBytes t.grant.sessionId + t'.pending ∧
      w'.receivedBytes t.grant.sessionId = w.counterAfter t b := by
  rcases uploads_of_step hstep ht with ⟨_, hne⟩ | ⟨c, t', l, hc, _, ht', hmove, _⟩
  · exact absurd rfl (hne b)
  · cases hc
    have hmoved := hmove.counterMove (hinv.lifecycle.wf u t ht) (hinv.counts u t ht) hrun
    exact ⟨t', hmoved, inFlightBytes_of_upload hinv.tasks hstep ht ht' hmove.grant_eq.2,
      receivedBytes_of_upload hstep ht⟩

/-- What an upload has reported is part of what is credited to its session. -/
theorem pending_le (htasks : w.TasksListed) {u : TaskId} {t : UploadTask}
    (ht : w.uploads u = some t) :
    t.pending ≤ w.inFlightBytes t.grant.sessionId := by
  rw [← pendingBytes_of ht]
  exact Finset.single_le_sum (f := w.pendingBytes) (fun _ _ => Nat.zero_le _)
    ((htasks u _).mpr ⟨t, ht, rfl⟩)

/-- A rejection takes bytes of others exactly when some report was cut off and not all that is
    credited is the upload's own. -/
theorem ProgressInv.rejects_iff (hinv : w.ProgressInv sha) {u : TaskId}
    (hstep : w.step sha (.upload u .reject) = some w') {t : UploadTask} (ht : w.uploads u = some t)
    {s : Session} (hs : w.state.currentSession = some s) (hid : s.id = t.grant.sessionId) :
    (w.creditedBytes s ≤ t.grant.totalBytes ∨ w.pendingBytes u = 0 ∨
        w.creditedBytes s = w.pendingBytes u ∨ t.grant.totalBytes = 0) ↔
      min (w.receivedBytes s.id) (w'.creditedBytes s) ≤ w'.receivedBytes s.id := by
  obtain ⟨t', hmoved, hflight, hcounter⟩ := hinv.counterMove hstep (by simp) ht
  cases hmoved with
  | keeps ne | reports _ ne => exact absurd rfl ne.1
  | records record => simp at record
  | rejects _ none counter =>
    -- the counter is `min credited total`: what follows is arithmetic
    have htotal := (hinv.granted u t s ht hs hid).1
    have hcredited := hinv.credited s hs
    have hle := pending_le hinv.tasks ht
    unfold creditedBytes at *
    rw [← hid] at hflight hcounter counter hle
    rw [pendingBytes_of ht]
    omega

/-! ## One step -/

/-- A step that records no file of the session in the slot keeps its counter. -/
theorem ProgressInv.credited_of_kept (hinv : w.ProgressInv sha) (hstep : w.step sha a = some w')
    (hrun : RunsToCompletion w a w') (hrejects : RejectsWithin w a) {s : Session}
    (hs : w.state.currentSession = some s)
    (hkept : ∀ u t, a = .upload u .record → ¬w.Recording u t s) :
    w'.receivedBytes s.id = min (w'.creditedBytes s) s.totalBytes := by
  have hcredited := hinv.credited s hs
  unfold creditedBytes at hcredited ⊢
  -- either the step is of an upload of this session, or its terms stay as they are
  by_cases hown : ∃ u b t, a = .upload u b ∧ w.uploads u = some t ∧ t.grant.sessionId = s.id
  · obtain ⟨u, b, t, rfl, ht, hid⟩ := hown
    have hdrop : b ≠ .drop := fun hb => hrun u (hb ▸ rfl)
    obtain ⟨t', hmoved, hflight, hcounter⟩ := hinv.counterMove hstep hdrop ht
    have htotal := (hinv.granted u t s ht hs hid.symm).1
    have hle := pending_le hinv.tasks ht
    rw [hid] at hflight hcounter hle
    cases hmoved with
    | keeps _ same counter =>
      rw [hid] at counter
      omega
    | reports amount _ more counter =>
      rw [hid] at counter
      omega
    | rejects reject none counter =>
      subst reject
      have hfully := hrejects u t s rfl ht hs hid.symm
      rw [pendingBytes_of ht] at hfully
      unfold creditedBytes at hfully
      rw [hid] at counter
      omega
    | records record =>
      subst record
      have hsection := step_upload hstep
      have live := hsection.live ht
      cases hsection with
      | @record t₀ path ht₀ _ phase =>
        cases ht.symm.trans ht₀
        -- it would be recorded in the session in the slot
        exact absurd ⟨ht, live, ⟨path, phase⟩, hs, hid.symm⟩ (hkept u t rfl)
  · have hother : ∀ u b t, a = .upload u b → w.uploads u = some t → t.grant.sessionId ≠ s.id :=
      fun u b t ha ht hid => hown ⟨u, b, t, ha, ht, hid⟩
    rw [receivedBytes_of_other hstep (hinv.lifecycle.prepare.issued_current hs) hother,
      inFlightBytes_of_other hinv.tasks hstep hother]
    exact hcredited

/-- Recording a file moves its bytes from the upload to the session. -/
theorem ProgressInv.credited_of_recorded (hinv : w.ProgressInv sha) {u : TaskId} {t : UploadTask}
    {s : Session} (hstep : w.step sha (.upload u .record) = some w') (hrec : w.Recording u t s) :
    w'.receivedBytes s.id =
      min (w'.creditedBytes (s.markReceived t.fileId w.now).2) s.totalBytes := by
  obtain ⟨ht, live, ⟨path, phase⟩, hs, hid⟩ := hrec
  obtain ⟨t', hmoved, hflight, hcounter⟩ := hinv.counterMove hstep (by simp) ht
  have hsize := (hinv.granted u t s ht hs hid).2
  -- a file whose permit is still held has not been received
  have hnew : t.fileId ∉ s.received := by
    intro hmem
    have hpermit : t.handle = some (.permit t.fileId) :=
      (hinv.lifecycle.wf u t ht).held_of live phase
    have hpublishing := hinv.lifecycle.publishing_of_permit ht hpermit
    have hpublished := hinv.lifecycle.received s hs _ hmem
    rw [hid] at hpublished
    cases hpublishing.symm.trans hpublished
  have hcredited := hinv.credited s hs
  obtain ⟨hsame, _⟩ := markReceived_id s t.fileId w.now
  unfold creditedBytes at hcredited ⊢
  rw [hsame, Session.receivedSize_markReceived hsize hnew]
  rw [← hid] at hflight hcounter
  -- the file's bytes were reported in full, so crediting the file settles them
  cases hmoved with
  | keeps ne | reports _ ne => exact absurd rfl ne.2
  | rejects reject => simp at reject
  | records _ none size counter =>
    rw [← hid] at counter
    omega

/-- A session that gets into the slot has no uploads yet. -/
theorem credited_of_new (htasks : w.TasksListed) {s : Session} (hreceived : s.received = ∅)
    (hnone : ∀ u t, w.uploads u = some t → t.grant.sessionId ≠ s.id)
    (hcounter : w.receivedBytes s.id = 0) :
    w.receivedBytes s.id = min (w.creditedBytes s) s.totalBytes := by
  have hquiet : w.Quiet s.id := fun u t ht hid => absurd hid (hnone u t ht)
  rw [creditedBytes_of_quiet htasks hquiet, hcounter, Session.receivedSize, hreceived,
    Finset.sum_empty, Nat.zero_min]

/-- The counter of an id starts at 0. -/
theorem receivedBytes_of_fresh (hstep : w.step sha a = some w') {x : SessionId}
    (hold : x ∉ w.issued) (hnew : x ∈ w'.issued) : w'.receivedBytes x = 0 := by
  obtain ⟨h, b, _, _, rfl, _, hb, _⟩ := allocated_of_step hstep hnew hold
  -- the id was drawn for a placeholder, or for the session that follows it
  rcases hb with ⟨token, rfl⟩ | ⟨token, rfl⟩
  · cases step_prepare hstep with
    | @reserve t =>
      rcases reserve_cases w h t x token with ⟨_, _, _, heq⟩ | ⟨_, heq⟩ | ⟨s, _, _, _, heq⟩
      · rw [heq] at hnew
        exact absurd hnew hold
      · rw [heq]
        exact Function.update_self ..
      · rw [heq]
        exact Function.update_self ..
  · cases step_prepare hstep with
    | @clearAwaiting t d =>
      have hclear := (sameTasks_clearReservation w t).issued
      rcases clearAwaiting_cases w h t d x token with ⟨_, _, heq⟩ | ⟨_, _, heq⟩ | ⟨_, heq⟩
      · rw [heq] at hnew
        exact absurd (hclear ▸ hnew) hold
      · rw [heq] at hnew
        exact absurd (hclear ▸ hnew) hold
      · rw [heq]
        exact Function.update_self ..

/-- An upload after a step was there with the same grant, or was granted by the session in the
    slot. -/
theorem granted_before (hstep : w.step sha a = some w') {u : TaskId} {t' : UploadTask}
    (ht' : w'.uploads u = some t') :
    (∃ t, w.uploads u = some t ∧ t'.fileId = t.fileId ∧ t'.grant = t.grant) ∨
      ∃ s file, w.state.currentSession = some s ∧ s.files.get? t'.fileId = some file ∧
        t'.grant = grantUpload w.state s file := by
  rcases uploads_before hstep ht' with ht | ⟨b, l, _, _, hmove, _⟩
  · exact .inl ⟨t', ht, rfl, rfl⟩
  · generalize w.uploads u = old at hmove
    cases old with
    | some t => exact .inl ⟨t, rfl, hmove.grant_eq⟩
    | none =>
      cases hmove with
      | began hs _ hfile => exact .inr ⟨_, _, hs, hfile, rfl⟩

/-- The session in the slot after a step was there before, perhaps without its last received file,
    or has just got there: it has received nothing and has no uploads. -/
theorem ProgressInv.slot_before (hinv : w.ProgressInv sha) (hstep : w.step sha a = some w')
    {s' : Session} (hs' : w'.state.currentSession = some s') :
    (w.state.currentSession = some s' ∧ ∀ u t, a = .upload u .record → ¬w.Recording u t s') ∨
      (∃ u t s, a = .upload u .record ∧ w.Recording u t s ∧
        s' = (s.markReceived t.fileId w.now).2) ∨
      (s'.received = ∅ ∧ w'.receivedBytes s'.id = 0 ∧
        ∀ u t, w'.uploads u = some t → t.grant.sessionId ≠ s'.id) := by
  have hprepare := hinv.lifecycle.prepare
  have hslot' : w'.slot.session = some s' := hs'
  -- a file is recorded, or the slot is not written by an upload
  by_cases hrec : ∃ u t s, a = .upload u .record ∧ w.Recording u t s
  · obtain ⟨u, t, s, rfl, hrec⟩ := hrec
    refine .inr (.inl ⟨u, t, s, rfl, hrec, ?_⟩)
    cases step_upload hstep with
    | record ht =>
      cases hrec.1.symm.trans ht
      rw [slot_record _ hrec] at hslot'
      dsimp only at hslot'
      split at hslot'
      · simp at hslot'
      · exact (Option.some.inj hslot').symm
  -- no record: the slot is as it was, is filled anew, or is empty
  cases slotMove_of_step hstep with
  | keep slot | consented _ _ _ _ _ slot | withdrawnLate _ _ _ slot =>
    rw [slot] at hslot'
    exact .inl ⟨hslot', fun u t ha h => hrec ⟨u, t, s', ha, h⟩⟩
  | @place h t id token _ _ _ _ fresh _ after slot =>
    rw [slot] at hslot'
    cases hslot'
    have hissued := (prepareInv_step hprepare hstep).issued h _ id after (.inl (by
      unfold PrepareTask.reservedAs
      split <;> rfl))
    refine .inr (.inr ⟨rfl, receivedBytes_of_fresh hstep fresh hissued, ?_⟩)
    intro u t' ht' (hid : t'.grant.sessionId = id)
    -- uploads are on sessions whose ids were issued before
    rcases granted_before hstep ht' with ⟨t₀, ht₀, _, hgrant⟩ | ⟨s, file, hs, _, hgrant⟩
    · rw [hgrant] at hid
      exact fresh (hid ▸ hinv.lifecycle.session u t₀ ht₀)
    · rw [hgrant] at hid
      exact fresh (hid ▸ hprepare.issued_current hs)
  -- the session that was built has received nothing, and no upload is of it
  | @installed h p s _ hp _ phase slot =>
    rw [slot] at hslot'
    cases hslot'
    have hwf := hprepare.wf h p hp
    simp only [PrepareTask.Wf, phase] at hwf
    obtain ⟨_, _, token, now, hnew⟩ := hwf
    refine .inr (.inr ⟨by rw [hnew]; rfl, ?_, ?_⟩)
    · have hissued := hinv.lifecycle.issued_hosted (.inr ⟨h, p, hp, phase⟩)
      rw [receivedBytes_of_other hstep hissued fun _ _ _ ha => (by cases ha)]
      exact hinv.untouched h p s' hp phase
    · intro u t' ht' hid
      rcases granted_before hstep ht' with ⟨t₀, ht₀, _, hgrant⟩ | ⟨s, file, hs, _, hgrant⟩
      · rw [hgrant] at hid
        exact hinv.lifecycle.apart u t₀ h p s' ht₀ hp phase hid.symm
      · rw [hgrant] at hid
        exact hprepare.ne_installing hs hp phase hid.symm
  -- a record has been ruled out, the others clear the slot
  | recorded hrec' => exact absurd ⟨_, _, _, rfl, hrec'⟩ hrec
  | refused _ _ _ slot | declined _ _ _ slot | delivered _ _ _ slot | withdrawn _ _ _ _ slot
  | cancelled _ _ _ _ _ slot | swept _ _ _ slot | stopped _ _ slot | completed _ _ slot =>
    rw [slot] at hslot'
    simp at hslot'

/-- Every step in which nothing is cut off of a rejected upload keeps the counters. -/
theorem progressInv_step (hinv : w.ProgressInv sha) (hstep : w.step sha a = some w')
    (hrun : RunsToCompletion w a w') (hrejects : RejectsWithin w a) : w'.ProgressInv sha := by
  have htasks := tasksListed_step hinv.tasks hstep
  -- the fields of the invariant in their order
  refine ⟨lifecycleInv_step hinv.lifecycle hstep, htasks, ?_, ?_, ?_, ?_, ?_⟩
  · intro u t' ht'
    rcases uploads_before hstep ht' with ht | ⟨b, l, _, _, hmove, _⟩
    · exact hinv.counts u t' ht
    · exact hmove.counts (hinv.counts u)
  · intro u t' ht'
    rcases uploads_before hstep ht' with ht | ⟨b, l, rfl, _, hmove, _⟩
    · exact hinv.live u t' ht
    · have hlive := hinv.live u
      generalize w.uploads u = old at hmove hlive
      cases hmove with
      | began => rfl
      | dropped => exact absurd rfl (hrun u)
      | _ => exact (hlive _ rfl :)
  · intro h p' s hp' phase'
    -- a session that was being built before, or a fresh one
    rcases installing_of_step hinv.lifecycle.prepare hstep hp' phase' with
      ⟨p, hp, phase⟩ | ⟨hissued, hfresh, _⟩
    · have hother : ∀ u b t, a = .upload u b → w.uploads u = some t → t.grant.sessionId ≠ s.id :=
        fun u _ t _ ht hid => hinv.lifecycle.apart u t h p s ht hp phase hid.symm
      rw [receivedBytes_of_other hstep (hinv.lifecycle.issued_hosted (.inr ⟨h, p, hp, phase⟩)) hother]
      exact hinv.untouched h p s hp phase
    · exact receivedBytes_of_fresh hstep hfresh hissued
  · intro u t' s' ht' hs' hid
    -- the grant of an upload keeps to the session it was given by
    have hsame : ∀ s, w.state.currentSession = some s → s'.id = s.id → s'.files = s.files →
        t'.grant.totalBytes = s'.totalBytes ∧
          (s'.files.get? t'.fileId).map FileMetadata.size = some t'.grant.declaredSize := by
      intro s hs hids hfiles
      unfold Session.totalBytes
      rw [hfiles]
      rcases granted_before hstep ht' with ⟨t, ht, hfile, hgrant⟩ | ⟨c, file, hc, hfile, hgrant⟩
      · rw [hgrant, hfile]
        exact hinv.granted u t s ht hs (by rw [← hids, hid, hgrant])
      · cases hs.symm.trans hc
        rw [hgrant, hfile]
        exact ⟨rfl, rfl⟩
    -- the session was in the slot, has received one file more, or is new there
    rcases hinv.slot_before hstep hs' with ⟨hs, _⟩ | ⟨v, t, s, _, hrec, rfl⟩ | ⟨_, _, hnone⟩
    · exact hsame s' hs rfl rfl
    · obtain ⟨hids, hfiles⟩ := markReceived_id s t.fileId w.now
      exact hsame s hrec.2.2.2.1 hids hfiles
    · exact absurd hid.symm (hnone u t' ht')
  · intro s' hs'
    rcases hinv.slot_before hstep hs' with ⟨hs, hkept⟩ | ⟨u, t, s, rfl, hrec, rfl⟩ |
        ⟨hreceived, hcounter, hnone⟩
    -- nothing recorded, one file recorded, a new session
    · exact hinv.credited_of_kept hstep hrun hrejects hs hkept
    · obtain ⟨hids, hfiles⟩ := markReceived_id s t.fileId w.now
      have hcredited := hinv.credited_of_recorded hstep hrec
      unfold Session.totalBytes at hcredited ⊢
      rw [hids, hfiles]
      exact hcredited
    · exact credited_of_new htasks hreceived hnone hcounter

/-- What is asked of a step and what it then gives are the same. -/
theorem countsFully_iff (hinv : w.ProgressInv sha) (hstep : w.step sha a = some w')
    (hrun : RunsToCompletion w a w') : CountsFully w a w' ↔ ProgressExact w a w' := by
  constructor
  · intro h
    have hinv' := progressInv_step hinv hstep hrun h.rejects
    refine ⟨fun s hs hquiet => (hinv'.exact_iff hs hquiet).mpr (h.fits s hs hquiet), ?_⟩
    rintro u t s rfl ht hs hid
    exact (hinv.rejects_iff hstep ht hs hid).mp (h.rejects u t s rfl ht hs hid)
  · intro h
    -- the step's own rejection shows whether it stayed within the total
    have hrejects : RejectsWithin w a := by
      rintro u t s rfl ht hs hid
      exact (hinv.rejects_iff hstep ht hs hid).mpr (h.others u t s rfl ht hs hid)
    have hinv' := progressInv_step hinv hstep hrun hrejects
    exact ⟨hrejects, fun s hs hquiet => (hinv'.exact_iff hs hquiet).mp (h.exact s hs hquiet)⟩

/-- In every run of uploads to completion: whenever no upload of the session is in flight its
    counter is exact, and no rejection takes bytes of others, if and only if every rejection stays
    within the session's total and the received sizes fit 64 bits. -/
theorem receive_progress (sha : List UInt8 → String) (c : ServerConfig) (as : List Action) :
    (receiver sha).Always (fun w a w' => RunsToCompletion w a w' ∧ CountsFully w a w')
        (World.start c) as ↔
      (receiver sha).Always (fun w a w' => RunsToCompletion w a w' ∧ ProgressExact w a w')
        (World.start c) as := by
  apply (receiver sha).always_iff_of_invariant (ProgressInv sha) _ (progressInv_start c)
  intro w a w' hinv hstep
  refine ⟨and_congr_right fun hrun => countsFully_iff hinv hstep hrun, fun h => ?_⟩
  exact progressInv_step hinv hstep h.1 h.2.rejects

end World

namespace Scenario

/-- An offer of two files of one byte each. -/
def pair : PrepareUploadRequest where
  info := offer.info
  files := ⟨[(⟨"f"⟩, file), (⟨"g"⟩, { file with id := ⟨"g"⟩, fileName := "b.bin" })], by decide⟩

/-- Alice's two files are accepted. The first one is received; the body of the second one is three
    bytes long. -/
def overlong : List Action :=
  [.env (.setAutoAccept true),
    .prepare 0 (.checkPin alice none pair),
    .prepare 0 (.reserve ⟨"reserved"⟩ (token "r")),
    .prepare 0 (.clearAwaiting ⟨"session"⟩ (token "s")),
    .prepare 0 .install,
    .upload 0 (.begin_ ⟨"session"⟩ ⟨"f"⟩ ⟨"s"⟩),
    .upload 0 (.sinkCreated (.ok ⟨["a.bin"]⟩)),
    .upload 0 (.chunk [0]),
    .upload 0 (.chunkWritten true),
    .upload 0 .reportProgress,
    .upload 0 .streamEnd,
    .upload 0 (.flushed true),
    .upload 0 .publish,
    .upload 0 (.committed (some ⟨["a.bin"]⟩)),
    .upload 0 .record,
    .upload 1 (.begin_ ⟨"session"⟩ ⟨"g"⟩ ⟨"s"⟩),
    .upload 1 (.sinkCreated (.ok ⟨["b.bin"]⟩)),
    .upload 1 (.chunk [0, 0, 0]),
    .upload 1 (.chunkWritten true),
    .upload 1 .reportProgress,
    .upload 1 .streamEnd,
    .upload 1 (.flushed true)]

/-- Whether an action lets the upload it is about run on. -/
def runsOn : Action → Bool
  | .upload _ .drop => false
  | _ => true

end Scenario

namespace World

/-- The rejection of an overlong second file takes the bytes of the first one off the counter. -/
theorem receive_progress_overlong :
    ¬∀ (sha : List UInt8 → String) (c : ServerConfig) (as : List Action),
      (receiver sha).Always RunsToCompletion (World.start c) as →
        (receiver sha).Always ProgressExact (World.start c) as := by
  intro h
  have hcompletion : (receiver Scenario.digest).Always RunsToCompletion
      (World.start Scenario.config) (Scenario.overlong ++ [.upload 1 .reject]) := by
    apply (receiver Scenario.digest).always_of_allPass (fun _ a => Scenario.runsOn a)
    -- none of these actions drops an upload
    · intro w a w' htest u ha
      subst ha
      simp [Scenario.runsOn] at htest
    · decide
  refine (receiver Scenario.digest).not_always_of_test (World.start Scenario.config)
    Scenario.overlong (.upload 1 .reject)
    (fun w w' => w.state.currentSession.any fun s => (w.uploads 1).any fun t =>
      s.id = t.grant.sessionId && w'.receivedBytes s.id < min (w.receivedBytes s.id) s.receivedSize)
    (by decide +kernel) ?_ (h Scenario.digest Scenario.config _ hcompletion)
  intro w w' _ htest hexact
  simp only [Option.any_eq_true, Bool.and_eq_true, decide_eq_true_eq] at htest
  obtain ⟨s, hs, t, ht, hid, hlost⟩ := htest
  -- the rejection takes away more than the upload had left in the counter
  have hothers := hexact.others 1 t s rfl ht hs hid
  unfold creditedBytes at hothers
  omega

end World

end LocalSend
