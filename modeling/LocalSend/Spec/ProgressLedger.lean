import LocalSend.Spec.SinkInvariant

/-!
# The progress an upload has on the session's counter

`received_bytes` is shared by the uploads of a session: an upload adds what it reads
chunk by chunk and takes it back when it is turned down. Both ends are clamped, at the
total of the session and at zero. As long as none of its own reports and rollbacks was
clamped, an upload has moved the counter by exactly what it has reported.

## Key results

- `UploadMove.counts`: what an upload takes back is what it has reported
- `ledgerInv_step`: the ledger of an upload that was not clamped
-/

namespace LocalSend

/-- How the byte count of an upload and what it has reported relate in a given phase. -/
def UploadPhase.Counts (p : UploadPhase) (b : BodyWriter) : Prop :=
  match p with
  | .creating => b.reported = 0 ∧ b.bytesWritten = 0
  | .streaming | .flushing | .validated | .surrendering | .committing | .recording _ =>
    b.reported = b.bytesWritten
  | .writing _ | .reporting => b.reported ≤ b.bytesWritten
  | .rejecting amount _ _ => amount = b.reported
  | .aborting _ | .answered _ => True

/-- What an upload takes back is what it has reported. -/
theorem UploadMove.counts {sha : List UInt8 → String} {w : World} {old : Option UploadTask}
    {a : UploadAction} {t' : UploadTask} {l : ReceiveLifecycle}
    (hmove : UploadMove sha w old a t' l) (hold : ∀ t, old = some t → t.phase.Counts t.body) :
    t'.phase.Counts t'.body := by
  have hphase : ∀ {t p}, old = some t → t.phase = p → p.Counts t.body := by
    intro t p ht phase
    rw [← phase]
    exact hold t ht
  cases hmove with
  | began => exact ⟨rfl, rfl⟩
  -- nothing has been read, and nothing reported
  | @created t path phase =>
    have h : t.body.reported = 0 ∧ t.body.bytesWritten = 0 := hphase rfl phase
    exact h.1.trans h.2.symm
  -- the chunk is counted before it is reported
  | @received t chunk phase =>
    have h : t.body.reported = t.body.bytesWritten := hphase rfl phase
    show t.body.reported ≤ t.body.bytesWritten + chunk.length
    omega
  | @wrote t chunk phase =>
    have h : t.body.reported ≤ t.body.bytesWritten := hphase rfl phase
    exact h
  -- between two chunks all that was counted has been reported
  | @ended t phase | @valid t phase | @won t phase | @lost t phase | @committed t _ phase =>
    have h : t.body.reported = t.body.bytesWritten := hphase rfl phase
    exact h
  | reported | streamFailed | notWritten | interrupted => exact rfl
  -- the amount to be rolled back is what was reported
  | @invalid t ok amount phase hbad hamount =>
    have h : t.body.reported = t.body.bytesWritten := hphase rfl phase
    show amount = t.body.reported
    omega
  | @surrendered t phase | @notCommitted t phase =>
    have h : t.body.reported = t.body.bytesWritten := hphase rfl phase
    exact h.symm
  | rejected | notCreated | gaveUp | aborted | recorded | orphaned => exact trivial
  | @dropped t => exact hold t rfl

namespace World

/-- The counter of an upload's session after one of its sections. -/
def counterAfter (w : World) (t : UploadTask) (b : UploadAction) : Nat :=
  match b, t.phase with
  | .reportProgress, _ => min (w.receivedBytes t.grant.sessionId +
      (t.body.bytesWritten - t.body.reported)) t.grant.totalBytes
  | .reject, .rejecting amount _ _ => w.receivedBytes t.grant.sessionId - amount
  | _, _ => w.receivedBytes t.grant.sessionId

/-- What a section of an upload does to the counter of its session. -/
theorem receivedBytes_of_upload {sha : List UInt8 → String} {w w' : World} {u : TaskId}
    {b : UploadAction} {t : UploadTask} (hstep : w.step sha (.upload u b) = some w')
    (ht : w.uploads u = some t) : w'.receivedBytes t.grant.sessionId = w.counterAfter t b := by
  cases step_upload hstep with
  | begin_ fresh => cases ht.symm.trans fresh
  -- the difference is added, clamped at the total
  | @reportProgress t' ht' live phase =>
    cases ht.symm.trans ht'
    simp [counterAfter, reportProgress, addProgress, emitProgress, trySend, observe, setUpload]
  -- the amount is taken back, stopping at 0
  | @reject t' amount status abort ht' live phase =>
    cases ht.symm.trans ht'
    unfold counterAfter
    rw [phase]
    cases abort <;>
      simp [rejectUpload, rollbackProgress, emitProgress, trySend, observe, setUpload,
        answerUpload, dropHandle, setLifecycle]
  -- no other section touches the counter
  | chunk | streamError | streamEnd | interrupt | aborted | surrender | drop => rfl
  | @sinkCreated t' result => rcases result with (reason | reason) | path <;> rfl
  | @chunkWritten t' chunk ok => cases ok <;> rfl
  | @flushed t' ok =>
    rcases bodyFlushed_cases sha w u t' ok with ⟨_, _, heq⟩ | ⟨_, _, _, heq⟩ <;> rw [heq] <;> rfl
  | publish =>
    unfold publish
    split <;> rfl
  | @committed t' result => cases result <;> rfl
  | record =>
    unfold record
    split
    · rfl
    · dsimp only
      split <;> rfl

/-- Taking a lease leaves the counters alone. -/
theorem receivedBytes_beginUpload (w : World) (u : TaskId) (x : SessionId) (f : FileId)
    (token : Token) : (w.beginUpload u x f token).receivedBytes = w.receivedBytes := by
  unfold beginUpload
  repeat' split
  all_goals rfl

end World

/-- What an upload still has on the counter in a given phase. -/
def UploadPhase.owes (p : UploadPhase) (b : BodyWriter) : Nat :=
  match p with
  | .aborting _ => 0
  | _ => b.reported

namespace DiskWorld

variable {sha : List UInt8 → String} {d d' : DiskWorld} {a : DiskAction}

/-- The ledger of an upload that was not clamped tells what it still has on the counter. -/
structure LedgerInv (d : DiskWorld) (u : TaskId) : Prop where
  fresh : d.world.uploads u = none → d.ledger u = 0 ∧ d.clamped u = false
  live : ∀ t, d.world.uploads u = some t → t.dropped = false →
    t.phase.Counts t.body ∧ (d.clamped u = false → (∀ status, t.phase ≠ .answered status) →
      d.ledger u = t.phase.owes t.body)

/-- A section of the upload itself. -/
theorem ledgerInv_book {u : TaskId} {b : UploadAction} {w' : World} (hinv : d.LedgerInv u)
    (hstep : d.world.step sha (.upload u b) = some w') :
    (d.book w' (.upload u b)).LedgerInv u := by
  have hledger : (d.book w' (.upload u b)).ledger u = d.ledger u + d.world.counterMoved w' u :=
    Function.update_self ..
  have hclamped : (d.book w' (.upload u b)).clamped u =
      (d.clamped u || (d.world.uploads u).any fun t => d.world.clamps t b) :=
    Function.update_self ..
  -- before the lease the upload has moved nothing
  cases hold : d.world.uploads u with
  | none =>
    obtain ⟨hzero, hfree⟩ := hinv.fresh hold
    have hbytes : w'.receivedBytes = d.world.receivedBytes := by
      cases World.step_upload hstep with
      | begin_ => exact World.receivedBytes_beginUpload ..
      | sinkCreated ht | chunk ht | streamError ht | streamEnd ht | chunkWritten ht
      | reportProgress ht | flushed ht | interrupt ht | reject ht | aborted ht | publish ht
      | surrender ht | committed ht | record ht | drop ht => cases hold.symm.trans ht
    have hmoved : d.world.counterMoved w' u = 0 := by
      unfold World.counterMoved
      rw [hbytes]
      split <;> simp
    rw [hold, hfree] at hclamped
    rw [hzero, hmoved] at hledger
    refine ⟨fun _ => ⟨hledger, hclamped⟩, fun t' ht' live' => ?_⟩
    rw [world_book] at ht'
    rcases World.uploads_before hstep ht' with hsame | ⟨c, l, hc, _, hmove, _⟩
    · cases hold.symm.trans hsame
    · rw [hold] at hmove
      cases hmove with
      | began => exact ⟨⟨rfl, rfl⟩, fun _ _ => hledger⟩
  -- afterwards it has moved what it owes
  | some t =>
    rcases World.uploads_of_step hstep hold with ⟨_, hne⟩ | ⟨c, t', l, hc, live, ht', hmove, _⟩
    · exact absurd rfl (hne b)
    cases hc
    obtain ⟨hcounts, hlive⟩ := hinv.live t hold live
    have hcounts' : t'.phase.Counts t'.body := by
      refine hmove.counts fun x hx => ?_
      cases hx
      exact hcounts
    have hmoved : d.world.counterMoved w' u =
        d.world.counterAfter t b - d.world.receivedBytes t.grant.sessionId := by
      unfold World.counterMoved
      rw [ht']
      dsimp only
      rw [hmove.grant_eq.2, World.receivedBytes_of_upload hstep hold]
    rw [hmoved] at hledger
    rw [hold, Option.any_some] at hclamped
    have ht'' : (d.book w' (.upload u b)).world.uploads u = some t' := by rw [world_book, ht']
    refine ⟨fun hnone => (by cases ht''.symm.trans hnone), fun x hx live' => ?_⟩
    cases ht''.symm.trans hx
    refine ⟨hcounts', fun hc hanswered => ?_⟩
    -- neither before nor in this section was the counter clamped
    rw [hclamped, Bool.or_eq_false_iff] at hc
    obtain ⟨hfree, hclamps⟩ := hc
    have howed := hlive hfree fun status => hmove.ne_answered
    rw [hledger, howed]
    -- only a report and a rejection move the counter
    cases hmove with
    | @reported t phase =>
      rw [phase] at hcounts
      have hle : t.body.reported ≤ t.body.bytesWritten := hcounts
      have hroom : ¬d.world.receivedBytes t.grant.sessionId +
          (t.body.bytesWritten - t.body.reported) > t.grant.totalBytes := of_decide_eq_false hclamps
      simp only [World.counterAfter, UploadPhase.owes, phase]
      omega
    | @rejected t amount status phase =>
      rw [phase] at hcounts
      have hamount : amount = t.body.reported := hcounts
      have hroom : ¬amount > d.world.receivedBytes t.grant.sessionId := by
        simp only [World.clamps, phase, decide_eq_false_iff_not] at hclamps
        exact hclamps
      -- the whole amount goes back, since it is in the counter
      simp only [World.counterAfter, UploadPhase.owes, phase]
      omega
    | notCreated | gaveUp | aborted | recorded | orphaned => exact absurd rfl (hanswered _)
    | dropped => simp at live'
    | created phase | received phase | streamFailed phase | ended phase | wrote phase
    | notWritten phase | invalid phase | valid phase | won phase | lost phase
    | surrendered phase | committed phase | notCommitted phase =>
      simp [World.counterAfter, UploadPhase.owes, phase]
    -- an interrupt comes while the body is read, where nothing has been rolled back
    | interrupted phase =>
      have howes : t.phase.owes t.body = t.body.reported := by
        cases hp : t.phase with
        | aborting =>
          rw [hp] at phase
          cases phase
        | _ => rfl
      rw [howes]
      simp [World.counterAfter, UploadPhase.owes]

/-- Only the record and the ledger of the upload matter. -/
theorem LedgerInv.congr {u : TaskId} (hinv : d.LedgerInv u)
    (huploads : d'.world.uploads u = d.world.uploads u) (hledger : d'.ledger u = d.ledger u)
    (hclamped : d'.clamped u = d.clamped u) : d'.LedgerInv u where
  fresh hnone := by
    rw [hledger, hclamped]
    exact hinv.fresh (huploads.symm.trans hnone)
  live t ht live := by
    rw [hledger, hclamped]
    exact hinv.live t (huploads.symm.trans ht) live

/-- Every step keeps the ledgers. -/
theorem ledgerInv_step (hsink : ∀ u, d.SinkInv u) (hinv : ∀ u, d.LedgerInv u)
    (hstep : d.step sha a = some d') (u : TaskId) : d'.LedgerInv u := by
  replace hstep := step_disk hstep
  -- the sections of this upload, with what the sink does in between
  by_cases hu : a.actor = some u
  · cases hstep with
    | @other b w' hstep hother =>
      cases b with
      | upload v b => exact absurd rfl (hother v b)
      | _ => exact nomatch hu
    | turnedAway hstep | moved hstep =>
      cases hu
      exact ledgerInv_book (hinv u) hstep
    | began hstep | wrote hstep | commits hstep | aborts hstep =>
      cases hu
      exact (ledgerInv_book (hinv u) hstep).congr rfl rfl rfl
    -- a refused name is two sections of the receiver
    | @refusedName _ b w' w'' t e hstep _ _ _ hstep' =>
      cases hu
      have hsecond : (d.book w' (.upload u b)).world.step sha
          (.upload u (.sinkCreated (.error e))) = some w'' := by
        rw [world_book]
        exact hstep'
      exact ledgerInv_book (ledgerInv_book (hinv u) hstep) hsecond
    | awaited =>
      cases hu
      exact (hinv u).congr rfl rfl rfl
    | @returned _ fault uuid s c next b w' _ _ _ _ hstep =>
      cases hu
      have hbefore : ((d.runCall u fault c).2.setSink u next.left).LedgerInv u :=
        (hinv u).congr rfl rfl rfl
      exact ledgerInv_book hbefore hstep
    -- dropping the sink is none of the receiver's books
    | @dropped _ faults w' hstep =>
      cases hu
      refine (ledgerInv_book (hinv u) hstep).congr ?_ ?_ ?_
      · rw [world_dropSink]
      · rw [ledger_dropSink]
      · rw [clamped_dropSink]
    | detached =>
      cases hu
      exact (hinv u).congr rfl rfl rfl
  · have hsame := sameFor_of_step hsink hstep hu
    exact (hinv u).congr hsame.uploads hsame.ledger hsame.clamped

theorem ledgerInv_start (c : ServerConfig) (fs : FileSystem PathBuf) (u : TaskId) :
    (DiskWorld.start c fs).LedgerInv u where
  fresh _ := ⟨rfl, rfl⟩
  live _ ht := by cases ht

end DiskWorld

end LocalSend
