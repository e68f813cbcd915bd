import LocalSend.Spec.SinkFiles

/-!
# What each upload holds of the sink

In every reachable state the record of an upload, what it holds of the sink and its
files on the disk fit together (`SinkInv`), and a step is no concern of the uploads
other than its own.

## Key results

- `dropSink_own`: what the drop of an upload's part in the sink leaves
- `sameFor_of_step`: a step changes nothing of another upload
- `sinkInv_step`: every step keeps the invariant of every upload
-/

namespace LocalSend

/-- The upload whose section, call or drop an action is. -/
def DiskAction.actor : DiskAction → Option TaskId
  | .receiver (.upload u _) | .sinkCall u _ _ | .disconnect u _ | .detachedCall u _ => some u
  | .receiver _ => none

/-- Only a drop drops. -/
theorem UploadMove.dropped_eq {sha : List UInt8 → String} {w : World} {t t' : UploadTask}
    {b : UploadAction} {l : ReceiveLifecycle} (hmove : UploadMove sha w (some t) b t' l)
    (hb : b ≠ .drop) : t'.dropped = t.dropped := by
  cases hmove with
  | dropped => exact absurd rfl hb
  | _ => rfl

/-- No future of the sink drops its upload. -/
theorem SinkStep.returns_ne_drop (next : SinkStep) {b : UploadAction}
    (h : next.returns = some b) : b ≠ .drop := by
  cases next with
  | awaits => cases h
  | created | committed | aborted =>
    cases h
    simp

/-- A commit that its upload takes for a success has returned a path. -/
theorem SinkStep.eq_of_returns_committed {next : SinkStep} {path : PathBuf}
    (h : next.returns = some (.committed (some path))) : next = .committed (.ok path) := by
  cases next with
  | committed result =>
    cases result with
    | error e => cases h
    | ok p =>
      cases h
      rfl
  | awaits | created | aborted => exact nomatch h

namespace DiskWorld

variable {sha : List UInt8 → String} {d d' : DiskWorld} {a : DiskAction}

/-- How the record of upload `u`, what it holds of the sink and its files fit together. -/
structure SinkInv (d : DiskWorld) (u : TaskId) : Prop where
  fresh : d.world.uploads u = none →
    d.sinks u = none ∧ d.detached u = none ∧ ∀ p, ¬d.Own u p
  live : ∀ t, d.world.uploads u = some t → t.dropped = false →
    d.detached u = none ∧ t.phase.sinkUse.Fits (d.sinks u) ∧
      (∀ s, d.sinks u = some s → d.Holds u s) ∧ ∀ path, t.phase = .recording path → d.Own u path
  dropped : ∀ t, d.world.uploads u = some t → t.dropped = true →
    d.sinks u = none ∧ ∀ c, d.detached u = some c → ∀ p ∈ c.replaces, d.Own u p

/-- An upload that holds something of the sink is live, and its files are those its future
    has in place. -/
theorem SinkInv.of_sink {u : TaskId} {s : SinkTask} (hinv : d.SinkInv u) (hs : d.sinks u = some s) :
    ∃ t, d.world.uploads u = some t ∧ t.dropped = false ∧ d.detached u = none ∧
      s.use = t.phase.sinkUse ∧ s.Armed ∧ d.Holds u s := by
  cases ht : d.world.uploads u with
  | none => cases hs.symm.trans (hinv.fresh ht).1
  | some t =>
    cases hd : t.dropped with
    | true => cases hs.symm.trans (hinv.dropped t ht hd).1
    | false =>
      obtain ⟨hdetached, hfits, hholds, _⟩ := hinv.live t ht hd
      rw [hs] at hfits
      exact ⟨t, rfl, hd, hdetached, hfits.1, hfits.2, hholds s hs⟩

/-- A detached call replaces only files of its upload. -/
theorem SinkInv.of_detached {u : TaskId} {c : FsCall PathBuf} (hinv : d.SinkInv u)
    (hc : d.detached u = some c) :
    (∃ t, d.world.uploads u = some t ∧ t.dropped = true) ∧ ∀ p ∈ c.replaces, d.Own u p := by
  cases ht : d.world.uploads u with
  | none => cases hc.symm.trans (hinv.fresh ht).2.1
  | some t =>
    cases hd : t.dropped with
    | true => exact ⟨⟨t, rfl, hd⟩, (hinv.dropped t ht hd).2 c hc⟩
    | false => cases hc.symm.trans (hinv.live t ht hd).1

/-- Nothing of upload `v` has changed. -/
structure SameFor (d : DiskWorld) (v : TaskId) (d' : DiskWorld) : Prop where
  uploads : d'.world.uploads v = d.world.uploads v
  sinks : d'.sinks v = d.sinks v
  detached : d'.detached v = d.detached v
  own : ∀ p, d'.Own v p ↔ d.Own v p
  ledger : d'.ledger v = d.ledger v
  clamped : d'.clamped v = d.clamped v

theorem SameFor.trans {v : TaskId} {d'' : DiskWorld} (h : d.SameFor v d') (h' : d'.SameFor v d'') :
    d.SameFor v d'' where
  uploads := h'.uploads.trans h.uploads
  sinks := h'.sinks.trans h.sinks
  detached := h'.detached.trans h.detached
  own p := (h'.own p).trans (h.own p)
  ledger := h'.ledger.trans h.ledger
  clamped := h'.clamped.trans h.clamped

/-- The invariant is about the upload itself only. -/
theorem SinkInv.of_same {v : TaskId} (hinv : d.SinkInv v) (h : d.SameFor v d') : d'.SinkInv v where
  fresh ht := by
    simp only [h.sinks, h.detached, h.own]
    exact hinv.fresh (h.uploads.symm.trans ht)
  live t ht live := by
    obtain ⟨hdetached, hfits, hholds, hpath⟩ := hinv.live t (h.uploads.symm.trans ht) live
    rw [h.sinks, h.detached]
    exact ⟨hdetached, hfits, fun s hs => (hholds s hs).same h.own rfl,
      fun path hp => (h.own path).mpr (hpath path hp)⟩
  dropped t ht hd := by
    simp only [h.sinks, h.detached, h.own]
    exact hinv.dropped t (h.uploads.symm.trans ht) hd

theorem uploads_of_ne {w w' : World} {u v : TaskId} {b : UploadAction}
    (hstep : w.step sha (.upload u b) = some w') (hv : v ≠ u) : w'.uploads v = w.uploads v := by
  rcases World.uploadMove_of_uploadStep (World.step_upload hstep) with
    ⟨_, hsame, _⟩ | ⟨t', l, _, heffect⟩
  · rw [hsame]
  · rw [heffect.uploads, Function.update_of_ne hv]

theorem sameFor_book {u v : TaskId} {b : UploadAction} {w' : World}
    (hstep : d.world.step sha (.upload u b) = some w') (hv : v ≠ u) :
    d.SameFor v (d.book w' (.upload u b)) where
  uploads := uploads_of_ne hstep hv
  sinks := rfl
  detached := rfl
  own _ := own_congr rfl rfl
  ledger := Function.update_of_ne hv _ _
  clamped := Function.update_of_ne hv _ _

theorem sameFor_setSink {u v : TaskId} {s : Option SinkTask} (hv : v ≠ u) :
    d.SameFor v (d.setSink u s) :=
  ⟨rfl, Function.update_of_ne hv _ _, rfl, fun _ => own_congr rfl rfl, rfl, rfl⟩

theorem sameFor_runCall {u v : TaskId} {fault : Bool} {c : FsCall PathBuf} (hv : v ≠ u)
    (howned : ∀ p ∈ c.replaces, d.Own u p) : d.SameFor v (d.runCall u fault c).2 :=
  ⟨rfl, rfl, rfl, fun _ => own_runCall_of_ne hv howned, rfl, rfl⟩

/-- Removing a file that is there succeeds, unless the device fails it. -/
theorem removeFile_reply {u v : TaskId} {p : PathBuf} (hown : d.Own v p) :
    (d.runCall u false (.removeFile p)).1 = .ok .done := by
  obtain ⟨i, hi, _⟩ := hown
  show (d.fs.attempt false (.removeFile p)).1 = _
  simp [FileSystem.attempt, FileSystem.run, hi]

/-- What is left of an upload's files after a removal. -/
theorem own_removeFile {u : TaskId} {fault : Bool} {p q : PathBuf} (hown : d.Own u p) :
    (d.runCall u fault (.removeFile p)).2.Own u q ↔ (q = p → fault = true) ∧ d.Own u q := by
  cases fault with
  | true =>
    rw [own_runCall_of_error (e := .other) rfl]
    simp
  | false =>
    rw [own_runCall, removeFile_reply hown]
    simp

/-- Both removals of a drop act on the upload's own files. -/
theorem removeBoth_own (d : DiskWorld) (u : TaskId) (faults : Bool × Bool)
    (paths : PathBuf × PathBuf) (htemp : d.Own u paths.1) (hfinal : d.Own u paths.2)
    (hne : paths.1 ≠ paths.2) :
    (∀ v, v ≠ u → d.SameFor v (d.removeBoth u faults paths)) ∧
      ∀ q, (d.removeBoth u faults paths).Own u q ↔
        (q = paths.1 → faults.1 = true) ∧ (q = paths.2 → faults.2 = true) ∧ d.Own u q := by
  -- the first removal leaves the second path alone
  have hfinal' : (d.runCall u faults.1 (.removeFile paths.1)).2.Own u paths.2 :=
    (own_removeFile htemp).mpr ⟨fun h => absurd h.symm hne, hfinal⟩
  constructor
  · intro v hv
    refine (sameFor_runCall hv ?_).trans (sameFor_runCall hv ?_)
    · intro p hp
      rw [List.mem_singleton.mp hp]
      exact htemp
    · intro p hp
      rw [List.mem_singleton.mp hp]
      exact hfinal'
  · intro q
    show ((d.runCall u faults.1 (.removeFile paths.1)).2.runCall u faults.2
      (.removeFile paths.2)).2.Own u q ↔ _
    rw [own_removeFile hfinal', own_removeFile htemp]
    exact ⟨fun ⟨h₂, h₁, h⟩ => ⟨h₁, h₂, h⟩, fun ⟨h₁, h₂, h⟩ => ⟨h₂, h₁, h⟩⟩

/-- What a drop leaves of an upload's files, and of everybody else's. -/
theorem dropSink_own {u : TaskId} {s : SinkTask} {faults : Bool × Bool} (hs : d.sinks u = some s)
    (harmed : s.Armed) (hholds : d.Holds u s) :
    (∀ v, v ≠ u → d.SameFor v (d.dropSink u faults)) ∧
      ∀ q, (d.dropSink u faults).Own u q ↔ d.Own u q ∧
        ∀ file, s = .pending file →
          (q = file.tempPath → faults.1 = true) ∧ (q = file.finalPath → faults.2 = true) := by
  -- clearing the sink touches no file
  have hfirst : ∀ v, v ≠ u → d.SameFor v
      { d.setSink u none with detached := Function.update d.detached u s.call } := fun v hv =>
    ⟨rfl, Function.update_of_ne hv _ _, Function.update_of_ne hv _ _, fun _ => own_congr rfl rfl,
      rfl, rfl⟩
  unfold dropSink
  rw [hs]
  dsimp only
  -- only an armed pending file removes what it holds
  cases hdrop : s.drop with
  | none =>
    refine ⟨hfirst, fun q => ?_⟩
    refine ((own_congr (d := d) (q := q) rfl rfl)).trans (iff_self_and.mpr ?_)
    rintro - file rfl
    have htemp : file.temp.isSome = true := harmed
    simp [SinkTask.drop, AtomicPendingFile.drop, htemp] at hdrop
  | some paths =>
    -- the two paths are the upload's own, and apart
    obtain ⟨file, rfl, rfl⟩ := SinkTask.drop_eq_some harmed hdrop
    have hnodup : [file.tempPath, file.finalPath].Nodup := hholds.nodup
    have htemp : d.Own u file.tempPath := (hholds.own _).mpr (by simp [SinkTask.holds])
    have hfinal : d.Own u file.finalPath := (hholds.own _).mpr (by simp [SinkTask.holds])
    let cleared : DiskWorld :=
      { d.setSink u none with detached := Function.update d.detached u none }
    obtain ⟨hothers, hown⟩ := removeBoth_own cleared u faults (file.tempPath, file.finalPath)
      htemp hfinal (by simpa using hnodup)
    refine ⟨fun v hv => (hfirst v hv).trans (hothers v hv), fun q => ?_⟩
    rw [show SinkTask.call (.pending file) = none from rfl, hown]
    constructor
    · rintro ⟨h₁, h₂, h⟩
      refine ⟨h, fun f hf => ?_⟩
      cases hf
      exact ⟨h₁, h₂⟩
    · rintro ⟨h, hfile⟩
      exact ⟨(hfile file rfl).1, (hfile file rfl).2, h⟩

/-- An upload that is dropped while it holds nothing of the sink leaves the sink alone. -/
theorem dropSink_of_none {u : TaskId} {faults : Bool × Bool} (hs : d.sinks u = none) :
    d.dropSink u faults = d := by
  unfold dropSink
  rw [hs]

@[simp] theorem sinks_dropSink (u : TaskId) (faults : Bool × Bool) :
    (d.dropSink u faults).sinks = Function.update d.sinks u none := by
  cases hs : d.sinks u with
  | none =>
    rw [dropSink_of_none hs]
    exact (Function.update_eq_self_iff.mpr hs.symm).symm
  | some s =>
    unfold dropSink
    rw [hs]
    dsimp only
    split <;> rfl

theorem detached_dropSink {u : TaskId} {faults : Bool × Bool} {s : SinkTask}
    (hs : d.sinks u = some s) : (d.dropSink u faults).detached u = s.call := by
  have hself : Function.update d.detached u s.call u = s.call := Function.update_self ..
  unfold dropSink
  rw [hs]
  dsimp only
  split <;> exact hself

/-- A step is no concern of the other uploads. -/
theorem sameFor_of_step (hinv : ∀ u, d.SinkInv u) (hstep : DiskStep sha d a d') {v : TaskId}
    (hv : a.actor ≠ some v) : d.SameFor v d' := by
  -- an action of another upload
  have hne : ∀ {u}, a.actor = some u → v ≠ u := by
    rintro u hu rfl
    exact hv hu
  cases hstep with
  | @other b w' hstep hother =>
    refine ⟨?_, rfl, rfl, fun _ => own_congr rfl rfl, rfl, rfl⟩
    -- the receiver's own steps are about no sink
    rcases World.uploadMove_of_step hstep with ⟨u, c, _, _, hb, _⟩ | ⟨hsame, _⟩
    · exact absurd hb (hother u c)
    · exact congrFun hsame v
  | turnedAway hstep | moved hstep => exact sameFor_book hstep (hne rfl)
  | began hstep | commits hstep | aborts hstep =>
    exact (sameFor_book hstep (hne rfl)).trans (sameFor_setSink (hne rfl))
  | @refusedName u b w' w'' t e hstep _ _ _ hstep' =>
    have hsecond : (d.book w' (.upload u b)).world.step sha (.upload u (.sinkCreated (.error e))) =
        some w'' := by
      rw [world_book]
      exact hstep'
    exact (sameFor_book hstep (hne rfl)).trans (sameFor_book hsecond (hne rfl))
  | wrote hstep =>
    have hbook := sameFor_book hstep (hne rfl)
    exact ⟨hbook.uploads, hbook.sinks, hbook.detached, fun _ => own_congr rfl rfl, hbook.ledger,
      hbook.clamped⟩
  -- a call that is answered replaces only files of its own upload
  | @awaited u fault uuid s c next hs hc =>
    obtain ⟨_, _, _, _, _, _, hholds⟩ := (hinv u).of_sink hs
    exact (sameFor_runCall (hne rfl) (hholds.replaces hc)).trans (sameFor_setSink (hne rfl))
  | @returned u fault uuid s c next b w' hs hc _ _ hstep =>
    obtain ⟨_, _, _, _, _, _, hholds⟩ := (hinv u).of_sink hs
    have hanswered : ((d.runCall u fault c).2.setSink u next.left).world.step sha (.upload u b) =
        some w' := hstep
    exact ((sameFor_runCall (hne rfl) (hholds.replaces hc)).trans
      (sameFor_setSink (hne rfl))).trans (sameFor_book hanswered (hne rfl))
  | @dropped u faults w' hstep =>
    refine (sameFor_book hstep (hne rfl)).trans ?_
    -- what is dropped removes only its own
    cases hs : d.sinks u with
    | none =>
      rw [dropSink_of_none (by rw [sinks_book, hs])]
      exact ⟨rfl, rfl, rfl, fun _ => Iff.rfl, rfl, rfl⟩
    | some s =>
      obtain ⟨_, _, _, _, _, harmed, hholds⟩ := (hinv u).of_sink hs
      have hs' : (d.book w' (.upload u .drop)).sinks u = some s := by rw [sinks_book, hs]
      exact (dropSink_own hs' harmed (hholds.same (fun _ => own_congr rfl rfl) rfl)).1 v (hne rfl)
  | @detached u fault c hc =>
    have hrun : d.SameFor v (d.runCall u fault c).2 :=
      sameFor_runCall (hne rfl) ((hinv u).of_detached hc).2
    exact ⟨hrun.uploads, hrun.sinks, Function.update_of_ne (hne rfl) _ _, hrun.own, hrun.ledger,
      hrun.clamped⟩

/-- The invariant of a live upload. -/
theorem SinkInv.of_live {u : TaskId} {t : UploadTask} (ht : d.world.uploads u = some t)
    (live : t.dropped = false) (hdetached : d.detached u = none)
    (hfits : t.phase.sinkUse.Fits (d.sinks u)) (hholds : ∀ s, d.sinks u = some s → d.Holds u s)
    (hpath : ∀ path, t.phase = .recording path → d.Own u path) : d.SinkInv u where
  fresh hnone := by cases ht.symm.trans hnone
  live t' ht' _ := by
    cases ht.symm.trans ht'
    exact ⟨hdetached, hfits, hholds, hpath⟩
  dropped t' ht' hd := by
    cases ht.symm.trans ht'
    cases live.symm.trans hd

/-- The invariant of a dropped upload. -/
theorem SinkInv.of_dropped {u : TaskId} {t : UploadTask} (ht : d.world.uploads u = some t)
    (hd : t.dropped = true) (hs : d.sinks u = none)
    (hdetached : ∀ c, d.detached u = some c → ∀ p ∈ c.replaces, d.Own u p) : d.SinkInv u where
  fresh hnone := by cases ht.symm.trans hnone
  live t' ht' live := by
    cases ht.symm.trans ht'
    cases hd.symm.trans live
  dropped t' ht' _ := ⟨hs, hdetached⟩

/-- A section of an upload after which it records a committed file is the return of
    `commit`, or a drop while it waits to record. -/
theorem recording_of_move {w : World} {t t' : UploadTask} {b : UploadAction}
    {l : ReceiveLifecycle} {path : PathBuf} (hmove : UploadMove sha w (some t) b t' l)
    (live' : t'.dropped = false) (phase' : t'.phase = .recording path) :
    b = .committed (some path) ∧ t.phase = .committing := by
  cases hmove with
  | committed phase =>
    cases phase'
    exact ⟨rfl, phase⟩
  | dropped => simp at live'
  | created | notCreated | received | streamFailed | ended | wrote | notWritten | reported
  | invalid | valid | interrupted | rejected | gaveUp | aborted | won | lost | surrendered
  | notCommitted | recorded | orphaned => simp at phase'

/-- The return of a future leaves its upload in a phase that needs what is left. -/
theorem fits_of_returns {w : World} {t t' : UploadTask} {b : UploadAction} {l : ReceiveLifecycle}
    {s : SinkTask} {next : SinkStep} (hfollows : next.Follows s) (hreturns : next.returns = some b)
    (hmove : UploadMove sha w (some t) b t' l) : t'.phase.sinkUse.Fits next.left := by
  -- the answer that the sink returns is the one that the upload waits for
  cases next with
  | awaits => cases hreturns
  | created result =>
    cases hreturns
    cases result with
    | error e =>
      cases hmove
      exact rfl
    | ok file =>
      cases hmove
      exact ⟨rfl, hfollows.2⟩
  | committed result =>
    cases hreturns
    cases result with
    | error e =>
      cases hmove
      exact rfl
    | ok path =>
      cases hmove
      exact rfl
  | aborted result =>
    cases hreturns
    cases hmove
    exact rfl

/-- The invariant of an upload that waits for a future of the sink. -/
theorem SinkInv.of_future {u : TaskId} {t : UploadTask} {s : SinkTask}
    (ht : d.world.uploads u = some t) (live : t.dropped = false) (hdetached : d.detached u = none)
    (hs : d.sinks u = some s) (huse : s.use = t.phase.sinkUse) (harmed : s.Armed)
    (hholds : d.Holds u s) : d.SinkInv u := by
  refine .of_live ht live hdetached ?_ (fun s' hs' => ?_) (fun path phase => ?_)
  · rw [hs]
    exact ⟨huse, harmed⟩
  · cases hs.symm.trans hs'
    exact hholds
  · -- an upload that records a committed file has no future any more
    rw [phase] at huse
    cases s <;> cases huse

/-- A `create` that has started holds nothing yet. -/
theorem sinkInv_began {u : TaskId} {b : UploadAction} {w' : World} {t : UploadTask}
    {future : CreateFuture} (hinv : d.SinkInv u) (hstep : d.world.step sha (.upload u b) = some w')
    (fresh : d.world.uploads u = none) (ht : w'.uploads u = some t)
    (hcreate : AtomicFileSink.create t.grant.saveDir t.grant.fileName = .ok future) :
    ((d.book w' (.upload u b)).setSink u (some (.creating future))).SinkInv u := by
  obtain ⟨_, hdetached, hown⟩ := hinv.fresh fresh
  have hholds := AtomicFileSink.holds_create hcreate
  rcases World.uploads_before hstep ht with hold | ⟨c, l, hb, _, hmove, _⟩
  · cases fresh.symm.trans hold
  rw [fresh] at hmove
  cases hmove with
  | began =>
    refine .of_future ht rfl hdetached (Function.update_self ..) rfl trivial ⟨fun p => ?_, ?_⟩
    · rw [hholds]
      exact iff_of_false (hown p) List.not_mem_nil
    · rw [hholds]
      exact List.nodup_nil

/-- A name that `create` refuses leaves the upload without a future. -/
theorem sinkInv_refusedName {u : TaskId} {b : UploadAction} {w' w'' : World} {t : UploadTask}
    {e : SinkError} (hinv : d.SinkInv u) (fresh : d.world.uploads u = none)
    (ht : w'.uploads u = some t)
    (hstep : w'.step sha (.upload u (.sinkCreated (.error e))) = some w'') :
    ((d.book w' (.upload u b)).book w'' (.upload u (.sinkCreated (.error e)))).SinkInv u := by
  obtain ⟨hs, hdetached, _⟩ := hinv.fresh fresh
  rcases World.uploads_of_step hstep ht with ⟨_, hne⟩ | ⟨c, t', l, hb, live, ht', hmove, _⟩
  · exact absurd rfl (hne _)
  cases hb
  cases hmove with
  | notCreated =>
    refine .of_live ht' live hdetached ?_ (fun s hs' => ?_) (by simp)
    · show SinkUse.Fits .done (d.sinks u)
      rw [hs]
      exact rfl
    · cases hs.symm.trans hs'

/-- A future that answers goes over into the phase its upload takes up. -/
theorem sinkInv_returned {u : TaskId} {fault : Bool} {uuid : String} {s : SinkTask}
    {c : FsCall PathBuf} {next : SinkStep} {b : UploadAction} {w' : World} (hinv : d.SinkInv u)
    (hs : d.sinks u = some s) (hc : s.call = some c)
    (hnext : s.resume (d.runCall u fault c).1 uuid = some next) (hreturns : next.returns = some b)
    (hstep : d.world.step sha (.upload u b) = some w') :
    (((d.runCall u fault c).2.setSink u next.left).book w' (.upload u b)).SinkInv u := by
  obtain ⟨t, ht, live, hdetached, _, harmed, hholds⟩ := hinv.of_sink hs
  have hfollows := SinkTask.follows_resume harmed hnext
  obtain ⟨hleft, hcommitted⟩ := hholds.resume harmed hc hnext
  -- the upload takes the answer in one section
  rcases World.uploads_of_step hstep ht with ⟨_, hne⟩ | ⟨c', t', l, hb, _, ht', hmove, _⟩
  · exact absurd rfl (hne _)
  cases hb
  have live' : t'.dropped = false := (hmove.dropped_eq (next.returns_ne_drop hreturns)).trans live
  refine .of_live ht' live' hdetached ?_ ?_ ?_
  · show t'.phase.sinkUse.Fits (Function.update d.sinks u next.left u)
    rw [Function.update_self]
    exact fits_of_returns hfollows hreturns hmove
  · intro x hx
    replace hx : Function.update d.sinks u next.left u = some x := hx
    rw [Function.update_self] at hx
    exact (hleft x hx).same (fun _ => own_congr rfl rfl) rfl
  -- a committed file is the upload's own
  · intro path phase'
    obtain ⟨rfl, _⟩ := recording_of_move hmove live' phase'
    have hown := hcommitted path (SinkStep.eq_of_returns_committed hreturns)
    exact (@own_congr (d.runCall u fault c).2 _ u path path rfl rfl).mpr hown

/-- What a drop leaves to run removes files of the dropped upload only. -/
theorem sinkInv_dropped {u : TaskId} {faults : Bool × Bool} {w' : World} (hinv : d.SinkInv u)
    (hstep : d.world.step sha (.upload u .drop) = some w') :
    ((d.book w' (.upload u .drop)).dropSink u faults).SinkInv u := by
  have hsame : ∀ q, (d.book w' (.upload u .drop)).Own u q ↔ d.Own u q := fun _ => own_congr rfl rfl
  -- only a live upload is dropped
  obtain ⟨t, ht, live⟩ : ∃ t, d.world.uploads u = some t ∧ t.dropped = false := by
    cases World.step_upload hstep with
    | drop ht live => exact ⟨_, ht, live⟩
  rcases World.uploads_of_step hstep ht with ⟨_, hne⟩ | ⟨c, t', l, hb, _, ht', hmove, _⟩
  · exact absurd rfl (hne _)
  cases hb
  have hd : t'.dropped = true := by
    cases hmove
    rfl
  refine .of_dropped (by rw [world_dropSink, world_book]; exact ht') hd ?_ (fun c hc p hp => ?_)
  · rw [sinks_dropSink, Function.update_self]
  -- without a sink nothing was running
  · cases hs : d.sinks u with
    | none =>
      rw [dropSink_of_none (by rw [sinks_book, hs]), detached_book, (hinv.live t ht live).1] at hc
      simp at hc
    | some s =>
      obtain ⟨_, _, _, _, _, harmed, hholds⟩ := hinv.of_sink hs
      have hs' : (d.book w' (.upload u .drop)).sinks u = some s := by rw [sinks_book, hs]
      have hholds' : (d.book w' (.upload u .drop)).Holds u s := hholds.same hsame rfl
      rw [detached_dropSink hs'] at hc
      refine ((dropSink_own hs' harmed hholds').2 p).mpr ⟨hholds'.replaces hc p hp, ?_⟩
      rintro file rfl
      cases hc

/-- Every step keeps the invariant of its own upload. -/
theorem sinkInv_actor (hinv : ∀ u, d.SinkInv u) (hstep : DiskStep sha d a d') {u : TaskId}
    (hu : a.actor = some u) : d'.SinkInv u := by
  have hsame : ∀ {w' b q}, (d.book w' b).Own u q ↔ d.Own u q :=
    own_congr (by rw [fs_book]) (by simp)
  -- the sections of one upload, with its sink
  cases hstep with
  | @other b w' hstep hother =>
    cases b with
    | upload v b => exact absurd rfl (hother v b)
    | _ => cases hu
  | @turnedAway _ b w' hstep fresh huploads =>
    cases hu
    have hnone : w'.uploads u = none := by rw [huploads, fresh]
    obtain ⟨hs, hdetached, hown⟩ := (hinv u).fresh fresh
    exact ⟨fun _ => ⟨hs, hdetached, fun p hp => hown p (hsame.mp hp)⟩,
      fun t ht => (by cases hnone.symm.trans ht), fun t ht => (by cases hnone.symm.trans ht)⟩
  | began hstep fresh ht hcreate =>
    cases hu
    exact sinkInv_began (hinv u) hstep fresh ht hcreate
  | refusedName hstep fresh ht hcreate hstep' =>
    cases hu
    exact sinkInv_refusedName (hinv u) fresh ht hstep'
  -- the upload goes on while its sink stays where it is
  | @moved _ b t t' l w' hstep ht ht' hmove husage hdropped =>
    cases hu
    have live : t.dropped = false := World.UploadStep.live (World.step_upload hstep) ht
    obtain ⟨hdetached, hfits, hholds, hpath⟩ := (hinv u).live t ht live
    refine .of_live (by rw [world_book]; exact ht') (hdropped.trans live) hdetached ?_ ?_ ?_
    · rw [husage]
      exact hfits
    · exact fun s hs => (hholds s hs).same (fun _ => hsame) rfl
    · intro path phase'
      obtain ⟨_, phase⟩ := recording_of_move hmove (hdropped.trans live) phase'
      rw [phase', phase] at husage
      cases husage
  -- the chunk goes to the temporary of the pending file
  | @wrote _ t w' chunk file temp hstep ht phase hs htemp =>
    cases hu
    obtain ⟨_, _, _, hdetached, _, harmed, hholds⟩ := (hinv u).of_sink hs
    rcases World.uploads_of_step hstep ht with ⟨_, hne⟩ | ⟨c, t', l, hb, live, ht', hmove, _⟩
    · exact absurd rfl (hne _)
    cases hb
    cases hmove with
    | wrote =>
      exact .of_future ht' live hdetached hs rfl harmed
        (hholds.same (fun _ => own_congr rfl rfl) rfl)
  | commits hstep ht ht' phase hs htemp =>
    cases hu
    have live := World.UploadStep.live (World.step_upload hstep) ht
    obtain ⟨_, _, _, hdetached, _, _, hholds⟩ := (hinv u).of_sink hs
    exact .of_future ht' live hdetached (Function.update_self ..) rfl rfl
      (hholds.same (fun _ => hsame) rfl)
  | aborts hstep ht phase ht' hs =>
    cases hu
    have live := World.UploadStep.live (World.step_upload hstep) ht
    obtain ⟨_, _, _, hdetached, _, _, hholds⟩ := (hinv u).of_sink hs
    exact .of_future ht' live hdetached (Function.update_self ..) rfl rfl
      (hholds.same (fun _ => hsame) rfl)
  | @awaited _ fault uuid s c next hs hc hnext hreturns =>
    cases hu
    obtain ⟨t, ht, live, hdetached, huse, harmed, hholds⟩ := (hinv u).of_sink hs
    have hfollows := SinkTask.follows_resume harmed hnext
    have hresume := (hholds.resume harmed hc hnext).1
    -- the future awaits its next call
    cases next with
    | created | committed | aborted => cases hreturns
    | awaits s' =>
      exact .of_future ht live hdetached (Function.update_self ..) (hfollows.1.trans huse)
        hfollows.2 ((hresume s' rfl).same (fun _ => own_congr rfl rfl) rfl)
  | returned hs hc hnext hreturns hstep =>
    cases hu
    exact sinkInv_returned (hinv u) hs hc hnext hreturns hstep
  | dropped hstep =>
    cases hu
    exact sinkInv_dropped (hinv u) hstep
  -- the call that was left behind changes nothing of a dropped upload
  | @detached _ fault c hc =>
    cases hu
    obtain ⟨⟨t, ht, hd⟩, _⟩ := (hinv u).of_detached hc
    refine .of_dropped ht hd ((hinv u).dropped t ht hd).1 fun c' hc' => ?_
    replace hc' : Function.update d.detached u none u = some c' := hc'
    rw [Function.update_self] at hc'
    simp at hc'

/-- Every step keeps the invariant of every upload. -/
theorem sinkInv_step (hinv : ∀ u, d.SinkInv u) (hstep : d.step sha a = some d') (u : TaskId) :
    d'.SinkInv u := by
  by_cases hu : a.actor = some u
  · exact sinkInv_actor hinv (step_disk hstep) hu
  · exact (hinv u).of_same (sameFor_of_step hinv (step_disk hstep) hu)

theorem sinkInv_start (c : ServerConfig) (fs : FileSystem PathBuf) (u : TaskId) :
    (DiskWorld.start c fs).SinkInv u where
  fresh _ := ⟨rfl, rfl, fun _ ⟨_, _, hown⟩ => (by cases hown)⟩
  live _ ht := by cases ht
  dropped _ ht := by cases ht

end DiskWorld

end LocalSend
