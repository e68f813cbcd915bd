import LocalSend.Spec.ProgressLedger
import LocalSend.Spec.VisibleFiles

/-!
# Dropping an upload

A client that disconnects drops its upload's future at whichever await it has reached.
What takes the upload back is spread over the drops of the pending receive, of the lease
and of the permit. The slot always comes back. The files do only outside `commit`, and
the session's byte counter only when nothing had been reported.

## Key results

- `left_iff_clean`: where a drop leaves nothing on the disk
- `leavesNothing_iff`: a drop that leaves nothing, told by its sink and its counter
- `drop_safety`: every drop of every run
-/

namespace LocalSend

/-- Dropped here, what an upload holds of the sink leaves nothing on the disk, or only a
    reservation that is being removed. `faults` says which removals fail. -/
def SinkTask.DropsClean (s : SinkTask) (faults : Bool × Bool) : Prop :=
  match s with
  | .creating future =>
    match future.phase with
    -- nothing guards the reservation before the pending receive is built
    | .openingTemp .. => False
    | .inspecting .. | .makingDirectory .. | .reserving _ => True
  | .pending _ => faults = (false, false)
  -- `commit` and `abort` have taken the temporary, and `Drop` looks for nothing else
  | .committing .. | .aborting _ .removingTemp => False
  | .aborting _ (.removingReservation temp) => temp = .ok ()

namespace World

/-- A file that was recorded is published. -/
def RecordedPublished (w : World) : Prop :=
  ∀ time x f, (time, .fileCompleted x f) ∈ w.log →
    x ∈ w.issued ∧ (w.lifecycles x).phase? f = some .published

/-- Only a drop leaves an upload dropped. -/
theorem drop_of_section {sha : List UInt8 → String} {w w' : World} {u : TaskId} {b : UploadAction}
    {t' : UploadTask} (hstep : w.step sha (.upload u b) = some w') (ht' : w'.uploads u = some t')
    (hdropped : t'.dropped = true) : b = .drop := by
  refine Classical.byContradiction fun hb => ?_
  rcases uploads_before hstep ht' with ht | ⟨c, l, hc, hsection, hmove, _⟩
  · cases (UploadStep.live (step_upload hstep) ht).symm.trans hdropped
  · cases hc
    generalize hold : w.uploads u = old at hmove
    cases old with
    | none =>
      cases hmove
      simp at hdropped
    | some t => cases (hsection.live hold).symm.trans ((hmove.dropped_eq hb).symm.trans hdropped)

theorem recordedPublished_step {sha : List UInt8 → String} {w w' : World} {a : Action}
    (hinv : w.LifecycleInv sha) (h : w.RecordedPublished) (hstep : w.step sha a = some w') :
    w'.RecordedPublished := by
  intro time x f hmem
  rcases observed_of_step hstep hmem with hold | ⟨_, hnew⟩
  · obtain ⟨hissued, hpublished⟩ := h time x f hold
    exact ⟨issued_mono hstep hissued, published_of_step hinv hstep hissued hpublished⟩
  · cases hnew with
    | routine h => exact h.elim
    | @completed u t path s ht live phase hs hid _ =>
      have hissued := hinv.prepare.issued_current hs
      exact ⟨issued_mono hstep hissued,
        published_of_recorded hinv hstep ⟨ht, live, ⟨path, phase⟩, hs, hid⟩⟩

end World

namespace DiskWorld

/-- What upload `u` has put on its session's counter is off again, and its only file, if
    any, is a reservation that a blocking thread is about to remove. -/
structure LeavesNothing (d : DiskWorld) (u : TaskId) : Prop where
  bytes : d.ledger u = 0
  files : ∀ p, d.Own u p → d.detached u = some (.removeFile p)

/-- Upload `u` might as well not have started. -/
structure Undone (d : DiskWorld) (u : TaskId) (t : UploadTask) : Prop
    extends d.LeavesNothing u where
  slot : d.world.SlotReleased t.grant.sessionId t.fileId
  received : ∀ s, d.world.state.currentSession = some s → s.id = t.grant.sessionId →
    t.fileId ∉ s.received

/-- The file of upload `u` is visible with the whole body, and recorded in its session. -/
structure Completed (d : DiskWorld) (u : TaskId) (t : UploadTask) : Prop where
  visible : ∃ p i, (u, p) ∈ d.renames ∧ d.fs.entry p = some (.file i) ∧
    d.fs.content i = t.body.bytes
  recorded : ∃ time, (time, .fileCompleted t.grant.sessionId t.fileId) ∈ d.world.log
  received : ∀ s, d.world.state.currentSession = some s → s.id = t.grant.sessionId →
    t.fileId ∈ s.received

/-- Each file of a session is made visible at one path. -/
def OnePath (d : DiskWorld) : Prop :=
  ∀ u p v q t t', (u, p) ∈ d.renames → (v, q) ∈ d.renames → d.world.uploads u = some t →
    d.world.uploads v = some t' → t.grant.sessionId = t'.grant.sessionId → t.fileId = t'.fileId →
    p = q

/-- A drop undoes its upload or finds it completed, and either lasts. An upload changes no
    file but its own on the way, and each file of a session gets one path. -/
structure DropSafe (d : DiskWorld) (a : DiskAction) (d' : DiskWorld) : Prop where
  drop : ∀ u faults t, a = .disconnect u faults → d'.world.uploads u = some t →
    d'.Undone u t ∨ d'.Completed u t
  lasts : ∀ u t, d'.world.uploads u = some t → t.dropped = true →
    d'.LeavesNothing u ∨ d'.Completed u t
  others : ∀ u p, a.actor = some u → d'.fs.entry p = d.fs.entry p ∨ d.Own u p ∨
    d.fs.entry p = none ∧ (d'.Own u p ∨ d'.fs.entry p = some .directory)
  one : d'.OnePath

/-- An upload is dropped only where that leaves nothing on the disk, and not while it writes
    its body once it has reported progress. -/
def DropsClean (d : DiskWorld) (a : DiskAction) (_ : DiskWorld) : Prop :=
  ∀ u faults, a = .disconnect u faults → ∃ t s, d.world.uploads u = some t ∧
    d.sinks u = some s ∧ s.DropsClean faults ∧
    (d.clamped u = false → s.use = .pending → t.body.reported = 0)

/-- Besides, none of the dropped upload's reports and rollbacks was clamped, a name that it
    was about to reserve turns out to be taken, and a reservation that it was about to
    remove can be removed. -/
structure DropsEarly (d : DiskWorld) (a : DiskAction) (d' : DiskWorld) : Prop where
  clean : d.DropsClean a d'
  counted : ∀ u faults, a = .disconnect u faults → d.clamped u = false
  reserving : ∀ u fault p, a = .detachedCall u fault → d.detached u = some (.openNew p) →
    ∃ e, (d.runCall u fault (.openNew p)).1 = .error e
  removing : ∀ u fault p, a = .detachedCall u fault → d.detached u = some (.removeFile p) →
    fault = false

variable {sha : List UInt8 → String} {d d' : DiskWorld} {a : DiskAction}

/-! ## What a drop leaves on the disk -/

/-- A drop leaves nothing on the disk exactly where `DropsClean` says so. -/
theorem left_iff_clean {u : TaskId} {s : SinkTask} (faults : Bool × Bool)
    (hs : d.sinks u = some s) (harmed : s.Armed) (hholds : d.Holds u s) :
    (∀ p, (d.dropSink u faults).Own u p → (d.dropSink u faults).detached u = some (.removeFile p)) ↔
      s.DropsClean faults := by
  have hnodup := hholds.nodup
  rw [detached_dropSink hs]
  simp only [(dropSink_own hs harmed hholds).2, hholds.own]
  cases s with
  | creating future =>
    obtain ⟨directory, leaf, phase⟩ := future
    cases phase <;>
      simp [SinkTask.holds, SinkTask.call, CreateFuture.call, SinkTask.DropsClean]
  | pending file =>
    -- the drop removes both files of a pending receive, and either removal may fail
    have hne : file.tempPath ≠ file.finalPath := by simpa [SinkTask.holds] using hnodup
    have hfaults : (∀ p ∈ [file.tempPath, file.finalPath],
        ¬((p = file.tempPath → faults.1 = true) ∧ (p = file.finalPath → faults.2 = true))) ↔
        faults = (false, false) := by
      obtain ⟨fault, fault'⟩ := faults
      simp [hne, hne.symm]
    refine Iff.trans ?_ hfaults
    constructor
    · intro h p hp hfault
      have hcall := h p ⟨hp, fun f hf => by cases hf; exact hfault⟩
      cases hcall
    · rintro h p ⟨hp, hfault⟩
      exact absurd (hfault file rfl) (h p hp)
  | committing file phase =>
    -- a `commit` goes on after the drop, and the reserved name is not given back
    refine iff_of_false (fun h => ?_) id
    have hfinal : file.finalPath ∈ (SinkTask.committing file phase).holds := by
      cases phase <;> simp [SinkTask.holds]
    have hcall := h file.finalPath ⟨hfinal, fun _ hf => by cases hf⟩
    cases phase <;> cases hcall
  | aborting file phase =>
    cases phase with
    | removingTemp =>
      have hne : file.tempPath ≠ file.finalPath := by simpa [SinkTask.holds] using hnodup
      simp [SinkTask.holds, SinkTask.call, AbortPhase.call, SinkTask.DropsClean, hne]
    | removingReservation temp =>
      cases temp with
      | ok _ => simp [SinkTask.holds, SinkTask.call, AbortPhase.call, SinkTask.DropsClean]
      | error e =>
        have hne : file.tempPath ≠ file.finalPath := by simpa [SinkTask.holds] using hnodup
        simp [SinkTask.holds, SinkTask.call, AbortPhase.call, SinkTask.DropsClean, hne.symm]

/-! ## Whose files a step changes -/

/-- A call changes the entries it replaces, and adds a file of its upload or a directory. -/
theorem entry_runCall {u : TaskId} {fault : Bool} {c : FsCall PathBuf} (p : PathBuf) :
    (d.runCall u fault c).2.fs.entry p = d.fs.entry p ∨ p ∈ c.replaces ∨
      d.fs.entry p = none ∧ ((d.runCall u fault c).2.Own u p ∨
        (d.runCall u fault c).2.fs.entry p = some .directory) := by
  have heffect := d.fs.attempt_cases fault c
  by_cases hreplaces : p ∈ c.replaces
  · exact .inr (.inl hreplaces)
  -- what is new is a directory, or a file that the call has opened
  by_cases hadds : p ∈ c.adds
  · have hown := own_runCall d u u fault c p
    have hreply : (d.runCall u fault c).1 = (d.fs.attempt fault c).1 := rfl
    have hfs : (d.runCall u fault c).2.fs = (d.fs.attempt fault c).2 := rfl
    rw [hreply] at hown
    rw [hfs]
    generalize d.fs.attempt fault c = result at heffect hown ⊢
    obtain ⟨reply, fs'⟩ := result
    cases heffect with
    | failed | looked => exact .inl rfl
    | @madeDir q free =>
      cases List.mem_singleton.mp hadds
      exact .inr (.inr ⟨free, .inr (Function.update_self ..)⟩)
    | @opened q free =>
      cases List.mem_singleton.mp hadds
      exact .inr (.inr ⟨free, .inl (hown.mpr (.inr ⟨rfl, rfl⟩))⟩)
    | moved | removed => contradiction
  · exact .inl (heffect.entry_of_notMem hreplaces hadds)

/-- A drop removes no file but the upload's own. -/
theorem entry_dropSink {u : TaskId} {s : SinkTask} {faults : Bool × Bool} {p : PathBuf}
    (hs : d.sinks u = some s) (harmed : s.Armed) (hholds : d.Holds u s) :
    (d.dropSink u faults).fs.entry p = d.fs.entry p ∨ d.Own u p := by
  have hremove : ∀ (d : DiskWorld) fault q, p ≠ q →
      (d.runCall u fault (.removeFile q)).2.fs.entry p = d.fs.entry p := by
    intro d fault q hne
    refine (d.fs.attempt_cases fault (.removeFile q)).entry_of_notMem ?_ List.not_mem_nil
    exact fun h => hne (List.mem_singleton.mp h)
  unfold dropSink
  rw [hs]
  dsimp only
  cases hdrop : s.drop with
  | none => exact .inl rfl
  | some paths =>
    obtain ⟨file, rfl, rfl⟩ := SinkTask.drop_eq_some harmed hdrop
    by_cases hp : p = file.tempPath ∨ p = file.finalPath
    · exact .inr ((hholds.own p).mpr (by simpa [SinkTask.holds] using hp))
    · rw [not_or] at hp
      refine .inl ?_
      exact (hremove _ _ _ hp.2).trans (hremove _ _ _ hp.1)

/-- A step of an upload changes no file but its own. -/
theorem entry_of_step (hinv : ∀ u, d.SinkInv u) (hstep : DiskStep sha d a d') {u : TaskId}
    (hu : a.actor = some u) (p : PathBuf) :
    d'.fs.entry p = d.fs.entry p ∨ d.Own u p ∨
      d.fs.entry p = none ∧ (d'.Own u p ∨ d'.fs.entry p = some .directory) := by
  cases hstep with
  -- a section of the receiver does nothing on the disk
  | other | turnedAway | began | refusedName | moved | commits | aborts =>
    refine .inl ?_
    simp only [fs_book, setSink]
  | wrote => exact .inl rfl
  | @awaited _ fault uuid s c next hs hc =>
    cases hu
    obtain ⟨_, _, _, _, _, _, hholds⟩ := (hinv u).of_sink hs
    exact (entry_runCall p).imp id (.imp (hholds.replaces hc p) id)
  | @returned _ fault uuid s c next b w' hs hc =>
    cases hu
    obtain ⟨_, _, _, _, _, _, hholds⟩ := (hinv u).of_sink hs
    exact (entry_runCall p).imp id (.imp (hholds.replaces hc p) id)
  | @dropped _ faults w' hstep =>
    cases hu
    cases hs : d.sinks u with
    | none =>
      rw [dropSink_of_none (by rw [sinks_book, hs])]
      exact .inl rfl
    | some s =>
      obtain ⟨_, _, _, _, _, harmed, hholds⟩ := (hinv u).of_sink hs
      have hs' : (d.book w' (.upload u .drop)).sinks u = some s := by rw [sinks_book, hs]
      have hholds' : (d.book w' (.upload u .drop)).Holds u s :=
        hholds.same (fun _ => own_congr rfl rfl) rfl
      exact (entry_dropSink hs' harmed hholds').imp id .inl
  | @detached _ fault c hc =>
    cases hu
    exact (entry_runCall p).imp id (.imp ((hinv u).of_detached hc |>.2 p) id)

/-! ## What a drop leaves altogether -/

/-- The ledger of an upload is not moved by its drop. -/
theorem ledger_of_drop {u : TaskId} {w' : World}
    (hstep : d.world.step sha (.upload u .drop) = some w') :
    (d.book w' (.upload u .drop)).ledger u = d.ledger u := by
  cases World.step_upload hstep with
  | @drop t ht live awaits =>
    have hbytes := World.receivedBytes_of_upload hstep ht
    have hmoved : d.world.counterMoved (d.world.dropUpload u t) u = 0 := by
      unfold World.counterMoved
      have ht' : (d.world.dropUpload u t).uploads u =
          some { t with handle := none, dropped := true } :=
        Function.update_self ..
      rw [ht']
      show ((d.world.dropUpload u t).receivedBytes t.grant.sessionId : Int) - _ = 0
      rw [hbytes]
      simp [World.counterAfter]
    show Function.update d.ledger u _ u = _
    rw [Function.update_self, hmoved, Int.add_zero]

/-- What an upload has on the counter when nothing was clamped: outside `commit`, only a
    pending receive has anything. -/
theorem ledger_eq_zero_iff {u : TaskId} {t : UploadTask} {s : SinkTask} (hinv : d.LedgerInv u)
    (ht : d.world.uploads u = some t) (live : t.dropped = false) (huse : s.use = t.phase.sinkUse)
    (hne : s.use ≠ .committing) (hclamped : d.clamped u = false) :
    d.ledger u = 0 ↔ (s.use = .pending → t.body.reported = 0) := by
  obtain ⟨hcounts, hledger⟩ := hinv.live t ht live
  -- a sink that is there has a use
  have hdone : s.use ≠ .done := by cases s <;> rintro ⟨⟩
  rw [huse] at hne hdone ⊢
  have hanswered : ∀ status, t.phase ≠ .answered status := by
    intro status hphase
    rw [hphase] at hdone
    exact hdone rfl
  rw [hledger hclamped hanswered]
  cases hphase : t.phase with
  | creating =>
    rw [hphase] at hcounts
    exact iff_of_true (by exact_mod_cast hcounts.1) (by rintro ⟨⟩)
  | aborting status => exact iff_of_true rfl (by rintro ⟨⟩)
  | committing => exact absurd (by rw [hphase]; rfl) hne
  | recording path | answered status => exact absurd (by rw [hphase]; rfl) hdone
  | rejecting amount status abort =>
    cases abort with
    | false => exact absurd (by rw [hphase]; rfl) hdone
    | true => simp [UploadPhase.owes, UploadPhase.sinkUse]
  | streaming | writing | reporting | flushing | validated | surrendering =>
    simp [UploadPhase.owes, UploadPhase.sinkUse]

/-- What holds in every reachable state. -/
structure DropInv (sha256 : List UInt8 → String) (d : DiskWorld) : Prop where
  cancel : d.world.CancelInv sha256
  published : d.world.RecordedPublished
  sink : ∀ u, d.SinkInv u
  ledger : ∀ u, d.LedgerInv u

theorem dropInv_step (hinv : d.DropInv sha) (hstep : d.step sha a = some d') : d'.DropInv sha := by
  have hworld : d'.world.CancelInv sha ∧ d'.world.RecordedPublished := by
    refine invariant_world (P := fun w => w.CancelInv sha ∧ w.RecordedPublished) ?_
      ⟨hinv.cancel, hinv.published⟩ hstep
    intro w a w' hw hs
    exact ⟨World.cancelInv_step hw.1 hs, World.recordedPublished_step hw.1.lifecycle hw.2 hs⟩
  exact ⟨hworld.1, hworld.2, sinkInv_step hinv.sink hstep,
    ledgerInv_step hinv.sink hinv.ledger hstep⟩

theorem dropInv_start (c : ServerConfig) (fs : FileSystem PathBuf) :
    (DiskWorld.start c fs).DropInv sha where
  cancel := World.cancelInv_start c
  published _ _ _ h := by cases h
  sink := sinkInv_start c fs
  ledger := ledgerInv_start c fs

/-- The slot of a dropped upload is released, and its file has not been recorded. -/
theorem released_of_drop (hinv : d.DropInv sha) (hinv' : d'.DropInv sha) {u : TaskId}
    {faults : Bool × Bool} {t' : UploadTask}
    (hstep : DiskStep sha d (.disconnect u faults) d') (ht' : d'.world.uploads u = some t') :
    d'.world.SlotReleased t'.grant.sessionId t'.fileId ∧
      (d'.world.lifecycles t'.grant.sessionId).phase? t'.fileId ≠ some .published := by
  cases hstep with
  | @dropped _ _ w' hstep =>
    rw [world_dropSink, world_book] at ht' ⊢
    have hcancel' : w'.CancelInv sha := by
      have h := hinv'.cancel
      rw [world_dropSink, world_book] at h
      exact h
    cases World.step_upload hstep with
    | @drop t ht live awaits =>
      rcases World.uploads_of_step hstep ht with ⟨_, hne⟩ | ⟨b, t₁, l, hb, _, ht₁, hmove, heffect⟩
      · exact absurd rfl (hne _)
      cases hb
      cases ht'.symm.trans ht₁
      -- the slot is given back by the handle, whatever the phase
      have hl : l = (d.world.lifecycles t.grant.sessionId).dropHandle t.handle := by
        cases hmove
        rfl
      have hreleased := World.slotReleased_of_drop hinv.cancel hcancel' ht live ht' hmove heffect hl
      refine ⟨hreleased, fun hpublished => ?_⟩
      rcases hreleased with ⟨hphase, _⟩ | ⟨hphase, _⟩ <;> cases hphase.symm.trans hpublished

/-- The drop of an upload undoes it exactly when it leaves nothing, and never finds it
    completed. -/
theorem undone_or_completed_iff (hinv : d.DropInv sha) (hinv' : d'.DropInv sha) {u : TaskId}
    {faults : Bool × Bool} {t' : UploadTask}
    (hstep : DiskStep sha d (.disconnect u faults) d') (ht' : d'.world.uploads u = some t') :
    d'.Undone u t' ∨ d'.Completed u t' ↔ d'.LeavesNothing u := by
  obtain ⟨hreleased, hunpublished⟩ := released_of_drop hinv hinv' hstep ht'
  constructor
  · rintro (hundone | hcompleted)
    · exact hundone.toLeavesNothing
    · obtain ⟨time, hmem⟩ := hcompleted.recorded
      exact absurd (hinv'.published time _ _ hmem).2 hunpublished
  · intro hleft
    refine .inl ⟨hleft, hreleased, fun s hs hid hmem => ?_⟩
    have hpublished := hinv'.cancel.lifecycle.received s hs _ hmem
    rw [hid] at hpublished
    exact hunpublished hpublished

/-- Whether a drop leaves anything is told by what the upload holds of the sink, and by what
    it has put on the counter. -/
theorem leavesNothing_iff (hinv : d.DropInv sha) {u : TaskId} {faults : Bool × Bool}
    (hstep : DiskStep sha d (.disconnect u faults) d') :
    d'.LeavesNothing u ↔ d.ledger u = 0 ∧ ∃ s, d.sinks u = some s ∧ s.DropsClean faults := by
  cases hstep with
  | @dropped _ _ w' hstep =>
    have hledger : ((d.book w' (.upload u .drop)).dropSink u faults).ledger u = d.ledger u := by
      rw [ledger_dropSink, ledger_of_drop hstep]
    have hbook : ∀ p, (d.book w' (.upload u .drop)).Own u p ↔ d.Own u p :=
      fun _ => own_congr rfl rfl
    cases hs : d.sinks u with
    | none =>
      -- only an upload about to record a committed file can be dropped without a sink
      refine iff_of_false (fun hleft => ?_) (fun h => absurd (h.2) (by simp))
      cases World.step_upload hstep with
      | @drop t ht live awaits =>
        obtain ⟨hdetached, hfits, _, hrecording⟩ := (hinv.sink u).live t ht live
        rw [hs] at hfits
        obtain ⟨path, hphase⟩ : ∃ path, t.phase = .recording path := by
          cases hphase : t.phase with
          | recording path => exact ⟨path, rfl⟩
          | rejecting | answered =>
            simp only [UploadTask.awaits, hphase] at awaits
            simp at awaits
          | _ =>
            rw [hphase] at hfits
            cases hfits
        have hfiles := hleft.files path
        rw [dropSink_of_none (by rw [sinks_book, hs]), hbook, detached_book, hdetached] at hfiles
        cases hfiles (hrecording path hphase)
    | some s =>
      obtain ⟨_, _, _, _, _, harmed, hholds⟩ := (hinv.sink u).of_sink hs
      have hs' : (d.book w' (.upload u .drop)).sinks u = some s := by rw [sinks_book, hs]
      have hfiles := left_iff_clean faults hs' harmed (hholds.same hbook rfl)
      constructor
      · intro hleft
        exact ⟨hledger.symm.trans hleft.bytes, s, rfl, hfiles.mp hleft.files⟩
      · rintro ⟨hzero, s', hs', hclean⟩
        cases hs'
        exact ⟨hledger.trans hzero, hfiles.mpr hclean⟩

/-- A drop that leaves nothing is a clean one. -/
theorem dropsClean_of_leavesNothing (hinv : d.DropInv sha) {u : TaskId} {faults : Bool × Bool}
    (hstep : DiskStep sha d (.disconnect u faults) d') (hleft : d'.LeavesNothing u) :
    ∃ t s, d.world.uploads u = some t ∧ d.sinks u = some s ∧ s.DropsClean faults ∧
      (d.clamped u = false → s.use = .pending → t.body.reported = 0) := by
  obtain ⟨hzero, s, hs, hclean⟩ := (leavesNothing_iff hinv hstep).mp hleft
  obtain ⟨t, ht, live, _, huse, _⟩ := (hinv.sink u).of_sink hs
  refine ⟨t, s, ht, hs, hclean, fun hclamped => ?_⟩
  have hne : s.use ≠ .committing := by
    cases s with
    | committing => exact hclean.elim
    | _ => exact nofun
  exact (ledger_eq_zero_iff (hinv.ledger u) ht live huse hne hclamped).mp hzero

/-- An early drop leaves nothing. -/
theorem leavesNothing_of_early (hinv : d.DropInv sha) {u : TaskId} {faults : Bool × Bool}
    (hstep : DiskStep sha d (.disconnect u faults) d')
    (hearly : d.DropsEarly (.disconnect u faults) d') : d'.LeavesNothing u := by
  obtain ⟨t, s, ht, hs, hclean, hreported⟩ := hearly.clean u faults rfl
  have hclamped := hearly.counted u faults rfl
  obtain ⟨t₀, ht₀, live, _, huse, _⟩ := (hinv.sink u).of_sink hs
  cases ht.symm.trans ht₀
  have hne : s.use ≠ .committing := by
    cases s with
    | committing => exact hclean.elim
    | _ => exact nofun
  have hzero := (ledger_eq_zero_iff (hinv.ledger u) ht live huse hne hclamped).mpr
    (hreported hclamped)
  exact (leavesNothing_iff hinv hstep).mpr ⟨hzero, s, hs, hclean⟩

/-! ## What is left of a dropped upload -/

/-- A dropped upload has left nothing, and no rename of its `commit` is under way. -/
def LeftInv (d : DiskWorld) : Prop :=
  ∀ u t, d.world.uploads u = some t → t.dropped = true →
    d.LeavesNothing u ∧ ∀ p q, d.detached u ≠ some (.rename p q)

/-- Only a disconnect drops an upload. -/
theorem dropped_of_step (hinv : ∀ u, d.SinkInv u) (hstep : DiskStep sha d a d') {u : TaskId}
    (hu : a.actor = some u) {t' : UploadTask} (ht' : d'.world.uploads u = some t')
    (hdropped : t'.dropped = true) :
    (∃ faults, a = .disconnect u faults) ∨ ∃ fault, a = .detachedCall u fault := by
  cases hstep with
  | @other b w' hstep hother =>
    cases b with
    | upload v b => exact absurd rfl (hother v b)
    | _ => exact nomatch hu
  | turnedAway _ fresh hsame =>
    cases hu
    rw [world_book, hsame, fresh] at ht'
    simp at ht'
  | @began _ b w' t future hstep fresh =>
    cases hu
    rw [world_setSink, world_book] at ht'
    have hb := World.drop_of_section hstep ht' hdropped
    subst hb
    cases World.step_upload hstep with
    | drop ht => cases fresh.symm.trans ht
  | refusedName _ _ _ _ hstep' =>
    cases hu
    rw [world_book] at ht'
    cases World.drop_of_section hstep' ht' hdropped
  | @moved _ b t t₁ l w' hstep ht ht₁ hmove huse hsame =>
    cases hu
    rw [world_book] at ht'
    cases ht'.symm.trans ht₁
    -- a section is made by a handler that is alive
    have live := World.UploadStep.live (World.step_upload hstep) ht
    cases live.symm.trans (hsame.symm.trans hdropped)
  | wrote hstep | commits hstep | aborts hstep =>
    cases hu
    cases World.drop_of_section hstep ht' hdropped
  | awaited hs =>
    cases hu
    obtain ⟨t, ht, live, _⟩ := (hinv u).of_sink hs
    cases ht'.symm.trans ht
    cases live.symm.trans hdropped
  | @returned _ fault uuid s c next b w' hs hc hnext hreturns hstep =>
    cases hu
    rw [world_book] at ht'
    exact absurd (World.drop_of_section hstep ht' hdropped) (next.returns_ne_drop hreturns)
  | dropped =>
    cases hu
    exact .inl ⟨_, rfl⟩
  | detached =>
    cases hu
    exact .inr ⟨_, rfl⟩

/-- A dropped upload that was dropped early comes to nothing. -/
theorem leftInv_step (hinv : d.DropInv sha) (hleft : d.LeftInv) (hstep : d.step sha a = some d')
    (hearly : d.DropsEarly a d') : d'.LeftInv := by
  intro u t' ht' hdropped
  by_cases hu : a.actor = some u
  · rcases dropped_of_step hinv.sink (step_disk hstep) hu ht' hdropped with
      ⟨faults, rfl⟩ | ⟨fault, rfl⟩
    · refine ⟨leavesNothing_of_early hinv (step_disk hstep) hearly, fun p q => ?_⟩
      obtain ⟨_, s, _, hs, hclean, _⟩ := hearly.clean u faults rfl
      cases step_disk hstep with
      | dropped =>
        rw [detached_dropSink (by rw [sinks_book, hs])]
        intro hcall
        -- only a call of `create`, or the last one of `abort`, goes on after a clean drop
        obtain ⟨file, rfl, _⟩ := call_eq_rename hcall
        exact hclean.elim
    · cases step_disk hstep with
      | @detached _ _ c hc =>
        obtain ⟨⟨t, ht, hd⟩, howned⟩ := (hinv.sink u).of_detached hc
        obtain ⟨⟨hbytes, hfiles⟩, hrename⟩ := hleft u t ht hd
        have hnone : Function.update d.detached u none u = none := Function.update_self ..
        refine ⟨⟨hbytes, fun p hp => ?_⟩, fun p q h => (by cases hnone.symm.trans h)⟩
        replace hp : (d.runCall u fault c).2.Own u p := hp
        cases c with
        | openNew q =>
          obtain ⟨e, he⟩ := hearly.reserving u fault q rfl hc
          rw [own_runCall_of_error he] at hp
          cases hc.symm.trans (hfiles p hp)
        | removeFile q =>
          rw [own_removeFile (howned q (List.mem_singleton.mpr rfl))] at hp
          obtain ⟨hfault, hown⟩ := hp
          cases hc.symm.trans (hfiles p hown)
          cases (hearly.removing u fault p rfl hc).symm.trans (hfault rfl)
        | rename q q' => exact absurd hc (hrename q q')
        | symlinkMetadata | createDir | sync | openDirectory | syncDirectory =>
          have hown : d.Own u p := (own_runCall_of_harmless rfl (by simp)).mp hp
          cases hc.symm.trans (hfiles p hown)
  · have hsame := sameFor_of_step hinv.sink (step_disk hstep) hu
    obtain ⟨⟨hbytes, hfiles⟩, hrename⟩ := hleft u t' (hsame.uploads.symm.trans ht') hdropped
    refine ⟨⟨hsame.ledger.trans hbytes, fun p hp => ?_⟩, fun p q => ?_⟩
    · rw [hsame.detached]
      exact hfiles p ((hsame.own p).mp hp)
    · rw [hsame.detached]
      exact hrename p q

/-- An early drop is before `commit`. -/
theorem dropsBeforeCommit_of_early (hinv : d.DropInv sha) (hleft : d.LeftInv)
    (hearly : d.DropsEarly a d') : d.DropsBeforeCommit a := by
  constructor
  · intro u faults ha
    obtain ⟨_, s, _, hs, hclean, _⟩ := hearly.clean u faults ha
    refine ⟨s, hs, ?_⟩
    cases s with
    | committing => exact hclean.elim
    | _ => exact nofun
  · intro u fault p q _ hdetached
    obtain ⟨⟨t, ht, hd⟩, _⟩ := (hinv.sink u).of_detached hdetached
    exact (hleft u t ht hd).2 p q hdetached

/-- One step of a run in which uploads are dropped early. -/
theorem dropSafe_of_early (hinv : d.DropInv sha) (hleft : d.LeftInv) (hvisible : d.VisibleInv)
    (hstep : d.step sha a = some d') (hearly : d.DropsEarly a d') : d.DropSafe a d' where
  drop u faults t' ha ht' := by
    subst ha
    have hdrop := step_disk hstep
    refine (undone_or_completed_iff hinv (dropInv_step hinv hstep) hdrop ht').mpr ?_
    exact leavesNothing_of_early hinv hdrop hearly
  lasts u t' ht' hdropped := .inl (leftInv_step hinv hleft hstep hearly u t' ht' hdropped).1
  others u p hu := entry_of_step hinv.sink (step_disk hstep) hu p
  one := (visibleInv_step hinv.cancel.lifecycle hinv.sink hvisible hstep
    (dropsBeforeCommit_of_early hinv hleft hearly)).one

/-- One step of a run that is safe. -/
theorem dropsClean_of_safe (hinv : d.DropInv sha) (hstep : d.step sha a = some d')
    (hsafe : d.DropSafe a d') : d.DropsClean a d' := by
  rintro u faults rfl
  have hdrop := step_disk hstep
  obtain ⟨t', ht'⟩ : ∃ t', d'.world.uploads u = some t' := by
    cases hdrop with
    | dropped hsection =>
      rw [world_dropSink, world_book]
      cases World.step_upload hsection with
      | drop => exact ⟨_, Function.update_self ..⟩
  have hleft := (undone_or_completed_iff hinv (dropInv_step hinv hstep) hdrop ht').mp
    (hsafe.drop u faults t' rfl ht')
  exact dropsClean_of_leavesNothing hinv hdrop hleft

/-- Drop safety. Every run whose drops are early is safe, and in a safe run every drop leaves
    nothing on the disk, and is not one of an upload that writes its body and has reported
    progress. -/
theorem drop_safety (sha : List UInt8 → String) (c : ServerConfig) (fs : FileSystem PathBuf)
    (as : List DiskAction) :
    ((defaultReceiver sha).Always DropsEarly (DiskWorld.start c fs) as →
      (defaultReceiver sha).Always DropSafe (DiskWorld.start c fs) as) ∧
    ((defaultReceiver sha).Always DropSafe (DiskWorld.start c fs) as →
      (defaultReceiver sha).Always DropsClean (DiskWorld.start c fs) as) := by
  constructor
  · refine (defaultReceiver sha).always_of_invariant
      (fun d => d.DropInv sha ∧ d.LeftInv ∧ d.VisibleInv) ?_
      ⟨dropInv_start c fs, fun _ _ h => (by cases h), visibleInv_start c fs⟩
    rintro d a d' ⟨hinv, hleft, hvisible⟩ hstep hearly
    refine ⟨⟨dropInv_step hinv hstep, leftInv_step hinv hleft hstep hearly, ?_⟩,
      dropSafe_of_early hinv hleft hvisible hstep hearly⟩
    exact visibleInv_step hinv.cancel.lifecycle hinv.sink hvisible hstep
      (dropsBeforeCommit_of_early hinv hleft hearly)
  · refine (defaultReceiver sha).always_of_invariant (fun d => d.DropInv sha) ?_
      (dropInv_start c fs)
    intro d a d' hinv hstep hsafe
    exact ⟨dropInv_step hinv hstep, dropsClean_of_safe hinv hstep hsafe⟩

end DiskWorld

namespace Scenario

/-- A disk with an empty save directory. -/
def emptyDisk : FileSystem PathBuf where
  entry p := if p = ⟨[]⟩ then some .directory else none
  content _ := []
  next := 0
  used p i h := by split at h <;> cases h

/-- What upload `u` of Alice's file does until it takes a lease, and reserves its name after
    `taken` names that are taken. -/
def opening (u : TaskId) (taken : Nat) : List DiskAction :=
  .receiver (.upload u (.begin_ ⟨"session"⟩ ⟨"f"⟩ ⟨"s"⟩)) ::
    List.replicate (taken + 2) (.sinkCall u false "uuid")

/-- The body is received, and `commit` goes on as far as the rename. -/
def publishing (u : TaskId) : List DiskAction :=
  [.receiver (.upload u (.chunk [0])),
    .receiver (.upload u (.chunkWritten true)),
    .receiver (.upload u .reportProgress),
    .receiver (.upload u .streamEnd),
    .receiver (.upload u (.flushed true)),
    .receiver (.upload u .publish),
    .sinkCall u false "",
    .sinkCall u false "",
    .sinkCall u false ""]

/-- Alice's file is visible, and its directory is opened to be synced. -/
def syncing : List DiskAction :=
  installed.map .receiver ++ opening 0 0 ++ publishing 0 ++ [.sinkCall 0 false ""]

/-- Alice disconnects before she sends a byte, and uploads the file at the second attempt. -/
def retried : List DiskAction :=
  installed.map .receiver ++ opening 0 0 ++ [.disconnect 0 (false, false)] ++ opening 1 0 ++
    publishing 1 ++ [.sinkCall 1 false "", .sinkCall 1 false "", .receiver (.upload 1 .record)]

/-- Every drop is one of an upload that writes its body and has reported nothing. -/
def beforeBody (d : DiskWorld) : DiskAction → Bool
  | .disconnect u faults =>
    faults = (false, false) && !d.clamped u && match d.world.uploads u, d.sinks u with
      | some t, some (.pending _) => t.body.reported = 0
      | _, _ => false
  | .detachedCall .. => false
  | _ => true

theorem dropsEarly_of_beforeBody (d : DiskWorld) (a : DiskAction) (d' : DiskWorld)
    (h : beforeBody d a = true) : d.DropsEarly a d' := by
  constructor
  · rintro u faults rfl
    simp only [beforeBody, Bool.and_eq_true, decide_eq_true_eq] at h
    obtain ⟨⟨hfaults, _⟩, hpending⟩ := h
    split at hpending
    · rename_i t file ht hs
      exact ⟨t, .pending file, ht, hs, hfaults, fun _ _ => decide_eq_true_eq.mp hpending⟩
    · simp at hpending
  · rintro u faults rfl
    simp only [beforeBody, Bool.and_eq_true, Bool.not_eq_true'] at h
    exact h.1.2
  · rintro u fault p rfl
    cases h
  · rintro u fault p rfl
    cases h

end Scenario

namespace DiskWorld

/-- Drop safety on a run in which Alice is disconnected once and tries again. -/
theorem drop_safety_retried :
    (defaultReceiver Scenario.digest).Always DropSafe
      (DiskWorld.start Scenario.config Scenario.emptyDisk) Scenario.retried :=
  (drop_safety Scenario.digest Scenario.config Scenario.emptyDisk Scenario.retried).1
    ((defaultReceiver Scenario.digest).always_of_allPass Scenario.beforeBody
      Scenario.dropsEarly_of_beforeBody (by decide))

/-- Alice is disconnected while the directory of her visible file is synced. The file stays,
    and is not recorded. -/
theorem drop_safety_unrecorded :
    ¬∀ (sha : List UInt8 → String) (c : ServerConfig) (fs : FileSystem PathBuf)
      (as : List DiskAction), (defaultReceiver sha).Always DropSafe (DiskWorld.start c fs) as := by
  intro h
  refine (defaultReceiver Scenario.digest).not_always_of_test
    (DiskWorld.start Scenario.config Scenario.emptyDisk) Scenario.syncing
    (.disconnect 0 (false, false))
    (fun _ d' => (d'.world.uploads 0).isSome && d'.fs.entry ⟨["a.bin"]⟩ = some (.file 1) &&
      d'.owner 1 = some 0 && d'.detached 0 = some (.syncDirectory ⟨[]⟩) &&
      d'.world.log.all fun e => match e.2 with
        | .fileCompleted .. => false
        | _ => true)
    (by decide) ?_ (h Scenario.digest Scenario.config Scenario.emptyDisk _)
  intro d d' _ htest hsafe
  simp only [Bool.and_eq_true, Option.isSome_iff_exists, decide_eq_true_eq,
    List.all_eq_true] at htest
  obtain ⟨⟨⟨⟨⟨t, ht⟩, hentry⟩, howner⟩, hdetached⟩, hlog⟩ := htest
  rcases hsafe.drop 0 (false, false) t rfl ht with hundone | hcompleted
  · cases hdetached.symm.trans (hundone.files _ ⟨1, hentry, howner⟩)
  · obtain ⟨time, hmem⟩ := hcompleted.recorded
    cases hlog _ hmem

-- her retry commits the file a second time, at another path
example : ((defaultReceiver Scenario.digest).exec
    (DiskWorld.start Scenario.config Scenario.emptyDisk)
    (Scenario.syncing ++ [.disconnect 0 (false, false)] ++ Scenario.opening 1 1 ++
      Scenario.publishing 1)).map DiskWorld.renames =
        some [(0, ⟨["a.bin"]⟩), (1, ⟨["a (1).bin"]⟩)] := by decide

end DiskWorld

end LocalSend
