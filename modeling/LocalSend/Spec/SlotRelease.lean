import LocalSend.Spec.LifecycleInvariant
import LocalSend.Spec.SlotOwnership

/-!
# The slot can always be freed

A sender that vanishes must not wedge the one slot of the receiver: in every reachable state the
slot becomes free by what the receiver does without anybody's help. The commits that are in flight
return and their handlers record the files, the session times out, and the sweep reclaims it.

Time alone does not suffice, as the sweep spares a session with a file in publication. Such a file has a
handler that holds its permit, and each of them gives the permit back with the next steps it takes.
-/

namespace LocalSend

/-- What the receiver does by itself: time passes, a pending receive is committed, its handler goes
    on, and the sweep runs. -/
def Action.OwnWork : Action → Prop
  | .upload _ (.committed (some _)) | .upload _ .record | .upload _ .reject => True
  | .env (.tick _) | .sweep => True
  | _ => False

/-- Whether an upload in this phase holds a permit. -/
def UploadPhase.publishes : UploadPhase → Bool
  | .committing | .recording _ | .rejecting _ _ false => true
  | _ => false

theorem UploadPhase.Holds.of_permit {p : UploadPhase} {f g : FileId}
    (h : p.Holds f (some (.permit g))) :
    g = f ∧ p.publishes = true := by
  cases p with
  | rejecting amount status abort =>
    cases abort with
    | false => exact ⟨by simpa [UploadPhase.Holds] using h, rfl⟩
    | true => simp [UploadPhase.Holds] at h
  | committing | recording => exact ⟨by simpa [UploadPhase.Holds] using h, rfl⟩
  | _ => simp [UploadPhase.Holds] at h

namespace World

open ReceiveLifecycle

variable {sha : List UInt8 → String} {v w w' : World}

/-- The handler of a file in publication. -/
theorem LifecycleInv.publisher (hinv : w.LifecycleInv sha) {x : SessionId} (hx : x ∈ w.issued)
    {f : FileId} (hf : (w.lifecycles x).phase? f = some .publishing) :
    ∃ u t, w.uploads u = some t ∧ t.dropped = false ∧ t.fileId = f ∧ t.grant.sessionId = x ∧
      t.phase.publishes = true := by
  -- the books of the handles name the holder of every file in work
  have hhandles := HandleState.inv_of_reachable (hinv.handles x hx)
  obtain ⟨u, handle, hhandle, hfile⟩ := hhandles.owned f (.inr hf)
  have hfits := hhandles.fits u handle hhandle
  rw [hfile] at hfits
  change handle.Fits ((w.lifecycles x).phase? f) at hfits
  rw [hf] at hfits
  -- only a permit is for a file in publication
  obtain rfl : handle = .permit f := by
    cases handle with
    | lease g => simp [ReceiveHandle.Fits] at hfits
    | spentLease g => simp [ReceiveHandle.Fits] at hfits
    | permit g => exact congrArg ReceiveHandle.permit hfile
  simp only [handleState, Option.bind_eq_some_iff, Option.ite_none_right_eq_some] at hhandle
  obtain ⟨t, ht, hsession, hpermit⟩ := hhandle
  have hwf := hinv.wf u t ht
  -- a dropped upload has no handle
  have hlive : t.dropped = false := by
    apply Bool.eq_false_of_not_eq_true
    intro hdropped
    rw [hwf.released hdropped] at hpermit
    cases hpermit
  have hheld := hwf.held hlive
  rw [hpermit] at hheld
  obtain ⟨hown, hpublishes⟩ := hheld.of_permit
  exact ⟨u, t, ht, hlive, hown.symm, hsession, hpublishes⟩

/-- The slot is free, or still holds the session `x`, of whose files no more are in publication than
    were in `v`, and `f` is not. -/
def FileReleased (v : World) (x : SessionId) (f : FileId) (w : World) : Prop :=
  w.state.currentSession = none ∨ ∃ s, w.state.currentSession = some s ∧ s.id = x ∧
    ∀ g, (w.lifecycles x).phase? g = some .publishing →
      g ≠ f ∧ (v.lifecycles x).phase? g = some .publishing

/-- A step of an upload that takes its file out of publication settles it, if it leaves the slot
    alone or stores the session in it again. -/
theorem fileReleased_of_upload {u : TaskId} {b : UploadAction} {t t' : UploadTask}
    {l : ReceiveLifecycle} {s : Session} (hs : w.state.currentSession = some s)
    (hsession : t.grant.sessionId = s.id) (hmove : UploadMove sha w (some t) b t' l)
    (heffect : w.UploadEffect u t' l w') (hslot : SlotMove w (.upload u b) w')
    (hl : ∀ g, l.phase? g = some .publishing →
      g ≠ t.fileId ∧ (w.lifecycles s.id).phase? g = some .publishing) :
    w.FileReleased s.id t.fileId w' := by
  have hlife : w'.lifecycles s.id = l := by
    rw [heffect.lifecycles, hmove.grant_eq.2, hsession, Function.update_self]
  rw [FileReleased, hlife]
  cases hslot with
  | keep slot => exact .inr ⟨s, (congrArg Slot.session slot).trans hs, rfl, hl⟩
  | @recorded _ t₁ s₁ _ ht more slot =>
    obtain rfl := Option.some.inj (hs.symm.trans ht.2.2.2.1)
    refine .inr ⟨_, congrArg Slot.session slot, ?_, hl⟩
    unfold Session.markReceived
    split <;> rfl
  | completed ht last slot => exact .inl (congrArg Slot.session slot)
  | withdrawn ha => rcases ha with ha | ha <;> cases ha
  | withdrawnLate ha => rcases ha with ha | ha <;> cases ha

/-- The record of a committed file settles it. -/
theorem settle_recording (sha : List UInt8 → String) {u : TaskId} {t : UploadTask} {path : PathBuf}
    {s : Session} (hs : w.state.currentSession = some s) (ht : w.uploads u = some t)
    (live : t.dropped = false) (hsession : t.grant.sessionId = s.id)
    (hphase : t.phase = .recording path) :
    ∃ w', w.step sha (.upload u .record) = some w' ∧ w.FileReleased s.id t.fileId w' := by
  have hstep : w.step sha (.upload u .record) = some (w.record u t path) := by
    simp [step, ht, live, uploadStep, hphase]
  refine ⟨_, hstep, ?_⟩
  obtain ⟨hnone, -⟩ | ⟨t', l, hmove, heffect⟩ := uploadMove_of_uploadStep (step_upload hstep)
  · rw [ht] at hnone
    cases hnone
  rw [ht] at hmove
  apply fileReleased_of_upload hs hsession hmove heffect (slotMove_of_step hstep)
  intro g hg
  cases hmove with
  | recorded hphase' hs' hid =>
    rw [hsession, phase?_finish] at hg
    split at hg
    · simp at hg
    · exact ⟨by assumption, hg⟩
  | orphaned hphase' hs' => exact absurd hsession.symm (hs' s hs)

/-- A commit that is answered with an error settles the file. -/
theorem settle_rejecting (hinv : w.LifecycleInv sha) {u : TaskId} {t : UploadTask} {amount : Nat}
    {status : StatusCode} {s : Session} (hs : w.state.currentSession = some s)
    (ht : w.uploads u = some t) (live : t.dropped = false) (hsession : t.grant.sessionId = s.id)
    (hphase : t.phase = .rejecting amount status false) :
    ∃ w', w.step sha (.upload u .reject) = some w' ∧ w.FileReleased s.id t.fileId w' := by
  -- the server's own work: nothing from outside is needed
  have hstep : w.step sha (.upload u .reject) = some (w.rejectUpload u t amount status false) := by
    simp [step, ht, live, uploadStep, hphase]
  refine ⟨_, hstep, ?_⟩
  obtain ⟨hnone, -⟩ | ⟨t', l, hmove, heffect⟩ := uploadMove_of_uploadStep (step_upload hstep)
  · rw [ht] at hnone
    cases hnone
  rw [ht] at hmove
  have hpermit : t.handle = some (.permit t.fileId) := (hinv.wf u t ht).held_of live hphase
  apply fileReleased_of_upload hs hsession hmove heffect (slotMove_of_step hstep)
  -- the permit is dropped, so this file is the only one that leaves publication
  intro g hg
  cases hmove with
  | rejected hphase' =>
    rw [hphase] at hphase'
    cases hphase'
  | gaveUp hphase' =>
    rw [hsession, hpermit] at hg
    change ((w.lifecycles s.id).dropPermit t.fileId).phase? g = some .publishing at hg
    rw [phase?_dropPermit] at hg
    split at hg
    · cases hg
    · rename_i hnot
      refine ⟨?_, hg⟩
      rintro rfl
      exact hnot ⟨rfl, hg⟩

/-- The return of a commit touches neither the slot nor a lifecycle. -/
theorem commit_returns (sha : List UInt8 → String) {u : TaskId} {t : UploadTask} (path : PathBuf)
    (ht : w.uploads u = some t) (live : t.dropped = false) (hphase : t.phase = .committing) :
    ∃ w', w.step sha (.upload u (.committed (some path))) = some w' ∧
      w'.state.currentSession = w.state.currentSession ∧ w'.lifecycles = w.lifecycles ∧
      w'.uploads u = some { t with phase := .recording path } := by
  refine ⟨w.committed u t (some path), by simp [step, ht, live, uploadStep, hphase], rfl, rfl, ?_⟩
  exact Function.update_self ..

/-- Each file in publication is settled by its handler. -/
theorem settle (hinv : w.LifecycleInv sha) {s : Session} (hs : w.state.currentSession = some s)
    {f : FileId} (hf : (w.lifecycles s.id).phase? f = some .publishing) :
    ∃ w', (receiver sha).Leads Action.OwnWork w w' ∧ w.FileReleased s.id f w' := by
  obtain ⟨u, t, ht, live, rfl, hsession, hpublishes⟩ :=
    hinv.publisher (hinv.issued_hosted (.inl hs)) hf
  -- by where the upload stands in its publication
  cases hphase : t.phase with
  | committing =>
    obtain ⟨w₁, hstep₁, hs₁, hlife₁, ht₁⟩ := commit_returns sha ⟨[]⟩ ht live hphase
    rw [hs] at hs₁
    obtain ⟨w₂, hstep₂, hreleased⟩ := settle_recording sha hs₁ ht₁ live hsession rfl
    refine ⟨w₂, .trans (.of_step (a := .upload u (.committed (some ⟨[]⟩))) trivial hstep₁)
      (.of_step (a := .upload u .record) trivial hstep₂), ?_⟩
    unfold FileReleased at hreleased ⊢
    rwa [hlife₁] at hreleased
  -- the file is published: its record is what is left
  | recording path =>
    obtain ⟨w', hstep, hreleased⟩ := settle_recording sha hs ht live hsession hphase
    exact ⟨w', .of_step (a := .upload u .record) trivial hstep, hreleased⟩
  | rejecting amount status abort =>
    cases abort with
    -- an abort is before publication
    | true =>
      rw [hphase] at hpublishes
      cases hpublishes
    | false =>
      obtain ⟨w', hstep, hreleased⟩ := settle_rejecting hinv hs ht live hsession hphase
      exact ⟨w', .of_step (a := .upload u .reject) trivial hstep, hreleased⟩
  -- no other phase publishes
  | _ =>
    rw [hphase] at hpublishes
    cases hpublishes

/-- A session without a file in publication is reclaimed once it has timed out. -/
theorem reclaim {s : Session} (hs : w.state.currentSession = some s) (hc : w.Cancellable s.id) :
    ∃ w', (receiver sha).Leads Action.OwnWork w w' ∧ w'.state.currentSession = none := by
  let d := s.lastActivity + w.state.sessionTimeout + 1
  have htimed : s.isTimedOut (w.now + d) w.state.sessionTimeout = true := by
    simp only [Session.isTimedOut, decide_eq_true_eq]
    omega
  refine ⟨(w.envStep (.tick d)).sessionSweep, .trans (.of_step (a := .env (.tick d)) trivial rfl)
    (.of_step (a := .sweep) trivial rfl), ?_⟩
  have hsweep : (w.envStep (.tick d)).sessionSweep.slot.session = none := by
    have hs' : (w.envStep (.tick d)).state.currentSession = some s := hs
    have hc' : ((w.envStep (.tick d)).tryCancelReceives s.id).1 = true := hc
    have htimed' : s.isTimedOut (w.envStep (.tick d)).now
        (w.envStep (.tick d)).state.sessionTimeout = true :=
      htimed
    rw [sessionSweep, slot_sweepCrosscopy]
    simp only [sweepStandard, hs', htimed', if_true, tryClearSlot, hc']
    rfl
  exact hsweep

/-- In every reachable state the receiver can free its slot by itself, whatever the senders do or
    stop doing. -/
theorem slot_can_be_freed (h : (receiver sha).Reachable w) :
    ∃ w', (receiver sha).Leads Action.OwnWork w w' ∧ w'.state.currentSession = none := by
  cases hs : w.state.currentSession with
  | none => exact ⟨w, .refl _ w, hs⟩
  | some s =>
    -- the induction is on a list that has every file in publication
    have hfiles : ∀ f, (w.lifecycles s.id).phase? f = some .publishing → f ∈ s.files.keys := by
      intro f hf
      rw [← AssocMap.contains_iff_mem_keys, ← (lifecycleInv_of_reachable h).slots s (.inl hs), hf]
      rfl
    generalize s.files.keys = fs at hfiles
    induction fs generalizing w s with
    | nil =>
      apply reclaim hs
      apply tryCancelReceives_fst_eq_true.mpr
      intro f hf
      cases hfiles f hf
    | cons f fs ih =>
      by_cases hf : (w.lifecycles s.id).phase? f = some .publishing
      -- one file leaves publication, and no other enters it
      · obtain ⟨w₁, hleads, hreleased⟩ := settle (lifecycleInv_of_reachable h) hs hf
        obtain hnone | ⟨s₁, hs₁, hid, hrest⟩ := hreleased
        · exact ⟨w₁, hleads, hnone⟩
        · obtain ⟨w', hleads', hfree⟩ := ih (hleads.reachable h) s₁ hs₁ (fun g hg => by
            rw [hid] at hg
            obtain ⟨hne, hpublishing⟩ := hrest g hg
            exact (List.mem_cons.mp (hfiles g hpublishing)).resolve_left hne)
          exact ⟨w', hleads.trans hleads', hfree⟩
      -- the head of the list is not in publication
      · apply ih h s hs
        intro g hg
        refine (List.mem_cons.mp (hfiles g hg)).resolve_left ?_
        rintro rfl
        exact hf hg

end World

namespace Scenario

/-- The file of Alice's upload is being committed. -/
def committing : List Action :=
  installed ++ [.upload 0 (.begin_ ⟨"session"⟩ ⟨"f"⟩ ⟨"s"⟩),
    .upload 0 (.sinkCreated (.ok ⟨["a.bin"]⟩)),
    .upload 0 (.chunk [0]),
    .upload 0 (.chunkWritten true),
    .upload 0 .reportProgress,
    .upload 0 .streamEnd,
    .upload 0 (.flushed true),
    .upload 0 .publish]

end Scenario

namespace World

/-- The sweep alone would leave the session of that file in the slot. -/
theorem slot_can_be_freed_committing :
    ¬(Scenario.world Scenario.committing).Cancellable ⟨"session"⟩ ∧
      ∃ w', (receiver Scenario.digest).Leads Action.OwnWork (Scenario.world Scenario.committing) w' ∧
        w'.state.currentSession = none :=
  ⟨by unfold Cancellable; decide, slot_can_be_freed (Scenario.reachable_world _ (by decide))⟩

end World

end LocalSend
