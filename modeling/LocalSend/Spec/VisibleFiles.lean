import LocalSend.Spec.SinkInvariant

/-!
# The files made visible

A file becomes visible when its temporary is renamed, some time before it is recorded.
Its upload holds the permit over all that time, so nobody else can start on the same
file; afterwards the file is published, or its session is gone for good. As long as no
upload is dropped between its rename and its last lock section, each file of a session
is therefore made visible at one path.

## Key results

- `Settled.step`: a file that is published, or whose session is gone, stays so
- `visibleInv_step`: each file of a session is made visible at one path
-/

namespace LocalSend

namespace World

/-- The session with id `x` is not hosted any more and will not be again, and no upload
    holds a handle on its file `f`. -/
structure Gone (w : World) (x : SessionId) (f : FileId) : Prop where
  issued : x ∈ w.issued
  away : ∀ s, w.Hosted s → s.id ≠ x
  idle : ∀ u t, w.uploads u = some t → t.grant.sessionId = x → t.fileId = f → t.handle = none

/-- No upload will work on the file `f` of session `x` again. -/
def Settled (w : World) (x : SessionId) (f : FileId) : Prop :=
  (x ∈ w.issued ∧ (w.lifecycles x).phase? f = some .published) ∨ w.Gone x f

variable {sha : List UInt8 → String} {w w' : World} {a : Action}

/-- A handler without a handle does not get one. -/
theorem UploadMove.handle_none {t t' : UploadTask} {b : UploadAction} {l : ReceiveLifecycle}
    (hmove : UploadMove sha w (some t) b t' l) (hwf : t.Wf sha) (live : t.dropped = false)
    (hnone : t.handle = none) : t'.handle = none := by
  cases hmove with
  | won phase | lost phase => cases hnone.symm.trans (hwf.held_of live phase)
  | notCreated | gaveUp | aborted | surrendered | recorded | orphaned | dropped => rfl
  | created | received | streamFailed | ended | wrote | notWritten | reported | invalid | valid
  | interrupted | rejected | committed | notCommitted => exact hnone

theorem Gone.step {x : SessionId} {f : FileId} (h : w.Gone x f) (hinv : w.LifecycleInv sha)
    (hstep : w.step sha a = some w') : w'.Gone x f where
  issued := issued_mono hstep h.issued
  away s' hs' hid := by
    rcases hosted_of_step hinv.prepare hstep hs' with ⟨s, hs, hids, _⟩ | ⟨_, hfresh, _⟩
    · exact h.away s hs (hids.symm.trans hid)
    · exact hfresh (hid ▸ h.issued)
  idle u t' ht' hx hf := by
    rcases uploads_before hstep ht' with ht | ⟨b, l, _, hsection, hmove, _⟩
    · exact h.idle u t' ht hx hf
    · generalize hold : w.uploads u = old at hmove
      cases old with
      | none =>
        cases hmove with
        | began hs => exact absurd hx (h.away _ (.inl hs))
      | some t =>
        obtain ⟨hfile, hgrant⟩ := hmove.grant_eq
        rw [hgrant] at hx
        have hnone := h.idle u t hold hx (hfile.symm.trans hf)
        exact UploadMove.handle_none hmove (hinv.wf u t hold) (hsection.live hold) hnone

theorem Settled.step {x : SessionId} {f : FileId} (h : w.Settled x f) (hinv : w.LifecycleInv sha)
    (hstep : w.step sha a = some w') : w'.Settled x f := by
  rcases h with ⟨hissued, hpublished⟩ | hgone
  · exact .inl ⟨issued_mono hstep hissued, published_of_step hinv hstep hissued hpublished⟩
  · exact .inr (hgone.step hinv hstep)

/-- An upload keeps its grant and its file. -/
theorem grant_of_step (hstep : w.step sha a = some w') {u : TaskId} {t : UploadTask}
    (ht : w.uploads u = some t) :
    ∃ t', w'.uploads u = some t' ∧ t'.grant = t.grant ∧ t'.fileId = t.fileId := by
  rcases uploads_of_step hstep ht with ⟨ht', _⟩ | ⟨_, t', _, _, _, ht', hmove, _⟩
  · exact ⟨t, ht', rfl, rfl⟩
  · obtain ⟨hfile, hgrant⟩ := hmove.grant_eq
    exact ⟨t', ht', hgrant, hfile⟩

/-- The permit of a file is alone: no other upload holds a handle on it. -/
theorem LifecycleInv.alone (hinv : w.LifecycleInv sha) {u v : TaskId} {t t' : UploadTask}
    (ht : w.uploads u = some t) (ht' : w.uploads v = some t') (hheld : t.handle ≠ none)
    (hheld' : t'.handle ≠ none) (hx : t.grant.sessionId = t'.grant.sessionId)
    (hf : t.fileId = t'.fileId) : u = v := by
  obtain ⟨handle, hhandle⟩ := Option.ne_none_iff_exists'.mp hheld
  obtain ⟨handle', hhandle'⟩ := Option.ne_none_iff_exists'.mp hheld'
  have hreach := hinv.handles _ (hinv.session u t ht)
  refine (HandleState.inv_of_reachable hreach).unique u v t.fileId ⟨handle, ?_, ?_⟩
    ⟨handle', ?_, ?_⟩
  · simp [handleState, ht, hhandle]
  · exact (hinv.wf u t ht).file_eq hhandle
  · simp [handleState, ht', hhandle', hx]
  · rw [hf]
    exact (hinv.wf v t' ht').file_eq hhandle'

/-- The last lock section of an upload settles its file. -/
theorem settled_of_record (hinv : w.LifecycleInv sha) {u : TaskId} {t : UploadTask} {path : PathBuf}
    (hstep : w.step sha (.upload u .record) = some w') (ht : w.uploads u = some t)
    (phase : t.phase = .recording path) : w'.Settled t.grant.sessionId t.fileId := by
  have live : t.dropped = false := UploadStep.live (step_upload hstep) ht
  have hissued := hinv.session u t ht
  have hpermit : t.handle = some (.permit t.fileId) := (hinv.wf u t ht).held_of live phase
  rcases uploads_of_step hstep ht with ⟨_, hne⟩ | ⟨b, t', l, hb, _, ht', hmove, _⟩
  · exact absurd rfl (hne _)
  cases hb
  -- the record found its session, or the session is gone
  cases hmove with
  | @recorded _ path' s phase' hs hid =>
    have hpublished := published_of_recorded hinv hstep ⟨ht, live, ⟨path', phase'⟩, hs, hid⟩
    rw [hid] at hpublished
    exact .inl ⟨issued_mono hstep hissued, hpublished⟩
  | orphaned _ hs =>
    -- the session has left the slot, and is not waiting to be installed either
    refine .inr ⟨issued_mono hstep hissued, ?_, ?_⟩
    · intro s' hs' hid
      rcases hosted_of_step hinv.prepare hstep hs' with ⟨s, hhosted, hids, _⟩ | ⟨_, hfresh, _⟩
      · rw [hids] at hid
        rcases hhosted with hcurrent | ⟨h, p, hp, hinstalling⟩
        · exact hs s hcurrent hid
        · exact hinv.apart u t h p s ht hp hinstalling hid
      · exact hfresh (hid ▸ hissued)
    -- no other upload holds the same file
    · intro v tv htv hx hf
      by_cases hv : v = u
      · subst hv
        cases ht'.symm.trans htv
        rfl
      · rcases uploads_before hstep htv with htv₀ | ⟨b, _, hb, _⟩
        · refine Classical.byContradiction fun hheld => hv ?_
          exact hinv.alone htv₀ ht hheld (by simp [hpermit]) hx hf
        · cases hb
          exact absurd rfl hv

end World

/-- Only a handler that has won publication is inside `commit`. -/
theorem UploadPhase.eq_committing {p : UploadPhase} (h : p.sinkUse = .committing) :
    p = .committing := by
  cases p with
  | committing => rfl
  | rejecting amount status abort => cases abort <;> exact nomatch h
  | _ => exact nomatch h

/-- Once the directory is open, `commit` waits for it to be synced. -/
theorem CommitPhase.openingDirectory_left {file : AtomicPendingFile}
    {reply : Except FsError FsReply} {next : SinkStep}
    (hnext : CommitPhase.resume file .openingDirectory reply = next)
    (hreturns : next.returns = none) : next.left = some (.committing file .syncingDirectory) := by
  subst hnext
  cases reply with
  | ok r => rfl
  | error e => cases hreturns

/-- When the directory does not open, `commit` returns all the same. -/
theorem CommitPhase.openingDirectory_returns {file : AtomicPendingFile}
    {reply : Except FsError FsReply} {next : SinkStep} {b : UploadAction}
    (hnext : CommitPhase.resume file .openingDirectory reply = next)
    (hreturns : next.returns = some b) : next = .committed (.ok file.finalPath) := by
  subst hnext
  cases reply with
  | ok r => cases hreturns
  | error e => rfl

namespace DiskWorld

variable {sha : List UInt8 → String} {d d' : DiskWorld} {a : DiskAction}

/-- Upload `u` has made its file visible at `p`, and has yet to record it. -/
def Landing (d : DiskWorld) (u : TaskId) (p : PathBuf) (t : UploadTask) : Prop :=
  t.dropped = false ∧
    ((∃ file, file.finalPath = p ∧ (d.sinks u = some (.committing file .openingDirectory) ∨
        d.sinks u = some (.committing file .syncingDirectory))) ∨
      t.phase = .recording p)

/-- Every visible file is about to be recorded, or settled; and each file of a session is
    visible at one path. -/
structure VisibleInv (d : DiskWorld) : Prop where
  landed : ∀ u p, (u, p) ∈ d.renames → ∃ t, d.world.uploads u = some t ∧
    (d.Landing u p t ∨ d.world.Settled t.grant.sessionId t.fileId)
  one : ∀ u p v q t t', (u, p) ∈ d.renames → (v, q) ∈ d.renames → d.world.uploads u = some t →
    d.world.uploads v = some t' → t.grant.sessionId = t'.grant.sessionId → t.fileId = t'.fileId →
    p = q

/-- No upload is dropped inside `commit` or with its file committed, and no rename is left
    to a dropped upload. -/
def DropsBeforeCommit (d : DiskWorld) (a : DiskAction) : Prop :=
  (∀ u faults, a = .disconnect u faults → ∃ s, d.sinks u = some s ∧ s.use ≠ .committing) ∧
    ∀ u fault p q, a = .detachedCall u fault → d.detached u ≠ some (.rename p q)

/-- A call that is no rename makes nothing visible. -/
theorem renames_runCall (d : DiskWorld) (u : TaskId) (fault : Bool) (c : FsCall PathBuf) :
    (d.runCall u fault c).2.renames = d.renames ∨
      ∃ p q r, c = .rename p q ∧ (d.runCall u fault c).1 = .ok r ∧
        (d.runCall u fault c).2.renames = d.renames ++ [(u, q)] := by
  unfold runCall
  dsimp only
  split
  · exact .inr ⟨_, _, _, rfl, by assumption, rfl⟩
  · exact .inl rfl

/-- Only a commit renames. -/
theorem call_eq_rename {s : SinkTask} {p q : PathBuf} (h : s.call = some (.rename p q)) :
    ∃ file, s = .committing file .renamingTemp ∧ q = file.finalPath := by
  cases s with
  | pending => cases h
  | creating future =>
    obtain ⟨directory, leaf, phase⟩ := future
    cases phase <;> exact nomatch h
  | aborting file phase => cases phase <;> exact nomatch h
  | committing file phase =>
    cases phase with
    | renamingTemp =>
      cases h
      exact ⟨file, rfl, rfl⟩
    | flushing | syncing | openingDirectory | syncingDirectory => exact nomatch h

@[simp] theorem renames_dropSink (u : TaskId) (faults : Bool × Bool) :
    (d.dropSink u faults).renames = d.renames := by
  have hremove : ∀ (d : DiskWorld) fault p,
      (d.runCall u fault (.removeFile p)).2.renames = d.renames := by
    intro d fault p
    rcases renames_runCall d u fault (.removeFile p) with
      h | ⟨_, _, _, hc, _⟩
    · exact h
    · simp at hc
  unfold dropSink
  split
  · rfl
  · dsimp only
    split
    · rfl
    · exact (hremove _ _ _).trans (hremove _ _ _)

/-- The rename of a commit is the only step that makes a file visible, as long as uploads
    are dropped before it. -/
theorem renames_of_step (hstep : DiskStep sha d a d') (hearly : d.DropsBeforeCommit a) :
    d'.renames = d.renames ∨
      ∃ u fault uuid file, a = .sinkCall u fault uuid ∧
        d.sinks u = some (.committing file .renamingTemp) ∧ d'.world = d.world ∧
        d'.sinks u = some (.committing file .openingDirectory) ∧
        d'.renames = d.renames ++ [(u, file.finalPath)] := by
  cases hstep with
  | other => exact .inl rfl
  -- only a call of a sink renames
  | turnedAway | moved => exact .inl (renames_book _ _)
  | began | commits | aborts => exact .inl (renames_book (d := d) _ _)
  | wrote => exact .inl rfl
  | refusedName => exact .inl (by rw [renames_book, renames_book])
  | @awaited u fault uuid s c next hs hc hnext hreturns =>
    rcases renames_runCall d u fault c with
      hsame | ⟨p, q, r, rfl, hok, hrenames⟩
    · exact .inl hsame
    · obtain ⟨file, rfl, rfl⟩ := call_eq_rename hc
      rw [hok] at hnext
      cases hnext
      exact .inr ⟨u, fault, uuid, file, rfl, hs, rfl, Function.update_self .., hrenames⟩
  | @returned u fault uuid s c next b w' hs hc hnext hreturns hstep =>
    rcases renames_runCall d u fault c with
      hsame | ⟨p, q, r, rfl, hok, hrenames⟩
    · exact .inl ((renames_book _ _).trans hsame)
    · -- after a rename that succeeds, `commit` goes on to sync the directory
      obtain ⟨file, rfl, rfl⟩ := call_eq_rename hc
      rw [hok] at hnext
      cases hnext
      cases hreturns
  | dropped => exact .inl (by rw [renames_dropSink, renames_book])
  | @detached u fault c hc =>
    rcases renames_runCall d u fault c with
      hsame | ⟨p, q, r, rfl, hok, hrenames⟩
    · exact .inl hsame
    -- a detached task has no rename left: the condition keeps drops before the commit
    · exact absurd hc (hearly.2 u fault p q rfl)

/-- What an upload that has made its file visible holds of the sink. -/
theorem Landing.sink {u : TaskId} {p : PathBuf} {t : UploadTask} (hinv : d.SinkInv u)
    (ht : d.world.uploads u = some t) (h : d.Landing u p t) :
    (t.phase = .committing ∧ ∃ file, file.finalPath = p ∧
      (d.sinks u = some (.committing file .openingDirectory) ∨
        d.sinks u = some (.committing file .syncingDirectory))) ∨
    (t.phase = .recording p ∧ d.sinks u = none) := by
  obtain ⟨live, hsink | phase⟩ := h
  · obtain ⟨_, hfits, _, _⟩ := hinv.live t ht live
    refine .inl ⟨?_, hsink⟩
    refine UploadPhase.eq_committing ?_
    obtain ⟨file, _, hs | hs⟩ := hsink <;> rw [hs] at hfits <;> exact hfits.1.symm
  · obtain ⟨_, hfits, _, _⟩ := hinv.live t ht live
    refine .inr ⟨phase, ?_⟩
    rw [phase] at hfits
    cases hs : d.sinks u with
    | none => rfl
    | some s =>
      rw [hs] at hfits
      cases s <;> cases hfits.1

/-- The only section left to an upload with its file committed records it. -/
theorem record_of_move {w : World} {t t' : UploadTask} {b : UploadAction} {l : ReceiveLifecycle}
    {path : PathBuf} (hmove : UploadMove sha w (some t) b t' l) (phase : t.phase = .recording path)
    (hdropped : t'.dropped = false) : b = .record := by
  cases hmove with
  | recorded | orphaned => rfl
  | dropped => simp at hdropped
  | interrupted hbody =>
    rw [phase] at hbody
    cases hbody
  | created hp | notCreated hp | received hp | streamFailed hp | ended hp | wrote hp
  | notWritten hp | reported hp | invalid hp | valid hp | rejected hp | gaveUp hp | aborted hp
  | won hp | lost hp | surrendered hp | committed hp | notCommitted hp =>
    cases phase.symm.trans hp

/-- An upload that has made its file visible goes on to record it, and then it is settled. -/
theorem landing_step (hworld : d.world.LifecycleInv sha) (hinv : ∀ u, d.SinkInv u)
    (hstep : DiskStep sha d a d') (hearly : d.DropsBeforeCommit a) {u : TaskId} {p : PathBuf}
    {t : UploadTask} (ht : d.world.uploads u = some t) (hlanding : d.Landing u p t) :
    ∃ t', d'.world.uploads u = some t' ∧ t'.grant = t.grant ∧ t'.fileId = t.fileId ∧
      (d'.Landing u p t' ∨ d'.world.Settled t'.grant.sessionId t'.fileId) := by
  have live : t.dropped = false := hlanding.1
  -- a step of the upload itself
  by_cases hu : a.actor = some u
  · have hsink := Landing.sink (hinv u) ht hlanding
    cases hstep with
    | @other b w' hstep hother =>
      cases b with
      | upload v b => exact absurd rfl (hother v b)
      | _ => exact nomatch hu
    | turnedAway _ fresh | began _ fresh | refusedName _ fresh =>
      cases hu
      cases ht.symm.trans fresh
    -- between the calls of the sink: only the record moves an upload that has committed
    | @moved _ b t₀ t' l w' hstep ht₀ ht' hmove huse hdropped =>
      cases hu
      cases ht.symm.trans ht₀
      obtain ⟨hfile, hgrant⟩ := hmove.grant_eq
      rcases hsink with ⟨phase, _⟩ | ⟨phase, _⟩
      · rw [phase] at huse
        cases hmove with
        | dropped => cases live.symm.trans hdropped.symm
        | committed hp | notCommitted hp => contradiction
        | interrupted hbody =>
          rw [phase] at hbody
          cases hbody
        | created hp | notCreated hp | received hp | streamFailed hp | ended hp | wrote hp
        | notWritten hp | reported hp | invalid hp | valid hp | rejected hp | gaveUp hp | aborted hp
        | won hp | lost hp | surrendered hp | recorded hp | orphaned hp =>
          cases phase.symm.trans hp
      · have hb := record_of_move hmove phase (hdropped.trans live)
        subst hb
        refine ⟨t', by rw [world_book]; exact ht', hgrant, hfile, .inr ?_⟩
        rw [world_book, hgrant, hfile]
        exact World.settled_of_record hworld hstep ht phase
    -- the sink is busy, or done
    | wrote _ ht₀ hp hs | commits _ ht₀ _ hp hs | aborts _ ht₀ hp _ hs =>
      cases hu
      cases ht.symm.trans ht₀
      rcases hsink with ⟨phase, _⟩ | ⟨phase, _⟩ <;> cases phase.symm.trans hp
    -- the rename returns, and the sync of the directory is next
    | @awaited _ fault uuid s c next hs hc hnext hreturns =>
      cases hu
      rcases hsink with ⟨_, file, hfile, hs' | hs'⟩ | ⟨_, hs'⟩
      · cases hs.symm.trans hs'
        have hleft := CommitPhase.openingDirectory_left (Option.some.inj hnext) hreturns
        refine ⟨t, ht, rfl, rfl, .inl ⟨live, .inl ⟨file, hfile, .inr ?_⟩⟩⟩
        rw [sinks_setSink, Function.update_self, hleft]
      · cases hs.symm.trans hs'
        cases hnext
        cases hreturns
      · cases hs.symm.trans hs'
    -- the sync returns, and the upload is told the path
    | @returned _ fault uuid s c next b w' hs hc hnext hreturns hstep =>
      cases hu
      have hcommitted : ∃ file : AtomicPendingFile, file.finalPath = p ∧
          next = .committed (.ok file.finalPath) := by
        rcases hsink with ⟨_, file, hfile, hs' | hs'⟩ | ⟨_, hs'⟩
        · cases hs.symm.trans hs'
          exact ⟨file, hfile, CommitPhase.openingDirectory_returns (Option.some.inj hnext) hreturns⟩
        · cases hs.symm.trans hs'
          exact ⟨file, hfile, (Option.some.inj hnext).symm⟩
        · cases hs.symm.trans hs'
      obtain ⟨file, rfl, rfl⟩ := hcommitted
      cases hreturns
      rcases World.uploads_of_step hstep ht with ⟨_, hne⟩ | ⟨c', t', l, hb, _, ht', hmove, _⟩
      · exact absurd rfl (hne _)
      cases hb
      cases hmove with
      | committed => exact ⟨_, ht', rfl, rfl, .inl ⟨live, .inr rfl⟩⟩
    -- a drop while the sink publishes is what the condition rules out
    | dropped =>
      cases hu
      obtain ⟨s, hs, hne⟩ := hearly.1 u _ rfl
      rcases hsink with ⟨_, file, hfile, hs' | hs'⟩ | ⟨_, hs'⟩
      · cases hs.symm.trans hs'
        exact absurd rfl hne
      · cases hs.symm.trans hs'
        exact absurd rfl hne
      · cases hs.symm.trans hs'
    | detached hc =>
      cases hu
      obtain ⟨⟨t₀, ht₀, hd⟩, _⟩ := (hinv u).of_detached hc
      cases ht.symm.trans ht₀
      cases live.symm.trans hd
  -- another upload's step leaves this one and its sink as they are
  · have hsame := sameFor_of_step hinv hstep hu
    refine ⟨t, hsame.uploads.trans ht, rfl, rfl, .inl ⟨live, ?_⟩⟩
    rw [hsame.sinks]
    exact hlanding.2

/-- The upload of a visible file keeps its record, and the file stays visible for it. -/
theorem landed_step (hworld : d.world.LifecycleInv sha) (hinv : ∀ u, d.SinkInv u)
    (hstep : d.step sha a = some d') (hearly : d.DropsBeforeCommit a) {u : TaskId} {p : PathBuf}
    {t : UploadTask} (ht : d.world.uploads u = some t)
    (h : d.Landing u p t ∨ d.world.Settled t.grant.sessionId t.fileId) :
    ∃ t', d'.world.uploads u = some t' ∧ t'.grant = t.grant ∧ t'.fileId = t.fileId ∧
      (d'.Landing u p t' ∨ d'.world.Settled t'.grant.sessionId t'.fileId) := by
  rcases h with hlanding | hsettled
  · exact landing_step hworld hinv (step_disk hstep) hearly ht hlanding
  · let Kept (w : World) : Prop := w.LifecycleInv sha ∧ w.Settled t.grant.sessionId t.fileId ∧
      ∃ t', w.uploads u = some t' ∧ t'.grant = t.grant ∧ t'.fileId = t.fileId
    have hkept : Kept d'.world := by
      refine invariant_world (P := Kept) ?_ ⟨hworld, hsettled, t, ht, rfl, rfl⟩ hstep
      rintro w a w' ⟨hw, hs, t₁, ht₁, hgrant₁, hfile₁⟩ hstep
      obtain ⟨t₂, ht₂, hgrant₂, hfile₂⟩ := World.grant_of_step hstep ht₁
      exact ⟨World.lifecycleInv_step hw hstep, hs.step hw hstep, t₂, ht₂,
        hgrant₂.trans hgrant₁, hfile₂.trans hfile₁⟩
    obtain ⟨_, hs, t', ht', hgrant, hfile⟩ := hkept
    refine ⟨t', ht', hgrant, hfile, .inr ?_⟩
    rw [hgrant, hfile]
    exact hs

/-- While an upload waits for its rename, its file is not visible anywhere. -/
theorem VisibleInv.not_yet (hinv : d.VisibleInv) (hworld : d.world.LifecycleInv sha)
    (hsink : ∀ u, d.SinkInv u) {u v : TaskId} {file : AtomicPendingFile} {q : PathBuf}
    {t t' : UploadTask} (ht : d.world.uploads u = some t)
    (hs : d.sinks u = some (.committing file .renamingTemp)) (hv : (v, q) ∈ d.renames)
    (ht' : d.world.uploads v = some t') (hx : t.grant.sessionId = t'.grant.sessionId)
    (hf : t.fileId = t'.fileId) : False := by
  obtain ⟨t₀, ht₀, live, _, huse, _, _⟩ := (hsink u).of_sink hs
  cases ht.symm.trans ht₀
  have hpermit : t.handle = some (.permit t.fileId) := by
    refine (hworld.wf u t ht).held_of live (UploadPhase.eq_committing huse.symm)
  obtain ⟨t₁, ht₁, hvisible⟩ := hinv.landed v q hv
  cases ht'.symm.trans ht₁
  rcases hvisible with hlanding | hsettled
  · -- the other upload would hold the same permit
    have hsink' := Landing.sink (hsink v) ht' hlanding
    have hheld : t'.handle = some (.permit t'.fileId) := by
      rcases hsink' with ⟨phase, _⟩ | ⟨phase, _⟩ <;>
        exact (hworld.wf v t' ht').held_of hlanding.1 phase
    have huv : u = v := hworld.alone ht ht' (by simp [hpermit]) (by simp [hheld]) hx hf
    subst huv
    rcases hsink' with ⟨_, _, _, hs' | hs'⟩ | ⟨_, hs'⟩ <;> cases hs.symm.trans hs'
  · rw [← hx, ← hf] at hsettled
    rcases hsettled with ⟨_, hpublished⟩ | hgone
    · cases hpublished.symm.trans (hworld.publishing_of_permit ht hpermit)
    · cases hpermit.symm.trans (hgone.idle u t ht rfl rfl)

/-- Each file of a session is made visible at one path, as long as uploads are dropped before
    they commit. -/
theorem visibleInv_step (hworld : d.world.LifecycleInv sha) (hsink : ∀ u, d.SinkInv u)
    (hinv : d.VisibleInv) (hstep : d.step sha a = some d') (hearly : d.DropsBeforeCommit a) :
    d'.VisibleInv := by
  -- a file that was renamed is still landing, or settled
  have hkeep : ∀ {u p}, (u, p) ∈ d.renames → ∃ t t', d.world.uploads u = some t ∧
      d'.world.uploads u = some t' ∧ t'.grant = t.grant ∧ t'.fileId = t.fileId ∧
      (d'.Landing u p t' ∨ d'.world.Settled t'.grant.sessionId t'.fileId) := by
    intro u p hp
    obtain ⟨t, ht, h⟩ := hinv.landed u p hp
    obtain ⟨t', h'⟩ := landed_step hworld hsink hstep hearly ht h
    exact ⟨t, t', ht, h'⟩
  -- one file of one session has one final path
  have hone : ∀ {u p v q t t'}, (u, p) ∈ d.renames → (v, q) ∈ d.renames →
      d'.world.uploads u = some t → d'.world.uploads v = some t' →
      t.grant.sessionId = t'.grant.sessionId → t.fileId = t'.fileId → p = q := by
    intro u p v q t t' hp hq ht ht' hx hf
    obtain ⟨t₀, t₁, ht₀, ht₁, hgrant, hfile, _⟩ := hkeep hp
    obtain ⟨t₂, t₃, ht₂, ht₃, hgrant', hfile', _⟩ := hkeep hq
    cases ht.symm.trans ht₁
    cases ht'.symm.trans ht₃
    rw [hgrant, hgrant'] at hx
    exact hinv.one u p v q t₀ t₂ hp hq ht₀ ht₂ hx (hfile.symm.trans (hf.trans hfile'))
  rcases renames_of_step (step_disk hstep) hearly with
    hsame | ⟨u, fault, uuid, file, rfl, hs, hworld', hs', hrenames⟩
  -- no rename in this step
  · refine ⟨fun u p hp => ?_, fun u p v q t t' hp hq => ?_⟩
    · rw [hsame] at hp
      obtain ⟨_, t', _, ht', _, _, h⟩ := hkeep hp
      exact ⟨t', ht', h⟩
    · rw [hsame] at hp hq
      exact hone hp hq
  -- a rename in this step: its file was not visible before
  · obtain ⟨t, ht, live, _⟩ := (hsink u).of_sink hs
    refine ⟨fun v p hp => ?_, fun v p v' q t₁ t₂ hp hq ht₁ ht₂ hx hf => ?_⟩
    · rw [hrenames, List.mem_append, List.mem_singleton] at hp
      rcases hp with hp | hp
      · obtain ⟨_, t', _, ht', _, _, h⟩ := hkeep hp
        exact ⟨t', ht', h⟩
      · cases hp
        rw [hworld']
        exact ⟨t, ht, .inl ⟨live, .inl ⟨file, rfl, .inl hs'⟩⟩⟩
    · rw [hrenames, List.mem_append, List.mem_singleton] at hp hq
      rcases hp with hp | hp <;> rcases hq with hq | hq
      · exact hone hp hq ht₁ ht₂ hx hf
      · cases hq
        rw [hworld'] at ht₁ ht₂
        exact absurd (hinv.not_yet hworld hsink ht₂ hs hp ht₁ hx.symm hf.symm) id
      · cases hp
        rw [hworld'] at ht₁ ht₂
        exact absurd (hinv.not_yet hworld hsink ht₁ hs hq ht₂ hx hf) id
      · cases hp
        cases hq
        rfl

theorem visibleInv_start (c : ServerConfig) (fs : FileSystem PathBuf) :
    (DiskWorld.start c fs).VisibleInv where
  landed _ _ h := by cases h
  one _ _ _ _ _ _ h := by cases h

end DiskWorld

end LocalSend
