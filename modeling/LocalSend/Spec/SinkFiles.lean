import LocalSend.Spec.DiskSteps

/-!
# The files of an upload

Every file the sink creates has the upload that created it for an owner. A future of
the sink, wherever it is suspended, has a known list of files in place (`SinkTask.holds`);
its calls replace no others, and every answer leads to a future whose list is again
what the disk has (`Holds`).

## Key results

- `own_runCall`: what one file-system call does to the files of every upload
- `Holds.resume`: a future and the files on the disk stay together
-/

namespace LocalSend

namespace DiskWorld

/-- The file at `p` was created by upload `u`. -/
def Own (d : DiskWorld) (u : TaskId) (p : PathBuf) : Prop :=
  ∃ i, d.fs.entry p = some (.file i) ∧ d.owner i = some u

variable {sha : List UInt8 → String} {d d' : DiskWorld}

/-- A file has one owner. -/
theorem Own.unique {u v : TaskId} {p : PathBuf} (hu : d.Own u p) (hv : d.Own v p) : u = v := by
  obtain ⟨i, hi, hown⟩ := hu
  obtain ⟨j, hj, hown'⟩ := hv
  cases hi.symm.trans hj
  exact Option.some.inj (hown.symm.trans hown')

/-- The owner of a file is told by its inode, so a call that keeps the owners moves
    ownership with the entries. -/
theorem own_congr {v : TaskId} {p q : PathBuf} (hentry : d'.fs.entry p = d.fs.entry q)
    (howner : d'.owner = d.owner) : d'.Own v p ↔ d.Own v q := by
  unfold Own
  rw [hentry, howner]

/-- Nobody owns what is not a file. -/
theorem not_own_of_entry {v : TaskId} {p : PathBuf} (h : ∀ i, d.fs.entry p ≠ some (.file i)) :
    ¬d.Own v p := fun ⟨i, hi, _⟩ => h i hi

/-- What a call does to the files of every upload. -/
theorem own_runCall (d : DiskWorld) (u v : TaskId) (fault : Bool) (c : FsCall PathBuf)
    (q : PathBuf) :
    (d.runCall u fault c).2.Own v q ↔
      match (d.runCall u fault c).1, c with
      | .ok _, .openNew p => d.Own v q ∨ (v = u ∧ q = p)
      | .ok _, .removeFile p => q ≠ p ∧ d.Own v q
      | .ok _, .rename p p' => (q = p' ∧ d.Own v p) ∨ (q ≠ p ∧ q ≠ p' ∧ d.Own v q)
      | _, _ => d.Own v q := by
  have heffect := d.fs.attempt_cases fault c
  unfold runCall
  generalize d.fs.attempt fault c = r at heffect
  obtain ⟨reply, fs'⟩ := r
  dsimp only at heffect ⊢
  -- the file system's answer decides what the call does to the files
  cases heffect with
  -- a failed call changes nothing
  | failed => exact own_congr rfl rfl
  | @looked _ reply harmless hr =>
    obtain ⟨hreplaces, hadds⟩ := harmless
    -- a call that only looks opens no inode
    cases c with
    | symlinkMetadata | sync | openDirectory | syncDirectory =>
      cases reply with
      | opened i => exact absurd rfl (hr i)
      | metadata | done => exact own_congr rfl rfl
    | createDir | openNew => contradiction
    | rename | removeFile => contradiction
  | @madeDir p free =>
    -- a directory is no file of anybody
    by_cases hq : q = p
    · subst hq
      refine iff_of_false (not_own_of_entry fun i => ?_) (not_own_of_entry fun i => ?_)
      · simp
      · simp [free]
    · refine own_congr ?_ rfl
      rw [FileSystem.entry_setEntry, if_neg hq]
  | @opened p free =>
    -- the file that is opened belongs to the upload that opens it
    by_cases hq : q = p
    · subst hq
      simp [Own, free, eq_comm]
    · -- the inode of another file was in use before
      have howner : ∀ i, d.fs.entry q = some (.file i) →
          Function.update d.owner d.fs.next (some u) i = d.owner i := fun i hi =>
        Function.update_of_ne (Nat.ne_of_lt (d.fs.used q i hi)) _ _
      simp only [Own, FileSystem.entry_newFile, hq, if_false, and_false, or_false]
      constructor
      · rintro ⟨i, hi, hown⟩
        exact ⟨i, hi, (howner i hi).symm.trans hown⟩
      · rintro ⟨i, hi, hown⟩
        exact ⟨i, hi, (howner i hi).trans hown⟩
  | @moved p p' e fs' here entry next =>
    -- the file moves from one path to the other with its owner
    by_cases hq' : q = p'
    · subst hq'
      have hentry : fs'.entry q = d.fs.entry p := by
        rw [entry, if_neg fun h => h.2 h.1.symm, if_pos rfl, here]
      refine Iff.trans (own_congr (d := d) hentry rfl) ?_
      simp
    · by_cases hq : q = p
      · subst hq
        refine iff_of_false (not_own_of_entry fun i => ?_) ?_
        · show fs'.entry q ≠ _
          rw [entry, if_pos ⟨rfl, hq'⟩]
          simp
        · simp [hq']
      · have hentry : fs'.entry q = d.fs.entry q := by
          rw [entry, if_neg fun h => hq h.1, if_neg hq']
        refine Iff.trans (own_congr (d := d) hentry rfl) ?_
        simp [hq, hq']
  | @removed p e here =>
    -- the path is free afterwards
    by_cases hq : q = p
    · subst hq
      simp [Own]
    · refine Iff.trans (own_congr (d := d) (q := q) ?_ rfl) ?_
      · rw [FileSystem.entry_setEntry, if_neg hq]
      · simp [hq]

/-- A call that only replaces its upload's own files leaves the others' alone. -/
theorem own_runCall_of_ne {u v : TaskId} {fault : Bool} {c : FsCall PathBuf} {q : PathBuf}
    (hne : v ≠ u) (howned : ∀ p ∈ c.replaces, d.Own u p) :
    (d.runCall u fault c).2.Own v q ↔ d.Own v q := by
  -- what the call replaces is its own upload's
  have hforeign : ∀ p ∈ c.replaces, ¬d.Own v p := fun p hp hv => hne (hv.unique (howned p hp))
  rw [own_runCall]
  split
  · simp [hne]
  · rename_i p _
    have hp := hforeign p (by simp [FsCall.replaces])
    refine and_iff_right_of_imp ?_
    rintro hq rfl
    exact hp hq
  · rename_i p p' _
    have hp := hforeign p (by simp [FsCall.replaces])
    have hp' := hforeign p' (by simp [FsCall.replaces])
    -- neither of the two paths was the other upload's
    constructor
    · rintro (⟨_, h⟩ | ⟨_, _, h⟩)
      · exact absurd h hp
      · exact h
    · intro hq
      refine .inr ⟨?_, ?_, hq⟩
      · rintro rfl
        exact hp hq
      · rintro rfl
        exact hp' hq
  · rfl

/-- A call that fails changes no hands. -/
theorem own_runCall_of_error {u v : TaskId} {fault : Bool} {c : FsCall PathBuf} {q : PathBuf}
    {e : FsError} (he : (d.runCall u fault c).1 = .error e) :
    (d.runCall u fault c).2.Own v q ↔ d.Own v q := by
  rw [own_runCall, he]

/-- A call that neither creates nor replaces a file changes no hands. -/
theorem own_runCall_of_harmless {u v : TaskId} {fault : Bool} {c : FsCall PathBuf} {q : PathBuf}
    (hc : c.replaces = []) (hnew : ∀ p, c ≠ .openNew p) :
    (d.runCall u fault c).2.Own v q ↔ d.Own v q := by
  rw [own_runCall]
  split
  · exact absurd rfl (hnew _)
  · cases hc
  · cases hc
  · rfl

/-- An exclusive open succeeds only where there is no file. -/
theorem not_own_of_openNew {u v : TaskId} {fault : Bool} {p : PathBuf} {r : FsReply}
    (hok : (d.runCall u fault (.openNew p)).1 = .ok r) : ¬d.Own v p := by
  have heffect := d.fs.attempt_cases fault (.openNew p)
  replace hok : (d.fs.attempt fault (.openNew p)).1 = .ok r := hok
  generalize d.fs.attempt fault (.openNew p) = result at heffect hok
  obtain ⟨reply, fs'⟩ := result
  cases heffect with
  | failed => simp at hok
  | looked harmless => cases harmless.2
  | opened free => exact not_own_of_entry fun i => by simp [free]

end DiskWorld

/-! ## What a future has left on the disk -/

/-- The files a suspended future of the sink, or a pending receive, has in place. -/
def SinkTask.holds : SinkTask → List PathBuf
  | .creating future =>
    match future.phase with
    | .openingTemp finalPath _ => [finalPath]
    | .inspecting .. | .makingDirectory .. | .reserving _ => []
  | .pending file => [file.tempPath, file.finalPath]
  | .committing file phase =>
    match phase with
    | .flushing _ | .syncing _ | .renamingTemp => [file.tempPath, file.finalPath]
    | .openingDirectory | .syncingDirectory => [file.finalPath]
  | .aborting file phase =>
    match phase with
    | .removingTemp | .removingReservation (.error _) => [file.tempPath, file.finalPath]
    | .removingReservation (.ok _) => [file.finalPath]

/-- The use an upload makes of the sink with what it holds of it. -/
def SinkTask.use : SinkTask → SinkUse
  | .creating _ => .creating
  | .pending _ => .pending
  | .committing .. => .committing
  | .aborting .. => .aborting

/-- A pending receive has its temporary; a commit or an abort has taken it. -/
def SinkTask.Armed : SinkTask → Prop
  | .creating _ => True
  | .pending file => file.temp.isSome = true
  | .committing file _ | .aborting file _ => file.temp = none

/-- What an upload holds of the sink is what its phase needs. -/
def SinkUse.Fits (use : SinkUse) : Option SinkTask → Prop
  | none => use = .done
  | some s => s.use = use ∧ s.Armed

/-- Only a pending receive that has its temporary removes files when it is dropped. -/
theorem SinkTask.drop_eq_some {s : SinkTask} {paths : PathBuf × PathBuf} (harmed : s.Armed)
    (h : s.drop = some paths) :
    ∃ file, s = .pending file ∧ paths = (file.tempPath, file.finalPath) := by
  cases s with
  | creating => cases h
  | pending file =>
    have htemp : file.temp.isSome = true := harmed
    simp only [SinkTask.drop, AtomicPendingFile.drop, htemp, if_true, Option.some.injEq] at h
    exact ⟨file, rfl, h.symm⟩
  | committing file | aborting file =>
    have htemp : file.temp = none := harmed
    simp [SinkTask.drop, AtomicPendingFile.drop, htemp] at h

/-- What can come of a future that an upload awaits. -/
def SinkStep.Follows (s : SinkTask) : SinkStep → Prop
  | .awaits s' => s'.use = s.use ∧ s'.Armed
  | .created (.ok file) => s.use = .creating ∧ file.temp.isSome = true
  | .created (.error _) => s.use = .creating
  | .committed _ => s.use = .committing
  | .aborted _ => s.use = .aborting

/-- A future returns what its upload awaits. -/
theorem SinkTask.follows_resume {s : SinkTask} {reply : Except FsError FsReply} {uuid : String}
    {next : SinkStep} (harmed : s.Armed) (hnext : s.resume reply uuid = some next) :
    next.Follows s := by
  -- the phase that the future goes on to belongs to the same operation
  cases s with
  | pending => cases hnext
  | creating future =>
    cases hnext
    unfold CreateFuture.resume
    dsimp only
    repeat' split
    all_goals first | rfl | exact ⟨rfl, trivial⟩ | exact ⟨rfl, rfl⟩
  | committing file phase =>
    cases hnext
    unfold CommitPhase.resume
    split
    all_goals first | rfl | exact ⟨rfl, harmed⟩
  | aborting file phase =>
    cases hnext
    unfold AbortPhase.resume
    dsimp only
    split
    · exact ⟨rfl, harmed⟩
    · split <;> rfl

/-- Walking has nothing in place. -/
theorem CreateFuture.holds_walk {directory current : PathBuf} {leaf : String} {rest : List String}
    {future : CreateFuture} (h : CreateFuture.walk directory leaf current rest = .ok future) :
    (SinkTask.creating future).holds = [] := by
  unfold CreateFuture.walk at h
  split at h
  · cases h
    rfl
  · split at h
    · simp at h
    · cases h
      rfl

/-- `create` starts with nothing in place. -/
theorem AtomicFileSink.holds_create {saveDir : PathBuf} {fileName : String} {future : CreateFuture}
    (h : AtomicFileSink.create saveDir fileName = .ok future) :
    (SinkTask.creating future).holds = [] := by
  unfold AtomicFileSink.create at h
  split at h
  · simp at h
  split at h
  · simp at h
  split at h
  · simp at h
  exact CreateFuture.holds_walk h

namespace DiskWorld

variable {sha : List UInt8 → String} {d d' : DiskWorld}

/-- The files of upload `u` are those its future has in place. -/
structure Holds (d : DiskWorld) (u : TaskId) (s : SinkTask) : Prop where
  own : ∀ p, d.Own u p ↔ p ∈ s.holds
  nodup : s.holds.Nodup

/-- A future replaces only files it has in place. -/
theorem Holds.replaces {u : TaskId} {s : SinkTask} {c : FsCall PathBuf} (h : d.Holds u s)
    (hc : s.call = some c) : ∀ p ∈ c.replaces, d.Own u p := by
  intro p hp
  rw [h.own]
  -- only a rename and a removal replace anything
  cases s with
  | creating future =>
    obtain ⟨directory, leaf, phase⟩ := future
    cases phase <;> cases hc <;> exact nomatch hp
  | pending => cases hc
  | committing file phase =>
    cases phase with
    | renamingTemp =>
      cases hc
      exact hp
    | flushing | syncing | openingDirectory | syncingDirectory =>
      cases hc
      exact nomatch hp
  | aborting file phase =>
    cases phase with
    | removingTemp =>
      cases hc
      rw [List.mem_singleton.mp hp]
      exact List.mem_cons_self
    | removingReservation temp =>
      cases hc
      rw [List.mem_singleton.mp hp]
      cases temp <;> simp [SinkTask.holds]

/-- Nothing has changed hands. -/
theorem Holds.same {u : TaskId} {s s' : SinkTask} (h : d.Holds u s)
    (hown : ∀ q, d'.Own u q ↔ d.Own u q) (hs : s'.holds = s.holds) : d'.Holds u s' where
  own q := by rw [hown, hs, h.own]
  nodup := hs ▸ h.nodup

/-- Walking on after an answer that changed no hands. -/
theorem Holds.walk {u : TaskId} {s : SinkTask} {directory current : PathBuf} {leaf : String}
    {rest : List String} (h : d.Holds u s) (hs : s.holds = [])
    (hown : ∀ q, d'.Own u q ↔ d.Own u q) :
    ∀ s', SinkStep.left (match CreateFuture.walk directory leaf current rest with
      | .error e => .created (.error e)
      | .ok next => .awaits (.creating next)) = some s' → d'.Holds u s' := by
  intro s' hs'
  split at hs'
  · cases hs'
  · cases hs'
    exact h.same hown ((CreateFuture.holds_walk (by assumption)).trans hs.symm)

/-- `create` after an answer. -/
theorem Holds.resume_create {u : TaskId} {future : CreateFuture} {fault : Bool} {uuid : String}
    (h : d.Holds u (.creating future)) :
    ∀ s', (future.resume (d.runCall u fault future.call).1 uuid).left = some s' →
      (d.runCall u fault future.call).2.Holds u s' := by
  obtain ⟨directory, leaf, phase⟩ := future
  -- what each call of the creation adds to the files of the upload
  cases phase with
  | inspecting current rest =>
    have hsame : ∀ q, (d.runCall u fault (.symlinkMetadata current)).2.Own u q ↔ d.Own u q :=
      fun q => own_runCall_of_harmless rfl (by simp)
    show ∀ s', (CreateFuture.resume _ (d.runCall u fault (.symlinkMetadata current)).1 uuid).left =
      some s' → (d.runCall u fault (.symlinkMetadata current)).2.Holds u s'
    generalize d.runCall u fault (.symlinkMetadata current) = r at hsame ⊢
    obtain ⟨reply, d'⟩ := r
    intro s' hs'
    -- the component is there as a directory, is something else, or is missing
    simp only [CreateFuture.resume] at hs'
    split at hs'
    · exact h.walk rfl hsame s' hs'
    · cases hs'
    · cases hs'
      exact h.same hsame rfl
    · cases hs'
  | makingDirectory current rest =>
    have hsame : ∀ q, (d.runCall u fault (.createDir current)).2.Own u q ↔ d.Own u q :=
      fun q => own_runCall_of_harmless rfl (by simp)
    show ∀ s', (CreateFuture.resume _ (d.runCall u fault (.createDir current)).1 uuid).left =
      some s' → (d.runCall u fault (.createDir current)).2.Holds u s'
    generalize d.runCall u fault (.createDir current) = r at hsame ⊢
    obtain ⟨reply, d'⟩ := r
    intro s' hs'
    simp only [CreateFuture.resume] at hs'
    split at hs'
    · exact h.walk rfl hsame s' hs'
    · cases hs'
  | reserving attempt =>
    generalize hp : CreateFuture.candidate ⟨directory, leaf, .reserving attempt⟩ attempt = p
    have hcall : CreateFuture.call ⟨directory, leaf, .reserving attempt⟩ = .openNew p :=
      congrArg FsCall.openNew hp
    have hown := fun q => own_runCall d u u fault (.openNew p) q
    rw [hcall]
    generalize d.runCall u fault (.openNew p) = r at hown ⊢
    obtain ⟨reply, d'⟩ := r
    intro s' hs'
    -- the name is reserved, is taken, or cannot be opened
    simp only [CreateFuture.resume, hp] at hs'
    split at hs'
    · cases hs'
      refine ⟨fun q => ?_, List.nodup_singleton _⟩
      rw [hown, h.own]
      simp [SinkTask.holds]
    · split at hs'
      · cases hs'
        exact h.same hown rfl
      · cases hs'
    · cases hs'
  | openingTemp finalPath tempPath =>
    have hown := fun q => own_runCall d u u fault (.openNew tempPath) q
    have hfree := fun r (hr : (d.runCall u fault (.openNew tempPath)).1 = .ok r) =>
      not_own_of_openNew (v := u) hr
    show ∀ s', (CreateFuture.resume _ (d.runCall u fault (.openNew tempPath)).1 uuid).left =
      some s' → (d.runCall u fault (.openNew tempPath)).2.Holds u s'
    generalize d.runCall u fault (.openNew tempPath) = r at hown hfree ⊢
    obtain ⟨reply, d'⟩ := r
    intro s' hs'
    simp only [CreateFuture.resume] at hs'
    split at hs'
    · cases hs'
      have hfinal : d.Own u finalPath := (h.own finalPath).mpr List.mem_cons_self
      -- the exclusive open tells the temporary from the reserved name
      have hne : tempPath ≠ finalPath := by
        rintro rfl
        exact hfree _ rfl hfinal
      refine ⟨fun q => ?_, List.nodup_cons.mpr ⟨?_, List.nodup_singleton _⟩⟩
      · rw [hown, h.own]
        simp [SinkTask.holds, or_comm]
      · simpa using hne
    · cases hs'
    · cases hs'

/-- `commit` after an answer: until the rename both files stay, after it the final one. -/
theorem Holds.resume_commit {u : TaskId} {file : AtomicPendingFile} {phase : CommitPhase}
    {fault : Bool} (h : d.Holds u (.committing file phase)) :
    (∀ s', (phase.resume file (d.runCall u fault (phase.call file)).1).left = some s' →
      (d.runCall u fault (phase.call file)).2.Holds u s') ∧
    ∀ path, phase.resume file (d.runCall u fault (phase.call file)).1 = .committed (.ok path) →
      (d.runCall u fault (phase.call file)).2.Own u path := by
  have hown := fun q => own_runCall d u u fault (phase.call file) q
  -- every call but the rename leaves the files alone
  have hsame : phase ≠ .renamingTemp → ∀ q,
      (d.runCall u fault (phase.call file)).2.Own u q ↔ d.Own u q := by
    intro hphase q
    cases phase with
    | renamingTemp => exact absurd rfl hphase
    | flushing | syncing | openingDirectory | syncingDirectory =>
      exact own_runCall_of_harmless rfl nofun
  generalize d.runCall u fault (phase.call file) = r at hown hsame ⊢
  obtain ⟨reply, d'⟩ := r
  cases phase with
  | flushing temp | syncing temp =>
    cases reply with
    | error e => exact ⟨nofun, nofun⟩
    | ok r =>
      refine ⟨fun s' hs' => ?_, nofun⟩
      cases hs'
      exact h.same (hsame (by simp)) rfl
  | renamingTemp =>
    cases reply with
    | error e => exact ⟨(by intro _ h; cases h), (by intro _ h; cases h)⟩
    | ok r =>
      refine ⟨fun s' hs' => ?_, (by intro _ h; cases h)⟩
      cases hs'
      -- the temporary has become the final file
      refine ⟨fun q => ?_, List.nodup_singleton _⟩
      have htemp : d.Own u file.tempPath := (h.own _).mpr List.mem_cons_self
      rw [hown]
      show (q = file.finalPath ∧ d.Own u file.tempPath) ∨
        (q ≠ file.tempPath ∧ q ≠ file.finalPath ∧ d.Own u q) ↔ q ∈ [file.finalPath]
      rw [h.own q]
      simp only [htemp, and_true, SinkTask.holds, List.mem_cons, List.not_mem_nil, or_false]
      grind
  -- the rename is done: an error of the directory is swallowed
  | openingDirectory =>
    have hfinal : d.Own u file.finalPath := (h.own _).mpr List.mem_cons_self
    cases reply with
    | error e =>
      refine ⟨(by intro _ h; cases h), fun path hp => ?_⟩
      cases hp
      exact (hsame (by simp) _).mpr hfinal
    | ok r =>
      refine ⟨fun s' hs' => ?_, (by intro _ h; cases h)⟩
      cases hs'
      exact h.same (hsame (by simp)) rfl
  | syncingDirectory =>
    have hfinal : d.Own u file.finalPath := (h.own _).mpr List.mem_cons_self
    refine ⟨(by intro _ h; cases h), fun path hp => ?_⟩
    cases hp
    exact (hsame (by simp) _).mpr hfinal

/-- `abort` after an answer. -/
theorem Holds.resume_abort {u : TaskId} {file : AtomicPendingFile} {phase : AbortPhase}
    {fault : Bool} (h : d.Holds u (.aborting file phase)) :
    ∀ s', (phase.resume file (d.runCall u fault (phase.call file)).1).left = some s' →
      (d.runCall u fault (phase.call file)).2.Holds u s' := by
  cases phase with
  -- the second removal is the last call
  | removingReservation temp =>
    intro s' hs'
    unfold AbortPhase.resume at hs'
    dsimp only at hs'
    split at hs' <;> exact nomatch hs'
  | removingTemp =>
    have hown := fun q => own_runCall d u u fault (.removeFile file.tempPath) q
    show ∀ s', (AbortPhase.resume file .removingTemp
      (d.runCall u fault (.removeFile file.tempPath)).1).left = some s' →
        (d.runCall u fault (.removeFile file.tempPath)).2.Holds u s'
    generalize d.runCall u fault (.removeFile file.tempPath) = r at hown ⊢
    obtain ⟨reply, d'⟩ := r
    intro s' hs'
    cases hs'
    -- a temporary that could not be removed is left behind
    cases reply with
    | error e => exact h.same hown rfl
    | ok r =>
      have hne : file.tempPath ≠ file.finalPath := by
        have hnodup : [file.tempPath, file.finalPath].Nodup := h.nodup
        simpa using hnodup
      refine ⟨fun q => ?_, List.nodup_singleton _⟩
      rw [hown]
      show q ≠ file.tempPath ∧ d.Own u q ↔ q ∈ [file.finalPath]
      rw [h.own q]
      simp only [SinkTask.holds, List.mem_cons, List.not_mem_nil, or_false]
      grind

/-- A future of the sink and the files of its upload stay together. -/
theorem Holds.resume {u : TaskId} {s : SinkTask} {c : FsCall PathBuf} {fault : Bool}
    {uuid : String} {next : SinkStep} (h : d.Holds u s) (harmed : s.Armed) (hc : s.call = some c)
    (hnext : s.resume (d.runCall u fault c).1 uuid = some next) :
    (∀ s', next.left = some s' → (d.runCall u fault c).2.Holds u s') ∧
      ∀ path, next = .committed (.ok path) → (d.runCall u fault c).2.Own u path := by
  have hfollows := SinkTask.follows_resume harmed hnext
  -- by the operation whose call is answered
  cases s with
  | pending => cases hc
  | creating future =>
    cases hc
    cases hnext
    refine ⟨h.resume_create, fun path hp => ?_⟩
    rw [hp] at hfollows
    cases hfollows
  | committing file phase =>
    cases hc
    cases hnext
    exact h.resume_commit
  | aborting file phase =>
    cases hc
    cases hnext
    refine ⟨h.resume_abort, fun path hp => ?_⟩
    rw [hp] at hfollows
    cases hfollows

end DiskWorld

end LocalSend
