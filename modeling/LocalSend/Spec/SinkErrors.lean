import LocalSend.Spec.CreateSteps

/-!
# What a failed operation of the sink leaves

`create`, `commit` and `abort` may be failed at any of their calls. A receive has two files,
and an operation that returns an error is clean when neither is left and the next receive of
the name gets the path it would have got anyway.

## Key results

- `pathFor_of_grown`: directories that were made on the way change no later name
- `create_error_cases`: what an error of `create` leaves
- `SinkOp.clean_iff`: an error is clean exactly when every failing call came before the
  reservation
-/

namespace LocalSend

/-- A pending receive whose two files are on the disk. -/
structure PendingOn (fs : FileSystem PathBuf) where
  file : AtomicPendingFile
  temp : Nat
  armed : file.temp = some temp
  tempInPlace : fs.entry file.tempPath = some (.file temp)
  reserved : ∃ i, fs.entry file.finalPath = some (.file i)

/-- What is called: `create`, or one of the two that consume a pending receive. -/
inductive SinkStage (fs : FileSystem PathBuf) where
  | create
  | commit (pending : PendingOn fs)
  | abort (pending : PendingOn fs)

/-- An operation of the receive of a name, called while the disk is as in `fs`. -/
structure SinkOp (fs : FileSystem PathBuf) where
  saveDir : PathBuf
  fileName : String
  stage : SinkStage fs

theorem PendingOn.commit_isSome {fs : FileSystem PathBuf} (pending : PendingOn fs) :
    pending.file.commit.isSome := by
  simp [AtomicPendingFile.commit, pending.armed]

namespace SinkOp

variable {fs : FileSystem PathBuf}

/-- The operation alone. -/
def run (op : SinkOp fs) (uuid : String) (fault : Nat → Option FsError) : SinkRun :=
  match op.stage with
  | .create => AtomicFileSink.createAlone uuid fault fs op.saveDir op.fileName
  | .commit pending => (pending.file.commit.get pending.commit_isSome).runFrom uuid fault 0 fs
  | .abort pending => pending.file.abort.runFrom uuid fault 0 fs

/-- The disk without the receive. -/
def without (op : SinkOp fs) : FileSystem PathBuf :=
  match op.stage with
  | .create => fs
  | .commit pending | .abort pending =>
    (fs.setEntry pending.file.tempPath none nofun).setEntry pending.file.finalPath none nofun

/-- No file of the receive is left, and the next receive of its name gets the path it would
    have got without it. -/
def Clean (op : SinkOp fs) (fs' : FileSystem PathBuf) : Prop :=
  (∀ p i, fs'.entry p = some (.file i) → op.without.entry p = some (.file i)) ∧
    ∀ uuid, AtomicFileSink.pathFor uuid fs' op.saveDir op.fileName =
      AtomicFileSink.pathFor uuid op.without op.saveDir op.fileName

end SinkOp

/-- A `create` that has not reserved a name yet. -/
def SinkTask.beforeReservation : SinkTask → Bool
  | .creating future =>
    match future.phase with
    | .inspecting .. | .makingDirectory .. | .reserving _ => true
    | .openingTemp .. => false
  | .pending _ | .committing .. | .aborting .. => false

namespace SinkRun

/-- Every call that failed was made by a `create` before it had reserved a name. -/
def FailsEarly (run : SinkRun) : Prop :=
  ∀ s e, (s, .error e) ∈ run.calls → s.beforeReservation = true

/-- No removal of an `abort` failed. -/
def RemovalsSucceed (run : SinkRun) : Prop :=
  ∀ file phase e, (.aborting file phase, .error e) ∉ run.calls

end SinkRun

/-! ## The walk -/

/-- `fs` is `fs₀` with some directories on the way from `saveDir` that were not there, beyond
    the first `done` components. -/
structure Grown (saveDir : PathBuf) (relative : List String) (done : Nat)
    (fs₀ fs : FileSystem PathBuf) : Prop where
  entry : ∀ p, fs.entry p = fs₀.entry p ∨
    (fs₀.entry p = none ∧ fs.entry p = some .directory ∧ fs.entry p.parent = some .directory ∧
      ∃ pre, done < pre.length ∧ pre <+: relative ∧ p = saveDir.join pre)
  content : fs.content = fs₀.content
  next : fs.next = fs₀.next

theorem Grown.refl (saveDir : PathBuf) (relative : List String) (done : Nat)
    (fs : FileSystem PathBuf) : Grown saveDir relative done fs fs :=
  ⟨fun _ => .inl rfl, rfl, rfl⟩

theorem PathBuf.parent_join_snoc (p : PathBuf) (pre : List String) (name : String) :
    (p.join (pre ++ [name])).parent = p.join pre := by
  simp [PathBuf.join, PathBuf.parent, ← List.append_assoc]

theorem PathBuf.join_inj {p : PathBuf} {a b : List String} (h : p.join a = p.join b) : a = b := by
  simpa [PathBuf.join] using h

/-- Past the last component there is nothing left to differ in. -/
theorem Grown.eq {saveDir : PathBuf} {relative : List String} {fs₀ fs : FileSystem PathBuf}
    (h : Grown saveDir relative relative.length fs₀ fs) : fs = fs₀ := by
  have hentry : fs.entry = fs₀.entry := by
    funext p
    rcases h.entry p with heq | ⟨_, _, _, pre, hlen, hpre, _⟩
    · exact heq
    · have := hpre.length_le
      omega
  exact FileSystem.eq_of_fields hentry h.content h.next

/-! ## The path a name gets -/

/-- On a disk that fails nothing it does not matter how many calls were made before. -/
theorem SinkTask.drive_healthy (uuid : String) (fuel n m : Nat) (fs : FileSystem PathBuf)
    (s : SinkTask) :
    s.drive uuid (fun _ => none) fuel n fs = s.drive uuid (fun _ => none) fuel m fs := by
  induction fuel generalizing n m fs s with
  | zero => rfl
  | succ fuel ih => simp only [drive, ih (n + 1) (m + 1)]

/-- The path a `create` finds from here on, while no call fails. -/
def SinkStep.pathOf (uuid : String) (fs : FileSystem PathBuf) : SinkStep → Option PathBuf
  | .awaits s => (s.runFrom uuid (fun _ => none) 0 fs).result.createdPath
  | returned => returned.createdPath

theorem pathOf_creating (uuid : String) (fs : FileSystem PathBuf) (future : CreateFuture) :
    (SinkStep.awaits (.creating future)).pathOf uuid fs =
      (future.resume (fs.run future.call).1 uuid).pathOf uuid (fs.run future.call).2 := by
  have hnext : (SinkTask.creating future).resume (fs.answer none future.call).1 uuid =
      some (future.resume (fs.run future.call).1 uuid) := rfl
  have hrun := @SinkTask.runFrom_eq uuid (fun _ => none) 0 fs (.creating future) future.call rfl _ hnext
  simp only [SinkStep.pathOf, hrun]
  cases future.resume (fs.run future.call).1 uuid with
  | awaits s' =>
    have hshift : s'.runFrom uuid (fun _ => none) (0 + 1) (fs.answer none future.call).2 =
        s'.runFrom uuid (fun _ => none) 0 (fs.run future.call).2 := SinkTask.drive_healthy ..
    simp only [SinkTask.goOn, hshift]
  | created | committed | aborted => rfl

/-- A component is entered, or made and entered. -/
theorem pathOf_inspecting (uuid : String) (fs : FileSystem PathBuf) (directory p : PathBuf)
    (leaf : String) (rest : List String) :
    (SinkStep.awaits (.creating ⟨directory, leaf, .inspecting p rest⟩)).pathOf uuid fs =
      match fs.entry p with
      | some .directory =>
        (CreateFuture.walkOn ⟨directory, leaf, .inspecting p rest⟩ p rest).pathOf uuid fs
      | some _ => none
      | none =>
        if fs.hasParent p then
          (CreateFuture.walkOn ⟨directory, leaf, .inspecting p rest⟩ p rest).pathOf uuid
            (fs.setEntry p (some .directory) (by intro _ h; cases h))
        else none := by
  rw [pathOf_creating]
  -- what is looked up is there, or it is not and has to be made
  cases hentry : fs.entry p with
  | some e =>
    have hrun : fs.run (.symlinkMetadata p) = (.ok (.metadata e), fs) := by
      simp [FileSystem.run, hentry]
    simp only [CreateFuture.call, hrun]
    cases e <;> rfl
  | none =>
    have hrun : fs.run (.symlinkMetadata p) = (.error .notFound, fs) := by
      simp [FileSystem.run, hentry]
    have hmake : (SinkStep.awaits (.creating ⟨directory, leaf, .makingDirectory p rest⟩)).pathOf uuid fs =
        if fs.hasParent p then
          (CreateFuture.walkOn ⟨directory, leaf, .inspecting p rest⟩ p rest).pathOf uuid
            (fs.setEntry p (some .directory) (by intro _ h; cases h))
        else none := by
      rw [pathOf_creating]
      simp only [CreateFuture.call, FileSystem.run, hentry, Option.isSome_none]
      cases fs.hasParent p <;> rfl
    simp only [CreateFuture.call, hrun]
    exact hmake

/-- Directories on the way that are there already make no difference. -/
theorem pathOf_walkOn (uuid : String) {saveDir : PathBuf} {relative : List String}
    (future : CreateFuture) {rest pre : List String} (hrelative : relative = pre ++ rest)
    {fs₀ fs : FileSystem PathBuf} (hgrown : Grown saveDir relative pre.length fs₀ fs) :
    (future.walkOn (saveDir.join pre) rest).pathOf uuid fs =
      (future.walkOn (saveDir.join pre) rest).pathOf uuid fs₀ := by
  -- by induction on the components that are left, for all disks that agree so far
  induction rest generalizing future pre fs₀ fs with
  | nil =>
    rw [List.append_nil] at hrelative
    subst hrelative
    rw [hgrown.eq]
  | cons name rest ih =>
    have hjoin : (saveDir.join pre).join [name] = saveDir.join (pre ++ [name]) := by
      simp [PathBuf.join]
    generalize hp : saveDir.join (pre ++ [name]) = p at hjoin
    have hparent : p.parent = saveDir.join pre := by
      rw [← hp, PathBuf.parent_join_snoc]
    have hnext : relative = (pre ++ [name]) ++ rest := by simp [hrelative]
    -- a name that goes up is refused on either disk
    by_cases hdots : name = ".."
    · have hrejects : ∃ e, future.walkOn (saveDir.join pre) (name :: rest) =
          .created (.error e) := by
        simp [CreateFuture.walkOn, CreateFuture.walk, hdots]
      obtain ⟨e, he⟩ := hrejects
      rw [he]
      rfl
    have hwalk : future.walkOn (saveDir.join pre) (name :: rest) =
        .awaits (.creating ⟨future.directory, future.leaf, .inspecting p rest⟩) := by
      simp [CreateFuture.walkOn, CreateFuture.walk, hdots, hjoin]
    rw [hwalk, pathOf_inspecting, pathOf_inspecting]
    -- past `p`, two disks that agree at `p` are compared by the induction hypothesis
    have hgo : ∀ {gs₀ gs : FileSystem PathBuf}, Grown saveDir relative pre.length gs₀ gs →
        gs.entry p = gs₀.entry p → Grown saveDir relative (pre ++ [name]).length gs₀ gs := by
      intro gs₀ gs hg hsame
      refine ⟨fun q => ?_, hg.content, hg.next⟩
      rcases hg.entry q with heq | ⟨hfree, hdir, hup, pre', hlen, hpre', rfl⟩
      · exact .inl heq
      · by_cases hq : saveDir.join pre' = p
        · rw [hq]
          exact .inl hsame
        · refine .inr ⟨hfree, hdir, hup, pre', ?_, hpre', rfl⟩
          have hpos : pre'.length ≠ pre.length + 1 := by
            intro heq
            apply hq
            rw [← hp]
            congr 1
            have hpre : pre ++ [name] <+: relative := ⟨rest, hnext.symm⟩
            exact (List.prefix_of_prefix_length_le hpre' hpre (by simp [heq])).eq_of_length
              (by simp [heq])
          simp only [List.length_append, List.length_singleton]
          omega
    -- the parent of the next component is the same on both
    have hpar : fs.hasParent p = fs₀.hasParent p := by
      unfold FileSystem.hasParent
      have : ParentPath.parent p = saveDir.join pre := hparent
      rw [this]
      rcases hgrown.entry (saveDir.join pre) with heq | ⟨_, _, _, pre', hlen, _, heq⟩
      · rw [heq]
      · rw [PathBuf.join_inj heq] at hlen
        omega
    have hgoOn : ∀ {gs₀ gs : FileSystem PathBuf}, Grown saveDir relative pre.length gs₀ gs →
        gs.entry p = gs₀.entry p → ∀ future : CreateFuture,
        (future.walkOn p rest).pathOf uuid gs = (future.walkOn p rest).pathOf uuid gs₀ := by
      intro gs₀ gs hg hsame future
      rw [← hp]
      exact ih future hnext (hgo hg hsame)
    -- the two disks agree at the next component, or only the larger has it
    rcases hgrown.entry p with hsame | ⟨hfree, hdir, hup, _⟩
    · rw [hsame]
      cases hentry : fs₀.entry p with
      | some e =>
        cases e with
        | directory => exact hgoOn hgrown hsame _
        | file i | symlink => rfl
      | none =>
        simp only [hpar]
        split
        · -- both disks make it
          have hmade : Grown saveDir relative pre.length
              (fs₀.setEntry p (some .directory) (by simp))
              (fs.setEntry p (some .directory) (by simp)) := by
            refine ⟨fun q => ?_, hgrown.content, hgrown.next⟩
            simp only [FileSystem.entry_setEntry]
            by_cases hq : q = p
            · simp [hq]
            · by_cases hqp : q.parent = p
              · rcases hgrown.entry q with heq | ⟨hfree, hdir, _, hpre⟩
                · simp [hq, heq]
                · exact .inr ⟨by simp [hq, hfree], by simp [hq, hdir], by simp [hqp], hpre⟩
              · simpa [hq, hqp] using hgrown.entry q
          exact hgoOn hmade (by simp) _
        · rfl
    · -- only the smaller disk makes it
      have hparent₀ : fs₀.hasParent p = true := by
        rw [← hpar]
        exact decide_eq_true hup
      simp only [hdir, hfree, hparent₀, if_true]
      have hmade : Grown saveDir relative pre.length (fs₀.setEntry p (some .directory) (by simp)) fs := by
        refine ⟨fun q => ?_, hgrown.content, hgrown.next⟩
        rw [FileSystem.entry_setEntry]
        by_cases hq : q = p
        · simp [hq, hdir]
        · simpa [hq] using hgrown.entry q
      exact hgoOn hmade (by simp [hdir]) _

theorem PathBuf.join_nil (p : PathBuf) : p.join [] = p := by simp [PathBuf.join]

/-- Directories that were made on the way change no later path of the name. -/
theorem pathFor_of_grown (uuid : String) {saveDir : PathBuf} {fileName : String}
    {future : CreateFuture} {relative : List String}
    (hcreate : AtomicFileSink.create saveDir fileName = .ok future)
    (hwalk : .awaits (.creating future) = future.walkOn saveDir relative)
    {fs₀ fs : FileSystem PathBuf} (hgrown : Grown saveDir relative 0 fs₀ fs) :
    AtomicFileSink.pathFor uuid fs saveDir fileName =
      AtomicFileSink.pathFor uuid fs₀ saveDir fileName := by
  have hpath : ∀ gs, AtomicFileSink.pathFor uuid gs saveDir fileName =
      (future.walkOn saveDir relative).pathOf uuid gs := by
    intro gs
    rw [← hwalk, AtomicFileSink.pathFor, AtomicFileSink.createAlone, hcreate]
    rfl
  rw [hpath, hpath]
  have hcongr := @pathOf_walkOn uuid saveDir relative future relative [] rfl fs₀ fs hgrown
  rwa [PathBuf.join_nil] at hcongr

/-! ## The errors of create -/

/-- A `create` on its way from `fs₀` to `fs`: walking or reserving with nothing but
    directories made, or with its name reserved. -/
def OnTheWay (saveDir : PathBuf) (relative : List String) (fs₀ fs : FileSystem PathBuf)
    (future : CreateFuture) : Prop :=
  match future.phase with
  | .inspecting current rest | .makingDirectory current rest =>
    Grown saveDir relative 0 fs₀ fs ∧
      ∃ pre, 0 < pre.length ∧ current = saveDir.join pre ∧ relative = pre ++ rest
  | .reserving _ => Grown saveDir relative 0 fs₀ fs
  | .openingTemp finalPath _ =>
    fs₀.entry finalPath = none ∧ ∃ i, fs.entry finalPath = some (.file i)

/-- A name that is free still, was free. -/
theorem Grown.free {saveDir : PathBuf} {relative : List String} {done : Nat}
    {fs₀ fs : FileSystem PathBuf} (h : Grown saveDir relative done fs₀ fs) {p : PathBuf}
    (hfree : fs.entry p = none) : fs₀.entry p = none := by
  rcases h.entry p with heq | ⟨hfree₀, _⟩
  · rw [← heq, hfree]
  · exact hfree₀

/-- Another directory on the way. -/
theorem Grown.made {saveDir : PathBuf} {relative pre rest : List String}
    {fs₀ fs : FileSystem PathBuf} (h : Grown saveDir relative 0 fs₀ fs) (hpos : 0 < pre.length)
    (hrelative : relative = pre ++ rest) (hfree : fs.entry (saveDir.join pre) = none)
    (hparent : fs.entry (saveDir.join pre).parent = some .directory) :
    Grown saveDir relative 0 fs₀
      (fs.setEntry (saveDir.join pre) (some .directory) (by intro _ h; cases h)) where
  -- the new directory is one of the way, its parent was one before
  entry q := by
    simp only [FileSystem.entry_setEntry]
    by_cases hq : q = saveDir.join pre
    · subst hq
      refine .inr ⟨h.free hfree, if_pos rfl, ?_, pre, hpos, ⟨rest, hrelative.symm⟩, rfl⟩
      split
      · rfl
      · exact hparent
    · rw [if_neg hq]
      rcases h.entry q with heq | ⟨hfree₀, hdir, hup, hpre⟩
      · exact .inl heq
      · refine .inr ⟨hfree₀, hdir, ?_, hpre⟩
        split
        · rfl
        · exact hup
  content := h.content
  next := h.next

/-- Where a walk is after a component: it refuses the next one, awaits it, or reserves. -/
theorem walkOn_cases {saveDir : PathBuf} {relative pre rest : List String}
    {fs₀ fs : FileSystem PathBuf} (future : CreateFuture) (hrelative : relative = pre ++ rest)
    (hgrown : Grown saveDir relative 0 fs₀ fs) :
    (∃ e, future.walkOn (saveDir.join pre) rest = .created (.error e)) ∨
      ∃ next, future.walkOn (saveDir.join pre) rest = .awaits (.creating next) ∧
        OnTheWay saveDir relative fs₀ fs next := by
  cases rest with
  | nil => exact .inr ⟨_, rfl, hgrown⟩
  | cons name rest =>
    by_cases hdots : name = ".."
    · exact .inl ⟨.rejected "a path component that is not a plain name",
        by simp [CreateFuture.walkOn, CreateFuture.walk, hdots]⟩
    · refine .inr ⟨⟨future.directory, future.leaf, .inspecting (saveDir.join (pre ++ [name])) rest⟩,
        ?_, hgrown, pre ++ [name], by simp, rfl, by simp [hrelative]⟩
      simp [CreateFuture.walkOn, CreateFuture.walk, hdots, PathBuf.join]

/-- What an error leaves: directories on the way, while every failing call came early, or
    else a file that was not there. -/
def SinkRun.ErrorLeaves (run : SinkRun) (saveDir : PathBuf) (relative : List String)
    (fs₀ : FileSystem PathBuf) : Prop :=
  ∀ e, run.result.error = some e →
    (run.FailsEarly ∧ Grown saveDir relative 0 fs₀ run.fs) ∨
    (¬run.FailsEarly ∧ ∃ p i, run.fs.entry p = some (.file i) ∧ fs₀.entry p = none)

/-- An early call more makes no difference. -/
theorem SinkRun.ErrorLeaves.cons {run : SinkRun} {saveDir : PathBuf} {relative : List String}
    {fs₀ : FileSystem PathBuf} (h : run.ErrorLeaves saveDir relative fs₀) {s : SinkTask}
    (hs : s.beforeReservation = true) (reply : Except FsError FsReply) :
    SinkRun.ErrorLeaves { run with calls := (s, reply) :: run.calls } saveDir relative fs₀ := by
  intro e he
  have hearly : SinkRun.FailsEarly { run with calls := (s, reply) :: run.calls } ↔
      run.FailsEarly := by
    constructor
    · intro hall s' e' hmem
      exact hall s' e' (List.mem_cons_of_mem _ hmem)
    · intro hall s' e' hmem
      rcases List.mem_cons.mp hmem with heq | hmem
      · cases heq
        exact hs
      · exact hall s' e' hmem
  rw [hearly]
  exact h e he

/-- An early call that ends the run with an error has left only directories. -/
theorem SinkRun.errorLeaves_early {s : SinkTask} (hs : s.beforeReservation = true)
    (reply : Except FsError FsReply) (step : SinkStep) {saveDir : PathBuf} {relative : List String}
    {fs₀ fs : FileSystem PathBuf} (hgrown : Grown saveDir relative 0 fs₀ fs) :
    SinkRun.ErrorLeaves ⟨[(s, reply)], step, fs⟩ saveDir relative fs₀ := by
  intro e _
  refine .inl ⟨fun s' e' hmem => ?_, hgrown⟩
  cases List.mem_singleton.mp hmem
  exact hs

/-- What an error of `create` leaves. -/
theorem create_error_cases (uuid : String) (fault : Nat → Option FsError) {saveDir : PathBuf}
    {relative : List String} {fs₀ : FileSystem PathBuf} (n : Nat) (fs : FileSystem PathBuf)
    (future : CreateFuture) (hway : OnTheWay saveDir relative fs₀ fs future) :
    ((SinkTask.creating future).runFrom uuid fault n fs).ErrorLeaves saveDir relative fs₀ := by
  -- by induction on the calls that the future has left
  induction hb : (SinkTask.creating future).budget using Nat.strongRecOn generalizing n fs future with
  | ind b ih =>
    have hstep := createStep_of_resume fs (fault n) uuid future
    have hnext : (SinkTask.creating future).resume (fs.answer (fault n) future.call).1 uuid =
        some (future.resume (fs.answer (fault n) future.call).1 uuid) := rfl
    rw [SinkTask.runFrom_eq rfl hnext]
    generalize fs.answer (fault n) future.call = r at hstep hnext ⊢
    generalize future.resume r.1 uuid = next at hstep hnext ⊢
    obtain ⟨reply, fs'⟩ := r
    dsimp only at hstep hnext ⊢
    -- an early call, after which the future is still on its way
    have hgo : ∀ future', next = .awaits (.creating future') →
        (SinkTask.creating future).beforeReservation = true →
        OnTheWay saveDir relative fs₀ fs' future' →
        (SinkTask.goOn uuid fault n fs' (.creating future) reply next).ErrorLeaves saveDir relative
          fs₀ := by
      intro future' heq hearly hway'
      subst heq
      exact (ih _ (hb ▸ (SinkTask.budget_lt hnext).1) (n + 1) fs' future' hway' rfl).cons hearly reply
    -- an early call that enters a component
    have hwalk : ∀ {pre rest}, next = future.walkOn (saveDir.join pre) rest →
        relative = pre ++ rest →
        (SinkTask.creating future).beforeReservation = true → Grown saveDir relative 0 fs₀ fs' →
        (SinkTask.goOn uuid fault n fs' (.creating future) reply next).ErrorLeaves saveDir relative
          fs₀ := by
      intro pre rest heq hrelative hearly hgrown
      rcases walkOn_cases future hrelative hgrown with ⟨e, he⟩ | ⟨future', hfuture', hway'⟩
      · rw [heq, he]
        exact SinkRun.errorLeaves_early hearly _ _ hgrown
      · exact hgo future' (heq.trans hfuture') hearly hway'
    unfold OnTheWay at hway
    -- the cases of one call, from the phase that makes it
    cases hstep with
    | entered hphase hfault hdir =>
      rw [hphase] at hway
      obtain ⟨hgrown, pre, hpos, rfl, hrelative⟩ := hway
      exact hwalk rfl hrelative (by simp [SinkTask.beforeReservation, hphase]) hgrown
    | rejected hphase =>
      rw [hphase] at hway
      exact SinkRun.errorLeaves_early (by simp [SinkTask.beforeReservation, hphase]) _ _ hway.1
    | missing hphase =>
      rw [hphase] at hway
      exact hgo _ rfl (by simp [SinkTask.beforeReservation, hphase]) hway
    | made hphase hfault hfree hparent =>
      rw [hphase] at hway
      obtain ⟨hgrown, pre, hpos, rfl, hrelative⟩ := hway
      exact hwalk rfl hrelative (by simp [SinkTask.beforeReservation, hphase])
        (hgrown.made hpos hrelative hfree hparent)
    | reserved hphase hfault hfree =>
      rw [hphase] at hway
      refine hgo _ rfl (by simp [SinkTask.beforeReservation, hphase]) ⟨hway.free hfree, fs.next, ?_⟩
      rw [FileSystem.entry_newFile, if_pos rfl]
    | taken hphase =>
      rw [hphase] at hway
      exact hgo _ rfl (by simp [SinkTask.beforeReservation, hphase]) hway
    | opened => exact fun e he => (by cases he)
    -- a failure before the reservation leaves directories at most, a later one the reserved name
    | failed =>
      cases hphase : future.phase with
      | inspecting | makingDirectory =>
        rw [hphase] at hway
        exact SinkRun.errorLeaves_early (by simp [SinkTask.beforeReservation, hphase]) _ _ hway.1
      | reserving =>
        rw [hphase] at hway
        exact SinkRun.errorLeaves_early (by simp [SinkTask.beforeReservation, hphase]) _ _ hway
      | openingTemp finalPath tempPath =>
        -- the name is reserved, and stays so
        rw [hphase] at hway
        obtain ⟨hfree, i, hentry⟩ := hway
        refine fun e' _ => .inr ⟨fun hearly => ?_, finalPath, i, hentry, hfree⟩
        have := hearly _ _ (List.mem_singleton_self _)
        simp [SinkTask.beforeReservation, hphase] at this

/-! ## The errors of commit and abort -/

/-- A call that fails, injected or not, changes nothing. -/
theorem answer_of_error {fs fs' : FileSystem PathBuf} {fault : Option FsError} {c : FsCall PathBuf}
    {e : FsError} (h : fs.answer fault c = (.error e, fs')) : fs' = fs := by
  cases fault with
  | some e' =>
    cases h
    rfl
  | none => exact FileSystem.run_of_error h

/-- A `commit` that returns an error has its temporary still where it was. -/
theorem commit_error_leaves (uuid : String) (fault : Nat → Option FsError) {i : Nat} (n : Nat)
    (fs : FileSystem PathBuf) (file : AtomicPendingFile) (phase : CommitPhase)
    (htemp : phase ≠ .openingDirectory ∧ phase ≠ .syncingDirectory →
      fs.entry file.tempPath = some (.file i)) {e : SinkError}
    (he : ((SinkTask.committing file phase).runFrom uuid fault n fs).result.error = some e) :
    ¬((SinkTask.committing file phase).runFrom uuid fault n fs).FailsEarly ∧
      ((SinkTask.committing file phase).runFrom uuid fault n fs).fs.entry file.tempPath =
        some (.file i) := by
  -- by induction on the calls that the commit has left
  induction hb : (SinkTask.committing file phase).budget using Nat.strongRecOn
    generalizing n fs phase with
  | ind b ih =>
    have hnext : (SinkTask.committing file phase).resume (fs.answer (fault n) (phase.call file)).1 uuid =
        some (phase.resume file (fs.answer (fault n) (phase.call file)).1) := rfl
    rw [SinkTask.runFrom_eq rfl hnext] at he ⊢
    rcases hr : fs.answer (fault n) (phase.call file) with ⟨reply, fs'⟩
    rw [hr] at he hnext
    dsimp only at he hnext ⊢
    -- an error of one of the first three calls is returned as it is
    have hfails : ∀ e', reply = .error e' → phase ≠ .openingDirectory ∧ phase ≠ .syncingDirectory →
        ¬SinkRun.FailsEarly ⟨[(.committing file phase, reply)],
          .committed (.error (.failed e'.text)), fs'⟩ ∧
          fs'.entry file.tempPath = some (.file i) := by
      intro e' heq hphase
      subst heq
      rw [answer_of_error hr]
      refine ⟨fun hearly => ?_, htemp hphase⟩
      have := hearly _ _ (List.mem_singleton_self _)
      simp [SinkTask.beforeReservation] at this
    -- a call that succeeds goes on to the next phase
    have hgo : ∀ phase', phase.resume file reply = .awaits (.committing file phase') →
        (phase' ≠ .openingDirectory ∧ phase' ≠ .syncingDirectory →
          fs'.entry file.tempPath = some (.file i)) →
        ¬(SinkTask.goOn uuid fault n fs' (.committing file phase) reply
          (phase.resume file reply)).FailsEarly ∧
          (SinkTask.goOn uuid fault n fs' (.committing file phase) reply
            (phase.resume file reply)).fs.entry file.tempPath = some (.file i) := by
      intro phase' hawaits htemp'
      rw [hawaits] at he hnext ⊢
      obtain ⟨hlate, hentry⟩ := ih _ (hb ▸ (SinkTask.budget_lt hnext).1) (n + 1) fs' phase' htemp' he rfl
      exact ⟨fun hearly => hlate fun s' e' hmem => hearly s' e' (List.mem_cons_of_mem _ hmem), hentry⟩
    cases phase with
    | flushing temp | syncing temp =>
      cases reply with
      | error e' => exact hfails e' rfl (by simp)
      | ok r =>
        -- waiting for the bytes changes no entry
        have hsame : fs' = fs := by
          cases hfault : fault n <;> rw [hfault] at hr <;> cases hr
          rfl
        exact hgo _ rfl fun _ => hsame ▸ htemp (by simp)
    | renamingTemp =>
      cases reply with
      | error e' => exact hfails e' rfl (by simp)
      | ok r => exact hgo .openingDirectory rfl (by simp)
    -- an error after the rename is not reported
    | openingDirectory =>
      cases reply with
      | error e' => cases he
      | ok r => exact hgo .syncingDirectory rfl (by simp)
    | syncingDirectory => cases he

/-- An `abort` returns an error only when one of its removals failed. -/
theorem abort_error_cases (uuid : String) (fault : Nat → Option FsError) (n : Nat)
    (fs : FileSystem PathBuf) (file : AtomicPendingFile) {e : SinkError}
    (he : (file.abort.runFrom uuid fault n fs).result.error = some e) :
    ¬(file.abort.runFrom uuid fault n fs).RemovalsSucceed := by
  let file' : AtomicPendingFile := { file with temp := none }
  have hfirst := @SinkTask.runFrom_eq uuid fault n fs file.abort (.removeFile file.tempPath) rfl _ rfl
  rw [hfirst] at he ⊢
  generalize fs.answer (fault n) (.removeFile file.tempPath) = r at he ⊢
  have hsecond := @SinkTask.runFrom_eq uuid fault (n + 1) r.2
    (.aborting file' (.removingReservation (r.1.map fun _ => ())))
      (.removeFile file.finalPath) rfl _ rfl
  simp only [AtomicPendingFile.abort, AbortPhase.resume, SinkTask.goOn] at he ⊢
  rw [hsecond] at he ⊢
  generalize r.2.answer (fault (n + 1)) (.removeFile file.finalPath) = r' at he ⊢
  obtain ⟨reply, fs'⟩ := r
  obtain ⟨reply', fs''⟩ := r'
  -- an error is reported only if one of the two removals failed
  intro hall
  cases reply with
  | error e₁ => exact hall file' .removingTemp e₁ List.mem_cons_self
  | ok r₁ =>
    cases reply' with
    | error e₂ =>
      exact hall file' _ e₂ (List.mem_cons_of_mem _ (List.mem_singleton_self _))
    | ok r₂ => cases he

/-! ## Clean errors -/

/-- An operation that returns an error, and that no failing removal has kept from cleaning up,
    leaves neither file and frees the name exactly when every call that failed was made before
    the name was reserved. -/
theorem SinkOp.clean_iff {fs : FileSystem PathBuf} (op : SinkOp fs) (uuid : String)
    (fault : Nat → Option FsError) {e : SinkError} (he : (op.run uuid fault).result.error = some e)
    (hremovals : (op.run uuid fault).RemovalsSucceed) :
    op.Clean (op.run uuid fault).fs ↔ (op.run uuid fault).FailsEarly := by
  obtain ⟨saveDir, fileName, stage⟩ := op
  -- the three operations on a sink, with what each leaves behind
  cases stage with
  | create =>
    simp only [SinkOp.run, AtomicFileSink.createAlone] at he ⊢
    cases hcreate : AtomicFileSink.create saveDir fileName with
    | error e' => exact iff_of_true ⟨fun _ _ h => h, fun _ => rfl⟩ fun _ _ h => (by cases h)
    | ok future =>
      simp only [hcreate] at he ⊢
      obtain ⟨relative, _, _, _, hwalk⟩ := AtomicFileSink.create_eq_ok hcreate
      have hway : OnTheWay saveDir relative fs fs future := by
        have hcases := @walkOn_cases saveDir relative [] relative fs fs future rfl (.refl ..)
        rw [PathBuf.join_nil, ← hwalk] at hcases
        rcases hcases with ⟨_, h⟩ | ⟨next, h, hway⟩
        · simp at h
        · cases h
          exact hway
      rcases create_error_cases uuid fault 0 fs future hway e he with
        ⟨hearly, hgrown⟩ | ⟨hlate, p, i, hentry, hfree⟩
      · refine iff_of_true ⟨fun p i hp => ?_, fun uuid' => ?_⟩ hearly
        · rcases hgrown.entry p with heq | ⟨_, hdir, _⟩
          · exact heq ▸ hp
          · cases hp.symm.trans hdir
        · exact pathFor_of_grown uuid' hcreate hwalk hgrown
      · exact iff_of_false (fun hclean => (by cases hfree.symm.trans (hclean.1 p i hentry))) hlate
  | commit pending =>
    -- the commit begins with the flush of the temporary file
    have hcommit : pending.file.commit.get pending.commit_isSome =
        .committing { pending.file with temp := none } (.flushing pending.temp) := by
      simp [AtomicPendingFile.commit, pending.armed]
    simp only [SinkOp.run, hcommit] at he ⊢
    obtain ⟨hlate, hentry⟩ := commit_error_leaves uuid fault 0 fs { pending.file with temp := none }
      (.flushing pending.temp) (fun _ => pending.tempInPlace) he
    -- the temporary file is still there, so a commit that fails is never clean
    refine iff_of_false (fun hclean => ?_) hlate
    have hgone := hclean.1 _ _ hentry
    simp [SinkOp.without] at hgone
  | abort pending => exact absurd hremovals (abort_error_cases uuid fault 0 fs pending.file he)

namespace Scenario

/-- An empty save directory. -/
def emptyRoot : FileSystem PathBuf where
  entry p := if p.components = [] then some .directory else none
  content _ := []
  next := 0
  used p i h := by split at h <;> exact nomatch h

/-- `create` of a name of one component. -/
def createA : SinkOp emptyRoot := ⟨⟨[]⟩, "a", .create⟩

/-- The failure of the `n`-th call. -/
def failing (n : Nat) : Nat → Option FsError := fun m => if m = n then some .other else none

end Scenario

/-- The open of the reservation fails, and nothing is left. -/
theorem clean_iff_reservation_fails :
    (Scenario.createA.run "u" (Scenario.failing 0)).result.error =
      some (.failed FsError.other.text) ∧
      (Scenario.createA.Clean (Scenario.createA.run "u" (Scenario.failing 0)).fs ↔
        (Scenario.createA.run "u" (Scenario.failing 0)).FailsEarly) := by
  have he : (Scenario.createA.run "u" (Scenario.failing 0)).result.error =
      some (.failed FsError.other.text) := by rfl
  refine ⟨he, SinkOp.clean_iff _ _ _ he fun file phase e hmem => ?_⟩
  cases List.mem_singleton.mp (show _ ∈ [_] from hmem)

/-- The open of the temporary fails, and the reservation stays. -/
theorem not_clean_of_temporary_fails :
    ¬∀ (fs : FileSystem PathBuf) (op : SinkOp fs) (uuid : String) (fault : Nat → Option FsError)
      (e : SinkError), (op.run uuid fault).result.error = some e →
        (op.run uuid fault).RemovalsSucceed → op.Clean (op.run uuid fault).fs := by
  intro h
  have hclean := h Scenario.emptyRoot Scenario.createA "u" (Scenario.failing 1)
    (.failed FsError.other.text) (by rfl) ?_
  · exact absurd ((hclean.1 ⟨["a"]⟩ 0 (by rfl) : none = some _)) (by decide)
  · intro file phase e hmem
    exact absurd ((show _ ∈ [_, _] from hmem)) (by simp)

end LocalSend
