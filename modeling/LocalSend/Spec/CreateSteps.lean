import LocalSend.Core.SinkRun

/-!
# The steps of a `create`

What one call of `AtomicFileSink::create` can be answered with, what it changes, and how
the future goes on (`CreateStep`). The runs of a future, alone or among others, are taken
apart with this one inversion.

## Key results

- `createStep_of_resume`: every resumption of a `create` is one of the steps
- `runFrom_eq`: a future alone makes its call and goes on with the answer
-/

namespace FileSystem

variable {κ : Type*} [DecidableEq κ] [ParentPath κ]

/-- What a call can do when it may be failed with any error. -/
theorem effect_answer (fs : FileSystem κ) (fault : Option FsError) (c : FsCall κ) :
    fs.Effect c (fs.answer fault c).1 (fs.answer fault c).2 := by
  cases fault with
  | some e => exact .failed
  | none => exact fs.attempt_cases false c

/-- Whoever makes a directory finds the one it goes to. -/
theorem run_createDir {fs fs' : FileSystem κ} {p : κ} {r : FsReply}
    (h : fs.run (.createDir p) = (.ok r, fs')) :
    fs.entry p = none ∧ fs.entry (ParentPath.parent p) = some .directory ∧ r = .done ∧
      fs' = fs.setEntry p (some .directory) (fun _ h => by cases h) := by
  simp only [run] at h
  split at h
  · simp at h
  · rename_i hfree
    split at h
    · simp at h
    · rename_i hparent
      cases h
      exact ⟨Option.not_isSome_iff_eq_none.mp hfree, by simpa [hasParent] using hparent, rfl, rfl⟩

/-- Whoever makes a file finds the directory it goes to. -/
theorem run_openNew {fs fs' : FileSystem κ} {p : κ} {r : FsReply}
    (h : fs.run (.openNew p) = (.ok r, fs')) :
    fs.entry p = none ∧ fs.entry (ParentPath.parent p) = some .directory ∧ r = .opened fs.next ∧
      fs' = fs.newFile p := by
  simp only [run] at h
  split at h
  · simp at h
  · rename_i hfree
    split at h
    · simp at h
    · rename_i hparent
      cases h
      exact ⟨Option.not_isSome_iff_eq_none.mp hfree, by simpa [hasParent] using hparent, rfl, rfl⟩

/-- An exclusive open that finds something is told of it. -/
theorem entry_of_openNew_alreadyExists {fs fs' : FileSystem κ} {p : κ}
    (h : fs.run (.openNew p) = (.error .alreadyExists, fs')) : fs.entry p ≠ none := by
  intro hfree
  simp only [run, hfree, Option.isSome_none, Bool.false_eq_true, if_false] at h
  split at h <;> simp at h

/-- A call that fails changes nothing. -/
theorem run_of_error {fs fs' : FileSystem κ} {c : FsCall κ} {e : FsError}
    (h : fs.run c = (.error e, fs')) : fs' = fs := by
  have heffect := fs.attempt_cases false c
  have hrun : fs.attempt false c = (.error e, fs') := h
  rw [hrun] at heffect
  cases heffect
  rfl

end FileSystem

namespace LocalSend

/-- `walk_or_create_directory` at its next component: suspend there, or refuse it. -/
def CreateFuture.walkOn (future : CreateFuture) (current : PathBuf) (rest : List String) : SinkStep :=
  match CreateFuture.walk future.directory future.leaf current rest with
  | .error e => .created (.error e)
  | .ok next => .awaits (.creating next)

/-- The path of the component a walk is at. -/
def CreateFuture.component (future : CreateFuture) : Option PathBuf :=
  match future.phase with
  | .inspecting current _ | .makingDirectory current _ => some current
  | .reserving _ | .openingTemp .. => none

/-- Where a `create` puts its temporary. -/
def CreateFuture.temporary (future : CreateFuture) (uuid : String) : PathBuf :=
  future.directory.join [".localsend-" ++ uuid ++ ".part"]

/-- A `create` once it has reserved the candidate of an attempt. -/
def CreateFuture.reservedAt (future : CreateFuture) (attempt : Nat) (uuid : String) :
    CreateFuture :=
  { future with phase := .openingTemp (future.candidate attempt) (future.temporary uuid) }

/-! ## Where a create begins -/

theorem PathBuf.stripPrefix_eq_some {p saveDir : PathBuf} {relative : List String} :
    p.stripPrefix saveDir = some relative ↔ p = saveDir.join relative := by
  unfold PathBuf.stripPrefix
  constructor
  · intro h
    split at h
    · rename_i hpre
      obtain ⟨rest, hrest⟩ := List.isPrefixOf_iff_prefix.mp hpre
      rw [← hrest, List.drop_left, Option.some.injEq] at h
      subst h
      cases p
      rw [PathBuf.join, hrest]
    · simp at h
  · rintro rfl
    simp [PathBuf.join]

/-- The names of the directories a remote name leads through. -/
def parentChain (fileName : String) : Option (List String) :=
  (relativeOf (components fileName)).map List.dropLast

/-- A `create` that is not refused at once walks the directories of its name. -/
theorem AtomicFileSink.create_eq_ok {saveDir : PathBuf} {fileName : String} {future : CreateFuture}
    (h : AtomicFileSink.create saveDir fileName = .ok future) :
    ∃ chain, parentChain fileName = some chain ∧ future.directory = saveDir.join chain ∧
      future.leaf ≠ ".." ∧ .awaits (.creating future) = future.walkOn saveDir chain := by
  unfold AtomicFileSink.create at h
  split at h
  · simp at h
  rename_i joined hjoined
  unfold safeJoin at hjoined
  split at hjoined
  · simp at hjoined
  split at hjoined
  · simp at hjoined
  split at hjoined
  · simp at hjoined
  · simp at hjoined
  rename_i relative hnonempty hrelative
  cases hjoined
  split at h
  · simp at h
  rename_i leaf hleaf
  -- the walk goes through the names of the parent, below the save directory
  have hparent : (saveDir.join relative).parent = saveDir.join relative.dropLast := by
    simp [PathBuf.parent, PathBuf.join, List.dropLast_append_of_ne_nil hnonempty]
  rw [hparent, PathBuf.stripPrefix_eq_some.mpr rfl] at h
  have h : CreateFuture.walk (saveDir.join relative.dropLast) leaf saveDir relative.dropLast =
      .ok future := h
  have hfields : future.directory = saveDir.join relative.dropLast ∧ future.leaf = leaf := by
    unfold CreateFuture.walk at h
    split at h
    · cases h
      exact ⟨rfl, rfl⟩
    · split at h
      · simp at h
      · cases h
        exact ⟨rfl, rfl⟩
  refine ⟨relative.dropLast, by rw [parentChain, hrelative, Option.map_some], hfields.1, ?_, ?_⟩
  · obtain ⟨_, hplain⟩ := Option.filter_eq_some_iff.mp hleaf
    rw [hfields.2]
    simpa using hplain
  · rw [CreateFuture.walkOn, hfields.1, hfields.2, h]

/-! ## One call -/

/-- What can come of the call a `create` waits for. -/
inductive CreateStep (fs : FileSystem PathBuf) (fault : Option FsError) (uuid : String)
    (future : CreateFuture) : Except FsError FsReply → FileSystem PathBuf → SinkStep → Prop
  | entered {current rest} (hphase : future.phase = .inspecting current rest)
    (hfault : fault = none) (hdir : fs.entry current = some .directory) :
    CreateStep fs fault uuid future (.ok (.metadata .directory)) fs (future.walkOn current rest)
  | rejected {current rest e} (hphase : future.phase = .inspecting current rest)
    (hfault : fault = none) (hentry : fs.entry current = some e) (hdir : e ≠ .directory) :
    CreateStep fs fault uuid future (.ok (.metadata e)) fs (.created (.error (.rejected
      (current.display ++ " is not a directory"))))
  | missing {current rest} (hphase : future.phase = .inspecting current rest)
    (hnone : fault = none → fs.entry current = none) :
    CreateStep fs fault uuid future (.error .notFound) fs
      (.awaits (.creating { future with phase := .makingDirectory current rest }))
  | made {current rest} (hphase : future.phase = .makingDirectory current rest)
    (hfault : fault = none) (hfree : fs.entry current = none)
    (hparent : fs.entry current.parent = some .directory) :
    CreateStep fs fault uuid future (.ok .done) (fs.setEntry current (some .directory) nofun)
      (future.walkOn current rest)
  | reserved {attempt} (hphase : future.phase = .reserving attempt) (hfault : fault = none)
    (hfree : fs.entry (future.candidate attempt) = none)
    (hparent : fs.entry (future.candidate attempt).parent = some .directory) :
    CreateStep fs fault uuid future (.ok (.opened fs.next)) (fs.newFile (future.candidate attempt))
      (.awaits (.creating (future.reservedAt attempt uuid)))
  | taken {attempt} (hphase : future.phase = .reserving attempt)
    (htaken : fault = none → fs.entry (future.candidate attempt) ≠ none)
    (hmore : attempt < maxCollisionAttempts) :
    CreateStep fs fault uuid future (.error .alreadyExists) fs
      (.awaits (.creating { future with phase := .reserving (attempt + 1) }))
  | opened {finalPath tempPath} (hphase : future.phase = .openingTemp finalPath tempPath)
    (hfault : fault = none) (hfree : fs.entry tempPath = none) :
    CreateStep fs fault uuid future (.ok (.opened fs.next)) (fs.newFile tempPath)
      (.created (.ok ⟨some fs.next, tempPath, finalPath, future.directory⟩))
  /-- A call that fails ends the future, unless it tells of a missing component or a taken
      name. -/
  | failed {e reason} (hfails : fault = none → (fs.run future.call).1 = .error e)
    (hmissing : ∀ current rest, future.phase = .inspecting current rest → e ≠ .notFound)
    (htaken : ∀ attempt, future.phase = .reserving attempt → e = .alreadyExists →
      maxCollisionAttempts ≤ attempt) :
    CreateStep fs fault uuid future (.error e) fs (.created (.error (.failed reason)))

/-- An answer is an injected failure, or what the file system says. -/
theorem answer_cases {fs : FileSystem PathBuf} (fault : Option FsError) (c : FsCall PathBuf) :
    (∃ e, fault = some e ∧ fs.answer fault c = (.error e, fs)) ∨
      (fault = none ∧ fs.answer fault c = fs.run c) := by
  cases fault with
  | some e => exact .inl ⟨e, rfl, rfl⟩
  | none => exact .inr ⟨rfl, rfl⟩

section

variable (fs : FileSystem PathBuf) (fault : Option FsError) (uuid : String) (directory : PathBuf)
  (leaf : String)

theorem createStep_inspecting (current : PathBuf) (rest : List String) :
    CreateStep fs fault uuid ⟨directory, leaf, .inspecting current rest⟩
      (fs.answer fault (.symlinkMetadata current)).1 (fs.answer fault (.symlinkMetadata current)).2
      (CreateFuture.resume ⟨directory, leaf, .inspecting current rest⟩
        (fs.answer fault (.symlinkMetadata current)).1 uuid) := by
  rcases answer_cases fault (.symlinkMetadata current) with ⟨e, hfault, hr⟩ | ⟨hfault, hr⟩
  · rw [hr]
    cases e with
    -- a fault that says the component is missing is taken at its word
    | notFound => exact .missing rfl (by simp [hfault])
    | _ => exact .failed (by simp [hfault]) (by simp) (by simp)
  · rw [hr]
    cases hentry : fs.entry current with
    | none =>
      have hrun : fs.run (.symlinkMetadata current) = (.error .notFound, fs) := by
        simp [FileSystem.run, hentry]
      rw [hrun]
      exact .missing rfl fun _ => hentry
    | some e =>
      have hrun : fs.run (.symlinkMetadata current) = (.ok (.metadata e), fs) := by
        simp [FileSystem.run, hentry]
      rw [hrun]
      cases e with
      | directory => exact .entered rfl hfault hentry
      | file i => exact .rejected rfl hfault hentry (by simp)
      | symlink => exact .rejected rfl hfault hentry (by simp)

theorem createStep_makingDirectory (current : PathBuf) (rest : List String) :
    CreateStep fs fault uuid ⟨directory, leaf, .makingDirectory current rest⟩
      (fs.answer fault (.createDir current)).1 (fs.answer fault (.createDir current)).2
      (CreateFuture.resume ⟨directory, leaf, .makingDirectory current rest⟩
        (fs.answer fault (.createDir current)).1 uuid) := by
  rcases answer_cases fault (.createDir current) with ⟨e, hfault, hr⟩ | ⟨hfault, hr⟩
  · rw [hr]
    exact .failed (by simp [hfault]) (by simp) (by simp)
  · rw [hr]
    rcases hrun : fs.run (.createDir current) with ⟨reply, fs'⟩
    cases reply with
    | ok r =>
      obtain ⟨hfree, hparent, rfl, rfl⟩ := FileSystem.run_createDir hrun
      exact .made rfl hfault hfree hparent
    | error e =>
      cases FileSystem.run_of_error hrun
      exact .failed (fun _ => congrArg Prod.fst hrun) (by simp) (by simp)

/-- A name that is taken is not the end, unless it is the last that is tried. -/
theorem createStep_reserving_error {attempt : Nat} {e : FsError}
    (hfails : fault = none →
      fs.run (CreateFuture.call ⟨directory, leaf, .reserving attempt⟩) = (.error e, fs)) :
    CreateStep fs fault uuid ⟨directory, leaf, .reserving attempt⟩ (.error e) fs
      (CreateFuture.resume ⟨directory, leaf, .reserving attempt⟩ (.error e) uuid) := by
  have hfails' := fun hfault => congrArg Prod.fst (hfails hfault)
  by_cases he : e = .alreadyExists
  · subst he
    simp only [CreateFuture.resume]
    split
    · rename_i hmore
      exact .taken rfl (fun hfault => FileSystem.entry_of_openNew_alreadyExists (hfails hfault)) hmore
    · rename_i hlast
      -- the last name was taken
      refine .failed hfails' (by simp) fun a ha _ => ?_
      cases ha
      omega
  · have hresume : CreateFuture.resume ⟨directory, leaf, .reserving attempt⟩ (.error e) uuid =
        .created (.error (.failed e.text)) := by
      cases e <;> simp_all [CreateFuture.resume]
    rw [hresume]
    exact .failed hfails' (by simp) fun _ _ h => absurd h he

theorem createStep_reserving (attempt : Nat) :
    CreateStep fs fault uuid ⟨directory, leaf, .reserving attempt⟩
      (fs.answer fault (CreateFuture.call ⟨directory, leaf, .reserving attempt⟩)).1
      (fs.answer fault (CreateFuture.call ⟨directory, leaf, .reserving attempt⟩)).2
      (CreateFuture.resume ⟨directory, leaf, .reserving attempt⟩
        (fs.answer fault (CreateFuture.call ⟨directory, leaf, .reserving attempt⟩)).1 uuid) := by
  rcases answer_cases fault (CreateFuture.call ⟨directory, leaf, .reserving attempt⟩) with
    ⟨e, hfault, hr⟩ | ⟨hfault, hr⟩
  · rw [hr]
    exact createStep_reserving_error fs fault uuid directory leaf (by simp [hfault])
  · rw [hr]
    rcases hrun : fs.run (CreateFuture.call ⟨directory, leaf, .reserving attempt⟩) with ⟨reply, fs'⟩
    cases reply with
    | ok r =>
      obtain ⟨hfree, hparent, rfl, rfl⟩ := FileSystem.run_openNew hrun
      exact .reserved rfl hfault hfree hparent
    | error e =>
      cases FileSystem.run_of_error hrun
      exact createStep_reserving_error fs fault uuid directory leaf fun _ => hrun

theorem createStep_openingTemp (finalPath tempPath : PathBuf) :
    CreateStep fs fault uuid ⟨directory, leaf, .openingTemp finalPath tempPath⟩
      (fs.answer fault (.openNew tempPath)).1 (fs.answer fault (.openNew tempPath)).2
      (CreateFuture.resume ⟨directory, leaf, .openingTemp finalPath tempPath⟩
        (fs.answer fault (.openNew tempPath)).1 uuid) := by
  rcases answer_cases fault (.openNew tempPath) with ⟨e, hfault, hr⟩ | ⟨hfault, hr⟩
  · rw [hr]
    exact .failed (by simp [hfault]) (by simp) (by simp)
  · rw [hr]
    rcases hrun : fs.run (.openNew tempPath) with ⟨reply, fs'⟩
    cases reply with
    | ok r =>
      obtain ⟨hfree, _, rfl, rfl⟩ := FileSystem.run_openNew hrun
      exact .opened rfl hfault hfree
    | error e =>
      cases FileSystem.run_of_error hrun
      exact .failed (fun _ => congrArg Prod.fst hrun) (by simp) (by simp)

end

/-- Every resumption of a `create` is one of the steps. -/
theorem createStep_of_resume (fs : FileSystem PathBuf) (fault : Option FsError) (uuid : String)
    (future : CreateFuture) :
    CreateStep fs fault uuid future (fs.answer fault future.call).1 (fs.answer fault future.call).2
      (future.resume (fs.answer fault future.call).1 uuid) := by
  obtain ⟨directory, leaf, phase⟩ := future
  cases phase with
  | inspecting current rest => exact createStep_inspecting fs fault uuid directory leaf current rest
  | makingDirectory current rest =>
    exact createStep_makingDirectory fs fault uuid directory leaf current rest
  | reserving attempt => exact createStep_reserving fs fault uuid directory leaf attempt
  | openingTemp finalPath tempPath =>
    exact createStep_openingTemp fs fault uuid directory leaf finalPath tempPath

/-! ## Runs to the end -/

namespace SinkTask

variable {uuid : String} {fault : Nat → Option FsError} {n : Nat} {fs : FileSystem PathBuf}

theorem budget_walk {directory current : PathBuf} {leaf : String} {rest : List String}
    {future : CreateFuture} (h : CreateFuture.walk directory leaf current rest = .ok future) :
    (SinkTask.creating future).budget < 2 * rest.length + maxCollisionAttempts + 3 := by
  cases rest with
  | nil =>
    cases h
    simp only [budget, List.length_nil]
    omega
  | cons name rest =>
    simp only [CreateFuture.walk] at h
    split at h
    · simp at h
    · cases h
      simp only [budget, List.length_cons]
      omega

/-- A future that suspends again waits for a call, and for fewer than before. -/
theorem budget_lt {s s' : SinkTask} {reply : Except FsError FsReply}
    (h : s.resume reply uuid = some (.awaits s')) : s'.budget < s.budget ∧ s'.call.isSome := by
  cases s with
  | pending file => cases h
  | creating future =>
    obtain ⟨directory, leaf, phase⟩ := future
    have h : CreateFuture.resume ⟨directory, leaf, phase⟩ reply uuid = .awaits s' :=
      Option.some.inj h
    simp only [CreateFuture.resume] at h
    cases phase with
    | inspecting current rest =>
      simp only at h
      split at h
      · split at h
        · simp at h
        · cases h
          -- the walk goes on below the component
          exact ⟨Nat.lt_succ_of_lt (budget_walk (by assumption)), rfl⟩
      · simp at h
      · cases h
        exact ⟨Nat.lt_succ_self _, rfl⟩
      · simp at h
    | makingDirectory current rest =>
      simp only at h
      split at h
      · split at h
        · simp at h
        · cases h
          exact ⟨budget_walk (by assumption), rfl⟩
      · simp at h
    | reserving attempt =>
      simp only at h
      split at h
      · cases h
        simp only [budget]
        -- one name less to try, or only the temporary left
        exact ⟨by omega, rfl⟩
      · split at h
        · cases h
          simp only [budget]
          exact ⟨by omega, rfl⟩
        · simp at h
      · simp at h
    | openingTemp finalPath tempPath =>
      simp only at h
      split at h <;> simp at h
  | committing file phase =>
    have h : CommitPhase.resume file phase reply = .awaits s' := Option.some.inj h
    unfold CommitPhase.resume at h
    split at h <;> cases h
    all_goals
      simp only [budget]
      exact ⟨by omega, rfl⟩
  | aborting file phase =>
    have h : AbortPhase.resume file phase reply = .awaits s' := Option.some.inj h
    cases phase with
    | removingTemp =>
      cases h
      simp only [budget]
      exact ⟨by omega, rfl⟩
    | removingReservation temp =>
      simp only [AbortPhase.resume] at h
      split at h <;> simp at h

/-- A future that waits for a call can be resumed, and has not used up its budget. -/
theorem resume_of_call (uuid : String) {s : SinkTask} {c : FsCall PathBuf} (hc : s.call = some c)
    (reply : Except FsError FsReply) : 0 < s.budget ∧ ∃ next, s.resume reply uuid = some next := by
  cases s with
  | pending file => cases hc
  | creating future =>
    refine ⟨?_, _, rfl⟩
    obtain ⟨directory, leaf, phase⟩ := future
    cases phase <;> simp only [budget] <;> omega
  | committing file phase =>
    refine ⟨?_, _, rfl⟩
    cases phase <;> simp [budget]
  | aborting file phase =>
    refine ⟨?_, _, rfl⟩
    cases phase <;> simp [budget]

/-- More fuel than the budget makes no difference. -/
theorem drive_congr {s : SinkTask} {fuel fuel' : Nat} (h : s.budget ≤ fuel)
    (h' : s.budget ≤ fuel') :
    s.drive uuid fault fuel n fs = s.drive uuid fault fuel' n fs := by
  induction fuel generalizing s n fs fuel' with
  | zero =>
    cases hc : s.call with
    | none => cases fuel' <;> simp [drive, hc]
    | some c =>
      -- a future that waits for a call has a budget, and there is no fuel
      have := (resume_of_call uuid hc (.ok .done)).1
      omega
  | succ fuel ih =>
    cases hc : s.call with
    | none => cases fuel' <;> simp [drive, hc]
    | some c =>
      obtain ⟨hpos, next, hnext⟩ := resume_of_call uuid hc (fs.answer (fault n) c).1
      cases fuel' with
      | zero => omega
      | succ fuel' =>
        simp only [drive, hc, hnext]
        cases next with
        | awaits s' =>
          have hlt := (budget_lt hnext).1
          simp only
          rw [@ih (n + 1) _ s' fuel' (by omega) (by omega)]
        | created | committed | aborted => rfl

/-- The rest of a run, once a future has been resumed with an answer to its `n`-th call. -/
def goOn (uuid : String) (fault : Nat → Option FsError) (n : Nat) (fs : FileSystem PathBuf)
    (s : SinkTask) (reply : Except FsError FsReply) : SinkStep → SinkRun
  | .awaits s' =>
    let rest := s'.runFrom uuid fault (n + 1) fs
    { rest with calls := (s, reply) :: rest.calls }
  | returned => ⟨[(s, reply)], returned, fs⟩

/-- A future alone makes its call, and goes on with the answer. -/
theorem runFrom_eq {s : SinkTask} {c : FsCall PathBuf} (hc : s.call = some c) {next : SinkStep}
    (hnext : s.resume (fs.answer (fault n) c).1 uuid = some next) :
    s.runFrom uuid fault n fs =
      goOn uuid fault n (fs.answer (fault n) c).2 s (fs.answer (fault n) c).1 next := by
  obtain ⟨k, hk⟩ : ∃ k, s.budget = k + 1 := by
    have := (resume_of_call uuid hc (.ok .done)).1
    exact ⟨s.budget - 1, by omega⟩
  unfold runFrom
  rw [hk]
  simp only [drive, hc, hnext]
  cases next with
  | awaits s' =>
    have hlt := (budget_lt hnext).1
    have hcongr := @drive_congr uuid fault (n + 1) (fs.answer (fault n) c).2 s' k s'.budget
      (by omega) (Nat.le_refl _)
    simp only [hcongr, goOn, runFrom]
  | created | committed | aborted => rfl

end SinkTask

end LocalSend
