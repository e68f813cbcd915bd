import LocalSend.Spec.SinkSafety
import LocalSend.Spec.TreeView

/-!
# Receives stay below the save directory

`create` walks down from the save directory and enters nothing but real directories, so every
path a receive uses is a plain name in a real directory below it. Directories are never taken
away, so the paths stay what they were found to be, and the receives over a tree with symlinks
are receives over the file system their save directory shows.

## Key results

- `InPlace.step`: the paths of every receive are in place, at every await
- `Held.step`: a step over a tree is a step below the save directory, and changes nothing else
- `contained_iff`: nothing outside the save directory is touched, and an obstacle on the way is
  refused unless it came between the inspection of its path and the making of a directory there
-/

namespace LocalSend

/-! ## Paths in place -/

/-- No directory of `fs` is gone in `fs'`. -/
def KeepsDirectories (fs fs' : FileSystem PathBuf) : Prop :=
  ∀ p, fs.entry p = some .directory → fs'.entry p = some .directory

/-- A directory below the save directory stays one. -/
theorem RealDirectory.kept {fs fs' : FileSystem PathBuf} {saveDir p : PathBuf}
    (h : RealDirectory fs saveDir p) (hkept : KeepsDirectories fs fs') :
    RealDirectory fs' saveDir p := by
  obtain ⟨relative, hplain, hp, hdir⟩ := h
  exact ⟨relative, hplain, hp, hkept p hdir⟩

/-- A path in its place stays there. -/
theorem InPlace.kept {fs fs' : FileSystem PathBuf} {saveDir p : PathBuf}
    (h : InPlace fs saveDir p) (hkept : KeepsDirectories fs fs') : InPlace fs' saveDir p := by
  obtain ⟨directory, name, hdir, hname, hp⟩ := h
  exact ⟨directory, name, hdir.kept hkept, hname, hp⟩

/-- A path in place that is a directory is a directory to go on from. -/
theorem InPlace.realDirectory {fs : FileSystem PathBuf} {saveDir p : PathBuf}
    (h : InPlace fs saveDir p) (hdir : fs.entry p = some .directory) :
    RealDirectory fs saveDir p := by
  obtain ⟨_, name, ⟨relative, hplain, rfl, _⟩, hname, rfl⟩ := h
  refine ⟨relative ++ [name], ?_, by simp [PathBuf.join], hdir⟩
  simp [hplain, Ne.symm hname]

/-- What a future of the sink, or a pending receive, uses is in place. -/
def SinkTask.InPlace (fs : FileSystem PathBuf) (saveDir : PathBuf) : SinkTask → Prop
  | .creating future =>
    future.leaf ≠ ".." ∧
      match future.phase with
      | .inspecting current rest | .makingDirectory current rest =>
        LocalSend.InPlace fs saveDir current ∧ future.directory = current.join rest
      | .reserving _ => RealDirectory fs saveDir future.directory
      | .openingTemp finalPath tempPath =>
        RealDirectory fs saveDir future.directory ∧ LocalSend.InPlace fs saveDir finalPath ∧
          LocalSend.InPlace fs saveDir tempPath
  | .pending file | .committing file _ | .aborting file _ =>
    RealDirectory fs saveDir file.directory ∧ LocalSend.InPlace fs saveDir file.finalPath ∧
      LocalSend.InPlace fs saveDir file.tempPath

/-- What a receive uses is in place. -/
def Receive.InPlace (fs : FileSystem PathBuf) (saveDir : PathBuf) : Receive → Prop
  | .task s | .detached s => s.InPlace fs saveDir
  | .droppingTemp tempPath finalPath =>
    LocalSend.InPlace fs saveDir tempPath ∧ LocalSend.InPlace fs saveDir finalPath
  | .droppingReservation finalPath => LocalSend.InPlace fs saveDir finalPath
  | .ended .. => True

section

variable {fs fs' : FileSystem PathBuf} {saveDir : PathBuf}

/-- So do the paths of a future. -/
theorem SinkTask.InPlace.kept {s : SinkTask} (h : s.InPlace fs saveDir)
    (hkept : KeepsDirectories fs fs') : s.InPlace fs' saveDir := by
  cases s with
  | creating future =>
    refine ⟨h.1, ?_⟩
    have hphase := h.2
    split at hphase
    · exact ⟨hphase.1.kept hkept, hphase.2⟩
    · exact ⟨hphase.1.kept hkept, hphase.2⟩
    · exact hphase.kept hkept
    · exact ⟨hphase.1.kept hkept, hphase.2.1.kept hkept, hphase.2.2.kept hkept⟩
  | pending | committing | aborting =>
    exact ⟨h.1.kept hkept, h.2.1.kept hkept, h.2.2.kept hkept⟩

/-- So do the paths of a receive. -/
theorem Receive.InPlace.kept {r : Receive} (h : r.InPlace fs saveDir)
    (hkept : KeepsDirectories fs fs') : r.InPlace fs' saveDir := by
  cases r with
  | task s | detached s => exact SinkTask.InPlace.kept h hkept
  | droppingTemp => exact ⟨h.1.kept hkept, h.2.kept hkept⟩
  | droppingReservation => exact LocalSend.InPlace.kept h hkept
  | ended => trivial

/-- A name with another character is not that of the parent. -/
theorem ne_dots_of_mem {s : String} {c : Char} (hmem : c ∈ s.toList) (hc : c ≠ '.') : s ≠ ".." := by
  rintro rfl
  simp at hmem
  exact hc hmem

/-- A collision name is a plain name. -/
theorem collisionLeaf_ne_dots (leaf : String) (attempt : Nat) :
    collisionLeaf leaf attempt ≠ ".." := by
  refine @ne_dots_of_mem _ '(' ?_ (by decide)
  simp [collisionLeaf]

/-- The name of a temporary is a plain name. -/
theorem temporary_ne_dots (uuid : String) : ".localsend-" ++ uuid ++ ".part" ≠ ".." := by
  refine @ne_dots_of_mem _ 'l' ?_ (by decide)
  simp

/-- A name in a directory below the save directory is in its place. -/
theorem InPlace.of_directory {directory : PathBuf} {name : String}
    (hdir : RealDirectory fs saveDir directory) (hname : name ≠ "..") :
    InPlace fs saveDir (directory.join [name]) := ⟨directory, name, hdir, hname, rfl⟩

/-- Every candidate for a name is in the directory of the receive. -/
theorem candidate_inPlace {future : CreateFuture} (hleaf : future.leaf ≠ "..")
    (hdir : RealDirectory fs saveDir future.directory) (attempt : Nat) :
    InPlace fs saveDir (future.candidate attempt) := by
  apply InPlace.of_directory hdir
  split
  · exact hleaf
  · exact collisionLeaf_ne_dots _ _

/-- What a future waits for is in place. -/
theorem SinkTask.InPlace.call {s : SinkTask} (h : s.InPlace fs saveDir) {c : FsCall PathBuf}
    (hc : s.call = some c) : CallInPlace fs saveDir c := by
  cases s with
  | pending file => cases hc
  | creating future =>
    obtain ⟨directory, leaf, phase⟩ := future
    cases hc
    cases phase with
    | inspecting | makingDirectory => exact h.2.1
    | reserving attempt => exact candidate_inPlace h.1 h.2 attempt
    | openingTemp => exact h.2.2.2
  | committing file phase =>
    cases hc
    cases phase with
    | flushing | syncing | syncingDirectory => trivial
    | renamingTemp => exact ⟨h.2.2, h.2.1⟩
    | openingDirectory => exact h.1
  | aborting file phase =>
    cases hc
    cases phase with
    | removingTemp => exact h.2.2
    | removingReservation => exact h.2.1

/-- Every call of a receive is in its place. -/
theorem Receive.InPlace.call {r : Receive} (h : r.InPlace fs saveDir) {c : FsCall PathBuf}
    (hc : r.call = some c) : CallInPlace fs saveDir c := by
  cases r with
  | task s | detached s => exact SinkTask.InPlace.call h hc
  | droppingTemp tempPath finalPath =>
    cases hc
    exact h.1
  | droppingReservation finalPath =>
    cases hc
    exact h
  | ended => cases hc

/-- The walk goes on to a name in the directory it has entered. -/
theorem walkOn_inPlace {future : CreateFuture} (hleaf : future.leaf ≠ "..") {current : PathBuf}
    {rest : List String} (hdir : RealDirectory fs saveDir current)
    (hdirectory : future.directory = current.join rest) :
    (future.walkOn current rest).receive.InPlace fs saveDir := by
  cases rest with
  | nil =>
    rw [PathBuf.join_nil] at hdirectory
    exact ⟨hleaf, show RealDirectory fs saveDir future.directory from hdirectory ▸ hdir⟩
  | cons name rest =>
    by_cases hdots : name = ".."
    · simp only [CreateFuture.walkOn, CreateFuture.walk, hdots, if_true]
      trivial
    · simp only [CreateFuture.walkOn, CreateFuture.walk, hdots, if_false]
      refine ⟨hleaf, InPlace.of_directory hdir hdots, ?_⟩
      simp [hdirectory, PathBuf.join]

/-- A resumed `create` uses nothing but what is in place. -/
theorem createStep_inPlace {fault : Option FsError} {uuid : String} {future : CreateFuture}
    {reply : Except FsError FsReply} {next : SinkStep}
    (hstep : CreateStep fs fault uuid future reply fs' next)
    (h : (SinkTask.creating future).InPlace fs saveDir) (hkept : KeepsDirectories fs fs') :
    next.receive.InPlace fs' saveDir := by
  obtain ⟨hleaf, hphase'⟩ := h
  cases hstep with
  | entered hphase _ hdir =>
    rw [hphase] at hphase'
    -- what was found, or has just been made, is a real directory
    exact walkOn_inPlace hleaf (hphase'.1.realDirectory hdir) hphase'.2
  | rejected | failed => trivial
  | missing hphase =>
    rw [hphase] at hphase'
    exact ⟨hleaf, hphase'⟩
  | made hphase =>
    rw [hphase] at hphase'
    exact walkOn_inPlace hleaf ((hphase'.1.kept hkept).realDirectory (by simp)) hphase'.2
  | reserved hphase =>
    rw [hphase] at hphase'
    -- the candidate and the temporary come directly into the last directory
    have hdir := RealDirectory.kept hphase' hkept
    exact ⟨hleaf, hdir, candidate_inPlace hleaf hdir _,
      InPlace.of_directory hdir (temporary_ne_dots uuid)⟩
  | taken hphase =>
    rw [hphase] at hphase'
    exact ⟨hleaf, hphase'⟩
  | opened hphase =>
    rw [hphase] at hphase'
    exact ⟨hphase'.1.kept hkept, hphase'.2.1.kept hkept, hphase'.2.2.kept hkept⟩

/-- A resumed future uses nothing but what is in place. -/
theorem resume_inPlace (fault : Option FsError) {uuid : String} {s : SinkTask} {c : FsCall PathBuf}
    (hc : s.call = some c) {reply : Except FsError FsReply} {next : SinkStep}
    (hreply : ∀ future, s = .creating future → reply = (fs.answer fault c).1 ∧
      fs' = (fs.answer fault c).2)
    (hnext : s.resume reply uuid = some next) (h : s.InPlace fs saveDir)
    (hkept : KeepsDirectories fs fs') : next.receive.InPlace fs' saveDir := by
  cases s with
  | pending file => cases hc
  | creating future =>
    obtain ⟨rfl, rfl⟩ := hreply future rfl
    cases hc
    cases hnext
    exact createStep_inPlace (createStep_of_resume fs fault uuid future) h hkept
  | committing file phase =>
    have hfile := SinkTask.InPlace.kept h hkept
    -- the file of a `commit` or an `abort` is where it was
    cases hnext
    cases phase <;> cases reply <;> first | exact hfile | trivial
  | aborting file phase =>
    have hfile := SinkTask.InPlace.kept h hkept
    cases hnext
    cases phase with
    | removingTemp => exact hfile
    | removingReservation temp => cases temp <;> cases reply <;> trivial

end

namespace SinkWorld

section

variable {w w' : FileWorld} {u : ReceiveId}

/-- What others do keeps the directories. -/
theorem Others.keepsDirectories (h : w.Others u w') : KeepsDirectories w.fs w'.fs := by
  intro p hp
  refine h.entry p _ hp fun i hfile => ?_
  cases hp.symm.trans hfile.1

/-- The save directory is there, and everything the receives use is in place below it. -/
structure InPlace (w : FileWorld) : Prop where
  saveDir : w.fs.entry w.saveDir = some .directory
  receives : ∀ u r, w.receives u = some r → r.InPlace w.fs w.saveDir

/-- `create` begins in the save directory, unless it is refused. -/
theorem InPlace.create (h : w.InPlace) {fileName : String} {future : CreateFuture}
    (hcreate : AtomicFileSink.create w.saveDir fileName = .ok future) :
    (SinkTask.creating future).InPlace w.fs w.saveDir := by
  obtain ⟨chain, _, hdirectory, hleaf, hwalk⟩ := AtomicFileSink.create_eq_ok hcreate
  have hroot : RealDirectory w.fs w.saveDir w.saveDir :=
    ⟨[], List.not_mem_nil, (PathBuf.join_nil _).symm, h.saveDir⟩
  have hwalked := walkOn_inPlace hleaf hroot hdirectory
  rwa [← hwalk] at hwalked

/-- The paths of every receive are in place, at every await. -/
theorem InPlace.step (h : w.InPlace) (hinv : w.Inv) {a : SinkAction} (hstep : w.step a = some w') :
    w'.InPlace := by
  have hothers := (hinv.ownStep hstep).others
  have hkept := hothers.keepsDirectories
  have hdir := (fs_step hstep).1
  refine ⟨?_, fun v r hr => ?_⟩
  · rw [hdir]
    exact hkept _ h.saveDir
  rw [hdir]
  -- only the receive of the step has moved
  by_cases hv : v ≠ a.receive
  · rw [hothers.receives v hv] at hr
    exact (h.receives v r hr).kept hkept
  rw [not_not.mp hv] at hr
  have hset : ∀ {x : FileWorld} {r' : Receive},
      (x.setReceive a.receive r').receives a.receive = some r → r' = r := by
    intro x r' hx
    simpa [SinkWorld.setReceive] using hx
  cases step_receive hstep with
  | refused | removedReservation =>
    cases hset hr
    trivial
  | began _ hcreate =>
    cases hset hr
    exact h.create hcreate
  | @called u fault uuid s c x next hreceive hc hanswer hnext =>
    cases hset hr
    refine resume_inPlace fault hc (fun future hs => ?_) hnext (h.receives u _ hreceive) hkept
    subst hs
    cases hanswer
    exact ⟨rfl, rfl⟩
  | wrote => exact h.receives _ r hr
  | ranWrite => exact (h.receives _ r hr).kept hkept
  | commits hreceive | aborts hreceive =>
    cases hset hr
    have hfile := h.receives _ _ hreceive
    exact hfile
  -- a drop takes the two paths of the file, which were in place
  | @drops u s paths hreceive hdrop =>
    have hs := h.receives u _ hreceive
    cases hset hr
    have hfile : ∀ file : AtomicPendingFile, file.drop = some paths →
        paths = (file.tempPath, file.finalPath) := by
      intro file hfile
      unfold AtomicPendingFile.drop at hfile
      split at hfile
      · exact (Option.some.inj hfile).symm
      · simp at hfile
    cases s with
    | creating => cases hdrop
    | pending file | committing file _ | aborting file _ =>
      cases hfile file hdrop
      exact ⟨hs.2.2, hs.2.1⟩
  | detaches hreceive =>
    have hs := h.receives _ _ hreceive
    cases hset hr
    exact hs
  | removedTemp hreceive =>
    cases hset hr
    exact (h.receives _ _ hreceive).2.kept hkept
  | ranDetached =>
    cases hset hr
    unfold SinkTask.afterDetached
    split <;> trivial

/-- No inode is given back. -/
theorem next_le_step {a : SinkAction} (hstep : w.step a = some w') : w.fs.next ≤ w'.fs.next := by
  rcases (fs_step hstep).2 with hsame | ⟨_, c, fault, _, _, hanswer⟩ | ⟨_, _, _, happend⟩
  · exact Nat.le_of_eq (congrArg FileSystem.next hsame.symm)
  · rw [hanswer]
    exact (w.fs.effect_answer fault c).next_le
  · rw [happend]
    exact Nat.le_refl _

/-- What a receive is about to take away or replace is a file of its own. -/
theorem Inv.replaces_owned (h : w.Inv) {r : Receive} (hr : w.receives u = some r)
    {c : FsCall PathBuf} (hc : r.call = some c) : ∀ p ∈ c.replaces, ∃ i, w.File u p i := by
  have hfits := h.fits u
  rw [hr] at hfits
  have hblank : ∀ {q}, w.Blank u q → ∃ i, w.File u q i := fun ⟨i, hfile, _⟩ => ⟨i, hfile⟩
  -- the calls of a future; those of a dropped one are below
  have htask : ∀ s : SinkTask, s.call = some c → w.FitsTask u s → ∀ p ∈ c.replaces, ∃ i,
      w.File u p i := by
    intro s hs hfits p hp
    cases s with
    | pending file => cases hs
    | creating future =>
      obtain ⟨directory, leaf, phase⟩ := future
      cases hs
      cases phase <;> exact nomatch hp
    | committing file phase =>
      cases hs
      cases phase with
      | flushing | syncing | openingDirectory | syncingDirectory => exact nomatch hp
      | renamingTemp =>
        obtain ⟨_, hfinal, _, i, htemp, _⟩ := hfits
        -- the rename takes the temporary away and replaces the reserved file
        rcases List.mem_cons.mp hp with rfl | hp
        · exact ⟨i, htemp⟩
        · rw [List.mem_singleton.mp hp]
          exact hblank hfinal
    | aborting file phase =>
      cases hs
      cases phase with
      | removingTemp =>
        obtain ⟨_, _, _, htemp⟩ := hfits
        rw [List.mem_singleton.mp hp]
        exact htemp
      | removingReservation =>
        rw [List.mem_singleton.mp hp]
        exact hblank hfits.2.1
  cases r with
  | task s | detached s => exact htask s hc hfits
  | droppingTemp tempPath finalPath =>
    intro p hp
    cases hc
    rw [List.mem_singleton.mp hp]
    exact hfits.2.2
  | droppingReservation finalPath =>
    intro p hp
    cases hc
    rw [List.mem_singleton.mp hp]
    exact hblank hfits
  | ended => cases hc

/-- The way of a name leads through directories to something that is none, and stays there. -/
def Blocks (w : FileWorld) (above : List String) (name : String) : Prop :=
  (∀ pre, pre <+: above → w.fs.entry (w.saveDir.join pre) = some .directory) ∧
    ∃ e, e ≠ .directory ∧ w.Settled (w.saveDir.join (above ++ [name])) e

/-- An obstacle stays one in every step. -/
theorem Inv.blocks_step (h : w.Inv) {a : SinkAction} (hstep : w.step a = some w')
    {above : List String} {name : String} (hblocks : w.Blocks above name) :
    w'.Blocks above name := by
  have hkept := (h.ownStep hstep).others.keepsDirectories
  obtain ⟨habove, e, hdir, hsettled⟩ := hblocks
  unfold Blocks
  rw [(fs_step hstep).1]
  exact ⟨fun pre hpre => hkept _ (habove pre hpre), e, hdir, (h.keeps_step hstep _ e hsettled).1⟩

/-- A `create` that has not got past the components `above` and the one after them. -/
def StoppedBefore (w : FileWorld) (above chain : List String) : Option Receive → Prop
  | none | some (.ended none none) | some (.ended none (some (.rejected _))) => True
  | some (.task (.creating future)) | some (.detached (.creating future)) =>
    ∃ done name rest, future.phase = .inspecting (w.saveDir.join (done ++ [name])) rest ∧
      done ++ name :: rest = chain ∧ done.length ≤ above.length
  | _ => False

/-- A walk that is refused, or goes on to the next component, has got no further than that. -/
theorem stoppedBefore_walkOn {above chain done rest : List String} {name : String}
    (future : CreateFuture) (hchain : done ++ name :: rest = chain)
    (hdone : done.length ≤ above.length) :
    w.StoppedBefore above chain
      (some (future.walkOn (w.saveDir.join done) (name :: rest)).receive) := by
  by_cases hdots : name = ".."
  · simp only [CreateFuture.walkOn, CreateFuture.walk, hdots, if_true]
    trivial
  · simp only [CreateFuture.walkOn, CreateFuture.walk, hdots, if_false]
    exact ⟨done, name, rest, by simp [PathBuf.join], hchain, hdone⟩

/-- An inspection on a blocked way goes on or rejects the name. -/
theorem Blocks.stoppedBefore_call {above rest : List String} {name : String}
    (hblocks : w.Blocks above name) {future : CreateFuture} {uuid : String}
    (hstopped : w.StoppedBefore above (above ++ name :: rest) (some (.task (.creating future)))) :
    w.StoppedBefore above (above ++ name :: rest)
      (some (future.resume (w.fs.answer none future.call).1 uuid).receive) := by
  obtain ⟨done, next, rest', hphase, hchain, hdone⟩ := hstopped
  obtain ⟨habove, e, hdir, hobstacle, _⟩ := hblocks
  have hstep := createStep_of_resume w.fs none uuid future
  have hrun : ∀ p, w.fs.entry p ≠ none → ∀ e', (w.fs.run (.symlinkMetadata p)).1 ≠ .error e' := by
    intro p hp e'
    simp only [FileSystem.run]
    split
    · exact fun _ => hp (by assumption)
    · simp
  -- either the next component is still above the obstacle, or it is the obstacle
  have hcases : (done ++ [next] <+: above ∧ ∃ name' rest'', rest' = name' :: rest'') ∨
      (done = above ∧ next = name) := by
    rcases Nat.lt_or_eq_of_le hdone with hlt | heq
    · have hunder : done ++ [next] <+: above := by
        refine @List.prefix_of_prefix_length_le _ _ _ (above ++ name :: rest) ?_
          (List.prefix_append ..) (by simp only [List.length_append, List.length_singleton]; omega)
        exact ⟨rest', by rw [← hchain]; simp⟩
      refine .inl ⟨hunder, ?_⟩
      cases rest' with
      | nil =>
        have := congrArg List.length hchain
        simp only [List.length_append, List.length_cons, List.length_nil] at this
        omega
      | cons name' rest'' => exact ⟨name', rest'', rfl⟩
    · obtain ⟨rfl, hnext⟩ := List.append_inj hchain heq
      exact .inr ⟨rfl, (List.cons.inj hnext).1⟩
  have hentry : w.fs.entry (w.saveDir.join (done ++ [next])) ≠ none := by
    rcases hcases with ⟨hunder, _⟩ | ⟨rfl, rfl⟩
    · simp [habove _ hunder]
    · simp [hobstacle]
  generalize hnext : future.resume _ uuid = next' at hstep ⊢
  generalize (w.fs.answer none future.call).1 = reply at hstep
  generalize (w.fs.answer none future.call).2 = fs' at hstep
  cases hstep with
  | rejected => trivial
  | entered hphase' _ hentered =>
    cases hphase.symm.trans hphase'
    rcases hcases with ⟨hunder, name', rest'', rfl⟩ | ⟨rfl, rfl⟩
    · refine stoppedBefore_walkOn future (by rw [← hchain]; simp) ?_
      exact hunder.length_le
    · exact absurd (Option.some.inj (hobstacle.symm.trans hentered)) hdir
  | missing hphase' hnone =>
    cases hphase.symm.trans hphase'
    exact absurd (hnone rfl) hentry
  | failed hfails =>
    have hfails := hfails rfl
    simp only [CreateFuture.call, hphase] at hfails
    exact absurd hfails (hrun _ hentry _)
  | made hphase' | reserved hphase' | taken hphase' | opened hphase' =>
    cases hphase.symm.trans hphase'

/-- A `create` is refused at once for its name alone. -/
theorem rejected_of_create {saveDir : PathBuf} {fileName : String} {e : SinkError}
    (h : AtomicFileSink.create saveDir fileName = .error e) : ∃ reason, e = .rejected reason := by
  have hwalk : ∀ directory leaf current rest,
      CreateFuture.walk directory leaf current rest = .error e →
        ∃ reason, e = .rejected reason := by
    intro directory leaf current rest h
    unfold CreateFuture.walk at h
    split at h
    · simp at h
    · split at h
      · cases h
        exact ⟨_, rfl⟩
      · simp at h
  unfold AtomicFileSink.create at h
  split at h
  · cases h
    exact ⟨_, rfl⟩
  split at h
  · cases h
    exact ⟨_, rfl⟩
  split at h
  · cases h
    exact ⟨_, rfl⟩
  · exact hwalk _ _ _ _ h

/-- An action that is not a failing call of `u`, nor the `create` of another name. -/
def Undisturbed (u : ReceiveId) (fileName : String) (a : SinkAction) : Prop :=
  (∀ e uuid, a ≠ .call u (some e) uuid) ∧ ∀ other, a = .create u other → other = fileName

/-- A `create` begins before the obstacle. -/
theorem stoppedBefore_began {above rest : List String} {name fileName : String}
    (hchain : parentChain fileName = some (above ++ name :: rest)) {future : CreateFuture}
    (hcreate : AtomicFileSink.create w.saveDir fileName = .ok future) :
    w.StoppedBefore above (above ++ name :: rest) (some (.task (.creating future))) := by
  obtain ⟨chain, hchain', _, _, hwalk⟩ := AtomicFileSink.create_eq_ok hcreate
  cases hchain'.symm.trans hchain
  rw [show Receive.task (.creating future) = (SinkStep.awaits (.creating future)).receive from rfl,
    hwalk]
  cases above with
  | nil =>
    have hwalked := @stoppedBefore_walkOn w [] (name :: rest) [] rest name future rfl
        (Nat.le_refl _)
    rwa [PathBuf.join_nil] at hwalked
  | cons first above =>
    have hwalked := @stoppedBefore_walkOn w (first :: above) _ [] (above ++ name :: rest) first
      future rfl (Nat.zero_le _)
    rwa [PathBuf.join_nil] at hwalked

/-- A blocked name gets no further, whatever the receives do. -/
theorem Blocks.stoppedBefore_step (hinv : w.Inv) {above rest : List String} {name : String}
    (hblocks : w.Blocks above name) {fileName : String}
    (hchain : parentChain fileName = some (above ++ name :: rest)) {a : SinkAction}
    (hundisturbed : Undisturbed u fileName a) (hstep : w.step a = some w')
    (hstopped : w.StoppedBefore above (above ++ name :: rest) (w.receives u)) :
    w'.StoppedBefore above (above ++ name :: rest) (w'.receives u) := by
  have hdir := (fs_step hstep).1
  have hmono : ∀ r, w.StoppedBefore above (above ++ name :: rest) r →
      w'.StoppedBefore above (above ++ name :: rest) r := by
    intro r hr
    unfold StoppedBefore at hr ⊢
    rwa [hdir]
  by_cases hu : u ≠ a.receive
  · rw [(hinv.ownStep hstep).others.receives u hu]
    exact hmono _ hstopped
  obtain rfl : u = a.receive := not_not.mp hu
  cases step_receive hstep with
  | refused _ hcreate =>
    -- the receive is created with this name and no other
    cases hundisturbed.2 _ rfl
    obtain ⟨reason, rfl⟩ := rejected_of_create hcreate
    rw [SinkAction.receive, receives_setReceive_self]
    trivial
  | @began _ _ future _ hcreate =>
    cases hundisturbed.2 _ rfl
    rw [SinkAction.receive, receives_setReceive_self]
    exact hmono _ (stoppedBefore_began hchain hcreate)
  | @called v fault uuid s c r next hreceive hc hanswer hnext =>
    cases fault with
    | some e => exact absurd rfl (hundisturbed.1 e uuid)
    | none =>
      rw [SinkAction.receive, hreceive] at hstopped
      rw [SinkAction.receive, receives_setReceive_self]
      -- only a `create` is stopped before the block; it has no file yet
      cases s with
      | creating future =>
        cases hc
        cases hanswer
        cases hnext
        exact hmono _ (hblocks.stoppedBefore_call hstopped)
      | pending | committing | aborting => exact hstopped.elim
  | ranWrite => exact hmono _ hstopped
  | wrote hreceive | commits hreceive | aborts hreceive | removedTemp hreceive
  | removedReservation hreceive =>
    rw [SinkAction.receive, hreceive] at hstopped
    exact hstopped.elim
  | @drops _ s _ hreceive hdrop =>
    rw [SinkAction.receive, hreceive] at hstopped
    cases s with
    | creating future => cases hdrop
    | pending | committing | aborting => exact hstopped.elim
  | @detaches _ s hreceive =>
    rw [SinkAction.receive, hreceive] at hstopped
    rw [SinkAction.receive, receives_setReceive_self]
    cases s with
    | creating future => exact hmono _ hstopped
    | pending | committing | aborting => exact hstopped.elim
  | @ranDetached _ _ s _ hreceive =>
    rw [SinkAction.receive, hreceive] at hstopped
    rw [SinkAction.receive, receives_setReceive_self]
    cases s with
    | creating future => trivial
    | pending | committing | aborting => exact hstopped.elim

end

/-! ## Over a tree -/

/-- Where a save directory that leads to `root` has its contents. -/
def StrictlyInside (root l : Location) : Prop := ∃ relative, relative ≠ [] ∧ l = root ++ relative

/-- Receives over a tree whose save directory leads to `root`: below it they do what they should,
    and use nothing but paths that are in place. -/
structure Held (saveDir : PathBuf) (root : Location) (w : SinkWorld FileTree) : Prop where
  below : w.saveDir = saveDir
  leads : w.fs.resolve saveDir.components = .ok root
  inv : (w.map (seenFrom saveDir root)).Inv
  inPlace : (w.map (seenFrom saveDir root)).InPlace

section

variable {w w' : SinkWorld FileTree} {saveDir : PathBuf} {root : Location} {u : ReceiveId}

/-- Every call is in its place as seen from the save directory. -/
theorem Held.call (h : w.Held saveDir root) {r : Receive} (hr : w.receives u = some r)
    {c : FsCall PathBuf} (hc : r.call = some c) :
    CallInPlace (seenFrom saveDir root w.fs) saveDir c := by
  have hplace := (h.inPlace.receives u r hr).call hc
  rw [show (w.map (seenFrom saveDir root)).saveDir = saveDir from h.below] at hplace
  exact hplace

/-- A step over the tree is a step below the save directory. -/
theorem Held.map_step (h : w.Held saveDir root) {a : SinkAction} (hstep : w.step a = some w') :
    (w.map (seenFrom saveDir root)).step a = some (w'.map (seenFrom saveDir root)) := by
  rw [step_map (fun v r c fault hr hc => answer_seenFrom h.leads fault (h.call hr hc))
    (fun _ _ => rfl), hstep]
  rfl

/-- What a receive is about to make, take away or replace is strictly inside. -/
theorem Held.located (h : w.Held saveDir root) {r : Receive} (hr : w.receives u = some r)
    {c : FsCall PathBuf} (hc : r.call = some c) {p : PathBuf} (hp : p ∈ c.adds ++ c.replaces) :
    ∃ relative, relative ≠ [] ∧ p = saveDir.join relative ∧
      w.fs.locate p.components = .ok (root ++ relative) := by
  have hplace := h.call hr hc
  have hin : LocalSend.InPlace (seenFrom saveDir root w.fs) saveDir p := by
    cases c with
    | symlinkMetadata | sync | openDirectory | syncDirectory => exact nomatch hp
    | createDir q | openNew q | removeFile q =>
      rw [List.mem_singleton.mp hp]
      exact hplace
    | rename q q' =>
      simp only [FsCall.adds, FsCall.replaces, List.nil_append, List.mem_cons, List.not_mem_nil,
        or_false] at hp
      rcases hp with rfl | rfl
      · exact hplace.1
      · exact hplace.2
  obtain ⟨relative, hne, hjoin, hlocate, _⟩ := hin.locate h.leads
  exact ⟨relative, hne, hjoin, hlocate⟩

/-- A step changes nothing outside the save directory, and inside it only what was not there or
    a file. -/
theorem Held.node_step (h : w.Held saveDir root) {a : SinkAction} (hstep : w.step a = some w')
    (l : Location) : w'.fs.node l = w.fs.node l ∨
      (StrictlyInside root l ∧ ∀ n, w.fs.node l = some n → ∃ i, n = .file i) := by
  rcases (fs_step hstep).2 with hsame | ⟨r, c, fault, hr, hc, hanswer⟩ | ⟨x, n, _, happend⟩
  · exact .inl (by rw [hsame])
  · rw [hanswer]
    rcases w.fs.answer_node_cases fault (c.map PathBuf.components) l with
      hsame | ⟨hfree, p, hp, hl⟩ | ⟨p, hp, hl⟩
    · exact .inl hsame
    · have hadds : (c.map PathBuf.components).adds = c.adds.map PathBuf.components := by
        cases c <;> rfl
      rw [hadds] at hp
      obtain ⟨q, hq, rfl⟩ := List.mem_map.mp hp
      obtain ⟨relative, hne, _, hlocate⟩ := h.located hr hc (List.mem_append_left _ hq)
      cases hlocate.symm.trans hl
      exact .inr ⟨⟨relative, hne, rfl⟩, fun n hn => (by cases hfree.symm.trans hn)⟩
    · have hreplaces : (c.map PathBuf.components).replaces = c.replaces.map PathBuf.components := by
        cases c <;> rfl
      rw [hreplaces] at hp
      obtain ⟨q, hq, rfl⟩ := List.mem_map.mp hp
      obtain ⟨relative, hne, hjoin, hlocate⟩ := h.located hr hc (List.mem_append_right _ hq)
      cases hlocate.symm.trans hl
      refine .inr ⟨⟨relative, hne, rfl⟩, fun n hn => ?_⟩
      -- below the save directory it is a file of the receive
      obtain ⟨i, hfile, _⟩ := h.inv.replaces_owned hr hc q hq
      have hentry : (seenFrom saveDir root w.fs).entry q = some (.file i) := hfile
      rw [hjoin, entry_seenFrom, hn] at hentry
      cases n with
      | file j => exact ⟨j, rfl⟩
      | directory | symlink => exact nomatch hentry
  · exact .inl (by rw [happend]; rfl)

/-- Over a tree, too, the receives stay in order. -/
theorem Held.step (h : w.Held saveDir root) {a : SinkAction} (hstep : w.step a = some w') :
    w'.Held saveDir root where
  below := (fs_step hstep).1.trans h.below
  leads := by
    have hkept : w.fs.Kept w'.fs := by
      intro l n hn hfile
      rcases h.node_step hstep l with hsame | ⟨_, hreplaced⟩
      · rw [hsame, hn]
      · obtain ⟨i, hi⟩ := hreplaced n hn
        exact absurd hi (hfile i)
    have hbase : w'.fs.base = w.fs.base := by
      rcases (fs_step hstep).2 with hsame | ⟨r, c, fault, hr, hc, hanswer⟩ | ⟨x, n, _, happend⟩
      · rw [hsame]
      · rw [hanswer]
        exact w.fs.base_answer fault _
      · rw [happend]
        rfl
    have hleads : w.fs.walk FileTree.maxLinks w.fs.base saveDir.components = .ok root := h.leads
    rw [FileTree.resolve, hbase]
    exact FileTree.walk_kept hkept hleads
  inv := h.inv.of_ownStep (h.inv.ownStep (h.map_step hstep))
  inPlace := h.inPlace.step h.inv (h.map_step hstep)

/-- At the start, the save directory is held. -/
theorem held_start {tree : FileTree} (hroot : tree.resolve saveDir.components = .ok root)
    (hdir : tree.node root = some .directory) : (start saveDir tree).Held saveDir root where
  below := rfl
  leads := hroot
  inv := inv_start saveDir (seenFrom saveDir root tree)
  inPlace := by
    refine ⟨?_, (by intro _ _ h; cases h)⟩
    have hentry := @entry_seenFrom tree saveDir root []
    rw [PathBuf.join_nil, List.append_nil, hdir] at hentry
    exact hentry

/-- The files that were there: nobody owns them, and they hold what they held. -/
def KeepsContents (tree : FileTree) (w : SinkWorld FileTree) : Prop :=
  tree.next ≤ w.fs.next ∧
    ∀ i, i < tree.next → w.owner i = none ∧ w.fs.content i = tree.content i

/-- Every step keeps the contents outside the save directory. -/
theorem Held.keepsContents_step {tree : FileTree} (h : w.Held saveDir root) {a : SinkAction}
    (hstep : w.step a = some w') (hkeeps : w.KeepsContents tree) : w'.KeepsContents tree := by
  have hothers := (h.inv.ownStep (h.map_step hstep)).others
  have hnext := next_le_step (h.map_step hstep)
  refine ⟨Nat.le_trans hkeeps.1 hnext, fun i hi => ?_⟩
  obtain ⟨hnone, hcontent⟩ := hkeeps.2 i hi
  have hlt : i < w.fs.next := Nat.lt_of_lt_of_le hi hkeeps.1
  have howner : w.owner i ≠ some a.receive := by simp [hnone]
  exact ⟨(hothers.owner i hlt).trans hnone, (hothers.content i hlt howner).trans hcontent⟩

/-- Nothing outside the save directory is created, replaced or truncated, no file that was there
    is written to, and what a receive is about to make, take away or replace is inside. -/
structure Contained (root : Location) (tree : FileTree) (w : SinkWorld FileTree) : Prop where
  outside : ∀ l, ¬StrictlyInside root l → w.fs.node l = tree.node l
  content : ∀ i, i < tree.next → w.fs.content i = tree.content i
  calls : ∀ u r c p, w.receives u = some r → r.call = some c → p ∈ c.adds ++ c.replaces →
    ∃ l, w.fs.locate p.components = .ok l ∧ StrictlyInside root l

/-- Along every run the receives are held to their save directory. -/
theorem held_run {tree : FileTree} (h : w.Held saveDir root) (hkeeps : w.KeepsContents tree)
    (houtside : ∀ l, ¬StrictlyInside root l → w.fs.node l = tree.node l) {as : List SinkAction}
    (hrun : (sinkSystem FileTree).exec w as = some w') :
    w'.Held saveDir root ∧ Contained root tree w' := by
  induction as generalizing w with
  | nil =>
    cases hrun
    refine ⟨h, houtside, fun i hi => (hkeeps.2 i hi).2, fun u r c p hr hc hp => ?_⟩
    obtain ⟨relative, hne, _, hlocate⟩ := h.located hr hc hp
    exact ⟨_, hlocate, relative, hne, rfl⟩
  | cons a as ih =>
    simp only [TransitionSystem.exec_cons, Option.bind_eq_some_iff] at hrun
    obtain ⟨x, hx, hrun⟩ := hrun
    have hstep : w.step a = some x := hx
    refine ih (h.step hstep) (h.keepsContents_step hstep hkeeps) (fun l hl => ?_) hrun
    rcases h.node_step hstep l with hsame | ⟨hinside, _⟩
    · exact hsame.trans (houtside l hl)
    · exact absurd hinside hl

end

/-! ## Obstacles -/

section

variable {w w' : SinkWorld FileTree} {saveDir : PathBuf} {root : Location} {u : ReceiveId}

/-- At a path there is a symlink or a file. -/
def Obstructs (w : SinkWorld FileTree) (p : PathBuf) : Prop :=
  ∃ l n, w.fs.locate p.components = .ok l ∧ w.fs.node l = some n ∧ n ≠ .directory

/-- The walk of `u` has come to a symlink or a file. -/
def MeetsObstacle (w : SinkWorld FileTree) (u : ReceiveId) : Prop :=
  ∃ future p, w.receives u = some (.task (.creating future)) ∧ future.component = some p ∧
    w.Obstructs p

/-- A `create` that has come to a symlink or a file is `Rejected` at its next call. -/
def RejectsObstacle (w : SinkWorld FileTree) (a : SinkAction) (w' : SinkWorld FileTree) : Prop :=
  ∀ u uuid, a = .call u none uuid → w.MeetsObstacle u →
    ∃ reason, w'.receives u = some (.ended none (some (.rejected reason)))

/-- No `create_dir` is made where a symlink or a file has come since the path was inspected. -/
def NotOvertaken (w : SinkWorld FileTree) (a : SinkAction) (_ : SinkWorld FileTree) : Prop :=
  ∀ u uuid, a = .call u none uuid → ∀ future current rest,
    w.receives u = some (.task (.creating future)) →
    future.phase = .makingDirectory current rest → ¬w.Obstructs current

/-- A `create` goes on with what the tree answers. -/
theorem receives_call {future : CreateFuture} {uuid : String}
    (hr : w.receives u = some (.task (.creating future)))
    (hstep : w.step (.call u none uuid) = some w') : w'.receives u =
      some (future.resume (w.fs.run (future.call.map PathBuf.components)).1 uuid).receive := by
  simp only [step, hr, SinkTask.call, Option.bind_some, answerCall, SinkTask.resume,
    Option.map_some, Option.some.injEq] at hstep
  rw [← hstep]
  exact Function.update_self ..

/-- An inspection that finds a symlink or a file rejects the name. -/
theorem rejected_of_inspecting {future : CreateFuture} {uuid : String} {current : PathBuf}
    {rest : List String} (hr : w.receives u = some (.task (.creating future)))
    (hphase : future.phase = .inspecting current rest) (hobstructs : w.Obstructs current)
    (hstep : w.step (.call u none uuid) = some w') :
    ∃ reason, w'.receives u = some (.ended none (some (.rejected reason))) := by
  obtain ⟨l, n, hlocate, hn, hdir⟩ := hobstructs
  have hreply : (w.fs.run (future.call.map PathBuf.components)).1 = .ok (.metadata n.entry) := by
    simp only [CreateFuture.call, hphase, FsCall.map, FileTree.run, hlocate, FileTree.atPath, hn]
  rw [receives_call hr hstep, hreply]
  simp only [CreateFuture.resume, hphase]
  cases n with
  | directory => exact absurd rfl hdir
  | file | symlink => exact ⟨_, rfl⟩

/-- A `create_dir` that finds a symlink or a file fails, and so does the name. -/
theorem failed_of_makingDirectory {future : CreateFuture} {uuid : String} {current : PathBuf}
    {rest : List String} (hr : w.receives u = some (.task (.creating future)))
    (hphase : future.phase = .makingDirectory current rest) (hobstructs : w.Obstructs current)
    (hstep : w.step (.call u none uuid) = some w') :
    ∃ reason, w'.receives u = some (.ended none (some (.failed reason))) := by
  obtain ⟨l, n, hlocate, hn, hdir⟩ := hobstructs
  have hreply : (w.fs.run (future.call.map PathBuf.components)).1 = .error .alreadyExists := by
    simp [CreateFuture.call, hphase, FsCall.map, FileTree.run, hlocate, FileTree.atPath, hn]
  rw [receives_call hr hstep, hreply]
  simp only [CreateFuture.resume, hphase]
  exact ⟨_, rfl⟩

/-- An obstacle is refused exactly when it was there to be inspected. -/
theorem rejectsObstacle_iff {a : SinkAction} (hstep : w.step a = some w') :
    w.RejectsObstacle a w' ↔ w.NotOvertaken a w' := by
  constructor
  · intro hrejects u uuid ha future current rest hr hphase hobstructs
    subst ha
    obtain ⟨reason, hrejected⟩ := hrejects u uuid rfl
      ⟨future, current, hr, by simp [CreateFuture.component, hphase], hobstructs⟩
    obtain ⟨_, hfailed⟩ := failed_of_makingDirectory hr hphase hobstructs hstep
    cases hrejected.symm.trans hfailed
  · intro hclear u uuid ha hmeets
    subst ha
    obtain ⟨future, p, hr, hp, hobstructs⟩ := hmeets
    simp only [CreateFuture.component] at hp
    split at hp
    · rename_i current rest hphase
      cases hp
      exact rejected_of_inspecting hr hphase hobstructs hstep
    · rename_i current rest hphase
      cases hp
      exact absurd hobstructs (hclear u uuid rfl future _ rest hr hphase)
    · simp at hp
    · simp at hp

/-- In the tree there is a symlink or a file on the way of a name. -/
def BlockedIn (tree : FileTree) (root : Location) (fileName : String) : Prop :=
  ∃ above name rest n, parentChain fileName = some (above ++ name :: rest) ∧
    tree.node (root ++ (above ++ [name])) = some n ∧ n ≠ .directory

/-- Nothing is reserved for `u`, and an error of its `create` is `Rejected`. -/
def Refused (w : SinkWorld FileTree) (u : ReceiveId) : Prop :=
  ∀ r, w.receives u = some r →
    r.finalPath = none ∧ ∀ e, r.error = some e → ∃ reason, e = .rejected reason

/-- A name that is blocked from the start is refused, however the run goes. -/
theorem refused_run {above rest : List String} {name fileName : String}
    (hchain : parentChain fileName = some (above ++ name :: rest)) (h : w.Held saveDir root)
    (hblocks : (w.map (seenFrom saveDir root)).Blocks above name)
    (hstopped : (w.map (seenFrom saveDir root)).StoppedBefore above (above ++ name :: rest)
      (w.receives u))
    {as : List SinkAction} (hundisturbed : ∀ a ∈ as, Undisturbed u fileName a)
    (hrun : (sinkSystem FileTree).exec w as = some w') : w'.Refused u := by
  induction as generalizing w with
  | nil =>
    cases hrun
    intro r hr
    rw [hr] at hstopped
    -- at the end: not begun, refused, or still on its way to the block
    unfold StoppedBefore at hstopped
    split at hstopped
    · cases ‹some r = none›
    · cases ‹some r = _›
      exact ⟨rfl, (by intro _ h; cases h)⟩
    · cases ‹some r = _›
      exact ⟨rfl, fun e he => ⟨_, (Option.some.inj he).symm⟩⟩
    · cases ‹some r = _›
      obtain ⟨_, _, _, hphase, _⟩ := hstopped
      exact ⟨by simp [Receive.finalPath, SinkTask.finalPath, hphase], (by intro _ h; cases h)⟩
    · cases ‹some r = _›
      obtain ⟨_, _, _, hphase, _⟩ := hstopped
      exact ⟨by simp [Receive.finalPath, SinkTask.finalPath, hphase], (by intro _ h; cases h)⟩
    · exact hstopped.elim
  | cons a as ih =>
    simp only [TransitionSystem.exec_cons, Option.bind_eq_some_iff] at hrun
    obtain ⟨x, hx, hrun⟩ := hrun
    have hstep : w.step a = some x := hx
    have hseen := h.map_step hstep
    refine ih (h.step hstep) (h.inv.blocks_step hseen hblocks) ?_
      (fun b hb => hundisturbed b (List.mem_cons_of_mem _ hb)) hrun
    exact hblocks.stoppedBefore_step h.inv hchain (hundisturbed a List.mem_cons_self) hseen hstopped

/-- What is no directory is an obstacle from the start on. -/
theorem blocks_start {tree : FileTree} {above : List String} {name : String} {n : TreeNode}
    (hn : tree.node (root ++ (above ++ [name])) = some n) (hne : n ≠ .directory) :
    (start saveDir (seenFrom saveDir root tree)).Blocks above name := by
  refine ⟨fun pre hpre => ?_, n.entry, by simpa using hne, ?_, .inl fun _ _ => rfl⟩
  · obtain ⟨rest, hrest⟩ := hpre
    show (seenFrom saveDir root tree).entry (saveDir.join pre) = _
    rw [entry_seenFrom]
    have habove : tree.node (root ++ pre) = some .directory := by
      refine FileTree.directory_of_append (rest ++ [name]) (by simp) ?_
      have happend : root ++ pre ++ (rest ++ [name]) = root ++ (above ++ [name]) := by
        rw [← hrest]
        simp
      rw [happend, hn]
      nofun
    rw [habove]
    rfl
  · show (seenFrom saveDir root tree).entry (saveDir.join (above ++ [name])) = _
    rw [entry_seenFrom, hn]
    rfl

/-- Over any tree in which the save directory leads to a directory, the receives of any run touch
    nothing outside it, and a name that is blocked from the start is refused. A `create` that
    meets a symlink or a file is always `Rejected` exactly when, in the run, none has come where
    a `create_dir` is made since the path was inspected. -/
theorem contained_iff {tree : FileTree} (hroot : tree.resolve saveDir.components = .ok root)
    (hdir : tree.node root = some .directory) (as : List SinkAction) :
    (∀ w, (sinkSystem FileTree).exec (start saveDir tree) as = some w →
      Contained root tree w ∧
      ∀ u fileName, BlockedIn tree root fileName → (∀ a ∈ as, Undisturbed u fileName a) →
        w.Refused u) ∧
    ((sinkSystem FileTree).Always RejectsObstacle (start saveDir tree) as ↔
      (sinkSystem FileTree).Always NotOvertaken (start saveDir tree) as) := by
  have hheld := held_start hroot hdir
  constructor
  · intro w hrun
    have hkeeps : (start saveDir tree).KeepsContents tree := ⟨Nat.le_refl _, fun _ _ => ⟨rfl, rfl⟩⟩
    refine ⟨(held_run hheld hkeeps (fun _ _ => rfl) hrun).2, fun u fileName hblocked hundisturbed => ?_⟩
    obtain ⟨above, name, rest, n, hchain, hn, hne⟩ := hblocked
    exact refused_run hchain hheld (blocks_start hn hne) trivial hundisturbed hrun
  · refine (sinkSystem FileTree).always_iff_of_invariant (Held saveDir root)
      (fun w a w' hw hstep => ⟨rejectsObstacle_iff hstep, fun _ => hw.step hstep⟩) hheld

end

end SinkWorld

namespace Scenario

/-- A save directory `in` with a symlink to where `out` is. -/
def linkedTree : FileTree where
  node l :=
    if l = [] ∨ l = ["in"] then some .directory
    else if l = ["in", "link"] then some (.symlink ⟨false, [".."]⟩)
    else if l = ["out"] then some (.file 0)
    else none
  content _ := [7]
  next := 1
  base := []
  used l i h := by
    split at h
    · exact nomatch h
    split at h
    · exact nomatch h
    split at h
    · cases h
      decide
    · exact nomatch h
  root := rfl
  rooted l name h := by
    match l with
    | [] => rfl
    | [x] =>
      obtain ⟨rfl, _⟩ : x = "in" ∧ name = "link" := by simpa using h
      rfl
    | x :: y :: rest => simp at h

/-- While one `create` is about to make the directory `a`, another reserves the name `a`. -/
def overtaking : List SinkAction :=
  [.create 0 "a/b", .call 0 none "0", .create 1 "a", .call 1 none "1"]

/-- A name that leads through the symlink. -/
def throughLink : List SinkAction := [.create 0 "link/x", .call 0 none "0"]

end Scenario

namespace SinkWorld

/-- A test for `MeetsObstacle`. -/
def meetsObstacle (w : SinkWorld FileTree) (u : ReceiveId) : Bool :=
  match w.receives u with
  | some (.task (.creating future)) => future.component.any fun p =>
    match w.fs.locate p.components with
    | .ok l => (w.fs.node l).any fun n => n ≠ .directory
    | .error _ => false
  | _ => false

/-- The test of a receive that meets an obstacle. -/
theorem meetsObstacle_of_test {w : SinkWorld FileTree} {u : ReceiveId}
    (h : w.meetsObstacle u = true) : w.MeetsObstacle u := by
  unfold meetsObstacle at h
  split at h
  · rename_i future hr
    obtain ⟨p, hp, h⟩ := (Option.any_eq_true _ _).mp h
    split at h
    · rename_i l hlocate
      obtain ⟨n, hn, hdir⟩ := (Option.any_eq_true _ _).mp h
      exact ⟨future, p, hr, hp, l, n, hlocate, hn, of_decide_eq_true hdir⟩
    · simp at h
  · simp at h

/-- A file that comes between the inspection of a path and the making of a directory there is
    an obstacle that is answered with `Failed`. -/
theorem not_rejectsObstacle_overtaken :
    ¬(sinkSystem FileTree).Always RejectsObstacle (start ⟨["in"]⟩ Scenario.linkedTree)
      (Scenario.overtaking ++ [.call 0 none "0"]) := by
  refine (sinkSystem FileTree).not_always_of_test (start ⟨["in"]⟩ Scenario.linkedTree)
    Scenario.overtaking (.call 0 none "0")
    (fun t t' => t.meetsObstacle 0 && (t'.receives 0).any fun r =>
      r.error = some (.failed "File exists (os error 17)")) (by decide)
        (fun t t' _ htest hrejects => ?_)
  rw [Bool.and_eq_true] at htest
  obtain ⟨reason, hrejected⟩ := hrejects 0 "0" rfl (meetsObstacle_of_test htest.1)
  simp [hrejected, Receive.error] at htest

/-- A receive through a link to a directory is refused, and nothing outside is touched. -/
theorem contained_iff_through_link :
    ∃ w, (sinkSystem FileTree).exec (start ⟨["in"]⟩ Scenario.linkedTree) Scenario.throughLink = some w ∧
      Contained ["in"] Scenario.linkedTree w ∧ w.Refused 0 ∧
      ((sinkSystem FileTree).Always RejectsObstacle (start ⟨["in"]⟩ Scenario.linkedTree)
          Scenario.throughLink ↔
        (sinkSystem FileTree).Always NotOvertaken (start ⟨["in"]⟩ Scenario.linkedTree)
          Scenario.throughLink) := by
  have hruns : ((sinkSystem FileTree).exec (start ⟨["in"]⟩ Scenario.linkedTree)
      Scenario.throughLink).isSome = true := by decide
  obtain ⟨w, hw⟩ := Option.isSome_iff_exists.mp hruns
  have hboth := @contained_iff ⟨["in"]⟩ ["in"] Scenario.linkedTree (by decide) (by decide)
    Scenario.throughLink
  obtain ⟨hcontained, hrefused⟩ := hboth.1 w hw
  have hblocked : BlockedIn Scenario.linkedTree ["in"] "link/x" :=
    ⟨[], "link", [], .symlink ⟨false, [".."]⟩, by decide, by decide, by decide⟩
  exact ⟨w, hw, hcontained,
    hrefused 0 "link/x" hblocked (by simp [Scenario.throughLink, Undisturbed]), hboth.2⟩

end SinkWorld

end LocalSend
