import LocalSend.Spec.ReceiveSteps
import LocalSend.Spec.SinkErrors

/-!
# No loss, and no partial files

Receives that share a directory only ever meet through the paths they use. Every file they
create is known by the receive that created it, a call takes away or replaces nothing but
files of its own receive, and what a file holds is settled before it gets its final name.

## Key results

- `inv_of_reachable`: where the files of a receive are, and what is in them, at every await
- `no_loss`: no two receives with one final path, no prefix under it, and nothing
  lost that was there before, was committed, or is another receive's
-/

namespace LocalSend

/-- The receives over a file system in which every entry is where its path says. -/
abbrev FileWorld := SinkWorld (FileSystem PathBuf)

abbrev fileWorldSystem : TransitionSystem FileWorld SinkAction := sinkSystem (FileSystem PathBuf)

namespace SinkWorld

variable {w w' : FileWorld} {u v : ReceiveId} {fault : Option FsError} {c : FsCall PathBuf}

/-! ## Calls -/

/-- A call leaves the contents of the files that are there. -/
theorem content_runCall {i : Nat} (h : i < w.fs.next) :
    (w.runCall u fault c).2.fs.content i = w.fs.content i := by
  cases fault with
  | some e => rfl
  | none => exact w.fs.content_run c h

/-- A call leaves the owners of the files that are there. -/
theorem owner_runCall {i : Nat} (h : i < w.fs.next) :
    (w.runCall u fault c).2.owner i = w.owner i := by
  have heffect := w.fs.effect_answer fault c
  simp only [runCall, Disk.answer_eq]
  generalize w.fs.answer fault c = r at heffect
  obtain ⟨reply, fs'⟩ := r
  dsimp only
  split
  · obtain ⟨rfl, _⟩ := heffect.opened_eq
    exact Function.update_of_ne (Nat.ne_of_lt h) _ _
  · rfl

/-- The entry at `p` is a file receive `u` has created. -/
def File (w : FileWorld) (u : ReceiveId) (p : PathBuf) (i : Nat) : Prop :=
  w.fs.entry p = some (.file i) ∧ w.owner i = some u

/-- A file under a path is one of those that are there. -/
theorem File.lt {p : PathBuf} {i : Nat} (h : w.File u p i) : i < w.fs.next := w.fs.used p i h.1

/-- Nothing but receive `u` has changed, and no file that is not its own. -/
structure Others (w : FileWorld) (u : ReceiveId) (w' : FileWorld) : Prop where
  receives : ∀ v, v ≠ u → w'.receives v = w.receives v
  writes : ∀ v, v ≠ u → w'.writes v = w.writes v
  failed : ∀ v, v ≠ u → w'.failed v = w.failed v
  accepted : ∀ v, v ≠ u → w'.accepted v = w.accepted v
  entry : ∀ p e, w.fs.entry p = some e → (∀ i, ¬w.File u p i) → w'.fs.entry p = some e
  content : ∀ i, i < w.fs.next → w.owner i ≠ some u → w'.fs.content i = w.fs.content i
  owner : ∀ i, i < w.fs.next → w'.owner i = w.owner i

/-- What receive `u` has of the disk is the same. -/
structure SameOwn (w : FileWorld) (u : ReceiveId) (w' : FileWorld) : Prop where
  writes : w'.writes u = w.writes u
  failed : w'.failed u = w.failed u
  accepted : w'.accepted u = w.accepted u
  file : ∀ p i, w.File u p i → w'.File u p i ∧ w'.fs.content i = w.fs.content i

/-- What another receive does leaves a receive what it has. -/
theorem Others.sameOwn (h : w.Others u w') (hv : v ≠ u) : w.SameOwn v w' where
  writes := h.writes v hv
  failed := h.failed v hv
  accepted := h.accepted v hv
  file p i hfile := by
    have hne : w.owner i ≠ some u := fun heq => hv (Option.some.inj (hfile.2.symm.trans heq))
    refine ⟨⟨h.entry p _ hfile.1 fun j hj => ?_, (h.owner i hfile.lt).trans hfile.2⟩,
      h.content i hfile.lt hne⟩
    cases hfile.1.symm.trans hj.1
    exact hne hj.2

/-- A call that replaces only its receive's own files. -/
theorem others_runCall (howned : ∀ p ∈ c.replaces, ∃ i, w.File u p i) :
    w.Others u (w.runCall u fault c).2 where
  receives _ _ := rfl
  writes _ _ := rfl
  failed _ _ := rfl
  accepted _ _ := rfl
  entry p e hp hforeign := by
    refine (w.fs.effect_answer fault c).entry_kept hp fun hmem => ?_
    obtain ⟨i, hi⟩ := howned p hmem
    exact hforeign i hi
  content _ hi _ := content_runCall hi
  owner _ hi := owner_runCall hi

/-- A receive that goes on is none of the others. -/
theorem Others.setReceive (h : w.Others u w') (r : Receive) : w.Others u (w'.setReceive u r) where
  receives v hv := (Function.update_of_ne hv _ _).trans (h.receives v hv)
  writes := h.writes
  failed := h.failed
  accepted := h.accepted
  entry := h.entry
  content := h.content
  owner := h.owner

/-- Nothing happens to the others in no step. -/
theorem Others.refl (w : FileWorld) (u : ReceiveId) : w.Others u w :=
  ⟨fun _ _ => rfl, fun _ _ => rfl, fun _ _ => rfl, fun _ _ => rfl, fun _ _ h _ => h,
    fun _ _ _ => rfl, fun _ _ => rfl⟩

/-! ## Where the files of a receive are, and what is in them -/

/-- A reservation: an empty file that no write is under way to. -/
def Blank (w : FileWorld) (u : ReceiveId) (p : PathBuf) : Prop :=
  ∃ i, w.File u p i ∧ w.fs.content i = [] ∧ ∀ x, w.writes u = some x → x.inode ≠ i

/-- A file with every byte the writer has taken. -/
def Full (w : FileWorld) (u : ReceiveId) (p : PathBuf) : Prop :=
  ∃ i, w.File u p i ∧ w.fs.content i = w.accepted u ∧ w.writes u = none

/-- A temporary that, with what is under way, holds every byte the writer has taken, unless a
    write has failed. -/
def Filling (w : FileWorld) (u : ReceiveId) (p : PathBuf) (i : Nat) : Prop :=
  w.File u p i ∧ (∀ x, w.writes u = some x → x.inode = i) ∧
    (w.failed u = false →
      w.fs.content i ++ ((w.writes u).map InFlight.rest).getD [] = w.accepted u)

/-- The writer has taken nothing. -/
def Unwritten (w : FileWorld) (u : ReceiveId) : Prop :=
  w.writes u = none ∧ w.failed u = false ∧ w.accepted u = []

/-- What a future of the sink, or a pending receive, has on the disk. -/
def FitsTask (w : FileWorld) (u : ReceiveId) : SinkTask → Prop
  | .creating future =>
    w.Unwritten u ∧
      match future.phase with
      | .openingTemp finalPath _ => w.Blank u finalPath
      | .inspecting .. | .makingDirectory .. | .reserving _ => True
  | .pending file =>
    w.Blank u file.finalPath ∧ file.tempPath ≠ file.finalPath ∧
      ∃ i, file.temp = some i ∧ w.Filling u file.tempPath i ∧
        w.fs.entry file.finalPath ≠ some (.file i)
  | .committing file phase =>
    file.temp = none ∧
      match phase with
      | .flushing i =>
        w.Blank u file.finalPath ∧ file.tempPath ≠ file.finalPath ∧ w.Filling u file.tempPath i
      | .syncing _ | .renamingTemp =>
        w.Blank u file.finalPath ∧ file.tempPath ≠ file.finalPath ∧ w.Full u file.tempPath
      | .openingDirectory | .syncingDirectory => w.Full u file.finalPath
  | .aborting file phase =>
    file.temp = none ∧ w.Blank u file.finalPath ∧
      match phase with
      | .removingTemp => file.tempPath ≠ file.finalPath ∧ ∃ i, w.File u file.tempPath i
      | .removingReservation _ => True

/-- What a receive has on the disk. -/
def Fits (w : FileWorld) (u : ReceiveId) : Option Receive → Prop
  | none => w.Unwritten u
  | some (.task s) | some (.detached s) => w.FitsTask u s
  | some (.droppingTemp tempPath finalPath) =>
    w.Blank u finalPath ∧ tempPath ≠ finalPath ∧ ∃ i, w.File u tempPath i
  | some (.droppingReservation finalPath) => w.Blank u finalPath
  | some (.ended none _) => True
  | some (.ended (some path) _) => w.Full u path

/-- A path that is blank stays so for its owner. -/
theorem SameOwn.blank (h : w.SameOwn u w') {p : PathBuf} (hp : w.Blank u p) : w'.Blank u p := by
  obtain ⟨i, hfile, hempty, hwrites⟩ := hp
  refine ⟨i, (h.file p i hfile).1, (h.file p i hfile).2.trans hempty, fun x hx => ?_⟩
  exact hwrites x (h.writes ▸ hx)

/-- A whole file stays so for its owner. -/
theorem SameOwn.full (h : w.SameOwn u w') {p : PathBuf} (hp : w.Full u p) : w'.Full u p := by
  obtain ⟨i, hfile, hcontent, hwrites⟩ := hp
  refine ⟨i, (h.file p i hfile).1, ?_, h.writes.trans hwrites⟩
  rw [(h.file p i hfile).2, hcontent, h.accepted]

/-- A file that is being filled stays so for its owner. -/
theorem SameOwn.filling (h : w.SameOwn u w') {p : PathBuf} {i : Nat} (hp : w.Filling u p i) :
    w'.Filling u p i := by
  obtain ⟨hfile, hwrites, hcontent⟩ := hp
  refine ⟨(h.file p i hfile).1, fun x hx => hwrites x (h.writes ▸ hx), fun hfailed => ?_⟩
  rw [(h.file p i hfile).2, h.writes, h.accepted]
  exact hcontent (h.failed ▸ hfailed)

/-- A receive that has written nothing stays so. -/
theorem SameOwn.unwritten (h : w.SameOwn u w') (hu : w.Unwritten u) : w'.Unwritten u :=
  ⟨h.writes.trans hu.1, h.failed.trans hu.2.1, h.accepted.trans hu.2.2⟩

/-- A future that fits what it has on the disk still does. -/
theorem SameOwn.fitsTask (h : w.SameOwn u w') {s : SinkTask} (hs : w.FitsTask u s) :
    w'.FitsTask u s := by
  -- what a task relies on is about files of its own receive
  cases s with
  | creating future =>
    refine ⟨h.unwritten hs.1, ?_⟩
    have hphase := hs.2
    split at hphase
    · exact h.blank hphase
    all_goals trivial
  | pending file =>
    obtain ⟨hblank, hne, i, htemp, hfilling, hapart⟩ := hs
    refine ⟨h.blank hblank, hne, i, htemp, h.filling hfilling, ?_⟩
    obtain ⟨j, hfinal, _⟩ := hblank
    rw [(h.file _ j hfinal).1.1, ← hfinal.1]
    exact hapart
  | committing file phase =>
    -- before the rename the temporary is still filled, afterwards the final file is full
    refine ⟨hs.1, ?_⟩
    have hphase := hs.2
    cases phase with
    | flushing i => exact ⟨h.blank hphase.1, hphase.2.1, h.filling hphase.2.2⟩
    | syncing | renamingTemp => exact ⟨h.blank hphase.1, hphase.2.1, h.full hphase.2.2⟩
    | openingDirectory | syncingDirectory => exact h.full hphase
  | aborting file phase =>
    obtain ⟨htemp, hblank, hphase⟩ := hs
    refine ⟨htemp, h.blank hblank, ?_⟩
    cases phase with
    | removingTemp =>
      obtain ⟨hne, i, hfile⟩ := hphase
      exact ⟨hne, i, (h.file _ i hfile).1⟩
    | removingReservation => trivial

/-- What a receive has is its own business. -/
theorem SameOwn.fits (h : w.SameOwn u w') {r : Option Receive} (hr : w.Fits u r) : w'.Fits u r := by
  match r with
  | none => exact h.unwritten hr
  | some (.task s) | some (.detached s) => exact h.fitsTask hr
  | some (.droppingTemp tempPath finalPath) =>
    obtain ⟨hblank, hne, i, hfile⟩ := hr
    exact ⟨h.blank hblank, hne, i, (h.file _ i hfile).1⟩
  | some (.droppingReservation finalPath) => exact h.blank hr
  | some (.ended none _) => trivial
  | some (.ended (some path) _) => exact h.full hr

/-- Every receive has what it should have, and writes to a file of its own. -/
structure Inv (w : FileWorld) : Prop where
  owned : ∀ i u, w.owner i = some u → i < w.fs.next
  writes : ∀ u x, w.writes u = some x → w.owner x.inode = some u
  fits : ∀ u, w.Fits u (w.receives u)

/-! ## One call -/

/-- A file that a call does not replace is as it was. -/
theorem file_runCall {p : PathBuf} {i : Nat} (h : w.File v p i) (hp : p ∉ c.replaces) :
    (w.runCall u fault c).2.File v p i ∧ (w.runCall u fault c).2.fs.content i = w.fs.content i :=
  ⟨⟨(w.fs.effect_answer fault c).entry_kept h.1 hp, (owner_runCall h.lt).trans h.2⟩,
    content_runCall h.lt⟩

/-- A call that replaces nothing leaves what the receive has. -/
theorem sameOwn_runCall (hc : c.replaces = []) : w.SameOwn u (w.runCall u fault c).2 where
  writes := rfl
  failed := rfl
  accepted := rfl
  file _ _ h := file_runCall h (by rw [hc]; exact List.not_mem_nil)

/-- The owned files are among those that are there, after a call too. -/
theorem owned_runCall (h : ∀ i v, w.owner i = some v → i < w.fs.next) :
    ∀ i v, (w.runCall u fault c).2.owner i = some v → i < (w.runCall u fault c).2.fs.next := by
  have heffect := w.fs.effect_answer fault c
  simp only [runCall, Disk.answer_eq]
  generalize w.fs.answer fault c = r at heffect
  obtain ⟨reply, fs'⟩ := r
  dsimp only at heffect ⊢
  intro i v hi
  have hle := heffect.next_le
  split at hi
  · obtain ⟨rfl, hnext⟩ := heffect.opened_eq
    by_cases heq : i = w.fs.next
    · show i < fs'.next
      omega
    · rw [Function.update_of_ne heq] at hi
      exact Nat.lt_of_lt_of_le (h i v hi) hle
  · exact Nat.lt_of_lt_of_le (h i v hi) hle

/-- A new file is the receive's own, and empty. -/
theorem file_newFile {p : PathBuf}
    (h : w.fs.answer fault c = (.ok (.opened w.fs.next), w.fs.newFile p)) :
    (w.runCall u fault c).2.File u p w.fs.next ∧
      (w.runCall u fault c).2.fs.content w.fs.next = [] := by
  simp only [runCall, Disk.answer_eq]
  rw [h]
  refine ⟨⟨?_, Function.update_self ..⟩, Function.update_self ..⟩
  rw [FileSystem.entry_newFile, if_pos rfl]

/-- `create` after an answer. -/
theorem fits_create {future : CreateFuture} {uuid : String}
    (hs : w.FitsTask u (.creating future)) :
    (w.runCall u fault future.call).2.Fits u
      (some (future.resume (w.runCall u fault future.call).1 uuid).receive) := by
  obtain ⟨hunwritten, hphase⟩ := hs
  have hcall : future.call.replaces = [] := by
    unfold CreateFuture.call
    split <;> rfl
  have hsame : w.SameOwn u (w.runCall u fault future.call).2 := sameOwn_runCall hcall
  have hunwritten' := hsame.unwritten hunwritten
  -- walking on has nothing on the disk
  have hwalk : ∀ {current rest}, (w.runCall u fault future.call).2.Fits u
      (some (future.walkOn current rest).receive) := by
    intro current rest
    cases rest with
    | nil => exact ⟨hunwritten', trivial⟩
    | cons name rest =>
      by_cases hdots : name = ".."
      · simp only [CreateFuture.walkOn, CreateFuture.walk, hdots, if_true]
        trivial
      · simp only [CreateFuture.walkOn, CreateFuture.walk, hdots, if_false]
        exact ⟨hunwritten', trivial⟩
  have hstep := createStep_of_resume w.fs fault uuid future
  have hreply : (w.runCall u fault future.call).1 = (w.fs.answer fault future.call).1 := rfl
  rw [hreply]
  have hnew : ∀ p, w.fs.answer fault future.call = (.ok (.opened w.fs.next), w.fs.newFile p) →
      (w.runCall u fault future.call).2.File u p w.fs.next ∧
        (w.runCall u fault future.call).2.fs.content w.fs.next = [] := fun p h => file_newFile h
  generalize (w.runCall u fault future.call).2 = w' at hsame hunwritten' hwalk hnew ⊢
  generalize future.resume (w.fs.answer fault future.call).1 uuid = next at hstep ⊢
  generalize w.fs.answer fault future.call = r at hstep hnew
  obtain ⟨reply, fs'⟩ := r
  dsimp only at hstep
  cases hstep with
  | entered | made => exact hwalk
  | rejected | failed => trivial
  | missing | taken => exact ⟨hunwritten', trivial⟩
  | reserved =>
    obtain ⟨hfile, hempty⟩ := hnew _ rfl
    refine ⟨hunwritten', w.fs.next, hfile, hempty, fun x hx => ?_⟩
    cases hunwritten'.1.symm.trans hx
  | @opened finalPath tempPath hopening hfault hfree =>
    rw [hopening] at hphase
    obtain ⟨hfile, hempty⟩ := hnew _ rfl
    have hblank : w'.Blank u finalPath := hsame.blank hphase
    refine ⟨hblank, ?_, w.fs.next, rfl, ⟨hfile, fun x hx => ?_, fun _ => ?_⟩, ?_⟩
    · -- the reserved name is taken, the temporary's was free
      intro heq
      have heq : tempPath = finalPath := heq
      obtain ⟨i, hi, _⟩ := hphase
      rw [heq, hi.1] at hfree
      simp at hfree
    · cases hunwritten'.1.symm.trans hx
    · rw [hempty, hunwritten'.1, hunwritten'.2.2]
      rfl
    · -- the reservation was in use before the temporary's inode was
      obtain ⟨i, hi, _⟩ := hphase
      have hentry : w'.fs.entry finalPath = some (.file i) := (hsame.file _ i hi).1.1
      intro heq
      cases hentry.symm.trans heq
      exact Nat.lt_irrefl _ hi.lt

/-- A rename that succeeds puts the file it moves under its new name. -/
theorem file_rename {p q : PathBuf} {i : Nat} {r : FsReply} (h : w.File u p i)
    (hok : (w.runCall u fault (.rename p q)).1 = .ok r) :
    (w.runCall u fault (.rename p q)).2.File u q i := by
  have heffect := w.fs.effect_answer fault (.rename p q)
  refine ⟨?_, (owner_runCall h.lt).trans h.2⟩
  show (w.fs.answer fault (.rename p q)).2.entry q = _
  replace hok : (w.fs.answer fault (.rename p q)).1 = .ok r := hok
  generalize w.fs.answer fault (.rename p q) = x at heffect hok
  obtain ⟨reply, fs'⟩ := x
  cases hok
  cases heffect with
  | looked harmless => cases harmless.1
  | moved here entry =>
    rw [entry, if_neg fun hqp => hqp.2 hqp.1.symm, if_pos rfl, ← here, h.1]

/-- `commit` after an answer. -/
theorem fits_commit {file : AtomicPendingFile} {phase : CommitPhase}
    (hs : w.FitsTask u (.committing file phase)) {r : Except FsError FsReply × FileWorld}
    (hr : w.answerCall u (.committing file phase) fault (phase.call file) = some r) :
    r.2.Fits u (some (phase.resume file r.1).receive) ∧ w.Others u r.2 := by
  obtain ⟨hnone, hphase⟩ := hs
  -- one call of the commit, by its phase
  cases phase with
  | flushing i =>
    obtain ⟨hblank, hne, hfile, hwrites, hcontent⟩ := hphase
    simp only [answerCall] at hr
    split at hr
    · simp at hr
    · rename_i hidle
      have hidle : w.writes u = none := by simpa using hidle
      -- a write that has failed is reported without a call
      split at hr
      · cases hr
        exact ⟨trivial, .refl w u⟩
      · rename_i hgood
        cases hr
        have hsame : w.SameOwn u (w.runCall u fault (.sync i)).2 := sameOwn_runCall rfl
        refine ⟨?_, others_runCall (by intro _ h; cases h)⟩
        -- nothing is under way and nothing has failed, so every byte is there
        have hfull : w.Full u file.tempPath := by
          refine ⟨i, hfile, ?_, hidle⟩
          have hall := hcontent (by simpa using hgood)
          simpa [hidle] using hall
        simp only [CommitPhase.call]
        cases (w.runCall u fault (.sync i)).1 with
        | error e => trivial
        | ok reply => exact ⟨hnone, hsame.blank hblank, hne, hsame.full hfull⟩
  | syncing i =>
    cases hr
    obtain ⟨hblank, hne, hfull⟩ := hphase
    have hsame : w.SameOwn u (w.runCall u fault (.sync i)).2 := sameOwn_runCall rfl
    refine ⟨?_, others_runCall (by intro _ h; cases h)⟩
    simp only [CommitPhase.call]
    cases (w.runCall u fault (.sync i)).1 with
    | error e => trivial
    | ok reply => exact ⟨hnone, hsame.blank hblank, hne, hsame.full hfull⟩
  | renamingTemp =>
    cases hr
    obtain ⟨⟨j, hfinal, _⟩, hne, i, hfile, hcontent, hidle⟩ := hphase
    -- the rename puts the full file at its final path
    refine ⟨?_, others_runCall ?_⟩
    · cases hreply : (w.runCall u fault (.rename file.tempPath file.finalPath)).1 with
      | error e =>
        simp only [CommitPhase.call, hreply]
        trivial
      | ok reply =>
        simp only [CommitPhase.call, hreply]
        exact ⟨hnone, i, file_rename hfile hreply, (content_runCall hfile.lt).trans hcontent, hidle⟩
    · intro p hp
      simp only [CommitPhase.call, FsCall.replaces, List.mem_cons, List.not_mem_nil, or_false] at hp
      rcases hp with rfl | rfl
      · exact ⟨i, hfile⟩
      · exact ⟨j, hfinal⟩
  | openingDirectory =>
    cases hr
    have hsame : w.SameOwn u (w.runCall u fault (.openDirectory file.directory)).2 :=
      sameOwn_runCall rfl
    refine ⟨?_, others_runCall (by intro _ h; cases h)⟩
    simp only [CommitPhase.call]
    cases (w.runCall u fault (.openDirectory file.directory)).1 with
    | error e => exact hsame.full hphase
    -- an error of the directory is not reported
    | ok reply => exact ⟨hnone, hsame.full hphase⟩
  | syncingDirectory =>
    cases hr
    have hsame : w.SameOwn u (w.runCall u fault (.syncDirectory file.directory)).2 :=
      sameOwn_runCall rfl
    refine ⟨?_, others_runCall (by intro _ h; cases h)⟩
    simp only [CommitPhase.call]
    cases (w.runCall u fault (.syncDirectory file.directory)).1 with
    | error e => exact hsame.full hphase
    | ok reply => exact hsame.full hphase

/-- `abort` after an answer. -/
theorem fits_abort {file : AtomicPendingFile} {phase : AbortPhase}
    (hs : w.FitsTask u (.aborting file phase)) :
    (w.runCall u fault (phase.call file)).2.Fits u
        (some (phase.resume file (w.runCall u fault (phase.call file)).1).receive) ∧
      w.Others u (w.runCall u fault (phase.call file)).2 := by
  obtain ⟨hnone, hblank, hphase⟩ := hs
  -- the temporary first, then the reserved name
  cases phase with
  | removingTemp =>
    obtain ⟨hne, i, hfile⟩ := hphase
    refine ⟨⟨hnone, ?_, trivial⟩, others_runCall fun p hp => ?_⟩
    · obtain ⟨j, hfinal, hempty, hwrites⟩ := hblank
      have hkept := @file_runCall w u u fault (.removeFile file.tempPath) _ _ hfinal
        (by simpa [FsCall.replaces] using Ne.symm hne)
      exact ⟨j, hkept.1, hkept.2.trans hempty, hwrites⟩
    · rw [List.mem_singleton.mp hp]
      exact ⟨i, hfile⟩
  | removingReservation temp =>
    obtain ⟨j, hfinal, _⟩ := hblank
    refine ⟨?_, others_runCall fun p hp => ?_⟩
    · generalize (w.runCall u fault _).1 = reply
      cases temp <;> cases reply <;> trivial
    · rw [List.mem_singleton.mp hp]
      exact ⟨j, hfinal⟩

/-- A flush that fails on its own account changes nothing. -/
theorem answerCall_cases {s : SinkTask} {r : Except FsError FsReply × FileWorld}
    (hr : w.answerCall u s fault c = some r) : r.2 = w ∨ r.2 = (w.runCall u fault c).2 := by
  unfold answerCall at hr
  split at hr
  · split at hr
    · simp at hr
    · split at hr
      · cases hr
        exact .inl rfl
      · cases hr
        exact .inr rfl
  · cases hr
    exact .inr rfl

/-- The call of a future of the sink, once it is made. -/
theorem fits_call {s : SinkTask} {uuid : String} {next : SinkStep} (hs : w.FitsTask u s)
    (hc : s.call = some c) {r : Except FsError FsReply × FileWorld}
    (hr : w.answerCall u s fault c = some r) (hnext : s.resume r.1 uuid = some next) :
    r.2.Fits u (some next.receive) ∧ w.Others u r.2 := by
  -- by the operation whose call is answered
  cases s with
  | pending => cases hc
  | creating future =>
    cases hc
    cases hr
    cases hnext
    refine ⟨fits_create hs, others_runCall ?_⟩
    unfold CreateFuture.call
    split <;> exact nofun
  | committing file phase =>
    cases hc
    cases hnext
    exact fits_commit hs hr
  | aborting file phase =>
    cases hc
    cases hr
    cases hnext
    exact fits_abort hs

/-- A detached call does to the disk what the future would have had it do. -/
theorem fits_detached {s : SinkTask} (hs : w.FitsTask u s) (hc : s.call = some c) :
    (w.runCall u fault c).2.Fits u (some (s.afterDetached (w.runCall u fault c).1)) ∧
      w.Others u (w.runCall u fault c).2 := by
  -- what a detached call replaces is its own receive's
  have hothers : w.Others u (w.runCall u fault c).2 := by
    refine others_runCall fun p hp => ?_
    cases s with
    | pending => cases hc
    | creating future =>
      cases hc
      unfold CreateFuture.call at hp
      split at hp <;> cases hp
    | committing file phase =>
      cases hc
      cases phase with
      | renamingTemp =>
        obtain ⟨_, ⟨j, hfinal, _⟩, _, i, hfile, _⟩ := hs
        simp only [CommitPhase.call, FsCall.replaces, List.mem_cons, List.not_mem_nil,
          or_false] at hp
        rcases hp with rfl | rfl
        · exact ⟨i, hfile⟩
        · exact ⟨j, hfinal⟩
      | _ => cases hp
    | aborting file phase =>
      cases hc
      cases phase with
      | removingTemp =>
        obtain ⟨_, _, _, i, hfile⟩ := hs
        rw [List.mem_singleton.mp hp]
        exact ⟨i, hfile⟩
      | removingReservation =>
        obtain ⟨_, ⟨j, hfinal, _⟩, _⟩ := hs
        rw [List.mem_singleton.mp hp]
        exact ⟨j, hfinal⟩
  refine ⟨?_, hothers⟩
  -- a detached rename still publishes, and nothing else does
  cases s with
  | committing file phase =>
    cases hc
    cases phase with
    | flushing | syncing => trivial
    | renamingTemp =>
      obtain ⟨_, _, _, i, hfile, hcontent, hidle⟩ := hs
      simp only [CommitPhase.call]
      cases hreply : (w.runCall u fault (.rename file.tempPath file.finalPath)).1 with
      | error e => trivial
      | ok reply =>
        exact ⟨i, file_rename hfile hreply, (content_runCall hfile.lt).trans hcontent, hidle⟩
    | openingDirectory | syncingDirectory =>
      have hsame : ∀ c', c'.replaces = [] → w.SameOwn u (w.runCall u fault c').2 :=
        fun _ => sameOwn_runCall
      exact (hsame _ rfl).full hs.2
  | pending => cases hc
  | creating | aborting => trivial

/-! ## One step -/

/-- What a step of receive `u` leaves: everybody else's as it was, its own in order. -/
structure OwnStep (w : FileWorld) (u : ReceiveId) (w' : FileWorld) : Prop where
  others : w.Others u w'
  fits : w'.Fits u (w'.receives u)
  owned : ∀ i v, w'.owner i = some v → i < w'.fs.next
  writes : ∀ x, w'.writes u = some x → w'.owner x.inode = some u

/-- A step of its owner keeps the invariant. -/
theorem Inv.of_ownStep (h : w.Inv) (hstep : w.OwnStep u w') : w'.Inv where
  owned := hstep.owned
  writes v x hx := by
    by_cases hv : v = u
    · subst hv
      exact hstep.writes x hx
    · rw [hstep.others.writes v hv] at hx
      have howner := h.writes v x hx
      rw [hstep.others.owner _ (h.owned _ _ howner), howner]
  fits v := by
    by_cases hv : v = u
    · subst hv
      exact hstep.fits
    · rw [hstep.others.receives v hv]
      exact (hstep.others.sameOwn hv).fits (h.fits v)

/-- A receive goes on without a call. -/
theorem Inv.setReceive (h : w.Inv) {r : Receive} (hr : w.Fits u (some r)) :
    w.OwnStep u (w.setReceive u r) where
  others := (Others.refl w u).setReceive r
  fits := by
    show w.Fits u (Function.update w.receives u (some r) u)
    rw [Function.update_self]
    exact hr
  owned := h.owned
  writes := h.writes u

/-- A receive goes on after a call. -/
theorem Inv.afterCall (h : w.Inv) {r : Receive}
    (hr : (w.runCall u fault c).2.Fits u (some r)) (hothers : w.Others u (w.runCall u fault c).2) :
    w.OwnStep u ((w.runCall u fault c).2.setReceive u r) where
  others := hothers.setReceive r
  fits := by
    show (w.runCall u fault c).2.Fits u (Function.update w.receives u (some r) u)
    rw [Function.update_self]
    exact hr
  owned := owned_runCall h.owned
  writes x hx := by
    have howner := h.writes u x hx
    exact (owner_runCall (h.owned _ _ howner)).trans howner

/-- Bytes reach the file they are under way to. -/
theorem Inv.runWrite (h : w.Inv) {x : InFlight} (hx : w.writes u = some x) (n : Nat)
    (fault : Bool) :
    w.OwnStep u (w.runWrite u x n fault) := by
  have hown := h.writes u x hx
  -- a blocking write touches one inode and no entry
  have hothers : w.Others u (w.runWrite u x n fault) := {
    receives := fun _ _ => rfl
    writes := fun v hv => Function.update_of_ne hv _ _
    failed := fun v hv => Function.update_of_ne hv _ _
    accepted := fun _ _ => rfl
    entry := fun _ _ hp _ => hp
    content := fun i _ hne => Function.update_of_ne (fun heq : i = x.inode => hne (heq ▸ hown)) _ _
    owner := fun _ _ => rfl }
  -- the write goes on to the inode it began with
  have hwrites : ∀ y, (w.runWrite u x n fault).writes u = some y → y.inode = x.inode := by
    intro y hy
    simp only [SinkWorld.runWrite, Function.update_self] at hy
    split at hy
    · simp at hy
    · cases hy
      rfl
  -- the reserved file is not the one being written
  have hblank : ∀ {p}, w.Blank u p → (w.runWrite u x n fault).Blank u p := by
    rintro p ⟨i, hfile, hempty, hne⟩
    refine ⟨i, hfile, ?_, fun y hy => hwrites y hy ▸ hne x hx⟩
    exact (Function.update_of_ne (hne x hx).symm _ _).trans hempty
  -- what has been accepted is on the disk or still under way
  have hfilling : ∀ {p i}, w.Filling u p i → (w.runWrite u x n fault).Filling u p i := by
    rintro p i ⟨hfile, hinode, hcontent⟩
    have hi : x.inode = i := hinode x hx
    refine ⟨hfile, fun y hy => (hwrites y hy).trans hi, fun hgood => ?_⟩
    simp only [SinkWorld.runWrite, Function.update_self, Bool.or_eq_false_iff] at hgood
    have hall := hcontent hgood.1
    simp only [hx, Option.map_some, Option.getD_some] at hall
    -- what has arrived and what is left make up what was under way
    have hsplit : w.fs.content i ++ x.rest.take n ++ x.rest.drop n = w.accepted u := by
      rw [List.append_assoc, List.take_append_drop, hall]
    simp only [SinkWorld.runWrite, Disk.append_eq, FileSystem.append, hi, Function.update_self,
      hgood.2, Bool.false_or]
    cases hrest : x.rest.drop n with
    | nil => simpa [hrest] using hsplit
    | cons b rest => simpa [hrest] using hsplit
  refine ⟨hothers, ?_, h.owned, fun y hy => ?_⟩
  · have hfits := h.fits u
    -- where nothing may be under way, there is nothing to show
    have hidle : ∀ {P : Prop}, w.writes u = none → P := fun hnone => (by cases hnone.symm.trans hx)
    show (w.runWrite u x n fault).Fits u (w.receives u)
    -- a creation and a later commit have nothing under way
    have htask : ∀ s, w.FitsTask u s → (w.runWrite u x n fault).FitsTask u s := by
      intro s hs
      cases s with
      | creating future => exact hidle hs.1.1
      | pending file =>
        obtain ⟨hb, hne, i, htemp, hf, hapart⟩ := hs
        exact ⟨hblank hb, hne, i, htemp, hfilling hf, hapart⟩
      | committing file phase =>
        refine ⟨hs.1, ?_⟩
        have hphase := hs.2
        cases phase with
        | flushing i => exact ⟨hblank hphase.1, hphase.2.1, hfilling hphase.2.2⟩
        | syncing | renamingTemp =>
          obtain ⟨_, _, i, _, _, hnone⟩ := hphase
          exact hidle hnone
        | openingDirectory | syncingDirectory =>
          obtain ⟨i, _, _, hnone⟩ := hphase
          exact hidle hnone
      | aborting file phase =>
        obtain ⟨htemp, hb, hphase⟩ := hs
        exact ⟨htemp, hblank hb, by cases phase <;> exact hphase⟩
    cases hreceive : w.receives u with
    | none =>
      rw [hreceive] at hfits
      exact hidle hfits.1
    -- the receive may have ended while the write goes on
    | some r =>
      rw [hreceive] at hfits
      cases r with
      | task s | detached s => exact htask s hfits
      | droppingTemp tempPath finalPath => exact ⟨hblank hfits.1, hfits.2⟩
      | droppingReservation finalPath => exact hblank hfits
      | ended path result =>
        cases path with
        | none => trivial
        | some path =>
          obtain ⟨i, _, _, hnone⟩ := hfits
          exact hidle hnone
  · show w.owner y.inode = some u
    rw [hwrites y hy, hown]

/-- The writer takes a chunk once the one before is in the file. -/
theorem Inv.write (h : w.Inv) {file : AtomicPendingFile} {temp : Nat}
    (hreceive : w.receives u = some (.task (.pending file))) (htemp : file.temp = some temp)
    (hidle : w.writes u = none) (hgood : w.failed u = false) (chunk : List UInt8) :
    w.OwnStep u { w with
      writes := Function.update w.writes u (some ⟨temp, chunk⟩)
      accepted := Function.update w.accepted u (w.accepted u ++ chunk) } := by
  have hfits := h.fits u
  rw [hreceive] at hfits
  obtain ⟨⟨j, hfinal, hempty, _⟩, hne, i, htemp', ⟨hfile, _, hcontent⟩, hapart⟩ := hfits
  cases htemp.symm.trans htemp'
  refine ⟨⟨fun _ _ => rfl, fun v hv => Function.update_of_ne hv _ _, fun _ _ => rfl,
    fun v hv => Function.update_of_ne hv _ _, fun _ _ hp _ => hp, fun _ _ _ => rfl, fun _ _ => rfl⟩,
    ?_, h.owned, fun x hx => ?_⟩
  -- the chunk is accepted and under way at once
  · simp only [hreceive]
    refine ⟨⟨j, hfinal, hempty, fun x hx => ?_⟩, hne, temp, htemp,
      ⟨hfile, fun x hx => ?_, fun _ => ?_⟩, hapart⟩
    · simp only [Function.update_self, Option.some.injEq] at hx
      subst hx
      rintro rfl
      exact hapart hfinal.1
    · simp only [Function.update_self, Option.some.injEq] at hx
      rw [← hx]
    · have hall := hcontent hgood
      simp only [hidle, Option.map_none, Option.getD_none, List.append_nil] at hall
      simp [hall]
  · simp only [Function.update_self, Option.some.injEq] at hx
    rw [← hx]
    exact hfile.2

/-- A `create` that is not refused uses nothing of the disk before its first call. -/
theorem fits_began {fileName : String} {future : CreateFuture} (hinv : w.Fits u none)
    (hcreate : AtomicFileSink.create w.saveDir fileName = .ok future) :
    w.FitsTask u (.creating future) := by
  refine ⟨hinv, ?_⟩
  obtain ⟨relative, _, _, _, hwalk⟩ := AtomicFileSink.create_eq_ok hcreate
  -- a name without directories is reserved first
  cases relative with
  | nil =>
    simp only [CreateFuture.walkOn, CreateFuture.walk, SinkStep.awaits.injEq,
      SinkTask.creating.injEq] at hwalk
    rw [hwalk]
    trivial
  | cons name rest =>
    by_cases hdots : name = ".."
    · simp [CreateFuture.walkOn, CreateFuture.walk, hdots] at hwalk
    · simp only [CreateFuture.walkOn, CreateFuture.walk, hdots, if_false, SinkStep.awaits.injEq,
        SinkTask.creating.injEq] at hwalk
      rw [hwalk]
      trivial

/-- A step changes nothing but its own receive, and leaves that in order. -/
theorem Inv.ownStep (h : w.Inv) {a : SinkAction} (hstep : w.step a = some w') :
    w.OwnStep a.receive w' := by
  have hfits := h.fits a.receive
  -- each action by what it needs of the receive
  cases step_receive hstep with
  | refused => exact h.setReceive trivial
  | began hreceive hcreate =>
    rw [SinkAction.receive, hreceive] at hfits
    exact h.setReceive (fits_began hfits hcreate)
  | called hreceive hc hanswer hnext =>
    rw [SinkAction.receive, hreceive] at hfits
    obtain ⟨hafter, hothers⟩ := fits_call hfits hc hanswer hnext
    rcases answerCall_cases hanswer with heq | heq
    · rw [heq] at hafter ⊢
      exact h.setReceive hafter
    · rw [heq] at hafter hothers ⊢
      exact h.afterCall hafter hothers
  | wrote hreceive hidle hgood htemp => exact h.write hreceive htemp hidle hgood _
  | ranWrite hx => exact h.runWrite hx _ _
  -- the commit takes the temporary over
  | commits hreceive htemp =>
    rw [SinkAction.receive, hreceive] at hfits
    obtain ⟨hblank, hne, i, htemp', hfilling, _⟩ := hfits
    cases htemp.symm.trans htemp'
    exact h.setReceive ⟨rfl, hblank, hne, hfilling⟩
  | aborts hreceive =>
    rw [SinkAction.receive, hreceive] at hfits
    obtain ⟨hblank, hne, i, htemp, hfilling, _⟩ := hfits
    exact h.setReceive ⟨rfl, hblank, hne, i, hfilling.1⟩
  | @drops u s paths hreceive hdrop =>
    rw [SinkAction.receive, hreceive] at hfits
    -- only a pending receive still has its temporary
    cases s with
    | pending file =>
      obtain ⟨hblank, hne, i, htemp, hfilling, _⟩ := hfits
      simp only [SinkTask.drop, AtomicPendingFile.drop, htemp, Option.isSome_some, if_true,
        Option.some.injEq] at hdrop
      subst hdrop
      exact h.setReceive ⟨hblank, hne, i, hfilling.1⟩
    | creating => cases hdrop
    | committing file phase | aborting file phase =>
      simp [SinkTask.drop, AtomicPendingFile.drop, hfits.1] at hdrop
  -- the call that was left behind still belongs to the receive
  | detaches hreceive =>
    rw [SinkAction.receive, hreceive] at hfits
    exact h.setReceive hfits
  | @removedTemp u fault tempPath finalPath hreceive =>
    rw [SinkAction.receive, hreceive] at hfits
    -- what is removed is the receive's own
    obtain ⟨⟨j, hfinal, hempty, hwrites⟩, hne, i, hfile⟩ := hfits
    refine h.afterCall ?_ (others_runCall fun p hp => ?_)
    · have hkept := @file_runCall w u u fault (.removeFile tempPath) _ _ hfinal
        (by simpa [FsCall.replaces] using Ne.symm hne)
      exact ⟨j, hkept.1, hkept.2.trans hempty, hwrites⟩
    · rw [List.mem_singleton.mp hp]
      exact ⟨i, hfile⟩
  | removedReservation hreceive =>
    rw [SinkAction.receive, hreceive] at hfits
    obtain ⟨j, hfinal, _⟩ := hfits
    refine h.afterCall trivial (others_runCall fun p hp => ?_)
    rw [List.mem_singleton.mp hp]
    exact ⟨j, hfinal⟩
  | @ranDetached u fault s c hreceive hc =>
    rw [SinkAction.receive, hreceive] at hfits
    obtain ⟨hafter, hothers⟩ := @fits_detached w u fault c s hfits hc
    exact h.afterCall hafter hothers

/-- At the start, nobody owns anything. -/
theorem inv_start (saveDir : PathBuf) (fs : FileSystem PathBuf) : (start saveDir fs).Inv :=
  ⟨nofun, nofun, fun _ => ⟨rfl, rfl, rfl⟩⟩

/-- The invariant holds whatever the receives do. -/
theorem inv_of_reachable (h : fileWorldSystem.Reachable w) : w.Inv := by
  refine fileWorldSystem.reachable_induction Inv ?_ (fun w a w' hinv hstep => ?_) h
  · rintro w ⟨saveDir, fs, rfl⟩
    exact inv_start saveDir fs
  · exact hinv.of_ownStep (hinv.ownStep hstep)

end SinkWorld

/-! ## No loss, and no partial files -/

/-- The name a future of the sink, or a pending receive, has reserved. -/
def SinkTask.finalPath : SinkTask → Option PathBuf
  | .creating future =>
    match future.phase with
    | .openingTemp finalPath _ => some finalPath
    | .inspecting .. | .makingDirectory .. | .reserving _ => none
  | .pending file | .committing file _ | .aborting file _ => some file.finalPath

/-- The final path of a receive, from its reservation on. -/
def Receive.finalPath : Receive → Option PathBuf
  | .task s | .detached s => s.finalPath
  | .droppingTemp _ finalPath | .droppingReservation finalPath => some finalPath
  | .ended published _ => published

/-- The error an operation of a receive has returned. -/
def Receive.error : Receive → Option SinkError
  | .ended _ error => error
  | .task _ | .detached _ | .droppingTemp .. | .droppingReservation _ => none

/-- The final path of a receive whose file has been renamed to it. -/
def Receive.published : Receive → Option PathBuf
  | .task s | .detached s => s.published
  | .droppingTemp .. | .droppingReservation _ => none
  | .ended published _ => published

namespace SinkWorld

variable {w w' : FileWorld} {u v : ReceiveId}

def finalPath (w : FileWorld) (u : ReceiveId) : Option PathBuf :=
  (w.receives u).bind Receive.finalPath

def published (w : FileWorld) (u : ReceiveId) : Option PathBuf :=
  (w.receives u).bind Receive.published

/-- No two receives that are pending or committed have one final path. -/
def DistinctFinalPaths (w : FileWorld) : Prop :=
  ∀ u v p, w.finalPath u = some p → w.finalPath v = some p → u = v

/-- Under a final path there is the empty reservation, or once it has been renamed every byte
    the writer has taken. -/
def ReadersSeeWhole (w : FileWorld) : Prop :=
  ∀ u p, w.finalPath u = some p → ∃ i, w.fs.entry p = some (.file i) ∧
    ((w.published u = none ∧ w.fs.content i = []) ∨
      (w.published u = some p ∧ w.fs.content i = w.accepted u))

/-- What is at `p` was there before the receives, or has been published there. -/
def Settled (w : FileWorld) (p : PathBuf) (e : FsEntry) : Prop :=
  w.fs.entry p = some e ∧
    ((∀ i, e = .file i → w.owner i = none) ∨ ∃ u, w.published u = some p)

/-- What was there before the receives, and what they have published, is the same. -/
def Keeps (w w' : FileWorld) : Prop :=
  ∀ p e, w.Settled p e → w'.Settled p e ∧ ∀ i, e = .file i → w'.fs.content i = w.fs.content i

/-- A step takes no reservation, temporary or committed file of another receive away, and
    writes to none. -/
def SparesOthers (w : FileWorld) (a : SinkAction) (w' : FileWorld) : Prop :=
  ∀ v p i, v ≠ a.receive → w.fs.entry p = some (.file i) → w.owner i = some v →
    w'.fs.entry p = some (.file i) ∧ w'.owner i = some v ∧ w'.fs.content i = w.fs.content i

/-- A final path is the receive's own file, empty or complete. -/
theorem Inv.file_finalPath (h : w.Inv) {p : PathBuf} (hp : w.finalPath u = some p) :
    ∃ i, w.File u p i ∧ ((w.published u = none ∧ w.fs.content i = []) ∨
      (w.published u = some p ∧ w.fs.content i = w.accepted u)) := by
  have hfits := h.fits u
  simp only [finalPath, published] at hp ⊢
  have hblank : ∀ {q}, w.Blank u q → ∃ i, w.File u q i ∧ w.fs.content i = [] :=
    fun ⟨i, hfile, hempty, _⟩ => ⟨i, hfile, hempty⟩
  have hfull : ∀ {q}, w.Full u q → ∃ i, w.File u q i ∧ w.fs.content i = w.accepted u :=
    fun ⟨i, hfile, hcontent, _⟩ => ⟨i, hfile, hcontent⟩
  -- a final path is empty until the rename, and full after it
  have htask : ∀ s, w.FitsTask u s → s.finalPath = some p →
      ∃ i, w.File u p i ∧ ((s.published = none ∧ w.fs.content i = []) ∨
        (s.published = some p ∧ w.fs.content i = w.accepted u)) := by
    intro s hs hfinal
    cases s with
    | creating future =>
      obtain ⟨directory, leaf, phase⟩ := future
      cases phase with
      | openingTemp =>
        cases hfinal
        obtain ⟨i, hfile, hempty⟩ := hblank hs.2
        exact ⟨i, hfile, .inl ⟨rfl, hempty⟩⟩
      | inspecting | makingDirectory | reserving => exact nomatch hfinal
    | pending file =>
      cases hfinal
      obtain ⟨i, hfile, hempty⟩ := hblank hs.1
      exact ⟨i, hfile, .inl ⟨rfl, hempty⟩⟩
    | aborting file phase =>
      cases hfinal
      obtain ⟨i, hfile, hempty⟩ := hblank hs.2.1
      exact ⟨i, hfile, .inl ⟨rfl, hempty⟩⟩
    | committing file phase =>
      cases hfinal
      have hphase := hs.2
      cases phase with
      | flushing | syncing | renamingTemp =>
        obtain ⟨i, hfile, hempty⟩ := hblank hphase.1
        exact ⟨i, hfile, .inl ⟨rfl, hempty⟩⟩
      | openingDirectory | syncingDirectory =>
        obtain ⟨i, hfile, hcontent⟩ := hfull hphase
        exact ⟨i, hfile, .inr ⟨rfl, hcontent⟩⟩
  -- the receive is a task, is being dropped, or has ended
  match hreceive : w.receives u with
  | none => cases hreceive ▸ hp
  | some (.task s) | some (.detached s) =>
    rw [hreceive] at hp hfits
    exact htask s hfits hp
  | some (.droppingTemp tempPath finalPath) =>
    rw [hreceive] at hp hfits
    cases hp
    obtain ⟨i, hfile, hempty⟩ := hblank hfits.1
    exact ⟨i, hfile, .inl ⟨rfl, hempty⟩⟩
  | some (.droppingReservation finalPath) =>
    rw [hreceive] at hp hfits
    cases hp
    obtain ⟨i, hfile, hempty⟩ := hblank hfits
    exact ⟨i, hfile, .inl ⟨rfl, hempty⟩⟩
  | some (.ended none _) =>
    rw [hreceive] at hp
    cases hp
  | some (.ended (some path) _) =>
    rw [hreceive] at hp hfits
    cases hp
    obtain ⟨i, hfile, hcontent⟩ := hfull hfits
    exact ⟨i, hfile, .inr ⟨rfl, hcontent⟩⟩

/-- What is published is a final path. -/
theorem finalPath_of_published {p : PathBuf} (hp : w.published u = some p) :
    w.finalPath u = some p := by
  simp only [published, finalPath, Option.bind_eq_some_iff] at hp ⊢
  obtain ⟨r, hr, hp⟩ := hp
  refine ⟨r, hr, ?_⟩
  have htask : ∀ s : SinkTask, s.published = some p → s.finalPath = some p := by
    intro s hs
    cases s with
    | committing file phase => cases phase <;> first | exact hs | exact nomatch hs
    | creating | pending | aborting => exact nomatch hs
  cases r with
  | task s | detached s => exact htask s hp
  | droppingTemp | droppingReservation => contradiction
  | ended => exact hp

/-- The futures that have published a file: those that sync its directory. -/
theorem published_task {s : SinkTask} {p : PathBuf} (h : s.published = some p) :
    ∃ file phase, s = .committing file phase ∧ file.finalPath = p ∧
      (phase = .openingDirectory ∨ phase = .syncingDirectory) := by
  cases s with
  | committing file phase =>
    cases phase with
    | openingDirectory => exact ⟨file, _, rfl, Option.some.inj h, .inl rfl⟩
    | syncingDirectory => exact ⟨file, _, rfl, Option.some.inj h, .inr rfl⟩
    | flushing | syncing | renamingTemp => exact nomatch h
  | creating | pending | aborting => exact nomatch h

/-- The receive of a published file goes on to its end without touching it. -/
theorem Inv.published_own (h : w.Inv) {a : SinkAction} (hstep : w.step a = some w') {p : PathBuf}
    (hp : w.published a.receive = some p) :
    w'.published a.receive = some p ∧ ∀ i, w.File a.receive p i →
      w'.File a.receive p i ∧ w'.fs.content i = w.fs.content i := by
  obtain ⟨r, hr, hpub⟩ := Option.bind_eq_some_iff.mp hp
  -- the receive stays published in whatever way it goes on
  have hset : ∀ (x : FileWorld) (r' : Receive), r'.published = some p →
      (x.setReceive a.receive r').published a.receive = some p := by
    intro x r' hr'
    simp [published, SinkWorld.setReceive, hr']
  -- a call that replaces nothing leaves the published file
  have hsame : ∀ {c fault i}, c.replaces = [] → w.File a.receive p i →
      (w.runCall a.receive fault c).2.File a.receive p i ∧
        (w.runCall a.receive fault c).2.fs.content i = w.fs.content i :=
    fun hc hfile => file_runCall hfile (by rw [hc]; exact List.not_mem_nil)
  cases a with
  -- a published receive is no new one
  | create u fileName => simp [step, show w.receives u = some r from hr] at hstep
  | call u fault uuid =>
    simp only [step, show w.receives u = some r from hr] at hstep
    cases r with
    | task s =>
      obtain ⟨file, phase, rfl, rfl, hphase⟩ := published_task hpub
      simp only [Option.bind_eq_some_iff, Option.map_eq_some_iff] at hstep
      obtain ⟨c, hc, x, hx, next, hnext, rfl⟩ := hstep
      cases hc
      cases hnext
      -- the commit has its rename behind it
      rcases hphase with rfl | rfl
      · cases hx
        refine ⟨hset _ _ ?_, fun i hfile => hsame rfl hfile⟩
        cases (w.runCall u fault (CommitPhase.openingDirectory.call file)).1 <;> rfl
      · cases hx
        exact ⟨hset _ _ rfl, fun i hfile => hsame rfl hfile⟩
    | droppingTemp | droppingReservation | detached | ended => simp at hstep
  | write u chunk =>
    simp only [step, show w.receives u = some r from hr] at hstep
    cases r with
    | task s =>
      obtain ⟨file, phase, rfl, _⟩ := published_task hpub
      simp at hstep
    | droppingTemp | droppingReservation | detached | ended => simp at hstep
  | writeCall u n fault =>
    -- nothing is under way to a complete file
    obtain ⟨x, hx, rfl⟩ := Option.map_eq_some_iff.mp hstep
    have hfits := h.fits u
    rw [show w.receives u = some r from hr] at hfits
    have hfull : w.Full u p := by
      cases r with
      | task s | detached s =>
        obtain ⟨file, phase, rfl, rfl, rfl | rfl⟩ := published_task hpub
        · exact hfits.2
        · exact hfits.2
      | droppingTemp | droppingReservation => contradiction
      | ended path =>
        cases hpub
        exact hfits
    obtain ⟨_, _, _, hnone⟩ := hfull
    cases hnone.symm.trans hx
  | commit u | abort u =>
    simp only [step, show w.receives u = some r from hr] at hstep
    cases r with
    | task s =>
      obtain ⟨file, phase, rfl, _⟩ := published_task hpub
      simp at hstep
    | droppingTemp | droppingReservation | detached | ended => simp at hstep
  -- dropping the future leaves the published file
  | drop u =>
    simp only [step, show w.receives u = some r from hr] at hstep
    cases r with
    | task s =>
      obtain ⟨file, phase, rfl, rfl, hphase⟩ := published_task hpub
      have hfits := h.fits u
      rw [show w.receives u = some _ from hr] at hfits
      have hnone : SinkTask.drop (.committing file phase) = none := by
        have htemp : file.temp = none := hfits.1
        simp [SinkTask.drop, AtomicPendingFile.drop, htemp]
      simp only [hnone, Option.some.injEq] at hstep
      subst hstep
      exact ⟨hset _ _ hpub, fun i hfile => ⟨hfile, rfl⟩⟩
    | droppingTemp | droppingReservation | detached | ended => simp at hstep
  | removal u fault =>
    simp only [step, show w.receives u = some r from hr] at hstep
    cases r with
    | droppingTemp | droppingReservation => contradiction
    | task | detached | ended => simp at hstep
  -- so does the call that it left behind
  | detachedCall u fault =>
    simp only [step, show w.receives u = some r from hr] at hstep
    cases r with
    | detached s =>
      obtain ⟨file, phase, rfl, rfl, hphase⟩ := published_task hpub
      obtain ⟨c, hc, rfl⟩ := Option.map_eq_some_iff.mp hstep
      cases hc
      rcases hphase with rfl | rfl
      · exact ⟨hset _ _ rfl, fun i hfile => hsame rfl hfile⟩
      · exact ⟨hset _ _ rfl, fun i hfile => hsame rfl hfile⟩
    | task | droppingTemp | droppingReservation | ended => simp at hstep

/-- What is published stays published, and as it is. -/
theorem Inv.published_step (h : w.Inv) {a : SinkAction} (hstep : w.step a = some w') {p : PathBuf}
    (hp : w.published u = some p) :
    w'.published u = some p ∧ ∀ i, w.File u p i → w'.File u p i ∧
      w'.fs.content i = w.fs.content i := by
  by_cases hu : u = a.receive
  · subst hu
    exact h.published_own hstep hp
  · have hothers := (h.ownStep hstep).others
    refine ⟨?_, (hothers.sameOwn hu).file p⟩
    rw [published, hothers.receives u hu]
    exact hp

/-- Every step keeps all whole files. -/
theorem Inv.keeps_step (h : w.Inv) {a : SinkAction} (hstep : w.step a = some w') : w.Keeps w' := by
  rintro p e ⟨hentry, hsettled⟩
  -- the file is nobody's, or it has been published
  rcases hsettled with hforeign | ⟨u, hu⟩
  · have hothers := (h.ownStep hstep).others
    have hkept : w'.fs.entry p = some e := by
      refine hothers.entry p e hentry fun i hfile => ?_
      have hnone := hforeign i (Option.some.inj (hentry.symm.trans hfile.1))
      cases hnone.symm.trans hfile.2
    have hlt : ∀ i, e = .file i → i < w.fs.next := fun i hi => w.fs.used p i (hi ▸ hentry)
    refine ⟨⟨hkept, .inl fun i hi => ?_⟩, fun i hi => ?_⟩
    · rw [hothers.owner i (hlt i hi), hforeign i hi]
    · refine hothers.content i (hlt i hi) fun howner => ?_
      cases (hforeign i hi).symm.trans howner
  · obtain ⟨hu', hkept⟩ := h.published_step hstep hu
    obtain ⟨i, hfile, _⟩ := h.file_finalPath (finalPath_of_published hu)
    have he : e = .file i := Option.some.inj (hentry.symm.trans hfile.1)
    obtain ⟨hfile', hcontent⟩ := hkept i hfile
    refine ⟨⟨he ▸ hfile'.1, .inr ⟨u, hu'⟩⟩, fun j hj => ?_⟩
    cases he.symm.trans hj
    exact hcontent

/-- Two steps that keep all whole files, one after the other. -/
theorem Keeps.trans {w'' : FileWorld} (h : w.Keeps w') (h' : w'.Keeps w'') : w.Keeps w'' := by
  intro p e hp
  obtain ⟨hp', hcontent⟩ := h p e hp
  obtain ⟨hp'', hcontent'⟩ := h' p e hp'
  exact ⟨hp'', fun i hi => (hcontent' i hi).trans (hcontent i hi)⟩

/-- What is settled stays so, whatever the receives go on to do. -/
theorem Inv.keeps_run (h : w.Inv) {as : List SinkAction}
    (hrun : fileWorldSystem.exec w as = some w') :
    w.Keeps w' := by
  induction as generalizing w with
  | nil =>
    cases hrun
    exact fun p e hp => ⟨hp, fun _ _ => rfl⟩
  | cons a as ih =>
    simp only [TransitionSystem.exec_cons, Option.bind_eq_some_iff] at hrun
    obtain ⟨x, hx, hrun⟩ := hrun
    have hstep : w.step a = some x := hx
    exact (h.keeps_step hstep).trans (ih (h.of_ownStep (h.ownStep hstep)) hrun)

/-- Whatever the receives below a save directory have done so far: no two of them have one
    final path, a reader of a final path sees the empty reservation or the complete file, and
    nothing that was there before, has been committed, or belongs to another receive is ever
    lost. -/
theorem no_loss (h : fileWorldSystem.Reachable w) :
    w.DistinctFinalPaths ∧ w.ReadersSeeWhole ∧
      (∀ as w', fileWorldSystem.exec w as = some w' → w.Keeps w') ∧
      ∀ a w', fileWorldSystem.step w a = some w' → w.SparesOthers a w' := by
  have hinv := inv_of_reachable h
  refine ⟨?_, ?_, fun as w' hrun => hinv.keeps_run hrun, ?_⟩
  · intro u v p hu hv
    obtain ⟨i, hi, _⟩ := hinv.file_finalPath hu
    obtain ⟨j, hj, _⟩ := hinv.file_finalPath hv
    -- a file has one creator
    cases hi.1.symm.trans hj.1
    exact Option.some.inj (hi.2.symm.trans hj.2)
  · intro u p hp
    obtain ⟨i, hfile, hread⟩ := hinv.file_finalPath hp
    exact ⟨i, hfile.1, hread⟩
  · intro a w' hstep v p i hv hentry howner
    obtain ⟨⟨hentry', howner'⟩, hcontent⟩ :=
      ((hinv.ownStep hstep).others.sameOwn hv).file p i ⟨hentry, howner⟩
    exact ⟨hentry', howner', hcontent⟩

end SinkWorld

namespace Scenario

/-- Receive `u` is offered as `a`, and has reserved its name after `taken` that are taken. -/
def reserve (u : ReceiveId) (taken : Nat) : List SinkAction :=
  .create u "a" :: List.replicate (taken + 2) (.call u none (toString u))

/-- Two receives of one name; the first has taken a byte, and waits to rename its file. -/
def twoReceives : List SinkAction :=
  reserve 0 0 ++ reserve 1 1 ++ [.write 0 [7], .writeCall 0 1 false, .commit 0, .call 0 none "",
    .call 0 none ""]

end Scenario

namespace SinkWorld

/-- Two receives of one name come to two paths, and a reader sees each of them whole. -/
theorem no_loss_two_receives :
    ∃ w, fileWorldSystem.exec (start ⟨[]⟩ Scenario.emptyRoot) Scenario.twoReceives = some w ∧
      w.finalPath 0 = some ⟨["a"]⟩ ∧ w.finalPath 1 = some ⟨["a (1)"]⟩ ∧
      w.DistinctFinalPaths ∧ w.ReadersSeeWhole ∧
      (∀ as w', fileWorldSystem.exec w as = some w' → w.Keeps w') ∧
      ∀ a w', fileWorldSystem.step w a = some w' → w.SparesOthers a w' := by
  have hrun : (fileWorldSystem.exec (start ⟨[]⟩ Scenario.emptyRoot) Scenario.twoReceives).any (fun w =>
      w.finalPath 0 = some ⟨["a"]⟩ && w.finalPath 1 = some ⟨["a (1)"]⟩) = true := by decide
  obtain ⟨w, hw, hpaths⟩ := (Option.any_eq_true _ _).mp hrun
  simp only [Bool.and_eq_true, decide_eq_true_eq] at hpaths
  have hstart : fileWorldSystem.Reachable (start ⟨[]⟩ Scenario.emptyRoot) := .init ⟨_, _, rfl⟩
  exact ⟨w, hw, hpaths.1, hpaths.2, no_loss (hstart.exec hw)⟩

end SinkWorld

end LocalSend
