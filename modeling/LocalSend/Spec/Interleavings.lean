import LocalSend.Spec.SequentialCreates
import LocalSend.Spec.SinkSafety
import Mathlib.Algebra.Order.BigOperators.Group.List
import Mathlib.Algebra.Order.Group.Nat

/-!
# Interleavings of creates

The `create` calls of a set below one save directory, interleaved call by call. Every
interleaving comes to an end, at which each of the calls has returned; and when two of the calls
need a directory that is missing, both can find it missing before one of them makes it.

## Key results

- `Interleaving.induction`: what every call keeps holds along every interleaving
- `Interleaving.length_le`: no interleaving goes on for ever
- `exists_failed_of_shareMissing`: two calls that need the same missing directory can collide
-/

namespace LocalSend

namespace CreateCalls

variable (calls : CreateCalls)

/-- What the calls do: they begin, and make their file-system calls, none of which the device
    fails. -/
def Acts : SinkAction → Prop
  | .create u fileName => u < calls.count ∧ fileName = calls.fileName u
  | .call u fault uuid => fault = none ∧ uuid = calls.uuid u
  | .write .. | .writeCall .. | .commit _ | .abort _ | .drop _ | .removal ..
  | .detachedCall .. => False

/-- The calls have been interleaved as `as` tells, and have left `w`. -/
def Interleaving (fs : FileSystem PathBuf) (as : List SinkAction) (w : FileWorld) : Prop :=
  (∀ a ∈ as, calls.Acts a) ∧ fileWorldSystem.exec (SinkWorld.start calls.saveDir fs) as = some w

/-- Call `u` has its pending file. -/
def Succeeded (w : FileWorld) (u : ReceiveId) : Prop :=
  ∃ file, w.receives u = some (.task (.pending file))

/-- Call `u` has returned an error. -/
def Failed (w : FileWorld) (u : ReceiveId) : Prop :=
  ∃ e, w.receives u = some (.ended none (some e))

/-- The calls all succeed, however they are interleaved. -/
def SucceedInEveryInterleaving (fs : FileSystem PathBuf) : Prop :=
  ∀ as w, calls.Interleaving fs as w → (∀ a, calls.Acts a → fileWorldSystem.step w a = none) →
    ∀ u, u < calls.count → Succeeded w u

/-- Two calls that need the same directory, which is not there. -/
def ShareMissing (fs : FileSystem PathBuf) (u v : ReceiveId) : Prop :=
  ∃ p, calls.Enters u p ∧ calls.Enters v p ∧ fs.entry p = none

/-! ## One step of an interleaving -/

/-- A call is to begin, is under way, or has returned. -/
structure Under (w : FileWorld) : Prop where
  saveDir : w.saveDir = calls.saveDir
  receives : ∀ u r, w.receives u = some r → u < calls.count ∧
    ((∃ future, r = .task (.creating future)) ∨ Succeeded w u ∨ Failed w u)

/-- Call `u` begins, is refused at once, or goes on after one file-system call. -/
inductive CallStep (w : FileWorld) (u : ReceiveId) : FileWorld → Prop
  | begun {future} (hnew : w.receives u = none)
    (hcreate : AtomicFileSink.create calls.saveDir (calls.fileName u) = .ok future) :
    CallStep w u (w.setReceive u (.task (.creating future)))
  | refused {e} (hnew : w.receives u = none)
    (hcreate : AtomicFileSink.create calls.saveDir (calls.fileName u) = .error e) :
    CallStep w u (w.setReceive u (.ended none (some e)))
  | resumed {future} (hr : w.receives u = some (.task (.creating future))) :
    CallStep w u ((w.runCall u none future.call).2.setReceive u
      (future.resume (w.fs.answer none future.call).1 (calls.uuid u)).receive)

variable {calls} {fs : FileSystem PathBuf} {w w' : FileWorld} {u v : ReceiveId} {a : SinkAction}

/-- A `create` that is resumed is suspended again, or has returned. -/
theorem receive_resume (future : CreateFuture) (reply : Except FsError FsReply) (uuid : String) :
    (∃ next, (future.resume reply uuid).receive = .task (.creating next)) ∨
      (∃ file, (future.resume reply uuid).receive = .task (.pending file)) ∨
      ∃ e, (future.resume reply uuid).receive = .ended none (some e) := by
  -- a walk goes on or is refused
  have hwalk : ∀ current rest,
      (∃ next, (future.walkOn current rest).receive = .task (.creating next)) ∨
      ∃ e, (future.walkOn current rest).receive = .ended none (some e) := by
    intro current rest
    unfold CreateFuture.walkOn
    split
    · exact .inr ⟨_, rfl⟩
    · exact .inl ⟨_, rfl⟩
  unfold CreateFuture.resume
  split
  · split
    · exact (hwalk _ _).imp_right .inr
    · exact .inr (.inr ⟨_, rfl⟩)
    · exact .inl ⟨_, rfl⟩
    · exact .inr (.inr ⟨_, rfl⟩)
  · split
    · exact (hwalk _ _).imp_right .inr
    · exact .inr (.inr ⟨_, rfl⟩)
  · split
    · exact .inl ⟨_, rfl⟩
    · split
      · exact .inl ⟨_, rfl⟩
      · exact .inr (.inr ⟨_, rfl⟩)
    · exact .inr (.inr ⟨_, rfl⟩)
  · split
    · exact .inr (.inl ⟨_, rfl⟩)
    · exact .inr (.inr ⟨_, rfl⟩)
    · exact .inr (.inr ⟨_, rfl⟩)

/-- A step of an interleaving is a step of one of its calls. -/
theorem Under.callStep (h : calls.Under w) (hact : calls.Acts a)
    (hstep : fileWorldSystem.step w a = some w') :
    ∃ u, u < calls.count ∧ calls.CallStep w u w' := by
  have hstep : w.step a = some w' := hstep
  cases a with
  | create u fileName =>
    obtain ⟨hcall, rfl⟩ := hact
    simp only [SinkWorld.step, h.saveDir] at hstep
    split at hstep
    · simp at hstep
    · rename_i hnew
      split at hstep <;> rename_i hcreate <;> cases hstep
      · exact ⟨u, hcall, .refused hnew hcreate⟩
      · exact ⟨u, hcall, .begun hnew hcreate⟩
  | call u fault uuid =>
    obtain ⟨rfl, rfl⟩ := hact
    simp only [SinkWorld.step] at hstep
    split at hstep
    · rename_i s hr
      -- what is pending or has ended is not called
      obtain ⟨hcall, ⟨future, hs⟩ | ⟨file, hs⟩ | ⟨e, hs⟩⟩ := h.receives u _ hr
      · cases hs
        cases hstep
        exact ⟨u, hcall, .resumed hr⟩
      · cases Receive.task.inj (Option.some.inj (hr.symm.trans hs))
        cases hstep
      · cases hr.symm.trans hs
    · simp at hstep
  | write | writeCall | commit | abort | drop | removal | detachedCall => exact hact.elim

/-- Only the receive of the call changes. -/
theorem CallStep.receives_of_ne (h : calls.CallStep w u w') (hv : v ≠ u) :
    w'.receives v = w.receives v := by
  cases h <;> exact Function.update_of_ne hv _ _

/-- No call moves the save directory. -/
theorem CallStep.saveDir (h : calls.CallStep w u w') : w'.saveDir = w.saveDir := by
  cases h <;> rfl

/-- What becomes of the receive of a call. -/
theorem CallStep.receives_self (h : calls.CallStep w u w') :
    (∃ future, w'.receives u = some (.task (.creating future))) ∨ Succeeded w' u ∨ Failed w' u := by
  cases h with
  | begun => exact .inl ⟨_, SinkWorld.receives_setReceive_self ..⟩
  | refused => exact .inr (.inr ⟨_, SinkWorld.receives_setReceive_self ..⟩)
  | @resumed future hr =>
    unfold Succeeded Failed
    rw [SinkWorld.receives_setReceive_self]
    rcases receive_resume future (w.fs.answer none future.call).1 (calls.uuid u) with
      ⟨next, hnext⟩ | ⟨file, hnext⟩ | ⟨e, hnext⟩ <;> rw [hnext]
    · exact .inl ⟨next, rfl⟩
    · exact .inr (.inl ⟨file, rfl⟩)
    · exact .inr (.inr ⟨e, rfl⟩)

/-- A step of a call leaves every call under the save directory. -/
theorem Under.next (h : calls.Under w) (hcall : u < calls.count) (hstep : calls.CallStep w u w') :
    calls.Under w' where
  saveDir := hstep.saveDir.trans h.saveDir
  receives v r hr := by
    by_cases hv : v = u
    · subst hv
      refine ⟨hcall, ?_⟩
      rcases hstep.receives_self with ⟨future, hfuture⟩ | hreturned
      · exact .inl ⟨future, Option.some.inj (hr.symm.trans hfuture)⟩
      · exact .inr hreturned
    · have hsame := hstep.receives_of_ne hv
      obtain ⟨hcall', hstate⟩ := h.receives v r (hsame ▸ hr)
      refine ⟨hcall', ?_⟩
      unfold Succeeded Failed
      rw [hsame]
      exact hstate

/-- Before any call nothing is out of place. -/
theorem under_start (fs : FileSystem PathBuf) : calls.Under (SinkWorld.start calls.saveDir fs) where
  saveDir := rfl
  receives _ _ h := by cases h

/-- What every step of the calls keeps holds along every interleaving of them. -/
theorem Interleaving.induction {P : List SinkAction → FileWorld → Prop} {as : List SinkAction}
    (h : calls.Interleaving fs as w) (hstart : P [] (SinkWorld.start calls.saveDir fs))
    (hstep : ∀ as w w' u a, calls.Under w → P as w → u < calls.count → calls.CallStep w u w' →
      P (as ++ [a]) w') : calls.Under w ∧ P as w := by
  induction as using List.reverseRecOn generalizing w with
  | nil =>
    obtain ⟨_, hrun⟩ := h
    cases hrun
    exact ⟨under_start fs, hstart⟩
  | append_singleton as a ih =>
    obtain ⟨hacts, hrun⟩ := h
    rw [TransitionSystem.exec_append, Option.bind_eq_some_iff] at hrun
    obtain ⟨w₀, hrun, hlast⟩ := hrun
    rw [TransitionSystem.exec_singleton] at hlast
    obtain ⟨hunder, hP⟩ := ih ⟨fun b hb => hacts b (List.mem_append_left _ hb), hrun⟩
    obtain ⟨u, hcall, hcallStep⟩ := hunder.callStep
      (hacts a (List.mem_append_right _ (List.mem_singleton_self a))) hlast
    exact ⟨hunder.next hcall hcallStep, hstep _ _ _ _ _ hunder hP hcall hcallStep⟩

/-! ## Every interleaving comes to an end -/

/-- How many steps are left of a call, at most. -/
def toGo (calls : CreateCalls) (u : ReceiveId) : Option Receive → Nat
  | none => 2 * (calls.chain u).length + maxCollisionAttempts + 3
  | some (.task s) => s.budget
  | some (.ended ..) | some (.droppingTemp ..) | some (.droppingReservation _)
  | some (.detached _) => 0

/-- How many steps are left of all the calls. -/
def remaining (calls : CreateCalls) (w : FileWorld) : Nat :=
  ((List.range calls.count).map fun u => calls.toGo u (w.receives u)).sum

/-- Every step of a call brings it nearer to its end. -/
theorem CallStep.toGo_lt (h : calls.CallStep w u w') :
    calls.toGo u (w'.receives u) < calls.toGo u (w.receives u) := by
  cases h with
  | @begun future hnew hcreate =>
    obtain ⟨chain, hchain, _, _, hwalk⟩ := AtomicFileSink.create_eq_ok hcreate
    have hchain' : calls.chain u = chain := by rw [CreateCalls.chain, hchain, Option.getD_some]
    rw [SinkWorld.receives_setReceive_self, hnew, toGo, toGo, hchain']
    unfold CreateFuture.walkOn at hwalk
    split at hwalk
    · simp at hwalk
    · rename_i next hnext
      cases hwalk
      exact SinkTask.budget_walk hnext
  | refused hnew hcreate =>
    rw [SinkWorld.receives_setReceive_self, hnew, toGo, toGo]
    omega
  | @resumed future hr =>
    -- a future that is resumed had something to go
    have hcall : (SinkTask.creating future).call = some future.call := rfl
    obtain ⟨hpos, _⟩ := SinkTask.resume_of_call (calls.uuid u) hcall (.ok .done)
    rw [SinkWorld.receives_setReceive_self, hr]
    generalize hnext : future.resume (w.fs.answer none future.call).1 (calls.uuid u) = next
    cases next with
    | awaits s' =>
      have hresume : (SinkTask.creating future).resume (w.fs.answer none future.call).1
          (calls.uuid u) =
          some (.awaits s') := congrArg some hnext
      exact (SinkTask.budget_lt hresume).1
    | created result => cases result <;> exact hpos
    | committed result => cases result <;> exact hpos
    | aborted result => cases result <;> exact hpos

/-- Every step of a call is one less to go. -/
theorem CallStep.remaining_lt (h : calls.CallStep w u w') (hcall : u < calls.count) :
    calls.remaining w' < calls.remaining w := by
  apply List.sum_lt_sum
  · intro v _
    by_cases hv : v = u
    · subst hv
      exact Nat.le_of_lt h.toGo_lt
    · rw [h.receives_of_ne hv]
  · exact ⟨u, List.mem_range.mpr hcall, h.toGo_lt⟩

/-- No interleaving is longer than what the calls have to go at its start. -/
theorem Interleaving.length_le {as : List SinkAction} (h : calls.Interleaving fs as w) :
    as.length ≤ calls.remaining (SinkWorld.start calls.saveDir fs) := by
  have hbound := (h.induction (P := fun as w => as.length + calls.remaining w ≤
    calls.remaining (SinkWorld.start calls.saveDir fs)) (by simp) ?_).2
  · omega
  · intro as w w' u a _ hle hcall hstep
    have hlt := hstep.remaining_lt hcall
    rw [List.length_append, List.length_singleton]
    omega

/-- In an interleaving that cannot go on, every call has returned. -/
theorem Interleaving.returned {as : List SinkAction} (h : calls.Interleaving fs as w)
    (hends : ∀ a, calls.Acts a → fileWorldSystem.step w a = none) (hcall : u < calls.count) :
    Succeeded w u ∨ Failed w u := by
  have hunder := (h.induction (P := fun _ _ => True) trivial (by intros; trivial)).1
  cases hr : w.receives u with
  | none =>
    have hstuck : w.step (.create u (calls.fileName u)) = none := hends (.create ..) ⟨hcall, rfl⟩
    simp only [SinkWorld.step, hr] at hstuck
    split at hstuck <;> simp at hstuck
  | some r =>
    obtain ⟨_, ⟨future, rfl⟩ | hreturned⟩ := hunder.receives u r hr
    · have hstuck : w.step (.call u none (calls.uuid u)) = none := hends (.call ..) ⟨rfl, rfl⟩
      simp only [SinkWorld.step, hr] at hstuck
      cases hstuck
    · exact hreturned

/-- An interleaving goes on with a step. -/
theorem Interleaving.snoc {as : List SinkAction} (h : calls.Interleaving fs as w)
    (hact : calls.Acts a) (hstep : fileWorldSystem.step w a = some w') :
    calls.Interleaving fs (as ++ [a]) w' := by
  constructor
  · intro b hb
    rcases List.mem_append.mp hb with hb | hb
    · exact h.1 b hb
    · rw [List.mem_singleton.mp hb]
      exact hact
  · rw [TransitionSystem.exec_append, h.2, Option.bind_some, TransitionSystem.exec_singleton, hstep]

/-- In an interleaving every call is under the save directory. -/
theorem Interleaving.under {as : List SinkAction} (h : calls.Interleaving fs as w) :
    calls.Under w :=
  (h.induction (P := fun _ _ => True) trivial (by intros; trivial)).1

/-- A call that has failed does nothing any more. -/
theorem CallStep.failed (h : calls.CallStep w u w') (hfailed : Failed w v) : Failed w' v := by
  have hne : v ≠ u := by
    rintro rfl
    obtain ⟨e, he⟩ := hfailed
    cases h with
    | begun hnew | refused hnew => cases hnew.symm.trans he
    | resumed hr => cases hr.symm.trans he
  unfold Failed
  rw [h.receives_of_ne hne]
  exact hfailed

/-- Every interleaving can be brought to its end. -/
theorem Interleaving.exists_end {as : List SinkAction} (h : calls.Interleaving fs as w) :
    ∃ as' w', calls.Interleaving fs as' w' ∧
      (∀ a, calls.Acts a → fileWorldSystem.step w' a = none) ∧ ∀ u, Failed w u → Failed w' u := by
  induction hn : calls.remaining w using Nat.strongRecOn generalizing as w with
  | ind n ih =>
    by_cases hends : ∀ a, calls.Acts a → fileWorldSystem.step w a = none
    · exact ⟨as, w, h, hends, fun u hu => hu⟩
    · push Not at hends
      obtain ⟨a, hact, hsome⟩ := hends
      obtain ⟨w₁, hstep⟩ := Option.ne_none_iff_exists'.mp hsome
      obtain ⟨u, hcall, hcallStep⟩ := h.under.callStep hact hstep
      obtain ⟨as', w', h', hends', hfailed⟩ := ih _ (hn ▸ hcallStep.remaining_lt hcall)
        (h.snoc hact hstep) rfl
      exact ⟨as', w', h', hends', fun v hv => hfailed v (hcallStep.failed hv)⟩

/-- A failed call in one interleaving refutes the success of all. -/
theorem not_succeed_of_failed {as : List SinkAction} (h : calls.Interleaving fs as w)
    (hfailed : Failed w u) : ¬calls.SucceedInEveryInterleaving fs := by
  intro hsucceed
  obtain ⟨as', w', h', hends, hkept⟩ := h.exists_end
  obtain ⟨e, he⟩ := hkept u hfailed
  have hcall := (h'.under.receives u _ he).1
  obtain ⟨file, hfile⟩ := hsucceed as' w' h' hends u hcall
  cases he.symm.trans hfile

/-! ## Two walks that meet -/

/-- The call a `create` waits for is made next. -/
theorem Interleaving.resume {as : List SinkAction} (h : calls.Interleaving fs as w)
    {future : CreateFuture} (hr : w.receives u = some (.task (.creating future))) :
    ∃ as' w', calls.Interleaving fs as' w' ∧ w'.fs = (w.fs.run future.call).2 ∧ w'.receives =
      Function.update w.receives u
        (some (future.resume (w.fs.run future.call).1 (calls.uuid u)).receive) := by
  have hstep : fileWorldSystem.step w (.call u none (calls.uuid u)) =
      some ((w.runCall u none future.call).2.setReceive u
        (future.resume (w.fs.answer none future.call).1 (calls.uuid u)).receive) := by
    show w.step (.call u none (calls.uuid u)) = _
    simp only [SinkWorld.step, hr]
    rfl
  have hact : calls.Acts (.call u none (calls.uuid u)) := ⟨rfl, rfl⟩
  exact ⟨_, _, h.snoc hact hstep, rfl, rfl⟩

/-- The first directory that is missing on the way to one that is. -/
theorem exists_first_missing (saveDir : PathBuf) {pre : List String} (hpre : 0 < pre.length)
    (hnone : fs.entry (saveDir.join pre) = none) :
    ∃ above name, above ++ [name] <+: pre ∧ fs.entry (saveDir.join (above ++ [name])) = none ∧
      ∀ p, OnChain saveDir above 0 p → fs.entry p ≠ none := by
  induction hn : pre.length using Nat.strongRecOn generalizing pre with
  | ind n ih =>
    obtain ⟨above, name, rfl⟩ : ∃ above name, pre = above ++ [name] :=
      ⟨_, _, (List.dropLast_append_getLast (List.ne_nil_of_length_pos hpre)).symm⟩
    by_cases hfirst : ∀ p, OnChain saveDir above 0 p → fs.entry p ≠ none
    · exact ⟨above, name, List.prefix_refl _, hnone, hfirst⟩
    · push Not at hfirst
      obtain ⟨_, ⟨pre', hlen, hpre', rfl⟩, hnone'⟩ := hfirst
      have hlt : pre'.length < n := by
        have hle := hpre'.length_le
        rw [List.length_append, List.length_singleton] at hn
        omega
      obtain ⟨above', name', hsub, hmissing⟩ := ih _ hlt hlen hnone' rfl
      exact ⟨above', name', hsub.trans (hpre'.trans (List.prefix_append _ _)), hmissing⟩

/-- The directories of a longer chain are those of the shorter one and the last. -/
theorem onChain_snoc {saveDir p : PathBuf} {pre : List String} {name : String} :
    OnChain saveDir (pre ++ [name]) 0 p ↔ p = saveDir.join (pre ++ [name]) ∨
      OnChain saveDir pre 0 p := by
  constructor
  · rintro ⟨pre', hlen, hpre', rfl⟩
    rcases List.prefix_concat_iff.mp hpre' with rfl | hpre'
    · exact .inl rfl
    · exact .inr ⟨pre', hlen, hpre', rfl⟩
  · rintro (rfl | ⟨pre', hlen, hpre', rfl⟩)
    · exact ⟨pre ++ [name], by simp, List.prefix_refl _, rfl⟩
    · exact ⟨pre', hlen, hpre'.trans (List.prefix_append _ _), rfl⟩

section

variable (hall : calls.SucceedInEveryOrder fs)

include hall

/-- A chain that is accepted never goes up. -/
theorem chain_plain (hcall : u < calls.count) : ".." ∉ calls.chain u := by
  obtain ⟨_, _, _, hchain⟩ := create_eq_ok_of_call hall hcall
  exact parentChain_plain hchain

/-- A call that has not begun can walk as far as there are directories. -/
theorem Interleaving.inspect {as : List SinkAction} (h : calls.Interleaving fs as w)
    (hfs : w.fs = fs) (hcall : u < calls.count) (hr : w.receives u = none) {pre rest : List String}
    {name : String} (hchain : calls.chain u = pre ++ name :: rest)
    (hdirs : ∀ p, OnChain calls.saveDir pre 0 p → fs.entry p = some .directory) :
    ∃ as' w' future, calls.Interleaving fs as' w' ∧ w'.fs = fs ∧
      w'.receives = Function.update w.receives u (some (.task (.creating future))) ∧
      future.phase = .inspecting (calls.saveDir.join (pre ++ [name])) rest := by
  have hplain := chain_plain hall hcall
  induction pre using List.reverseRecOn generalizing name rest with
  | nil =>
    obtain ⟨future, hcreate, _, hchain'⟩ := create_eq_ok_of_call hall hcall
    obtain ⟨_, hchain'', _, _, hwalk⟩ := AtomicFileSink.create_eq_ok hcreate
    cases hchain'.symm.trans hchain''
    have hname : name ≠ ".." := by
      rintro rfl
      exact hplain (by simp [hchain])
    rw [hchain] at hwalk
    simp only [CreateFuture.walkOn, CreateFuture.walk, List.nil_append, hname, if_false] at hwalk
    have hstep : fileWorldSystem.step w (.create u (calls.fileName u)) =
        some (w.setReceive u (.task (.creating future))) := by
      show w.step (.create u (calls.fileName u)) = _
      simp only [SinkWorld.step, hr, h.under.saveDir, hcreate]
    have hact : calls.Acts (.create u (calls.fileName u)) := ⟨hcall, rfl⟩
    refine ⟨_, _, future, h.snoc hact hstep, hfs, rfl, ?_⟩
    rw [SinkTask.creating.inj (SinkStep.awaits.inj hwalk)]
    rfl
  | append_singleton pre last ih =>
    -- the last of these directories is there, and the walk enters it
    obtain ⟨as', w', future, h', hfs', hreceives, hphase⟩ := ih
      (hchain.trans (List.append_cons pre last (name :: rest)).symm)
      (fun p hp => hdirs p (onChain_snoc.mpr (.inr hp)))
    have hr' : w'.receives u = some (.task (.creating future)) := by
      rw [hreceives, Function.update_self]
    obtain ⟨as'', w'', h'', hfs'', hreceives'⟩ := h'.resume hr'
    have hdir : fs.entry (calls.saveDir.join (pre ++ [last])) = some .directory :=
      hdirs _ (onChain_snoc.mpr (.inl rfl))
    have hrun : w'.fs.run future.call = (.ok (.metadata .directory), fs) := by
      rw [CreateFuture.call, hphase, hfs']
      simp [FileSystem.run, hdir]
    have hname : name ≠ ".." := by
      rintro rfl
      exact hplain (by simp [hchain])
    rw [hrun] at hfs'' hreceives'
    refine ⟨as'', w'', ⟨future.directory, future.leaf, _⟩, h'', hfs'', ?_, rfl⟩
    rw [hreceives', hreceives, Function.update_idem]
    simp [CreateFuture.resume, hphase, CreateFuture.walk, hname, SinkStep.receive, PathBuf.join]

/-- A call that has not begun can walk to the first directory that is missing. -/
theorem Interleaving.aboutToMake {as : List SinkAction} (h : calls.Interleaving fs as w)
    (hfs : w.fs = fs) (hcall : u < calls.count) (hr : w.receives u = none) {pre rest : List String}
    {name : String} (hchain : calls.chain u = pre ++ name :: rest)
    (hdirs : ∀ p, OnChain calls.saveDir pre 0 p → fs.entry p = some .directory)
    (hnone : fs.entry (calls.saveDir.join (pre ++ [name])) = none) :
    ∃ as' w' future, calls.Interleaving fs as' w' ∧ w'.fs = fs ∧
      w'.receives = Function.update w.receives u (some (.task (.creating future))) ∧
      future.phase = .makingDirectory (calls.saveDir.join (pre ++ [name])) rest := by
  obtain ⟨as', w', future, h', hfs', hreceives, hphase⟩ := h.inspect hall hfs hcall hr hchain hdirs
  have hr' : w'.receives u = some (.task (.creating future)) := by
    rw [hreceives, Function.update_self]
  obtain ⟨as'', w'', h'', hfs'', hreceives'⟩ := h'.resume hr'
  have hrun : w'.fs.run future.call = (.error .notFound, fs) := by
    rw [CreateFuture.call, hphase, hfs']
    simp [FileSystem.run, hnone]
  rw [hrun] at hfs'' hreceives'
  refine ⟨as'', w'', { future with phase := .makingDirectory _ rest }, h'', hfs'', ?_, rfl⟩
  rw [hreceives', hreceives, Function.update_idem]
  simp only [CreateFuture.resume, hphase, SinkStep.receive]

end

/-- A `create_dir` that fails ends its call. -/
theorem Interleaving.exists_failed {as : List SinkAction} (h : calls.Interleaving fs as w)
    {future : CreateFuture} (hr : w.receives u = some (.task (.creating future)))
    {current : PathBuf} {rest : List String} (hphase : future.phase = .makingDirectory current rest)
    {e : FsError} (hfails : (w.fs.run (.createDir current)).1 = .error e) :
    ∃ as' w', calls.Interleaving fs as' w' ∧ Failed w' u := by
  obtain ⟨as', w', h', _, hreceives⟩ := h.resume hr
  refine ⟨as', w', h', .failed e.text, ?_⟩
  rw [hreceives, Function.update_self, CreateFuture.call, hphase]
  simp only [hfails, CreateFuture.resume, hphase, SinkStep.receive]

/-- Two calls that need the same missing directory can both find it missing; only one of them
    makes it. -/
theorem exists_failed_of_shareMissing (hall : calls.SucceedInEveryOrder fs) (hu : u < calls.count)
    (hv : v < calls.count) (huv : u ≠ v) (hshare : calls.ShareMissing fs u v) :
    ∃ as w x, calls.Interleaving fs as w ∧ Failed w x := by
  obtain ⟨_, ⟨pre, hlen, hpre, rfl⟩, ⟨pre', _, hpre', hjoin⟩, hnone⟩ := hshare
  cases PathBuf.join_inj hjoin
  -- the first component that is missing is on the way of both
  obtain ⟨above, name, hsub, hmissing, habove⟩ := exists_first_missing calls.saveDir hlen hnone
  obtain ⟨restU, hrestU⟩ := hsub.trans hpre
  obtain ⟨restV, hrestV⟩ := hsub.trans hpre'
  have hchainU : calls.chain u = above ++ name :: restU := by simp [← hrestU]
  have hchainV : calls.chain v = above ++ name :: restV := by simp [← hrestV]
  -- what is above it is a directory, since the call succeeds on its own
  have hdirs : ∀ p, OnChain calls.saveDir above 0 p → fs.entry p = some .directory := by
    intro p hp
    obtain ⟨e, he⟩ := Option.ne_none_iff_exists'.mp (habove p hp)
    obtain ⟨_, hfits⟩ := Serial.nil.exists_fits hall hu List.not_mem_nil
    by_contra hdir
    obtain ⟨pre', hlen', hprefix', rfl⟩ := hp
    have henters : calls.Enters u (calls.saveDir.join pre') :=
      ⟨pre', hlen', hprefix'.trans ⟨name :: restU, hchainU.symm⟩, rfl⟩
    exact hfits.way _ henters (.inl ⟨e, he, fun heq => hdir (heq ▸ he)⟩)
  have hstart : calls.Interleaving fs [] (SinkWorld.start calls.saveDir fs) := ⟨by simp, rfl⟩
  -- first one call goes up to the point of making it, then the other
  obtain ⟨as₁, w₁, futureU, h₁, hfs₁, hreceives₁, hphaseU⟩ :=
    hstart.aboutToMake hall rfl hu rfl hchainU hdirs hmissing
  have hnew : w₁.receives v = none := by
    rw [hreceives₁, Function.update_of_ne (Ne.symm huv)]
    rfl
  obtain ⟨as₂, w₂, futureV, h₂, hfs₂, hreceives₂, hphaseV⟩ :=
    h₁.aboutToMake hall hfs₁ hv hnew hchainV hdirs hmissing
  have hrU : w₂.receives u = some (.task (.creating futureU)) := by
    rw [hreceives₂, Function.update_of_ne huv, hreceives₁, Function.update_self]
  rcases hrun : w₂.fs.run (.createDir (calls.saveDir.join (above ++ [name]))) with ⟨reply, fs'⟩
  -- either the first of the two fails to make it, or the second finds it made
  cases reply with
  | error e =>
    obtain ⟨as', w', h', hfailed⟩ := h₂.exists_failed hrU hphaseU (congrArg Prod.fst hrun)
    exact ⟨as', w', u, h', hfailed⟩
  | ok answer =>
    obtain ⟨_, _, _, rfl⟩ := FileSystem.run_createDir hrun
    obtain ⟨as₃, w₃, h₃, hfs₃, hreceives₃⟩ := h₂.resume hrU
    have hcallU : futureU.call = .createDir (calls.saveDir.join (above ++ [name])) := by
      rw [CreateFuture.call, hphaseU]
    have hrV : w₃.receives v = some (.task (.creating futureV)) := by
      rw [hreceives₃, Function.update_of_ne (Ne.symm huv), hreceives₂, Function.update_self]
    have hfails : (w₃.fs.run (.createDir (calls.saveDir.join (above ++ [name])))).1 =
        .error .alreadyExists := by
      rw [hfs₃, hcallU, hrun]
      simp [FileSystem.run]
    obtain ⟨as', w', h', hfailed⟩ := h₃.exists_failed hrV hphaseV hfails
    exact ⟨as', w', v, h', hfailed⟩

end CreateCalls

end LocalSend
