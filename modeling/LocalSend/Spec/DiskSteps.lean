import LocalSend.Server.DefaultReceiver
import LocalSend.Spec.UploadOutcome

/-!
# What one step on the file system can do

Inversion of `DiskWorld.step`, and the simulation that carries every invariant of the
receiver over to the receiver with the default sink: a step is at most two steps of the
receiver, the second one the answer to a name that `create` refuses.

## Key results

- `step_disk`: inversion of a step
- `invariant_world`: every invariant of the receiver is one of the receiver on its disk
- `simulation_world`: the receiver on its disk simulates the receiver
-/

namespace LocalSend

/-- What an upload uses the sink for in a given phase. -/
inductive SinkUse where
  | creating
  | pending
  | committing
  | aborting
  | done
deriving DecidableEq

def UploadPhase.sinkUse : UploadPhase → SinkUse
  | .creating => .creating
  | .streaming | .writing _ | .reporting | .flushing | .validated | .surrendering
  | .rejecting _ _ true => .pending
  | .committing => .committing
  | .aborting _ => .aborting
  | .recording _ | .rejecting _ _ false | .answered _ => .done

namespace DiskWorld

/-- The steps from `d`. -/
inductive DiskStep (sha256 : List UInt8 → String) (d : DiskWorld) : DiskAction → DiskWorld → Prop
  | other {a w'} (hstep : d.world.step sha256 a = some w') (hother : ∀ u b, a ≠ .upload u b) :
    DiskStep sha256 d (.receiver a) { d with world := w' }
  /-- A request that is answered before it takes a lease. -/
  | turnedAway {u b w'} (hstep : d.world.step sha256 (.upload u b) = some w')
    (fresh : d.world.uploads u = none) (hsame : w'.uploads = d.world.uploads) :
    DiskStep sha256 d (.receiver (.upload u b)) (d.book w' (.upload u b))
  | began {u b w' t future} (hstep : d.world.step sha256 (.upload u b) = some w')
    (fresh : d.world.uploads u = none) (ht : w'.uploads u = some t)
    (hcreate : AtomicFileSink.create t.grant.saveDir t.grant.fileName = .ok future) :
    DiskStep sha256 d (.receiver (.upload u b))
      ((d.book w' (.upload u b)).setSink u (some (.creating future)))
  | refusedName {u b w' w'' t e} (hstep : d.world.step sha256 (.upload u b) = some w')
    (fresh : d.world.uploads u = none) (ht : w'.uploads u = some t)
    (hcreate : AtomicFileSink.create t.grant.saveDir t.grant.fileName = .error e)
    (hstep' : w'.step sha256 (.upload u (.sinkCreated (.error e))) = some w'') :
    DiskStep sha256 d (.receiver (.upload u b))
      ((d.book w' (.upload u b)).book w'' (.upload u (.sinkCreated (.error e))))
  /-- A section of an upload that asks nothing new of the sink. -/
  | moved {u b t t' l w'} (hstep : d.world.step sha256 (.upload u b) = some w')
    (ht : d.world.uploads u = some t) (ht' : w'.uploads u = some t')
    (hmove : UploadMove sha256 d.world (some t) b t' l)
    (hsame : t'.phase.sinkUse = t.phase.sinkUse) (hdropped : t'.dropped = t.dropped) :
    DiskStep sha256 d (.receiver (.upload u b)) (d.book w' (.upload u b))
  | wrote {u t w' chunk file temp}
    (hstep : d.world.step sha256 (.upload u (.chunkWritten true)) = some w')
    (ht : d.world.uploads u = some t) (phase : t.phase = .writing chunk)
    (hs : d.sinks u = some (.pending file)) (htemp : file.temp = some temp) :
    DiskStep sha256 d (.receiver (.upload u (.chunkWritten true)))
      { d.book w' (.upload u (.chunkWritten true)) with fs := d.fs.append temp chunk }
  | commits {u t w' file temp} (hstep : d.world.step sha256 (.upload u .publish) = some w')
    (ht : d.world.uploads u = some t)
    (ht' : w'.uploads u = some { t with handle := some (.permit t.fileId), phase := .committing })
    (phase : t.phase = .validated)
    (hs : d.sinks u = some (.pending file)) (htemp : file.temp = some temp) :
    DiskStep sha256 d (.receiver (.upload u .publish))
      ((d.book w' (.upload u .publish)).setSink u
        (some (.committing { file with temp := none } (.flushing temp))))
  | aborts {u t w' file amount status} (hstep : d.world.step sha256 (.upload u .reject) = some w')
    (ht : d.world.uploads u = some t) (phase : t.phase = .rejecting amount status true)
    (ht' : w'.uploads u = some { t with phase := .aborting status })
    (hs : d.sinks u = some (.pending file)) :
    DiskStep sha256 d (.receiver (.upload u .reject))
      ((d.book w' (.upload u .reject)).setSink u (some file.abort))
  | awaited {u fault uuid s c next} (hs : d.sinks u = some s) (hc : s.call = some c)
    (hnext : s.resume (d.runCall u fault c).1 uuid = some next) (hreturns : next.returns = none) :
    DiskStep sha256 d (.sinkCall u fault uuid) ((d.runCall u fault c).2.setSink u next.left)
  | returned {u fault uuid s c next b w'} (hs : d.sinks u = some s) (hc : s.call = some c)
    (hnext : s.resume (d.runCall u fault c).1 uuid = some next)
    (hreturns : next.returns = some b) (hstep : d.world.step sha256 (.upload u b) = some w') :
    DiskStep sha256 d (.sinkCall u fault uuid)
      (((d.runCall u fault c).2.setSink u next.left).book w' (.upload u b))
  | dropped {u faults w'} (hstep : d.world.step sha256 (.upload u .drop) = some w') :
    DiskStep sha256 d (.disconnect u faults) ((d.book w' (.upload u .drop)).dropSink u faults)
  | detached {u fault c} (hc : d.detached u = some c) :
    DiskStep sha256 d (.detachedCall u fault)
      { (d.runCall u fault c).2 with detached := Function.update d.detached u none }

variable {sha : List UInt8 → String} {d d' : DiskWorld}

/-- The receiver's step on the disk is its own step, with its books brought up to date. -/
theorem runReceiver_eq_some {a : Action} :
    d.runReceiver sha a = some d' ↔ ∃ w', d.world.step sha a = some w' ∧ d' = d.book w' a := by
  rw [runReceiver, Option.map_eq_some_iff]
  exact ⟨fun ⟨w', h, heq⟩ => ⟨w', h, heq.symm⟩, fun ⟨w', h, heq⟩ => ⟨w', h, heq.symm⟩⟩

/-- Keeping the books leaves the receiver as it is. -/
@[simp] theorem world_book (w' : World) (a : Action) : (d.book w' a).world = w' := by
  cases a <;> rfl

/-- Keeping the books touches no sink. -/
@[simp] theorem sinks_book (w' : World) (a : Action) : (d.book w' a).sinks = d.sinks := by
  cases a <;> rfl

/-- Keeping the books leaves the file system as it is. -/
@[simp] theorem fs_book (w' : World) (a : Action) : (d.book w' a).fs = d.fs := by
  cases a <;> rfl

/-- Keeping the books gives no path to anybody. -/
@[simp] theorem owner_book (w' : World) (a : Action) : (d.book w' a).owner = d.owner := by
  cases a <;> rfl

/-- Keeping the books detaches no call. -/
@[simp] theorem detached_book (w' : World) (a : Action) : (d.book w' a).detached = d.detached := by
  cases a <;> rfl

/-- Keeping the books renames nothing. -/
@[simp] theorem renames_book (w' : World) (a : Action) : (d.book w' a).renames = d.renames := by
  cases a <;> rfl

/-- Where a sink stands is no matter of the receiver. -/
@[simp] theorem world_setSink (u : TaskId) (s : Option SinkTask) :
    (d.setSink u s).world = d.world := rfl

/-- The sink of one upload is changed. -/
@[simp] theorem sinks_setSink (u : TaskId) (s : Option SinkTask) :
    (d.setSink u s).sinks = Function.update d.sinks u s := rfl

/-- Dropping a sink leaves the receiver as it is. -/
@[simp] theorem world_dropSink (u : TaskId) (faults : Bool × Bool) :
    (d.dropSink u faults).world = d.world := by
  unfold dropSink
  split
  · rfl
  · dsimp only
    split <;> rfl

/-- Dropping a sink leaves the ledger as it is. -/
@[simp] theorem ledger_dropSink (u : TaskId) (faults : Bool × Bool) :
    (d.dropSink u faults).ledger = d.ledger := by
  unfold dropSink
  split
  · rfl
  · dsimp only
    split <;> rfl

/-- Dropping a sink clamps nothing. -/
@[simp] theorem clamped_dropSink (u : TaskId) (faults : Bool × Bool) :
    (d.dropSink u faults).clamped = d.clamped := by
  unfold dropSink
  split
  · rfl
  · dsimp only
    split <;> rfl

/-- An upload has a pending file while its sink is pending. -/
theorem pendingFile_eq_some {u : TaskId} {file : AtomicPendingFile} :
    d.pendingFile u = some file ↔ d.sinks u = some (.pending file) := by
  unfold pendingFile
  split
  · rename_i f hs
    simp only [hs, Option.some.injEq, SinkTask.pending.injEq]
  · rename_i hne
    simp only [reduceCtorEq, false_iff]
    exact fun h => hne file h

/-- A section of an upload handler, and what it asks of the sink. -/
theorem step_askSink {u : TaskId} {b : UploadAction} {w' : World}
    (hstep : d.world.step sha (.upload u b) = some w')
    (hsink : Action.ofSink (.upload u b) = false)
    (hask : askSink sha d.world (d.book w' (.upload u b)) u b = some d') :
    DiskStep sha d (.receiver (.upload u b)) d' := by
  cases hold : d.world.uploads u with
  | none =>
    -- only `begin` makes a new upload
    have hsection := World.step_upload hstep
    have hmoves := World.uploadMove_of_uploadStep hsection
    cases hsection with
    | @begin_ x f token fresh =>
      replace hask : (d.book _ _).callCreate sha u = some d' := hask
      simp only [callCreate, world_book] at hask
      split at hask
      · rename_i hnone
        cases hask
        refine .turnedAway hstep hold ?_
        -- `begin` has refused: there is no upload to make a sink for
        rcases hmoves with ⟨_, hsame, _⟩ | ⟨t', l, _, heffect⟩
        · exact hsame
        · rw [heffect.uploads, Function.update_self] at hnone
          simp at hnone
      · rename_i t ht
        split at hask
        · cases hask
          exact .began hstep hold ht (by assumption)
        · rw [runReceiver_eq_some] at hask
          obtain ⟨w'', hstep', rfl⟩ := hask
          rw [world_book] at hstep'
          exact .refusedName hstep hold ht (by assumption) hstep'
    | sinkCreated ht | chunk ht | streamError ht | streamEnd ht | chunkWritten ht
    | reportProgress ht | flushed ht | interrupt ht | reject ht | aborted ht | publish ht
    | surrender ht | committed ht | record ht | drop ht => cases hold.symm.trans ht
  | some t =>
    rcases World.uploads_of_step hstep hold with ⟨_, hne⟩ | ⟨b', t', l, hb, live, ht', hmove, _⟩
    · exact absurd rfl (hne b)
    cases hb
    -- what is asked depends on the phases before and after, which the section gives
    have hphase : ((d.book w' (.upload u b)).world.uploads u).map UploadTask.phase =
        some t'.phase := by
      rw [world_book, ht', Option.map_some]
    have hphase' : (d.world.uploads u).map UploadTask.phase = some t.phase := by
      rw [hold, Option.map_some]
    unfold askSink at hask
    rw [hphase, hphase'] at hask
    cases hmove with
    | wrote phase =>
      rw [phase] at hask
      replace hask : (d.book _ _).writeChunk u _ = some d' := hask
      simp only [writeChunk, Option.map_eq_some_iff, Option.bind_eq_some_iff,
        pendingFile_eq_some, sinks_book] at hask
      obtain ⟨temp, ⟨file, hs, htemp⟩, rfl⟩ := hask
      rw [fs_book]
      exact .wrote hstep hold phase hs htemp
    | won phase =>
      simp only [Option.map_eq_some_iff, Option.bind_eq_some_iff, pendingFile_eq_some,
        sinks_book, AtomicPendingFile.commit] at hask
      obtain ⟨_, ⟨file, hs, temp, htemp, rfl⟩, rfl⟩ := hask
      exact .commits hstep hold ht' phase hs htemp
    | rejected phase =>
      simp only [Option.map_eq_some_iff, pendingFile_eq_some, sinks_book] at hask
      obtain ⟨file, hs, rfl⟩ := hask
      exact .aborts hstep hold phase ht' hs
    -- the answers of the sink are not sections of the handler
    | created | notCreated | aborted | committed | notCommitted | dropped => exact nomatch hsink
    | received phase | streamFailed phase | ended phase | notWritten phase | reported phase
    | invalid phase | valid phase | lost phase | surrendered phase | gaveUp phase
    | recorded phase | orphaned phase =>
      cases hask
      exact .moved hstep hold ht' (by constructor <;> assumption) (by rw [phase]; rfl) rfl
    | interrupted phase fired =>
      cases hask
      refine .moved hstep hold ht' (.interrupted phase fired) ?_ rfl
      cases hp : t.phase with
      | streaming | writing | reporting | flushing => rfl
      | _ =>
        rw [hp] at phase
        exact nomatch phase

/-- Every step is one of these. -/
theorem step_disk {a : DiskAction} (hstep : d.step sha a = some d') : DiskStep sha d a d' := by
  cases a with
  | receiver a =>
    simp only [step] at hstep
    split at hstep
    · simp at hstep
    rename_i hsink
    obtain ⟨d₁, hrun, hask⟩ := Option.bind_eq_some_iff.mp hstep
    obtain ⟨w', hstep', rfl⟩ := runReceiver_eq_some.mp hrun
    cases a with
    | upload u b => exact step_askSink hstep' (Bool.not_eq_true _ ▸ hsink) hask
    | prepare | release | cancel | sweep | stop | installCrosscopy | finishCrosscopy | env =>
      cases hask
      exact .other hstep' fun _ _ h => (by cases h)
  | sinkCall u fault uuid =>
    simp only [step, Option.bind_eq_some_iff] at hstep
    obtain ⟨s, hs, c, hc, next, hnext, hadvance⟩ := hstep
    simp only [advance] at hadvance
    split at hadvance
    · cases hadvance
      exact .awaited hs hc hnext (by assumption)
    · obtain ⟨w', hstep', rfl⟩ := runReceiver_eq_some.mp hadvance
      exact .returned hs hc hnext (by assumption) hstep'
  | disconnect u faults =>
    simp only [step, Option.map_eq_some_iff, runReceiver_eq_some] at hstep
    obtain ⟨_, ⟨w', hstep', rfl⟩, rfl⟩ := hstep
    exact .dropped hstep'
  | detachedCall u fault =>
    simp only [step, Option.map_eq_some_iff] at hstep
    obtain ⟨c, hc, rfl⟩ := hstep
    exact .detached hc

/-- The receiver below makes at most two steps. -/
theorem exec_world {a : DiskAction} (hstep : d.step sha a = some d') :
    ∃ as, (receiver sha).exec d.world as = some d'.world := by
  have hone : ∀ {a w'}, d.world.step sha a = some w' →
      ∃ as, (receiver sha).exec d.world as = some w' := by
    intro a w' h
    exact ⟨[a], by rw [TransitionSystem.exec_singleton]; exact h⟩
  cases step_disk hstep with
  | other h | turnedAway h | began h | moved h | wrote h | commits h | aborts h | dropped h =>
    simpa using hone h
  | @refusedName u b w' w'' t e h _ _ _ h' =>
    refine ⟨[.upload u b, .upload u (.sinkCreated (.error e))], ?_⟩
    have hfirst : (receiver sha).step d.world (.upload u b) = some w' := h
    rw [TransitionSystem.exec_cons, hfirst, Option.bind_some, TransitionSystem.exec_singleton,
      world_book]
    exact h'
  | awaited | detached => exact ⟨[], rfl⟩
  | returned _ _ _ _ h => simpa using hone h

/-- Every invariant of the receiver is one of the receiver on its disk. -/
theorem invariant_world {P : World → Prop} {a : DiskAction}
    (hP : ∀ w a w', P w → w.step sha a = some w' → P w') (h : P d.world)
    (hstep : d.step sha a = some d') : P d'.world := by
  obtain ⟨as, hrun⟩ := exec_world hstep
  exact (receiver sha).exec_induction P (fun w a w' => hP w a w') h hrun

/-- The receiver on its disk simulates the receiver whose sink may answer anything. -/
theorem simulation_world : (defaultReceiver sha).Simulation (receiver sha) DiskWorld.world where
  init := by
    rintro d ⟨c, fs, rfl⟩
    exact .init ⟨c, rfl⟩
  step _ _ _ _ hstep := exec_world hstep

/-- Uploads, handles, slots and `received` fit together on the disk as well. -/
theorem lifecycleInv_of_reachable (h : (defaultReceiver sha).Reachable d) :
    d.world.LifecycleInv sha :=
  World.lifecycleInv_of_reachable (simulation_world.reachable h)

end DiskWorld

end LocalSend
