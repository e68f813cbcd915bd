import LocalSend.Core.SinkWorld

/-!
# The steps of the receives

Inversion of `SinkWorld.step`, over any disk: what a step needs of its receive, and what it
does to it. The invariants of the receives are proved by cases on `ReceiveStep`, and never
unfold the step function.

## Key results

- `step_receive`: every step is one of the steps
- `fs_step`: what a step does to the disk
-/

namespace LocalSend

/-- The call a receive waits for. -/
def Receive.call : Receive → Option (FsCall PathBuf)
  | .task s | .detached s => s.call
  | .droppingTemp tempPath _ => some (.removeFile tempPath)
  | .droppingReservation finalPath => some (.removeFile finalPath)
  | .ended .. => none

namespace SinkWorld

variable {σ : Type} [Disk σ]

/-- The steps from `w`. -/
inductive ReceiveStep (w : SinkWorld σ) : SinkAction → SinkWorld σ → Prop
  | refused {u fileName e} (hreceive : w.receives u = none)
    (hcreate : AtomicFileSink.create w.saveDir fileName = .error e) :
    ReceiveStep w (.create u fileName) (w.setReceive u (.ended none (some e)))
  | began {u fileName future} (hreceive : w.receives u = none)
    (hcreate : AtomicFileSink.create w.saveDir fileName = .ok future) :
    ReceiveStep w (.create u fileName) (w.setReceive u (.task (.creating future)))
  | called {u fault uuid s c r next} (hreceive : w.receives u = some (.task s))
    (hc : s.call = some c) (hanswer : w.answerCall u s fault c = some r)
    (hnext : s.resume r.1 uuid = some next) :
    ReceiveStep w (.call u fault uuid) (r.2.setReceive u next.receive)
  | wrote {u chunk file temp} (hreceive : w.receives u = some (.task (.pending file)))
    (hidle : w.writes u = none) (hgood : w.failed u = false) (htemp : file.temp = some temp) :
    ReceiveStep w (.write u chunk) { w with
      writes := Function.update w.writes u (some ⟨temp, chunk⟩)
      accepted := Function.update w.accepted u (w.accepted u ++ chunk) }
  | ranWrite {u n fault x} (hx : w.writes u = some x) :
    ReceiveStep w (.writeCall u n fault) (w.runWrite u x n fault)
  | commits {u file temp} (hreceive : w.receives u = some (.task (.pending file)))
    (htemp : file.temp = some temp) :
    ReceiveStep w (.commit u)
      (w.setReceive u (.task (.committing { file with temp := none } (.flushing temp))))
  | aborts {u file} (hreceive : w.receives u = some (.task (.pending file))) :
    ReceiveStep w (.abort u) (w.setReceive u (.task file.abort))
  /-- The `Drop` of a future that has its two files. -/
  | drops {u s paths} (hreceive : w.receives u = some (.task s)) (hdrop : s.drop = some paths) :
    ReceiveStep w (.drop u) (w.setReceive u (.droppingTemp paths.1 paths.2))
  | detaches {u s} (hreceive : w.receives u = some (.task s)) (hdrop : s.drop = none) :
    ReceiveStep w (.drop u) (w.setReceive u (.detached s))
  | removedTemp {u fault tempPath finalPath}
    (hreceive : w.receives u = some (.droppingTemp tempPath finalPath)) :
    ReceiveStep w (.removal u fault) ((w.runCall u fault (.removeFile tempPath)).2.setReceive u
      (.droppingReservation finalPath))
  | removedReservation {u fault finalPath}
    (hreceive : w.receives u = some (.droppingReservation finalPath)) :
    ReceiveStep w (.removal u fault)
      ((w.runCall u fault (.removeFile finalPath)).2.setReceive u (.ended none none))
  | ranDetached {u fault s c} (hreceive : w.receives u = some (.detached s))
      (hc : s.call = some c) :
    ReceiveStep w (.detachedCall u fault)
      ((w.runCall u fault c).2.setReceive u (s.afterDetached (w.runCall u fault c).1))

variable {w w' : SinkWorld σ} {a : SinkAction}

/-- Every step is one of these. -/
theorem step_receive (hstep : w.step a = some w') : ReceiveStep w a w' := by
  cases a with
  | create u fileName =>
    simp only [step] at hstep
    -- a receive is created once, if its name is accepted
    split at hstep
    · simp at hstep
    · rename_i hreceive
      split at hstep <;> cases hstep
      · exact .refused hreceive (by assumption)
      · exact .began hreceive (by assumption)
  | call u fault uuid =>
    simp only [step] at hstep
    -- only a receive with a task makes calls
    split at hstep
    · rename_i s hreceive
      simp only [Option.bind_eq_some_iff, Option.map_eq_some_iff] at hstep
      obtain ⟨c, hc, r, hanswer, next, hnext, rfl⟩ := hstep
      exact .called hreceive hc hanswer hnext
    · simp at hstep
  | write u chunk =>
    simp only [step] at hstep
    -- a write needs a pending file that is neither writing nor failed
    split at hstep
    · rename_i file hreceive
      split at hstep
      · simp at hstep
      · rename_i hready
        simp only [Bool.or_eq_true, Option.isSome_iff_ne_none, not_or, ne_eq, not_not,
          Bool.not_eq_true] at hready
        obtain ⟨temp, htemp, rfl⟩ := Option.map_eq_some_iff.mp hstep
        exact .wrote hreceive hready.1 hready.2 htemp
    · simp at hstep
  -- the blocking write has a life of its own
  | writeCall u n fault =>
    obtain ⟨x, hx, rfl⟩ := Option.map_eq_some_iff.mp hstep
    exact .ranWrite hx
  | commit u =>
    -- commit and abort take the pending file over
    simp only [step] at hstep
    split at hstep
    · rename_i file hreceive
      simp only [AtomicPendingFile.commit, Option.map_eq_some_iff] at hstep
      obtain ⟨_, ⟨temp, htemp, rfl⟩, rfl⟩ := hstep
      exact .commits hreceive htemp
    · simp at hstep
  | abort u =>
    simp only [step] at hstep
    split at hstep
    · rename_i file hreceive
      cases hstep
      exact .aborts hreceive
    · simp at hstep
  | drop u =>
    simp only [step] at hstep
    -- what is dropped removes its files, or leaves its call behind
    split at hstep
    · rename_i s hreceive
      split at hstep <;> cases hstep
      · exact .drops hreceive (by assumption)
      · exact .detaches hreceive (by assumption)
    · simp at hstep
  | removal u fault =>
    -- a removal is of the temporary file or of the reservation
    simp only [step] at hstep
    split at hstep
    · rename_i hreceive
      cases hstep
      exact .removedTemp hreceive
    · rename_i hreceive
      cases hstep
      exact .removedReservation hreceive
    · simp at hstep
  | detachedCall u fault =>
    simp only [step] at hstep
    -- a call that was left behind still runs
    split at hstep
    · rename_i s hreceive
      obtain ⟨c, hc, rfl⟩ := Option.map_eq_some_iff.mp hstep
      exact .ranDetached hreceive hc
    · simp at hstep

/-- What a step does to the disk: nothing, its receive's call, or some bytes of its write. -/
theorem fs_step (hstep : w.step a = some w') :
    w'.saveDir = w.saveDir ∧
    (w'.fs = w.fs ∨
    (∃ r c fault, w.receives a.receive = some r ∧ r.call = some c ∧
      w'.fs = (Disk.answer w.fs fault c).2) ∨
    ∃ x n, w.writes a.receive = some x ∧ w'.fs = Disk.append w.fs x.inode (x.rest.take n)) := by
  cases step_receive hstep with
  | refused | began | wrote | commits | aborts | drops | detaches => exact ⟨rfl, .inl rfl⟩
  | @called u fault uuid s c r next hreceive hc hanswer =>
    unfold answerCall at hanswer
    split at hanswer
    · -- the flush of `commit` may be told of a failed write without a call
      split at hanswer
      · simp at hanswer
      · split at hanswer <;> cases hanswer
        · exact ⟨rfl, .inl rfl⟩
        · exact ⟨rfl, .inr (.inl ⟨_, c, fault, hreceive, hc, rfl⟩)⟩
    · cases hanswer
      exact ⟨rfl, .inr (.inl ⟨_, c, fault, hreceive, hc, rfl⟩)⟩
  -- a write appends, any other call is answered by the file system
  | @ranWrite u n fault x hx => exact ⟨rfl, .inr (.inr ⟨x, n, hx, rfl⟩)⟩
  | @removedTemp u fault _ _ hreceive | @removedReservation u fault _ hreceive =>
    exact ⟨rfl, .inr (.inl ⟨_, _, fault, hreceive, rfl, rfl⟩)⟩
  | @ranDetached u fault s c hreceive hc =>
    exact ⟨rfl, .inr (.inl ⟨_, c, fault, hreceive, hc, rfl⟩)⟩

end SinkWorld

end LocalSend
