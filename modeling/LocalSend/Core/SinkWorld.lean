import LocalSend.Core.SinkRun
import LocalSend.ForStd.FileTree
import LocalSend.ForStd.TransitionSystem

/-!
# Many receives through the default sink

Any number of receives of `src/core/sink.rs` below one save directory, each a caller of
`create`, of the writer, and of `commit` or `abort`, or dropped on the way. One action is
one file-system call, or what a caller does between two of them.

The writer is a `tokio::fs::File`: a write is handed to a blocking thread and the caller goes
on at once. The next write and the flush wait for it, and tell the caller if it has failed; a
caller that was told so has no complete file to commit.
-/

namespace LocalSend

/-- What a sink asks of a disk: its calls, any of which may be failed, and the bytes that reach
    an open file. -/
class Disk (σ : Type) where
  answer : σ → Option FsError → FsCall PathBuf → Except FsError FsReply × σ
  append : σ → Nat → List UInt8 → σ

instance : Disk (FileSystem PathBuf) where
  answer := FileSystem.answer
  append := FileSystem.append

@[simp] theorem Disk.answer_eq (fs : FileSystem PathBuf) (fault : Option FsError)
    (c : FsCall PathBuf) : Disk.answer fs fault c = fs.answer fault c := rfl

@[simp] theorem Disk.append_eq (fs : FileSystem PathBuf) (inode : Nat) (bytes : List UInt8) :
    Disk.append fs inode bytes = fs.append inode bytes := rfl

instance : Disk FileTree where
  answer t fault c := t.answer fault (c.map PathBuf.components)
  append := FileTree.append

/-- Names one receive. -/
abbrev ReceiveId := Nat

/-- The write that a blocking thread is at: the open file, and what is not yet in it. -/
structure InFlight where
  inode : Nat
  rest : List UInt8
deriving DecidableEq

/-- What has become of a receive. -/
inductive Receive where
  /-- A suspended future, or the pending receive. -/
  | task (s : SinkTask)
  /-- `Drop` is running: before the first removal, and before the second. -/
  | droppingTemp (tempPath finalPath : PathBuf)
  | droppingReservation (finalPath : PathBuf)
  /-- The future was dropped; its call is still with a blocking thread. -/
  | detached (s : SinkTask)
  /-- Nothing more happens. `published` is the path its file was renamed to, `error` what an
      operation has returned. -/
  | ended (published : Option PathBuf) (error : Option SinkError)

structure SinkWorld (σ : Type) where
  saveDir : PathBuf
  fs : σ
  receives : ReceiveId → Option Receive
  writes : ReceiveId → Option InFlight
  /-- Whether a write of the receive has failed. -/
  failed : ReceiveId → Bool
  -- what follows is bookkeeping that no future reads
  /-- The receive that created an inode. -/
  owner : Nat → Option ReceiveId
  /-- Every byte its writer has taken. -/
  accepted : ReceiveId → List UInt8

/-- The path a future of `commit` has renamed its file to. -/
def SinkTask.published : SinkTask → Option PathBuf
  | .committing file phase =>
    match phase with
    | .flushing _ | .syncing _ | .renamingTemp => none
    | .openingDirectory | .syncingDirectory => some file.finalPath
  | .creating _ | .pending _ | .aborting .. => none

/-- What is left of a receive whose future has been resumed. -/
def SinkStep.receive : SinkStep → Receive
  | .awaits s => .task s
  | .created (.ok file) => .task (.pending file)
  | .committed (.ok path) => .ended (some path) none
  | .aborted (.ok _) => .ended none none
  | .created (.error e) | .committed (.error e) | .aborted (.error e) => .ended none (some e)

/-- What a detached call leaves: the rename of a `commit` publishes the file all the same. -/
def SinkTask.afterDetached (s : SinkTask) (reply : Except FsError FsReply) : Receive :=
  match s, reply with
  | .committing file .renamingTemp, .ok _ => .ended (some file.finalPath) none
  | s, _ => .ended s.published none

inductive SinkAction where
  | create (u : ReceiveId) (fileName : String)
  /-- The call a future waits for is made, and the future resumed with its answer. -/
  | call (u : ReceiveId) (fault : Option FsError) (uuid : String)
  /-- The writer takes a chunk. -/
  | write (u : ReceiveId) (chunk : List UInt8)
  /-- The first `n` bytes under way reach the file; after that the write may fail. -/
  | writeCall (u : ReceiveId) (n : Nat) (fault : Bool)
  | commit (u : ReceiveId)
  | abort (u : ReceiveId)
  | drop (u : ReceiveId)
  /-- The next removal of a `Drop`. -/
  | removal (u : ReceiveId) (fault : Option FsError)
  | detachedCall (u : ReceiveId) (fault : Option FsError)

/-- The receive an action is of. -/
def SinkAction.receive : SinkAction → ReceiveId
  | .create u _ | .call u .. | .write u _ | .writeCall u .. | .commit u | .abort u | .drop u
  | .removal u _ | .detachedCall u _ => u

namespace SinkWorld

variable {σ : Type} [Disk σ]

def setReceive (w : SinkWorld σ) (u : ReceiveId) (r : Receive) : SinkWorld σ :=
  { w with receives := Function.update w.receives u (some r) }

omit [Disk σ] in
@[simp] theorem receives_setReceive_self (w : SinkWorld σ) (u : ReceiveId) (r : Receive) :
    (w.setReceive u r).receives u = some r := Function.update_self ..

/-- One file-system call of receive `u`. -/
def runCall (w : SinkWorld σ) (u : ReceiveId) (fault : Option FsError) (c : FsCall PathBuf) :
    Except FsError FsReply × SinkWorld σ :=
  let r := Disk.answer w.fs fault c
  (r.1, { w with
    fs := r.2
    owner := match r.1 with
      | .ok (.opened i) => Function.update w.owner i (some u)
      | _ => w.owner })

/-- The call of `u`'s future. The flush of `commit` waits for the write under way, and fails
    if a write has failed. -/
def answerCall (w : SinkWorld σ) (u : ReceiveId) (s : SinkTask) (fault : Option FsError)
    (c : FsCall PathBuf) : Option (Except FsError FsReply × SinkWorld σ) :=
  match s with
  | .committing _ (.flushing _) =>
    if (w.writes u).isSome then none
    else if w.failed u then some (.error .other, w)
    else some (w.runCall u fault c)
  | _ => some (w.runCall u fault c)

/-- The bytes a write has under way reach the file, as far as it gets. -/
def runWrite (w : SinkWorld σ) (u : ReceiveId) (x : InFlight) (n : Nat) (fault : Bool) :
    SinkWorld σ :=
  let rest := x.rest.drop n
  { w with
    fs := Disk.append w.fs x.inode (x.rest.take n)
    writes := Function.update w.writes u (if fault || rest.isEmpty then none else
      some ⟨x.inode, rest⟩)
    failed := Function.update w.failed u (w.failed u || fault) }

/-- One step of the receives; `none` when the action is not enabled. -/
def step (w : SinkWorld σ) : SinkAction → Option (SinkWorld σ)
  | .create u fileName =>
    match w.receives u with
    | some _ => none
    | none =>
      match AtomicFileSink.create w.saveDir fileName with
      | .error e => some (w.setReceive u (.ended none (some e)))
      | .ok future => some (w.setReceive u (.task (.creating future)))
  | .call u fault uuid =>
    match w.receives u with
    | some (.task s) =>
      s.call.bind fun c => (w.answerCall u s fault c).bind fun r =>
        (s.resume r.1 uuid).map fun next => r.2.setReceive u next.receive
    | _ => none
  | .write u chunk =>
    match w.receives u with
    | some (.task (.pending file)) =>
      if (w.writes u).isSome || w.failed u then none
      else file.temp.map fun temp =>
        { w with
          writes := Function.update w.writes u (some ⟨temp, chunk⟩)
          accepted := Function.update w.accepted u (w.accepted u ++ chunk) }
    | _ => none
  | .writeCall u n fault => (w.writes u).map fun x => w.runWrite u x n fault
  | .commit u =>
    match w.receives u with
    | some (.task (.pending file)) => file.commit.map fun s => w.setReceive u (.task s)
    | _ => none
  | .abort u =>
    match w.receives u with
    | some (.task (.pending file)) => some (w.setReceive u (.task file.abort))
    | _ => none
  | .drop u =>
    match w.receives u with
    | some (.task s) =>
      match s.drop with
      | some paths => some (w.setReceive u (.droppingTemp paths.1 paths.2))
      | none => some (w.setReceive u (.detached s))
    | _ => none
  | .removal u fault =>
    match w.receives u with
    | some (.droppingTemp tempPath finalPath) =>
      some ((w.runCall u fault (.removeFile tempPath)).2.setReceive u
        (.droppingReservation finalPath))
    | some (.droppingReservation finalPath) =>
      some ((w.runCall u fault (.removeFile finalPath)).2.setReceive u (.ended none none))
    | _ => none
  | .detachedCall u fault =>
    match w.receives u with
    | some (.detached s) =>
      s.call.map fun c =>
        let r := w.runCall u fault c
        r.2.setReceive u (s.afterDetached r.1)
    | _ => none

/-- Over whatever is on the disk, before any receive. -/
def start (saveDir : PathBuf) (fs : σ) : SinkWorld σ where
  saveDir := saveDir
  fs := fs
  receives _ := none
  writes _ := none
  failed _ := false
  owner _ := none
  accepted _ := []

end SinkWorld

/-- The receives below one save directory that nothing else changes, in any interleaving. -/
def sinkSystem (σ : Type) [Disk σ] : TransitionSystem (SinkWorld σ) SinkAction where
  Init w := ∃ saveDir fs, w = SinkWorld.start saveDir fs
  step := SinkWorld.step

end LocalSend
