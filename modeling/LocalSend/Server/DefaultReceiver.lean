import LocalSend.Server.System

/-!
# The receiver with the default sink

The receiver of `Server.System` leaves open what a sink does between `create`, `commit`
and `abort` and their results. Here every upload writes through `AtomicFileSink` into
one file system, and each of those waits is taken apart into the file-system calls it
is made of.

A call takes effect when its future is resumed. The call a dropped future was waiting
for is already with a blocking thread: it takes effect later, and nobody sees its result.
-/

namespace LocalSend

/-- The receiver, the file system it writes to, and what its uploads hold of the sink. -/
structure DiskWorld where
  world : World
  fs : FileSystem PathBuf
  sinks : TaskId → Option SinkTask
  /-- The call of a dropped upload that is still with its blocking thread. -/
  detached : TaskId → Option (FsCall PathBuf)
  -- what follows is bookkeeping that no handler reads
  /-- The upload that created an inode. -/
  owner : Nat → Option TaskId
  /-- By how much the sections of an upload have moved `received_bytes`. -/
  ledger : TaskId → Int
  /-- Whether one of its progress reports or rollbacks was clamped. -/
  clamped : TaskId → Bool
  /-- The renames that made a file visible. -/
  renames : List (TaskId × PathBuf)

/-- What can happen: a section of the receiver that is not the result of a sink's future,
    the answer to such a future's call, a client that disconnects, and a detached call. -/
inductive DiskAction where
  | receiver (a : Action)
  | sinkCall (u : TaskId) (fault : Bool) (uuid : String)
  | disconnect (u : TaskId) (faults : Bool × Bool)
  | detachedCall (u : TaskId) (fault : Bool)

/-- By how much a section of upload `u` has moved the counter of its session. -/
def World.counterMoved (w w' : World) (u : TaskId) : Int :=
  match w'.uploads u with
  | none => 0
  | some t => w'.receivedBytes t.grant.sessionId - w.receivedBytes t.grant.sessionId

/-- Whether a section of an upload moves the counter by less than it means to. -/
def World.clamps (w : World) (t : UploadTask) (b : UploadAction) : Bool :=
  match b, t.phase with
  | .reportProgress, _ =>
    w.receivedBytes t.grant.sessionId + (t.body.bytesWritten - t.body.reported) > t.grant.totalBytes
  | .reject, .rejecting amount _ _ => amount > w.receivedBytes t.grant.sessionId
  | _, _ => false

/-- The actions of `Server.System` in which a future of the sink returns or is dropped. -/
def Action.ofSink : Action → Bool
  | .upload _ (.sinkCreated _) | .upload _ (.committed _) | .upload _ .aborted
  | .upload _ .drop => true
  | _ => false

/-- What an upload holds of the sink once a future has been resumed. -/
def SinkStep.left : SinkStep → Option SinkTask
  | .awaits s => some s
  | .created (.ok file) => some (.pending file)
  | .created (.error _) | .committed _ | .aborted _ => none

/-- The section of the upload that a future's result starts. -/
def SinkStep.returns : SinkStep → Option UploadAction
  | .awaits _ => none
  | .created result => some (.sinkCreated (result.map AtomicPendingFile.finalPath))
  | .committed result => some (.committed result.toOption)
  | .aborted _ => some .aborted

namespace DiskWorld

/-- Take over the receiver's new state, and book what an upload did to its counter. -/
def book (d : DiskWorld) (w' : World) : Action → DiskWorld
  | .upload u b =>
    { d with
      world := w'
      ledger := Function.update d.ledger u (d.ledger u + d.world.counterMoved w' u)
      clamped := Function.update d.clamped u
        (d.clamped u || (d.world.uploads u).any fun t => d.world.clamps t b) }
  | _ => { d with world := w' }

/-- One section of the receiver. -/
def runReceiver (sha256 : List UInt8 → String) (d : DiskWorld) (a : Action) : Option DiskWorld :=
  (d.world.step sha256 a).map fun w' => d.book w' a

/-- One file-system call of upload `u`. -/
def runCall (d : DiskWorld) (u : TaskId) (fault : Bool) (c : FsCall PathBuf) :
    Except FsError FsReply × DiskWorld :=
  let r := d.fs.attempt fault c
  (r.1, { d with
    fs := r.2
    owner := match r.1 with
      | .ok (.opened i) => Function.update d.owner i (some u)
      | _ => d.owner
    renames := match r.1, c with
      | .ok _, .rename _ q => d.renames ++ [(u, q)]
      | _, _ => d.renames })

def setSink (d : DiskWorld) (u : TaskId) (s : Option SinkTask) : DiskWorld :=
  { d with sinks := Function.update d.sinks u s }

/-- The pending receive upload `u` writes to. -/
def pendingFile (d : DiskWorld) (u : TaskId) : Option AtomicPendingFile :=
  match d.sinks u with
  | some (.pending file) => some file
  | _ => none

/-- Call `create`, up to its first `await`; a refused name is answered right away. -/
def callCreate (sha256 : List UInt8 → String) (d : DiskWorld) (u : TaskId) : Option DiskWorld :=
  match d.world.uploads u with
  | none => some d
  | some t =>
    match AtomicFileSink.create t.grant.saveDir t.grant.fileName with
    | .ok future => some (d.setSink u (some (.creating future)))
    | .error e => d.runReceiver sha256 (.upload u (.sinkCreated (.error e)))

/-- The bytes of a written chunk reach the temporary. -/
def writeChunk (d : DiskWorld) (u : TaskId) (chunk : List UInt8) : Option DiskWorld :=
  ((d.pendingFile u).bind AtomicPendingFile.temp).map fun temp =>
    { d with fs := d.fs.append temp chunk }

/-- What a section of upload `u` asks of the sink next; `w` is the receiver before it. -/
def askSink (sha256 : List UInt8 → String) (w : World) (d : DiskWorld) (u : TaskId)
    (b : UploadAction) : Option DiskWorld :=
  match b, (w.uploads u).map UploadTask.phase, (d.world.uploads u).map UploadTask.phase with
  | .begin_ .., _, _ => d.callCreate sha256 u
  | .chunkWritten true, some (.writing chunk), _ => d.writeChunk u chunk
  | .publish, _, some .committing =>
    ((d.pendingFile u).bind AtomicPendingFile.commit).map fun s => d.setSink u (some s)
  | .reject, _, some (.aborting _) =>
    (d.pendingFile u).map fun file => d.setSink u (some file.abort)
  | _, _, _ => some d

/-- A future of the sink has been resumed: it waits for another call, or returns to its
    upload. -/
def advance (sha256 : List UInt8 → String) (d : DiskWorld) (u : TaskId) (next : SinkStep) :
    Option DiskWorld :=
  match next.returns with
  | none => some (d.setSink u next.left)
  | some b => (d.setSink u next.left).runReceiver sha256 (.upload u b)

/-- The two removals of a drop, each of which may fail. -/
def removeBoth (d : DiskWorld) (u : TaskId) (faults : Bool × Bool) (paths : PathBuf × PathBuf) :
    DiskWorld :=
  let d := (d.runCall u faults.1 (.removeFile paths.1)).2
  (d.runCall u faults.2 (.removeFile paths.2)).2

/-- Drop what upload `u` holds of the sink; a call that is under way goes on. -/
def dropSink (d : DiskWorld) (u : TaskId) (faults : Bool × Bool) : DiskWorld :=
  match d.sinks u with
  | none => d
  | some s =>
    let d := { d.setSink u none with detached := Function.update d.detached u s.call }
    match s.drop with
    | none => d
    | some paths => d.removeBoth u faults paths

/-- One step of the receiver on its file system; `none` when the action is not enabled. -/
def step (sha256 : List UInt8 → String) (d : DiskWorld) : DiskAction → Option DiskWorld
  | .receiver a =>
    if a.ofSink then none
    else
      (d.runReceiver sha256 a).bind fun d' =>
        match a with
        | .upload u b => askSink sha256 d.world d' u b
        | _ => some d'
  | .sinkCall u fault uuid =>
    (d.sinks u).bind fun s => s.call.bind fun c =>
      let r := d.runCall u fault c
      (s.resume r.1 uuid).bind fun next => r.2.advance sha256 u next
  | .disconnect u faults =>
    (d.runReceiver sha256 (.upload u .drop)).map fun d' => d'.dropSink u faults
  | .detachedCall u fault =>
    (d.detached u).map fun c =>
      { (d.runCall u fault c).2 with detached := Function.update d.detached u none }

/-- The receiver as it is started, over whatever the disk holds. -/
def start (c : ServerConfig) (fs : FileSystem PathBuf) : DiskWorld where
  world := World.start c
  fs := fs
  sinks _ := none
  detached _ := none
  owner _ := none
  ledger _ := 0
  clamped _ := false
  renames := []

end DiskWorld

/-- The receiver with the default sink, on a file system nothing else changes. -/
def defaultReceiver (sha256 : List UInt8 → String) : TransitionSystem DiskWorld DiskAction where
  Init d := ∃ c fs, d = DiskWorld.start c fs
  step := DiskWorld.step sha256

end LocalSend
