import LocalSend.Core.Sink

/-!
# One operation of the default sink, on its own

What `create`, `commit` and `abort` of `src/core/sink.rs` come to when nothing else touches
the directory while they run: their calls are made one after another, and any of them may be
failed with any error.
-/

/-- Run one call, or fail it with an error of the device's choice. -/
def FileSystem.answer {κ : Type*} [DecidableEq κ] [ParentPath κ] (fs : FileSystem κ)
    (fault : Option FsError) (c : FsCall κ) : Except FsError FsReply × FileSystem κ :=
  match fault with
  | some e => (.error e, fs)
  | none => fs.run c

namespace LocalSend

/-- What has come of a future: the calls it waited for with their answers, how it returned, and
    the file system it leaves. -/
structure SinkRun where
  calls : List (SinkTask × Except FsError FsReply)
  result : SinkStep
  fs : FileSystem PathBuf

namespace SinkTask

/-- How many more calls a future waits for, at most. -/
def budget : SinkTask → Nat
  | .creating future =>
    match future.phase with
    | .inspecting _ rest => 2 * rest.length + maxCollisionAttempts + 4
    | .makingDirectory _ rest => 2 * rest.length + maxCollisionAttempts + 3
    | .reserving attempt => maxCollisionAttempts - attempt + 2
    | .openingTemp .. => 1
  | .pending _ => 0
  | .committing _ phase =>
    match phase with
    | .flushing _ => 5
    | .syncing _ => 4
    | .renamingTemp => 3
    | .openingDirectory => 2
    | .syncingDirectory => 1
  | .aborting _ phase =>
    match phase with
    | .removingTemp => 2
    | .removingReservation _ => 1

/-- Resume a future with the answers of `fs` until it returns. `fault n` is the error its
    `n`-th call is failed with. -/
def drive (uuid : String) (fault : Nat → Option FsError) :
    Nat → Nat → FileSystem PathBuf → SinkTask → SinkRun
  | 0, _, fs, s => ⟨[], .awaits s, fs⟩
  | fuel + 1, n, fs, s =>
    match s.call with
    | none => ⟨[], .awaits s, fs⟩
    | some c =>
      let r := fs.answer (fault n) c
      match s.resume r.1 uuid with
      | none => ⟨[], .awaits s, fs⟩
      | some (.awaits s') =>
        let rest := drive uuid fault fuel (n + 1) r.2 s'
        { rest with calls := (s, r.1) :: rest.calls }
      | some returned => ⟨[(s, r.1)], returned, r.2⟩

/-- A future alone on `fs`, from its `n`-th call on. -/
def runFrom (uuid : String) (fault : Nat → Option FsError) (n : Nat) (fs : FileSystem PathBuf)
    (s : SinkTask) : SinkRun := s.drive uuid fault s.budget n fs

end SinkTask

/-- `AtomicFileSink::create`, alone on `fs`. -/
def AtomicFileSink.createAlone (uuid : String) (fault : Nat → Option FsError)
    (fs : FileSystem PathBuf) (saveDir : PathBuf) (fileName : String) : SinkRun :=
  match AtomicFileSink.create saveDir fileName with
  | .error e => ⟨[], .created (.error e), fs⟩
  | .ok future => (SinkTask.creating future).runFrom uuid fault 0 fs

/-- The final path of the receive a `create` has made. -/
def SinkStep.createdPath : SinkStep → Option PathBuf
  | .created (.ok file) => some file.finalPath
  | .awaits _ | .created (.error _) | .committed _ | .aborted _ => none

/-- The error an operation has returned. -/
def SinkStep.error : SinkStep → Option SinkError
  | .created (.error e) | .committed (.error e) | .aborted (.error e) => some e
  | .awaits _ | .created (.ok _) | .committed (.ok _) | .aborted (.ok _) => none

/-- The path `create` finds for a name while no call fails. -/
def AtomicFileSink.pathFor (uuid : String) (fs : FileSystem PathBuf) (saveDir : PathBuf)
    (fileName : String) : Option PathBuf :=
  (createAlone uuid (fun _ => none) fs saveDir fileName).result.createdPath

end LocalSend
