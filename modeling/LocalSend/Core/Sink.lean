import LocalSend.ForStd.Utf8Text
import LocalSend.PathSafety

/-!
# The default sink

Model of `AtomicFileSink` and `AtomicPendingFile` in `src/core/sink.rs`, one
file-system call at a time. Each `await` on `tokio::fs` hands one call to a blocking
thread. `SinkTask.call` is the call a suspended future waits for, and `SinkTask.resume`
runs the code from its answer to the next call.
-/

namespace LocalSend

/-- The longest single path component the common filesystems accept. -/
def maxComponentBytes : Nat := 255

/-- How many ` (n)` variants to try before giving up on a colliding name. -/
def maxCollisionAttempts : Nat := 1024

/-- Why a receive destination could not be created, kept, or published. -/
inductive SinkError where
  | rejected (reason : String)
  | failed (reason : String)
deriving DecidableEq, Repr

/-- `Path::display`; the paths are absolute. -/
def PathBuf.display (path : PathBuf) : String := "/" ++ String.intercalate "/" path.components

/-- A character of a text in `{:?}`. Of those beyond ASCII the standard library also escapes the
    ones that are not printable. -/
def escapeDebug (c : Char) : String :=
  if c = '"' then "\\\""
  else if c = '\\' then "\\\\"
  else if c = '\t' then "\\t"
  else if c = '\n' then "\\n"
  else if c = '\r' then "\\r"
  else if c.toNat = 0 then "\\0"
  else if c.toNat < 32 ∨ c.toNat = 127 then
    "\\u\x7b" ++ String.ofList (Nat.toDigits 16 c.toNat) ++ "\x7d"
  else c.toString

/-- A text in `{:?}`. -/
def debugText (text : String) : String := "\"" ++ String.join (text.toList.map escapeDebug) ++ "\""

/-! ## Collision names -/

/-- `truncate_utf8`: the longest prefix of whole characters that fits. -/
def truncateUtf8 : List Char → Nat → List Char
  | [], _ => []
  | c :: cs, maxBytes =>
    if c.utf8Size ≤ maxBytes then c :: truncateUtf8 cs (maxBytes - c.utf8Size) else []

/-- Split before the last dot, unless that is the first character or there is none. -/
def splitExtension (cs : List Char) : List Char × List Char :=
  let afterDot := (cs.reverse.takeWhile fun c => c ≠ '.').length
  let index := cs.length - afterDot - 1
  if afterDot = cs.length ∨ index = 0 then (cs, []) else cs.splitAt index

/-- `collision_leaf`: `report.txt` at attempt 2 becomes `report (2).txt`. -/
def collisionLeaf (original : String) (attempt : Nat) : String :=
  let suffix := (" (" ++ toString attempt ++ ")").toList
  let split := splitExtension original.toList
  let (stem, extension) :=
    if Utf8Text.byteLen split.2 + Utf8Text.byteLen suffix ≥ maxComponentBytes then
      (original.toList, [])
    else split
  let budget := maxComponentBytes - Utf8Text.byteLen suffix - Utf8Text.byteLen extension
  String.ofList (truncateUtf8 stem budget ++ suffix ++ extension)

/-! ## Suspended futures -/

/-- Where an `AtomicFileSink::create` is suspended. -/
inductive CreatePhase where
  /-- Awaiting `symlink_metadata` of a component, with `rest` still to walk. -/
  | inspecting (current : PathBuf) (rest : List String)
  /-- Awaiting `create_dir` of a component that was not there. -/
  | makingDirectory (current : PathBuf) (rest : List String)
  /-- Awaiting the exclusive open of the candidate of an attempt. -/
  | reserving (attempt : Nat)
  /-- The name is reserved; awaiting the exclusive open of the temporary. -/
  | openingTemp (finalPath tempPath : PathBuf)
deriving DecidableEq

/-- The locals of `AtomicFileSink::create`. -/
structure CreateFuture where
  directory : PathBuf
  leaf : String
  phase : CreatePhase
deriving DecidableEq

structure AtomicPendingFile where
  /-- The open temporary, by its inode, until `commit` or `abort` takes it. -/
  temp : Option Nat
  tempPath : PathBuf
  finalPath : PathBuf
  directory : PathBuf
deriving DecidableEq

/-- Where an `AtomicPendingFile::commit` is suspended. -/
inductive CommitPhase where
  | flushing (temp : Nat)
  | syncing (temp : Nat)
  | renamingTemp
  /-- The two calls of `sync_directory`, once the file is visible. -/
  | openingDirectory
  | syncingDirectory
deriving DecidableEq

/-- Where an `AtomicPendingFile::abort` is suspended. -/
inductive AbortPhase where
  | removingTemp
  /-- Awaiting the removal of the reservation; `temp` is the result of the other. -/
  | removingReservation (temp : Except FsError Unit)

/-- What an upload holds of the sink: a future, or the pending receive. -/
inductive SinkTask where
  | creating (future : CreateFuture)
  | pending (file : AtomicPendingFile)
  | committing (file : AtomicPendingFile) (phase : CommitPhase)
  | aborting (file : AtomicPendingFile) (phase : AbortPhase)

/-- What a future of the sink does when it is resumed: suspend again, or return. -/
inductive SinkStep where
  | awaits (s : SinkTask)
  | created (result : Except SinkError AtomicPendingFile)
  | committed (result : Except SinkError PathBuf)
  | aborted (result : Except SinkError Unit)

/-- The next component of `walk_or_create_directory`, or the first candidate name. -/
def CreateFuture.walk (directory : PathBuf) (leaf : String) (current : PathBuf) :
    List String → Except SinkError CreateFuture
  | [] => .ok ⟨directory, leaf, .reserving 0⟩
  | name :: rest =>
    if name = ".." then .error (.rejected "a path component that is not a plain name")
    else .ok ⟨directory, leaf, .inspecting (current.join [name]) rest⟩

/-- `AtomicFileSink::create` up to its first `await`. -/
def AtomicFileSink.create (saveDir : PathBuf) (fileName : String) :
    Except SinkError CreateFuture :=
  match safeJoin saveDir fileName with
  | .error reason => .error (.rejected reason)
  | .ok joined =>
    match joined.fileName with
    | none => .error (.rejected "a file name that is not text")
    | some leaf =>
      match joined.parent.stripPrefix saveDir with
      | none => .error (.rejected "a destination outside the receive root")
      | some relative => CreateFuture.walk joined.parent leaf saveDir relative

/-- The candidate `reserve_free_name` tries at an attempt. -/
def CreateFuture.candidate (future : CreateFuture) (attempt : Nat) : PathBuf :=
  future.directory.join
    [if attempt = 0 then future.leaf else collisionLeaf future.leaf attempt]

/-- The call a future waits for. -/
def CreateFuture.call (future : CreateFuture) : FsCall PathBuf :=
  match future.phase with
  | .inspecting current _ => .symlinkMetadata current
  | .makingDirectory current _ => .createDir current
  | .reserving attempt => .openNew (future.candidate attempt)
  | .openingTemp _ tempPath => .openNew tempPath

def CommitPhase.call (file : AtomicPendingFile) : CommitPhase → FsCall PathBuf
  | .flushing temp | .syncing temp => .sync temp
  | .renamingTemp => .rename file.tempPath file.finalPath
  | .openingDirectory => .openDirectory file.directory
  | .syncingDirectory => .syncDirectory file.directory

def AbortPhase.call (file : AtomicPendingFile) : AbortPhase → FsCall PathBuf
  | .removingTemp => .removeFile file.tempPath
  | .removingReservation _ => .removeFile file.finalPath

/-- The file-system call a future waits for; a pending receive waits for none. -/
def SinkTask.call : SinkTask → Option (FsCall PathBuf)
  | .creating future => some future.call
  | .pending _ => none
  | .committing file phase => some (phase.call file)
  | .aborting file phase => some (phase.call file)

/-! ## Resuming -/

/-- `create` after an answer. `uuid` is what `Uuid::new_v4` draws when a name has been
    reserved. -/
def CreateFuture.resume (future : CreateFuture) (reply : Except FsError FsReply)
    (uuid : String) : SinkStep :=
  let walk (current : PathBuf) (rest : List String) : SinkStep :=
    match CreateFuture.walk future.directory future.leaf current rest with
    | .error e => .created (.error e)
    | .ok next => .awaits (.creating next)
  match future.phase with
  | .inspecting current rest =>
    match reply with
    | .ok (.metadata .directory) => walk current rest
    | .ok _ => .created (.error (.rejected
        (current.display ++ " is not a directory")))
    | .error .notFound =>
      .awaits (.creating { future with phase := .makingDirectory current rest })
    | .error e => .created (.error (.failed e.text))
  | .makingDirectory current rest =>
    match reply with
    | .ok _ => walk current rest
    | .error e => .created (.error (.failed e.text))
  | .reserving attempt =>
    match reply with
    | .ok _ =>
      let tempPath := future.directory.join [".localsend-" ++ uuid ++ ".part"]
      .awaits (.creating
        { future with phase := .openingTemp (future.candidate attempt) tempPath })
    | .error .alreadyExists =>
      if attempt < maxCollisionAttempts then
        .awaits (.creating { future with phase := .reserving (attempt + 1) })
      else .created (.error (.failed (toString maxCollisionAttempts ++ " names beginning "
        ++ debugText future.leaf ++ " are all taken")))
    | .error e => .created (.error (.failed e.text))
  | .openingTemp finalPath tempPath =>
    match reply with
    | .ok (.opened temp) =>
      .created (.ok ⟨some temp, tempPath, finalPath, future.directory⟩)
    | .ok _ => .created (.error (.failed FsError.other.text))
    | .error e => .created (.error (.failed e.text))

/-- `commit` up to its first `await`: the temporary is taken, which disarms the drop. -/
def AtomicPendingFile.commit (file : AtomicPendingFile) : Option SinkTask :=
  file.temp.map fun temp => .committing { file with temp := none } (.flushing temp)

/-- `commit` after an answer. -/
def CommitPhase.resume (file : AtomicPendingFile) (phase : CommitPhase)
    (reply : Except FsError FsReply) : SinkStep :=
  match phase, reply with
  | .flushing temp, .ok _ => .awaits (.committing file (.syncing temp))
  | .syncing _, .ok _ => .awaits (.committing file .renamingTemp)
  | .renamingTemp, .ok _ => .awaits (.committing file .openingDirectory)
  | .flushing _, .error e | .syncing _, .error e | .renamingTemp, .error e =>
    .committed (.error (.failed e.text))
  -- best effort: the data is already written and renamed
  | .openingDirectory, .ok _ => .awaits (.committing file .syncingDirectory)
  | .openingDirectory, .error _ | .syncingDirectory, _ => .committed (.ok file.finalPath)

/-- `abort` up to its first `await`. -/
def AtomicPendingFile.abort (file : AtomicPendingFile) : SinkTask :=
  .aborting { file with temp := none } .removingTemp

/-- `abort` after an answer. -/
def AbortPhase.resume (file : AtomicPendingFile) (phase : AbortPhase)
    (reply : Except FsError FsReply) : SinkStep :=
  let result := reply.map fun _ => ()
  match phase with
  | .removingTemp => .awaits (.aborting file (.removingReservation result))
  | .removingReservation temp =>
    match temp, result with
    | .ok _, .ok _ => .aborted (.ok ())
    | .error e, _ | .ok _, .error e => .aborted (.error (.failed e.text))

/-- A future of the sink is resumed with the answer to its call. -/
def SinkTask.resume (s : SinkTask) (reply : Except FsError FsReply) (uuid : String) :
    Option SinkStep :=
  match s with
  | .creating future => some (future.resume reply uuid)
  | .pending _ => none
  | .committing file phase => some (phase.resume file reply)
  | .aborting file phase => some (phase.resume file reply)

/-! ## Dropping -/

/-- `Drop for AtomicPendingFile`: what `remove_file` is called on, unless the temporary was
    taken. Errors are ignored. -/
def AtomicPendingFile.drop (file : AtomicPendingFile) : Option (PathBuf × PathBuf) :=
  if file.temp.isSome then some (file.tempPath, file.finalPath) else none

/-- What dropping an upload's part in the sink removes: a `create` under way has no pending
    file yet. -/
def SinkTask.drop : SinkTask → Option (PathBuf × PathBuf)
  | .creating _ => none
  | .pending file | .committing file _ | .aborting file _ => file.drop

end LocalSend
