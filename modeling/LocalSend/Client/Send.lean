import LocalSend.Client.Client
import LocalSend.Core.File
import LocalSend.Server.State

/-!
# The programs that send

`execute` of the `send` command (`src/cli/commands/send.rs`), and `send_file` and `send_text_message`
of the terminal application (`src/tui/app.rs`): what they offer, and what they do with the answer to
their offer. The three go through the uploads of an accepted offer one after the other.
-/

namespace LocalSend

/-! ## The offers -/

/-- `FileSource`: where the bytes of an offered file come from. -/
inductive FileSource where
  | path (path : PathBuf)
  | text (text : String)
deriving DecidableEq

/-- An argument of `send`: the path of something that exists, or a text. -/
inductive SendInput where
  | file (path : PathBuf) (length : Nat) (mimeType : String)
  | text (text : String)
deriving DecidableEq

def SendInput.source : SendInput → FileSource
  | .file path .. => .path path
  | .text message => .text message

/-- What `execute` offers for an argument, under the id that it draws. -/
def SendInput.metadata (id : FileId) : SendInput → FileMetadata
  | .file path length mimeType => buildFileMetadata id path length mimeType
  | .text message =>
    { id := id
      fileName := id.val ++ ".txt"
      size := (textBytes message).length
      fileType := "text/plain"
      sha256 := none
      preview := some message
      metadata := some ⟨none, none⟩ }

/-- A program that sends, with its arguments and the ids that it draws. -/
inductive SendProgram where
  | execute (inputs : List (FileId × SendInput))
  | sendTextMessage (id : FileId) (message : String)
  | sendFile (id : FileId) (path : PathBuf) (length : Nat) (mimeType : String)
deriving DecidableEq

/-- The loop of `execute` over its arguments: `file_metadata_map` and `files_metadata`. -/
def collectInputs (inputs : List (FileId × SendInput)) :
    AssocMap FileId FileSource × AssocMap FileId FileMetadata :=
  inputs.foldl (fun maps e => (maps.1.insert e.1 e.2.source, maps.2.insert e.1 (e.2.metadata e.1)))
    (.empty, .empty)

namespace SendProgram

/-- The files that are offered. -/
def files : SendProgram → AssocMap FileId FileMetadata
  | execute inputs => (collectInputs inputs).2
  | sendTextMessage id message =>
    .singleton id { buildFileMetadataFromBytes id "message.txt" "text/plain" (textBytes message) with
      preview := some message }
  | sendFile id path length mimeType => .singleton id (buildFileMetadata id path length mimeType)

/-- Where their bytes come from. -/
def sources : SendProgram → AssocMap FileId FileSource
  | execute inputs => (collectInputs inputs).1
  | sendTextMessage id message => .singleton id (.text message)
  | sendFile id path .. => .singleton id (.path path)

end SendProgram

/-! ## The course of a send -/

inductive SendError where
  | client (e : ClientError)
  /-- An `anyhow!` of the program itself. -/
  | message (text : String)
deriving DecidableEq, Repr

inductive SendPhase where
  | offering
  /-- Awaiting the answer to the offer. -/
  | preparing (h : TaskId)
  /-- In the loop over the files with a token, about to upload the first of those that are left. -/
  | sending (session : SessionId) (rest : List (FileId × Token))
  /-- Awaiting the answer to an upload. -/
  | streaming (session : SessionId) (file : FileId) (u : TaskId) (rest : List (FileId × Token))
  | finished (result : Except SendError Unit)

/-- The head of the loop. -/
def SendPhase.loop (session : SessionId) : List (FileId × Token) → SendPhase
  | [] => .finished (.ok ())
  | next :: rest => .sending session (next :: rest)

/-- What a program does with the answer to its offer. `order` is the order in which `execute` goes
    through the map of the tokens. -/
def SendProgram.prepared (program : SendProgram) (order : List (FileId × Token)) :
    Except ClientError PrepareUploadResponse → SendPhase
  | .error e => .finished (.error (.client e))
  | .ok response =>
    match program with
    | execute _ =>
      -- 204 No Content, likely a text message
      if response.sessionId.val = "" then .finished (.ok ()) else .loop response.sessionId order
    | sendTextMessage id _ =>
      if response.sessionId.val = "" then .finished (.ok ())
      else
        match response.files.get? id with
        | none => .finished (.ok ())
        | some token => .loop response.sessionId [(id, token)]
    | sendFile id .. =>
      match response.files.get? id with
      | none =>
        .finished (.error (.message "receiver declined the file (no upload token was issued)"))
      | some token => .loop response.sessionId [(id, token)]

/-- What is announced and then read of a source. A text is written to a file of its own first;
    `opened` is what the file system gives: the length of the file and the bytes of its stream. -/
def FileSource.read (opened : Nat × List UInt8) : FileSource → Nat × List UInt8
  | .path _ => opened
  | .text message => ((textBytes message).length, textBytes message)

/-- What a program does after an upload. -/
def SendPhase.uploaded (session : SessionId) (rest : List (FileId × Token)) :
    Except ClientError Unit → SendPhase
  | .error e => .finished (.error (.client e))
  | .ok () => .loop session rest

end LocalSend
