import LocalSend.ForStd.TransitionSystem
import LocalSend.PathSafety
import LocalSend.Server.Pin

/-!
# Web Share

Model of `src/server/web_share.rs`, and of `start_web_share`, `stop_web_share` and
`respond_web_share` in `src/server/server.rs`: the download half of the protocol, behind a
lock of its own. As in `Server.Handlers` each function is the code between two awaits.

How long a browser waits for an answer, what the event channel takes and what the file
system says of a shared path come with the actions.
-/

namespace LocalSend

/-- The text of `LocalSendError::invalid_state`. -/
def invalidState (message : String) : String := "Invalid state transition: " ++ message

/-! ## Shares -/

inductive WebShareSource where
  | inline (bytes : List UInt8)
  | path (path : PathBuf)
deriving DecidableEq

structure WebShareFile where
  metadata : FileMetadata
  source : WebShareSource
deriving DecidableEq

/-- Names one `handle_prepare_download` or one `handle_download`. -/
abbrev WebTaskId := Nat

/-- One browser talking to a running share. -/
structure WebShareSession where
  ip : IpAddr
  approved : Bool
  /-- The sending half of the oneshot channel, by the handler that waits at the other end. -/
  responseTx : Option WebTaskId
  downloadedFiles : List FileId
deriving DecidableEq

/-- One running Web Share. -/
structure WebShareState where
  files : AssocMap FileId WebShareFile
  sessions : AssocMap SessionId WebShareSession
  autoAccept : Bool
  pinGate : PinGate
deriving DecidableEq

/-- `WebShareState::new`. -/
def WebShareState.new (files : List WebShareFile) (pin : Option String) (autoAccept : Bool) :
    WebShareState where
  files := files.foldl (fun map file => map.insert file.metadata.id file) .empty
  sessions := .empty
  autoAccept := autoAccept
  pinGate := .new pin

/-- The share with a session for a peer that has passed the gate; `h` waits for the answer,
    if one is needed. -/
def WebShareState.openSession (web : WebShareState) (h : WebTaskId) (peer : IpAddr)
    (id : SessionId) : WebShareState :=
  let session : WebShareSession :=
    ⟨peer, web.autoAccept, if web.autoAccept then none else some h, []⟩
  { web with sessions := web.sessions.insert id session }

/-- Everything the Web Share half of the protocol needs. -/
structure WebShareHost where
  device : DeviceInfo
  share : Option WebShareState

structure PrepareDownloadResponse where
  info : DeviceInfo
  sessionId : SessionId
  files : AssocMap FileId FileMetadata
deriving DecidableEq

/-- `prepare_response`. -/
def prepareResponse (device : DeviceInfo) (sessionId : SessionId) (web : WebShareState) :
    PrepareDownloadResponse where
  info := { device with download := true }
  sessionId := sessionId
  files := web.files.mapVal fun _ file => file.metadata

/-- The events of the Web Share half. -/
inductive WebShareEvent where
  | webShareRequest (sessionId : SessionId) (ip : IpAddr)
  | webShareDownloadProgress (sessionId : SessionId) (fileId : FileId) (bytesSent totalBytes : Nat)
  | webShareSessionDone (sessionId : SessionId)
deriving DecidableEq

/-! ## Suspended handlers -/

/-- Where a `handle_prepare_download` that asked for approval is suspended, or how it
    answered. -/
inductive PrepareDownloadPhase where
  /-- Awaiting room in the event channel. -/
  | sending
  /-- In the timeout over the answer. -/
  | deciding
  /-- Answered or timed out; awaiting the lock. -/
  | relocking (accepted : Bool)
  | refused (status : StatusCode) (text : String)
  | answered (response : PrepareDownloadResponse)
deriving DecidableEq

structure PrepareDownload where
  peer : IpAddr
  sessionId : SessionId
  /-- The share it was made to, by its number. -/
  share : Nat
  /-- What the other end of its oneshot channel has sent. -/
  response : Option Bool
  dropped : Bool
  phase : PrepareDownloadPhase
deriving DecidableEq

/-- Whether the receiving half of the oneshot channel still exists. -/
def PrepareDownload.listens (t : PrepareDownload) : Bool :=
  !t.dropped && (t.phase = .sending || t.phase = .deciding)

/-- Where a `handle_download`, or the body it has answered with, is. -/
inductive DownloadPhase where
  /-- Awaiting `File::open` of the path. -/
  | opening
  /-- Awaiting the metadata of the open file. -/
  | measuring
  /-- Answered 200. `rest` is what an inline source has left to yield. -/
  | streaming (rest : Option (List (List UInt8))) (bytesSent totalBytes : Nat) (finished : Bool)
  | refused (status : StatusCode)
deriving DecidableEq

structure Download where
  peer : IpAddr
  sessionId : SessionId
  fileId : FileId
  file : WebShareFile
  /-- The share it was made to, by its number. -/
  share : Nat
  dropped : Bool
  phase : DownloadPhase
deriving DecidableEq

/-- What a response gives away of a share. -/
inductive Disclosed where
  | files (files : AssocMap FileId FileMetadata)
  | bytes (fileId : FileId) (file : WebShareFile)
deriving DecidableEq

/-- A response that gives something away. Shares are named by their number. -/
structure Disclosure where
  peer : IpAddr
  /-- The share the request was made to. -/
  requested : Nat
  /-- The share the content is from. -/
  share : Nat
  content : Disclosed
deriving DecidableEq

structure WebWorld where
  host : WebShareHost
  /-- The clock behind `Instant::now`, in nanoseconds. -/
  now : Nat
  /-- Every id `SessionId::new` has returned. -/
  issued : List SessionId
  prepares : WebTaskId → Option PrepareDownload
  downloads : WebTaskId → Option Download
  /-- The tasks that `finish_file` has spawned, not yet run. -/
  finishing : List (SessionId × FileId)
  -- what follows is bookkeeping that no handler reads
  events : List WebShareEvent
  /-- The number of the share that was started last. -/
  number : Nat
  /-- What a share held when it was stopped or replaced. -/
  ended : Nat → Option WebShareState
  /-- The sessions whose peer has passed the gate of their share. -/
  admitted : List (Nat × SessionId × IpAddr)
  /-- The sessions of a share for which an approval was delivered. -/
  responded : List (Nat × SessionId)
  sent : List Disclosure

namespace WebWorld

def setPrepare (w : WebWorld) (h : WebTaskId) (t : PrepareDownload) : WebWorld :=
  { w with prepares := Function.update w.prepares h (some t) }

def setDownload (w : WebWorld) (u : WebTaskId) (t : Download) : WebWorld :=
  { w with downloads := Function.update w.downloads u (some t) }

def setShare (w : WebWorld) (web : WebShareState) : WebWorld :=
  { w with host.share := some web }

def emit (w : WebWorld) (e : WebShareEvent) : WebWorld := { w with events := w.events ++ [e] }

/-- Answer with the file list of the running share `web`. -/
def sendList (w : WebWorld) (peer : IpAddr) (requested : Nat) (web : WebShareState) : WebWorld :=
  { w with sent := w.sent ++
      [⟨peer, requested, w.number, .files (web.files.mapVal fun _ file => file.metadata)⟩] }

/-! ## handle_prepare_download -/

/-- What the first lock section of `handle_prepare_download` answers. -/
inductive PrepareDownloadAnswer where
  | refused (status : StatusCode) (text : String)
  | list (response : PrepareDownloadResponse)
  /-- The user is asked. -/
  | pending
deriving DecidableEq

/-- A peer that has passed the gate: answered at once, or kept for the user to decide. -/
def openSession (w : WebWorld) (h : WebTaskId) (web : WebShareState) (peer : IpAddr)
    (id : SessionId) : PrepareDownloadAnswer × WebWorld :=
  let web := web.openSession h peer id
  let w := { w.setShare web with
    issued := id :: w.issued
    admitted := (w.number, id, peer) :: w.admitted }
  if web.autoAccept then
    (.list (prepareResponse w.host.device id web),
      (w.emit (.webShareRequest id peer)).sendList peer w.number web)
  else (.pending, w.setPrepare h ⟨peer, id, w.number, none, false, .sending⟩)

/-- The first lock section. A request answered here leaves no handler. -/
def prepareDownload (w : WebWorld) (h : WebTaskId) (peer : IpAddr) (sessionId : Option SessionId)
    (pin : Option String) (id : SessionId) : PrepareDownloadAnswer × WebWorld :=
  match w.host.share with
  | none => (.refused .forbidden "Web share not initialized", w)
  | some web =>
    match sessionId.filter fun s => (web.sessions.get? s).any fun session =>
        session.approved && session.ip = peer with
    | some s => (.list (prepareResponse w.host.device s web), w.sendList peer w.number web)
    | none =>
      let r := web.pinGate.check w.now pin peer
      let web := { web with pinGate := r.2 }
      match r.1 with
      | .unauthorized => (.refused .unauthorized "", w.setShare web)
      | .lockedOut => (.refused .tooManyRequests "", w.setShare web)
      | .ok _ => w.openSession h web peer id

/-- `events_tx.send(WebShareRequest)`. -/
def sendRequest (w : WebWorld) (h : WebTaskId) (t : PrepareDownload) (delivered : Bool) : WebWorld :=
  if delivered then
    (w.emit (.webShareRequest t.sessionId t.peer)).setPrepare h { t with phase := .deciding }
  else w.setPrepare h { t with phase := .refused .forbidden "" }

/-- The timeout over `response_rx`: what has been sent wins; without an answer it has run
    out, or the sending half is gone. -/
def decide (w : WebWorld) (h : WebTaskId) (t : PrepareDownload) : WebWorld :=
  w.setPrepare h { t with phase := .relocking (t.response.getD false) }

/-- The second lock section, over whatever share is running now. -/
def relock (w : WebWorld) (h : WebTaskId) (t : PrepareDownload) (accepted : Bool) : WebWorld :=
  match w.host.share with
  | none => w.setPrepare h { t with phase := .refused .forbidden "" }
  | some web =>
    if !accepted then
      (w.setShare { web with sessions := web.sessions.erase t.sessionId }).setPrepare h
        { t with phase := .refused .forbidden "File transfer rejected" }
    else
      let web := { web with sessions := web.sessions.modify t.sessionId fun session =>
        { session with approved := true, responseTx := none } }
      ((w.setShare web).sendList t.peer t.share web).setPrepare h
        { t with phase := .answered (prepareResponse w.host.device t.sessionId web) }

/-! ## handle_download -/

/-- Answer with the bytes of the file. -/
def sendBytes (w : WebWorld) (u : WebTaskId) (t : Download) (rest : Option (List (List UInt8)))
    (length : Nat) : WebWorld :=
  { w.setDownload u { t with phase := .streaming rest 0 length false } with
    sent := w.sent ++ [⟨t.peer, t.share, t.share, .bytes t.fileId t.file⟩] }

/-- The lock section of `handle_download`, up to the next await. -/
def download (w : WebWorld) (u : WebTaskId) (peer : IpAddr) (sessionId : SessionId)
    (fileId : FileId) : StatusCode × WebWorld :=
  match w.host.share with
  | none => (.forbidden, w)
  | some web =>
    if !((web.sessions.get? sessionId).any fun session =>
        session.approved && session.ip = peer) then
      (.forbidden, w)
    else
      match web.files.get? fileId with
      | none => (.forbidden, w)
      | some file =>
        let t : Download := ⟨peer, sessionId, fileId, file, w.number, false, .opening⟩
        match file.source with
        | .inline bytes => (.ok, w.sendBytes u t (some [bytes]) bytes.length)
        | .path _ => (.ok, w.setDownload u t)

/-- `WebShareProgressStream::finish_file`, once. -/
def finishFile (w : WebWorld) (t : Download) (finished : Bool) : WebWorld :=
  if finished then w else { w with finishing := w.finishing ++ [(t.sessionId, t.fileId)] }

/-- `WebShareProgressStream::poll_next` on an item: the end, an error, or bytes. -/
def pollNext (w : WebWorld) (u : WebTaskId) (t : Download) (rest : Option (List (List UInt8)))
    (bytesSent totalBytes : Nat) (finished : Bool) : Option (Option (List UInt8)) → WebWorld
  | some (some bytes) =>
    let sent := min (bytesSent + bytes.length) (2 ^ 64 - 1)
    let done := totalBytes ≤ sent
    let w := w.emit (.webShareDownloadProgress t.sessionId t.fileId sent totalBytes)
    let w := if done then w.finishFile t finished else w
    w.setDownload u { t with phase := .streaming rest sent totalBytes (finished || done) }
  | none => (w.finishFile t finished).setDownload u
      { t with phase := .streaming rest bytesSent totalBytes true }
  | some none => w

/-- The task `finish_file` spawns. -/
def markDownloaded (w : WebWorld) (sessionId : SessionId) (fileId : FileId) : WebWorld :=
  match w.host.share with
  | none => w
  | some web =>
    match web.sessions.get? sessionId with
    | none => w
    | some session =>
      let downloaded := if fileId ∈ session.downloadedFiles then session.downloadedFiles
        else fileId :: session.downloadedFiles
      let w := w.setShare { web with sessions := web.sessions.modify sessionId fun s =>
        { s with downloadedFiles := downloaded } }
      if downloaded.length = web.files.size then w.emit (.webShareSessionDone sessionId) else w

/-! ## server.rs -/

/-- The running share is taken out, to be stopped or replaced. -/
def endShare (w : WebWorld) : WebWorld :=
  { w with
    host.share := none
    ended := match w.host.share with
      | some web => Function.update w.ended w.number (some web)
      | none => w.ended }

/-- `start_web_share`. -/
def startWebShare (w : WebWorld) (files : List WebShareFile) (pin : Option String)
    (autoAccept : Bool) : Except String Unit × WebWorld :=
  if files.isEmpty then (.error (invalidState "Web share requires at least one file"), w)
  else (.ok (), { w.endShare with
    host.share := some (.new files pin autoAccept), number := w.number + 1 })

/-- `stop_web_share`. -/
def stopWebShare (w : WebWorld) : WebWorld := w.endShare

/-- `respond_web_share`. -/
def respondWebShare (w : WebWorld) (sessionId : SessionId) (accepted : Bool) :
    Except String Unit × WebWorld :=
  let unknown := Except.error (invalidState "Unknown or already answered Web Share request")
  match w.host.share with
  | none => (unknown, w)
  | some web =>
    match (web.sessions.get? sessionId).bind WebShareSession.responseTx with
    | none => (unknown, w)
    | some h =>
      let w' := w.setShare { web with sessions := web.sessions.modify sessionId fun session =>
        { session with responseTx := none } }
      match (w.prepares h).filter PrepareDownload.listens with
      | none => (.error (invalidState "Web Share requester disconnected"), w')
      | some t => (.ok (), { w'.setPrepare h { t with response := some accepted } with
          responded := if accepted then (w.number, sessionId) :: w.responded else w.responded })

end WebWorld

/-! ## The transition system -/

/-- What a `handle_prepare_download` does next. -/
inductive PrepareDownloadAction where
  | begin_ (peer : IpAddr) (sessionId : Option SessionId) (pin : Option String) (id : SessionId)
  | sendRequest (delivered : Bool)
  | decide
  | relock
  /-- The client disconnects, and the future is dropped at its await point. -/
  | drop

/-- What a `handle_download` does next. -/
inductive DownloadAction where
  | begin_ (peer : IpAddr) (sessionId : SessionId) (fileId : FileId)
  | opened (ok : Bool)
  | measured (length : Option Nat)
  /-- The body is polled, and its source yields the end, an error, or bytes. -/
  | poll (item : Option (Option (List UInt8)))
  | drop

inductive WebAction where
  | prepare (h : WebTaskId) (a : PrepareDownloadAction)
  | download (u : WebTaskId) (a : DownloadAction)
  | markDownloaded (sessionId : SessionId) (fileId : FileId)
  | startWebShare (files : List WebShareFile) (pin : Option String) (autoAccept : Bool)
  | stopWebShare
  | respondWebShare (sessionId : SessionId) (accepted : Bool)
  | tick (d : Nat)

/-- Whether a prepare is at an await point. -/
def PrepareDownloadPhase.awaits : PrepareDownloadPhase → Bool
  | .sending | .deciding | .relocking _ => true
  | .refused .. | .answered _ => false

namespace WebWorld

/-- One step of prepare `h`, which is live and described by `t`. -/
def prepareStep (w : WebWorld) (h : WebTaskId) (t : PrepareDownload) :
    PrepareDownloadAction → Option WebWorld
  | .begin_ .. => none
  | .sendRequest delivered =>
    if t.phase = .sending then some (w.sendRequest h t delivered) else none
  | .decide => if t.phase = .deciding then some (w.decide h t) else none
  | .relock =>
    match t.phase with
    | .relocking accepted => some (w.relock h t accepted)
    | _ => none
  | .drop => if t.phase.awaits then some (w.setPrepare h { t with dropped := true }) else none

/-- One step of download `u`, which is live and described by `t`. An inline source yields its
    bytes once. -/
def downloadStep (w : WebWorld) (u : WebTaskId) (t : Download) : DownloadAction → Option WebWorld
  | .begin_ .. => none
  | .opened ok =>
    if t.phase = .opening then
      some (w.setDownload u { t with phase := if ok then .measuring else .refused .notFound })
    else none
  | .measured length =>
    if t.phase = .measuring then
      match length with
      | some length => some (w.sendBytes u t none length)
      | none => some (w.setDownload u { t with phase := .refused .internalServerError })
    else none
  | .poll item =>
    match t.phase with
    | .streaming none sent total finished => some (w.pollNext u t none sent total finished item)
    | .streaming (some rest) sent total finished =>
      if item = rest.head?.map some then
        some (w.pollNext u t (some rest.tail) sent total finished item)
      else none
    | _ => none
  | .drop =>
    match t.phase with
    | .refused _ => none
    | _ => some (w.setDownload u { t with dropped := true })

/-- One step of the Web Share half; `none` when the action is not enabled. -/
def step (w : WebWorld) : WebAction → Option WebWorld
  | .prepare h a =>
    match w.prepares h, a with
    | none, .begin_ peer sessionId pin id =>
      if id ∉ w.issued then some (w.prepareDownload h peer sessionId pin id).2 else none
    | none, _ => none
    | some t, a => if t.dropped then none else w.prepareStep h t a
  | .download u a =>
    match w.downloads u, a with
    | none, .begin_ peer sessionId fileId => some (w.download u peer sessionId fileId).2
    | none, _ => none
    | some t, a => if t.dropped then none else w.downloadStep u t a
  | .markDownloaded sessionId fileId =>
    if (sessionId, fileId) ∈ w.finishing then
      some ({ w with finishing := w.finishing.erase (sessionId, fileId) }.markDownloaded sessionId
        fileId)
    else none
  | .startWebShare files pin autoAccept => some (w.startWebShare files pin autoAccept).2
  | .stopWebShare => some w.stopWebShare
  | .respondWebShare sessionId accepted => some (w.respondWebShare sessionId accepted).2
  | .tick d => some { w with now := w.now + d }

end WebWorld

/-- `WebShareHost::new`, before any share. -/
def WebWorld.start (device : DeviceInfo) : WebWorld where
  host := ⟨device, none⟩
  now := 0
  issued := []
  prepares := fun _ => none
  downloads := fun _ => none
  finishing := []
  events := []
  number := 0
  ended := fun _ => none
  admitted := []
  responded := []
  sent := []

/-- The Web Share half, in any interleaving. -/
def webShareSystem : TransitionSystem WebWorld WebAction where
  Init w := ∃ device, w = WebWorld.start device
  step := WebWorld.step

end LocalSend
