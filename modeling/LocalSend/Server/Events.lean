import LocalSend.ForStd.BoundedChannel
import LocalSend.PathSafety
import LocalSend.Protocol.Types

/-!
# The event stream

Model of `src/server/events.rs`: the events the receive half emits, the consumer's
answer to an offer, and the bounded channel between them (`tokio::sync::mpsc`), which the
Web Share half and the protected uploads send into as well.
-/

namespace LocalSend

/-- The consumer's answer to a transfer request. -/
inductive TransferDecision where
  | accept
  | acceptFiles (ids : List FileId)
  | decline
  | refuse (reason : String)
deriving DecidableEq, Repr

/-- Events emitted by the receive half of the server. -/
inductive ServerEvent where
  | peerRegistered (device : DeviceInfo)
  | transferRequest (sender : DeviceInfo) (files : AssocMap FileId FileMetadata)
  | textReceived (sessionId : SessionId) (text : String) (senderAlias : String)
  | fileReceiveProgress (sessionId : SessionId) (fileId : FileId) (fileName : String)
      (senderAlias : String) (bytesReceived totalBytes fileCount : Nat)
  | fileReceived (sessionId : SessionId) (fileId : FileId) (fileName : String) (path : PathBuf)
      (size : Nat) (senderAlias : String) (messageText : Option String)
  | sessionDone (sessionId : SessionId)
  /-- `WebShareRequest`, `WebShareDownloadProgress` or `WebShareSessionDone`. -/
  | webShare
deriving DecidableEq

/-- Names one request handler. -/
abbrev TaskId := Nat

/-- Who calls `events_tx.send` and awaits it. -/
inductive EventSender where
  | prepare (h : TaskId)
  /-- A protected upload. -/
  | upload (u : TaskId)
  /-- A request or a stream of the Web Share half. -/
  | share (k : Nat)
deriving DecidableEq

/-- The channel behind `events_tx`; `closed` once the consumer has dropped its end. -/
abbrev EventChannel := BoundedChannel ServerEvent EventSender

end LocalSend
