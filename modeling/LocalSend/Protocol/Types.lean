import LocalSend.ForStd.AssocMap

/-!
# Protocol types

The data the handlers exchange: identifiers, devices, offered files, and the
`prepare-upload` request and response (`src/protocol/types.rs`). Identifiers are
newtypes over strings, as in the source, so a session id can never be passed where
a file id or a token is meant.
-/

namespace LocalSend

/-- Session identifier for file transfer sessions. -/
structure SessionId where
  val : String
deriving DecidableEq, Repr

/-- File identifier for individual files in a transfer, chosen by the sender. -/
structure FileId where
  val : String
deriving DecidableEq, Repr

/-- Authorization token for file uploads. -/
structure Token where
  val : String
deriving DecidableEq, Repr

/-- A peer's source address (`std::net::IpAddr`). -/
inductive IpAddr where
  | v4 (bits : BitVec 32)
  | v6 (bits : BitVec 128)
deriving DecidableEq, Repr

/-- Transport a device speaks. -/
inductive Protocol where
  | http
  | https
deriving DecidableEq, Repr

inductive DeviceType where
  | mobile
  | desktop
  | web
  | headless
  | server
deriving DecidableEq, Repr

structure DeviceInfo where
  /-- `alias`, a reserved word here. -/
  deviceAlias : String
  version : String
  deviceModel : Option String
  deviceType : Option DeviceType
  fingerprint : String
  port : UInt16
  protocol : Protocol
  download : Bool
  ip : Option String
deriving DecidableEq, Repr

structure FileMetadataDetails where
  modified : Option String
  accessed : Option String
deriving DecidableEq, Repr

structure FileMetadata where
  id : FileId
  fileName : String
  /-- Declared length in bytes, a `u64` on the wire. -/
  size : Nat
  fileType : String
  sha256 : Option String
  preview : Option String
  metadata : Option FileMetadataDetails
deriving DecidableEq, Repr

structure PrepareUploadRequest where
  info : DeviceInfo
  files : AssocMap FileId FileMetadata
deriving DecidableEq

structure PrepareUploadResponse where
  sessionId : SessionId
  files : AssocMap FileId Token
deriving DecidableEq

/-- The statuses the receive handlers answer with. -/
inductive StatusCode where
  | ok
  | noContent
  | badRequest
  | unauthorized
  | forbidden
  | notFound
  | conflict
  | tooManyRequests
  | internalServerError
  | serviceUnavailable
deriving DecidableEq, Repr

end LocalSend
