import LocalSend.ForStd.SerdeJson
import LocalSend.Protocol.Types

/-!
# The wire format

The protocol types (`src/protocol/types.rs`) as the JSON values that serde makes of them by their
attributes. A size is a `u64` there, so only requests whose sizes are below `2 ^ 64` have a text.
-/

namespace LocalSend

open Json

def Protocol.toJson : Protocol → Json
  | .http => .string "http"
  | .https => .string "https"

def Protocol.ofVariant (name : String) : Option Protocol :=
  if name = "http" then some .http
  else if name = "https" then some .https
  else none

def Protocol.ofJson (serde : Serde) : Json → Option Protocol :=
  serde.readUnitEnum Protocol.ofVariant

def DeviceType.toJson : DeviceType → Json
  | .mobile => .string "mobile"
  | .desktop => .string "desktop"
  | .web => .string "web"
  | .headless => .string "headless"
  | .server => .string "server"

/-- Unknown values are desktops. The letters outside of ASCII need no lower case here: only the
    Kelvin sign has one in ASCII, and `k` is in `desktop` alone. -/
def DeviceType.fromWire (value : String) : DeviceType :=
  let value := value.toList.map Char.toLower
  if value = "mobile".toList then .mobile
  else if value = "desktop".toList then .desktop
  else if value = "web".toList then .web
  else if value = "headless".toList then .headless
  else if value = "server".toList then .server
  else .desktop

def DeviceType.ofJson (serde : Serde) (j : Json) : Option DeviceType :=
  (serde.readString j).map DeviceType.fromWire

/-- `constants::DEFAULT_HTTP_PORT`. -/
def defaultPort : UInt16 := 53317

namespace DeviceInfo

def fieldNames : List String :=
  ["alias", "version", "deviceModel", "deviceType", "fingerprint", "port", "protocol", "download", "ip"]

/-- An address that there is not is left out. -/
def ipMember : Option String → List (String × Json)
  | none => []
  | some ip => [("ip", .string ip)]

def members (serde : Serde) (device : DeviceInfo) : List (String × Json) :=
  ("alias", .string device.deviceAlias) ::
  ("version", .string device.version) ::
  ("deviceModel", serde.writeOption .string device.deviceModel) ::
  ("deviceType", serde.writeOption DeviceType.toJson device.deviceType) ::
  ("fingerprint", .string device.fingerprint) ::
  ("port", .natural device.port.toUInt64) ::
  ("protocol", device.protocol.toJson) ::
  ("download", .bool device.download) :: ipMember device.ip

def toJson (serde : Serde) (device : DeviceInfo) : Json := serde.writeStruct (members serde device)

def ofJson (serde : Serde) : Json → Option DeviceInfo :=
  serde.readStruct fieldNames fun f => do
    let deviceAlias ← serde.required "alias" serde.readString f
    let version ← serde.required "version" serde.readString f
    let deviceModel ← serde.defaulted "deviceModel" none (serde.readOption serde.readString) f
    let deviceType ← serde.defaulted "deviceType" none (serde.readOption (DeviceType.ofJson serde)) f
    let fingerprint ← serde.required "fingerprint" serde.readString f
    let port ← serde.defaulted "port" defaultPort serde.readU16 f
    let protocol ← serde.defaulted "protocol" .http (Protocol.ofJson serde) f
    let download ← serde.defaulted "download" false serde.readBool f
    let ip ← serde.defaulted "ip" none (serde.readOption serde.readString) f
    return { deviceAlias, version, deviceModel, deviceType, fingerprint, port, protocol, download, ip }

end DeviceInfo

namespace FileMetadataDetails

def fieldNames : List String := ["modified", "accessed"]

def toJson (serde : Serde) (details : FileMetadataDetails) : Json :=
  serde.writeStruct [
    ("modified", serde.writeOption .string details.modified),
    ("accessed", serde.writeOption .string details.accessed)]

def ofJson (serde : Serde) : Json → Option FileMetadataDetails :=
  serde.readStruct fieldNames fun f => do
    let modified ← serde.optional "modified" serde.readString f
    let accessed ← serde.optional "accessed" serde.readString f
    return { modified, accessed }

end FileMetadataDetails

namespace FileMetadata

def fieldNames : List String :=
  ["id", "fileName", "size", "fileType", "sha256", "preview", "metadata"]

def toJson (serde : Serde) (file : FileMetadata) : Json :=
  serde.writeStruct [
    ("id", .string file.id.val),
    ("fileName", .string file.fileName),
    ("size", .natural (UInt64.ofNat file.size)),
    ("fileType", .string file.fileType),
    ("sha256", serde.writeOption .string file.sha256),
    ("preview", serde.writeOption .string file.preview),
    ("metadata", serde.writeOption (FileMetadataDetails.toJson serde) file.metadata)]

def ofJson (serde : Serde) : Json → Option FileMetadata :=
  serde.readStruct fieldNames fun f => do
    let id ← serde.required "id" serde.readString f
    let fileName ← serde.required "fileName" serde.readString f
    let size ← serde.required "size" serde.readU64 f
    let fileType ← serde.required "fileType" serde.readString f
    let sha256 ← serde.optional "sha256" serde.readString f
    let preview ← serde.optional "preview" serde.readString f
    let metadata ← serde.optional "metadata" (FileMetadataDetails.ofJson serde) f
    return { id := ⟨id⟩, fileName, size := size.toNat, fileType, sha256, preview, metadata }

end FileMetadata

/-- File ids are transparent. -/
def FileId.ofString : String ≃ FileId where
  toFun := FileId.mk
  invFun := FileId.val
  left_inv _ := rfl
  right_inv _ := rfl

namespace PrepareUploadRequest

def fieldNames : List String := ["info", "files"]

def toJson (serde : Serde) (request : PrepareUploadRequest) : Json :=
  serde.writeStruct [
    ("info", request.info.toJson serde),
    ("files", serde.writeMap FileId.ofString (FileMetadata.toJson serde) request.files)]

def ofJson (serde : Serde) : Json → Option PrepareUploadRequest :=
  serde.readStruct fieldNames fun f => do
    let info ← serde.required "info" (DeviceInfo.ofJson serde) f
    let files ← serde.required "files" (serde.readMap FileId.ofString (FileMetadata.ofJson serde)) f
    return { info, files }

end PrepareUploadRequest

namespace PrepareUploadResponse

def fieldNames : List String := ["sessionId", "files"]

def toJson (serde : Serde) (response : PrepareUploadResponse) : Json :=
  serde.writeStruct [
    ("sessionId", .string response.sessionId.val),
    ("files", serde.writeMap FileId.ofString (fun token => .string token.val) response.files)]

/-- Tokens are transparent. -/
def readToken (serde : Serde) (j : Json) : Option Token := (serde.readString j).map Token.mk

def ofJson (serde : Serde) : Json → Option PrepareUploadResponse :=
  serde.readStruct fieldNames fun f => do
    let sessionId ← serde.required "sessionId" serde.readString f
    let files ← serde.required "files" (serde.readMap FileId.ofString (readToken serde)) f
    return { sessionId := ⟨sessionId⟩, files }

end PrepareUploadResponse

/-! ## Bodies -/

/-- axum's `Json` extractor: what a handler gets of a body with a reader of its type, or the status
    that is answered without it. -/
structure JsonExtractor where
  extract {α : Type} : (Json → Option α) → String → Except Nat α

/-- The limit of axum for the length of a body; `create_router` sets no other. -/
def bodyLimit : Nat := 2097152

/-- An extractor that keeps to its documentation, on bodies of the content type that a client
    sends. -/
structure JsonExtractor.Documented (server : JsonExtractor) (serde : Serde) : Prop where
  tooLarge : ∀ {α : Type} (read : Json → Option α) (text : String), bodyLimit < text.utf8ByteSize →
    server.extract read text = .error 413
  decoded : ∀ {α : Type} (read : Json → Option α) (text : String) (a : α),
  text.utf8ByteSize ≤ bodyLimit →
    serde.fromStr read text = some a → server.extract read text = .ok a

end LocalSend
