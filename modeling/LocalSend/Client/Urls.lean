import LocalSend.ForStd.Url
import LocalSend.Protocol.Types

/-!
# The URLs of the client, and the queries of the server

The URLs that `LocalSendClient` (`src/client/client.rs`) and `HttpDiscovery`
(`src/discovery/http.rs`) format, and the query parameters that the handlers extract
(`src/server/handlers.rs`).
-/

namespace LocalSend

open FormUrlEncoded IpText

/-! ## Formatting -/

/-- `Protocol::as_str`. -/
def Protocol.asStr : Protocol → String
  | .http => "http"
  | .https => "https"

/-- The scheme that `Protocol::as_str` names. -/
def Protocol.scheme : Protocol → Url.Scheme
  | .http => .http
  | .https => .https

/-- The errors of the client that are decided before anything is sent. -/
inductive LocalSendError where
  | network (message : String)
deriving DecidableEq, Repr

/-- A URL of the protocol, on a host and a port. -/
def endpointUrl (protocol : Protocol) (ip : String) (port : UInt16) (path : String) : String :=
  protocol.asStr ++ "://" ++ ip ++ ":" ++ toString port.toNat ++ path

namespace HttpDiscovery

/-- The URL of `probe_info_with`. -/
def probeInfoUrl (ip : String) (port : UInt16) (protocol : Protocol) : String :=
  endpointUrl protocol ip port "/api/localsend/v2/info"

/-- The URL of `probe_register_with`. -/
def probeRegisterUrl (ip : String) (port : UInt16) (protocol : Protocol) : String :=
  endpointUrl protocol ip port "/api/localsend/v2/register"

end HttpDiscovery

namespace LocalSendClient

def targetIp (target : DeviceInfo) : Except LocalSendError String :=
  match target.ip with
  | some ip => .ok ip
  | none => .error (.network "Target IP not provided")

/-- The URL of `register`. -/
def registerUrl (target : DeviceInfo) : Except LocalSendError String := do
  let ip ← targetIp target
  return endpointUrl target.protocol ip target.port "/api/localsend/v2/register"

/-- The URL of `prepare_upload`. -/
def prepareUploadUrl (target : DeviceInfo) (pin : Option String) :
    Except LocalSendError String := do
  let ip ← targetIp target
  let url := endpointUrl target.protocol ip target.port "/api/localsend/v2/prepare-upload"
  match pin with
  | some pinValue => return url ++ "?pin=" ++ pinValue
  | none => return url

/-- The URL of `upload_file_with_rate_limit` and of `upload_bytes`. -/
def uploadUrl (target : DeviceInfo) (sessionId : SessionId) (fileId : FileId) (token : Token) :
    Except LocalSendError String := do
  let ip ← targetIp target
  return endpointUrl target.protocol ip target.port "/api/localsend/v2/upload" ++
    "?sessionId=" ++ sessionId.val ++ "&fileId=" ++ fileId.val ++ "&token=" ++ token.val

/-- The URL of `cancel`. -/
def cancelUrl (target : DeviceInfo) (sessionId : SessionId) : Except LocalSendError String := do
  let ip ← targetIp target
  return endpointUrl target.protocol ip target.port "/api/localsend/v2/cancel" ++
    "?sessionId=" ++ sessionId.val

end LocalSendClient

/-- A URL of the protocol as characters. -/
theorem endpointUrl_toList (protocol : Protocol) (ip : String) (port : UInt16) (path : String) :
    (endpointUrl protocol ip port path).toList =
      Url.urlText protocol.scheme (ip.toList ++ ':' :: (decimal port.toNat ++ path.toList)) := by
  have hscheme : (protocol.asStr ++ "://").toList = protocol.scheme.text ++ [':', '/', '/'] := by
    cases protocol <;> decide
  simp [endpointUrl, Url.urlText, decimal, ← hscheme]

/-! ## Extracting -/

/-- The pairs of a request's query, as axum's `Query` reads them. -/
def queryPairs (query : Option (List UInt8)) : List (String × String) :=
  (formParse (query.getD [])).map fun p => (String.ofList p.1, String.ofList p.2)

/-- A field of a struct that derives `Deserialize`. A name that occurs twice is rejected, with 400
    as every rejection of a query; names that are not fields are passed over. -/
def queryField (pairs : List (String × String)) (name : String) : Option (Option String) :=
  match pairs.filter fun p => p.1 = name with
  | [] => some none
  | [p] => some (some p.2)
  | _ => none

structure PrepareUploadParams where
  pin : Option String
deriving DecidableEq, Repr

def PrepareUploadParams.fromQuery (pairs : List (String × String)) : Option PrepareUploadParams :=
  (queryField pairs "pin").map fun pin => ⟨pin⟩

structure UploadParams where
  sessionId : SessionId
  fileId : FileId
  token : Token
deriving DecidableEq, Repr

/-- All three are required. -/
def UploadParams.fromQuery (pairs : List (String × String)) : Option UploadParams := do
  let sessionId ← (queryField pairs "sessionId").join
  let fileId ← (queryField pairs "fileId").join
  let token ← (queryField pairs "token").join
  return ⟨⟨sessionId⟩, ⟨fileId⟩, ⟨token⟩⟩

structure CancelParams where
  sessionId : Option SessionId
deriving DecidableEq, Repr

def CancelParams.fromQuery (pairs : List (String × String)) : Option CancelParams :=
  (queryField pairs "sessionId").map fun sessionId => ⟨sessionId.map SessionId.mk⟩

end LocalSend
