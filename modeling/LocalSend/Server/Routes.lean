import LocalSend.Client.Urls
import LocalSend.ForStd.Router
import LocalSend.Server.Protected
import LocalSend.Server.WebShare

/-!
# The router

Model of `src/server/routes.rs`, and of `web_share_router` and `handle_prepare_upload`, which
say what handler a request comes to. A handler is named with what its extractors have read out
of the request, and the sections of all handlers run on the two states behind the router.

The router is axum's, as `ForStd.Router` has it. What `Query` and `Json` make of a request
comes with the request.
-/

namespace LocalSend

open Http

/-- `CROSSCOPY_FILE_V3_HANDOFF_HEADER`. -/
def crosscopyFileV3HandoffHeader : String := "x-crosscopy-file-v3-handoff"

/-- A request as the handlers' extractors read it. -/
structure Request where
  method : Method
  path : String
  /-- `HeaderMap`: names in lower case, and values as `to_str` reads them. -/
  headers : List (String × Option String)
  /-- `ConnectInfo`, and the text of its address. -/
  peer : IpAddr
  peerText : String
  /-- The pairs of the query, in order. -/
  query : List (String × String)
  /-- The body, if `Json` reads an offer in it. -/
  offer : Option PrepareUploadRequest
  /-- The body, if `Json` reads a device in it. -/
  device : Option DeviceInfo

instance : HttpRequest Request where
  method := Request.method
  path := Request.path

/-- `headers.get_all(CROSSCOPY_FILE_V3_HANDOFF_HEADER)`. -/
def Request.handoffValues (request : Request) : List (Option String) :=
  (request.headers.filter fun h => h.1 = crosscopyFileV3HandoffHeader).map Prod.snd

/-- `headers.contains_key(CROSSCOPY_FILE_V3_HANDOFF_HEADER)`. -/
def Request.carriesHandoff (request : Request) : Bool :=
  request.headers.any fun h => h.1 = crosscopyFileV3HandoffHeader

/-! ## Routes -/

/-- The functions that are routed to. -/
inductive Endpoint where
  | handleInfo
  | handleRegister
  | handlePrepareUpload
  | handleUpload
  | handleCancel
  | handlePrepareDownload
  | handleDownload
  | handleWebIndex
  | handleWebJs
  | handleWebI18n
deriving DecidableEq, Repr

/-- `web_share_router`. -/
def webShareRouter : Router Request Endpoint StatusCode :=
  Router.new
    |>.route "/api/localsend/v2/prepare-download" .post .handlePrepareDownload
    |>.route "/api/localsend/v2/download" .get .handleDownload
    |>.route "/" .get .handleWebIndex
    |>.route "/main.js" .get .handleWebJs
    |>.route "/i18n.json" .get .handleWebI18n

/-- `reject_crosscopy_header_on_other_routes`. -/
def rejectCrosscopyHeaderOnOtherRoutes (request : Request) : Option StatusCode :=
  if request.carriesHandoff ∧ request.path ≠ "/api/localsend/v2/prepare-upload" then
    some .badRequest
  else none

/-- The routes of the upload half. -/
def uploadRouter : Router Request Endpoint StatusCode :=
  Router.new
    |>.route "/api/localsend/v2/info" .get .handleInfo
    |>.route "/api/localsend/v2/register" .post .handleRegister
    |>.route "/api/localsend/v2/prepare-upload" .post .handlePrepareUpload
    |>.route "/api/localsend/v2/upload" .post .handleUpload
    |>.route "/api/localsend/v2/cancel" .post .handleCancel

/-- `create_router`. -/
def createRouter : Router Request Endpoint StatusCode :=
  (uploadRouter.layer rejectCrosscopyHeaderOnOtherRoutes).merge webShareRouter

/-! ## Handlers -/

structure PrepareDownloadQuery where
  sessionId : Option SessionId
  pin : Option String

def PrepareDownloadQuery.fromQuery (pairs : List (String × String)) :
    Option PrepareDownloadQuery := do
  let sessionId ← queryField pairs "sessionId"
  let pin ← queryField pairs "pin"
  return ⟨sessionId.map SessionId.mk, pin⟩

structure DownloadQuery where
  sessionId : SessionId
  fileId : FileId

/-- Both are required. -/
def DownloadQuery.fromQuery (pairs : List (String × String)) : Option DownloadQuery := do
  let sessionId ← (queryField pairs "sessionId").join
  let fileId ← (queryField pairs "fileId").join
  return ⟨⟨sessionId⟩, ⟨fileId⟩⟩

/-- A handler, with what it has been called with. -/
inductive Handler where
  | info
  | register (device : DeviceInfo)
  | standardPrepareUpload (peer : IpAddr) (pin : Option String) (request : PrepareUploadRequest)
  | crosscopyAuthorizedPrepare (values : List (Option String)) (request : PrepareUploadRequest)
  | upload (sessionId : SessionId) (fileId : FileId) (token : Token)
  | cancel (peer : IpAddr) (sessionId : Option SessionId)
  | prepareDownload (peer : IpAddr) (sessionId : Option SessionId) (pin : Option String)
  | download (peer : IpAddr) (sessionId : SessionId) (fileId : FileId)
  | webIndex
  | webJs
  | webI18n

/-- The handler an endpoint comes to, unless an extractor turns the request away.
    `handle_prepare_upload` looks for the handoff first. -/
def Request.handler (request : Request) : Endpoint → Option Handler
  | .handleInfo => some .info
  | .handleRegister =>
    request.device.map fun device => .register { device with ip := some request.peerText }
  | .handlePrepareUpload => do
    let params ← PrepareUploadParams.fromQuery request.query
    let offer ← request.offer
    if request.carriesHandoff then some (.crosscopyAuthorizedPrepare request.handoffValues offer)
    else some (.standardPrepareUpload request.peer params.pin offer)
  | .handleUpload =>
    (UploadParams.fromQuery request.query).map fun params =>
      .upload params.sessionId params.fileId params.token
  | .handleCancel =>
    (CancelParams.fromQuery request.query).map fun params => .cancel request.peer params.sessionId
  | .handlePrepareDownload =>
    (PrepareDownloadQuery.fromQuery request.query).map fun query =>
      .prepareDownload request.peer query.sessionId query.pin
  | .handleDownload =>
    (DownloadQuery.fromQuery request.query).map fun query =>
      .download request.peer query.sessionId query.fileId
  | .handleWebIndex => some .webIndex
  | .handleWebJs => some .webJs
  | .handleWebI18n => some .webI18n

/-! ## The states behind the router -/

/-- The `ServerState` and the `WebShareHost`, each behind a lock of its own. -/
structure Server where
  receiver : ProtectedWorld
  web : WebWorld

/-- A section of some handler, or of what runs beside the handlers. -/
inductive Section where
  | receiver (a : ProtectedAction)
  | web (a : WebAction)

def Server.step (sha256 : List UInt8 → String) (s : Server) : Section → Option Server
  | .receiver a => (s.receiver.step sha256 a).map fun p => { s with receiver := p }
  | .web a => (s.web.step a).map fun w => { s with web := w }

/-- The sections of a handler that runs under the name `n`: the first one with what the handler
    was called with, and then the ones after its awaits. The handlers without sections only read. -/
def Handler.RunsSection (n : Nat) : Handler → Section → Prop
  | .info, _ | .webIndex, _ | .webJs, _ | .webI18n, _ => False
  | .register device, a => a = .receiver (.receiver (.env (.register device)))
  | .standardPrepareUpload peer pin request, a => ∃ b, a = .receiver (.receiver (.prepare n b)) ∧
      ∀ peer' pin' request', b = .checkPin peer' pin' request' →
        peer' = peer ∧ pin' = pin ∧ request' = request
  | .crosscopyAuthorizedPrepare values request, a => ∃ b, a = .receiver (.prepare n b) ∧
      ∀ values' request', b = .begin_ values' request' → values' = values ∧ request' = request
  | .upload sessionId fileId token, a => a = .receiver (.begin_ n sessionId fileId token) ∨
      (∃ b, a = .receiver (.upload n b)) ∨ ∃ b, a = .receiver (.receiver (.upload n b))
  | .cancel peer sessionId, a => a = .receiver (.receiver (.cancel peer sessionId))
  | .prepareDownload peer sessionId pin, a => ∃ b, a = .web (.prepare n b) ∧
      ∀ peer' sessionId' pin' id, b = .begin_ peer' sessionId' pin' id →
        peer' = peer ∧ sessionId' = sessionId ∧ pin' = pin
  | .download peer sessionId fileId, a => (∃ b, a = .web (.download n b) ∧
      ∀ peer' sessionId' fileId', b = .begin_ peer' sessionId' fileId' →
        peer' = peer ∧ sessionId' = sessionId ∧ fileId' = fileId) ∨
      a = .web (.markDownloaded sessionId fileId)

end LocalSend
