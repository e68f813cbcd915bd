import LocalSend.Client.Urls

/-!
# What the client makes of an answer

The methods of `LocalSendClient` (`src/client/client.rs`) after their request: what they return for
what `reqwest` gives them. The URLs they ask are those of `Urls.lean`.
-/

namespace LocalSend

/-- The number of a status. -/
def StatusCode.asU16 : StatusCode → UInt16
  | .ok => 200
  | .noContent => 204
  | .badRequest => 400
  | .unauthorized => 401
  | .forbidden => 403
  | .notFound => 404
  | .conflict => 409
  | .tooManyRequests => 429
  | .internalServerError => 500
  | .serviceUnavailable => 503

/-- The errors of the client's methods. -/
inductive ClientError where
  /-- `Io`: a file that is sent cannot be read. -/
  | io
  /-- `Reqwest`: no response, or one whose body does not decode. -/
  | reqwest
  | network (message : String)
  | invalidPin
  | rejected (status : UInt16)
  | sessionBlocked
  | rateLimited
  | httpFailed (status : UInt16) (message : String)
deriving DecidableEq, Repr

/-- What becomes of a request: none comes, or a response, with its body where it decodes. -/
inductive Reply (β : Type) where
  | failed
  | response (status : UInt16) (body : Option β)
deriving DecidableEq, Repr

/-- `StatusCode::is_success`. -/
def isSuccess (status : UInt16) : Bool := 200 ≤ status && status < 300

namespace LocalSendClient

/-- What `register` returns. An answer that does not decode, as an empty one, is still a success:
    the peer has the registration. -/
def register (target : DeviceInfo) : Reply DeviceInfo → Except ClientError DeviceInfo
  | .failed => .error .reqwest
  | .response status body =>
    if isSuccess status then .ok (body.getD target)
    else if status = 401 ∨ status = 403 then .error (.rejected status)
    else .error (.httpFailed status "Registration failed")

/-- What `prepare_upload` returns. -/
def prepareUpload : Reply PrepareUploadResponse → Except ClientError PrepareUploadResponse
  | .failed => .error .reqwest
  | .response status body =>
    if status = 200 then
      match body with
      | some response => .ok response
      | none => .error .reqwest
    -- a text message, or nothing to transfer
    else if status = 204 then .ok ⟨⟨""⟩, .empty⟩
    else if status = 401 then .error .invalidPin
    else if status = 403 then .error (.rejected status)
    else if status = 409 then .error .sessionBlocked
    else if status = 429 then .error .rateLimited
    else if status = 500 then .error (.network "Server error")
    else .error (.httpFailed status "Prepare upload failed")

/-- What `upload_file_with_rate_limit` returns, and `upload_bytes` with a message of its own. -/
def upload (message : String) : Reply Unit → Except ClientError Unit
  | .failed => .error .reqwest
  | .response status _ =>
    if status = 200 ∨ status = 204 then .ok () else .error (.httpFailed status message)

def uploadFile : Reply Unit → Except ClientError Unit := upload "File upload failed"

def uploadBytes : Reply Unit → Except ClientError Unit := upload "Upload failed"

/-- What `cancel` returns. -/
def cancel : Reply Unit → Except ClientError Unit
  | .failed => .error .reqwest
  | .response status _ =>
    if isSuccess status then .ok () else .error (.httpFailed status "Cancel failed")

end LocalSendClient

end LocalSend
