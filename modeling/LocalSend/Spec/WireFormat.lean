import LocalSend.Client.Client
import LocalSend.Discovery.Wire

/-!
# What a peer reads of what a peer writes

Every text of a message is read back as the message: whatever the order of the members and of the
entries of a map, and whatever members that are no fields it has besides. The maps of the two sides
have the same lookups; their order is the one of the text. A server reads bodies up to the limit of
its extractor only.

## Key results

- `prepare_upload_read_back`: the offer, and the session that answers it
- `presence_read_back`: an announcement, the registration that answers it, and its answer
-/

namespace LocalSend

open Json

variable {tls : TlsLibrary} {serde : Serde}

/-! ## Device information -/

section Options

variable (h : serde.Documented)
include h

/-- A protocol is read back from its name. -/
theorem Protocol.ofJson_toJson (protocol : Protocol) :
    Protocol.ofJson serde protocol.toJson = some protocol := by
  cases protocol with
  | http => exact h.readUnitEnum Protocol.ofVariant "http"
  | https => exact h.readUnitEnum Protocol.ofVariant "https"

/-- So is a type of device, which is written in lower case. -/
theorem DeviceType.ofJson_toJson (type : DeviceType) :
    DeviceType.ofJson serde type.toJson = some type := by
  cases type <;> simp only [DeviceType.ofJson, DeviceType.toJson, h.readString] <;> decide

/-- A text that may be missing is read back. -/
theorem option_string (o : Option String) :
    serde.readOption serde.readString (serde.writeOption string o) = some o :=
  h.readOption_written h.readString (fun _ => Json.noConfusion) o

/-- So is a truth value that may be missing. -/
theorem option_bool (o : Option Bool) :
    serde.readOption serde.readBool (serde.writeOption Json.bool o) = some o :=
  h.readOption_written h.readBool (fun _ => Json.noConfusion) o

/-- So is a type of device that may be missing. -/
theorem option_deviceType (o : Option DeviceType) :
    serde.readOption (DeviceType.ofJson serde)
      (serde.writeOption DeviceType.toJson o) = some o := by
  apply h.readOption_written (DeviceType.ofJson_toJson h)
  intro type
  cases type <;> exact Json.noConfusion

/-- A text that is there is read where it may be missing. -/
theorem option_of_string (s : String) :
    serde.readOption serde.readString (string s) = some (some s) := by
  rw [h.readOption_some _ _ Json.noConfusion, h.readString]
  rfl

end Options

namespace DeviceInfo

def shape : Shape := .struct (fieldNames.map fun name => (name, .value))

/-- A device is read back from what is written of it, with or without an address. -/
theorem ofJson_toJson (h : serde.Documented) (device : DeviceInfo) :
    ofJson serde (device.toJson serde) = some device := by
  have once : Once fieldNames (members serde device) := by
    cases hip : device.ip <;> simp [Once, members, fieldNames, ipMember, hip]
  obtain ⟨deviceAlias, version, deviceModel, deviceType, fingerprint, port, protocol, download, ip⟩ :=
    device
  unfold ofJson toJson
  rw [h.writeStruct, h.readStruct _ _ _ once]
  cases ip with
  | none => simp [members, ipMember, member?_cons, member?_nil, h.required, h.defaulted, h.readString,
      h.readBool, h.readU16, option_string h, option_deviceType h, Protocol.ofJson_toJson h]
  | some ip => simp [members, ipMember, member?_cons, h.required, h.defaulted, h.readString,
      h.readBool, h.readU16, option_string h, option_deviceType h, Protocol.ofJson_toJson h,
      option_of_string h]

/-- A device is read alike from similar objects. -/
theorem respects (h : serde.Documented) : Respects shape (ofJson serde) := by
  refine h.respects_values fun f f' hget => ?_
  simp only [fieldNames, List.forall_mem_cons] at hget
  simp only [h.required, h.defaulted, hget]

end DeviceInfo

/-! ## Offers -/

namespace FileMetadataDetails

def shape : Shape := .struct (fieldNames.map fun name => (name, .value))

/-- The details of a file are read back from what is written of them. -/
theorem ofJson_toJson (h : serde.Documented) (details : FileMetadataDetails) :
    ofJson serde (details.toJson serde) = some details := by
  unfold ofJson toJson
  rw [h.writeStruct, h.readStruct _ _ _ (by simp [Once, fieldNames])]
  simp [member?_cons, h.optional, option_string h]

/-- They are read alike from similar objects. -/
theorem respects (h : serde.Documented) : Respects shape (ofJson serde) := by
  refine h.respects_values fun f f' hget => ?_
  simp only [fieldNames, List.forall_mem_cons] at hget
  simp only [h.optional, hget]

end FileMetadataDetails

/-- Details that may be missing are read back. -/
theorem option_details (h : serde.Documented) (o : Option FileMetadataDetails) :
    serde.readOption (FileMetadataDetails.ofJson serde)
      (serde.writeOption (FileMetadataDetails.toJson serde) o) = some o := by
  apply h.readOption_written (FileMetadataDetails.ofJson_toJson h)
  intro details
  rw [FileMetadataDetails.toJson, h.writeStruct]
  exact Json.noConfusion

namespace FileMetadata

/-- The fields that are looked at as a whole. -/
def valueNames : List String := ["id", "fileName", "size", "fileType", "sha256", "preview"]

/-- All of them, with their shapes. -/
def shapes : List (String × Shape) :=
  valueNames.map (fun name => (name, .value)) ++ [("metadata", FileMetadataDetails.shape)]

def shape : Shape := .struct shapes

/-- A file is read back from what is written of it if its size is a `u64`. -/
theorem ofJson_toJson (h : serde.Documented) {file : FileMetadata} (hsize : file.size < 2 ^ 64) :
    ofJson serde (file.toJson serde) = some file := by
  have hback : (UInt64.ofNat file.size).toNat = file.size := Nat.mod_eq_of_lt hsize
  unfold ofJson toJson
  rw [h.writeStruct, h.readStruct _ _ _ (by simp [Once, fieldNames])]
  simp [member?_cons, h.required, h.optional, h.readString, h.readU64, option_string h,
    option_details h, hback]

/-- A file is read alike from similar objects, whose details may be written differently. -/
theorem respects (h : serde.Documented) : Respects shape (ofJson serde) := by
  change Respects (.struct shapes) (serde.readStruct (shapes.map Prod.fst) _)
  refine h.respects_struct fun f f' hfield => ?_
  have hget : ∀ name ∈ valueNames, f' name = f name := fun name hname =>
    (hfield name .value (List.mem_append_left _ (List.mem_map.mpr ⟨name, hname, rfl⟩))).eq_of_value
  -- the details may differ, but are read alike
  have hdetails : serde.optional "metadata" (FileMetadataDetails.ofJson serde) f' =
      serde.optional "metadata" (FileMetadataDetails.ofJson serde) f := by
    have hmetadata := hfield "metadata" FileMetadataDetails.shape List.mem_concat_self
    rw [h.optional, h.optional]
    exact (h.respects_option (FileMetadataDetails.respects h)).elim_eq (some none) hmetadata
  simp only [valueNames, List.forall_mem_cons] at hget
  simp only [hdetails]
  simp only [h.required, h.optional, hget]

end FileMetadata

/-- The files of an offer are read back. -/
theorem files_read_back (h : serde.Documented) {files : AssocMap FileId FileMetadata} {j : Json}
    (hsizes : ∀ id file, files.get? id = some file → file.size < 2 ^ 64)
    (hsimilar : Similar (.map FileMetadata.shape)
      (serde.writeMap FileId.ofString (FileMetadata.toJson serde) files) j) :
    ∃ files', serde.readMap FileId.ofString (FileMetadata.ofJson serde) j = some files' ∧
      ∀ id, files'.get? id = files.get? id := by
  refine h.readMap_written FileId.ofString (FileMetadata.respects h) (fun e he => ?_) hsimilar
  exact FileMetadata.ofJson_toJson h (hsizes e.1 e.2 (AssocMap.get?_eq_some_iff.mpr he))

/-- The tokens of a session are read back. -/
theorem tokens_read_back (h : serde.Documented) {files : AssocMap FileId Token} {j : Json}
    (hsimilar : Similar (.map .value)
      (serde.writeMap FileId.ofString (fun token => .string token.val) files) j) :
    ∃ files', serde.readMap FileId.ofString (PrepareUploadResponse.readToken serde) j = some files' ∧
      ∀ id, files'.get? id = files.get? id := by
  refine h.readMap_written FileId.ofString (respects_value _) (fun e _ => ?_) hsimilar
  rw [PrepareUploadResponse.readToken, h.readString]
  rfl

def PrepareUploadRequest.shape : Shape :=
  .struct [("info", DeviceInfo.shape), ("files", .map FileMetadata.shape)]

def PrepareUploadResponse.shape : Shape := .struct [("sessionId", .value), ("files", .map .value)]

/-- An offer is read back from what is similar to what is written of it, its files by their lookups. -/
theorem PrepareUploadRequest.ofJson_similar (h : serde.Documented)
    {request : PrepareUploadRequest} {j : Json}
    (hsizes : ∀ id file, request.files.get? id = some file → file.size < 2 ^ 64)
    (hsimilar : Similar PrepareUploadRequest.shape (request.toJson serde) j) :
    ∃ request', PrepareUploadRequest.ofJson serde j = some request' ∧ request'.info = request.info ∧
      ∀ id, request'.files.get? id = request.files.get? id := by
  rw [PrepareUploadRequest.toJson, h.writeStruct] at hsimilar
  obtain ⟨f, hfield, hmake⟩ := h.readStruct_similar (by simp [Once]) hsimilar
  obtain ⟨j₁, hj₁, hinfo⟩ := (hfield "info" _ List.mem_cons_self).of_some
  obtain ⟨j₂, hj₂, hfiles⟩ := (hfield "files" _ (List.mem_cons_of_mem _ List.mem_cons_self)).of_some
  obtain ⟨files', hfiles', hget⟩ := files_read_back h hsizes hfiles
  have hdevice : DeviceInfo.ofJson serde j₁ = some request.info :=
    (DeviceInfo.respects h hinfo).trans (DeviceInfo.ofJson_toJson h request.info)
  refine ⟨⟨request.info, files'⟩, ?_, rfl, hget⟩
  refine (hmake _).trans ?_
  simp [h.required, hj₁, hj₂, hdevice, hfiles']

/-- So is the answer to an offer, with its tokens. -/
theorem PrepareUploadResponse.ofJson_similar (h : serde.Documented)
    {response : PrepareUploadResponse} {j : Json}
    (hsimilar : Similar PrepareUploadResponse.shape (response.toJson serde) j) :
    ∃ response', PrepareUploadResponse.ofJson serde j = some response' ∧
      response'.sessionId = response.sessionId ∧ ∀ id,
      response'.files.get? id = response.files.get? id := by
  rw [PrepareUploadResponse.toJson, h.writeStruct] at hsimilar
  obtain ⟨f, hfield, hmake⟩ := h.readStruct_similar (by simp [Once]) hsimilar
  obtain ⟨j₁, hj₁, hsession⟩ := (hfield "sessionId" _ List.mem_cons_self).of_some
  obtain ⟨j₂, hj₂, hfiles⟩ := (hfield "files" _ (List.mem_cons_of_mem _ List.mem_cons_self)).of_some
  obtain ⟨files', hfiles', hget⟩ := tokens_read_back h hfiles
  cases hsession.eq_of_value
  refine ⟨⟨response.sessionId, files'⟩, ?_, rfl, hget⟩
  refine (hmake _).trans ?_
  simp [h.required, hj₁, hj₂, h.readString, hfiles']

/-- A server reads the offer of a sender from every text of it that is not too long for it, and the
    sender the session of the server from every text of that. A longer offer is refused. -/
theorem prepare_upload_read_back (hserde : serde.Documented) {server : JsonExtractor}
    (hserver : server.Documented serde) :
    (∀ (request : PrepareUploadRequest) (text : String) (j : Json),
      (∀ id file, request.files.get? id = some file → file.size < 2 ^ 64) →
      serde.parse text = some j → Similar PrepareUploadRequest.shape (request.toJson serde) j →
      (text.utf8ByteSize ≤ bodyLimit →
        ∃ request', server.extract (PrepareUploadRequest.ofJson serde) text = .ok request' ∧
          request'.info = request.info ∧ ∀ id, request'.files.get? id = request.files.get? id) ∧
      (bodyLimit < text.utf8ByteSize →
        server.extract (PrepareUploadRequest.ofJson serde) text = .error 413)) ∧
    ∀ (response : PrepareUploadResponse) (text : String) (j : Json),
      serde.parse text = some j → Similar PrepareUploadResponse.shape (response.toJson serde) j →
      ∃ response', serde.fromStr (PrepareUploadResponse.ofJson serde) text = some response' ∧
        response'.sessionId = response.sessionId ∧
        ∀ id, response'.files.get? id = response.files.get? id := by
  constructor
  -- the request: read back below the limit, and refused above it
  · intro request text j hsizes hparse hsimilar
    obtain ⟨request', hread, hinfo, hget⟩ :=
      PrepareUploadRequest.ofJson_similar hserde hsizes hsimilar
    refine ⟨fun hlength => ?_, hserver.tooLarge _ text⟩
    refine ⟨request', hserver.decoded _ text request' hlength ?_, hinfo, hget⟩
    rw [Serde.fromStr, hparse, Option.bind_some, hread]
  -- the response, which the client reads without a limit
  · intro response text j hparse hsimilar
    obtain ⟨response', hread, hsession, hget⟩ :=
      PrepareUploadResponse.ofJson_similar hserde hsimilar
    refine ⟨response', ?_, hsession, hget⟩
    rw [Serde.fromStr, hparse, Option.bind_some, hread]

/-! ## An extractor, and texts -/

namespace Scenario

/-- An extractor that keeps to its documentation. -/
def extractor (serde : Serde) : JsonExtractor where
  extract read text :=
    if text.utf8ByteSize ≤ bodyLimit then
      match serde.parse text with
      | none => .error 400
      | some j =>
        match read j with
        | none => .error 422
        | some a => .ok a
    else .error 413

/-- The extractor keeps to its documentation. -/
theorem extractor_documented (serde : Serde) : (extractor serde).Documented serde := by
  constructor
  · intro α read text hlength
    exact if_neg (Nat.not_le_of_lt hlength)
  · intro α read text a hlength hread
    obtain ⟨j, hparse, hj⟩ := Option.bind_eq_some_iff.mp hread
    simp [extractor, hlength, hparse, hj]

def photo : FileMetadata := ⟨⟨"f1"⟩, "photo.jpg", 1024, "image/jpeg", none, none, none⟩

def photoOffer : PrepareUploadRequest where
  info := ⟨"phone", "2.1", none, some .mobile, "a", 53317, .https, false, none⟩
  files := .singleton ⟨"f1"⟩ photo

def photoSession : PrepareUploadResponse := ⟨⟨"s1"⟩, .singleton ⟨"f1"⟩ ⟨"t1"⟩⟩

def braced (members : String) : String := "\x7b" ++ members ++ "\x7d"

/-- What a phone of a later version sends: the files first, and a member that is no field. -/
def photoText : String :=
  braced ("\"files\":" ++
    braced ("\"f1\":" ++
      braced ("\"id\":\"f1\",\"fileName\":\"photo.jpg\",\"size\":1024,\"fileType\":\"image/jpeg\"," ++
        "\"sha256\":null,\"preview\":null,\"metadata\":null")) ++
    ",\"compression\":\"none\",\"info\":" ++
    braced ("\"alias\":\"phone\",\"version\":\"2.1\",\"deviceModel\":null,\"deviceType\":\"mobile\"," ++
      "\"fingerprint\":\"a\",\"port\":53317,\"protocol\":\"https\",\"download\":false"))

def photoFiles : Json :=
  .object [("f1", .object [
    ("id", .string "f1"), ("fileName", .string "photo.jpg"), ("size", .natural 1024),
    ("fileType", .string "image/jpeg"), ("sha256", .null), ("preview", .null),
    ("metadata", .null)])]

def photoInfo : Json :=
  .object [
    ("alias", .string "phone"), ("version", .string "2.1"), ("deviceModel", .null),
    ("deviceType", .string "mobile"), ("fingerprint", .string "a"), ("port", .natural 53317),
    ("protocol", .string "https"), ("download", .bool false)]

def photoJson : Json :=
  .object [("files", photoFiles), ("compression", .string "none"), ("info", photoInfo)]

def sessionText : String := braced ("\"sessionId\":\"s1\",\"files\":" ++ braced "\"f1\":\"t1\"")

def sessionJson : Json :=
  .object [("sessionId", .string "s1"), ("files", .object [("f1", .string "t1")])]

/-- A parser that knows the two texts. -/
def photoParse (text : String) : Option Json :=
  if text = photoText then some photoJson
  else if text = sessionText then some sessionJson
  else none

def photoSerde : Serde := .plain photoParse

/-- The first text is that of the offer. -/
theorem parse_photoText : photoSerde.parse photoText = some photoJson := by
  simp only [photoSerde, Serde.plain]
  rw [photoParse, if_pos rfl]

/-- The second one is that of the session. -/
theorem parse_sessionText : photoSerde.parse sessionText = some sessionJson := by
  have hother : sessionText ≠ photoText := by decide +kernel
  simp only [photoSerde, Serde.plain]
  rw [photoParse, if_neg hother, if_pos rfl]

/-- What the sender itself would write. -/
theorem photoOffer_toJson :
    photoOffer.toJson photoSerde = .object [("info", photoInfo), ("files", photoFiles)] := rfl

/-- What the server writes. -/
theorem photoSession_toJson : photoSession.toJson photoSerde = sessionJson := rfl

/-- The text of the later version is one of the offer. -/
theorem similar_photoJson :
    Similar PrepareUploadRequest.shape (photoOffer.toJson photoSerde) photoJson := by
  rw [photoOffer_toJson]
  apply Similar.of_perm
  · decide
  · simpa [photoJson] using List.Perm.swap _ _ []

end Scenario

/-- The offer of a photo by a later version, and the session that answers it. -/
theorem prepare_upload_read_back_photo :
    (∃ request, (Scenario.extractor Scenario.photoSerde).extract
        (PrepareUploadRequest.ofJson Scenario.photoSerde) Scenario.photoText = .ok request ∧
      request.info = Scenario.photoOffer.info ∧ request.files.get? ⟨"f1"⟩ = some Scenario.photo) ∧
    ∃ response, Scenario.photoSerde.fromStr (PrepareUploadResponse.ofJson Scenario.photoSerde)
        Scenario.sessionText = some response ∧
      response.sessionId = ⟨"s1"⟩ ∧ response.files.get? ⟨"f1"⟩ = some ⟨"t1"⟩ := by
  have hserde : Scenario.photoSerde.Documented := Serde.plain_documented _
  obtain ⟨hoffer, hsession⟩ :=
    prepare_upload_read_back hserde (Scenario.extractor_documented Scenario.photoSerde)
  -- one file, of the size that the offer says
  have hsizes : ∀ id file, Scenario.photoOffer.files.get? id = some file → file.size < 2 ^ 64 := by
    intro id file hfile
    have hmem := AssocMap.get?_eq_some_iff.mp hfile
    simp only [Scenario.photoOffer, AssocMap.singleton, List.mem_singleton, Prod.mk.injEq] at hmem
    rw [hmem.2]
    decide
  have hlength : Scenario.photoText.utf8ByteSize ≤ bodyLimit := by decide +kernel
  -- the offer
  constructor
  · obtain ⟨hread, -⟩ := hoffer Scenario.photoOffer Scenario.photoText Scenario.photoJson hsizes
      Scenario.parse_photoText Scenario.similar_photoJson
    obtain ⟨request, hrequest, hinfo, hfiles⟩ := hread hlength
    exact ⟨request, hrequest, hinfo, hfiles _⟩
  -- and the answer to it
  · have hsimilar : Similar PrepareUploadResponse.shape
        (Scenario.photoSession.toJson Scenario.photoSerde) Scenario.sessionJson := by
      rw [Scenario.photoSession_toJson]
      exact .refl _ _
    obtain ⟨response, hread, hid, hfiles⟩ := hsession Scenario.photoSession Scenario.sessionText
      Scenario.sessionJson Scenario.parse_sessionText hsimilar
    exact ⟨response, hread, hid, hfiles _⟩

/-! ## Announcements and registrations -/

namespace AnnouncementMessage

def shape : Shape := .struct (fieldNames.map fun name => (name, .value))

/-- An announcement is read back from what is written of it. -/
theorem ofJson_toJson (h : serde.Documented) (message : AnnouncementMessage) :
    ofJson serde (message.toJson serde) = some message := by
  unfold ofJson toJson
  rw [h.writeStruct, h.readStruct _ _ _ (by simp [Once, fieldNames])]
  simp [member?_cons, h.required, h.defaulted, h.readString, h.readBool, h.readU16, option_string h,
    option_bool h, option_deviceType h, Protocol.ofJson_toJson h]

/-- An announcement is read alike from similar objects. -/
theorem respects (h : serde.Documented) : Respects shape (ofJson serde) := by
  refine h.respects_values fun f f' hget => ?_
  simp only [fieldNames, List.forall_mem_cons] at hget
  simp only [h.required, h.defaulted, hget]

end AnnouncementMessage

/-- A device at the address that it was seen at. -/
def DeviceInfo.seenAt (device : DeviceInfo) (ip : String) :
    DeviceInfo := { device with ip := some ip }

/-- A device is read from every text that is similar to what is written of it. -/
theorem DeviceInfo.fromStr_similar (h : serde.Documented) {device : DeviceInfo} {text : String}
    {j : Json} (hparse : serde.parse text = some j)
    (hsimilar : Similar DeviceInfo.shape (device.toJson serde) j) :
    serde.fromStr (DeviceInfo.ofJson serde) text = some device := by
  rw [Serde.fromStr, hparse, Option.bind_some, DeviceInfo.respects h hsimilar,
    DeviceInfo.ofJson_toJson h]

/-- A listener takes an announcement that is not its own for the device that has announced itself. -/
theorem DiscoveryListener.receive_of_announced {s : MulticastDiscovery tls}
    {message : AnnouncementMessage}
    (hannounced : s.announcePresence = .ok message) {listener : DiscoveryListener tls}
    (hother : listener.localFingerprint ≠ s.localDevice.fingerprint) (src : String) :
    listener.receive message src = some (s.localDevice.seenAt src) := by
  unfold MulticastDiscovery.announcePresence at hannounced
  split at hannounced
  · cases hannounced
  · cases hannounced
    exact if_neg hother.symm

/-- What one discovery announces, the listener of another hears as the device of the first, at the
    address it came from. What the listener registers with it, the first takes for the device of the
    listener, at the address of that, and tries to report it: it gets into the event channel if this
    has room. The listener reads its answer as the device that answers: whatever texts of the three
    messages are on the way. -/
theorem presence_read_back (hserde : serde.Documented) {server : JsonExtractor}
    (hserver : server.Documented serde) {s : MulticastDiscovery tls} {message : AnnouncementMessage}
    (hannounced : s.announcePresence = .ok message) {listener : DiscoveryListener tls}
    (hother : listener.localFingerprint ≠ s.localDevice.fingerprint) (src peer : String) :
    (∀ (msg : String) (j : Json), serde.parse msg = some j →
      Similar AnnouncementMessage.shape (message.toJson serde) j →
      listener.receiveDatagram serde msg src = some (s.localDevice.seenAt src)) ∧
    ∀ (device : DeviceInfo) (events : EventChannel) (body : String) (j : Json),
      let client := listener.clientForAnnouncement (s.localDevice.seenAt src)
      let sighting := ServerEvent.peerRegistered (client.registerBody.seenAt peer)
      serde.parse body = some j → Similar DeviceInfo.shape (client.registerBody.toJson serde) j →
      body.utf8ByteSize ≤ bodyLimit →
      handleRegister serde server device events peer body =
          (events.trySend sighting, .ok (device.toJson serde)) ∧
        (events.hasRoom = true → (events.trySend sighting).queue = events.queue ++ [sighting]) ∧
        ∀ (text : String) (answer : Json), serde.parse text = some answer →
          Similar DeviceInfo.shape (device.toJson serde) answer →
          LocalSendClient.register (s.localDevice.seenAt src)
            (.response 200 (serde.fromStr (DeviceInfo.ofJson serde) text)) = .ok device := by
  constructor
  -- the datagram, as the listener reads it
  · intro msg j hparse hsimilar
    have hread : serde.fromStr (AnnouncementMessage.ofJson serde) msg = some message := by
      rw [Serde.fromStr, hparse, Option.bind_some, AnnouncementMessage.respects hserde hsimilar,
        AnnouncementMessage.ofJson_toJson hserde]
    rw [DiscoveryListener.receiveDatagram, hread]
    exact DiscoveryListener.receive_of_announced hannounced hother src
  -- the registration, as the server reads it and the client reads its answer
  · intro device events body j client sighting hparse hsimilar hlength
    have hread := DeviceInfo.fromStr_similar hserde hparse hsimilar
    refine ⟨?_, fun hroom => BoundedChannel.queue_trySend_of_room hroom sighting, ?_⟩
    · rw [handleRegister, hserver.decoded _ body _ hlength hread]
      rfl
    · intro text answer hanswer hsimilar'
      rw [DeviceInfo.fromStr_similar hserde hanswer hsimilar']
      rfl

namespace Scenario

/-- A discovery that is started without a certificate. -/
def phoneDiscovery : MulticastDiscovery textTls where
  localDevice := photoOffer.info
  listeners := [⟨"a", photoOffer.info, none⟩]
  running := true
  clientCertificate := none

def tablet : DeviceInfo := ⟨"tablet", "2.1", none, some .desktop, "b", 53317, .http, true, none⟩

/-- What the phone announces. -/
def phoneMessage : AnnouncementMessage where
  deviceAlias := "phone"
  version := "2.1"
  deviceModel := none
  deviceType := some .mobile
  fingerprint := "a"
  port := 53317
  protocol := .https
  download := false
  announce := true
  announcement := some true

/-- A text of the announcement, with its first member last. -/
def phoneText : String :=
  braced ("\"version\":\"2.1\",\"deviceModel\":null,\"deviceType\":\"mobile\",\"fingerprint\":\"a\"," ++
    "\"port\":53317,\"protocol\":\"https\",\"download\":false,\"announce\":true,\"announcement\":true," ++
    "\"alias\":\"phone\"")

def phoneJson : Json :=
  .object [
    ("version", .string "2.1"), ("deviceModel", .null), ("deviceType", .string "mobile"),
    ("fingerprint", .string "a"), ("port", .natural 53317), ("protocol", .string "https"),
    ("download", .bool false), ("announce", .bool true), ("announcement", .bool true),
    ("alias", .string "phone")]

/-- The text that the tablet registers with. -/
def tabletText : String :=
  braced ("\"alias\":\"tablet\",\"version\":\"2.1\",\"deviceModel\":null,\"deviceType\":\"desktop\"," ++
    "\"fingerprint\":\"b\",\"port\":53317,\"protocol\":\"http\",\"download\":true")

def tabletJson : Json :=
  .object [
    ("alias", .string "tablet"), ("version", .string "2.1"), ("deviceModel", .null),
    ("deviceType", .string "desktop"), ("fingerprint", .string "b"), ("port", .natural 53317),
    ("protocol", .string "http"), ("download", .bool true)]

def presenceParse (text : String) : Option Json :=
  if text = phoneText then some phoneJson
  else if text = tabletText then some tabletJson
  else none

def presenceSerde : Serde := .plain presenceParse

/-- The first text is that of the phone. -/
theorem parse_phoneText : presenceSerde.parse phoneText = some phoneJson := by
  simp only [presenceSerde, Serde.plain]
  rw [presenceParse, if_pos rfl]

/-- The second one is that of the tablet. -/
theorem parse_tabletText : presenceSerde.parse tabletText = some tabletJson := by
  have hother : tabletText ≠ phoneText := by decide +kernel
  simp only [presenceSerde, Serde.plain]
  rw [presenceParse, if_neg hother, if_pos rfl]

/-- The text of the phone is one of its announcement. -/
theorem similar_phoneJson :
    Similar AnnouncementMessage.shape (phoneMessage.toJson presenceSerde) phoneJson := by
  show Similar AnnouncementMessage.shape (.object (("alias", .string "phone") :: _)) _
  apply Similar.of_perm
  · decide
  · exact ((List.perm_append_singleton ("alias", Json.string "phone") _).symm).filter _

/-- The tablet writes the text as it is. -/
theorem similar_tabletJson : Similar DeviceInfo.shape (tablet.toJson presenceSerde) tabletJson :=
  .refl _ _

end Scenario

/-- The tablet hears the phone, and registers with it. -/
theorem presence_read_back_phone :
    (⟨"b", Scenario.tablet, none⟩ : DiscoveryListener textTls).receiveDatagram
      Scenario.presenceSerde
      Scenario.phoneText "10.0.0.2" = some (Scenario.photoOffer.info.seenAt "10.0.0.2") ∧
    (handleRegister Scenario.presenceSerde (Scenario.extractor Scenario.presenceSerde)
      Scenario.photoOffer.info (.new 64) "10.0.0.3" Scenario.tabletText).1.queue =
        [.peerRegistered (Scenario.tablet.seenAt "10.0.0.3")] := by
  let listener : DiscoveryListener textTls := ⟨"b", Scenario.tablet, none⟩
  have hserde : Scenario.presenceSerde.Documented := Serde.plain_documented _
  have hannounced : Scenario.phoneDiscovery.announcePresence = .ok Scenario.phoneMessage := rfl
  have hother : listener.localFingerprint ≠ Scenario.phoneDiscovery.localDevice.fingerprint := by
    decide
  have hlength : Scenario.tabletText.utf8ByteSize ≤ bodyLimit := by decide +kernel
  obtain ⟨hheard, hregister⟩ :=
    presence_read_back hserde (Scenario.extractor_documented _) hannounced
    hother "10.0.0.2" "10.0.0.3"
  obtain ⟨hanswer, hqueue, -⟩ := hregister Scenario.photoOffer.info (.new 64) Scenario.tabletText
    Scenario.tabletJson Scenario.parse_tabletText Scenario.similar_tabletJson hlength
  refine ⟨hheard Scenario.phoneText Scenario.phoneJson Scenario.parse_phoneText
    Scenario.similar_phoneJson, ?_⟩
  rw [hanswer]
  exact hqueue rfl

end LocalSend
