import LocalSend.Discovery.Multicast
import LocalSend.Protocol.Json
import LocalSend.Server.Events

/-!
# Announcements and registrations on the wire

What a listener (`src/discovery/multicast.rs`) makes of a datagram, and `handle_register`
(`src/server/handlers.rs`) of a body. Each takes the address of the peer from its socket.
-/

namespace LocalSend

open Json

variable {tls : TlsLibrary}

namespace AnnouncementMessage

def fieldNames : List String :=
  ["alias", "version", "deviceModel", "deviceType", "fingerprint", "port", "protocol", "download",
    "announce", "announcement"]

def toJson (serde : Serde) (message : AnnouncementMessage) : Json :=
  serde.writeStruct [
    ("alias", .string message.deviceAlias),
    ("version", .string message.version),
    ("deviceModel", serde.writeOption .string message.deviceModel),
    ("deviceType", serde.writeOption DeviceType.toJson message.deviceType),
    ("fingerprint", .string message.fingerprint),
    ("port", .natural message.port.toUInt64),
    ("protocol", message.protocol.toJson),
    ("download", .bool message.download),
    ("announce", .bool message.announce),
    ("announcement", serde.writeOption .bool message.announcement)]

def ofJson (serde : Serde) : Json → Option AnnouncementMessage :=
  serde.readStruct fieldNames fun f => do
    let deviceAlias ← serde.required "alias" serde.readString f
    let version ← serde.required "version" serde.readString f
    let deviceModel ← serde.defaulted "deviceModel" none (serde.readOption serde.readString) f
    let deviceType ← serde.defaulted "deviceType" none (serde.readOption (DeviceType.ofJson serde)) f
    let fingerprint ← serde.required "fingerprint" serde.readString f
    -- without the defaults of a `DeviceInfo`
    let port ← serde.required "port" serde.readU16 f
    let protocol ← serde.required "protocol" (Protocol.ofJson serde) f
    let download ← serde.defaulted "download" false serde.readBool f
    let announce ← serde.defaulted "announce" false serde.readBool f
    let announcement ← serde.defaulted "announcement" none (serde.readOption serde.readBool) f
    return {
      deviceAlias, version, deviceModel, deviceType, fingerprint, port, protocol, download,
      announce, announcement }

end AnnouncementMessage

/-- The device that a datagram comes from, unless it is ignored: it is no announcement, or one of
    the listener's own. -/
def DiscoveryListener.receiveDatagram (serde : Serde) (listener : DiscoveryListener tls)
    (msg : String) (src : String) : Option DeviceInfo :=
  (serde.fromStr (AnnouncementMessage.ofJson serde) msg).bind fun announcement =>
    listener.receive announcement src

/-- `handle_register`: the event channel after it, and what it answers. Where the channel has no
    room, the sighting is dropped. -/
def handleRegister (serde : Serde) (server : JsonExtractor) (device : DeviceInfo)
    (events : EventChannel) (peer : String) (body : String) : EventChannel × Except Nat Json :=
  match server.extract (DeviceInfo.ofJson serde) body with
  | .ok remoteDevice =>
    (events.trySend (.peerRegistered { remoteDevice with ip := some peer }),
      .ok (device.toJson serde))
  | .error status => (events, .error status)

end LocalSend
