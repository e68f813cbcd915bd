import LocalSend.Client.Urls
import LocalSend.Crypto.Tls

/-!
# Multicast discovery

`MulticastDiscovery` (`src/discovery/multicast.rs`): what it announces, and what its listeners do
with the announcements of others. `start` spawns a listener for each interface, and each of them
keeps the device and the certificate that were set at that time.
-/

namespace LocalSend

variable {tls : TlsLibrary}

structure AnnouncementMessage where
  /-- `alias`, a reserved word here. -/
  deviceAlias : String
  version : String
  deviceModel : Option String
  deviceType : Option DeviceType
  fingerprint : String
  port : UInt16
  protocol : Protocol
  download : Bool
  announce : Bool
  announcement : Option Bool
deriving DecidableEq, Repr

/-- A client: the device that it registers, and the certificate that it presents. -/
structure LocalSendClient (tls : TlsLibrary) where
  device : DeviceInfo
  certificate : Option (TlsIdentity tls)

/-- The body of `LocalSendClient::register`. -/
def LocalSendClient.registerBody (client : LocalSendClient tls) : DeviceInfo := client.device

/-- `LocalSendClient::with_trust_policy_and_client_certificate`, where it succeeds. -/
def LocalSendClient.withClientCertificate (device : DeviceInfo) (certificate : TlsIdentity tls) :
    LocalSendClient tls where
  device := { device with fingerprint := certificate.fingerprint }
  certificate := some certificate

/-- A listener task, with what it captured when it was spawned. -/
structure DiscoveryListener (tls : TlsLibrary) where
  localFingerprint : String
  localDevice : DeviceInfo
  clientCertificate : Option (TlsIdentity tls)

namespace DiscoveryListener

/-- The device that an announcement comes from, unless it is ignored. -/
def receive (listener : DiscoveryListener tls) (announcement : AnnouncementMessage) (src : String) :
    Option DeviceInfo :=
  if announcement.fingerprint = listener.localFingerprint then none
  else some {
    deviceAlias := announcement.deviceAlias
    version := announcement.version
    deviceModel := announcement.deviceModel
    deviceType := announcement.deviceType
    fingerprint := announcement.fingerprint
    port := announcement.port
    protocol := announcement.protocol
    download := announcement.download
    ip := some src }

/-- The client that registers with the device that was announced, where there can be one. -/
def clientForAnnouncement (listener : DiscoveryListener tls) (target : DeviceInfo) :
    LocalSendClient tls :=
  match target.protocol with
  | .http => ⟨listener.localDevice, none⟩
  | .https =>
    match listener.clientCertificate with
    | some certificate => .withClientCertificate listener.localDevice certificate
    | none => ⟨listener.localDevice, none⟩

end DiscoveryListener

/-- A discovery has a listener for each of its sockets. -/
structure MulticastDiscovery (tls : TlsLibrary) where
  localDevice : DeviceInfo
  listeners : List (DiscoveryListener tls)
  running : Bool
  clientCertificate : Option (TlsIdentity tls)

/-- The calls of a discovery. `start` is given the number of interfaces, or the error of the one
    that has no socket. -/
inductive DiscoveryCall (tls : TlsLibrary) where
  | setLocalDevice (device : DeviceInfo)
  | setClientCertificate (certificate : TlsIdentity tls)
  | start (interfaces : Except LocalSendError Nat)
  | announcePresence

namespace MulticastDiscovery

def newWithDevice (device : DeviceInfo) : MulticastDiscovery tls where
  localDevice := device
  listeners := []
  running := false
  clientCertificate := none

def setLocalDevice (s : MulticastDiscovery tls) (device : DeviceInfo) : MulticastDiscovery tls :=
  { s with localDevice := device }

def setClientCertificate (s : MulticastDiscovery tls) (certificate : TlsIdentity tls) :
    MulticastDiscovery tls where
  localDevice :=
    if s.localDevice.protocol = .https then
      { s.localDevice with fingerprint := certificate.fingerprint }
    else s.localDevice
  listeners := s.listeners
  running := s.running
  clientCertificate := some certificate

def start (s : MulticastDiscovery tls) (interfaces : Except LocalSendError Nat) :
    Except LocalSendError (MulticastDiscovery tls) :=
  if s.running then .error (.network "Discovery already running")
  else
    interfaces.map fun n => { s with
      listeners := List.replicate n ⟨s.localDevice.fingerprint, s.localDevice, s.clientCertificate⟩
      running := true }

def announcePresence (s : MulticastDiscovery tls) : Except LocalSendError AnnouncementMessage :=
  if s.listeners = [] then .error (.network "Discovery not started")
  else
    .ok {
      deviceAlias := s.localDevice.deviceAlias
      version := s.localDevice.version
      deviceModel := s.localDevice.deviceModel
      deviceType := s.localDevice.deviceType
      fingerprint := s.localDevice.fingerprint
      port := s.localDevice.port
      protocol := s.localDevice.protocol
      download := s.localDevice.download
      announce := true
      announcement := some true }

/-- The discovery after a call; a call that returns an error leaves it as it is. -/
def call (s : MulticastDiscovery tls) : DiscoveryCall tls → MulticastDiscovery tls
  | .setLocalDevice device => s.setLocalDevice device
  | .setClientCertificate certificate => s.setClientCertificate certificate
  | .start interfaces => (s.start interfaces).toOption.getD s
  | .announcePresence => s

end MulticastDiscovery

/-- A discovery under HTTPS, whatever is called on it. -/
def discoverySystem (tls : TlsLibrary) :
    TransitionSystem (MulticastDiscovery tls) (DiscoveryCall tls) where
  Init s := ∃ device : DeviceInfo, device.protocol = .https ∧ s = .newWithDevice device
  step s call :=
    match call with
    | .setLocalDevice device => if device.protocol = .https then some (s.call call) else none
    | _ => some (s.call call)

end LocalSend
