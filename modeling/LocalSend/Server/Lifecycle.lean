import LocalSend.Crypto.Tls
import LocalSend.Protocol.Types

/-!
# Building, starting and stopping a server

`LocalSendServer` (`src/server/server.rs`) under HTTPS, as far as its identity goes: the certificate
that its listener is configured with, and the device that its handlers answer with.
-/

namespace LocalSend

variable {tls : TlsLibrary}

/-- A listener that was started, with the certificate that its TLS configuration is from and the
    device of its `ServerState`. -/
structure ServerListener (tls : TlsLibrary) where
  certificate : TlsIdentity tls
  device : DeviceInfo

/-- What a peer sees of the certificate: the hash of the DER that the PEM is parsed to. -/
def ServerListener.presents (listener : ServerListener tls) : Option String :=
  (tls.certificateDer listener.certificate.certPem).map tls.sha256

/-- The body of `handle_info`. -/
def ServerListener.handleInfo (listener : ServerListener tls) : DeviceInfo := listener.device

/-- The body of `handle_register`. -/
def ServerListener.handleRegister (listener : ServerListener tls) : DeviceInfo := listener.device

structure LocalSendServer (tls : TlsLibrary) where
  device : DeviceInfo
  tlsCert : Option (TlsIdentity tls)
  /-- The listener of the last `start`. -/
  running : Option (ServerListener tls)
  /-- Listeners that were stopped or replaced; a connection may outlive its listener. -/
  former : List (ServerListener tls)

/-- What a builder is given, under HTTPS, and what the machine says of itself. -/
structure LocalSendServerBuilder (tls : TlsLibrary) where
  deviceAlias : String
  version : String
  deviceModel : String
  deviceType : DeviceType
  port : UInt16
  tlsCertificate : Option (TlsIdentity tls)

/-- The calls of a server. `start` generates a certificate where none is set; `port` is the one it
    is bound to, `none` where its TLS configuration or its socket fails. -/
inductive ServerCall (tls : TlsLibrary) where
  | setTlsCertificate (certificate : TlsIdentity tls)
  | start (generated : TlsIdentity tls) (port : Option UInt16)
  | stop

namespace LocalSendServer

def setTlsCertificate (s : LocalSendServer tls) (certificate : TlsIdentity tls) :
    LocalSendServer tls :=
  { s with tlsCert := some certificate }

def start (s : LocalSendServer tls) (generated : TlsIdentity tls) (port : Option UInt16) :
    Option (LocalSendServer tls) :=
  port.map fun port =>
    let device := { s.device with port := port }
    { s with
      device := device
      running := some ⟨s.tlsCert.getD generated, device⟩
      former := s.running.toList ++ s.former }

def stop (s : LocalSendServer tls) : LocalSendServer tls :=
  { s with running := none, former := s.running.toList ++ s.former }

/-- The server after a call; a call that returns an error leaves it as it is. -/
def call (s : LocalSendServer tls) : ServerCall tls → LocalSendServer tls
  | .setTlsCertificate certificate => s.setTlsCertificate certificate
  | .start generated port => (s.start generated port).getD s
  | .stop => s.stop

/-- Every listener that a request may reach. -/
def listeners (s : LocalSendServer tls) : List (ServerListener tls) := s.running.toList ++ s.former

end LocalSendServer

/-- `LocalSendServerBuilder::build`, with the certificate that it generates where none is given. -/
def LocalSendServerBuilder.build (b : LocalSendServerBuilder tls) (generated : TlsIdentity tls)
    (port : Option UInt16) : Option (LocalSendServer tls) :=
  let tlsCert := b.tlsCertificate.getD generated
  let server : LocalSendServer tls :=
    { device := {
        deviceAlias := b.deviceAlias
        version := b.version
        deviceModel := some b.deviceModel
        deviceType := some b.deviceType
        fingerprint := tlsCert.fingerprint
        port := b.port
        protocol := .https
        download := false
        ip := none }
      tlsCert := none
      running := none
      former := [] }
  (server.setTlsCertificate tlsCert).start generated port

/-- A server under HTTPS, whatever is called on it. -/
def serverLifecycle (tls : TlsLibrary) :
    TransitionSystem (LocalSendServer tls) (ServerCall tls) where
  Init s := ∃ (b : LocalSendServerBuilder tls) (generated : TlsIdentity tls) (port : Option UInt16),
    b.build generated port = some s
  step s call := some (s.call call)

end LocalSend
