import LocalSend.ForStd.BufferUnordered
import LocalSend.ForStd.TransitionSystem
import LocalSend.Client.Urls

/-!
# Sweeps over HTTP

`HttpDiscovery` (`src/discovery/http.rs`): the probes of one host, and the sweeps of `scan_hosts`
and `scan_register_hosts` over many. The probes of a sweep run in a `buffer_unordered` stream, whose
answers are taken as they arrive; with a deadline, `timeout_at` asks the stream first, so it cuts a
sweep only where the stream has nothing to give.
-/

namespace LocalSend

/-! ## One host -/

/-- What becomes of a request: `send` fails, or there is a response, with the device that its body
    decodes to. A body that does not arrive in time decodes to none. -/
inductive HttpReply where
  | error (isTimeout : Bool)
  | response (status : Nat) (body : Option DeviceInfo)
deriving DecidableEq, Repr

/-- Result of probing one host on one scheme. -/
inductive ProbeOutcome where
  | found (device : DeviceInfo)
  | unreachable
  | miss
  | registerFallback
deriving DecidableEq, Repr

def registerFallbackStatus (status : Nat) : Bool := status = 404 || status = 405

structure HttpDiscovery where
  localDevice : DeviceInfo

namespace HttpDiscovery

def protocolCandidates (self : HttpDiscovery) : List Protocol :=
  match self.localDevice.protocol with
  | .https => [.https, .http]
  | .http => [.http, .https]

/-- The device of a successful response, at the address that was asked. -/
def foundDevice (ip : String) (port : UInt16) (protocol : Protocol) :
    Option DeviceInfo → ProbeOutcome
  | none => .miss
  | some device => .found { device with ip := some ip, port := port, protocol := protocol }

/-- `probe_info_with`, for what a `GET` of a URL comes to. -/
def probeInfoWith (network : String → HttpReply) (ip : String) (port : UInt16)
    (protocol : Protocol) :
    ProbeOutcome :=
  match network (probeInfoUrl ip port protocol) with
  | .error isTimeout => if isTimeout then .unreachable else .miss
  | .response status body =>
    if 200 ≤ status ∧ status < 300 then foundDevice ip port protocol body
    else if registerFallbackStatus status then .registerFallback
    else .miss

/-- `probe_register_with`, for what a `POST` to a URL comes to. -/
def probeRegisterWith (network : String → HttpReply) (ip : String) (port : UInt16)
    (protocol : Protocol) :
    ProbeOutcome :=
  match network (probeRegisterUrl ip port protocol) with
  | .error isTimeout => if isTimeout then .unreachable else .miss
  | .response status body =>
    if 200 ≤ status ∧ status < 300 then foundDevice ip port protocol body else .miss

def probeInfo (self : HttpDiscovery) (network : String → HttpReply) (ip : String) (port : UInt16)
    (allowRegisterFallback : Bool) : Option DeviceInfo :=
  go self.protocolCandidates
where
  go : List Protocol → Option DeviceInfo
    | [] => none
    | protocol :: rest =>
      match probeInfoWith network ip port protocol with
      | .found device => some device
      | .unreachable => none
      | .registerFallback =>
        if allowRegisterFallback then
          match probeRegisterWith network ip port protocol with
          | .found device => some device
          | .unreachable => none
          | .miss | .registerFallback => go rest
        else go rest
      | .miss => go rest

def probeRegisterPeer (self : HttpDiscovery) (network : String → HttpReply) (ip : String) :
    Option DeviceInfo :=
  go self.protocolCandidates
where
  go : List Protocol → Option DeviceInfo
    | [] => none
    | protocol :: rest =>
      match probeRegisterWith network ip self.localDevice.port protocol with
      | .found device => some device
      | .unreachable => none
      | .miss | .registerFallback => go rest

end HttpDiscovery

/-! ## A sweep -/

def scanConcurrency : Nat := 50

/-- What a bounded sweep found, and whether it got to the end of its list. -/
structure ScanOutcome where
  devices : List DeviceInfo
  complete : Bool
deriving DecidableEq, Repr

/-- The loop of a sweep: its stream, and what it has taken from it. -/
structure ScanState where
  probes : BufferUnordered Nat
  discovered : List DeviceInfo
  complete : Bool
  isOver : Bool
deriving DecidableEq

inductive ScanAction where
  /-- A probe has its answer. -/
  | finish (probe : Nat)
  /-- The loop takes the answer of a probe. -/
  | next (probe : Nat)
  /-- The deadline passes while the loop waits for an answer. -/
  | deadline
  /-- The stream has no more answers. -/
  | exhausted
deriving DecidableEq, Repr

/-- A sweep that has polled its stream for the first time. -/
def ScanState.start (targets : Nat) : ScanState where
  probes := .start scanConcurrency (List.range targets)
  discovered := []
  complete := true
  isOver := false

/-- The loop of `scan_hosts` and of `scan_register_hosts`, on the answers of the probes. -/
def sweep (answers : List (Option DeviceInfo)) (within : Option Nat) :
    TransitionSystem ScanState ScanAction where
  Init s := s = .start answers.length
  step s a :=
    if s.isOver then none
    else
      match a with
      | .finish i => (s.probes.finish i).map fun probes => { s with probes := probes }
      | .next i => (s.probes.next scanConcurrency i).map fun probes =>
          { s with probes := probes, discovered := s.discovered ++ (answers[i]?.join).toList }
      | .deadline =>
        if within.isSome && s.probes.isPending then
          some { s with complete := false, isOver := true } else none
      | .exhausted => if s.probes.isExhausted then some { s with isOver := true } else none

/-- One round of the loop over the discovered devices: the fingerprints seen, and the result. -/
def addDiscovered (own : String) (acc : List String × List DeviceInfo) (device : DeviceInfo) :
    List String × List DeviceInfo :=
  if device.fingerprint = "" ∨ device.fingerprint = own then acc
  else if device.fingerprint ∈ acc.1 then acc
  else (device.fingerprint :: acc.1, acc.2 ++ [device])

namespace HttpDiscovery

/-- What is returned when the loop is over. -/
def outcome (self : HttpDiscovery) (s : ScanState) : ScanOutcome where
  devices := (s.discovered.foldl (addDiscovered self.localDevice.fingerprint) ([], [])).2
  complete := s.complete

/-- The answers of `scan_hosts`; `network` is what the requests of each probe come to. -/
def infoAnswers (self : HttpDiscovery) (network : Nat → String → HttpReply) (targets : List String)
    (targetPort : UInt16) (allowRegisterFallback : Bool) : List (Option DeviceInfo) :=
  targets.mapIdx fun i ip => self.probeInfo (network i) ip targetPort allowRegisterFallback

def registerAnswers (self : HttpDiscovery) (network : Nat → String → HttpReply)
    (targets : List String) :
    List (Option DeviceInfo) :=
  targets.mapIdx fun i ip => self.probeRegisterPeer (network i) ip

def scanHosts (self : HttpDiscovery) (network : Nat → String → HttpReply) (targets : List String)
    (targetPort : UInt16) (within : Option Nat) (allowRegisterFallback : Bool) :
    TransitionSystem ScanState ScanAction :=
  sweep (self.infoAnswers network targets targetPort allowRegisterFallback) within

def scanRegisterHosts (self : HttpDiscovery) (network : Nat → String → HttpReply)
    (targets : List String) (within : Option Nat) : TransitionSystem ScanState ScanAction :=
  sweep (self.registerAnswers network targets) within

end HttpDiscovery

end LocalSend
