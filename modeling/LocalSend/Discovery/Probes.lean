import LocalSend.Discovery.Http

/-!
# The requests of a sweep

A sweep of `HttpDiscovery` (`src/discovery/http.rs`) one request at a time: what each of its probes
has sent to its host, and what came of it. The network answers as it pleases and in any order. A
sweep that is over has dropped its stream, and the probes in it.

`build_discovery_client` sets no redirect policy, so the HTTP client follows the redirects of a host
before a probe hears of them. How it goes on from one is a parameter.
-/

namespace LocalSend

open IpText

/-! ## Requests -/

/-- `GET` of `/info`, or `POST` of the local device to `/register`. -/
inductive HttpMethod where
  | get
  | post
deriving DecidableEq, Repr

structure ProbeRequest where
  method : HttpMethod
  protocol : Protocol
deriving DecidableEq, Repr

def ProbeRequest.url (request : ProbeRequest) (ip : String) (port : UInt16) : String :=
  match request.method with
  | .get => HttpDiscovery.probeInfoUrl ip port request.protocol
  | .post => HttpDiscovery.probeRegisterUrl ip port request.protocol

/-! ## Redirects -/

/-- A redirect that the client has followed: the status of the response, and the request that it has
    made of the `Location`. A `POST` carries the body of the first request along. -/
structure Redirect where
  status : Nat
  method : HttpMethod
  location : String
deriving DecidableEq, Repr

/-- The redirect policy of the client: the method with which it goes on from a response to a
    request, if it does, and how often for one request. -/
structure RedirectPolicy where
  follow : HttpMethod → Nat → Option HttpMethod
  limit : Nat

namespace RedirectPolicy

/-- A policy that keeps to its documentation. -/
structure Documented (policy : RedirectPolicy) : Prop where
  get : ∀ status method, policy.follow .get status = some method → method = .get
  post : ∀ status, policy.follow .post status = some .post → status = 307 ∨ status = 308

/-- The method of the request that the client is at, after some redirects. -/
def methodAfter (request : ProbeRequest) (chain : List Redirect) : HttpMethod :=
  (chain.getLast?.map Redirect.method).getD request.method

/-- What the client makes of a redirect to `location`. -/
def next (policy : RedirectPolicy) (request : ProbeRequest) (chain : List Redirect) (status : Nat)
    (location : String) : Option Redirect :=
  if chain.length < policy.limit then
    (policy.follow (methodAfter request chain) status).map fun method => ⟨status, method, location⟩
  else none

end RedirectPolicy

inductive ProbeEvent where
  | sent (request : ProbeRequest)
  | redirected (redirect : Redirect)
  | answered (request : ProbeRequest) (reply : HttpReply)
deriving DecidableEq, Repr

/-- `probe_peer`: one known peer, at its own port. -/
def HttpDiscovery.probePeer (self : HttpDiscovery) (network : String → HttpReply) (ip : String)
    (port : UInt16) : Option DeviceInfo :=
  go self.protocolCandidates
where
  go : List Protocol → Option DeviceInfo
    | [] => none
    | protocol :: rest =>
      match probeInfoWith network ip port protocol with
      | .found device => some device
      | .unreachable => none
      | .registerFallback =>
        match probeRegisterWith network ip port protocol with
        | .found device => some device
        | .unreachable => none
        | .miss | .registerFallback => go rest
      | .miss => go rest

/-! ## One probe -/

/-- What the probes of a sweep run: `probe_info`, or `probe_register_peer`. -/
inductive ProbeProgram where
  | info (targetPort : UInt16) (allowRegisterFallback : Bool)
  | register
deriving DecidableEq, Repr

/-- A probe: it is about to send a request, it waits for the answer while the client follows
    redirects, or it has returned. The rest are the protocols that are tried after this one. -/
inductive ProbePhase where
  | asking (request : ProbeRequest) (rest : List Protocol)
  | waiting (request : ProbeRequest) (chain : List Redirect) (rest : List Protocol)
  | returned (answer : Option DeviceInfo)
deriving DecidableEq, Repr

/-- What the stream yields of a probe. -/
def ProbePhase.answer : ProbePhase → Option DeviceInfo
  | .returned answer => answer
  | _ => none

namespace ProbeProgram

/-- The head of the loop over the protocols. -/
def next (program : ProbeProgram) : List Protocol → ProbePhase
  | [] => .returned none
  | protocol :: rest =>
    match program with
    | .info .. => .asking ⟨.get, protocol⟩ rest
    | .register => .asking ⟨.post, protocol⟩ rest

/-- The body of the loop, from the answer to a request on. -/
def resume (program : ProbeProgram) (ip : String) (port : UInt16) (request : ProbeRequest)
    (rest : List Protocol) (reply : HttpReply) : ProbePhase :=
  match request.method with
  | .get =>
    match HttpDiscovery.probeInfoWith (fun _ => reply) ip port request.protocol with
    | .found device => .returned (some device)
    | .unreachable => .returned none
    | .registerFallback =>
      match program with
      | .info _ true => .asking ⟨.post, request.protocol⟩ rest
      | _ => program.next rest
    | .miss => program.next rest
  | .post =>
    match HttpDiscovery.probeRegisterWith (fun _ => reply) ip port request.protocol with
    | .found device => .returned (some device)
    | .unreachable => .returned none
    | .miss | .registerFallback => program.next rest

end ProbeProgram

/-! ## A sweep -/

/-- A call of `scan_hosts` or of `scan_register_hosts`. -/
structure Sweep where
  discovery : HttpDiscovery
  targets : List String
  program : ProbeProgram
  within : Option Nat

/-- The port that a sweep asks. -/
def Sweep.port (call : Sweep) : UInt16 :=
  match call.program with
  | .info targetPort _ => targetPort
  | .register => call.discovery.localDevice.port

/-- Host addresses `x.y.z.1..=254` in the `/24` of `base_ip`, excluding `base_ip` itself. -/
def subnetHosts (baseIp : String) : Option (List String) :=
  (Url.parseDotted baseIp.toList).map fun address =>
    let network := decimal (octet address 0) ++ '.' :: decimal (octet address 1) ++
      '.' :: decimal (octet address 2)
    ((List.range' 1 254).map fun host => String.ofList (network ++ '.' :: decimal host)).filter
      fun ip => ip ≠ baseIp

namespace HttpDiscovery

/-- `scan_subnet`, and `scan_subnet_within`. -/
def scanSubnet (self : HttpDiscovery) (baseIp : String) (within : Option Nat) : Option Sweep :=
  (subnetHosts baseIp).map fun targets => ⟨self, targets, .info self.localDevice.port false, within⟩

def scanSubnetRegisterWithin (self : HttpDiscovery) (baseIp : String) (within : Nat) :
    Option Sweep :=
  (subnetHosts baseIp).map fun targets => ⟨self, targets, .register, some within⟩

/-- `scan_ips`, and `scan_ips_within`. -/
def scanIps (self : HttpDiscovery) (ips : List String) (within : Option Nat) : Sweep :=
  ⟨self, ips, .info self.localDevice.port true, within⟩

end HttpDiscovery

structure SweepState where
  scan : ScanState
  /-- The future of each target. -/
  phases : Nat → ProbePhase
  /-- What has happened at which target. -/
  log : List (Nat × ProbeEvent)

inductive SweepAction where
  /-- A probe sends its request. -/
  | send (probe : Nat)
  /-- The host that the client is at answers with a redirect. -/
  | redirect (probe : Nat) (status : Nat) (location : String)
  /-- The request of a probe comes to something. -/
  | answer (probe : Nat) (reply : HttpReply)
  | scan (action : ScanAction)
deriving DecidableEq

namespace SweepState

def start (call : Sweep) : SweepState where
  scan := .start call.targets.length
  phases _ := call.program.next call.discovery.protocolCandidates
  log := []

/-- What the stream yields for each target. -/
def answers (w : SweepState) (call : Sweep) : List (Option DeviceInfo) :=
  (List.range call.targets.length).map fun i => (w.phases i).answer

/-- A probe that is under way goes on. -/
def goOn (w : SweepState) (i : Nat) (phase : ProbePhase) (event : ProbeEvent) : SweepState where
  scan := w.scan
  phases := Function.update w.phases i phase
  log := w.log ++ [(i, event)]

/-- The loop of the sweep takes a step. -/
def loop (w : SweepState) (call : Sweep) (action : ScanAction) : Option SweepState :=
  ((sweep (w.answers call) call.within).step w.scan action).map fun scan => { w with scan := scan }

end SweepState

/-- The runs of a sweep, request by request. -/
def Sweep.requests (call : Sweep) (policy : RedirectPolicy) :
    TransitionSystem SweepState SweepAction where
  Init w := w = .start call
  step w
    | .send i =>
      if i ∈ w.scan.probes.running ∧ w.scan.isOver = false then
        match w.phases i with
        | .asking request rest => some (w.goOn i (.waiting request [] rest) (.sent request))
        | _ => none
      else none
    | .redirect i status location =>
      if i ∈ w.scan.probes.running ∧ w.scan.isOver = false then
        match w.phases i with
        | .waiting request chain rest =>
          (policy.next request chain status location).map fun redirect =>
            w.goOn i (.waiting request (chain ++ [redirect]) rest) (.redirected redirect)
        | _ => none
      else none
    | .answer i reply =>
      if i ∈ w.scan.probes.running ∧ w.scan.isOver = false then
        match w.phases i, call.targets[i]? with
        | .waiting request _ rest, some ip =>
          some (w.goOn i (call.program.resume ip call.port request rest reply)
            (.answered request reply))
        | _, _ => none
      else none
    | .scan (.finish i) =>
      match w.phases i with
      | .returned _ => w.loop call (.finish i)
      | _ => none
    | .scan action => w.loop call action

end LocalSend
