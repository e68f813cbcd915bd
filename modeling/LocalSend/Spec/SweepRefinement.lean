import LocalSend.Spec.SweepDisclosure

/-!
# A sweep by requests is a sweep by probes

Where each request comes to what a network has for it, the runs of a sweep by requests are runs of
the sweep whose probes answer at once what they would get from this network. So what is proved of
the latter is so of the former.

## Key results

- `comesTo_resume`: an answer does not change what a probe comes to
- `requests_refine_scan`: the runs of a sweep, and what it reports
-/

namespace LocalSend

open BufferUnordered

/-! ## One probe -/

/-- A known peer is asked as a host that the caller names. -/
theorem HttpDiscovery.probePeer_eq (self : HttpDiscovery) (network : String → HttpReply)
    (ip : String) (port : UInt16) :
    self.probePeer network ip port = self.probeInfo network ip port true := by
  have hgo : ∀ protocols, probePeer.go network ip port protocols =
      probeInfo.go network ip port true protocols := by
    intro protocols
    induction protocols with
    | nil => rfl
    | cons protocol rest ih =>
      cases hinfo : probeInfoWith network ip port protocol with
      | found device => simp [probePeer.go, probeInfo.go, hinfo]
      | unreachable => simp [probePeer.go, probeInfo.go, hinfo]
      | miss => simp [probePeer.go, probeInfo.go, hinfo, ih]
      | registerFallback =>
        cases hregister : probeRegisterWith network ip port protocol <;>
          simp [probePeer.go, probeInfo.go, hinfo, hregister, ih]
  exact hgo self.protocolCandidates

namespace Sweep

/-- What a probe comes to on a network with the protocols that it has not tried. -/
def tried (call : Sweep) (network : String → HttpReply) (ip : String) (protocols : List Protocol) :
    Option DeviceInfo :=
  match call.program with
  | .info targetPort allowRegisterFallback =>
    HttpDiscovery.probeInfo.go network ip targetPort allowRegisterFallback protocols
  | .register => HttpDiscovery.probeRegisterPeer.go call.discovery network ip protocols

/-- What a probe comes to from a request on. -/
def comesFrom (call : Sweep) (network : String → HttpReply) (ip : String) (r : ProbeRequest)
    (rest : List Protocol) : Option DeviceInfo :=
  match r.method with
  | .get => call.tried network ip (r.protocol :: rest)
  | .post =>
    match HttpDiscovery.probeRegisterWith network ip call.port r.protocol with
    | .found device => some device
    | .unreachable => none
    | .miss | .registerFallback => call.tried network ip rest

def comesTo (call : Sweep) (network : String → HttpReply) (ip : String) :
    ProbePhase → Option DeviceInfo
  | .asking r rest => call.comesFrom network ip r rest
  | .waiting r _ rest => call.comesFrom network ip r rest
  | .returned answer => answer

/-- What the probes of a sweep come to. -/
def answersOf (call : Sweep) (network : Nat → String → HttpReply) : List (Option DeviceInfo) :=
  match call.program with
  | .info targetPort allowRegisterFallback =>
    call.discovery.infoAnswers network call.targets targetPort allowRegisterFallback
  | .register => call.discovery.registerAnswers network call.targets

/-- The sweep by probes. -/
def byProbes (call : Sweep) (network : Nat → String → HttpReply) :
    TransitionSystem ScanState ScanAction :=
  match call.program with
  | .info targetPort allowRegisterFallback =>
    call.discovery.scanHosts network call.targets targetPort call.within allowRegisterFallback
  | .register => call.discovery.scanRegisterHosts network call.targets call.within

/-- The sweep by probes is the sweep over the answers of the network. -/
theorem byProbes_eq (call : Sweep) (network : Nat → String → HttpReply) :
    call.byProbes network = sweep (call.answersOf network) call.within := by
  unfold byProbes answersOf
  cases call.program <;> rfl

/-- There is one answer for each target. -/
theorem length_answersOf (call : Sweep) (network : Nat → String → HttpReply) :
    (call.answersOf network).length = call.targets.length := by
  unfold answersOf
  cases call.program <;> simp [HttpDiscovery.infoAnswers, HttpDiscovery.registerAnswers]

/-- A target's answer is what is made of the tries at it. -/
theorem answersOf_getElem? (call : Sweep) (network : Nat → String → HttpReply) (i : Nat) :
    (call.answersOf network)[i]? = call.targets[i]?.map fun ip =>
      call.tried (network i) ip call.discovery.protocolCandidates := by
  unfold answersOf tried
  cases call.program <;>
    simp [HttpDiscovery.infoAnswers, HttpDiscovery.registerAnswers, HttpDiscovery.probeInfo,
      HttpDiscovery.probeRegisterPeer]

variable {call : Sweep} {network : String → HttpReply} {ip : String} {r : ProbeRequest}
  {rest : List Protocol}

/-- What follows the head of the loop. -/
theorem comesTo_next (call : Sweep) (network : String → HttpReply) (ip : String)
    (protocols : List Protocol) :
    call.comesTo network ip (call.program.next protocols) = call.tried network ip protocols := by
  cases hprogram : call.program with
  | info targetPort fallback =>
    cases protocols with
    | nil => simp [ProbeProgram.next, comesTo, tried, hprogram, HttpDiscovery.probeInfo.go]
    | cons protocol rest => rfl
  | register =>
    cases protocols with
    | nil => simp [ProbeProgram.next, comesTo, tried, hprogram, HttpDiscovery.probeRegisterPeer.go]
    | cons protocol rest =>
      cases hregister : HttpDiscovery.probeRegisterWith network ip
        call.discovery.localDevice.port protocol <;>
          simp [ProbeProgram.next, comesTo, comesFrom, tried, hprogram, port,
            HttpDiscovery.probeRegisterPeer.go, hregister]

/-- An answer does not change what a probe comes to. -/
theorem comesTo_resume (hget : r.method = .get → ∃ port fallback,
    call.program = .info port fallback) :
    call.comesTo network ip
      (call.program.resume ip call.port r rest (network (r.url ip call.port))) =
        call.comesFrom network ip r rest := by
  have hnext := call.comesTo_next network ip rest
  obtain ⟨method, protocol⟩ := r
  cases method with
  | get =>
    obtain ⟨targetPort, fallback, hprogram⟩ := hget rfl
    have hport : call.port = targetPort := by simp [port, hprogram]
    have htried : ∀ protocols, call.tried network ip protocols =
        HttpDiscovery.probeInfo.go network ip targetPort fallback protocols := by
      simp [tried, hprogram]
    -- the outcome of the request is the same, however the network is given
    have hsame : HttpDiscovery.probeInfoWith
        (fun _ => network (ProbeRequest.url ⟨.get, protocol⟩ ip targetPort)) ip targetPort protocol =
          HttpDiscovery.probeInfoWith network ip targetPort protocol := rfl
    simp only [ProbeProgram.resume, comesFrom, hport, hsame, htried, HttpDiscovery.probeInfo.go]
    -- by what the probe of `GET /info` makes of the reply
    cases HttpDiscovery.probeInfoWith network ip targetPort protocol with
    | found device => rfl
    | unreachable => rfl
    | miss => exact hnext.trans (htried rest)
    | registerFallback =>
      -- only a sweep that may register goes on with a `POST`
      cases fallback with
      | false =>
        rw [hprogram] at hnext ⊢
        exact hnext.trans (htried rest)
      | true =>
        rw [hprogram]
        simp only [comesTo, comesFrom, hport, htried]
        cases HttpDiscovery.probeRegisterWith network ip targetPort protocol <;> rfl
  | post =>
    -- a `POST` ends the protocol it was made over
    have hsame : HttpDiscovery.probeRegisterWith
        (fun _ => network (ProbeRequest.url ⟨.post, protocol⟩ ip call.port)) ip call.port protocol =
          HttpDiscovery.probeRegisterWith network ip call.port protocol := rfl
    simp only [ProbeProgram.resume, comesFrom, hsame]
    cases HttpDiscovery.probeRegisterWith network ip call.port protocol with
    | found device => rfl
    | unreachable => rfl
    | miss => exact hnext
    | registerFallback => exact hnext

end Sweep

/-! ## A sweep -/

/-- Every request came to what a network has for it. -/
def SweepState.AnsweredBy (w : SweepState) (call : Sweep) (network : Nat → String → HttpReply) : Prop :=
  ∀ i r reply ip, (i, ProbeEvent.answered r reply) ∈ w.log → call.targets[i]? = some ip →
    reply = network i (r.url ip call.port)

variable {call : Sweep} {policy : RedirectPolicy} {network : Nat → String → HttpReply}
  {w w' : SweepState} {a : SweepAction}

/-- What answered a longer run answered its beginning. -/
theorem SweepState.AnsweredBy.of_step (h : w'.AnsweredBy call network)
    (hstep : Sweep.Step call policy w a w') : w.AnsweredBy call network := by
  intro i r reply ip hmem
  apply h i r reply ip
  cases hstep with
  | send => exact List.mem_append_left _ hmem
  | redirect => exact List.mem_append_left _ hmem
  | answer => exact List.mem_append_left _ hmem
  | scan => exact hmem

/-- A `GET` is made by no sweep that registers. -/
def ProbePhase.Fits (program : ProbeProgram) : ProbePhase → Prop
  | .asking r _ => r.method = .get → ∃ port fallback, program = .info port fallback
  | .waiting r _ _ => r.method = .get → ∃ port fallback, program = .info port fallback
  | .returned _ => True

/-- The next try of a program fits it. -/
theorem fits_next (program : ProbeProgram) (protocols : List Protocol) :
    (program.next protocols).Fits program := by
  cases protocols with
  | nil => trivial
  | cons protocol rest =>
    cases program with
    | info port fallback => exact fun _ => ⟨port, fallback, rfl⟩
    | register => exact nofun

/-- What follows a reply fits the program. -/
theorem fits_resumed {program : ProbeProgram} {r : ProbeRequest} {rest : List Protocol}
    {reply : HttpReply} {phase : ProbePhase} (h : Resumed program r rest reply phase) :
    phase.Fits program := by
  cases h with
  | returned => trivial
  | fallback => exact nofun
  | next => exact fits_next program rest

/-- A state of a sweep by requests, beside the sweep by probes on a network. -/
structure Refined (call : Sweep) (network : Nat → String → HttpReply) (w : SweepState) : Prop where
  comes : ∀ i ip, call.targets[i]? = some ip →
    call.comesTo (network i) ip (w.phases i) = call.tried (network i) ip
      call.discovery.protocolCandidates
  fits : ∀ i, (w.phases i).Fits call.program
  ready : ∀ i ∈ w.scan.probes.ready, ∃ answer, w.phases i = .returned answer

/-- A probe that has returned has the answer of the network. -/
theorem Refined.answers_eq (h : Refined call network w) {i : Nat} (hi : i ∈ w.scan.probes.ready) :
    (w.answers call)[i]?.join = (call.answersOf network)[i]?.join := by
  rw [call.answersOf_getElem? network i]
  -- past the targets neither list has an entry
  cases htarget : call.targets[i]? with
  | none =>
    have hlength : (w.answers call).length ≤ i := by
      simpa [SweepState.answers] using List.getElem?_eq_none_iff.mp htarget
    rw [List.getElem?_eq_none hlength]
    rfl
  -- a ready probe has returned, and with what the network answers
  | some ip =>
    obtain ⟨hlt, -⟩ := List.getElem?_eq_some_iff.mp htarget
    obtain ⟨answer, hphase⟩ := h.ready i hi
    have hcomes := h.comes i ip htarget
    rw [hphase] at hcomes
    have hanswer : (w.answers call)[i]? = some answer := by
      simp [SweepState.answers, hlt, hphase, ProbePhase.answer]
    rw [hanswer, Option.map_some, ← hcomes]
    rfl

/-- A probe that goes on without an answer leaves the sweep by probes where it is. -/
theorem Refined.goOn (h : Refined call network w) {i : Nat} {phase : ProbePhase}
    {event : ProbeEvent} (hopen : ∀ answer, w.phases i ≠ .returned answer)
    (hcomes : ∀ ip, call.targets[i]? = some ip →
      call.comesTo (network i) ip phase = call.comesTo (network i) ip (w.phases i))
    (hfits : phase.Fits call.program) : Refined call network (w.goOn i phase event) := by
  constructor
  -- what the probe comes to is unchanged by its own step
  · intro j ip hj
    by_cases hji : j = i
    · subst hji
      simpa [SweepState.goOn] using (hcomes ip hj).trans (h.comes j ip hj)
    · simpa [SweepState.goOn, hji] using h.comes j ip hj
  · intro j
    by_cases hji : j = i
    · subst hji
      simpa [SweepState.goOn] using hfits
    · simpa [SweepState.goOn, hji] using h.fits j
  -- a ready probe has returned, so it is not the one that goes on
  · intro j hj
    obtain ⟨answer, hphase⟩ := h.ready j hj
    by_cases hji : j = i
    · subst hji
      exact absurd hphase (hopen answer)
    · exact ⟨answer, by simpa [SweepState.goOn, hji] using hphase⟩

/-- The loop of the sweep by requests does what that of the sweep by probes does. -/
theorem Refined.scan (h : Refined call network w) {action : ScanAction} {scan : ScanState}
    (finished : ∀ i, action = .finish i → ∃ answer, w.phases i = .returned answer)
    (hstep : (sweep (w.answers call) call.within).step w.scan action = some scan) :
    (sweep (call.answersOf network) call.within).step w.scan action = some scan ∧
      Refined call network { w with scan := scan } := by
  obtain ⟨hover, ⟨i, probes, rfl, hprobes, rfl⟩ | ⟨i, probes, rfl, hprobes, rfl⟩ |
    ⟨rfl, hpending, rfl⟩ | ⟨rfl, hexhausted, rfl⟩⟩ := sweep_step_cases hstep
  -- the probe that ends now has returned
  · refine ⟨hstep, h.comes, h.fits, fun j hj => ?_⟩
    obtain ⟨-, heq⟩ := Option.ite_none_right_eq_some.mp hprobes
    cases heq
    obtain hold | hnew := List.mem_append.mp hj
    · exact h.ready j hold
    · rw [List.mem_singleton.mp hnew]
      exact finished i rfl
  -- the answer that is taken is the same in both sweeps
  · obtain ⟨hready, heq⟩ := Option.ite_none_right_eq_some.mp hprobes
    refine ⟨?_, h.comes, h.fits, fun j hj => ?_⟩
    · rw [h.answers_eq hready]
      simp [sweep, hover, hprobes]
    · cases heq
      exact h.ready j (List.mem_of_mem_erase hj)
  · exact ⟨hstep, h.comes, h.fits, h.ready⟩
  · exact ⟨hstep, h.comes, h.fits, h.ready⟩

/-- A step of the sweep by requests is none or one of the sweep by probes. -/
theorem refined_step (h : Refined call network w) (hanswered : w'.AnsweredBy call network)
    (hstep : Sweep.Step call policy w a w') :
    Refined call network w' ∧ ∃ bs, (call.byProbes network).exec w.scan bs = some w'.scan := by
  cases hstep with
  -- sending and following a redirect leave the outcome open: the other sweep does not move
  | @send i r rest running unfinished phase =>
    refine ⟨h.goOn ?_ ?_ ?_, [], rfl⟩
    · rw [phase]
      simp
    · intro ip hip
      rw [phase]
      rfl
    · have hfits := h.fits i
      rwa [phase] at hfits
  | @redirect i r chain rest status location redirect running unfinished phase next =>
    refine ⟨h.goOn ?_ ?_ ?_, [], rfl⟩
    · rw [phase]
      simp
    · intro ip hip
      rw [phase]
      rfl
    · have hfits := h.fits i
      rwa [phase] at hfits
  | @answer i r chain rest ip running unfinished phase target reply =>
    -- the reply is the network's, so the rest comes to what the network makes of it
    have hreply : reply = network i (r.url ip call.port) :=
      hanswered i r reply ip (by simp [SweepState.goOn]) target
    have hfits := h.fits i
    rw [phase] at hfits
    refine ⟨h.goOn ?_ ?_ (fits_resumed (resumed ..)), [], rfl⟩
    · rw [phase]
      simp
    · intro ip' hip'
      cases target.symm.trans hip'
      rw [phase, hreply]
      exact Sweep.comesTo_resume hfits
  -- a step of the driver is the same step there
  | @scan action scan finished step =>
    obtain ⟨hprobes, hrefined⟩ := h.scan finished step
    refine ⟨hrefined, [action], ?_⟩
    rw [call.byProbes_eq network, TransitionSystem.exec_singleton]
    exact hprobes

/-- Both sweeps start alike. -/
theorem refined_start (call : Sweep) (network : Nat → String → HttpReply) :
    Refined call network (.start call) := by
  constructor
  · intro i ip hip
    exact call.comesTo_next (network i) ip call.discovery.protocolCandidates
  · intro i
    exact fits_next call.program call.discovery.protocolCandidates
  · intro i hi
    cases hi

/-- On every network, a run of a sweep by requests is a run of the sweep by probes, however the
    requests of the probes fall among each other; and where it is over, it reports what that
    reports. -/
theorem requests_refine_scan (hreach : (call.requests policy).Reachable w)
    (hanswered : w.AnsweredBy call network) :
    ∃ as, (call.byProbes network).exec (.start call.targets.length) as = some w.scan ∧
      (w.scan.isOver = true →
        Reports call.discovery.localDevice.fingerprint (call.answersOf network) as
        (call.discovery.outcome w.scan)) := by
  -- by induction over the run, with the answers of its end
  have hrefined : w.AnsweredBy call network → Refined call network w ∧
      ∃ as, (call.byProbes network).exec (.start call.targets.length) as = some w.scan := by
    apply (call.requests policy).reachable_induction (fun w => w.AnsweredBy call network →
      Refined call network w ∧
      ∃ as, (call.byProbes network).exec (.start call.targets.length) as = some w.scan) ?_ ?_ hreach
    · rintro w rfl -
      exact ⟨refined_start call network, [], rfl⟩
    · intro w a w' ih hstep hanswered'
      have hcases := Sweep.step_cases hstep
      obtain ⟨hrefined, as, hrun⟩ := ih (hanswered'.of_step hcases)
      obtain ⟨hrefined', bs, hrun'⟩ := refined_step hrefined hanswered' hcases
      refine ⟨hrefined', as ++ bs, ?_⟩
      rw [TransitionSystem.exec_append, hrun]
      exact hrun'
  obtain ⟨-, as, hrun⟩ := hrefined hanswered
  refine ⟨as, hrun, fun hover => ?_⟩
  rw [call.byProbes_eq network, ← call.length_answersOf network] at hrun
  exact (scanned_of_exec hrun).reports hover call.discovery

namespace Scenario

def printer : DeviceInfo := ⟨"printer", "2.1", none, none, "b", 53317, .https, false, none⟩

/-- Every host answers at once with the same device. -/
def printers : Nat → String → HttpReply := fun _ _ => .response 200 (some printer)

/-- The second host answers first. -/
def secondFirst : List SweepAction :=
  [.send 0, .send 1, .answer 1 (.response 200 (some printer)), .scan (.finish 1), .scan (.next 1),
    .answer 0 (.response 200 (some printer)), .scan (.finish 0), .scan (.next 0), .scan .exhausted]

end Scenario

/-- The sweep reports the printer once. -/
theorem requests_refine_scan_printers :
    ∃ w as, (Scenario.twoHosts.requests Scenario.redirects).Reachable w ∧
    (Scenario.twoHosts.byProbes Scenario.printers).exec (.start 2) as = some w.scan ∧
      Reports "a" (Scenario.twoHosts.answersOf Scenario.printers) as
        (Scenario.twoHosts.discovery.outcome w.scan) := by
  let reply : HttpReply := .response 200 (some Scenario.printer)
  let log : List (Nat × ProbeEvent) := [(0, .sent ⟨.get, .https⟩), (1, .sent ⟨.get, .https⟩),
    (1, .answered ⟨.get, .https⟩ reply), (0, .answered ⟨.get, .https⟩ reply)]
  have hrun : ((Scenario.twoHosts.requests Scenario.redirects).exec (.start Scenario.twoHosts)
      Scenario.secondFirst).any (fun w => w.scan.isOver && decide (w.log = log)) = true := by decide
  obtain ⟨w, hw, htest⟩ := (Option.any_eq_true ..).mp hrun
  simp only [Bool.and_eq_true, decide_eq_true_eq] at htest
  have hreach : (Scenario.twoHosts.requests Scenario.redirects).Reachable w := .exec (.init rfl) hw
  have hanswered : w.AnsweredBy Scenario.twoHosts Scenario.printers := by
    intro i r reply' ip hmem _
    rw [htest.2] at hmem
    simp [log] at hmem
    obtain ⟨-, -, hreply⟩ | ⟨-, -, hreply⟩ := hmem
    · exact hreply
    · exact hreply
  obtain ⟨as, has, hreports⟩ := requests_refine_scan hreach hanswered
  exact ⟨w, as, hreach, has, hreports htest.1⟩

end LocalSend
