import LocalSend.Discovery.Probes
import LocalSend.Spec.SweepOutcome

/-!
# What a sweep tells which hosts

A `POST` to `/register` carries the local device. A sweep for `/info` makes it only of a host whose
`/info` has just come to a 404 or 405 under the same protocol, and only where the caller allows it:
`scan_subnet` never does. Whatever the network answers, and in whatever order.

A host may send the client on to any address, since it follows redirects. It takes the device there
only from a registration, and only as far as every redirect keeps the method.

## Key results

- `ProbeCourse.careful`: one probe
- `sweep_disclosure`: every run of a sweep
- `subnet_scan_discloses_nothing`: the sweeps of a `/24`
-/

namespace LocalSend

open BufferUnordered

/-! ## One probe -/

/-- The requests among the events of a probe. -/
def sentBy (events : List ProbeEvent) : List ProbeRequest :=
  events.filterMap fun
    | .sent request => some request
    | .redirected _ | .answered .. => none

/-- Both requests of each protocol. -/
def bothRequests (protocols : List Protocol) : List ProbeRequest :=
  protocols.flatMap fun protocol => [⟨.get, protocol⟩, ⟨.post, protocol⟩]

/-- What a probe can still come to after a request of a protocol. -/
def ProbeRequest.after (request : ProbeRequest) : List ProbeRequest :=
  match request.method with
  | .get => [⟨.post, request.protocol⟩]
  | .post => []

def ProbePhase.ahead : ProbePhase → List ProbeRequest
  | .asking request rest => request :: request.after ++ bothRequests rest
  | .waiting request _ rest => request.after ++ bothRequests rest
  | .returned _ => []

/-- A probe after some events. -/
inductive ProbeCourse (policy : RedirectPolicy) (program : ProbeProgram) (ip : String)
    (port : UInt16) (protocols : List Protocol) : List ProbeEvent → ProbePhase → Prop
  | start : ProbeCourse policy program ip port protocols [] (program.next protocols)
  | send {es r rest} (h : ProbeCourse policy program ip port protocols es (.asking r rest)) :
    ProbeCourse policy program ip port protocols (es ++ [.sent r]) (.waiting r [] rest)
  | redirect {es r chain rest status location redirect}
    (h : ProbeCourse policy program ip port protocols es (.waiting r chain rest))
    (next : policy.next r chain status location = some redirect) :
    ProbeCourse policy program ip port protocols (es ++ [.redirected redirect])
      (.waiting r (chain ++ [redirect]) rest)
  | answer {es r chain rest}
    (h : ProbeCourse policy program ip port protocols es (.waiting r chain rest))
    (reply : HttpReply) : ProbeCourse policy program ip port protocols (es ++ [.answered r reply])
      (program.resume ip port r rest reply)

/-- What a probe does with an answer. -/
inductive Resumed (program : ProbeProgram) (r : ProbeRequest) (rest : List Protocol)
    (reply : HttpReply) :
    ProbePhase → Prop
  | returned (answer : Option DeviceInfo) : Resumed program r rest reply (.returned answer)
  | fallback {port status body} (method : r.method = .get) (allowed : program = .info port true)
    (missing : reply = .response status body) (absent : registerFallbackStatus status = true) :
    Resumed program r rest reply (.asking ⟨.post, r.protocol⟩ rest)
  | next (alive : reply ≠ .error true) : Resumed program r rest reply (program.next rest)

variable {policy : RedirectPolicy} {program : ProbeProgram} {ip : String} {port : UInt16}
    {protocols rest : List Protocol}
  {es : List ProbeEvent} {phase : ProbePhase} {r : ProbeRequest}

/-- What is found in a body, if anything. -/
theorem foundDevice_cases (ip : String) (port : UInt16) (protocol : Protocol)
    (body : Option DeviceInfo) :
    HttpDiscovery.foundDevice ip port protocol body = .miss ∨
      ∃ device, HttpDiscovery.foundDevice ip port protocol body = .found device := by
  cases body with
  | none => exact .inl rfl
  | some device => exact .inr ⟨_, rfl⟩

/-- What a request for `/info` comes to, by the reply. -/
theorem probeInfoWith_cases (ip : String) (port : UInt16) (protocol : Protocol) (reply : HttpReply) :
    (reply = .error true ∧ HttpDiscovery.probeInfoWith (fun _ => reply) ip port protocol = .unreachable) ∨
    reply ≠ .error true ∧
      ((∃ status body, reply = .response status body ∧ registerFallbackStatus status = true ∧
          HttpDiscovery.probeInfoWith (fun _ => reply) ip port protocol = .registerFallback) ∨
        HttpDiscovery.probeInfoWith (fun _ => reply) ip port protocol = .miss ∨
        ∃ device, HttpDiscovery.probeInfoWith (fun _ => reply) ip port protocol =
          .found device) := by
  cases reply with
  | error isTimeout =>
    cases isTimeout with
    | true => exact .inl ⟨rfl, rfl⟩
    | false => exact .inr ⟨nofun, .inr (.inl rfl)⟩
  | response status body =>
    refine .inr ⟨nofun, ?_⟩
    simp only [HttpDiscovery.probeInfoWith]
    by_cases hsuccess : 200 ≤ status ∧ status < 300
    · rw [if_pos hsuccess]
      exact .inr (foundDevice_cases ip port protocol body)
    · rw [if_neg hsuccess]
      by_cases habsent : registerFallbackStatus status = true
      · exact .inl ⟨status, body, rfl, habsent, if_pos habsent⟩
      · exact .inr (.inl (if_neg habsent))

/-- What a registration comes to, by the reply. -/
theorem probeRegisterWith_cases (ip : String) (port : UInt16) (protocol : Protocol) (reply : HttpReply) :
    (reply = .error true ∧
      HttpDiscovery.probeRegisterWith (fun _ => reply) ip port protocol = .unreachable) ∨
    reply ≠ .error true ∧
      (HttpDiscovery.probeRegisterWith (fun _ => reply) ip port protocol = .miss ∨
        ∃ device, HttpDiscovery.probeRegisterWith (fun _ => reply) ip port protocol =
          .found device) := by
  cases reply with
  | error isTimeout =>
    cases isTimeout with
    | true => exact .inl ⟨rfl, rfl⟩
    | false => exact .inr ⟨nofun, .inl rfl⟩
  | response status body =>
    refine .inr ⟨nofun, ?_⟩
    simp only [HttpDiscovery.probeRegisterWith]
    by_cases hsuccess : 200 ≤ status ∧ status < 300
    · rw [if_pos hsuccess]
      exact foundDevice_cases ip port protocol body
    · exact .inl (if_neg hsuccess)

/-- The body of the loop goes on in one of these ways. -/
theorem resumed (program : ProbeProgram) (ip : String) (port : UInt16) (r : ProbeRequest)
    (rest : List Protocol) (reply : HttpReply) :
    Resumed program r rest reply (program.resume ip port r rest reply) := by
  unfold ProbeProgram.resume
  cases hmethod : r.method with
  | get =>
    obtain ⟨-, h⟩ | ⟨halive, ⟨status, body, hreply, habsent, h⟩ | h | ⟨device, h⟩⟩ :=
      probeInfoWith_cases ip port r.protocol reply
    · simp only [h]
      exact .returned none
    · simp only [h]
      split
      · exact .fallback hmethod rfl hreply habsent
      · exact .next halive
    · simp only [h]
      exact .next halive
    · simp only [h]
      exact .returned (some device)
  | post =>
    obtain ⟨-, h⟩ | ⟨halive, h | ⟨device, h⟩⟩ := probeRegisterWith_cases ip port r.protocol reply
    · simp only [h]
      exact .returned none
    · simp only [h]
      exact .next halive
    · simp only [h]
      exact .returned (some device)

/-- The request for `/info` has just come to a 404 or 405, and the caller allows the fallback. -/
def FallsBack (program : ProbeProgram) (es : List ProbeEvent) (protocol : Protocol) : Prop :=
  (∃ port, program = .info port true) ∧
    ∃ before status body, es = before ++ [.answered ⟨.get, protocol⟩ (.response status body)] ∧
      (status = 404 ∨ status = 405)

/-- What is so of a probe at every time. -/
structure Careful (program : ProbeProgram) (protocols : List Protocol) (es : List ProbeEvent)
    (phase : ProbePhase) : Prop where
  inOrder : (sentBy es ++ phase.ahead).Sublist (bothRequests protocols)
  posted : ∀ before protocol after, es = before ++ .sent ⟨.post, protocol⟩ :: after →
    program = .register ∨ FallsBack program before protocol
  posting : ∀ protocol rest, phase = .asking ⟨.post, protocol⟩ rest →
    program = .register ∨ FallsBack program es protocol
  silent : ∀ before r after, es = before ++ .answered r (.error true) :: after →
    after = [] ∧ ∃ answer, phase = .returned answer

/-- The head of the loop asks for no more than the protocols that are left. -/
theorem ahead_next (program : ProbeProgram) (protocols : List Protocol) :
    (program.next protocols).ahead.Sublist (bothRequests protocols) := by
  cases protocols with
  | nil => exact List.nil_sublist _
  | cons protocol rest =>
    cases program with
    | info port fallback => exact List.Sublist.refl _
    | register => exact List.sublist_cons_self _ _

/-- It registers in a sweep for that only. -/
theorem next_posting {protocol : Protocol}
    (h : program.next protocols = .asking ⟨.post, protocol⟩ rest) :
    program = .register := by
  cases protocols with
  | nil => cases h
  | cons first others =>
    cases program with
    | info port fallback => cases h
    | register => rfl

/-- It does not wait for anything yet. -/
theorem next_ne_waiting (program : ProbeProgram) (protocols : List Protocol) (r : ProbeRequest)
    (chain : List Redirect) (rest : List Protocol) :
    program.next protocols ≠ .waiting r chain rest := by
  intro h
  cases protocols with
  | nil => cases h
  | cons first others => cases program <;> cases h

/-- An event of a list with a last one is the last, or one of those before it. -/
theorem concat_eq_append_cons {es before after : List ProbeEvent} {e e' : ProbeEvent}
    (h : es ++ [e] = before ++ e' :: after) :
    (after = [] ∧ before = es ∧ e' = e) ∨ ∃ after', after = after' ++ [e] ∧
      es = before ++ e' :: after' := by
  cases after using List.reverseRecOn with
  | nil =>
    obtain ⟨rfl, he⟩ := List.append_inj' h rfl
    cases he
    exact .inl ⟨rfl, rfl, rfl⟩
  | append_singleton after' last =>
    rw [← List.cons_append, ← List.append_assoc] at h
    obtain ⟨rfl, he⟩ := List.append_inj' h rfl
    cases he
    exact .inr ⟨after', rfl, rfl⟩

/-- A probe is careful at every time. -/
theorem ProbeCourse.careful (h : ProbeCourse policy program ip port protocols es phase) :
    Careful program protocols es phase := by
  induction h with
  | start =>
    constructor
    · exact ahead_next program protocols
    · intro before protocol after h
      simp at h
    · intro protocol rest h
      exact .inl (next_posting h)
    · intro before r after h
      simp at h
  | @send es r rest h ih =>
    constructor
    · have hsame := ih.inOrder
      simpa [sentBy, ProbePhase.ahead] using hsame
    · intro before protocol after heq
      obtain ⟨rfl, rfl, he⟩ | ⟨after', rfl, heq'⟩ := concat_eq_append_cons heq
      · cases he
        exact ih.posting protocol rest rfl
      · exact ih.posted before protocol after' heq'
    · intro protocol rest' hphase
      cases hphase
    · intro before r' after heq
      obtain ⟨rfl, rfl, he⟩ | ⟨after', rfl, heq'⟩ := concat_eq_append_cons heq
      · cases he
      · obtain ⟨-, answer, hphase⟩ := ih.silent before r' after' heq'
        cases hphase
  | @redirect es r chain rest status location redirect h next ih =>
    constructor
    · have hsame := ih.inOrder
      simpa [sentBy, ProbePhase.ahead] using hsame
    · intro before protocol after heq
      obtain ⟨rfl, rfl, he⟩ | ⟨after', rfl, heq'⟩ := concat_eq_append_cons heq
      · cases he
      · exact ih.posted before protocol after' heq'
    · intro protocol rest' hphase
      cases hphase
    · intro before r' after heq
      obtain ⟨rfl, rfl, he⟩ | ⟨after', rfl, heq'⟩ := concat_eq_append_cons heq
      · cases he
      · obtain ⟨-, answer, hphase⟩ := ih.silent before r' after' heq'
        cases hphase
  | @answer es r chain rest h reply ih =>
    have hresumed := resumed program ip port r rest reply
    have hsent : sentBy (es ++ [.answered r reply]) = sentBy es := by simp [sentBy]
    generalize program.resume ip port r rest reply = phase at hresumed
    constructor
    · -- what lies ahead only gets less
      have hahead : phase.ahead.Sublist (ProbePhase.waiting r chain rest).ahead := by
        cases hresumed with
        | returned answer => exact List.nil_sublist _
        | fallback method _ _ _ => simp [ProbePhase.ahead, ProbeRequest.after, method]
        | next _ => exact (ahead_next program rest).trans (List.sublist_append_right _ _)
      rw [hsent]
      exact (hahead.append_left _).trans ih.inOrder
    · intro before protocol after heq
      obtain ⟨rfl, rfl, he⟩ | ⟨after', rfl, heq'⟩ := concat_eq_append_cons heq
      · cases he
      · exact ih.posted before protocol after' heq'
    · intro protocol rest' hphase
      cases hresumed with
      | returned answer => cases hphase
      | @fallback port' status body method allowed missing absent =>
        obtain ⟨method', protocol'⟩ := r
        cases method
        cases hphase
        refine .inr ⟨⟨port', allowed⟩, es, status, body, by rw [missing], ?_⟩
        simpa [registerFallbackStatus] using absent
      | next _ => exact .inl (next_posting hphase)
    · intro before r' after heq
      obtain ⟨rfl, rfl, he⟩ | ⟨after', rfl, heq'⟩ := concat_eq_append_cons heq
      · cases he
        cases hresumed with
        | returned answer => exact ⟨rfl, answer, rfl⟩
        | fallback _ _ missing _ => cases missing
        | next alive => exact absurd rfl alive
      · obtain ⟨-, answer, hphase⟩ := ih.silent before r' after' heq'
        cases hphase

/-! ## Redirects -/

open RedirectPolicy

/-- The chain of redirects that a request has gone through: the client goes on from each with a
    method of its policy, and not too often. -/
structure RedirectPolicy.Follows (policy : RedirectPolicy) (r : ProbeRequest)
    (chain : List Redirect) :
    Prop where
  method : ∀ before redirect after, chain = before ++ redirect :: after →
    policy.follow (methodAfter r before) redirect.status = some redirect.method
  length : chain.length ≤ policy.limit

/-- The client has just sent a request, and gone through a chain of redirects with it. -/
def FollowedUp (policy : RedirectPolicy) (es : List ProbeEvent) (r : ProbeRequest)
    (chain : List Redirect) :
    Prop :=
  (∃ front, es = front ++ .sent r :: chain.map .redirected) ∧ policy.Follows r chain

/-- A chain that the client follows one redirect further. -/
theorem RedirectPolicy.Follows.concat {chain : List Redirect} {status : Nat} {location : String}
    {redirect : Redirect} (h : policy.Follows r chain)
    (hnext : policy.next r chain status location = some redirect) :
    policy.Follows r (chain ++ [redirect]) := by
  obtain ⟨hlimit, hnext⟩ := Option.ite_none_right_eq_some.mp hnext
  obtain ⟨method, hmethod, rfl⟩ := Option.map_eq_some_iff.mp hnext
  constructor
  · intro before redirect after heq
    cases after using List.reverseRecOn with
    | nil =>
      obtain ⟨rfl, he⟩ := List.append_inj' heq rfl
      cases he
      exact hmethod
    | append_singleton after' last =>
      rw [← List.cons_append, ← List.append_assoc] at heq
      exact h.method before redirect after' (List.append_inj' heq rfl).1
  · rw [List.length_append, List.length_singleton]
    exact hlimit

/-- While a probe waits, it has just sent its request; and so it had at every redirect. -/
theorem ProbeCourse.followedUp (h : ProbeCourse policy program ip port protocols es phase) :
    (∀ r chain rest, phase = .waiting r chain rest → FollowedUp policy es r chain) ∧
    ∀ before redirect after, es = before ++ .redirected redirect :: after →
      ∃ r chain, FollowedUp policy (before ++ [.redirected redirect]) r (chain ++ [redirect]) := by
  induction h with
  | start =>
    refine ⟨fun r chain rest hphase => absurd hphase (next_ne_waiting _ _ r chain rest), ?_⟩
    intro before redirect after heq
    simp at heq
  | @send es r rest h ih =>
    constructor
    · intro r' chain rest' hphase
      cases hphase
      exact ⟨⟨es, rfl⟩, ⟨fun before redirect after heq => by simp at heq, Nat.zero_le _⟩⟩
    · intro before redirect after heq
      obtain ⟨rfl, rfl, he⟩ | ⟨after', rfl, heq'⟩ := concat_eq_append_cons heq
      · cases he
      · exact ih.2 before redirect after' heq'
  | @redirect es r chain rest status location redirect h next ih =>
    -- the chain of the request that it waits for has got longer
    obtain ⟨⟨front, hfront⟩, hfollows⟩ := ih.1 r chain rest rfl
    have hup : FollowedUp policy (es ++ [.redirected redirect]) r (chain ++ [redirect]) := by
      refine ⟨⟨front, ?_⟩, hfollows.concat next⟩
      rw [hfront, List.map_append, List.append_assoc]
      rfl
    constructor
    · intro r' chain' rest' hphase
      cases hphase
      exact hup
    · intro before redirect' after heq
      obtain ⟨rfl, rfl, he⟩ | ⟨after', rfl, heq'⟩ := concat_eq_append_cons heq
      · cases he
        exact ⟨r, chain, hup⟩
      · exact ih.2 before redirect' after' heq'
  | @answer es r chain rest h reply ih =>
    constructor
    · intro r' chain' rest' hphase
      have hresumed := resumed program ip port r rest reply
      rw [hphase] at hresumed
      generalize hp : ProbePhase.waiting r' chain' rest' = phase at hresumed
      cases hresumed with
      | returned answer => cases hp
      | fallback => cases hp
      | next alive => exact absurd hp.symm (next_ne_waiting _ _ r' chain' rest')
    · intro before redirect after heq
      obtain ⟨rfl, rfl, he⟩ | ⟨after', rfl, heq'⟩ := concat_eq_append_cons heq
      · cases he
      · exact ih.2 before redirect after' heq'

/-- A redirect takes a `POST` on only from a `POST`, and with a status that keeps the method. -/
theorem RedirectPolicy.Follows.post {chain : List Redirect} (h : policy.Follows r chain)
    (hpolicy : policy.Documented) {before after : List Redirect} {redirect : Redirect}
    (heq : chain = before ++ redirect :: after) (hpost : redirect.method = .post) :
    r.method = .post ∧ ∀ x ∈ before ++ [redirect], x.status = 307 ∨ x.status = 308 := by
  induction before using List.reverseRecOn generalizing redirect after with
  | nil =>
    have hmethod := h.method [] redirect after heq
    rw [hpost] at hmethod
    cases hr : r.method with
    | get =>
      rw [show methodAfter r [] = .get from hr] at hmethod
      cases hpolicy.get _ _ hmethod
    | post =>
      rw [show methodAfter r [] = .post from hr] at hmethod
      refine ⟨rfl, fun x hx => ?_⟩
      rw [List.mem_singleton.mp hx]
      exact hpolicy.post _ hmethod
  | append_singleton front last ih =>
    have hmethod := h.method _ redirect after heq
    have hafter : methodAfter r (front ++ [last]) = last.method := by simp [methodAfter]
    rw [hpost, hafter] at hmethod
    cases hlast : last.method with
    | get =>
      rw [hlast] at hmethod
      cases hpolicy.get _ _ hmethod
    | post =>
      have hlast_eq : chain = front ++ last :: (redirect :: after) := by simp [heq]
      obtain ⟨hr, hstatus⟩ := ih hlast_eq hlast
      refine ⟨hr, fun x hx => ?_⟩
      obtain hx | hx := List.mem_append.mp hx
      · exact hstatus x hx
      · rw [List.mem_singleton.mp hx]
        rw [hlast] at hmethod
        exact hpolicy.post _ hmethod

/-! ## A sweep -/

/-- What has happened at a target. -/
def SweepState.events (w : SweepState) (i : Nat) : List ProbeEvent :=
  (w.log.filter fun e => e.1 = i).map Prod.snd

variable {call : Sweep} {w w' : SweepState} {a : SweepAction}

/-- An event of a target is the last of its events. -/
theorem SweepState.events_goOn_self (w : SweepState) (i : Nat) (phase : ProbePhase)
    (event : ProbeEvent) :
    (w.goOn i phase event).events i = w.events i ++ [event] := by
  simp [SweepState.events, SweepState.goOn]

/-- The events of the other targets are what they were. -/
theorem SweepState.events_goOn_of_ne (w : SweepState) {i j : Nat} (h : j ≠ i) (phase : ProbePhase)
    (event : ProbeEvent) : (w.goOn i phase event).events j = w.events j := by
  simp [SweepState.events, SweepState.goOn, h.symm]

/-- The steps of a sweep. -/
inductive Sweep.Step (call : Sweep) (policy : RedirectPolicy) (w : SweepState) :
    SweepAction → SweepState → Prop
  | send {i r rest} (running : i ∈ w.scan.probes.running) (unfinished : w.scan.isOver = false)
    (phase : w.phases i = .asking r rest) :
    Step call policy w (.send i) (w.goOn i (.waiting r [] rest) (.sent r))
  | redirect {i r chain rest status location redirect} (running : i ∈ w.scan.probes.running)
    (unfinished : w.scan.isOver = false) (phase : w.phases i = .waiting r chain rest)
    (next : policy.next r chain status location = some redirect) :
    Step call policy w (.redirect i status location)
      (w.goOn i (.waiting r (chain ++ [redirect]) rest) (.redirected redirect))
  | answer {i r chain rest ip} (running : i ∈ w.scan.probes.running)
    (unfinished : w.scan.isOver = false) (phase : w.phases i = .waiting r chain rest)
    (target : call.targets[i]? = some ip) (reply : HttpReply) :
    Step call policy w (.answer i reply)
      (w.goOn i (call.program.resume ip call.port r rest reply) (.answered r reply))
  | scan {action scan}
    (finished : ∀ i, action = .finish i → ∃ answer, w.phases i = .returned answer)
    (step : (sweep (w.answers call) call.within).step w.scan action = some scan) :
    Step call policy w (.scan action) { w with scan := scan }

/-- A step of the loop is one of the steps of a sweep. -/
theorem Sweep.step_of_loop {action : ScanAction}
    (finished : ∀ i, action = .finish i → ∃ answer, w.phases i = .returned answer)
    (h : w.loop call action = some w') : Sweep.Step call policy w (.scan action) w' := by
  obtain ⟨scan, hscan, rfl⟩ := Option.map_eq_some_iff.mp h
  exact .scan finished hscan

/-- Every step of a sweep is one of these. -/
theorem Sweep.step_cases (h : (call.requests policy).step w a = some w') :
    Sweep.Step call policy w a w' := by
  cases a with
  | send i =>
    obtain ⟨⟨hrunning, hunfinished⟩, h⟩ := Option.ite_none_right_eq_some.mp h
    split at h
    · cases h
      exact .send hrunning hunfinished ‹_›
    · cases h
  | redirect i status location =>
    obtain ⟨⟨hrunning, hunfinished⟩, h⟩ := Option.ite_none_right_eq_some.mp h
    split at h
    · obtain ⟨redirect, hnext, rfl⟩ := Option.map_eq_some_iff.mp h
      exact .redirect hrunning hunfinished ‹_› hnext
    · cases h
  | answer i reply =>
    obtain ⟨⟨hrunning, hunfinished⟩, h⟩ := Option.ite_none_right_eq_some.mp h
    split at h
    · cases h
      exact .answer hrunning hunfinished ‹_› ‹_› reply
    · cases h
  | scan action =>
    cases action with
    | finish i =>
      simp only [Sweep.requests] at h
      split at h
      · rename_i answer hphase
        refine Sweep.step_of_loop ?_ h
        intro j hj
        cases hj
        exact ⟨answer, hphase⟩
      · cases h
    | next i => exact Sweep.step_of_loop nofun h
    | deadline => exact Sweep.step_of_loop nofun h
    | exhausted => exact Sweep.step_of_loop nofun h

/-- The loop keeps the books of the probes, and a probe leaves those under way only when it finishes. -/
theorem ledger_scan {answers : List (Option DeviceInfo)} {within : Option Nat} {scan scan' : ScanState}
    {action : ScanAction} {jobs finished taken : List Nat}
    (h : Ledger scanConcurrency jobs finished taken scan.probes)
    (hstep : (sweep answers within).step scan action = some scan') :
    (∃ finished' taken', Ledger scanConcurrency jobs finished' taken' scan'.probes) ∧
      ∀ i ∈ scan.probes.running, action = .finish i ∨ i ∈ scan'.probes.running := by
  obtain ⟨-, ⟨i, probes, rfl, hprobes, rfl⟩ | ⟨i, probes, rfl, hprobes, rfl⟩ |
    ⟨rfl, hpending, rfl⟩ | ⟨rfl, hexhausted, rfl⟩⟩ := sweep_step_cases hstep
  -- a probe ends: it leaves the running ones
  · refine ⟨⟨_, _, h.finish hprobes⟩, fun j hj => ?_⟩
    obtain ⟨-, heq⟩ := Option.ite_none_right_eq_some.mp hprobes
    cases heq
    by_cases hji : j = i
    · exact .inl (by rw [hji])
    -- the driver takes a result: it may start probes and stops none
    · exact .inr ((List.mem_erase_of_ne hji).mpr hj)
  · refine ⟨⟨_, _, h.next hprobes⟩, fun j hj => ?_⟩
    obtain ⟨-, heq⟩ := Option.ite_none_right_eq_some.mp hprobes
    cases heq
    exact .inr (List.mem_append_left _ hj)
  · exact ⟨⟨_, _, h⟩, fun j hj => .inr hj⟩
  · exact ⟨⟨_, _, h⟩, fun j hj => .inr hj⟩

/-- The courses of the probe of a target. -/
def Sweep.Course (call : Sweep) (policy : RedirectPolicy) (i : Nat) :
    List ProbeEvent → ProbePhase → Prop :=
  ProbeCourse policy call.program (call.targets[i]?.getD "") call.port
    call.discovery.protocolCandidates

structure SweepInv (call : Sweep) (policy : RedirectPolicy) (w : SweepState) : Prop where
  course : ∀ i, call.Course policy i (w.events i) (w.phases i)
  targets : ∀ e ∈ w.log, e.1 < call.targets.length
  ledger : ∃ finished taken,
    Ledger scanConcurrency (List.range call.targets.length) finished taken w.scan.probes
  waiting : ∀ i r chain rest, w.phases i = .waiting r chain rest → i ∈ w.scan.probes.running

/-- A probe that goes on keeps the invariant, if its course does. -/
theorem SweepInv.goOn (h : SweepInv call policy w) {i : Nat} (running : i ∈ w.scan.probes.running)
    {phase : ProbePhase} {event : ProbeEvent}
    (hcourse : call.Course policy i (w.events i ++ [event]) phase) :
    SweepInv call policy (w.goOn i phase event) := by
  constructor
  · intro j
    by_cases hji : j = i
    · subst hji
      rw [SweepState.events_goOn_self]
      simpa [SweepState.goOn] using hcourse
    · rw [SweepState.events_goOn_of_ne w hji]
      simpa [SweepState.goOn, hji] using h.course j
  -- the event that is added is of a probe under way, so of a target
  · intro e he
    obtain hold | hnew := List.mem_append.mp he
    · exact h.targets e hold
    · obtain ⟨finished, taken, hledger⟩ := h.ledger
      rw [List.mem_singleton.mp hnew]
      exact List.mem_range.mp (hledger.mem_jobs running)
  · exact h.ledger
  -- probe `i` itself is under way, whatever its phase is now
  · intro j r chain rest hphase
    by_cases hji : j = i
    · rw [hji]
      exact running
    · simp only [SweepState.goOn, Function.update_of_ne hji] at hphase
      exact h.waiting j r chain rest hphase

/-- Every step of a sweep keeps the invariant. -/
theorem sweepInv_step (h : SweepInv call policy w) (hstep : Sweep.Step call policy w a w') :
    SweepInv call policy w' := by
  cases hstep with
  | @send i r rest running unfinished phase =>
    apply h.goOn running
    have hcourse := h.course i
    rw [phase] at hcourse
    exact hcourse.send
  | @redirect i r chain rest status location redirect running unfinished phase next =>
    apply h.goOn running
    have hcourse := h.course i
    rw [phase] at hcourse
    exact hcourse.redirect next
  | @answer i r chain rest ip running unfinished phase target reply =>
    apply h.goOn running
    have hcourse := h.course i
    rw [phase] at hcourse
    rw [← show call.targets[i]?.getD "" = ip by rw [target]; rfl]
    exact hcourse.answer reply
  | @scan action scan finished step =>
    obtain ⟨_, _, hledger⟩ := h.ledger
    obtain ⟨hledger', hrunning⟩ := ledger_scan hledger step
    constructor
    · exact h.course
    · exact h.targets
    · exact hledger'
    -- a probe that waits has not returned, so it is not the one that ends
    · intro i r chain rest hphase
      obtain hfinish | hstill := hrunning i (h.waiting i r chain rest hphase)
      · obtain ⟨answer, hreturned⟩ := finished i hfinish
        cases hphase.symm.trans hreturned
      · exact hstill

/-- The invariant of every state of a sweep. -/
theorem sweepInv_of_reachable (h : (call.requests policy).Reachable w) :
    SweepInv call policy w := by
  apply (call.requests policy).reachable_induction (SweepInv call policy) ?_ ?_ h
  · rintro w rfl
    constructor
    · exact fun i => .start
    · intro e he
      cases he
    · exact ⟨_, _, Ledger.start ..⟩
    · intro i r chain rest hphase
      exact absurd hphase (next_ne_waiting _ _ r chain rest)
  · intro w a w' hinv hstep
    exact sweepInv_step hinv (Sweep.step_cases hstep)

def ProbePhase.isWaiting : ProbePhase → Bool
  | .waiting .. => true
  | _ => false

/-- No more probes than `SCAN_CONCURRENCY` wait for an answer. -/
theorem SweepInv.waiting_le (h : SweepInv call policy w) :
    (List.range call.targets.length).countP (fun i => (w.phases i).isWaiting) ≤
      scanConcurrency := by
  obtain ⟨finished, taken, hledger⟩ := h.ledger
  have hsubset : (List.range call.targets.length).filter (fun i => (w.phases i).isWaiting) ⊆
      w.scan.probes.running := by
    intro i hi
    obtain ⟨-, hwaiting⟩ := List.mem_filter.mp hi
    cases hphase : w.phases i with
    | asking r rest => simp [hphase, ProbePhase.isWaiting] at hwaiting
    | waiting r chain rest => exact h.waiting i r chain rest hphase
    | returned answer => simp [hphase, ProbePhase.isWaiting] at hwaiting
  have hle := (List.subperm_of_subset (List.nodup_range.filter _) hsubset).length_le
  have hbounded := hledger.bounded
  rw [List.countP_eq_length_filter]
  omega

/-- What a sweep has told which hosts, in every state of every run. It makes no request but those of
    its targets, of each at most both requests of the two protocols, in their order, and none after one
    that has timed out. A registration that is not its program follows at once on a request for `/info`
    that has come to a 404 or 405 under this protocol, and is allowed by the caller. Every other request
    is one of the client's, which goes on from its last request along a chain of redirects; it has the
    device only where that is a registration and every redirect keeps the method. -/
theorem sweep_disclosure (hpolicy : policy.Documented) (hreach : (call.requests policy).Reachable w) :
    (∀ i event, (i, event) ∈ w.log → i < call.targets.length) ∧
    (∀ i, (sentBy (w.events i)).Sublist (bothRequests call.discovery.protocolCandidates)) ∧
    (∀ i before protocol after, w.events i = before ++ .sent ⟨.post, protocol⟩ :: after →
      call.program = .register ∨ FallsBack call.program before protocol) ∧
    (∀ i before r after, w.events i = before ++ .answered r (.error true) :: after → after = []) ∧
    (∀ i before redirect after, w.events i = before ++ .redirected redirect :: after →
      ∃ r chain, FollowedUp policy (before ++ [.redirected redirect]) r (chain ++ [redirect]) ∧
        (redirect.method = .post →
          r.method = .post ∧ ∀ x ∈ chain ++ [redirect], x.status = 307 ∨ x.status = 308)) ∧
    (List.range call.targets.length).countP (fun i => (w.phases i).isWaiting) ≤
      scanConcurrency := by
  have hinv := sweepInv_of_reachable hreach
  -- every course keeps the discipline of its events, whatever the program is
  have hcareful : ∀ i, Careful call.program call.discovery.protocolCandidates (w.events i)
      (w.phases i) :=
    fun i => (hinv.course i).careful
  refine ⟨fun i event h => hinv.targets _ h, fun i => ?_, fun i => (hcareful i).posted, ?_, ?_,
    hinv.waiting_le⟩
  · exact (List.sublist_append_left _ _).trans (hcareful i).inOrder
  · exact fun i before r after h => ((hcareful i).silent before r after h).1
  · intro i before redirect after heq
    obtain ⟨r, chain, hup⟩ := (hinv.course i).followedUp.2 before redirect after heq
    exact ⟨r, chain, hup, hup.2.post hpolicy rfl⟩

namespace Scenario

def scanner : HttpDiscovery := ⟨⟨"scanner", "2.1", none, none, "a", 53317, .https, false, none⟩⟩

/-- Two hosts that the caller names. -/
def twoHosts : Sweep := scanner.scanIps ["10.0.0.2", "10.0.0.3"] none

/-- The policy of a client that is given none. -/
def redirects : RedirectPolicy where
  follow method status :=
    if status = 301 ∨ status = 302 ∨ status = 303 then some .get
    else if status = 307 ∨ status = 308 then some method
    else none
  limit := 10

/-- This policy keeps to its documentation. -/
theorem redirects_documented : redirects.Documented := by
  constructor
  · intro status method h
    simp only [redirects] at h
    split at h
    · exact (Option.some.inj h).symm
    · exact (Option.some.inj (Option.ite_none_right_eq_some.mp h).2).symm
  · intro status h
    simp only [redirects] at h
    split at h
    · cases h
    · exact (Option.ite_none_right_eq_some.mp h).1

/-- The first host does not serve `/info`, and sends the registration elsewhere; the second one has
    not answered yet. -/
def firstFallsBack : List SweepAction :=
  [.send 0, .send 1, .answer 0 (.response 404 none), .send 0, .redirect 0 307 "https://10.0.0.9/"]

end Scenario

/-- The sweep registers with the first host, after what has come of its request for `/info`, and the
    redirect takes the device on from there. -/
theorem sweep_disclosure_first : ∃ w before redirect r,
    (Scenario.twoHosts.requests Scenario.redirects).Reachable w ∧
    w.events 0 = before ++ [.sent ⟨.post, .https⟩, .redirected redirect] ∧
    FallsBack Scenario.twoHosts.program before .https ∧
    redirect.method = .post ∧ r.method = .post ∧ ∃ chain,
      FollowedUp Scenario.redirects (before ++ [.sent ⟨.post, .https⟩, .redirected redirect]) r
        (chain ++ [redirect]) := by
  let before : List ProbeEvent :=
    [.sent ⟨.get, .https⟩, .answered ⟨.get, .https⟩ (.response 404 none)]
  let redirect : Redirect := ⟨307, .post, "https://10.0.0.9/"⟩
  -- the run, computed: the first host sends the client on, over a `POST` to it
  have hrun : ((Scenario.twoHosts.requests Scenario.redirects).exec (.start Scenario.twoHosts)
      Scenario.firstFallsBack).any (fun w =>
        w.events 0 = before ++ [.sent ⟨.post, .https⟩, .redirected redirect]) = true := by decide
  obtain ⟨w, hw, hevents⟩ := (Option.any_eq_true ..).mp hrun
  rw [decide_eq_true_eq] at hevents
  have hreach : (Scenario.twoHosts.requests Scenario.redirects).Reachable w := .exec (.init rfl) hw
  obtain ⟨-, -, hposted, -, hredirected, -⟩ := sweep_disclosure Scenario.redirects_documented hreach
  obtain ⟨r, chain, hup, hpost⟩ :=
    hredirected 0 (before ++ [.sent ⟨.post, .https⟩]) redirect [] (by simpa using hevents)
  rw [List.append_assoc] at hup
  refine ⟨w, before, redirect, r, hreach, hevents, ?_, rfl, (hpost rfl).1, chain, hup⟩
  obtain hregister | hfallsBack := hposted 0 before .https [.redirected redirect] hevents
  · cases hregister
  · exact hfallsBack

/-! ## A `/24` -/

open IpText

/-- The address of a host in the `/24` of another. -/
def hostAddress (a : BitVec 32) (host : Nat) : BitVec 32 :=
  BitVec.ofNat 32 (a.toNat / 256 * 256 + host)

/-- The number of a host in the `/24`. -/
theorem hostAddress_toNat (a : BitVec 32) {host : Nat} (h : host < 256) :
    (hostAddress a host).toNat = a.toNat / 256 * 256 + host := by
  have hlt := a.isLt
  rw [hostAddress, BitVec.toNat_ofNat]
  apply Nat.mod_eq_of_lt
  omega

/-- The text of its address: the first three parts are those of the network. -/
theorem ipv4Text_hostAddress (a : BitVec 32) {host : Nat} (h : host < 256) :
    ipv4Text (hostAddress a host) = decimal (octet a 0) ++ '.' :: decimal (octet a 1) ++
      '.' :: decimal (octet a 2) ++ '.' :: decimal host := by
  have htoNat := hostAddress_toNat a h
  have h0 : octet (hostAddress a host) 0 = octet a 0 := by
    simp only [octet, htoNat]
    omega
  have h1 : octet (hostAddress a host) 1 = octet a 1 := by
    simp only [octet, htoNat]
    omega
  have h2 : octet (hostAddress a host) 2 = octet a 2 := by
    simp only [octet, htoNat]
    omega
  have h3 : octet (hostAddress a host) 3 = host := by
    simp only [octet, htoNat]
    omega
  rw [ipv4Text, h0, h1, h2, h3]

/-- Addresses of one text are one address. -/
theorem ofList_ipv4Text_inj {a b : BitVec 32}
    (h : String.ofList (ipv4Text a) = String.ofList (ipv4Text b)) :
    a = b := by
  have htext : ipv4Text a = ipv4Text b := by simpa using congrArg String.toList h
  have hparse := congrArg Url.parseDotted htext
  rw [Url.parseDotted_ipv4Text, Url.parseDotted_ipv4Text] at hparse
  exact Option.some.inj hparse

/-- An address is parsed from its own text only. -/
theorem ipv4Text_of_parseDotted {s : List Char} {a : BitVec 32} (h : Url.parseDotted s = some a) :
    ipv4Text a = s := by
  unfold Url.parseDotted at h
  split at h
  · obtain ⟨htext, ha⟩ := Option.ite_none_right_eq_some.mp h
    rw [← Option.some.inj ha, htext]
  · cases h

/-- The hosts of a sweep are those of the `/24` of an address, but this address, each once. -/
theorem subnetHosts_spec {baseIp : String} {hosts : List String}
    (h : subnetHosts baseIp = some hosts) :
    ∃ a : BitVec 32, baseIp = String.ofList (ipv4Text a) ∧ hosts.Nodup ∧
      ∀ ip, ip ∈ hosts ↔ ∃ b : BitVec 32, ip = String.ofList (ipv4Text b) ∧
        b.toNat / 256 = a.toNat / 256 ∧ 1 ≤ b.toNat % 256 ∧ b.toNat % 256 ≤ 254 ∧ b ≠ a := by
  obtain ⟨a, ha, rfl⟩ := Option.map_eq_some_iff.mp h
  have hbase : baseIp = String.ofList (ipv4Text a) := by
    -- the text of each host is the text of an address of the same /24
    rw [ipv4Text_of_parseDotted ha, String.ofList_toList]
  have hhosts : ((List.range' 1 254).map fun host => String.ofList (decimal (octet a 0) ++
      '.' :: decimal (octet a 1) ++ '.' :: decimal (octet a 2) ++ '.' :: decimal host)) =
      (List.range' 1 254).map fun host => String.ofList (ipv4Text (hostAddress a host)) := by
    apply List.map_congr_left
    intro host hhost
    have hrange := List.mem_range'_1.mp hhost
    rw [ipv4Text_hostAddress a (by omega)]
  refine ⟨a, hbase, ?_, fun ip => ?_⟩
  -- two hosts with one text have one last octet
  · apply List.Nodup.filter
    rw [hhosts]
    apply List.Nodup.map_on ?_ List.nodup_range'
    intro host hhost host' hhost' hsame
    have hrange := List.mem_range'_1.mp hhost
    have hrange' := List.mem_range'_1.mp hhost'
    have heq := congrArg BitVec.toNat (ofList_ipv4Text_inj hsame)
    rw [hostAddress_toNat a (by omega), hostAddress_toNat a (by omega)] at heq
    omega
  · rw [List.mem_filter, hhosts, List.mem_map]
    constructor
    · rintro ⟨⟨host, hhost, rfl⟩, hother⟩
      have hrange := List.mem_range'_1.mp hhost
      have hlt : host < 256 := by omega
      have htoNat := hostAddress_toNat a hlt
      refine ⟨hostAddress a host, rfl, by omega, by omega, by omega, ?_⟩
      rintro hsame
      simp [hbase, hsame] at hother
    -- an address of the network is its network's part with its own last octet
    · rintro ⟨b, rfl, hnetwork, hge, hle, hne⟩
      have hb : hostAddress a (b.toNat % 256) = b := by
        apply BitVec.eq_of_toNat_eq
        rw [hostAddress_toNat a (by omega)]
        omega
      refine ⟨⟨b.toNat % 256, List.mem_range'_1.mpr (by omega), by rw [hb]⟩, ?_⟩
      simp only [decide_eq_true_eq]
      intro hsame
      exact hne (ofList_ipv4Text_inj (hsame.trans hbase))

/-- Where a request was sent, it is among the events of its target. -/
theorem SweepState.mem_events {i : Nat} {event : ProbeEvent} :
    event ∈ w.events i ↔ (i, event) ∈ w.log := by
  simp [SweepState.events]

/-- A sweep of `scan_subnet` sends nothing but `GET`s to the other hosts of the `/24`; and where one
    of these sends the client on, it goes there with a `GET` too. -/
theorem subnet_scan_discloses_nothing {self : HttpDiscovery} {baseIp : String} {within : Option Nat}
    (hpolicy : policy.Documented) (hcall : self.scanSubnet baseIp within = some call)
    (hreach : (call.requests policy).Reachable w) {i : Nat} {event : ProbeEvent}
    (hevent : (i, event) ∈ w.log) :
    (∀ r, event = .sent r → r.method = .get) ∧
    (∀ redirect, event = .redirected redirect → redirect.method = .get) ∧
    ∃ a b : BitVec 32, baseIp = String.ofList (ipv4Text a) ∧
      call.targets[i]? = some (String.ofList (ipv4Text b)) ∧ b.toNat / 256 = a.toNat / 256 ∧ b ≠ a := by
  obtain ⟨hosts, hhosts, rfl⟩ := Option.map_eq_some_iff.mp hcall
  obtain ⟨htargets, -, hposted, -, hredirected, -⟩ := sweep_disclosure hpolicy hreach
  -- the program of the scan has no fallback, so it never registers
  have hget : ∀ before r after, w.events i = before ++ .sent r :: after → r.method = .get := by
    rintro before ⟨method, protocol⟩ after heq
    cases method with
    | get => rfl
    | post =>
      obtain hregister | ⟨⟨port, hallowed⟩, -⟩ := hposted i before protocol after heq
      · cases hregister
      · cases hallowed
  -- a log entry splits the course of its probe
  obtain ⟨before, after, heq⟩ := List.append_of_mem (SweepState.mem_events.mpr hevent)
  refine ⟨?_, ?_, ?_⟩
  · rintro r rfl
    exact hget before r after heq
  · rintro redirect rfl
    obtain ⟨r, chain, ⟨⟨front, hfront⟩, -⟩, hpost⟩ := hredirected i before redirect after heq
    cases hmethod : redirect.method with
    | get => rfl
    | post =>
      -- it goes on from a request of the sweep, which is a `GET`
      have hsent : w.events i = front ++ .sent r ::
          ((chain ++ [redirect]).map .redirected ++ after) := by
        rw [heq, List.append_cons, hfront, List.append_assoc, List.cons_append]
      cases (hpost hmethod).1.symm.trans (hget front r _ hsent)
  -- a probe goes to a host of the subnet's list
  · obtain ⟨a, hbase, -, hmem⟩ := subnetHosts_spec hhosts
    have hlt := htargets i event hevent
    obtain ⟨b, hb, hnetwork, -, -, hne⟩ := (hmem _).mp (List.getElem_mem hlt)
    refine ⟨a, b, hbase, ?_, hnetwork, hne⟩
    rw [← hb]
    exact List.getElem?_eq_getElem hlt

/-- The sweep of a `/24` whose first host has sent the client on. -/
theorem subnet_scan_discloses_nothing_first : ∃ call w redirect,
    Scenario.scanner.scanSubnet "10.0.0.1" none = some call ∧
      (call.requests Scenario.redirects).Reachable w ∧ (0, .redirected redirect) ∈ w.log ∧
      redirect.method = .get ∧ ∃ b :
      BitVec 32, call.targets[0]? = some (String.ofList (ipv4Text b)) := by
  let redirect : Redirect := ⟨302, .get, "https://10.0.1.9/"⟩
  have hrun : (Scenario.scanner.scanSubnet "10.0.0.1" none).any (fun call =>
      ((call.requests Scenario.redirects).exec (.start call)
        [.send 0, .redirect 0 302 "https://10.0.1.9/"]).any fun w =>
          w.log = [(0, .sent ⟨.get, .https⟩), (0, .redirected redirect)]) = true := by
            decide +kernel
  obtain ⟨call, hcall, hrun⟩ := (Option.any_eq_true ..).mp hrun
  obtain ⟨w, hw, hlog⟩ := (Option.any_eq_true ..).mp hrun
  rw [decide_eq_true_eq] at hlog
  have hreach : (call.requests Scenario.redirects).Reachable w := .exec (.init rfl) hw
  have hevent : (0, ProbeEvent.redirected redirect) ∈ w.log := by simp [hlog]
  obtain ⟨-, hget, a, b, -, htarget, -⟩ :=
    subnet_scan_discloses_nothing Scenario.redirects_documented hcall hreach hevent
  exact ⟨call, w, redirect, hcall, hreach, hevent, hget redirect rfl, b, htarget⟩

end LocalSend
