import LocalSend.Discovery.Multicast
import LocalSend.Server.Lifecycle

/-!
# The identity that is announced, and the one that is presented

Under HTTPS a device is the fingerprint of its certificate. The fingerprint and the certificate are
copied into a discovery's listeners when it starts, and into a server's listener when that starts;
setters change only some of the copies. So the two agree along a run exactly when every `start` finds
a certificate and a device that agree, and no setter of a started discovery changes the fingerprint.

## Key results

- `faithful_call_iff`, `LocalSendServer.faithful_call_iff`: one call
- `announced_identity`: every sequence of calls
-/

namespace LocalSend

variable {tls : TlsLibrary}

/-! ## Discovery -/

namespace MulticastDiscovery

/-- Whatever a discovery sends next, it sends the fingerprint of the certificate that it presents,
    and it takes its own announcements, and no others, for its own. -/
structure Faithful (s : MulticastDiscovery tls) : Prop where
  announced : ∀ message, s.announcePresence = .ok message → ∀ listener ∈ s.listeners,
    ∀ c, listener.clientCertificate = some c → message.fingerprint = tls.sha256 c.certDer
  registered : ∀ listener ∈ s.listeners, ∀ target c, listener.clientCertificate = some c →
    (listener.clientForAnnouncement target).registerBody.fingerprint = tls.sha256 c.certDer
  ignored : ∀ message, s.announcePresence = .ok message → ∀ listener ∈ s.listeners,
    ∀ announcement src,
      listener.receive announcement src = none ↔ announcement.fingerprint = message.fingerprint

/-- A call that does not set the identities at odds. -/
def KeepsIdentity (s : MulticastDiscovery tls) : DiscoveryCall tls → Prop
  | .setLocalDevice device => s.listeners ≠ [] → device.fingerprint = s.localDevice.fingerprint
  | .setClientCertificate certificate =>
    s.listeners ≠ [] → certificate.fingerprint = s.localDevice.fingerprint
  | .start interfaces => s.running = false → (∃ n, interfaces = .ok (n + 1)) →
    ∀ c, s.clientCertificate = some c → c.fingerprint = s.localDevice.fingerprint
  | .announcePresence => True

theorem receive_eq_none_iff {listener : DiscoveryListener tls} {announcement : AnnouncementMessage}
    {src : String} :
    listener.receive announcement src = none ↔
      announcement.fingerprint = listener.localFingerprint := by
  unfold DiscoveryListener.receive
  split <;> simp [*]

theorem announcePresence_eq_ok {s : MulticastDiscovery tls} {message : AnnouncementMessage}
    (h : s.announcePresence = .ok message) :
    s.listeners ≠ [] ∧ message.fingerprint = s.localDevice.fingerprint := by
  unfold announcePresence at h
  split at h
  · simp at h
  · rename_i hne
    cases h
    exact ⟨hne, rfl⟩

theorem exists_announcePresence {s : MulticastDiscovery tls} (h : s.listeners ≠ []) :
    ∃ message, s.announcePresence = .ok message :=
  ⟨_, if_neg h⟩

/-- What it comes to: every listener has captured the fingerprint that the device has now, and it is
    that of the certificate that it has captured. -/
theorem faithful_iff {s : MulticastDiscovery tls} : s.Faithful ↔ ∀ listener ∈ s.listeners,
    listener.localFingerprint = s.localDevice.fingerprint ∧
      ∀ c, listener.clientCertificate = some c →
        c.fingerprint = s.localDevice.fingerprint ∧
          c.fingerprint = listener.localDevice.fingerprint := by
  constructor
  · intro h listener hmem
    obtain ⟨message, hmessage⟩ := exists_announcePresence (List.ne_nil_of_mem hmem)
    have hsame := (announcePresence_eq_ok hmessage).2
    refine ⟨?_, fun c hc => ⟨?_, ?_⟩⟩
    · -- the listener's own fingerprint is ignored
      have hignored := h.ignored message hmessage listener hmem
        { message with fingerprint := listener.localFingerprint } ""
      rw [receive_eq_none_iff, hsame] at hignored
      exact hignored.mp rfl
    · have hannounced := h.announced message hmessage listener hmem c hc
      rw [c.sha256_certDer, hsame] at hannounced
      exact hannounced.symm
    · -- to a device under HTTP the captured device is sent as it is
      have hregistered :=
        h.registered listener hmem { listener.localDevice with protocol := .http } c hc
      rw [c.sha256_certDer] at hregistered
      exact hregistered.symm
  · intro h
    constructor
    · intro message hmessage listener hmem c hc
      rw [(announcePresence_eq_ok hmessage).2, c.sha256_certDer]
      exact ((h listener hmem).2 c hc).1.symm
    · intro listener hmem target c hc
      rw [c.sha256_certDer]
      unfold DiscoveryListener.clientForAnnouncement
      cases target.protocol with
      | http => exact ((h listener hmem).2 c hc).2.symm
      | https =>
        rw [hc]
        rfl
    · intro message hmessage listener hmem announcement src
      rw [receive_eq_none_iff, (announcePresence_eq_ok hmessage).2, (h listener hmem).1]

theorem faithful_newWithDevice (device : DeviceInfo) :
    (newWithDevice device : MulticastDiscovery tls).Faithful :=
  faithful_iff.mpr (by intro _ h; cases h)

/-- A setter that leaves the listeners as they are, with another device. -/
theorem faithful_of_listeners {s s' : MulticastDiscovery tls} (hs : s.Faithful)
    (hlisteners : s'.listeners = s.listeners) :
    s'.Faithful ↔ (s.listeners ≠ [] → s'.localDevice.fingerprint = s.localDevice.fingerprint) := by
  rw [faithful_iff] at hs ⊢
  rw [hlisteners]
  constructor
  · intro h hne
    obtain ⟨listener, hmem⟩ := List.exists_mem_of_ne_nil _ hne
    rw [← (h listener hmem).1, (hs listener hmem).1]
  · intro h listener hmem
    rw [h (List.ne_nil_of_mem hmem)]
    exact hs listener hmem

/-- One call leaves a faithful discovery faithful exactly when it keeps its identity. -/
theorem faithful_call_iff {s : MulticastDiscovery tls} (hs : s.Faithful)
    (hprotocol : s.localDevice.protocol = .https) (call : DiscoveryCall tls) :
    (s.call call).Faithful ↔ s.KeepsIdentity call := by
  cases call with
  | setLocalDevice device => exact faithful_of_listeners hs rfl
  | setClientCertificate certificate =>
    -- under HTTPS the setter gives the device the fingerprint of the certificate
    have hset : (s.setClientCertificate certificate).Faithful ↔ (s.listeners ≠ [] →
        (s.setClientCertificate certificate).localDevice.fingerprint = s.localDevice.fingerprint) :=
      faithful_of_listeners hs rfl
    have hfingerprint :
        (s.setClientCertificate certificate).localDevice.fingerprint = certificate.fingerprint := by
      simp [setClientCertificate, hprotocol]
    rw [hfingerprint] at hset
    exact hset
  | announcePresence => exact iff_of_true hs trivial
  | start interfaces =>
    unfold KeepsIdentity
    cases hrunning : s.running with
    | true =>
      -- a second start changes nothing
      have hsame : s.call (.start interfaces) = s := by
        simp [call, start, hrunning, Except.toOption]
      rw [hsame]
      exact iff_of_true hs (by simp)
    | false =>
      cases interfaces with
      | error error =>
        -- nor does one that finds no interface
        have hsame : s.call (.start (.error error)) = s := by
          simp [call, start, hrunning, Except.toOption, Except.map]
        rw [hsame]
        exact iff_of_true hs fun _ ⟨_, h⟩ => (by cases h)
      | ok n =>
        -- every interface gets a listener with the device and the certificate of now
        have hcall : s.call (.start (.ok n)) = { s with
            listeners := List.replicate n ⟨s.localDevice.fingerprint, s.localDevice,
              s.clientCertificate⟩
            running := true } := by
          simp [call, start, hrunning, Except.toOption, Except.map]
        rw [hcall, faithful_iff]
        constructor
        · rintro h _ ⟨m, hm⟩ c hc
          cases hm
          exact ((h _ (List.mem_replicate.mpr ⟨Nat.succ_ne_zero m, rfl⟩)).2 c hc).1
        · intro h listener hmem
          obtain ⟨hn, rfl⟩ := List.mem_replicate.mp hmem
          obtain ⟨m, rfl⟩ := Nat.exists_eq_succ_of_ne_zero hn
          exact ⟨rfl, fun c hc => ⟨h rfl ⟨m, rfl⟩ c hc, h rfl ⟨m, rfl⟩ c hc⟩⟩

/-- The device stays under HTTPS. -/
theorem protocol_step {s s' : MulticastDiscovery tls} {call : DiscoveryCall tls}
    (hprotocol : s.localDevice.protocol = .https)
    (h : (discoverySystem tls).step s call = some s') :
    s' = s.call call ∧ s'.localDevice.protocol = .https := by
  cases call with
  | setLocalDevice device =>
    simp only [discoverySystem] at h
    split at h
    · rename_i hdevice
      cases h
      exact ⟨rfl, hdevice⟩
    · simp at h
  | setClientCertificate certificate =>
    cases h
    refine ⟨rfl, ?_⟩
    simp [MulticastDiscovery.call, setClientCertificate, hprotocol]
  | announcePresence =>
    cases h
    exact ⟨rfl, hprotocol⟩
  | start interfaces =>
    cases h
    refine ⟨rfl, ?_⟩
    cases hrunning : s.running <;> cases interfaces <;>
      simp [MulticastDiscovery.call, start, hrunning, hprotocol, Except.toOption, Except.map]

end MulticastDiscovery

/-! ## Server -/

namespace LocalSendServer

/-- Every answer has the fingerprint of the certificate that is presented with it. -/
def Faithful (s : LocalSendServer tls) : Prop :=
  ∀ listener ∈ s.listeners, listener.presents = some listener.handleInfo.fingerprint ∧
    listener.presents = some listener.handleRegister.fingerprint

/-- A call that does not set the identities at odds: a listener is started with the certificate
    whose fingerprint the device has. -/
def KeepsIdentity (s : LocalSendServer tls) : ServerCall tls → Prop
  | .start generated (some _) => (s.tlsCert.getD generated).fingerprint = s.device.fingerprint
  | .start _ none | .setTlsCertificate _ | .stop => True

theorem faithful_cons_iff {s s' : LocalSendServer tls} (hs : s.Faithful)
    {listener : ServerListener tls} (h : s'.listeners = listener :: s.listeners) :
    s'.Faithful ↔ listener.certificate.fingerprint = listener.device.fingerprint := by
  have hpresents : listener.presents = some listener.certificate.fingerprint :=
    listener.certificate.sha256_certPem
  unfold Faithful at hs ⊢
  rw [h, List.forall_mem_cons, and_iff_left hs, hpresents]
  constructor
  · intro hsame
    exact Option.some.inj hsame.1
  · intro hsame
    exact ⟨congrArg some hsame, congrArg some hsame⟩

/-- One call leaves a faithful server faithful exactly when it keeps its identity. -/
theorem faithful_call_iff {s : LocalSendServer tls} (hs : s.Faithful) (call : ServerCall tls) :
    (s.call call).Faithful ↔ s.KeepsIdentity call := by
  cases call with
  | setTlsCertificate certificate => exact iff_of_true hs trivial
  | stop => exact iff_of_true hs trivial
  | start generated port =>
    cases port with
    | none => exact iff_of_true hs trivial
    | some port =>
      have hlisteners : (s.call (.start generated (some port))).listeners =
          ⟨s.tlsCert.getD generated, { s.device with port := port }⟩ :: s.listeners := rfl
      exact faithful_cons_iff hs hlisteners

end LocalSendServer

/-- A server is built with the fingerprint of its certificate. -/
theorem LocalSendServerBuilder.faithful_of_build {b : LocalSendServerBuilder tls}
    {generated : TlsIdentity tls} {port : Option UInt16} {s : LocalSendServer tls}
    (h : b.build generated port = some s) : s.Faithful := by
  cases port with
  | none => cases h
  | some port =>
    cases h
    intro listener hmem
    obtain rfl := List.mem_singleton.mp hmem
    exact ⟨TlsIdentity.sha256_certPem _, TlsIdentity.sha256_certPem _⟩

/-! ## Every sequence of calls -/

/-- Along every sequence of calls under HTTPS, a component goes on announcing the identity that it
    presents exactly as long as every call keeps its identity. -/
theorem announced_identity (tls : TlsLibrary) :
    (∀ (s : MulticastDiscovery tls) (calls : List (DiscoveryCall tls)),
      (discoverySystem tls).Init s →
      s.Faithful ∧ ((discoverySystem tls).Always (fun _ _ s' => s'.Faithful) s calls ↔
        (discoverySystem tls).Always (fun s call _ => s.KeepsIdentity call) s calls)) ∧
    ∀ (s : LocalSendServer tls) (calls : List (ServerCall tls)), (serverLifecycle tls).Init s →
      s.Faithful ∧ ((serverLifecycle tls).Always (fun _ _ s' => s'.Faithful) s calls ↔
        (serverLifecycle tls).Always (fun s call _ => s.KeepsIdentity call) s calls) := by
  constructor
  · rintro s calls ⟨device, hdevice, rfl⟩
    have hstart := @MulticastDiscovery.faithful_newWithDevice tls device
    refine ⟨hstart, ?_⟩
    -- the protocol is part of the invariant: without HTTPS the certificate does not set the
    -- fingerprint
    apply TransitionSystem.always_iff_of_invariant (discoverySystem tls)
      (fun s => s.Faithful ∧ s.localDevice.protocol = .https) ?_ ⟨hstart, hdevice⟩
    rintro s call s' ⟨hs, hprotocol⟩ hstep
    obtain ⟨rfl, hprotocol'⟩ := MulticastDiscovery.protocol_step hprotocol hstep
    exact ⟨MulticastDiscovery.faithful_call_iff hs hprotocol call, fun h => ⟨h, hprotocol'⟩⟩
  · rintro s calls ⟨b, generated, port, hbuild⟩
    have hstart := b.faithful_of_build hbuild
    refine ⟨hstart, ?_⟩
    apply TransitionSystem.always_iff_of_invariant (serverLifecycle tls) LocalSendServer.Faithful ?_
      hstart
    intro s call s' hs hstep
    cases hstep
    exact ⟨LocalSendServer.faithful_call_iff hs call, id⟩

/-- A device whose certificate is `a`. -/
def laptop : DeviceInfo := ⟨"laptop", "2.1", none, none, "a", 53317, .https, false, none⟩

/-- A discovery that is given its certificate, started and announced. -/
theorem announced_identity_laptop :
    (discoverySystem textTls).Always (fun _ _ s' => s'.Faithful) (.newWithDevice laptop)
      [.setClientCertificate (textIdentity "a"), .start (.ok 1), .announcePresence] := by
  apply ((announced_identity textTls).1 (.newWithDevice laptop) _ ⟨laptop, rfl, rfl⟩).2.mpr
  intro s hs
  cases hs
  refine ⟨nofun, fun s hs => ?_⟩
  cases hs
  refine ⟨fun _ _ c hc => ?_, fun s hs => ?_⟩
  · cases hc
    rfl
  · cases hs
    exact ⟨trivial, trivial⟩

/-- A discovery whose device is replaced after it has started announces `b` while it presents `a`,
    and answers its own announcement; a server that is given another certificate between two starts
    answers with `a` while it presents `b`. -/
theorem announced_identity_replaced :
    (∃ s message, (discoverySystem textTls).exec (.newWithDevice laptop)
        [.setClientCertificate (textIdentity "a"), .start (.ok 1),
          .setLocalDevice { laptop with fingerprint := "b" }] = some s ∧
      s.announcePresence = .ok message ∧ message.fingerprint = "b" ∧
      s.listeners.map (fun listener => (listener.receive message "192.168.0.2").isSome) = [true] ∧
      s.listeners.map (fun listener => listener.clientCertificate.map (·.fingerprint)) = [some "a"] ∧
      ¬s.Faithful) ∧
    ∃ s₀ s, (⟨"laptop", "2.1", "Linux", .desktop, 53317, some (textIdentity "a")⟩ :
        LocalSendServerBuilder textTls).build (textIdentity "c") (some 53317) = some s₀ ∧
      (serverLifecycle textTls).exec s₀
        [.stop, .setTlsCertificate (textIdentity "b"), .start (textIdentity "c") (some 53317)] = some s ∧
      s.running.map (fun listener => (listener.presents, listener.handleInfo.fingerprint)) =
        some (some "b", "a") ∧ ¬s.Faithful := by
  constructor
  · refine ⟨_, _, rfl, rfl, rfl, by decide, by decide, fun h => ?_⟩
    have hannounced := h.announced _ rfl _ (List.mem_singleton_self _) (textIdentity "a") rfl
    exact absurd hannounced (by decide)
  · refine ⟨_, _, rfl, rfl, by decide, fun h => ?_⟩
    have hinfo := (h _ List.mem_cons_self).1
    exact absurd hinfo (by decide)

end LocalSend
