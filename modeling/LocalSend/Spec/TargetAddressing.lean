import LocalSend.Cli.Target
import LocalSend.Spec.QueryRoundTrip

/-!
# From a target to a URL and back

A target of the `send` command is split into its address and its port, and the client formats the
two into URLs again. The splitting knows brackets, the formatting does not: so the forms of every
address are understood, and the URLs are of the IPv4 addresses only. And the text after a host that
is no port is kept with the host where there are no brackets, and dropped where there are.

## Key results

- `splitHostPort_form`: every documented form of an address
- `addressedUrl_reaches_iff`: where a URL for an address leads
- `tailKept_iff`: which targets lose the text after their host
- `target_addressing`: all three
-/

namespace LocalSend

open IpText

/-- `Display` of an `IpAddr`. -/
def IpAddr.text : IpAddr → List Char
  | .v4 bits => ipv4Text bits
  | .v6 bits => ipv6Text bits

/-- The host that stands for an address in a URL. -/
def IpAddr.host : IpAddr → Url.Host
  | .v4 bits => .ipv4 bits
  | .v6 bits => .ipv6 bits

/-- The documented forms of a target, with the port that each of them gives. -/
def targetForms (ip : IpAddr) (port : UInt16) : List (List Char × Option UInt16) :=
  match ip with
  | .v4 _ => [(ip.text, none), (ip.text ++ ':' :: decimal port.toNat, some port)]
  | .v6 _ =>
    [(ip.text, none), ('[' :: ip.text ++ [']'], none),
      ('[' :: ip.text ++ ']' :: ':' :: decimal port.toNat, some port)]

/-- The URLs that are built for an address and a port. -/
inductive AddressedUrl (ip : IpAddr) (port : UInt16) : String → Prop
  | probeInfo (protocol : Protocol) :
    AddressedUrl ip port (HttpDiscovery.probeInfoUrl (String.ofList ip.text) port protocol)
  | probeRegister (protocol : Protocol) :
    AddressedUrl ip port (HttpDiscovery.probeRegisterUrl (String.ofList ip.text) port protocol)
  | register {target : DeviceInfo} {text : String} :
    target.ip = some (String.ofList ip.text) → target.port = port →
      LocalSendClient.registerUrl target = .ok text → AddressedUrl ip port text
  | call {target : DeviceInfo} {text : String} (call : ClientCall) :
    target.ip = some (String.ofList ip.text) → target.port = port →
      call.url target = .ok text → AddressedUrl ip port text

/-- The URL parses to that address and that port. -/
def Reaches (url : Url.UrlParser) (text : String) (ip : IpAddr) (port : UInt16) : Prop :=
  (url.parse text.toList).map (fun u => (u.host, u.port)) = some (ip.host, port.toNat)

/-- A target has this text after its host. -/
inductive TailOf : List Char → List Char → List Char → Prop
  | plain {host text : List Char} : ':' ∉ host → TailOf (host ++ ':' :: text) host (':' :: text)
  | bracketed {host tail : List Char} : ']' ∉ host → TailOf ('[' :: host ++ ']' :: tail) host tail

/-- A text that is neither empty, but for a colon, nor a valid port. -/
def NoPort (tail : List Char) : Prop :=
  tail ≠ [] ∧ tail ≠ [':'] ∧ (stripPrefix ':' tail).bind parseU16 = none

/-- No text after the host is dropped for the default port. -/
def TailKept (target : List Char) : Prop :=
  ∀ host tail, TailOf target host tail → NoPort tail → splitHostPort target ≠ (host, none)

/-! ## Splitting -/

theorem IpAddr.not_mem_text {ip : IpAddr} {c : Char} (hhex : isHex c = false) (hcolon : c ≠ ':')
    (hdot : c ≠ '.') : c ∉ ip.text := by
  intro hmem
  cases ip with
  | v4 bits =>
    rcases ipv4Text_chars hmem with h | h
    · rw [isHex, h] at hhex
      simp at hhex
    · exact hdot h
  | v6 bits =>
    rcases ipv6Text_chars hmem with h | h | h
    · cases hhex.symm.trans h
    · exact hcolon h
    · exact hdot h

theorem colon_not_mem_ipv4Text (bits : BitVec 32) : ':' ∉ ipv4Text bits := by
  intro hmem
  rcases ipv4Text_chars hmem with h | h
  · simp at h
  · simp at h

theorem colon_not_mem_decimal (n : Nat) : ':' ∉ decimal n :=
  fun hmem => (by cases isDigit_of_mem_decimal hmem)

/-- Every documented form of an address is split into the address and its port. -/
theorem splitHostPort_form {ip : IpAddr} {port : UInt16} {form : List Char × Option UInt16}
    (h : form ∈ targetForms ip port) : splitHostPort form.1 = (ip.text, form.2) := by
  have hopen : '[' ∉ ip.text := ip.not_mem_text (by decide) (by decide) (by decide)
  have hclose : ']' ∉ ip.text := ip.not_mem_text (by decide) (by decide) (by decide)
  have hstart : ∀ t : List Char, t.head? ≠ some '[' → stripPrefix '[' (ip.text ++ t) = none :=
    fun t ht => stripPrefix_of_not_mem hopen t ht
  have hbare := hstart [] (by simp)
  rw [List.append_nil] at hbare
  cases ip with
  | v4 bits =>
    have hcolon := colon_not_mem_ipv4Text bits
    simp only [targetForms, List.mem_cons, List.not_mem_nil, or_false] at h
    rcases h with rfl | rfl
    · -- no colon
      apply splitHostPort_whole hbare
      rw [show (IpAddr.v4 bits).text.count ':' = 0 from List.count_eq_zero.mpr hcolon]
      decide
    · show splitHostPort ((IpAddr.v4 bits).text ++ ':' :: decimal port.toNat) = _
      rw [splitHostPort_colon (hstart _ (by simp)) hcolon (colon_not_mem_decimal _),
        if_neg (decimal_ne_nil _), parseU16_decimal]
  | v6 bits =>
    have hcount := two_le_count_ipv6Text bits
    simp only [targetForms, List.mem_cons, List.not_mem_nil, or_false] at h
    rcases h with rfl | rfl | rfl
    · -- two colons at least
      apply splitHostPort_whole hbare
      show (ipv6Text bits).count ':' ≠ 1
      omega
    · exact splitHostPort_bracketed hclose []
    · show splitHostPort ('[' :: (IpAddr.v6 bits).text ++ ']' :: ':' :: decimal port.toNat) = _
      rw [splitHostPort_bracketed hclose, stripPrefix, if_pos rfl, Option.bind_some,
        parseU16_decimal]

/-! ## URLs -/

/-- The URLs for an address are URLs of the protocol, with the address before the port. -/
theorem AddressedUrl.toList {ip : IpAddr} {port : UInt16} {text : String}
    (h : AddressedUrl ip port text) :
    ∃ scheme path, text.toList =
      Url.urlText scheme ((ip.text ++ ':' :: decimal port.toNat) ++ '/' :: path) := by
  -- the address ends before the colon of the port, and the port before the path
  have hendpoint : ∀ (protocol : Protocol) {path : String} {p : List Char}, path.toList = '/' :: p →
      ∀ query, (endpointUrl protocol (String.ofList ip.text) port path).toList ++ query =
        Url.urlText protocol.scheme
          ((ip.text ++ ':' :: decimal port.toNat) ++ '/' :: (p ++ query)) := by
    intro protocol path p hpath query
    rw [endpointUrl_toList, hpath, String.toList_ofList]
    simp [Url.urlText]
  have hplain : ∀ protocol {path : String} {p : List Char}, path.toList = '/' :: p →
      ∃ scheme path', (endpointUrl protocol (String.ofList ip.text) port path).toList =
        Url.urlText scheme ((ip.text ++ ':' :: decimal port.toNat) ++ '/' :: path') := by
    intro protocol path p hpath
    exact ⟨_, _, (List.append_nil _).symm.trans (hendpoint protocol hpath [])⟩
  cases h with
  | probeInfo protocol => exact hplain protocol rfl
  | probeRegister protocol => exact hplain protocol rfl
  | @register target text hip hport htext =>
    unfold LocalSendClient.registerUrl LocalSendClient.targetIp at htext
    rw [hip, hport] at htext
    cases htext
    exact hplain target.protocol rfl
  | @call target text call hip hport htext =>
    obtain ⟨_, path, hip', ⟨p, hpath⟩, _, htext⟩ := ClientCall.toList_url htext
    cases hip'.symm.trans hip
    rw [htext, hport]
    exact ⟨_, _, hendpoint target.protocol hpath _⟩

/-- An address and its port have nothing in them that ends an authority. -/
theorem plainAuthority_text (ip : IpAddr) (port : UInt16) :
    Url.PlainAuthority (ip.text ++ ':' :: decimal port.toNat) := by
  have hchar : ∀ c ∈ ip.text ++ ':' :: decimal port.toNat, isHex c = true ∨ c = ':' ∨ c = '.' := by
    intro c hc
    rcases List.mem_append.mp hc with hc | hc
    · cases ip with
      | v4 bits =>
        rcases ipv4Text_chars hc with h | h
        · exact .inl (by rw [isHex, h]; rfl)
        · exact .inr (.inr h)
      | v6 bits => exact ipv6Text_chars hc
    · rcases List.mem_cons.mp hc with rfl | hc
      · exact .inr (.inl rfl)
      · exact .inl (by rw [isHex, isDigit_of_mem_decimal hc]; rfl)
  -- hexadecimal digits are beyond the space
  have hhex : ∀ c, isHex c = true → FormUrlEncoded.isC0OrSpace c = false := by
    intro c hc
    have hlower : 0x30 ≤ c.toNat := by
      simp only [isHex, Char.isDigit, Bool.or_eq_true, Bool.and_eq_true, decide_eq_true_eq,
        Char.le_def, UInt32.le_iff_toNat_le] at hc
      rcases hc with hc | hc
      · exact hc.1
      · exact Nat.le_trans (by decide) hc.1
    unfold FormUrlEncoded.isC0OrSpace
    exact decide_eq_false (by omega)
  refine ⟨by simp, ?_⟩
  intro c hc
  rcases hchar c hc with h | rfl | rfl
  · refine ⟨hhex c h, ?_, ?_, ?_, ?_, ?_⟩ <;> (rintro rfl; revert h; decide)
  · decide
  · decide

/-- A URL for an address leads there exactly when the address is IPv4: an IPv6 address is formatted
    without its brackets. -/
theorem addressedUrl_reaches_iff {url : Url.UrlParser} (hurl : url.Standard) {ip : IpAddr}
    {port : UInt16} {text : String} (h : AddressedUrl ip port text) :
    Reaches url text ip port ↔ ∃ bits, ip = .v4 bits := by
  obtain ⟨scheme, path, htext⟩ := h.toList
  unfold Reaches
  rw [htext, hurl.authority scheme _ path (plainAuthority_text ip port)]
  have hbracket : '[' ∉ ip.text ∧ ']' ∉ ip.text :=
    ⟨ip.not_mem_text (by decide) (by decide) (by decide),
      ip.not_mem_text (by decide) (by decide) (by decide)⟩
  cases ip with
  | v4 bits =>
    have hne : ipv4Text bits ≠ [] := by simp [ipv4Text]
    have hread : Url.hostPort url.parseHost scheme (ipv4Text bits ++ ':' :: decimal port.toNat) =
        (url.parseHost (ipv4Text bits)).map fun host => (host, port.toNat) :=
      Url.hostPort_of_digits hne (colon_not_mem_ipv4Text bits) hbracket port
    rw [hurl.ipv4] at hread
    exact iff_of_true hread ⟨bits, rfl⟩
  | v6 bits =>
    -- the host is taken to end at the first colon of the address
    have hcount := two_le_count_ipv6Text bits
    have hnone : Url.hostPort url.parseHost scheme (ipv6Text bits ++ ':' :: decimal port.toNat) =
        none := by
      apply Url.hostPort_of_colons
      · rw [List.count_append]
        omega
      · have hdigits : ∀ c, c.isDigit = false → c ∉ decimal port.toNat :=
          fun c hc hmem => (by cases hc.symm.trans (isDigit_of_mem_decimal hmem))
        simp only [List.mem_append, List.mem_cons, not_or]
        exact ⟨⟨hbracket.1, by decide, hdigits _ (by decide)⟩,
          ⟨hbracket.2, by decide, hdigits _ (by decide)⟩⟩
    apply iff_of_false
    · intro h
      cases hnone.symm.trans h
    · rintro ⟨_, h⟩
      simp at h

/-! ## What is dropped -/

/-- A host that starts with a bracket is not what its target is split into. -/
theorem splitHostPort_bracket_ne {host : List Char} (hhost : ':' ∉ '[' :: host) (text : List Char) :
    (splitHostPort ('[' :: host ++ ':' :: text)).1 ≠ '[' :: host := by
  intro hsplit
  by_cases hclose : ']' ∈ host ++ ':' :: text
  · obtain ⟨inner, tail, heq, hinner⟩ := List.eq_append_cons_of_mem hclose
    rw [List.cons_append, heq, ← List.cons_append, splitHostPort_bracketed hinner] at hsplit
    -- the inner host reaches over the colon, which the outer one has not
    obtain rfl : inner = '[' :: host := hsplit
    have houter : host ++ [':'] <+: host ++ ':' :: text := ⟨text, by simp⟩
    have hwhole : '[' :: host <+: host ++ ':' :: text := ⟨']' :: tail, heq.symm⟩
    have hcolon : host ++ [':'] <+: '[' :: host :=
      List.prefix_of_prefix_length_le houter hwhole (by simp)
    exact hhost (hcolon.subset (by simp))
  · rw [List.cons_append, splitHostPort_unclosed hclose] at hsplit
    have hlength := congrArg List.length hsplit
    simp at hlength

/-- A host in brackets loses the text after it, unless that is a port; any other host keeps it. -/
theorem tailKept_iff (target : List Char) :
    TailKept target ↔
      ¬∃ host tail, target = '[' :: host ++ ']' :: tail ∧ ']' ∉ host ∧ NoPort tail := by
  constructor
  · rintro hkept ⟨host, tail, rfl, hhost, hport⟩
    apply hkept host tail (.bracketed hhost) hport
    rw [splitHostPort_bracketed hhost, hport.2.2]
  · intro hnone host tail htail hport hsplit
    cases htail with
    | bracketed hhost => exact hnone ⟨host, tail, rfl, hhost, hport⟩
    | @plain host text hhost =>
      have hne : host ++ ':' :: text ≠ host := by
        intro heq
        have hlength := congrArg List.length heq
        simp at hlength
      cases hstart : stripPrefix '[' (host ++ ':' :: text) with
      | some rest =>
        -- the bracket is the first character of the host, so the target is not this host's
        cases host with
        | nil => cases hstart
        | cons c host =>
          rw [List.cons_append, stripPrefix] at hstart
          split at hstart
          · rename_i hc
            subst hc
            exact splitHostPort_bracket_ne hhost text (congrArg Prod.fst hsplit)
          · simp at hstart
      | none =>
        by_cases hcolon : ':' ∈ text
        · rw [splitHostPort_whole hstart] at hsplit
          · exact hne (congrArg Prod.fst hsplit)
          · have hpos := List.count_pos_iff.mpr hcolon
            rw [List.count_append, List.count_cons_self]
            omega
        · -- a plain host with one colon: the text after it is no port
          have hparse : parseU16 text = none := by
            have hread := hport.2.2
            rw [stripPrefix, if_pos rfl] at hread
            exact hread
          have htext : text ≠ [] := fun hnil => hport.2.1 (congrArg _ hnil)
          rw [splitHostPort_colon hstart hhost hcolon, if_neg htext, hparse] at hsplit
          exact hne (congrArg Prod.fst hsplit)

/-- Every documented form of an address is understood; the URLs for it lead there exactly when it is
    IPv4; and a target loses the text after its host exactly when its host is in brackets. -/
theorem target_addressing (url : Url.UrlParser) (hurl : url.Standard) (ip : IpAddr)
    (port : UInt16) :
    (∀ form ∈ targetForms ip port, splitHostPort form.1 = (ip.text, form.2)) ∧
      (∀ text, AddressedUrl ip port text → (Reaches url text ip port ↔ ∃ bits, ip = .v4 bits)) ∧
      ∀ target, TailKept target ↔
        ¬∃ host tail, target = '[' :: host ++ ']' :: tail ∧ ']' ∉ host ∧ NoPort tail :=
  ⟨fun _ hform => splitHostPort_form hform, fun _ htext => addressedUrl_reaches_iff hurl htext,
    tailKept_iff⟩

/-- This machine, on the default port. -/
theorem target_addressing_localhost :
    splitHostPort "127.0.0.1:53317".toList = ("127.0.0.1".toList, some 53317) ∧
      Reaches .reference "https://127.0.0.1:53317/api/localsend/v2/info" (.v4 0x7F000001) 53317 := by
  obtain ⟨hforms, hurls, _⟩ := target_addressing .reference Url.UrlParser.reference_standard
    (.v4 0x7F000001) 53317
  constructor
  · exact hforms ("127.0.0.1:53317".toList, some 53317) (by decide +kernel)
  · have hprobe := @AddressedUrl.probeInfo (.v4 0x7F000001) 53317 .https
    have htext : HttpDiscovery.probeInfoUrl (String.ofList (IpAddr.v4 0x7F000001).text) 53317 .https =
        "https://127.0.0.1:53317/api/localsend/v2/info" := by decide +kernel
    rw [htext] at hprobe
    exact (hurls _ hprobe).mpr ⟨_, rfl⟩

/-- The target `[::1]:99999` goes on as the default port of `::1`, whose URL is none. -/
theorem target_addressing_dropped :
    targetAddress "[::1]:99999".toList = ("::1".toList, 53317) ∧ ¬TailKept "[::1]:99999".toList ∧
      AddressedUrl (.v6 1) 53317 "http://::1:53317/api/localsend/v2/info" ∧
      ¬Reaches .reference "http://::1:53317/api/localsend/v2/info" (.v6 1) 53317 := by
  have hsplit : splitHostPort "[::1]:99999".toList = ("::1".toList, none) := by decide +kernel
  refine ⟨by decide +kernel, ?_, ?_, ?_⟩
  · intro hkept
    have htail : TailOf "[::1]:99999".toList "::1".toList ":99999".toList :=
      @TailOf.bracketed "::1".toList _ (by decide)
    exact hkept _ _ htail ⟨by decide, by decide, by decide +kernel⟩ hsplit
  · have htext : HttpDiscovery.probeInfoUrl (String.ofList (IpAddr.v6 1).text) 53317 .http =
        "http://::1:53317/api/localsend/v2/info" := by decide +kernel
    exact htext ▸ .probeInfo .http
  · unfold Reaches
    decide +kernel

end LocalSend
