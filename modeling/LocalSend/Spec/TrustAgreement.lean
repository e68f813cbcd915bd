import LocalSend.Client.TrustPolicy

/-!
# One trust decision, made twice

A policy compares the normal form of a fingerprint with the pin as it is; the verifier of a client
brings the pin into normal form first. The pin of an announcement is the text that was announced, so
the two decide alike exactly for the pins that are in normal form, or are not of the certificate.

## Key results

- `normalizeFingerprint_lowerHex`: the text of a digest is in normal form
- `policy_agrees_iff`: when the policy and the verifier agree
-/

namespace LocalSend

/-! ## Normal forms -/

/-- The digits that a digest is written in. -/
theorem nibble_normal {k : Nat} (h : k < 16) :
    isAsciiHexdigit (Nat.digitChar k) = true ∧ (Nat.digitChar k).toLower = Nat.digitChar k := by
  have hall : ∀ k < 16, isAsciiHexdigit (Nat.digitChar k) = true ∧
      (Nat.digitChar k).toLower = Nat.digitChar k := by decide
  exact hall k h

theorem toList_lowerHex (bytes : List UInt8) : (lowerHex bytes).toList =
    bytes.flatMap fun b => [Nat.digitChar (b.toNat / 16), Nat.digitChar (b.toNat % 16)] := by
  rw [lowerHex, String.toList_ofList]

theorem lowerHex_chars_normal {bytes : List UInt8} {c : Char} (h : c ∈ (lowerHex bytes).toList) :
    isAsciiHexdigit c = true ∧ c.toLower = c := by
  rw [toList_lowerHex] at h
  obtain ⟨b, -, hc⟩ := List.mem_flatMap.mp h
  have hb : b.toNat < 256 := b.toNat_lt_size
  have hhigh : b.toNat / 16 < 16 := by omega
  have hlow : b.toNat % 16 < 16 := by omega
  cases List.mem_cons.mp hc with
  | inl hc =>
    rw [hc]
    exact nibble_normal hhigh
  | inr hc =>
    rw [List.mem_singleton.mp hc]
    exact nibble_normal hlow

theorem length_lowerHex (bytes : List UInt8) :
    (lowerHex bytes).toList.length = 2 * bytes.length := by
  rw [toList_lowerHex]
  induction bytes with
  | nil => rfl
  | cons b bytes ih =>
    rw [List.flatMap_cons, List.length_append, ih]
    simp only [List.length_cons, List.length_nil]
    omega

theorem map_toLower_of_normal {cs : List Char} (h : ∀ c ∈ cs, c.toLower = c) :
    cs.map Char.toLower = cs := by
  induction cs with
  | nil => rfl
  | cons c cs ih =>
    rw [List.map_cons, h c (List.mem_cons_self ..),
      ih fun d hd => h d (List.mem_cons_of_mem _ hd)]

/-- The text of a digest is in normal form. -/
theorem normalizeFingerprint_lowerHex {bytes : List UInt8} (h : bytes.length = 32) :
    normalizeFingerprint (lowerHex bytes) = some (lowerHex bytes) := by
  have hnormal := fun c (hc : c ∈ (lowerHex bytes).toList) => lowerHex_chars_normal hc
  -- nothing is filtered away, and nothing has another letter case
  have hsame : ((lowerHex bytes).toList.filter isAsciiHexdigit).map Char.toLower =
      (lowerHex bytes).toList := by
    rw [List.filter_eq_self.mpr fun c hc => (hnormal c hc).1]
    exact map_toLower_of_normal fun c hc => (hnormal c hc).2
  have hlength : (lowerHex bytes).toList.length = 64 := by
    rw [length_lowerHex, h]
  unfold normalizeFingerprint
  simp only [hsame, hlength, if_true, String.ofList_toList]

section Agreement

variable {V : Type} (tls : TlsBackend V)

/-- The text of a certificate is a pin in normal form. -/
theorem normalizeFingerprint_sha256 (der : List UInt8) :
    normalizeFingerprint (sha256FromBytes tls der) = some (sha256FromBytes tls der) :=
  normalizeFingerprint_lowerHex (tls.sha256 der).length_toList

/-! ## The two decisions -/

/-- The policy takes the pin as it is. -/
theorem allows_pinned_iff (e : String) (der : List UInt8) :
    (TlsTrustPolicy.pinnedFingerprint e).allows (sha256FromBytes tls der) = true ↔
      e = sha256FromBytes tls der := by
  simp only [TlsTrustPolicy.allows, normalizeFingerprint_sha256, Option.any_some, decide_eq_true_eq]
  exact eq_comm

/-- The verifier takes the normal form of the pin. -/
theorem accepts_pinned_iff (hbuild : ∃ v, tls.signatureVerifier = .ok v) (e : String)
    (der : List UInt8) :
    LocalSendClient.accepts tls (.pinnedFingerprint e) der = true ↔
      normalizeFingerprint e = some (sha256FromBytes tls der) := by
  obtain ⟨v, hv⟩ := hbuild
  cases hpin : normalizeFingerprint e with
  | none => simp [LocalSendClient.accepts, FingerprintVerifier.new, hpin]
  | some pin =>
    have hnew : FingerprintVerifier.new tls e = .ok ⟨pin, v⟩ := by
      simp only [FingerprintVerifier.new, hpin, hv]
      rfl
    simp only [LocalSendClient.accepts, hnew, FingerprintVerifier.verifyServerCert,
      normalizeFingerprint_sha256, Option.any_some, decide_eq_true_eq, Option.some.injEq]
    -- the verifier answers by the comparison alone
    by_cases hpin : sha256FromBytes tls der = pin
    · rw [if_pos hpin]
      exact ⟨fun _ => hpin.symm, fun _ => rfl⟩
    · rw [if_neg hpin]
      exact ⟨fun hok => absurd hok Bool.false_ne_true, fun heq => absurd heq.symm hpin⟩

/-- The two decide alike when the pin is in normal form, or is no pin of the certificate. -/
theorem policy_agrees_iff (hbuild : ∃ v, tls.signatureVerifier = .ok v) (e : String)
    (der : List UInt8) :
    ((TlsTrustPolicy.pinnedFingerprint e).allows (sha256FromBytes tls der) = true ↔
        LocalSendClient.accepts tls (.pinnedFingerprint e) der = true) ↔
      normalizeFingerprint e = some e ∨
        normalizeFingerprint e ≠ some (sha256FromBytes tls der) := by
  rw [allows_pinned_iff, accepts_pinned_iff tls hbuild]
  constructor
  · intro hagree
    by_cases haccepts : normalizeFingerprint e = some (sha256FromBytes tls der)
    · left
      rw [haccepts, hagree.mpr haccepts]
    · exact .inr haccepts
  · intro hpin
    constructor
    · intro he
      rw [he]
      exact normalizeFingerprint_sha256 tls der
    · intro haccepts
      cases hpin with
      | inl hnormal => exact Option.some.inj (hnormal.symm.trans haccepts)
      | inr hother => exact absurd haccepts hother

end Agreement

/-! ## A pin in capitals -/

/-- Backend functions as they are on the certificate of the three bytes `abc`. -/
def abcBackend : TlsBackend Unit where
  sha256 _ := ⟨#[0xba, 0x78, 0x16, 0xbf, 0x8f, 0x01, 0xcf, 0xea, 0x41, 0x41, 0x40, 0xde, 0x5d, 0xae,
    0x22, 0x23, 0xb0, 0x03, 0x61, 0xa3, 0x96, 0x17, 0x7a, 0x9c, 0xb4, 0x10, 0xff, 0x61, 0xf2, 0x00,
    0x15, 0xad], rfl⟩
  signatureVerifier := .ok ()

def abcPin : String := "BA7816BF8F01CFEA414140DE5DAE2223B00361A396177A9CB410FF61F20015AD"

/-- The policy and the verifier on the pin in lower case, which is in normal form. -/
theorem policy_agrees_abc :
    (TlsTrustPolicy.pinnedFingerprint (sha256FromBytes abcBackend [97, 98, 99])).allows
        (sha256FromBytes abcBackend [97, 98, 99]) = true ↔
      LocalSendClient.accepts abcBackend
        (.pinnedFingerprint (sha256FromBytes abcBackend [97, 98, 99])) [97, 98, 99] = true :=
  (policy_agrees_iff abcBackend ⟨(), rfl⟩ _ _).mpr (.inl (normalizeFingerprint_sha256 abcBackend _))

/-- In capitals, the same pin builds a client that accepts the certificate, and the policy refuses
    it. -/
theorem policy_refuses_capitals :
    ¬ ((TlsTrustPolicy.pinnedFingerprint abcPin).allows (sha256FromBytes abcBackend [97, 98, 99]) = true ↔
      LocalSendClient.accepts abcBackend (.pinnedFingerprint abcPin) [97, 98, 99] = true) := by
  have hnormal : normalizeFingerprint abcPin = some (sha256FromBytes abcBackend [97, 98, 99]) := by
    decide
  have hcapitals : abcPin ≠ sha256FromBytes abcBackend [97, 98, 99] := by decide
  intro hagree
  have haccepted := (accepts_pinned_iff abcBackend ⟨(), rfl⟩ abcPin [97, 98, 99]).mpr hnormal
  exact hcapitals ((allows_pinned_iff abcBackend abcPin [97, 98, 99]).mp (hagree.mpr haccepted))

end LocalSend
