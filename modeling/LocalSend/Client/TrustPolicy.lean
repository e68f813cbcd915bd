import LocalSend.Client.Urls

/-!
# Trust in a certificate

The two places where a pinned fingerprint is compared with a certificate: `TlsTrustPolicy::allows`
(`src/client/trust_policy.rs`) and the `FingerprintVerifier` of the client (`src/client/client.rs`),
with the SHA-256 text of `src/crypto/hash.rs`.
-/

namespace LocalSend

/-! ## Fingerprints -/

/-- `char::is_ascii_hexdigit`. -/
def isAsciiHexdigit (c : Char) : Bool :=
  c.isDigit || ('a' ≤ c && c ≤ 'f') || ('A' ≤ c && c ≤ 'F')

/-- `normalize_fingerprint`: the hexadecimal digits, in lower case, if there are 64. -/
def normalizeFingerprint (fingerprint : String) : Option String :=
  let normalized := (fingerprint.toList.filter isAsciiHexdigit).map Char.toLower
  if normalized.length = 64 then some (String.ofList normalized) else none

/-- `format!("{:x}")` of a digest. -/
def lowerHex (bytes : List UInt8) : String :=
  String.ofList (bytes.flatMap fun b =>
    [Nat.digitChar (b.toNat / 16), Nat.digitChar (b.toNat % 16)])

/-- What is asked of `sha2`, `rcgen` and `rustls`; `V` is a verifier of signatures. -/
structure TlsBackend (V : Type) where
  /-- `Sha256::digest`. -/
  sha256 : List UInt8 → Vector UInt8 32
  /-- The verifier over a certificate that is made for it, and all else that a client is built
      of. -/
  signatureVerifier : Except LocalSendError V

/-- `sha256_from_bytes`. -/
def sha256FromBytes {V : Type} (tls : TlsBackend V) (data : List UInt8) : String :=
  lowerHex (tls.sha256 data).toList

/-! ## The policy -/

/-- Explicit policy for trusting self-signed LocalSend peer certificates. -/
inductive TlsTrustPolicy where
  | pinnedFingerprint (expected : String)
  | insecureForTests
deriving DecidableEq, Repr

namespace TlsTrustPolicy

/-- `TlsTrustPolicy::new`: the first fingerprint that is one. -/
def new (trusted : List String) : TlsTrustPolicy :=
  .pinnedFingerprint ((trusted.findSome? normalizeFingerprint).getD "")

def allows (policy : TlsTrustPolicy) (fingerprint : String) : Bool :=
  match policy with
  | .insecureForTests => true
  | .pinnedFingerprint expected =>
    (normalizeFingerprint fingerprint).any fun actual => actual = expected

end TlsTrustPolicy

/-! ## The client -/

structure FingerprintVerifier (V : Type) where
  expectedFingerprint : String
  signatureVerifier : V

namespace FingerprintVerifier

variable {V : Type}

/-- `FingerprintVerifier::new`. -/
def new (tls : TlsBackend V) (expectedFingerprint : String) :
    Except LocalSendError (FingerprintVerifier V) := do
  match normalizeFingerprint expectedFingerprint with
  | none => .error (.network "Invalid LocalSend TLS fingerprint")
  | some expectedFingerprint =>
    let signatureVerifier ← tls.signatureVerifier
    return ⟨expectedFingerprint, signatureVerifier⟩

/-- `verify_server_cert`, with the text of its error. -/
def verifyServerCert (tls : TlsBackend V) (verifier : FingerprintVerifier V)
    (endEntity : List UInt8) :
    Except String Unit :=
  if (normalizeFingerprint (sha256FromBytes tls endEntity)).any fun actual =>
      actual = verifier.expectedFingerprint then .ok ()
  else .error "LocalSend TLS certificate fingerprint mismatch"

end FingerprintVerifier

/-- Whether `with_trust_policy` builds a client that accepts a certificate. -/
def LocalSendClient.accepts {V : Type} (tls : TlsBackend V) (policy : TlsTrustPolicy)
    (endEntity : List UInt8) : Bool :=
  match policy with
  | .insecureForTests => true
  | .pinnedFingerprint fingerprint =>
    match FingerprintVerifier.new tls fingerprint with
    | .ok verifier => (verifier.verifyServerCert tls endEntity).isOk
    | .error _ => false

end LocalSend
