import LocalSend.ForStd.TransitionSystem
import Mathlib.Logic.Function.Basic

/-!
# The TLS identity on disk

`load_or_generate_tls_certificate` (`src/crypto/tls.rs`): a certificate and its key in two files,
read without a lock where they are usable and written under one where they are not. One step of a
call is one operation on the file system, and any of them may fail. Any number of calls, in any
number of processes, may be under way at once.

The two paths name two files, and neither of them is the lock. A temporary file has a name of its
own, so it is kept with the call that made it.
-/

namespace LocalSend

/-! ## Certificates -/

/-- A self-signed certificate and the fingerprint that names it. -/
structure TlsCertificate where
  certPem : String
  keyPem : String
  certDer : List UInt8
  fingerprint : String
deriving DecidableEq, Repr

/-- What is asked of `rustls` and of the hash. -/
structure TlsLibrary where
  /-- `CertificateDer::from_pem_slice`. -/
  certificateDer : String → Option (List UInt8)
  /-- Whether the text is a private key, and a server can be configured with it and the
      certificate. -/
  acceptsKey : List UInt8 → String → Bool
  sha256 : List UInt8 → String

def tlsCertificateFromPem (tls : TlsLibrary) (certPem keyPem : String) : Option TlsCertificate :=
  (tls.certificateDer certPem).map fun certDer => ⟨certPem, keyPem, certDer, tls.sha256 certDer⟩

def isSelfConsistent (tls : TlsLibrary) (certificate : TlsCertificate) : Bool :=
  tls.acceptsKey certificate.certDer certificate.keyPem

/-- The identity that two texts are, if they are one. -/
def usableIdentity (tls : TlsLibrary) (certPem keyPem : String) : Option TlsCertificate :=
  (tlsCertificateFromPem tls certPem keyPem).filter (isSelfConsistent tls)

/-- A certificate as this module makes it: its DER and its fingerprint are those of its PEM. -/
structure TlsIdentity (tls : TlsLibrary) extends TlsCertificate where
  parsed : tlsCertificateFromPem tls certPem keyPem = some toTlsCertificate

/-- The fingerprint of a certificate that is presented as DER. -/
theorem TlsIdentity.sha256_certDer {tls : TlsLibrary} (c : TlsIdentity tls) :
    tls.sha256 c.certDer = c.fingerprint := by
  obtain ⟨der, _, hc⟩ := Option.map_eq_some_iff.mp c.parsed
  rw [← hc]

/-- The fingerprint of a certificate that is presented as PEM. -/
theorem TlsIdentity.sha256_certPem {tls : TlsLibrary} (c : TlsIdentity tls) :
    (tls.certificateDer c.certPem).map tls.sha256 = some c.fingerprint := by
  obtain ⟨der, hder, hc⟩ := Option.map_eq_some_iff.mp c.parsed
  rw [hder, ← hc]
  rfl

/-- A library whose certificates are their keys. -/
def textTls : TlsLibrary where
  certificateDer text := some (text.toList.map fun c => UInt8.ofNat c.toNat)
  acceptsKey der text := der = text.toList.map fun c => UInt8.ofNat c.toNat
  sha256 der := String.ofList (der.map fun b => Char.ofNat b.toNat)

def textIdentity (text : String) : TlsIdentity textTls where
  certPem := text
  keyPem := text
  certDer := text.toList.map fun c => UInt8.ofNat c.toNat
  fingerprint := textTls.sha256 (text.toList.map fun c => UInt8.ofNat c.toNat)
  parsed := rfl

/-! ## Files -/

inductive IdentityFile where
  | certificate
  | privateKey
deriving DecidableEq, Repr

/-- The kind of an `std::io::Error`. -/
inductive IoError where
  | notFound
  | other
deriving DecidableEq, Repr

/-- Names one call. -/
abbrev CallId := Nat

/-- The two files, and the call that has the lock. -/
structure IdentityDisk where
  files : IdentityFile → Option String
  lockedBy : Option CallId

/-- `std::fs::read_to_string`. -/
def readToString (fault : Option IoError) (file : Option String) : Except IoError String :=
  match fault, file with
  | some error, _ => .error error
  | none, none => .error .notFound
  | none, some text => .ok text

/-- A certificate that key generation may return: its texts are an identity, its key is that of no
    certificate which is there already, and its certificate that of no key which is. -/
def TlsLibrary.isFresh (tls : TlsLibrary) (disk : IdentityDisk) (certificate : TlsCertificate) : Bool :=
  usableIdentity tls certificate.certPem certificate.keyPem = some certificate &&
    (disk.files .certificate).all (fun certPem => usableIdentity tls certPem certificate.keyPem = none) &&
    (disk.files .privateKey).all (fun keyPem => usableIdentity tls certificate.certPem keyPem = none)

/-! ## Calls -/

/-- The errors, by their messages. -/
inductive IdentityError where
  | createDirectory
  | openLock
  | lock
  | readFiles
  | readCertificate
  | readPrivateKey
  | generate
  | createTemporary (file : IdentityFile)
  | protectPrivateKey
  | write (file : IdentityFile)
  | publish (file : IdentityFile)
  | writtenConcurrently
deriving DecidableEq, Repr

/-- A file that is removed after an error, whether that succeeds or not. -/
inductive Removal where
  | temporary (file : IdentityFile)
  | certificate
deriving DecidableEq, Repr

/-- The operation that a call is at. -/
inductive IdentityPhase where
  -- load_valid_identity
  | readCertUnlocked
  | readKeyUnlocked (certPem : String)
  -- lock_identity
  | createLockDirectory
  | openLock
  | lock
  | readCert
  | readKey (cert : Except IoError String)
  -- write_new_identity
  | generate
  | createDirectory (certificate : TlsCertificate) (file : IdentityFile)
  | createTemporary (certificate : TlsCertificate) (file : IdentityFile)
  | protectPrivateKey (certificate : TlsCertificate)
  | write (certificate : TlsCertificate) (file : IdentityFile)
  | publish (certificate : TlsCertificate) (file : IdentityFile)
  | remove (first : Removal) (rest : List Removal) (error : IdentityError)
  | readBackCert (certificate : TlsCertificate)
  | readBackKey (certificate : TlsCertificate) (cert : Except IoError String)
  -- the lock is dropped
  | unlock (result : Except IdentityError TlsCertificate)
  | returned (result : Except IdentityError TlsCertificate)

structure IdentityCall where
  phase : IdentityPhase
  temporary : IdentityFile → Option String

namespace IdentityCall

def start : IdentityCall := ⟨.readCertUnlocked, fun _ => none⟩

/-- The next operation of call `id`, on the disk: it succeeds or fails with `fault`. Key generation
    returns `generated`. `none`: the lock is not free, that key is not fresh, or the call has
    returned. -/
def step (tls : TlsLibrary) (id : CallId) (fault : Option IoError) (generated : TlsCertificate)
    (disk : IdentityDisk) (call : IdentityCall) : Option (IdentityDisk × IdentityCall) :=
  let goto (phase : IdentityPhase) : IdentityDisk × IdentityCall := (disk, { call with phase })
  match call.phase with
  | .readCertUnlocked =>
    match readToString fault (disk.files .certificate) with
    | .ok certPem => some (goto (.readKeyUnlocked certPem))
    | .error _ => some (goto .createLockDirectory)
  | .readKeyUnlocked certPem =>
    match readToString fault (disk.files .privateKey) with
    | .ok keyPem =>
      match usableIdentity tls certPem keyPem with
      | some certificate => some (goto (.returned (.ok certificate)))
      | none => some (goto .createLockDirectory)
    | .error _ => some (goto .createLockDirectory)
  | .createLockDirectory =>
    match fault with
    | none => some (goto .openLock)
    | some _ => some (goto (.returned (.error .createDirectory)))
  | .openLock =>
    match fault with
    | none => some (goto .lock)
    | some _ => some (goto (.returned (.error .openLock)))
  | .lock =>
    match fault with
    | none =>
      if disk.lockedBy = none then
        some ({ disk with lockedBy := some id }, { call with phase := .readCert })
      else none
    | some _ => some (goto (.returned (.error .lock)))
  | .readCert => some (goto (.readKey (readToString fault (disk.files .certificate))))
  | .readKey cert =>
    match cert, readToString fault (disk.files .privateKey) with
    | .ok certPem, .ok keyPem =>
      match usableIdentity tls certPem keyPem with
      | some certificate => some (goto (.unlock (.ok certificate)))
      | none => some (goto .generate)
    | .error .notFound, .error .notFound => some (goto .generate)
    | .error _, .error _ => some (goto (.unlock (.error .readFiles)))
    | .error _, .ok _ => some (goto (.unlock (.error .readCertificate)))
    | .ok _, .error _ => some (goto (.unlock (.error .readPrivateKey)))
  | .generate =>
    match fault with
    | none =>
      if tls.isFresh disk generated then some (goto (.createDirectory generated .certificate)) else none
    | some _ => some (goto (.unlock (.error .generate)))
  | .createDirectory certificate file =>
    match fault, file with
    | none, .certificate => some (goto (.createDirectory certificate .privateKey))
    | none, .privateKey => some (goto (.createTemporary certificate .certificate))
    | some _, _ => some (goto (.unlock (.error .createDirectory)))
  | .createTemporary certificate file =>
    match fault, file with
    | none, .certificate =>
      some (disk, ⟨.write certificate .certificate,
        Function.update call.temporary .certificate (some "")⟩)
    | none, .privateKey =>
      some (disk, ⟨.protectPrivateKey certificate,
        Function.update call.temporary .privateKey (some "")⟩)
    | some _, .certificate => some (goto (.unlock (.error (.createTemporary .certificate))))
    | some _, .privateKey =>
      some (goto (.remove (.temporary .certificate) [] (.createTemporary .privateKey)))
  | .protectPrivateKey certificate =>
    match fault with
    | none => some (goto (.write certificate .privateKey))
    | some _ =>
      some (goto (.remove (.temporary .privateKey) [.temporary .certificate] .protectPrivateKey))
  | .write certificate file =>
    match fault, file with
    | none, .certificate =>
      some (disk, ⟨.createTemporary certificate .privateKey,
        Function.update call.temporary .certificate (some certificate.certPem)⟩)
    | none, .privateKey =>
      some (disk, ⟨.publish certificate .certificate,
        Function.update call.temporary .privateKey (some certificate.keyPem)⟩)
    | some _, .certificate =>
      some (goto (.remove (.temporary .certificate) [] (.write .certificate)))
    | some _, .privateKey =>
      some (goto (.remove (.temporary .privateKey) [.temporary .certificate] (.write .privateKey)))
  | .publish certificate file =>
    match fault, call.temporary file, file with
    | none, some text, .certificate =>
      some ({ disk with files := Function.update disk.files .certificate (some text) },
        ⟨.publish certificate .privateKey, Function.update call.temporary .certificate none⟩)
    | none, some text, .privateKey =>
      some ({ disk with files := Function.update disk.files .privateKey (some text) },
        ⟨.readBackCert certificate, Function.update call.temporary .privateKey none⟩)
    -- the staged key stays where it is
    | _, _, .certificate =>
      some (goto (.remove (.temporary .certificate) [] (.publish .certificate)))
    | _, _, .privateKey =>
      some (goto (.remove (.temporary .privateKey) [.certificate] (.publish .privateKey)))
  | .remove first rest error =>
    let next := match rest with
      | [] => .unlock (.error error)
      | second :: rest => .remove second rest error
    match fault, first with
    | none, .temporary file =>
      some (disk, ⟨next, Function.update call.temporary file none⟩)
    | none, .certificate =>
      some ({ disk with files := Function.update disk.files .certificate none },
        { call with phase := next })
    | some _, _ => some (goto next)
  | .readBackCert certificate =>
    some (goto (.readBackKey certificate (readToString fault (disk.files .certificate))))
  | .readBackKey certificate cert =>
    match cert, readToString fault (disk.files .privateKey) with
    | .ok certPem, .ok keyPem =>
      match usableIdentity tls certPem keyPem with
      | some published => some (goto (.unlock (.ok published)))
      | none => some (goto (.unlock (.error .writtenConcurrently)))
    | _, _ => some (goto (.unlock (.ok certificate)))
  | .unlock result =>
    some ({ disk with lockedBy := none }, { call with phase := .returned result })
  | .returned _ => none

end IdentityCall

/-! ## Many calls -/

structure IdentityWorld where
  disk : IdentityDisk
  calls : CallId → IdentityCall

structure IdentityAction where
  call : CallId
  fault : Option IoError
  generated : TlsCertificate

namespace IdentityWorld

/-- No call has begun, and the lock is free. -/
def start (files : IdentityFile → Option String) : IdentityWorld :=
  ⟨⟨files, none⟩, fun _ => .start⟩

def step (tls : TlsLibrary) (w : IdentityWorld) (a : IdentityAction) : Option IdentityWorld :=
  ((w.calls a.call).step tls a.call a.fault a.generated w.disk).map fun (disk, call) =>
    ⟨disk, Function.update w.calls a.call call⟩

end IdentityWorld

/-- `count` calls on the same two paths, none of whose operations fails. -/
def undisturbedCalls (tls : TlsLibrary) (count : Nat) (files : IdentityFile → Option String) :
    TransitionSystem IdentityWorld IdentityAction where
  Init w := w = .start files
  step w a := if a.call < count ∧ a.fault = none then w.step tls a else none

end LocalSend
