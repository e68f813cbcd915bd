import LocalSend.Crypto.Tls
import Mathlib.Algebra.Order.BigOperators.Group.List
import Mathlib.Algebra.Order.Ring.Nat

/-!
# Concurrent starts converge on one identity

Any number of calls on the same two paths, none of whose operations fails. The calls that read
without the lock may see the two halves of the pair at different times, and a new certificate is
published before its key. But whoever reads a mixed pair rejects it, and all who write do it under
the lock: so the first of them writes, and all others return what it has written.

## Key results

- `Stage`: what the files and the calls come to, before, during and after the one publication
- `inv_step`, `inv_of_run`: every interleaving keeps it
- `identity_convergence`: every call returns the identity that is on the disk
-/

namespace LocalSend

variable {tls : TlsLibrary} {files : IdentityFile → Option String} {disk disk' : IdentityDisk}
  {certificate : TlsCertificate} {call call' : IdentityCall} {w w' : IdentityWorld}

/-! ## Usable pairs -/

/-- An identity is made of the texts that it was read from. -/
theorem usableIdentity_pem {certPem keyPem : String}
    (h : usableIdentity tls certPem keyPem = some certificate) :
    certificate.certPem = certPem ∧ certificate.keyPem = keyPem := by
  obtain ⟨hparse, _⟩ := Option.filter_eq_some_iff.mp h
  obtain ⟨der, _, rfl⟩ := Option.map_eq_some_iff.mp hparse
  exact ⟨rfl, rfl⟩

/-- The files hold this identity, and it is usable. -/
structure Holds (tls : TlsLibrary) (files : IdentityFile → Option String)
    (certificate : TlsCertificate) :
    Prop where
  cert : files .certificate = some certificate.certPem
  key : files .privateKey = some certificate.keyPem
  usable : usableIdentity tls certificate.certPem certificate.keyPem = some certificate

/-- A new identity, and what it has to do with the files that are there. -/
structure Fresh (tls : TlsLibrary) (files : IdentityFile → Option String)
    (certificate : TlsCertificate) :
    Prop where
  usable : usableIdentity tls certificate.certPem certificate.keyPem = some certificate
  cert : ∀ certPem, files .certificate = some certPem →
    usableIdentity tls certPem certificate.keyPem = none
  key : ∀ keyPem, files .privateKey = some keyPem →
    usableIdentity tls certificate.certPem keyPem = none

/-- What the test of a fresh identity tests. -/
theorem isFresh_iff : tls.isFresh disk certificate = true ↔ Fresh tls disk.files certificate := by
  simp only [TlsLibrary.isFresh, Bool.and_eq_true, decide_eq_true_eq, Option.all_eq_true]
  constructor
  · rintro ⟨⟨husable, hcert⟩, hkey⟩
    exact ⟨husable, hcert, hkey⟩
  · intro h
    exact ⟨⟨h.usable, h.cert⟩, h.key⟩

/-! ## The lock -/

/-- Between taking the lock and dropping it. -/
def IdentityPhase.inSection : IdentityPhase → Bool
  | .readCertUnlocked | .readKeyUnlocked _ | .createLockDirectory | .openLock | .lock
  | .returned _ => false
  | _ => true

/-- What a step does to the lock. -/
inductive LockStep (id : CallId) (disk disk' : IdentityDisk) (call call' : IdentityCall) : Prop
  | take : disk.lockedBy = none → disk'.lockedBy = some id → call'.phase.inSection = true →
      LockStep id disk disk' call call'
  | drop : call.phase.inSection = true → disk'.lockedBy = none → call'.phase.inSection = false →
      LockStep id disk disk' call call'
  | keep : disk'.lockedBy = disk.lockedBy → call'.phase.inSection = call.phase.inSection →
      LockStep id disk disk' call call'

/-- What each step of a call does to the lock. -/
theorem lockStep_of_step {id : CallId} {fault : Option IoError} {generated : TlsCertificate}
    (h : call.step tls id fault generated disk = some (disk', call')) :
    LockStep id disk disk' call call' := by
  obtain ⟨phase, temporary⟩ := call
  cases phase with
  | lock =>
    cases fault with
    | some => cases h; exact .keep rfl rfl
    | none =>
      simp only [IdentityCall.step] at h
      split at h
      · rename_i hfree
        cases h
        exact .take hfree rfl rfl
      · simp at h
  | unlock result => cases h; exact .drop rfl rfl rfl
  | returned => cases h
  | remove first rest error =>
    simp only [IdentityCall.step] at h
    cases rest <;> (split at h <;> cases h <;> exact .keep rfl rfl)
  | _ =>
    simp only [IdentityCall.step] at h
    -- every other operation is on one side of the section, and leaves the lock alone
    repeat' split at h
    all_goals first | (cases h; exact .keep rfl rfl) | simp at h

/-- The call that has the lock is the one that is between taking and dropping it. -/
def Locked (w : IdentityWorld) : Prop :=
  ∀ i, (w.calls i).phase.inSection = true ↔ w.disk.lockedBy = some i

/-- A step of the world is one of the call that it names. -/
theorem world_step {a : IdentityAction} (h : w.step tls a = some w') :
    (w.calls a.call).step tls a.call a.fault a.generated w.disk =
        some (w'.disk, w'.calls a.call) ∧
      ∀ i, i ≠ a.call → w'.calls i = w.calls i := by
  obtain ⟨⟨disk, call⟩, hstep, rfl⟩ := Option.map_eq_some_iff.mp h
  refine ⟨?_, fun i hi => Function.update_of_ne hi ..⟩
  dsimp only
  rw [hstep, Function.update_self]

/-- Every step keeps the lock with the one call that is in its section. -/
theorem locked_step {a : IdentityAction} (hlocked : Locked w) (h : w.step tls a = some w') :
    Locked w' := by
  obtain ⟨hcall, hothers⟩ := world_step h
  intro i
  by_cases hi : i = a.call
  · subst hi
    have hself := hlocked a.call
    cases lockStep_of_step hcall with
    | take _ hby hin => exact iff_of_true hin hby
    | drop _ hby hin => rw [hby, hin]; exact iff_of_false (by simp) (by simp)
    | keep hby hin => rw [hby, hin]; exact hself
  · have hother := hlocked i
    rw [hothers i hi]
    cases lockStep_of_step hcall with
    | take hfree hby _ =>
      rw [hby]
      -- the lock was free, so no other call was in the section
      rw [hfree] at hother
      apply iff_of_false
      · intro hin
        cases hother.mp hin
      · intro heq
        exact hi (Option.some.inj heq).symm
    | drop hin hby _ =>
      rw [hby]
      apply iff_of_false
      · intro hin'
        -- two calls would have had the lock at once
        exact hi (Option.some.inj ((hother.mp hin').symm.trans ((hlocked a.call).mp hin)))
      · simp
    | keep hby _ => rw [hby]; exact hother

/-! ## Stages -/

/-- Outside of the section, with a certificate text that may have been read there. -/
def Outside (read : String → Prop) : IdentityPhase → Prop
  | .readCertUnlocked | .createLockDirectory | .openLock | .lock => True
  | .readKeyUnlocked certPem => read certPem
  | _ => False

/-- Where a call may be while the files are as they were at the start. -/
def Searching (tls : TlsLibrary) (files : IdentityFile → Option String) (call : IdentityCall) : Prop :=
  match call.phase with
  | .readCert | .generate => True
  | .readKey cert => cert = readToString none (files .certificate)
  | .createDirectory c _ | .createTemporary c .certificate
  | .write c .certificate => Fresh tls files c
  | .createTemporary c .privateKey | .protectPrivateKey c | .write c .privateKey =>
    Fresh tls files c ∧ call.temporary .certificate = some c.certPem
  | .publish c .certificate =>
    Fresh tls files c ∧ call.temporary .certificate = some c.certPem ∧
      call.temporary .privateKey = some c.keyPem
  | phase => Outside (fun certPem => files .certificate = some certPem) phase

/-- Where a call may be once the files hold the identity. -/
def Settled (tls : TlsLibrary) (certificate : TlsCertificate) : IdentityPhase → Prop
  | .readCert | .readBackCert _ => True
  | .readKey cert | .readBackKey _ cert => cert = .ok certificate.certPem
  | .unlock result | .returned result => result = .ok certificate
  | phase => Outside (fun certPem => ∀ found,
      usableIdentity tls certPem certificate.keyPem = some found → found = certificate) phase

/-- The files, after the certificate was published and before its key is. -/
abbrev halfPublished (files : IdentityFile → Option String) (certificate : TlsCertificate) :
    IdentityFile → Option String :=
  Function.update files .certificate (some certificate.certPem)

/-- The calls on the files `files`. -/
inductive Stage (tls : TlsLibrary) (files : IdentityFile → Option String) (w : IdentityWorld) : Prop
  /-- There is no usable identity yet, and nothing has been published. -/
  | searching : (∀ c, ¬Holds tls files c) → w.disk.files = files →
      (∀ i, Searching tls files (w.calls i)) → Stage tls files w
  /-- The one publication is half done. -/
  | publishing (c : TlsCertificate) (writer : CallId) :
  (∀ c, ¬Holds tls files c) → Fresh tls files c →
      w.disk.files = halfPublished files c → w.disk.lockedBy = some writer →
      (w.calls writer).phase = .publish c .privateKey →
      (w.calls writer).temporary .privateKey = some c.keyPem →
      (∀ i, i ≠ writer →
        Outside (fun certPem => files .certificate = some certPem ∨ certPem = c.certPem)
        (w.calls i).phase) → Stage tls files w
  /-- The files hold an identity; if they did at the start, it is the same. -/
  | settled (c : TlsCertificate) : Holds tls w.disk.files c →
      ((∃ c, Holds tls files c) → w.disk.files = files) →
      (∀ i, Settled tls c (w.calls i).phase) → Stage tls files w

/-- What holds in every interleaving. -/
structure IdentityInv (tls : TlsLibrary) (files : IdentityFile → Option String)
    (w : IdentityWorld) : Prop where
  locked : Locked w
  stage : Stage tls files w

/-- A call outside of the section stays outside when nothing fails, takes the lock, or returns what
    it has read. -/
theorem outside_step {read : String → Prop} {id : CallId} {generated : TlsCertificate}
    (hphase : Outside read call.phase)
    (h : call.step tls id none generated disk = some (disk', call')) :
    disk'.files = disk.files ∧
      (Outside (fun certPem => disk.files .certificate = some certPem) call'.phase ∨
        call'.phase = .readCert ∧ disk.lockedBy = none ∨
        ∃ certPem keyPem c, read certPem ∧ disk.files .privateKey = some keyPem ∧
          usableIdentity tls certPem keyPem = some c ∧ call'.phase = .returned (.ok c)) := by
  obtain ⟨phase, temporary⟩ := call
  -- two reads without the lock, then the way to the lock
  cases phase with
  | readCertUnlocked =>
    simp only [IdentityCall.step] at h
    cases hcert : disk.files .certificate with
    | none => rw [hcert] at h; cases h; exact ⟨rfl, .inl trivial⟩
    | some certPem => rw [hcert] at h; cases h; exact ⟨rfl, .inl rfl⟩
  | readKeyUnlocked certPem =>
    simp only [IdentityCall.step] at h
    cases hkey : disk.files .privateKey with
    | none => rw [hkey] at h; cases h; exact ⟨rfl, .inl trivial⟩
    | some keyPem =>
      rw [hkey] at h
      simp only [readToString] at h
      -- the pair that was read is returned if it is usable, or else the lock is taken
      split at h
      · rename_i c hc
        cases h
        exact ⟨rfl, .inr (.inr ⟨certPem, keyPem, c, hphase, rfl, hc, rfl⟩)⟩
      · cases h
        exact ⟨rfl, .inl trivial⟩
  | createLockDirectory | openLock => cases h; exact ⟨rfl, .inl trivial⟩
  | lock =>
    simp only [IdentityCall.step] at h
    split at h
    · rename_i hfree
      cases h
      exact ⟨rfl, .inr (.inl ⟨rfl, hfree⟩)⟩
    · simp at h
  | _ => exact hphase.elim

/-- A pair that was read is not usable while the files hold no identity. -/
theorem usableIdentity_eq_none (hnone : ∀ c, ¬Holds tls files c) {certPem keyPem : String}
    (hcert : files .certificate = some certPem) (hkey : files .privateKey = some keyPem) :
    usableIdentity tls certPem keyPem = none := by
  cases h : usableIdentity tls certPem keyPem with
  | none => rfl
  | some c =>
    obtain ⟨rfl, rfl⟩ := usableIdentity_pem h
    exact (hnone c ⟨hcert, hkey, h⟩).elim

/-- While nothing has been published, what a call reads outside of the section is of no use. -/
theorem searching_of_outside {id : CallId} {generated : TlsCertificate}
    (hnone : ∀ c, ¬Holds tls files c) (hfiles : disk.files = files)
    (hphase : Outside (fun certPem => files .certificate = some certPem) call.phase)
    (h : call.step tls id none generated disk = some (disk', call')) :
    disk'.files = files ∧ Searching tls files call' := by
  obtain ⟨hsame, hnext⟩ := outside_step hphase h
  refine ⟨hsame.trans hfiles, ?_⟩
  rcases hnext with hnext | ⟨hnext, _⟩ | ⟨certPem, keyPem, c, hread, hkey, husable, _⟩
  · rw [hfiles] at hnext
    -- it goes on to read outside, or takes the lock
    unfold Searching
    cases hphase' : call'.phase <;> rw [hphase'] at hnext <;> first | exact hnext | exact hnext.elim
  · unfold Searching
    rw [hnext]
    trivial
  · -- the two texts it has read would be a usable pair
    rw [hfiles] at hkey
    cases (usableIdentity_eq_none hnone hread hkey).symm.trans husable

/-- In the section, a call that has read the files as they were goes on to a new identity. -/
theorem generate_of_readKey {id : CallId} {generated : TlsCertificate}
    (hnone : ∀ c, ¬Holds tls files c)
    (hpair : (files .certificate).isSome = (files .privateKey).isSome) (hfiles : disk.files = files)
    (hphase : call.phase = .readKey (readToString none (files .certificate)))
    (h : call.step tls id none generated disk = some (disk', call')) :
    disk'.files = files ∧ call'.phase = .generate := by
  simp only [IdentityCall.step, hphase, hfiles] at h
  -- one file without the other is an error, but they come in pairs
  cases hcertFile : files .certificate with
  | none =>
    cases hkeyFile : files .privateKey with
    | none =>
      rw [hcertFile, hkeyFile] at h
      cases h
      exact ⟨hfiles, rfl⟩
    | some =>
      rw [hcertFile, hkeyFile] at hpair
      simp at hpair
  | some certPem =>
    cases hkeyFile : files .privateKey with
    | none =>
      rw [hcertFile, hkeyFile] at hpair
      simp at hpair
    | some keyPem =>
      rw [hcertFile, hkeyFile] at h
      simp only [readToString, usableIdentity_eq_none hnone hcertFile hkeyFile] at h
      cases h
      exact ⟨hfiles, rfl⟩

/-- While nothing has been published, a call goes on searching, or publishes its certificate. -/
theorem searching_step {id : CallId} {generated : TlsCertificate} (hnone : ∀ c, ¬Holds tls files c)
    (hpair : (files .certificate).isSome = (files .privateKey).isSome) (hfiles : disk.files = files)
    (hphase : Searching tls files call)
    (h : call.step tls id none generated disk = some (disk', call')) :
    disk'.files = files ∧ Searching tls files call' ∨
      ∃ c, call.phase = .publish c .certificate ∧ Fresh tls files c ∧
        disk'.files = halfPublished files c ∧ call'.phase = .publish c .privateKey ∧
        call'.temporary .privateKey = some c.keyPem := by
  obtain ⟨phase, temporary⟩ := call
  cases phase with
  | readCertUnlocked | readKeyUnlocked | createLockDirectory | openLock | lock =>
    refine .inl (searching_of_outside hnone hfiles ?_ h)
    exact hphase
  | readCert =>
    cases h
    exact .inl ⟨hfiles, by rw [hfiles]; exact rfl⟩
  | readKey cert =>
    obtain rfl : cert = readToString none (files .certificate) := hphase
    have hgenerate := generate_of_readKey hnone hpair hfiles rfl h
    refine .inl ⟨hgenerate.1, ?_⟩
    unfold Searching
    rw [hgenerate.2]
    trivial
  | generate =>
    simp only [IdentityCall.step] at h
    split at h
    · rename_i hfresh
      cases h
      rw [isFresh_iff, hfiles] at hfresh
      exact .inl ⟨hfiles, hfresh⟩
    · simp at h
  | createDirectory c file => cases file <;> (cases h; exact .inl ⟨hfiles, hphase⟩)
  | createTemporary c file =>
    cases file with
    | certificate => cases h; exact .inl ⟨hfiles, hphase⟩
    | privateKey => cases h; exact .inl ⟨hfiles, hphase⟩
  | protectPrivateKey c => cases h; exact .inl ⟨hfiles, hphase⟩
  | write c file =>
    cases file with
    | certificate => cases h; exact .inl ⟨hfiles, hphase, rfl⟩
    | privateKey => cases h; exact .inl ⟨hfiles, hphase.1, hphase.2, rfl⟩
  | publish c file =>
    cases file with
    | privateKey => exact hphase.elim
    | certificate =>
      -- the first rename: the other call states end here
      obtain ⟨hfresh, hcert, hkey⟩ := hphase
      simp only [IdentityCall.step] at h hcert
      rw [hcert] at h
      cases h
      refine .inr ⟨c, rfl, hfresh, ?_, rfl, ?_⟩
      · rw [hfiles]
      · exact hkey
  | remove | readBackCert | readBackKey | unlock | returned => exact hphase.elim

/-- Once the files hold the identity, a call leaves them alone and can return nothing else. -/
theorem settled_step {id : CallId} {generated : TlsCertificate}
    (hholds : Holds tls disk.files certificate) (hphase : Settled tls certificate call.phase)
    (h : call.step tls id none generated disk = some (disk', call')) :
    disk'.files = disk.files ∧ Settled tls certificate call'.phase := by
  obtain ⟨phase, temporary⟩ := call
  have houtside : Outside (fun certPem => ∀ found,
      usableIdentity tls certPem certificate.keyPem = some found → found = certificate) phase →
      disk'.files = disk.files ∧ Settled tls certificate call'.phase := by
    intro houtside
    obtain ⟨hsame, hnext⟩ := outside_step houtside h
    refine ⟨hsame, ?_⟩
    -- a call outside may have read the certificate, take the lock, or return
    rcases hnext with hnext | ⟨hnext, _⟩ | ⟨certPem, keyPem, c, hread, hkey, husable, hnext⟩
    · cases hphase' : call'.phase <;> rw [hphase'] at hnext <;> first | exact hnext.elim | trivial | skip
      rename_i certPem
      intro found hfound
      -- the certificate that was read is the one on the disk
      obtain rfl : certificate.certPem = certPem := Option.some.inj (hholds.cert.symm.trans hnext)
      exact Option.some.inj (hfound.symm.trans hholds.usable)
    · rw [hnext]
      trivial
    · rw [hnext]
      obtain rfl : certificate.keyPem = keyPem := Option.some.inj (hholds.key.symm.trans hkey)
      exact congrArg _ (hread c husable)
  cases phase with
  | readCertUnlocked | readKeyUnlocked | createLockDirectory | openLock
  | lock => exact houtside hphase
  | readCert =>
    cases h
    refine ⟨rfl, ?_⟩
    show readToString none (disk.files .certificate) = _
    rw [hholds.cert]
    rfl
  | readBackCert =>
    cases h
    refine ⟨rfl, ?_⟩
    show readToString none (disk.files .certificate) = _
    rw [hholds.cert]
    rfl
  | readKey cert =>
    obtain rfl : cert = .ok certificate.certPem := hphase
    simp only [IdentityCall.step, hholds.key, readToString, hholds.usable] at h
    cases h
    exact ⟨rfl, rfl⟩
  | readBackKey c cert =>
    obtain rfl : cert = .ok certificate.certPem := hphase
    simp only [IdentityCall.step, hholds.key, readToString, hholds.usable] at h
    cases h
    exact ⟨rfl, rfl⟩
  | unlock result => cases h; exact ⟨rfl, hphase⟩
  | returned => cases h
  | generate | createDirectory | createTemporary | protectPrivateKey | write | publish | remove =>
    exact hphase.elim

/-- A call that is not in the section is outside of it while nothing has been published. -/
theorem outside_of_searching (hphase : Searching tls files call)
    (hout : call.phase.inSection = false) :
    Outside (fun certPem => files .certificate = some certPem) call.phase := by
  obtain ⟨phase, temporary⟩ := call
  cases phase <;> first | exact hphase | cases hout

/-- A call outside the section, for anything weaker that it may have read. -/
theorem Outside.mono {read read' : String → Prop} {phase : IdentityPhase} (h : Outside read phase)
    (hread : ∀ certPem, read certPem → read' certPem) : Outside read' phase := by
  cases phase with
  | readKeyUnlocked certPem => exact hread certPem h
  | _ => exact h

/-- A call outside is settled if all that it can have read is the identity, or unusable. -/
theorem settled_of_outside {phase : IdentityPhase} (h : Outside (fun certPem => ∀ found,
    usableIdentity tls certPem certificate.keyPem = some found → found = certificate) phase) :
    Settled tls certificate phase := by
  cases phase <;> first | exact h | exact h.elim

/-- A certificate with its key published. -/
theorem Fresh.holds {c : TlsCertificate} (h : Fresh tls files c) :
    Holds tls (Function.update (halfPublished files c) .privateKey (some c.keyPem)) c where
  cert := rfl
  key := rfl
  usable := h.usable

/-- The second rename. -/
theorem publishKey_step {id : CallId} {generated : TlsCertificate} {c : TlsCertificate}
    (hphase : call.phase = .publish c .privateKey)
    (hkey : call.temporary .privateKey = some c.keyPem)
    (h : call.step tls id none generated disk = some (disk', call')) :
    disk'.files = Function.update disk.files .privateKey (some c.keyPem) ∧
      call'.phase = .readBackCert c := by
  unfold IdentityCall.step at h
  rw [hphase] at h
  simp only [hkey] at h
  cases h
  exact ⟨rfl, rfl⟩

/-- A step in which nothing fails keeps the stage or goes on to the next. -/
theorem stage_step (hpair : (files .certificate).isSome = (files .privateKey).isSome)
    (hlocked : Locked w) (hstage : Stage tls files w) {a : IdentityAction} (hfault : a.fault = none)
    (h : w.step tls a = some w') : Stage tls files w' := by
  obtain ⟨hcall, hothers⟩ := world_step h
  rw [hfault] at hcall
  -- one case per stage; only its writer leads from one to the next
  cases hstage with
  | searching hnone hfiles hcalls =>
    rcases searching_step hnone hpair hfiles (hcalls a.call) hcall with
      ⟨hfiles', hphase'⟩ | ⟨c, hphase, hfresh, hfiles', hphase', hkey⟩
    · apply Stage.searching hnone hfiles'
      intro i
      by_cases hi : i = a.call
      · exact hi ▸ hphase'
      · exact hothers i hi ▸ hcalls i
    · -- the others are outside, because this call is in the section
      have hin : (w.calls a.call).phase.inSection = true := by rw [hphase]; rfl
      have hby := (hlocked a.call).mp hin
      have hlocked' := locked_step hlocked h
      -- the lock stays with the writer: nobody else can take or drop it
      have hby' := (hlocked' a.call).mp (by rw [hphase']; rfl)
      apply Stage.publishing c a.call hnone hfresh hfiles' hby' hphase' hkey
      intro i hi
      have hout : (w.calls i).phase.inSection = false := by
        rw [Bool.eq_false_iff]
        intro hin'
        exact hi (Option.some.inj (((hlocked i).mp hin').symm.trans hby))
      rw [hothers i hi]
      exact (outside_of_searching (hcalls i) hout).mono fun certPem => .inl
  | publishing c writer hnone hfresh hfiles hby hphase hkey hcalls =>
    by_cases hwriter : a.call = writer
    · subst hwriter
      have hnext := publishKey_step hphase hkey hcall
      -- the writer's second rename completes the identity
      apply Stage.settled c
      · rw [hnext.1, hfiles]
        exact hfresh.holds
      · rintro ⟨c', hc'⟩
        exact (hnone c' hc').elim
      · intro i
        by_cases hi : i = a.call
        · rw [hi, hnext.2]
          trivial
        · rw [hothers i hi]
          apply settled_of_outside
          apply (hcalls i hi).mono
          intro certPem hread found hfound
          rcases hread with hread | rfl
          · cases (hfresh.cert certPem hread).symm.trans hfound
          · exact Option.some.inj (hfound.symm.trans hfresh.usable)
    · obtain ⟨hsame, hnext⟩ := outside_step (hcalls a.call hwriter) hcall
      have hkeyFile : w.disk.files .privateKey = files .privateKey := by rw [hfiles]; rfl
      have hcertFile : w.disk.files .certificate = some c.certPem := by rw [hfiles]; rfl
      -- another call may read the new certificate, but never with a key that fits the old one
      have hphase' : Outside (fun certPem => files .certificate = some certPem ∨
          certPem = c.certPem)
          (w'.calls a.call).phase := by
        rcases hnext with hnext | ⟨_, hfree⟩ | ⟨certPem, keyPem, found, hread, hkeyPem, husable, _⟩
        · exact hnext.mono fun certPem hread => .inr (Option.some.inj (hread.symm.trans hcertFile))
        · cases hfree.symm.trans hby
        · rw [hkeyFile] at hkeyPem
          rcases hread with hread | rfl
          · cases (usableIdentity_eq_none hnone hread hkeyPem).symm.trans husable
          · cases (hfresh.key keyPem hkeyPem).symm.trans husable
      have hby' : w'.disk.lockedBy = some writer := by
        cases lockStep_of_step hcall with
        | take hfree => cases hfree.symm.trans hby
        | drop hin => exact absurd (Option.some.inj
            (((hlocked a.call).mp hin).symm.trans hby)) hwriter
        | keep hby' => exact hby'.trans hby
      apply Stage.publishing c writer hnone hfresh (hsame.trans hfiles) hby'
      · rw [hothers writer (Ne.symm hwriter)]
        exact hphase
      · rw [hothers writer (Ne.symm hwriter)]
        exact hkey
      · intro i hi
        by_cases hcallid : i = a.call
        · exact hcallid ▸ hphase'
        · exact hothers i hcallid ▸ hcalls i hi
  | settled c hholds hkept hcalls =>
    obtain ⟨hsame, hphase'⟩ := settled_step hholds (hcalls a.call) hcall
    apply Stage.settled c
    · rw [hsame]
      exact hholds
    · intro hheld
      exact hsame.trans (hkept hheld)
    · intro i
      by_cases hi : i = a.call
      · exact hi ▸ hphase'
      · exact hothers i hi ▸ hcalls i

/-- Every step without a failure keeps the invariant. -/
theorem inv_step (hpair : (files .certificate).isSome = (files .privateKey).isSome)
    (hinv : IdentityInv tls files w) {a : IdentityAction} (hfault : a.fault = none)
    (h : w.step tls a = some w') : IdentityInv tls files w' :=
  ⟨locked_step hinv.locked h, stage_step hpair hinv.locked hinv.stage hfault h⟩

/-- At the start, all calls are before their first step. -/
theorem inv_start (tls : TlsLibrary) (files : IdentityFile → Option String) :
    IdentityInv tls files (.start files) where
  locked i := iff_of_false nofun nofun
  stage := by
    -- a usable pair at the start is settled already
    by_cases hheld : ∃ c, Holds tls files c
    · obtain ⟨c, hc⟩ := hheld
      exact .settled c hc (fun _ => rfl) fun _ => trivial
    · exact .searching (fun c hc => hheld ⟨c, hc⟩) rfl fun _ => trivial

/-! ## Runs -/

variable {count : Nat} {as : List IdentityAction}

/-- An undisturbed step is a step that does not fail, of one of the calls. -/
theorem step_undisturbed {a : IdentityAction}
    (h : (undisturbedCalls tls count files).step w a = some w') :
    a.call < count ∧ a.fault = none ∧ w.step tls a = some w' := by
  simp only [undisturbedCalls] at h
  split at h
  · rename_i hact
    exact ⟨hact.1, hact.2, h⟩
  · simp at h

/-- The invariant of every undisturbed run. -/
theorem inv_of_run (hpair : (files .certificate).isSome = (files .privateKey).isSome)
    (hrun : (undisturbedCalls tls count files).exec (.start files) as = some w) :
    IdentityInv tls files w := by
  apply TransitionSystem.exec_induction (undisturbedCalls tls count files)
    (IdentityInv tls files) ?_
    (inv_start tls files) hrun
  intro w a w' hinv hstep
  obtain ⟨_, hfault, hstep⟩ := step_undisturbed hstep
  exact inv_step hpair hinv hfault hstep

/-- Calls that are not among the `count` do not begin. -/
theorem idle_of_run (hrun : (undisturbedCalls tls count files).exec (.start files) as = some w) :
    ∀ i, count ≤ i → w.calls i = .start := by
  apply TransitionSystem.exec_induction (undisturbedCalls tls count files)
    (fun w => ∀ i, count ≤ i → w.calls i = .start) ?_ (fun _ _ => rfl) hrun
  intro w a w' hidle hstep i hi
  obtain ⟨hcall, _, hstep⟩ := step_undisturbed hstep
  rw [(world_step hstep).2 i (Nat.ne_of_gt (Nat.lt_of_lt_of_le hcall hi))]
  exact hidle i hi

/-! ## Every interleaving comes to an end -/

/-- How many operations a call has to go, at most. -/
def IdentityPhase.toGo : IdentityPhase → Nat
  | .readCertUnlocked => 20
  | .readKeyUnlocked _ => 19
  | .createLockDirectory => 18
  | .openLock => 17
  | .lock => 16
  | .readCert => 15
  | .readKey _ => 14
  | .generate => 13
  | .createDirectory _ .certificate => 12
  | .createDirectory _ .privateKey => 11
  | .createTemporary _ .certificate => 10
  | .write _ .certificate => 9
  | .createTemporary _ .privateKey => 8
  | .protectPrivateKey _ => 7
  | .write _ .privateKey => 6
  | .publish _ .certificate => 5
  | .publish _ .privateKey => 4
  | .remove _ rest _ => rest.length + 2
  | .readBackCert _ => 3
  | .readBackKey .. => 2
  | .unlock _ => 1
  | .returned _ => 0

/-- Every operation is one less to go, whether it succeeds or fails. -/
theorem toGo_lt {id : CallId} {fault : Option IoError} {generated : TlsCertificate}
    (h : call.step tls id fault generated disk = some (disk', call')) :
    call'.phase.toGo < call.phase.toGo := by
  obtain ⟨phase, temporary⟩ := call
  cases phase with
  | remove first rest error =>
    simp only [IdentityCall.step] at h
    -- a removal is one fewer in the list of those to come
    cases rest <;> (split at h <;> cases h <;> simp [IdentityPhase.toGo])
  | createDirectory c file | createTemporary c file | write c file =>
    cases file <;> cases fault <;> cases h <;> simp [IdentityPhase.toGo]
  | publish c file =>
    cases file <;>
      (simp only [IdentityCall.step] at h
       split at h <;> first | contradiction | (cases h; simp [IdentityPhase.toGo]))
  | returned => cases h
  | _ =>
    simp only [IdentityCall.step] at h
    repeat' split at h
    all_goals first | (cases h; simp [IdentityPhase.toGo]) | simp at h

/-- How many operations all the calls have to go. -/
def remainingSteps (count : Nat) (w : IdentityWorld) : Nat :=
  ((List.range count).map fun i => (w.calls i).phase.toGo).sum

/-- Every step leaves less to do. -/
theorem remainingSteps_lt {a : IdentityAction} (hcall : a.call < count)
    (h : w.step tls a = some w') :
    remainingSteps count w' < remainingSteps count w := by
  obtain ⟨hstep, hothers⟩ := world_step h
  have hlt := toGo_lt hstep
  apply List.sum_lt_sum
  · intro i _
    by_cases hi : i = a.call
    · rw [hi]
      exact Nat.le_of_lt hlt
    · rw [hothers i hi]
  · exact ⟨a.call, List.mem_range.mpr hcall, hlt⟩

/-- No interleaving is longer than the operations of its calls. -/
theorem length_le_of_run (hrun : (undisturbedCalls tls count files).exec (.start files) as = some w) :
    as.length ≤ 20 * count := by
  -- induction on the run: each step uses up one of the remaining operations
  have hbound : ∀ (as : List IdentityAction) (v : IdentityWorld),
      (undisturbedCalls tls count files).exec v as = some w →
        as.length ≤ remainingSteps count v := by
    intro as
    induction as with
    | nil => exact fun _ _ => Nat.zero_le _
    | cons a as ih =>
      intro v hrun
      obtain ⟨v', hstep, hrun⟩ := Option.bind_eq_some_iff.mp hrun
      obtain ⟨hcall, _, hstep⟩ := step_undisturbed hstep
      have hle := ih v' hrun
      have hlt := remainingSteps_lt hcall hstep
      rw [List.length_cons]
      omega
  have hstart : remainingSteps count (.start files) = 20 * count := by
    simp [remainingSteps, IdentityWorld.start, IdentityCall.start, IdentityPhase.toGo,
      List.map_const', Nat.mul_comm]
  exact hstart ▸ hbound as _ hrun

/-- Key generation always finds a key that is not there yet. -/
def GeneratesFreshKeys (tls : TlsLibrary) : Prop :=
  ∀ disk, ∃ certificate, tls.isFresh disk certificate = true

/-- A call that has not returned can go on, unless it waits for the lock. -/
theorem exists_step (hgen : GeneratesFreshKeys tls) (id : CallId)
    (hreturned : ∀ result, call.phase ≠ .returned result)
    (hlock : call.phase = .lock → disk.lockedBy = none) :
    ∃ generated next, call.step tls id none generated disk = some next := by
  obtain ⟨generated, hfresh⟩ := hgen disk
  refine ⟨generated, ?_⟩
  apply Option.isSome_iff_exists.mp
  obtain ⟨phase, temporary⟩ := call
  cases phase with
  | returned result => exact (hreturned result rfl).elim
  | lock =>
    have hfree : disk.lockedBy = none := hlock rfl
    simp [IdentityCall.step, hfree]
  | generate => simp [IdentityCall.step, hfresh]
  | remove first rest error => cases first <;> rfl
  | createDirectory c file | createTemporary c file | write c file => cases file <;> rfl
  | publish c file => cases file <;> (simp only [IdentityCall.step]; split <;> rfl)
  | readCertUnlocked => simp only [IdentityCall.step]; split <;> rfl
  | readKeyUnlocked | readKey | readBackKey =>
    simp only [IdentityCall.step]
    -- whatever is read, there is a next phase
    repeat' split
    all_goals rfl
  | _ => rfl

/-- As long as not all of them have returned, one of the calls can go on. -/
theorem returned_or_step (hgen : GeneratesFreshKeys tls)
    (hpair : (files .certificate).isSome = (files .privateKey).isSome)
    (hrun : (undisturbedCalls tls count files).exec (.start files) as = some w) :
    (∀ i < count, ∃ result, (w.calls i).phase = .returned result) ∨
      ∃ a w', (undisturbedCalls tls count files).step w a = some w' := by
  -- a call that can go on by itself is a step of the world
  have hgoes : ∀ i < count, (∀ result, (w.calls i).phase ≠ .returned result) →
      ((w.calls i).phase = .lock → w.disk.lockedBy = none) →
      ∃ a w', (undisturbedCalls tls count files).step w a = some w' := by
    intro i hi hreturned hlock
    obtain ⟨generated, next, hstep⟩ := exists_step hgen i hreturned hlock
    have hworld : w.step tls ⟨i, none, generated⟩ =
        some ⟨next.1, Function.update w.calls i next.2⟩ := by
      unfold IdentityWorld.step
      rw [hstep]
      rfl
    exact ⟨⟨i, none, generated⟩, _, (if_pos ⟨hi, rfl⟩).trans hworld⟩
  by_cases hall : ∀ i < count, ∃ result, (w.calls i).phase = .returned result
  · exact .inl hall
  · right
    simp only [not_forall, not_exists] at hall
    obtain ⟨i, hi, hreturned⟩ := hall
    have hlocked := (inv_of_run hpair hrun).locked
    cases hby : w.disk.lockedBy with
    | none => exact hgoes i hi hreturned fun _ => hby
    | some holder =>
      -- the call that has the lock is not waiting for it
      have hin := (hlocked holder).mpr hby
      have hholder : holder < count := by
        by_contra hge
        rw [idle_of_run hrun holder (Nat.not_lt.mp hge)] at hin
        cases hin
      apply hgoes holder hholder
      · intro result heq
        rw [heq] at hin
        cases hin
      · intro heq
        rw [heq] at hin
        cases hin

/-! ## Convergence -/

/-- What the calls of an interleaving have come to. -/
structure Converged (tls : TlsLibrary) (count : Nat) (files : IdentityFile → Option String)
    (as : List IdentityAction) (w : IdentityWorld) : Prop where
  /-- All that have returned have returned the one identity, which is on the disk. -/
  same : ∃ c, ∀ i result, (w.calls i).phase = .returned result →
    result = .ok c ∧ Holds tls w.disk.files c
  /-- An identity that was there at the start is there as it was. -/
  kept : (∃ c, Holds tls files c) → w.disk.files = files
  /-- The interleaving does not go on for ever, and not all calls wait. -/
  bounded : as.length ≤ 20 * count
  progress : (∀ i < count, ∃ result, (w.calls i).phase = .returned result) ∨
    ∃ a w', (undisturbedCalls tls count files).step w a = some w'

/-- In every stage, all that have returned agree on what the files hold. -/
theorem same_of_stage (h : Stage tls files w) : ∃ c, ∀ i result,
    (w.calls i).phase = .returned result → result = .ok c ∧ Holds tls w.disk.files c := by
  cases h with
  | searching _ _ hcalls =>
    refine ⟨⟨"", "", [], ""⟩, fun i result hreturned => ?_⟩
    have hphase := hcalls i
    unfold Searching at hphase
    rw [hreturned] at hphase
    exact hphase.elim
  | publishing c writer _ _ _ _ hwriter _ hcalls =>
    refine ⟨c, fun i result hreturned => ?_⟩
    by_cases hi : i = writer
    · rw [hi, hwriter] at hreturned
      simp at hreturned
    · have hphase := hcalls i hi
      rw [hreturned] at hphase
      exact hphase.elim
  | settled c hholds _ hcalls =>
    refine ⟨c, fun i result hreturned => ?_⟩
    have hphase := hcalls i
    rw [hreturned] at hphase
    exact ⟨hphase, hholds⟩

/-- In every stage, files that held an identity are kept. -/
theorem kept_of_stage (h : Stage tls files w) (hheld : ∃ c, Holds tls files c) :
    w.disk.files = files := by
  obtain ⟨c, hc⟩ := hheld
  cases h with
  | searching hnone => exact (hnone c hc).elim
  | publishing _ _ hnone => exact (hnone c hc).elim
  | settled _ _ hkept _ => exact hkept ⟨c, hc⟩

/-- However many calls on the same two paths are interleaved, starting from no files, a usable pair
    or any other pair: all of them return, and what they return is the identity on the disk. -/
theorem identity_convergence (tls : TlsLibrary) (hgen : GeneratesFreshKeys tls) (count : Nat)
    (files : IdentityFile → Option String)
    (hpair : (files .certificate).isSome = (files .privateKey).isSome) (as : List IdentityAction)
    (w : IdentityWorld)
    (hrun : (undisturbedCalls tls count files).exec (.start files) as = some w) :
    Converged tls count files as w where
  same := same_of_stage (inv_of_run hpair hrun).stage
  kept := kept_of_stage (inv_of_run hpair hrun).stage
  bounded := length_le_of_run hrun
  progress := returned_or_step hgen hpair hrun

/-! ## Two starts -/

/-- No identity has texts of different lengths here. -/
theorem usableIdentity_textTls_eq_none {certPem keyPem : String}
    (h : certPem.toList.length ≠ keyPem.toList.length) :
    usableIdentity textTls certPem keyPem = none := by
  have hne : (certPem.toList.map fun c => UInt8.ofNat c.toNat) ≠
      keyPem.toList.map fun c => UInt8.ofNat c.toNat := by
    intro heq
    have hlength := congrArg List.length heq
    rw [List.length_map, List.length_map] at hlength
    exact h hlength
  simp [usableIdentity, tlsCertificateFromPem, textTls, isSelfConsistent, Option.filter, hne]

/-- This library can always generate another key. -/
theorem generatesFreshKeys_textTls : GeneratesFreshKeys textTls := by
  intro disk
  -- a text longer than both files
  let length (file : IdentityFile) := ((disk.files file).getD "").toList.length
  let text := String.ofList (List.replicate (length .certificate + length .privateKey + 1) 'x')
  have htext : text.toList.length = length .certificate + length .privateKey + 1 := by simp [text]
  let der := text.toList.map fun c => UInt8.ofNat c.toNat
  refine ⟨⟨text, text, der, textTls.sha256 der⟩, isFresh_iff.mpr ⟨?_, ?_, ?_⟩⟩
  · simp [usableIdentity, tlsCertificateFromPem, textTls, isSelfConsistent, Option.filter, der]
  · -- the certificate on the disk is shorter than the new key
    intro certPem hcert
    have hlength : length .certificate = certPem.toList.length := by
      simp only [length, hcert, Option.getD_some]
    apply usableIdentity_textTls_eq_none
    show certPem.toList.length ≠ text.toList.length
    omega
  · intro keyPem hkey
    have hlength : length .privateKey = keyPem.toList.length := by
      simp only [length, hkey, Option.getD_some]
    apply usableIdentity_textTls_eq_none
    show text.toList.length ≠ keyPem.toList.length
    omega

def IdentityPhase.hasReturned : IdentityPhase → Bool
  | .returned _ => true
  | _ => false

/-- A call that has returned has a result. -/
theorem IdentityPhase.exists_of_hasReturned {phase : IdentityPhase} (h : phase.hasReturned = true) :
    ∃ result, phase = .returned result := by
  cases phase <;> first | exact ⟨_, rfl⟩ | exact nomatch h

/-- A first start that writes the identity, and a second that begins before it and ends after it. -/
theorem identity_convergence_two :
    ∃ as w c, (undisturbedCalls textTls 2 fun _ => none).exec (.start fun _ => none) as = some w ∧
      (w.calls 0).phase = .returned (.ok c) ∧ (w.calls 1).phase = .returned (.ok c) ∧
      Holds textTls w.disk.files c := by
  let act (call : CallId) : IdentityAction := ⟨call, none, ⟨"x", "x", [120], "x"⟩⟩
  let as := act 1 :: List.replicate 19 (act 0) ++ List.replicate 6 (act 1)
  -- the second call begins first, and ends when the first one has returned
  have hends : ((undisturbedCalls textTls 2 fun _ => none).exec (.start fun _ => none) as).map
      (fun w => (w.calls 0).phase.hasReturned && (w.calls 1).phase.hasReturned) = some true := by
    decide +kernel
  obtain ⟨w, hrun, hreturned⟩ := Option.map_eq_some_iff.mp hends
  rw [Bool.and_eq_true] at hreturned
  obtain ⟨first, hfirst⟩ := IdentityPhase.exists_of_hasReturned hreturned.1
  obtain ⟨second, hsecond⟩ := IdentityPhase.exists_of_hasReturned hreturned.2
  obtain ⟨c, hsame⟩ :=
    (identity_convergence textTls generatesFreshKeys_textTls 2 _ rfl as w hrun).same
  obtain ⟨rfl, hholds⟩ := hsame 0 first hfirst
  obtain ⟨rfl, _⟩ := hsame 1 second hsecond
  exact ⟨as, w, c, hrun, hfirst, hsecond, hholds⟩

end LocalSend
