import LocalSend.Spec.IdentityConvergence

/-!
# A call that is killed, or one of whose operations fails

One call of `load_or_generate_tls_certificate`, from files that it can handle: both of them or
neither. What it must not leave behind is one of the two, because no later call can do anything with
that. It leaves it behind in two cases: killed between the two renames, where there were no files;
and where there were files, with the second rename failed, after which the new certificate is
removed from beside the old key.

## Key results

- `succeeds_iff`: a later call succeeds exactly on both files or neither
- `AfterFault.pair`: an operation other than the second rename may fail
- `identity_survives`: the two cases are the only ones
-/

namespace LocalSend

variable {tls : TlsLibrary} {files : IdentityFile → Option String} {disk disk' : IdentityDisk}
  {certificate : TlsCertificate} {call call' : IdentityCall} {v w w' : IdentityWorld}
  {as : List IdentityAction}

/-- Both of the files are there, or neither. -/
def Pair (files : IdentityFile → Option String) : Prop :=
  (files .certificate).isSome = (files .privateKey).isSome

/-- A call on these files that nothing disturbs returns an identity. -/
structure Succeeds (tls : TlsLibrary) (files : IdentityFile → Option String) : Prop where
  returns : ∀ as w, (undisturbedCalls tls 1 files).exec (.start files) as = some w →
    (∃ c, (w.calls 0).phase = .returned (.ok c)) ∨ ∃ a w',
    (undisturbedCalls tls 1 files).step w a = some w'
  bounded : ∀ as w, (undisturbedCalls tls 1 files).exec (.start files) as = some w → as.length ≤ 20

/-- The files are not left with one of the two, and a later call succeeds. -/
def Survives (tls : TlsLibrary) (files : IdentityFile → Option String) : Prop :=
  Pair files ∧ Succeeds tls files

/-- A call on `files` may be killed in `w`; its lock is dropped with it. -/
def KilledIn (tls : TlsLibrary) (files : IdentityFile → Option String) (w : IdentityWorld) : Prop :=
  ∃ as, (undisturbedCalls tls 1 files).exec (.start files) as = some w

/-- In a call on `files` the operation that comes in `v` fails, and no other; it has returned an
    error in `w`. -/
def FailedIn (tls : TlsLibrary) (files : IdentityFile → Option String) (v w : IdentityWorld) : Prop :=
  ∃ as fault generated v' bs error,
    (undisturbedCalls tls 1 files).exec (.start files) as = some v ∧
      v.step tls ⟨0, some fault, generated⟩ = some v' ∧
      (undisturbedCalls tls 1 files).exec v' bs = some w ∧
      (w.calls 0).phase = .returned (.error error)

/-! ## A later call -/

/-- With one of the two files, a call returns an error. -/
theorem pair_of_succeeds (h : Succeeds tls files) : Pair files := by
  let act : IdentityAction := ⟨0, none, ⟨"", "", [], ""⟩⟩
  have hstuck : ∀ as w error, (undisturbedCalls tls 1 files).exec (.start files) as = some w →
      (w.calls 0).phase ≠ .returned (.error error) := by
    intro as w error hrun hphase
    rcases h.returns as w hrun with ⟨c, hc⟩ | ⟨a, w', hstep⟩
    · cases hphase.symm.trans hc
    · obtain ⟨hcall, _, hstep⟩ := step_undisturbed hstep
      -- a call that has returned an error does not go on
      have hlt := toGo_lt (world_step hstep).1
      rw [Nat.lt_one_iff.mp hcall, hphase] at hlt
      exact absurd hlt (Nat.not_lt_zero _)
  unfold Pair
  cases hcert : files .certificate with
  | none =>
    cases hkey : files .privateKey with
    | none => rfl
    | some keyPem =>
      have hfiles : files = Function.update (fun _ => some keyPem) .certificate none := by
        funext file
        cases file <;> assumption
      subst hfiles
      -- the lone key is refused by the read under the lock
      exact (hstuck (List.replicate 7 act) _ .readCertificate rfl rfl).elim
  | some certPem =>
    cases hkey : files .privateKey with
    | some => rfl
    | none =>
      have hfiles : files = Function.update (fun _ => some certPem) .privateKey none := by
        funext file
        cases file <;> assumption
      subst hfiles
      -- the lone certificate is refused one read later
      exact (hstuck (List.replicate 8 act) _ .readPrivateKey rfl rfl).elim

/-- A later call succeeds exactly on both of the files or neither. -/
theorem succeeds_iff (hgen : GeneratesFreshKeys tls) : Succeeds tls files ↔ Pair files := by
  constructor
  · exact pair_of_succeeds
  · intro hpair
    constructor
    · intro as w hrun
      rcases returned_or_step hgen hpair hrun with hreturned | hstep
      · obtain ⟨result, hresult⟩ := hreturned 0 Nat.one_pos
        obtain ⟨c, hsame⟩ := same_of_stage (inv_of_run hpair hrun).stage
        exact .inl ⟨c, (hsame 0 result hresult).1 ▸ hresult⟩
      · exact .inr hstep
    · exact fun as w hrun => length_le_of_run hrun

theorem survives_iff (hgen : GeneratesFreshKeys tls) : Survives tls files ↔ Pair files := by
  unfold Survives
  rw [succeeds_iff hgen, and_self]

/-! ## Killed -/

/-- The call that a run of one call is about. -/
theorem eq_zero_of_phase (hrun : (undisturbedCalls tls 1 files).exec (.start files) as = some w)
    {i : CallId} (hphase : (w.calls i).phase ≠ .readCertUnlocked) : i = 0 := by
  by_contra hne
  rw [idle_of_run hrun i (Nat.one_le_iff_ne_zero.mpr hne)] at hphase
  exact hphase rfl

/-- Only between the two renames are the files not as they should be: then the new certificate is
    there, and the key is as it was. -/
theorem pair_iff_of_run (hpair : Pair files)
    (hrun : (undisturbedCalls tls 1 files).exec (.start files) as = some w) :
    (∀ c, (w.calls 0).phase ≠ .publish c .privateKey) ∧ Pair w.disk.files ∨
      ∃ c, (w.calls 0).phase = .publish c .privateKey ∧ w.disk.files = halfPublished files c := by
  -- the stage of the run tells which of the renames have been made
  cases (inv_of_run hpair hrun).stage with
  | searching hnone hfiles hcalls =>
    refine .inl ⟨fun c hphase => ?_, hfiles ▸ hpair⟩
    have hcall := hcalls 0
    unfold Searching at hcall
    rw [hphase] at hcall
    exact hcall
  | publishing c writer _ _ hfiles _ hphase =>
    have hwriter : writer = 0 := eq_zero_of_phase hrun (by rw [hphase]; simp)
    exact .inr ⟨c, hwriter ▸ hphase, hfiles⟩
  | settled c hholds _ hcalls =>
    refine .inl ⟨fun c' hphase => ?_, ?_⟩
    · have hcall := hcalls 0
      rw [hphase] at hcall
      exact hcall
    · unfold Pair
      rw [hholds.cert, hholds.key]
      rfl

/-- The certificate alone is left exactly where there were no files. -/
theorem pair_halfPublished_iff (hpair : Pair files) :
    Pair (halfPublished files certificate) ↔ ¬files .certificate = none := by
  have hkey : Pair (halfPublished files certificate) ↔ (files .privateKey).isSome = true := by
    constructor
    · exact fun h => h.symm
    · exact fun h => h.symm
  rw [hkey, ← hpair]
  cases files .certificate <;> simp

theorem survives_of_killed (hgen : GeneratesFreshKeys tls) (hpair : Pair files)
    (h : KilledIn tls files w) :
    Survives tls w.disk.files ↔
      ¬(files .certificate = none ∧ ∃ c, (w.calls 0).phase = .publish c .privateKey) := by
  obtain ⟨as, hrun⟩ := h
  rw [survives_iff hgen]
  -- outside of the renames the files are a pair, whatever the call had in hand
  rcases pair_iff_of_run hpair hrun with ⟨hphase, hpair'⟩ | ⟨c, hphase, hfiles⟩
  · apply iff_of_true hpair'
    rintro ⟨_, c, hc⟩
    exact hphase c hc
  · rw [hfiles, pair_halfPublished_iff hpair, not_iff_not]
    exact ⟨fun hnone => ⟨hnone, c, hphase⟩, fun h => h.1⟩

/-! ## Failed -/

/-- A call that leaves the two files alone from now on. -/
def Quiet : IdentityPhase → Prop
  | .remove first rest _ => first ≠ .certificate ∧ .certificate ∉ rest
  | .readBackKey .. | .unlock _ | .returned _ => True
  | _ => False

/-- A call one of whose operations has failed, other than the second rename. -/
inductive AfterFault (tls : TlsLibrary) (w : IdentityWorld) : Prop
  /-- It goes on as if nothing had failed. -/
  | goesOn (files : IdentityFile → Option String) :
  Pair files → IdentityInv tls files w → AfterFault tls w
  | reading (error : IoError) : Pair w.disk.files → Locked w → (∀ i, 1 ≤ i → w.calls i = .start) →
      (w.calls 0).phase = .readKey (.error error) → AfterFault tls w
  | quiet : Pair w.disk.files → Quiet (w.calls 0).phase → AfterFault tls w

/-- The files are as they should be wherever the call returns an error. -/
theorem AfterFault.pair (h : AfterFault tls w) {error : IdentityError}
    (hphase : (w.calls 0).phase = .returned (.error error)) : Pair w.disk.files := by
  cases h with
  | goesOn files hpair hinv =>
    -- a call that has gone on as if nothing had failed returns no error
    obtain ⟨c, hsame⟩ := same_of_stage hinv.stage
    cases (hsame 0 _ hphase).1
  | reading _ hpair => exact hpair
  | quiet hpair => exact hpair

theorem quiet_step {id : CallId} {fault : Option IoError} {generated : TlsCertificate}
    (hquiet : Quiet call.phase) (h : call.step tls id fault generated disk = some (disk', call')) :
    disk'.files = disk.files ∧ Quiet call'.phase := by
  obtain ⟨phase, temporary⟩ := call
  cases phase with
  | remove first rest error =>
    obtain ⟨hfirst, hrest⟩ := hquiet
    cases first with
    | certificate => exact (hfirst rfl).elim
    | temporary file =>
      simp only [IdentityCall.step] at h
      -- what is left to remove is temporary
      cases rest with
      | nil => cases fault <;> cases h <;> exact ⟨rfl, trivial⟩
      | cons second rest =>
        simp only [List.mem_cons, not_or] at hrest
        cases fault <;> cases h <;> exact ⟨rfl, Ne.symm hrest.1, hrest.2⟩
  | readBackKey c cert =>
    simp only [IdentityCall.step] at h
    repeat' split at h
    all_goals (cases h; exact ⟨rfl, trivial⟩)
  | unlock result => cases h; exact ⟨rfl, trivial⟩
  | returned => cases h
  | _ => exact hquiet.elim

/-- With neither of the files there, a call that is about to generate an identity. -/
theorem inv_of_generate (hlocked : Locked w) (hidle : ∀ i, 1 ≤ i → w.calls i = .start)
    (hnone : w.disk.files .certificate = none) (hphase : (w.calls 0).phase = .generate) :
    IdentityInv tls w.disk.files w := by
  refine ⟨hlocked, .searching (fun c hc => (by cases hnone.symm.trans hc.cert)) rfl fun i => ?_⟩
  by_cases hi : i = 0
  · unfold Searching
    rw [hi, hphase]
    trivial
  · rw [hidle i (Nat.one_le_iff_ne_zero.mpr hi)]
    trivial

/-- Once the certificate could not be read, the call returns an error, unless there is no key
    either. -/
theorem readKey_step {id : CallId} {fault : Option IoError} {generated : TlsCertificate}
    {error : IoError} (hphase : call.phase = .readKey (.error error))
    (h : call.step tls id fault generated disk = some (disk', call')) :
    disk'.files = disk.files ∧ (Quiet call'.phase ∨
      call'.phase = .generate ∧ readToString fault (disk.files .privateKey) =
        .error .notFound) := by
  obtain ⟨phase, temporary⟩ := call
  obtain rfl : phase = .readKey (.error error) := hphase
  simp only [IdentityCall.step] at h
  cases hkey : readToString fault (disk.files .privateKey) with
  | ok keyPem =>
    rw [hkey] at h
    cases error <;> (cases h; exact ⟨rfl, .inl trivial⟩)
  | error fault =>
    rw [hkey] at h
    -- only two files that are both not there lead on to a new identity
    cases error <;> cases fault <;> cases h
    · exact ⟨rfl, .inr ⟨rfl, rfl⟩⟩
    · exact ⟨rfl, .inl trivial⟩
    · exact ⟨rfl, .inl trivial⟩
    · exact ⟨rfl, .inl trivial⟩

theorem afterFault_step (h : AfterFault tls w) {a : IdentityAction} (hcall : a.call = 0)
    (hfault : a.fault = none) (hstep : w.step tls a = some w') : AfterFault tls w' := by
  cases h with
  | goesOn files hpair hinv => exact .goesOn files hpair (inv_step hpair hinv hfault hstep)
  | quiet hpair hquiet =>
    have hself := (world_step hstep).1
    rw [hcall] at hself
    obtain ⟨hfiles, hquiet'⟩ := quiet_step hquiet hself
    exact .quiet (hfiles ▸ hpair) hquiet'
  | reading error hpair hlocked hidle hphase =>
    obtain ⟨hself, hothers⟩ := world_step hstep
    rw [hcall, hfault] at hself
    obtain ⟨hfiles, hquiet | ⟨hgenerate, hkey⟩⟩ := readKey_step hphase hself
    · exact .quiet (hfiles ▸ hpair) hquiet
    · -- there is no key, so there is no certificate
      have hnone : w.disk.files .certificate = none := by
        cases hkeyFile : w.disk.files .privateKey with
        | some => rw [hkeyFile] at hkey; cases hkey
        | none =>
          unfold Pair at hpair
          rw [hkeyFile] at hpair
          exact Option.not_isSome_iff_eq_none.mp (by rw [hpair]; simp)
      rw [← hfiles] at hnone hpair
      refine .goesOn _ hpair
        (inv_of_generate (locked_step hlocked hstep) (fun i hi => ?_) hnone hgenerate)
      rw [hothers i (by rw [hcall]; exact Nat.one_le_iff_ne_zero.mp hi)]
      exact hidle i hi

/-- A failed operation of a call that is not renaming its key changes neither of the files: the call
    goes on to read under the lock, or cleans up and returns. -/
theorem fault_step {id : CallId} {fault : IoError} {generated : TlsCertificate}
    (hphase : ∀ c, call.phase ≠ .publish c .privateKey)
    (hremove : ∀ first rest error, call.phase ≠ .remove first rest error)
    (h : call.step tls id (some fault) generated disk = some (disk', call')) :
    disk'.files = disk.files ∧ (Quiet call'.phase ∨ call'.phase = .createLockDirectory ∨
      call'.phase = .readKey (.error fault) ∨
      call'.phase = .generate ∧ call.phase = .readKey (.error .notFound)) := by
  obtain ⟨phase, temporary⟩ := call
  -- each operation either gives up the fast path, or is cleaned up after
  cases phase with
  | readCertUnlocked => cases h; exact ⟨rfl, .inr (.inl rfl)⟩
  | readKeyUnlocked certPem => cases h; exact ⟨rfl, .inr (.inl rfl)⟩
  | readCert => cases h; exact ⟨rfl, .inr (.inr (.inl rfl))⟩
  | readKey cert =>
    cases cert with
    | ok certPem => cases h; exact ⟨rfl, .inl trivial⟩
    | error error =>
      cases error <;> cases fault <;> cases h
      · exact ⟨rfl, .inr (.inr (.inr ⟨rfl, rfl⟩))⟩
      · exact ⟨rfl, .inl trivial⟩
      · exact ⟨rfl, .inl trivial⟩
      · exact ⟨rfl, .inl trivial⟩
  | createDirectory c file => cases file <;> (cases h; exact ⟨rfl, .inl trivial⟩)
  | createTemporary c file =>
    cases file with
    | certificate => cases h; exact ⟨rfl, .inl trivial⟩
    | privateKey => cases h; exact ⟨rfl, .inl ⟨by simp, by simp⟩⟩
  | protectPrivateKey c => cases h; exact ⟨rfl, .inl ⟨by simp, by simp⟩⟩
  | write c file =>
    cases file with
    | certificate => cases h; exact ⟨rfl, .inl ⟨by simp, by simp⟩⟩
    | privateKey => cases h; exact ⟨rfl, .inl ⟨by simp, by simp⟩⟩
  | publish c file =>
    cases file with
    | certificate => cases h; exact ⟨rfl, .inl ⟨by simp, by simp⟩⟩
    | privateKey => exact (hphase c rfl).elim
  | remove first rest error => exact (hremove first rest error rfl).elim
  | readBackCert c => cases h; exact ⟨rfl, .inl trivial⟩
  | readBackKey c cert => cases cert <;> (cases h; exact ⟨rfl, .inl trivial⟩)
  | createLockDirectory | openLock | lock | generate | unlock => cases h; exact ⟨rfl, .inl trivial⟩
  | returned => cases h

/-- A call none of whose operations has failed has nothing to remove. -/
theorem phase_ne_remove (h : Stage tls files w) (i : CallId) (first : Removal) (rest : List Removal)
    (error : IdentityError) : (w.calls i).phase ≠ .remove first rest error := by
  intro heq
  cases h with
  | searching _ _ hcalls =>
    have hcall := hcalls i
    unfold Searching at hcall
    rw [heq] at hcall
    exact hcall
  | publishing c writer _ _ _ _ hwriter _ hcalls =>
    by_cases hi : i = writer
    · rw [hi, hwriter] at heq
      simp at heq
    · have hcall := hcalls i hi
      rw [heq] at hcall
      exact hcall
  | settled c _ _ hcalls =>
    have hcall := hcalls i
    rw [heq] at hcall
    exact hcall

/-- A call that failed to read without the lock goes on at the same stage. -/
theorem stage_of_createLockDirectory (h : Stage tls files v)
    (hphase : ∀ c, (v.calls 0).phase ≠ .publish c .privateKey)
    (hzero : ∀ i c, (v.calls i).phase = .publish c .privateKey → i = 0)
    (hfiles : w.disk.files = v.disk.files) (hself : (w.calls 0).phase = .createLockDirectory)
    (hothers : ∀ i, i ≠ 0 → w.calls i = v.calls i) :
    Stage tls files w := by
  cases h with
  | searching hnone hsame hcalls =>
    refine .searching hnone (hfiles.trans hsame) fun i => ?_
    by_cases hi : i = 0
    · unfold Searching
      rw [hi, hself]
      trivial
    · rw [hothers i hi]
      exact hcalls i
  | publishing c writer _ _ _ _ hwriter =>
    have heq := hzero writer c hwriter
    exact (hphase c (heq ▸ hwriter)).elim
  | settled c hholds hkept hcalls =>
    refine .settled c (hfiles ▸ hholds) (fun hheld => hfiles.trans (hkept hheld)) fun i => ?_
    by_cases hi : i = 0
    · rw [hi, hself]
      trivial
    · rw [hothers i hi]
      exact hcalls i

/-- The step in which an operation fails. -/
theorem afterFault_of_fault (hpair : Pair files)
    (hrun : (undisturbedCalls tls 1 files).exec (.start files) as = some v) {fault : IoError}
    {generated : TlsCertificate} (hstep : v.step tls ⟨0, some fault, generated⟩ = some w)
    (hphase : ∀ c, (v.calls 0).phase ≠ .publish c .privateKey) : AfterFault tls w := by
  have hinv := inv_of_run hpair hrun
  have hlocked := locked_step hinv.locked hstep
  obtain ⟨hself, hothers⟩ := world_step hstep
  have hidle : ∀ i, 1 ≤ i → w.calls i = .start := by
    intro i hi
    rw [hothers i (Nat.one_le_iff_ne_zero.mp hi)]
    exact idle_of_run hrun i hi
  have hpair' : Pair v.disk.files := by
    rcases pair_iff_of_run hpair hrun with ⟨_, hpair'⟩ | ⟨c, hpublish, _⟩
    · exact hpair'
    · exact (hphase c hpublish).elim
  obtain ⟨hfiles, hnext⟩ := fault_step hphase (phase_ne_remove hinv.stage 0) hself
  rw [← hfiles] at hpair'
  rcases hnext with hquiet | hlock | hread | ⟨hgenerate, hread⟩
  · exact .quiet hpair' hquiet
  · have hzero : ∀ i c, (v.calls i).phase = .publish c .privateKey → i = 0 :=
      fun i c hpublish => eq_zero_of_phase hrun (by rw [hpublish]; simp)
    exact .goesOn files hpair
      ⟨hlocked, stage_of_createLockDirectory hinv.stage hphase hzero hfiles hlock hothers⟩
  · exact .reading fault hpair' hlocked hidle hread
  · -- the certificate was found missing, and so the key is
    have hnone : w.disk.files .certificate = none := by
      cases hinv.stage with
      | searching _ hsame hcalls =>
        have hcall := hcalls 0
        unfold Searching at hcall
        rw [hread] at hcall
        rw [hfiles, hsame]
        cases hcert : files .certificate with
        | none => rfl
        | some certPem =>
          rw [hcert] at hcall
          cases hcall
      | publishing c writer _ _ _ _ hwriter =>
        have heq : writer = 0 := eq_zero_of_phase hrun (by rw [hwriter]; simp)
        exact (hphase c (heq ▸ hwriter)).elim
      | settled c _ _ hcalls =>
        have hcall := hcalls 0
        rw [hread] at hcall
        cases hcall
    exact .goesOn _ hpair' (inv_of_generate hlocked hidle hnone hgenerate)

/-! ## The second rename has failed -/

/-- The new certificate is removed from beside the old key. -/
inductive RollingBack (key : Option String) (w : IdentityWorld) : Prop
  | first {error : IdentityError} : w.disk.files .privateKey = key →
      (w.calls 0).phase = .remove (.temporary .privateKey) [.certificate] error → RollingBack key w
  | second {error : IdentityError} : w.disk.files .privateKey = key →
      (w.calls 0).phase = .remove .certificate [] error → RollingBack key w
  | done {result : Except IdentityError TlsCertificate} : w.disk.files .privateKey = key →
      w.disk.files .certificate = none →
      (w.calls 0).phase = .unlock result ∨ (w.calls 0).phase = .returned result → RollingBack key w

theorem rollingBack_step {key : Option String} (h : RollingBack key w) {a : IdentityAction}
    (hcall : a.call = 0) (hfault : a.fault = none) (hstep : w.step tls a = some w') :
    RollingBack key w' := by
  have hself := (world_step hstep).1
  rw [hcall, hfault] at hself
  unfold IdentityCall.step at hself
  cases h with
  -- the certificate stays for one more operation, the key is not touched
  | first hkey hphase =>
    rw [hphase] at hself
    simp only [Option.some.injEq, Prod.mk.injEq] at hself
    obtain ⟨hdisk, hcall'⟩ := hself
    exact .second (by rw [← hdisk]; exact hkey) (by rw [← hcall'])
  | second hkey hphase =>
    rw [hphase] at hself
    simp only [Option.some.injEq, Prod.mk.injEq] at hself
    obtain ⟨hdisk, hcall'⟩ := hself
    exact .done (by rw [← hdisk]; exact hkey) (by rw [← hdisk]; rfl) (.inl (by rw [← hcall']))
  | done hkey hnone hphase =>
    -- only the release of the lock is left, and then nothing
    rcases hphase with hphase | hphase
    · rw [hphase] at hself
      simp only [Option.some.injEq, Prod.mk.injEq] at hself
      obtain ⟨hdisk, hcall'⟩ := hself
      exact .done (by rw [← hdisk]; exact hkey) (by rw [← hdisk]; exact hnone)
        (.inr (by rw [← hcall']))
    · rw [hphase] at hself
      simp at hself

theorem survives_of_failed (hgen : GeneratesFreshKeys tls) (hpair : Pair files)
    (h : FailedIn tls files v w) :
    Survives tls w.disk.files ↔
      ¬((files .certificate).isSome ∧ ∃ c, (v.calls 0).phase = .publish c .privateKey) := by
  obtain ⟨as, fault, generated, v', bs, error, hrun, hfault, hrest, hreturned⟩ := h
  have hzero : ∀ {w a w'}, (undisturbedCalls tls 1 files).step w a = some w' →
      a.call = 0 ∧ a.fault = none ∧ w.step tls a = some w' := by
    intro w a w' hstep
    obtain ⟨hcall, hfault, hstep⟩ := step_undisturbed hstep
    exact ⟨Nat.lt_one_iff.mp hcall, hfault, hstep⟩
  rw [survives_iff hgen]
  -- the operation that failed was the second rename, or another one
  by_cases hphase : ∃ c, (v.calls 0).phase = .publish c .privateKey
  · obtain ⟨c, hc⟩ := hphase
    have hkey : v.disk.files .privateKey = files .privateKey := by
      rcases pair_iff_of_run hpair hrun with ⟨hnot, _⟩ | ⟨_, _, hfiles⟩
      · exact (hnot c hc).elim
      · rw [hfiles]
        rfl
    have hself := (world_step hfault).1
    unfold IdentityCall.step at hself
    rw [hc] at hself
    simp only [Option.some.injEq, Prod.mk.injEq] at hself
    obtain ⟨hdisk, hcall⟩ := hself
    -- from here on the call can only undo what it has published
    have hrolling : RollingBack (files .privateKey) v' :=
      .first (by rw [← hdisk]; exact hkey) (by rw [← hcall])
    have hend := TransitionSystem.exec_induction (undisturbedCalls tls 1 files)
      (RollingBack (files .privateKey))
      (fun w a w' h hstep => rollingBack_step h (hzero hstep).1 (hzero hstep).2.1 (hzero hstep).2.2)
      hrolling hrest
    cases hend with
    | first _ hphase => cases hreturned.symm.trans hphase
    | second _ hphase => cases hreturned.symm.trans hphase
    | done hkey' hnone =>
      -- the new certificate is gone and the key is the old one: a pair only if there was none
      -- before
      unfold Pair at hpair ⊢
      rw [hkey', hnone, ← hpair]
      cases files .certificate with
      | none => exact iff_of_true rfl fun h => (by cases h.1)
      | some => exact iff_of_false (by simp) fun h => h ⟨rfl, c, hc⟩
  · apply iff_of_true
    · have hafter := afterFault_of_fault hpair hrun hfault fun c hc => hphase ⟨c, hc⟩
      have hend := TransitionSystem.exec_induction (undisturbedCalls tls 1 files) (AfterFault tls)
        (fun w a w' h hstep => afterFault_step h (hzero hstep).1 (hzero hstep).2.1
          (hzero hstep).2.2)
        hafter hrest
      exact hend.pair hreturned
    · exact fun h => hphase h.2

/-- A call that is killed, or one of whose operations fails, leaves files with which a later call
    succeeds, but in two cases: killed between its two renames, where there were no files; and with
    the second rename failed, where there were. -/
theorem identity_survives (tls : TlsLibrary) (hgen : GeneratesFreshKeys tls)
    (files : IdentityFile → Option String) (hpair : Pair files) :
    (∀ w, KilledIn tls files w → (Survives tls w.disk.files ↔
      ¬(files .certificate = none ∧ ∃ c, (w.calls 0).phase = .publish c .privateKey))) ∧
    ∀ v w, FailedIn tls files v w → (Survives tls w.disk.files ↔
      ¬((files .certificate).isSome ∧ ∃ c, (v.calls 0).phase = .publish c .privateKey)) :=
  ⟨fun _ => survives_of_killed hgen hpair, fun _ _ => survives_of_failed hgen hpair⟩

/-- A certificate beside the key of another one. -/
def mismatched : IdentityFile → Option String
  | .certificate => some "a"
  | .privateKey => some "b"

/-- An operation that nothing disturbs, or the one that fails. -/
def identityAct (fault : Option IoError) : IdentityAction := ⟨0, fault, ⟨"x", "x", [120], "x"⟩⟩

def IdentityPhase.error? : IdentityPhase → Option IdentityError
  | .returned (.error error) => some error
  | _ => none

theorem IdentityPhase.eq_of_error? {phase : IdentityPhase} {error : IdentityError}
    (h : phase.error? = some error) : phase = .returned (.error error) := by
  unfold IdentityPhase.error? at h
  split at h
  · rw [Option.some.inj h]
  · simp at h

/-- With no files at the start the second rename may fail. -/
theorem identity_survives_absent :
    ∃ v w, FailedIn textTls (fun _ => none) v w ∧ Survives textTls w.disk.files := by
  have hends : (((undisturbedCalls textTls 1 fun _ => none).exec (.start fun _ => none)
      (List.replicate 15 (identityAct none))).bind fun v =>
        (v.step textTls (identityAct (some .other))).bind fun v' =>
          ((undisturbedCalls textTls 1 fun _ => none).exec v'
            (List.replicate 3 (identityAct none))).map
            fun w => (w.calls 0).phase.error?) = some (some (.publish .privateKey)) := by
              decide +kernel
  obtain ⟨v, hrun, hends⟩ := Option.bind_eq_some_iff.mp hends
  obtain ⟨v', hfault, hends⟩ := Option.bind_eq_some_iff.mp hends
  obtain ⟨w, hrest, hw⟩ := Option.map_eq_some_iff.mp hends
  have hfailed : FailedIn textTls (fun _ => none) v w :=
    ⟨_, _, _, v', _, _, hrun, hfault, hrest, IdentityPhase.eq_of_error? hw⟩
  refine ⟨v, w, hfailed,
    ((identity_survives textTls generatesFreshKeys_textTls (fun _ => none) rfl).2
    v w hfailed).mpr ?_⟩
  exact fun h => (by cases h.1)

/-- From a pair that does not match, the second rename fails, and the old key is left on its own;
    from no files, a call is killed between its renames, and the new certificate is. -/
theorem identity_bricked :
    (∃ v w, FailedIn textTls mismatched v w ∧ w.disk.files .certificate = none ∧
      w.disk.files .privateKey = some "b" ∧ ¬Survives textTls w.disk.files) ∧
    ∃ w, KilledIn textTls (fun _ => none) w ∧ w.disk.files .certificate = some "x" ∧
      w.disk.files .privateKey = none ∧ ¬Survives textTls w.disk.files := by
  constructor
  · have hends : (((undisturbedCalls textTls 1 mismatched).exec (.start mismatched)
        (List.replicate 16 (identityAct none))).bind fun v =>
          (v.step textTls (identityAct (some .other))).bind fun v' =>
            ((undisturbedCalls textTls 1 mismatched).exec v' (List.replicate 3 (identityAct none))).map
              fun w => ((w.calls 0).phase.error?, w.disk.files .certificate, w.disk.files .privateKey)) =
        some (some (.publish .privateKey), none, some "b") := by decide +kernel
    obtain ⟨v, hrun, hends⟩ := Option.bind_eq_some_iff.mp hends
    obtain ⟨v', hfault, hends⟩ := Option.bind_eq_some_iff.mp hends
    obtain ⟨w, hrest, hw⟩ := Option.map_eq_some_iff.mp hends
    -- the old key without its certificate
    obtain ⟨herror, hcert, hkey⟩ : (w.calls 0).phase.error? = some (.publish .privateKey) ∧
        w.disk.files .certificate = none ∧ w.disk.files .privateKey = some "b" := by simpa using hw
    refine ⟨v, w, ⟨_, _, _, v', _, _, hrun, hfault, hrest, IdentityPhase.eq_of_error? herror⟩,
      hcert, hkey, ?_⟩
    intro h
    have hpair := h.1
    unfold Pair at hpair
    rw [hcert, hkey] at hpair
    simp at hpair
  · have hends : ((undisturbedCalls textTls 1 fun _ => none).exec (.start fun _ => none)
        (List.replicate 15 (identityAct none))).map
          (fun w => (w.disk.files .certificate, w.disk.files .privateKey)) =
            some (some "x", none) := by
      decide +kernel
    obtain ⟨w, hrun, hw⟩ := Option.map_eq_some_iff.mp hends
    -- the new certificate without its key
    obtain ⟨hcert, hkey⟩ : w.disk.files .certificate = some "x" ∧
        w.disk.files .privateKey = none := by
      simpa using hw
    refine ⟨w, ⟨_, hrun⟩, hcert, hkey, ?_⟩
    intro h
    have hpair := h.1
    unfold Pair at hpair
    rw [hcert, hkey] at hpair
    simp at hpair

end LocalSend
