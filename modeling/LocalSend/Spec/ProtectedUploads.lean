import LocalSend.Spec.LinearOwner

/-!
# The record of the running protected upload

The slot of the protected session is emptied when a body starts, and what is left of it is
one optional record: the session id and the cancellation token of the upload. `/cancel` and
`stop` reach a running upload through it. The next matching upload writes it over, and
nothing but the upload's own last lock section takes it back.

## Key results

- `active_of_step`, `running_of_step`: what a step does to the record and to the uploads
- `cancellable_iff`: when every running upload stays cancellable
- `disconnect_iff`: which disconnects leave an owner or a record behind
-/

namespace LocalSend

namespace ProtectedWorld

/-! ## What a step does to the record -/

/-- What has been told to an owner stays told. -/
theorem owners_mono {p p' : ProtectedWorld} {a : ProtectedAction} (hstep : p.Step a p')
    {o : Observation} (ho : o ∈ p.world.protection.owners) : o ∈ p'.world.protection.owners := by
  cases hstep with
  -- what is told to an owner is added at the end
  | receiver move same =>
    generalize p'.world.protection = q at move ⊢
    cases move with
    | keep => exact ho
    | cancelled | signalled => exact List.mem_append_left _ ho
    | stopped => exact List.mem_append_left _ (List.mem_append_left _ ho)
  | begin_ =>
    unfold beginPrepare
    split <;> exact ho
  | preflight =>
    unfold preflight
    repeat' split
    all_goals exact ho
  | @gateAnswered h t owner => cases owner <;> exact ho
  | @install h t s =>
    show o ∈ (p.world.installCrosscopy s).protection.owners
    rw [World.protection_installCrosscopy]
    split
    · exact List.mem_append_left _ ho
    · exact ho
  -- only a wrong lease tells the owner of the session
  | @beginUpload u x f tok fresh =>
    show o ∈ (p.world.beginUpload u x f tok).protection.owners
    rcases p.beginUpload_cases u x f tok with
      ⟨_, hw⟩ | ⟨s, _, _, ⟨_, _, hw⟩ | ⟨_, _, _, hw⟩⟩ <;> rw [hw]
    · exact ho
    · exact List.mem_append_left _ ho
    · exact ho
  | @finish u t result =>
    show o ∈ (p.world.finishCrosscopy t.session.sessionId).protection.owners
    rw [World.protection_finishCrosscopy]
    split <;> exact ho
  -- the events of an upload tell no owner
  | announce _ _ _ sent | close _ _ _ sent | dropUpload _ _ _ sent | awaitRoom _ _ sent =>
    show o ∈ Protection.owners _
    rw [sent]
    exact ho
  | _ => exact ho

/-- Upload `u` presents the installed session `s`. -/
def Matches (p : ProtectedWorld) (a : ProtectedAction) (u : TaskId)
    (s : CrossCopyAuthorizedSession) : Prop :=
  p.world.protection.session = some s ∧ a = .begin_ u s.sessionId s.fileId s.uploadToken

/-- The record after a step is the one before, or that of the upload that just began. -/
theorem active_of_step {p p' : ProtectedWorld} {a : ProtectedAction} (hstep : p.Step a p')
    {r : CrossCopyAuthorizedActiveUpload} (hr : p'.world.protection.activeUpload = some r) :
    (p.world.protection.activeUpload = some r ∧ ∀ u s, ¬p.Matches a u s) ∨
      ∃ u s, p.Matches a u s ∧ r = ⟨s.sessionId, s.owner⟩ ∧
        p'.uploads u = some ⟨s, false, .receiving⟩ := by
  -- only a lease that matches the session writes the record
  have hother : ∀ {b : ProtectedAction}, (∀ u x f tok, b ≠ .begin_ u x f tok) →
      ∀ u s, ¬p.Matches b u s := fun hb u s h => hb _ _ _ _ h.2
  cases hstep with
  | receiver move same =>
    refine .inl ⟨?_, hother (by simp)⟩
    exact (move_shrinks move).2.1 r hr
  | begin_ =>
    refine .inl ⟨?_, hother (by simp)⟩
    unfold beginPrepare at hr
    split at hr <;> exact hr
  | preflight =>
    refine .inl ⟨?_, hother (by simp)⟩
    unfold preflight at hr
    repeat' split at hr
    all_goals exact hr
  | @gateAnswered h t owner =>
    refine .inl ⟨?_, hother (by simp)⟩
    cases owner <;> exact hr
  | @install h t s =>
    refine .inl ⟨?_, hother (by simp)⟩
    have hr : (p.world.installCrosscopy s).protection.activeUpload = some r := hr
    rw [World.protection_installCrosscopy] at hr
    split at hr <;> exact hr
  | @beginUpload u x f tok fresh =>
    have hr : (p.world.beginUpload u x f tok).protection.activeUpload = some r := hr
    rw [World.protection_beginUpload] at hr
    have hnot : (∀ s, p.world.protection.session = some s → s.sessionId = x →
        s.fileId ≠ f ∨ s.uploadToken ≠ tok) → ∀ v s, ¬p.Matches (.begin_ u x f tok) v s := by
      rintro hwrong v s ⟨hs, ha⟩
      cases ha
      simpa using hwrong s hs rfl
    -- the session that the lease asks for
    cases hs : p.world.state.crosscopyAuthorizedSession.filter fun s => s.sessionId = x with
    | none =>
      rw [hs] at hr
      refine .inl ⟨hr, hnot fun s hsession hid => ?_⟩
      simp only [Option.filter_eq_none_iff, decide_eq_true_eq] at hs
      exact absurd hid (hs s hsession)
    | some s =>
      rw [hs] at hr
      obtain ⟨hsession, hid⟩ := Option.filter_eq_some_iff.mp hs
      have hid : s.sessionId = x := by simpa using hid
      by_cases hwrong : s.fileId ≠ f ∨ s.uploadToken ≠ tok
      · simp only [if_pos hwrong] at hr
        refine .inl ⟨hr, hnot fun s' hs' _ => ?_⟩
        cases hs'.symm.trans hsession
        exact hwrong
      -- the right file and token: the record now names this upload
      · simp only [if_neg hwrong, Option.some.injEq] at hr
        obtain ⟨hf, htok⟩ := not_or.mp hwrong
        have hf := Classical.not_not.mp hf
        have htok := Classical.not_not.mp htok
        refine .inr ⟨u, s, ⟨hsession, by rw [hid, hf, htok]⟩, hr.symm, ?_⟩
        simp [ProtectedWorld.beginUpload, hs, hf, htok, setUpload]
  -- finishing clears the record, if it is its own
  | @finish u t result =>
    refine .inl ⟨?_, hother (by simp)⟩
    have hr : (p.world.finishCrosscopy t.session.sessionId).protection.activeUpload = some r := hr
    rw [World.protection_finishCrosscopy] at hr
    split at hr
    · simp at hr
    · exact hr
  | announce _ _ _ sent | close _ _ _ sent | dropUpload _ _ _ sent | awaitRoom _ _ sent =>
    exact .inl ⟨(congrArg Protection.activeUpload sent).symm.trans hr, hother (by simp)⟩
  | _ => exact .inl ⟨hr, hother (by simp)⟩

/-- The upload that presents the session is on record when its body starts. -/
theorem begun_of_matches {p p' : ProtectedWorld} {a : ProtectedAction} (hstep : p.Step a p')
    {u : TaskId} {s : CrossCopyAuthorizedSession} (h : p.Matches a u s) :
    p.uploads u = none ∧ p'.uploads = Function.update p.uploads u (some ⟨s, false, .receiving⟩) ∧
      p'.world.protection.activeUpload = some ⟨s.sessionId, s.owner⟩ ∧
      p'.world.protection.owners = p.world.protection.owners := by
  obtain ⟨hs, rfl⟩ := h
  cases hstep with
  | beginUpload fresh =>
    refine ⟨fresh, ?_⟩
    rcases p.beginUpload_cases u s.sessionId s.fileId s.uploadToken with
      ⟨_, hw⟩ | ⟨s', hs', _, ⟨hwrong, _⟩ | ⟨_, _, hp, hw⟩⟩
    -- the session is the one that is asked for, so it has been taken
    · rw [World.protection_beginUpload] at hw
      have hfilter : (p.world.state.crosscopyAuthorizedSession.filter fun r =>
          r.sessionId = s.sessionId) = some s := Option.filter_eq_some_iff.mpr ⟨hs, by simp⟩
      simp only [hfilter, ne_eq, not_true_eq_false, or_self, if_false] at hw
      cases (congrArg Protection.session hw).trans hs
    · cases hs'.symm.trans hs
      simp at hwrong
    · cases hs'.symm.trans hs
      rw [hp]
      exact ⟨rfl, (congrArg Protection.activeUpload hw :), (congrArg Protection.owners hw :)⟩

/-- What a step can make of an upload. -/
inductive UploadMoved (p : ProtectedWorld) (a : ProtectedAction) (u : TaskId) :
    ProtectedUpload → Prop
  | kept {t} (ht : p.uploads u = some t) : UploadMoved p a u t
  | moved {t t'} (ht : p.uploads u = some t) (session : t'.session = t.session)
    (live : t'.dropped = false) (phase : t'.phase ≠ .receiving) : UploadMoved p a u t'
  | dropped {t} (ha : a = .upload u .drop) (ht : p.uploads u = some t) :
    UploadMoved p a u { t with dropped := true }
  | begun {t} (hs : p.world.protection.session = some t.session) (live : t.dropped = false)
    (hmatch : t.phase = .receiving → p.Matches a u t.session) : UploadMoved p a u t

/-- Every step keeps an upload, moves it on, drops it or begins it. -/
theorem uploadMoved_of_step {p p' : ProtectedWorld} {a : ProtectedAction} (hstep : p.Step a p')
    {u : TaskId} {t' : ProtectedUpload} (ht' : p'.uploads u = some t') : p.UploadMoved a u t' := by
  -- the section writes the task of its own upload
  have hset : ∀ {v t}, (p.setUpload v t).uploads u = some t' →
      (u = v ∧ t' = t) ∨ p.uploads u = some t' := by
    intro v t h
    by_cases hv : u = v
    · subst hv
      simp only [setUpload, Function.update_self, Option.some.injEq] at h
      exact .inl ⟨rfl, h.symm⟩
    · simp only [setUpload, Function.update_of_ne hv] at h
      exact .inr h
  cases hstep with
  | receiver move same => exact .kept (same.uploads ▸ ht')
  | begin_ =>
    unfold beginPrepare at ht'
    split at ht' <;> exact .kept ht'
  | preflight =>
    unfold preflight at ht'
    repeat' split at ht'
    all_goals exact .kept ht'
  | @gateAnswered h t owner => cases owner <;> exact .kept ht'
  | askGate | install | prepareCancelled | dropPrepare => exact .kept ht'
  -- a wrong lease makes a task that is cancelled at once
  | @beginUpload v x f tok fresh =>
    have ht' : (p.beginUpload v x f tok).uploads u = some t' := ht'
    rcases p.beginUpload_cases v x f tok with
      ⟨hp, _⟩ | ⟨s, hs, hx, ⟨_, hp, _⟩ | ⟨hf, htok, hp, _⟩⟩ <;> rw [hp] at ht'
    · exact .kept ht'
    · rcases hset ht' with ⟨rfl, rfl⟩ | hkept
      · exact .begun hs rfl fun h => (by cases h)
      · exact .kept hkept
    · rcases hset ht' with ⟨rfl, rfl⟩ | hkept
      · subst hx hf htok
        exact .begun hs rfl fun _ => ⟨hs, rfl⟩
      · exact .kept hkept
  | uploadCancelled ht live | received ht live | announce ht live | close ht live =>
    rcases hset ht' with ⟨rfl, rfl⟩ | hkept
    · exact .moved ht rfl live (by simp)
    · exact .kept hkept
  -- what the source returns decides whether the upload is recorded
  | @finish v t result ht live phase =>
    rcases hset ht' with ⟨rfl, rfl⟩ | hkept
    · refine .moved ht rfl live ?_
      cases result <;> simp
    · exact .kept hkept
  | dropUpload ht live awaits =>
    rcases hset ht' with ⟨rfl, rfl⟩ | hkept
    · exact .dropped rfl ht
    · exact .kept hkept
  | awaitRoom ht =>
    rcases hset ht' with ⟨rfl, rfl⟩ | hkept
    · exact .kept ht
    · exact .kept hkept

/-- Upload `u` is in its `receive` future. -/
def Running (p : ProtectedWorld) (u : TaskId) (t : ProtectedUpload) : Prop :=
  p.uploads u = some t ∧ t.dropped = false ∧ t.phase = .receiving

/-- The cancellation token of `o` has been fired. -/
def Signalled (p : ProtectedWorld) (o : OwnerId) : Prop :=
  .ownerSignalled o ∈ p.world.protection.owners

/-- A running upload was running before the step, or has just presented the session. -/
theorem running_of_step {p p' : ProtectedWorld} {a : ProtectedAction} (hstep : p.Step a p')
    {u : TaskId} {t : ProtectedUpload} (h : p'.Running u t) :
    p.Running u t ∨ p.Matches a u t.session := by
  obtain ⟨ht, hlive, hphase⟩ := h
  cases uploadMoved_of_step hstep ht with
  | kept ht => exact .inl ⟨ht, hlive, hphase⟩
  | moved _ _ _ hother => exact absurd hphase hother
  | dropped => simp at hlive
  | begun _ _ hmatch => exact .inr (hmatch hphase)

/-- The record of a running upload stays until the upload is signalled, or another begins. -/
theorem record_of_step {p p' : ProtectedWorld} {a : ProtectedAction} (hlinked : p.Linked)
    (hstep : p.Step a p') {u : TaskId} {t : ProtectedUpload} (h : p.Running u t)
    (hr : p.world.protection.activeUpload = some ⟨t.session.sessionId, t.session.owner⟩) :
    p'.world.protection.activeUpload = some ⟨t.session.sessionId, t.session.owner⟩ ∨
      p'.Signalled t.session.owner ∨ ∃ v s, p.Matches a v s := by
  cases hstep with
  | receiver move same =>
    unfold Signalled
    generalize p'.world.protection = q at move ⊢
    cases move with
    -- cancelling the session or signalling leaves the record
    | keep | cancelled | signalled => exact .inl hr
    | stopped => exact .inr (.inl (by simp [Protection.stop, hr]))
  | begin_ =>
    unfold beginPrepare
    split <;> exact .inl hr
  | preflight =>
    unfold preflight
    repeat' split
    all_goals exact .inl hr
  | @gateAnswered h t owner => cases owner <;> exact .inl hr
  | @install h t' s =>
    refine .inl ?_
    show (p.world.installCrosscopy s).protection.activeUpload = _
    rw [World.protection_installCrosscopy]
    split <;> exact hr
  -- a lease that matches takes the record over
  | @beginUpload v x f tok fresh =>
    rcases p.beginUpload_cases v x f tok with
      ⟨_, hw⟩ | ⟨s, hs, hx, ⟨_, _, hw⟩ | ⟨hf, htok, _, _⟩⟩
    · exact .inl ((congrArg Protection.activeUpload hw).trans hr)
    · exact .inl ((congrArg Protection.activeUpload hw).trans hr)
    · subst hx hf htok
      exact .inr (.inr ⟨v, s, hs, rfl⟩)
  | @finish v t' result ht' live phase =>
    refine .inl ?_
    show (p.world.finishCrosscopy t'.session.sessionId).protection.activeUpload = _
    rw [World.protection_finishCrosscopy, if_neg, hr]
    -- another upload has returned: ids tell the sessions apart
    intro hsame
    have hid : t.session.sessionId = t'.session.sessionId := by simpa [hr] using hsame
    have hsession := hlinked.session_eq (hlinked.uploads u t h.1).1 (hlinked.uploads v t' ht').1 hid
    have huv := hlinked.ownSession u v t t' h.1 ht' hsession
    subst huv
    cases ht'.symm.trans h.1
    cases h.2.2.symm.trans phase
  | announce _ _ _ sent | close _ _ _ sent | dropUpload _ _ _ sent | awaitRoom _ _ sent =>
    exact .inl ((congrArg Protection.activeUpload sent).trans hr)
  | _ => exact .inl hr

/-! ## Cancelling a running upload -/

/-- A request that may reach the upload of session `x`: `stop`, or a `/cancel` naming `x`
    from a peer that is not turned away. -/
def Entry (p : ProtectedWorld) (x : SessionId) (a : Action) : Prop :=
  a = .stop ∨ ∃ peer, a = .cancel peer (some x) ∧ ¬p.world.Blocks peer

/-- The action fires the cancellation token of `o`. -/
def Signals (sha : List UInt8 → String) (p : ProtectedWorld) (a : Action) (o : OwnerId) : Prop :=
  ∃ w', p.world.step sha a = some w' ∧ .ownerSignalled o ∈ w'.protection.owners

/-- Every running upload has been signalled already, or some entry signals it. -/
def Cancellable (sha : List UInt8 → String) (p : ProtectedWorld) : Prop :=
  ∀ u t, p.Running u t → p.Signalled t.session.owner ∨
    ∃ a, p.Entry t.session.sessionId a ∧ p.Signals sha a t.session.owner

/-- The same with every entry. -/
def FullyCancellable (sha : List UInt8 → String) (p : ProtectedWorld) : Prop :=
  ∀ u t, p.Running u t → p.Signalled t.session.owner ∨
    ∀ a, p.Entry t.session.sessionId a → p.Signals sha a t.session.owner

/-- An upload to the protected session begins only while every upload that is still running
    has been signalled. -/
def BeginsAlone (p : ProtectedWorld) (a : ProtectedAction) (_ : ProtectedWorld) : Prop :=
  ∀ u s, p.Matches a u s → ∀ v t, p.Running v t → p.Signalled t.session.owner

/-- Every running upload has been signalled, or is the one on record. -/
def Tracked (p : ProtectedWorld) : Prop :=
  ∀ u t, p.Running u t → p.Signalled t.session.owner ∨
    p.world.protection.activeUpload = some ⟨t.session.sessionId, t.session.owner⟩

/-- What is signalled that was not before is the upload on record. -/
theorem active_of_signals {sha : List UInt8 → String} {p : ProtectedWorld} {a : Action}
    {o : OwnerId} (hsignals : p.Signals sha a o) (hnot : ¬p.Signalled o)
    (ha : a.ofProtected = false) : ∃ r, p.world.protection.activeUpload = some r ∧ r.owner = o := by
  obtain ⟨w', hstep, ho⟩ := hsignals
  have hmove := World.move_of_step hstep ha
  generalize w'.protection = q at hmove ho
  cases hmove with
  | keep => exact absurd ho hnot
  | cancelled hs =>
    simp only [List.mem_append, List.mem_singleton, reduceCtorEq, or_false] at ho
    -- what the step adds is the owner it signals
    exact absurd ho hnot
  | @signalled r hr =>
    simp only [List.mem_append, List.mem_singleton, Observation.ownerSignalled.injEq] at ho
    exact ⟨r, hr, (ho.resolve_left hnot).symm⟩
  -- `stop` signals the owner of the record and no other
  | stopped =>
    cases hr : p.world.protection.activeUpload with
    | none =>
      cases hs : p.world.protection.session <;> simp [Protection.stop, hr, hs] at ho <;>
        exact absurd ho hnot
    | some r =>
      refine ⟨r, rfl, ?_⟩
      cases hs : p.world.protection.session <;> simp [Protection.stop, hr, hs] at ho <;>
        exact (ho.resolve_left hnot).symm

/-- Every entry signals the upload on record. -/
theorem signals_of_active {p : ProtectedWorld} (sha : List UInt8 → String) (hlinked : p.Linked)
    {u : TaskId} {t : ProtectedUpload} (ht : p.uploads u = some t)
    (hr : p.world.protection.activeUpload = some ⟨t.session.sessionId, t.session.owner⟩)
    {a : Action} (ha : p.Entry t.session.sessionId a) : p.Signals sha a t.session.owner := by
  -- the two ways in: `stop`, or a cancellation by a peer that may ask
  rcases ha with rfl | ⟨peer, rfl, hopen⟩
  · refine ⟨_, rfl, ?_⟩
    rw [World.protection_stop]
    simp [Protection.stop, hr]
  · refine ⟨_, rfl, ?_⟩
    -- the protected session in the slot is another one
    have hsession : (p.world.state.crosscopyAuthorizedSession.filter fun s =>
        s.sessionId = t.session.sessionId) = none := by
      simp only [Option.filter_eq_none_iff, decide_eq_true_eq]
      intro s hs hid
      have hslot : p.held .slot = some s := hs
      have hsame := hlinked.session_eq (hlinked.held .slot s hslot) (hlinked.uploads u t ht).1 hid
      exact hlinked.not_held ht .slot (hsame ▸ hslot)
    have hactive : (p.world.state.crosscopyAuthorizedActiveUpload.filter fun r =>
        r.sessionId = t.session.sessionId) = some ⟨t.session.sessionId, t.session.owner⟩ :=
      Option.filter_eq_some_iff.mpr ⟨hr, by simp⟩
    -- the peer is the one the slot is of, or the slot has no peer
    have hclaim : (!(p.world.state.currentSessionFrom.any fun ip => ip = peer) &&
        p.world.state.currentSessionFrom.isSome) = false := by
      cases hfrom : p.world.state.currentSessionFrom with
      | none => rfl
      | some ip =>
        have hip : ip = peer := Classical.not_not.mp fun hne => hopen ⟨ip, hfrom, hne⟩
        simp [hip]
    have hcancel : (p.world.handleCancel peer (some t.session.sessionId)).2 =
        p.world.observe (.ownerSignalled t.session.owner) := by
      simp [World.handleCancel, hclaim, hsession, hactive]
    rw [hcancel, World.protection_observe_owner _ rfl]
    exact List.mem_append_right _ (List.mem_singleton_self _)

/-- The uploads that stay cancellable are those on record. -/
theorem cancellable_iff_tracked (sha : List UInt8 → String) {p : ProtectedWorld}
    (hlinked : p.Linked) : p.Cancellable sha ↔ p.Tracked := by
  constructor
  · intro h u t hrun
    by_cases hsignalled : p.Signalled t.session.owner
    · exact .inl hsignalled
    · obtain ⟨a, hentry, hsignals⟩ := (h u t hrun).resolve_left hsignalled
      have ha : a.ofProtected = false := by
        rcases hentry with rfl | ⟨peer, rfl, _⟩ <;> rfl
      -- the owner that is signalled is the one of the record
      obtain ⟨r, hr, howner⟩ := active_of_signals hsignals hsignalled ha
      obtain ⟨v, t', ht', hrt, _⟩ := hlinked.active r hr
      have howners : t.session.owner = t'.session.owner := by rw [← howner, hrt]
      have hsession : t.session = t'.session :=
        List.inj_on_of_nodup_map hlinked.owners (hlinked.uploads u t hrun.1).1
          (hlinked.uploads v t' ht').1 howners
      -- `stop` is a way in for every upload on record
      exact .inr (by rw [hr, hrt, hsession])
  · intro h u t hrun
    exact (h u t hrun).imp_right fun hr =>
      ⟨.stop, .inl rfl, signals_of_active sha hlinked hrun.1 hr (.inl rfl)⟩

/-- Every entry reaches what is on record. -/
theorem Tracked.fullyCancellable {p : ProtectedWorld} (sha : List UInt8 → String)
    (hlinked : p.Linked) (h : p.Tracked) : p.FullyCancellable sha :=
  fun u t hrun => (h u t hrun).imp_right fun hr _ hentry =>
    signals_of_active sha hlinked hrun.1 hr hentry

/-- A step keeps every running upload on record or signalled exactly when it begins no
    upload beside one that is neither. -/
theorem tracked_iff {p p' : ProtectedWorld} {a : ProtectedAction} (hlinked : p.Linked)
    (htracked : p.Tracked) (hstep : p.Step a p') : p.BeginsAlone a p' ↔ p'.Tracked := by
  constructor
  · intro hC u t hrun
    rcases running_of_step hstep hrun with hbefore | hmatch
    · rcases htracked u t hbefore with hsignalled | hr
      · exact .inl (owners_mono hstep hsignalled)
      · rcases record_of_step hlinked hstep hbefore hr with hr' | hsignalled | ⟨v, s, hmatch⟩
        · exact .inr hr'
        · exact .inl hsignalled
        · exact .inl (owners_mono hstep (hC v s hmatch u t hbefore))
    · -- the upload that has just begun is the one on record
      exact .inr (begun_of_matches hstep hmatch).2.2.1
  · intro htracked' u s hmatch v t hrun
    obtain ⟨hfresh, huploads, hr, howners⟩ := begun_of_matches hstep hmatch
    have hvu : v ≠ u := fun hvu => (by cases (hvu ▸ hfresh).symm.trans hrun.1)
    have hrun' : p'.Running v t :=
      ⟨by rw [huploads, Function.update_of_ne hvu]; exact hrun.1, hrun.2⟩
    rcases htracked' v t hrun' with hsignalled | hr'
    · unfold Signalled at hsignalled ⊢
      rwa [howners] at hsignalled
    · -- the record is the new upload's
      have hid : s.sessionId = t.session.sessionId := by
        have hrecord := Option.some.inj (hr.symm.trans hr')
        exact congrArg CrossCopyAuthorizedActiveUpload.sessionId hrecord
      have hslot : p.held .slot = some s := hmatch.1
      have hsame := hlinked.session_eq (hlinked.held .slot s hslot)
          (hlinked.uploads v t hrun.1).1 hid
      exact absurd (hsame ▸ hslot) (hlinked.not_held hrun.1 .slot)

/-- Every running protected upload stays cancellable exactly in the runs in which an upload
    begins only while every other that is running has been signalled. In these runs it is
    cancellable through every entry. -/
theorem cancellable_iff (sha : List UInt8 → String) (c : ServerConfig) (gate : Bool)
    (as : List ProtectedAction) :
    ((protectedReceiver sha).Always (fun _ _ p' => p'.Cancellable sha) (start c gate) as ↔
      (protectedReceiver sha).Always BeginsAlone (start c gate) as) ∧
    ((protectedReceiver sha).Always BeginsAlone (start c gate) as →
      (protectedReceiver sha).Always (fun _ _ p' => p'.FullyCancellable sha)
      (start c gate) as) := by
  have hstart : (start c gate).Linked ∧ (start c gate).Tracked :=
    ⟨linked_start c gate, fun u t h => (by cases h.1)⟩
  constructor
  -- both directions from one invariant: a step that begins alone keeps every upload on record
  · refine ((protectedReceiver sha).always_iff_of_invariant (fun p => p.Linked ∧ p.Tracked) ?_
      hstart).symm
    rintro p a p' ⟨hlinked, htracked⟩ hrun
    have hlinked' := hlinked.step (step_cases hrun)
    have hiff := tracked_iff hlinked htracked (step_cases hrun)
    exact ⟨hiff.trans (cancellable_iff_tracked sha hlinked').symm, fun h => ⟨hlinked', hiff.mp h⟩⟩
  · refine (protectedReceiver sha).always_of_invariant (fun p => p.Linked ∧ p.Tracked) ?_ hstart
    rintro p a p' ⟨hlinked, htracked⟩ hrun halone
    have hlinked' := hlinked.step (step_cases hrun)
    have htracked' := (tracked_iff hlinked htracked (step_cases hrun)).mp halone
    exact ⟨⟨hlinked', htracked'⟩, htracked'.fullyCancellable sha hlinked'⟩

end ProtectedWorld

namespace Scenario

/-- A canonical handoff. -/
def handoff : String := "aaaaaaaaaaaaaaaaaaaaaaaaaaaaaaaaaaaaaaaaaaaaaaaaaaaaaaaaaaaaaaaa"

/-- Prepare `h` is given an owner by the gate. -/
def taking (h : TaskId) (owner : OwnerId) (id token : String) : List ProtectedAction :=
  [.prepare h (.begin_ [some handoff] offer), .prepare h .preflight, .prepare h .askGate,
    .prepare h (.gateAnswered (some owner) ⟨id⟩ ⟨token⟩)]

/-- The first upload is streaming, and the session of a second one is installed. -/
def secondInstalled : List ProtectedAction :=
  taking 0 0 "one" "p" ++ [.prepare 0 .install, .begin_ 0 ⟨"one"⟩ ⟨"f"⟩ ⟨"p"⟩] ++
    taking 1 1 "two" "q" ++ [.prepare 1 .install]

end Scenario

namespace ProtectedWorld

/-- The second upload begins, and no entry reaches the first one any more. -/
theorem cancellable_second_upload :
    ¬∀ (sha : List UInt8 → String) (c : ServerConfig) (gate : Bool) (as : List ProtectedAction),
      (protectedReceiver sha).Always (fun _ _ p' => p'.Cancellable sha) (start c gate) as := by
  intro h
  refine (protectedReceiver Scenario.digest).not_always_of_test (start Scenario.config true)
    Scenario.secondInstalled (.begin_ 1 ⟨"two"⟩ ⟨"f"⟩ ⟨"q"⟩)
    -- at the end the first upload runs and the record names the second
    (fun _ p' => (p'.uploads 0).any (fun t => t.dropped = false ∧ t.phase = .receiving ∧
        t.session.owner = 0) &&
      (p'.world.protection.activeUpload = some ⟨⟨"two"⟩, 1⟩ && p'.world.protection.owners = []))
    (by decide) ?_ (h Scenario.digest Scenario.config true _)
  intro p p' _ htest hcancellable
  simp only [Bool.and_eq_true, Option.any_eq_true, decide_eq_true_eq] at htest
  obtain ⟨⟨t, ht, hlive, hphase, howner⟩, hactive, howners⟩ := htest
  have hnot : ¬p'.Signalled t.session.owner := by simp [Signalled, howners]
  obtain ⟨a, hentry, hsignals⟩ := (hcancellable 0 t ⟨ht, hlive, hphase⟩).resolve_left hnot
  have ha : a.ofProtected = false := by
    rcases hentry with rfl | ⟨peer, rfl, _⟩ <;> rfl
  -- a signal would have to come from the record
  obtain ⟨r, hr, hrowner⟩ := active_of_signals hsignals hnot ha
  rw [hactive, Option.some.injEq] at hr
  rw [← hr, howner] at hrowner
  simp at hrowner

/-! ## Disconnects -/

/-- No owner is lost: each one is consumed, installed, or held by a prepare that is alive. -/
def OwnersKept (p : ProtectedWorld) : Prop :=
  ∀ o ∈ p.taken, p.consumed o = 1 ∨ p.Installed o ∨
    ∃ h t s, p.prepares h = some t ∧ t.dropped = false ∧ t.phase.held = some s ∧ s.owner = o

/-- The record names an upload that is alive and will clear it. -/
def RecordLive (p : ProtectedWorld) : Prop :=
  ∀ r, p.world.protection.activeUpload = some r → ∃ u t, p.uploads u = some t ∧
    t.dropped = false ∧ t.session.sessionId = r.sessionId ∧ t.phase.recorded = true

/-- A disconnect hits no prepare that holds an owner, and not the upload on record. -/
def DropsSpared (p : ProtectedWorld) (a : ProtectedAction) (_ : ProtectedWorld) : Prop :=
  (∀ h t, a = .prepare h .drop → p.prepares h = some t → t.phase.held = none) ∧
    ∀ u t, a = .upload u .drop → p.uploads u = some t →
      ∀ r, p.world.protection.activeUpload = some r → r.sessionId ≠ t.session.sessionId

/-- Who holds an owner is alive, and so is who is on record. -/
structure Alive (p : ProtectedWorld) : Prop where
  prepares : ∀ h t, p.prepares h = some t → t.phase.held ≠ none → t.dropped = false
  record : ∀ r u t, p.world.protection.activeUpload = some r → p.uploads u = some t →
    t.session.sessionId = r.sessionId → t.dropped = false

theorem ownersKept_iff {p : ProtectedWorld} (hlinked : p.Linked) :
    p.OwnersKept ↔ ∀ h t, p.prepares h = some t → t.phase.held ≠ none → t.dropped = false := by
  constructor
  · intro hkept h t ht hholds
    -- the handler holds the owner, so it is neither spent nor in the slot
    obtain ⟨s, hs⟩ := Option.ne_none_iff_exists'.mp hholds
    have hheld : p.custody.held (.prepare h) = some s.owner := by
      simp [custody, held_prepare ht, hs]
    rcases hkept s.owner (hlinked.linear.issued_of_held hheld) with hone | ⟨s', hs', howner⟩ | hlive
    · have hzero : p.consumed s.owner = 0 := hlinked.linear.unspent _ _ hheld
      omega
    · have hslot : p.custody.held .slot = some s.owner := by simp [custody, held, hs', howner]
      cases hlinked.linear.unique _ _ _ hheld hslot
    · obtain ⟨h', t', s', ht', hlive, hs', howner⟩ := hlive
      have hheld' : p.custody.held (.prepare h') = some s.owner := by
        simp [custody, held_prepare ht', hs', howner]
      cases hlinked.linear.unique _ _ _ hheld hheld'
      cases ht.symm.trans ht'
      exact hlive
  -- what is not spent is held by the slot or by a handler
  · intro halive o ho
    rcases (hlinked.linear.accounted o).mp ho with hone | ⟨a, ha⟩
    · exact .inl hone
    · simp only [custody, Option.map_eq_some_iff] at ha
      obtain ⟨s, hs, howner⟩ := ha
      cases a with
      | slot => exact .inr (.inl ⟨s, hs, howner⟩)
      | prepare h =>
        simp only [held, Option.bind_eq_some_iff] at hs
        obtain ⟨t, ht, hs⟩ := hs
        exact .inr (.inr ⟨h, t, s, ht, halive h t ht (by simp [hs]), hs, howner⟩)

theorem recordLive_iff {p : ProtectedWorld} (hlinked : p.Linked) :
    p.RecordLive ↔ ∀ r u t, p.world.protection.activeUpload = some r → p.uploads u = some t →
      t.session.sessionId = r.sessionId → t.dropped = false := by
  constructor
  · intro hlive r u t hr ht hid
    obtain ⟨v, t', ht', hlive, hid', _⟩ := hlive r hr
    have hsession := hlinked.session_eq (hlinked.uploads u t ht).1 (hlinked.uploads v t' ht').1
      (hid.trans hid'.symm)
    cases hlinked.ownSession u v t t' ht ht' hsession
    cases ht.symm.trans ht'
    exact hlive
  · intro halive r hr
    obtain ⟨u, t, ht, rfl, hphase⟩ := hlinked.active r hr
    exact ⟨u, t, ht, halive _ u t hr ht rfl, rfl, hphase⟩

theorem alive_iff {p : ProtectedWorld} (hlinked : p.Linked) :
    p.OwnersKept ∧ p.RecordLive ↔ p.Alive := by
  rw [ownersKept_iff hlinked, recordLive_iff hlinked]
  exact ⟨fun ⟨hprepares, hrecord⟩ => ⟨hprepares, hrecord⟩, fun h => ⟨h.prepares, h.record⟩⟩

/-- A prepare that holds an owner after a step is as it was, alive, or has been dropped. -/
theorem prepare_of_step {p p' : ProtectedWorld} {a : ProtectedAction} (hstep : p.Step a p')
    {h : TaskId} {t' : ProtectedPrepare} (ht' : p'.prepares h = some t') :
    p.prepares h = some t' ∨ t'.dropped = false ∨
      a = .prepare h .drop ∧ ∃ t, p.prepares h = some t ∧ t' = { t with dropped := true } := by
  -- the section writes the task of its own handler
  have hset : ∀ {i t}, (p.setPrepare i t).prepares h = some t' →
      (h = i ∧ t' = t) ∨ p.prepares h = some t' := by
    intro i t hi
    by_cases hh : h = i
    · subst hh
      simp only [setPrepare, Function.update_self, Option.some.injEq] at hi
      exact .inl ⟨rfl, hi.symm⟩
    · simp only [setPrepare, Function.update_of_ne hh] at hi
      exact .inr hi
  -- a section other than a drop leaves the handler live
  have hmoved : ∀ {i t}, (p.setPrepare i t).prepares h = some t' → t.dropped = false →
      p.prepares h = some t' ∨ t'.dropped = false ∨ a = .prepare h .drop ∧
        ∃ t, p.prepares h = some t ∧ t' = { t with dropped := true } := by
    intro i t hi hlive
    rcases hset hi with ⟨_, rfl⟩ | hkept
    · exact .inr (.inl hlive)
    · exact .inl hkept
  cases hstep with
  | receiver move same => exact .inl (same.prepares ▸ ht')
  | begin_ fresh =>
    unfold beginPrepare at ht'
    split at ht'
    · exact hmoved ht' rfl
    · exact .inl ht'
  | preflight ht live phase =>
    unfold preflight at ht'
    repeat' split at ht'
    all_goals exact hmoved ht' live
  | askGate ht live phase => exact hmoved ht' live
  | @gateAnswered i t owner id token ht live phase =>
    cases owner with
    | none => exact hmoved ht' live
    | some o => exact hmoved ht' live
  | @install i t s ht live phase =>
    rcases hset ht' with ⟨_, rfl⟩ | hkept
    · exact .inr (.inl live)
    · exact .inl hkept
  | prepareCancelled ht live phase => exact hmoved ht' live
  | dropPrepare ht live awaits =>
    rcases hset ht' with ⟨rfl, rfl⟩ | hkept
    · exact .inr (.inr ⟨rfl, _, ht, rfl⟩)
    · exact .inl hkept
  | @beginUpload u x f tok fresh =>
    have ht' : (p.beginUpload u x f tok).prepares h = some t' := ht'
    rcases p.beginUpload_cases u x f tok with
      ⟨hp, _⟩ | ⟨s, _, _, ⟨_, hp, _⟩ | ⟨_, _, hp, _⟩⟩ <;> rw [hp] at ht' <;> exact .inl ht'
  | _ => exact .inl ht'

/-- A step leaves everything alive exactly when it spares the holders and the record. -/
theorem alive_step_iff {p p' : ProtectedWorld} {a : ProtectedAction} (hlinked : p.Linked)
    (halive : p.Alive) (hstep : p.Step a p') : p.DropsSpared a p' ↔ p'.Alive := by
  constructor
  · rintro ⟨hprepares, huploads⟩
    constructor
    -- only a drop makes a dropped handler
    · intro h t' ht' hholds
      rcases prepare_of_step hstep ht' with hkept | hlive | ⟨rfl, t, ht, rfl⟩
      · exact halive.prepares h t' hkept hholds
      · exact hlive
      · exact absurd (hprepares h t rfl ht) hholds
    -- the upload on record is live before, or has just begun
    · intro r u t' hr ht' hid
      rcases active_of_step hstep hr with ⟨hbefore, _⟩ | ⟨v, s, _, rfl, hv⟩
      · cases uploadMoved_of_step hstep ht' with
        | kept ht => exact halive.record r u t' hbefore ht hid
        | moved _ _ live _ => exact live
        | @dropped t ha ht => exact absurd hid.symm (huploads u t ha ht r hbefore)
        | begun _ live _ => exact live
      · -- the upload that has just begun
        have hlinked' := hlinked.step hstep
        have hsession := hlinked'.session_eq (hlinked'.uploads u t' ht').1
          (hlinked'.uploads v _ hv).1 hid
        cases hlinked'.ownSession u v t' _ ht' hv hsession
        cases ht'.symm.trans hv
        rfl
  -- conversely the drop itself leaves a dropped holder behind
  · intro halive'
    constructor
    · rintro h t rfl ht
      apply Classical.byContradiction
      intro hholds
      cases hstep with
      | @dropPrepare _ t' ht' live awaits =>
        cases ht.symm.trans ht'
        have hdropped := halive'.prepares h { t with dropped := true }
          (by simp [setPrepare]) hholds
        simp at hdropped
    -- likewise for the upload on record
    · rintro u t rfl ht r hr hid
      cases hstep with
      | @dropUpload _ t' w' ht' live awaits left =>
        cases ht.symm.trans ht'
        have hr' : w'.protection.activeUpload = some r :=
          (congrArg Protection.activeUpload left).trans hr
        have hdropped := halive'.record r u { t with dropped := true } hr' (by simp [setUpload])
          hid.symm
        simp at hdropped

/-- No owner is lost and no record left behind exactly in the runs in which no disconnect
    hits a prepare that holds an owner, or the upload on record. -/
theorem disconnect_iff (sha : List UInt8 → String) (c : ServerConfig) (gate : Bool)
    (as : List ProtectedAction) :
    (protectedReceiver sha).Always (fun _ _ p' => p'.OwnersKept ∧ p'.RecordLive) (start c gate) as ↔
      (protectedReceiver sha).Always DropsSpared (start c gate) as := by
  have hstart : (start c gate).Alive :=
    ⟨fun h t ht => (by cases ht), fun r u t hr => (by cases hr)⟩
  refine ((protectedReceiver sha).always_iff_of_invariant (fun p => p.Linked ∧ p.Alive) ?_
    ⟨linked_start c gate, hstart⟩).symm
  rintro p a p' ⟨hlinked, halive⟩ hrun
  have hlinked' := hlinked.step (step_cases hrun)
  have hiff := alive_step_iff hlinked halive (step_cases hrun)
  exact ⟨hiff.trans (alive_iff hlinked').symm, fun h => ⟨hlinked', hiff.mp h⟩⟩

/-- The client of a prepare goes away while it waits for the lock with the owner in hand. -/
theorem disconnect_before_install :
    ¬∀ (sha : List UInt8 → String) (c : ServerConfig) (gate : Bool) (as : List ProtectedAction),
      (protectedReceiver sha).Always (fun _ _ p' => p'.OwnersKept ∧ p'.RecordLive)
        (start c gate) as := by
  intro h
  obtain ⟨p, p', hp, hp', htest⟩ := (protectedReceiver Scenario.digest).exists_run_of_test
    (start Scenario.config true) (Scenario.taking 0 0 "one" "p") (.prepare 0 .drop)
    (fun _ p' => (p'.prepares 0).any fun t => t.dropped && t.phase.held.isSome) (by decide)
  have hkept := ((h Scenario.digest Scenario.config true _).last hp hp').1
  have hstart : (protectedReceiver Scenario.digest).Reachable (start Scenario.config true) :=
    .init ⟨Scenario.config, true, rfl⟩
  have hreachable := (hstart.exec hp).step hp'
  simp only [Option.any_eq_true, Bool.and_eq_true] at htest
  obtain ⟨t, ht, hdropped, hholds⟩ := htest
  have hlive := (ownersKept_iff (linked_of_reachable hreachable)).mp hkept 0 t ht
    (Option.isSome_iff_ne_none.mp hholds)
  cases hlive.symm.trans hdropped

end ProtectedWorld

end LocalSend
