import LocalSend.Spec.HandleInvariant
import LocalSend.Spec.PrepareInvariant
import LocalSend.Spec.UploadMoves

/-!
# The lifecycles of a run

Seen from one session, the receiver is the transition system of that session's leases
and permits: each step of the receiver is at most one mutex section of the session. What
holds of the handles of a session in every interleaving therefore holds of the uploads
of every session of every run.

With the invariant of the handles comes the bookkeeping around them: the slots of a
session are those of its files, and a received file is published.

## Key results

- `handleStep_of_step`: a step of the receiver is at most one section of each session
- `lifecycleInv_of_reachable`: uploads, handles, slots and `received` fit together
-/

namespace LocalSend

open ReceiveLifecycle

namespace HandleState

/-- A section that leaves a handle and the lifecycle as they were. -/
theorem update_self {s : HandleState} {h : HandleId} {handle : Option ReceiveHandle}
    {l : ReceiveLifecycle} (hhandle : s.handles h = handle) (hl : s.lifecycle = l) :
    s.update h handle l = s := by
  subst hhandle hl
  simp only [update, Function.update_eq_self]

/-- Dropping whatever a handler still holds is at most one section. -/
theorem dropHandle_step {s : HandleState} {h : HandleId} {handle : Option ReceiveHandle}
    (hhandle : s.handles h = handle) :
    s.update h none (s.lifecycle.dropHandle handle) = s ∨
      ∃ b, s.step b = some (s.update h none (s.lifecycle.dropHandle handle)) := by
  rcases handle with _ | (f | f | f)
  · exact .inl (update_self hhandle rfl)
  · exact .inr ⟨.dropLease h, by simp only [step, hhandle, dropHandle]⟩
  · exact .inr ⟨.dropLease h, by simp only [step, hhandle, dropHandle]⟩
  · exact .inr ⟨.dropPermit h, by simp only [step, hhandle, dropHandle]⟩

end HandleState

/-- A move of an upload is at most one section of its session. -/
theorem UploadMove.handleStep {sha : List UInt8 → String} {w : World} {old : Option UploadTask}
    {a : UploadAction} {t' : UploadTask} {l : ReceiveLifecycle} {s : HandleState} {u : TaskId}
    (hmove : UploadMove sha w old a t' l)
    (hold : ∀ t, old = some t → t.Wf sha ∧ t.dropped = false)
    (hlife : s.lifecycle = w.lifecycles t'.grant.sessionId)
    (hhandle : s.handles u = old.bind UploadTask.handle) :
    s.update u t'.handle l = s ∨ ∃ b, s.step b = some (s.update u t'.handle l) := by
  cases hmove with
  | @began c token f file hs verified hfile ready =>
    have hlife' : s.lifecycle = w.lifecycles c.id := hlife
    have hnone : s.handles u = none := hhandle
    -- the file was ready, so the session gives out the lease
    have hbegin : s.lifecycle.beginReceive f =
        some ((w.lifecycles c.id).setPhase f .receiving) := by
      rw [hlife']
      exact beginReceive_eq_some.mpr ⟨ready, rfl⟩
    exact .inr ⟨.beginReceive u f, by simp only [HandleState.step, hnone, hbegin]⟩
  | @won t phase receiving =>
    obtain ⟨h, live⟩ := hold t rfl
    -- a validated upload holds the lease of its file
    have hheld := h.held_of live phase
    have hlease : s.handles u = some (.lease t.fileId) := hhandle.trans hheld
    have hlife' : s.lifecycle = w.lifecycles t.grant.sessionId := hlife
    have hbegin : s.lifecycle.beginPublication t.fileId =
        some ((w.lifecycles t.grant.sessionId).setPhase t.fileId .publishing) := by
      rw [hlife']
      exact beginPublication_eq_some.mpr ⟨receiving, rfl⟩
    exact .inr ⟨.beginPublication u, by simp only [HandleState.step, hlease, hbegin]⟩
  | @lost t phase taken =>
    obtain ⟨h, live⟩ := hold t rfl
    have hheld := h.held_of live phase
    have hlease : s.handles u = some (.lease t.fileId) := hhandle.trans hheld
    have hlife' : s.lifecycle = w.lifecycles t.grant.sessionId := hlife
    have hbegin : s.lifecycle.beginPublication t.fileId = none := by
      rw [hlife']
      exact beginPublication_eq_none.mpr taken
    refine .inr ⟨.beginPublication u, ?_⟩
    simp only [HandleState.step, hlease, hbegin]
    rw [← hlife']
  | @recorded t path c phase hs hid =>
    obtain ⟨h, live⟩ := hold t rfl
    have hheld := h.held_of live phase
    have hpermit : s.handles u = some (.permit t.fileId) := hhandle.trans hheld
    have hlife' : s.lifecycle = w.lifecycles t.grant.sessionId := hlife
    exact .inr ⟨.finish u, by simp only [HandleState.step, hpermit, hlife']⟩
  | notCreated | gaveUp | aborted | surrendered | orphaned | dropped =>
    -- these moves drop the handle, whatever it is
    have hdrop := HandleState.dropHandle_step hhandle
    rw [hlife] at hdrop
    exact hdrop
  | created | received | streamFailed | ended | wrote | notWritten | reported | invalid | valid
  | interrupted | rejected | committed | notCommitted =>
    exact .inl (HandleState.update_self hhandle hlife)

namespace World

/-- The handles of session `x`, and its lifecycle, as they stand in a world. -/
def handleState (w : World) (x : SessionId) : HandleState where
  lifecycle := w.lifecycles x
  handles u := (w.uploads u).bind fun t => if t.grant.sessionId = x then t.handle else none

/-- A session the receiver may still host: it is in the slot, or about to be installed. -/
def Hosted (w : World) (s : Session) : Prop :=
  w.state.currentSession = some s ∨ ∃ h t, w.prepares h = some t ∧ t.phase = .installing s

/-- How the uploads, the lifecycles and the slot of a world fit together. -/
structure LifecycleInv (sha256 : List UInt8 → String) (w : World) : Prop where
  prepare : w.PrepareInv
  wf : ∀ u t, w.uploads u = some t → t.Wf sha256
  session : ∀ u t, w.uploads u = some t → t.grant.sessionId ∈ w.issued
  apart : ∀ u t h p s, w.uploads u = some t → w.prepares h = some p → p.phase = .installing s →
    s.id ≠ t.grant.sessionId
  handles : ∀ x ∈ w.issued, HandleState.system.Reachable (w.handleState x)
  slots : ∀ s, w.Hosted s → ∀ f, ((w.lifecycles s.id).phase? f).isSome = s.files.contains f
  received : ∀ s, w.state.currentSession = some s → ∀ f ∈ s.received,
    (w.lifecycles s.id).phase? f = some .published

variable {sha : List UInt8 → String} {w w' : World} {a : Action}

/-! ## One step, seen from one session -/

/-- What a step does to the uploads: one moves, or they all stay as they are. -/
theorem uploadMove_of_step (hstep : w.step sha a = some w') :
    (∃ u b t' l, a = .upload u b ∧ UploadStep sha w u b w' ∧ UploadMove sha w (w.uploads u) b t' l ∧
      w.UploadEffect u t' l w') ∨
    (w'.uploads = w.uploads ∧ ((∀ u b, a ≠ .upload u b) ∨
      ∃ u b, a = .upload u b ∧ w.uploads u = none ∧ w'.lifecycles = w.lifecycles)) := by
  cases a with
  | upload u b =>
    have hsection := step_upload hstep
    rcases uploadMove_of_uploadStep hsection with ⟨hnone, huploads, hlife⟩ | ⟨t', l, hmove, heffect⟩
    · exact .inr ⟨huploads, .inr ⟨u, b, rfl, hnone, hlife⟩⟩
    · exact .inl ⟨u, b, t', l, rfl, hsection, hmove, heffect⟩
  | prepare h b =>
    rcases prepareMove_of_step hstep with ⟨_, _, _, _, _, _, heffect⟩ | ⟨hne, _⟩
    · exact .inr ⟨heffect.uploads, .inl (by simp)⟩
    · exact absurd rfl (hne h b)
  | _ => exact .inr ⟨(sameTasks_of_step hstep (by simp) (by simp)).uploads, .inl (by simp)⟩

/-- A dropped upload makes no step. -/
theorem UploadStep.live {u : TaskId} {b : UploadAction} {t : UploadTask}
    (hstep : UploadStep sha w u b w') (ht : w.uploads u = some t) : t.dropped = false := by
  cases hstep with
  | begin_ fresh => cases ht.symm.trans fresh
  | sinkCreated ht' live | chunk ht' live | streamError ht' live | streamEnd ht' live
  | chunkWritten ht' live | reportProgress ht' live | flushed ht' live | interrupt ht' live
  | reject ht' live | aborted ht' live | publish ht' live | surrender ht' live
  | committed ht' live | record ht' live | drop ht' live =>
    cases ht.symm.trans ht'
    exact live

/-- The state of a session's handles after a section of one of its uploads. -/
theorem handleState_of_effect {u : TaskId} {t' : UploadTask} {l : ReceiveLifecycle}
    (heffect : w.UploadEffect u t' l w') :
    w'.handleState t'.grant.sessionId = (w.handleState t'.grant.sessionId).update u t'.handle l := by
  simp only [handleState, HandleState.update, heffect.uploads, heffect.lifecycles,
    Function.update_self, HandleState.mk.injEq, true_and]
  funext v
  by_cases hv : v = u
  · subst hv
    simp
  · simp [hv]

/-- A section of an upload leaves the other sessions alone. -/
theorem handleState_of_other {u : TaskId} {t' : UploadTask} {l : ReceiveLifecycle}
    (heffect : w.UploadEffect u t' l w') {x : SessionId} (hx : x ≠ t'.grant.sessionId)
    (hold : ∀ t, w.uploads u = some t → t.grant = t'.grant) :
    w'.handleState x = w.handleState x := by
  simp only [handleState, heffect.uploads, heffect.lifecycles, Function.update_of_ne hx,
    HandleState.mk.injEq, true_and]
  funext v
  by_cases hv : v = u
  · subst hv
    rw [Function.update_self, Option.bind_some, if_neg (Ne.symm hx)]
    cases ht : w.uploads v with
    | none => rfl
    | some t => rw [Option.bind_some, hold t ht, if_neg (Ne.symm hx)]
  · rw [Function.update_of_ne hv]

/-- A step of the receiver is at most one section of each session. -/
theorem handleStep_of_step (hinv : w.LifecycleInv sha) (hstep : w.step sha a = some w')
    {x : SessionId} (hx : x ∈ w.issued) :
    w'.handleState x = w.handleState x ∨
      ∃ b, (w.handleState x).step b = some (w'.handleState x) := by
  rcases uploadMove_of_step hstep with ⟨u, b, t', l, rfl, hsection, hmove, heffect⟩ |
      ⟨huploads, hlife⟩
  · have hold : ∀ t, w.uploads u = some t → t.Wf sha ∧ t.dropped = false :=
      fun t ht => ⟨hinv.wf u t ht, hsection.live ht⟩
    have hgrant : ∀ t, w.uploads u = some t → t.grant = t'.grant := by
      intro t ht
      rw [ht] at hmove
      exact hmove.grant_eq.2.symm
    -- the upload is of this session, or its handle is nothing to it
    by_cases hsid : x = t'.grant.sessionId
    · subst hsid
      rw [handleState_of_effect heffect]
      refine hmove.handleStep hold rfl ?_
      show ((w.uploads u).bind fun t => if t.grant.sessionId = t'.grant.sessionId then t.handle else
          none) = _
      cases ht : w.uploads u with
      | none => rfl
      | some t => rw [Option.bind_some, hgrant t ht, if_pos rfl, Option.bind_some]
    · exact .inl (handleState_of_other heffect hsid hgrant)
  · have hsame : w'.lifecycles x = w.lifecycles x → w'.handleState x = w.handleState x := by
      intro h
      simp only [handleState, huploads, h]
    -- any other step may cancel the receives of the session
    cases lifecycleMove_of_step hx hstep with
    | keep lifecycle => exact .inl (hsame lifecycle)
    | cancel _ _ _ _ lifecycle =>
      refine .inr ⟨.tryCancelReceives, ?_⟩
      simp only [HandleState.step, handleState, huploads, lifecycle]
    | upload =>
      rcases hlife with hne | ⟨_, _, _, _, hlife⟩
      · exact absurd rfl (hne _ _)
      · exact .inl (hsame (congrFun hlife x))

/-- A step of the receiver makes at most one step of the slot state machine at each file. -/
theorem slotStep_of_step (hinv : w.LifecycleInv sha) (hstep : w.step sha a = some w')
    {x : SessionId} (hx : x ∈ w.issued) (f : FileId) :
    HandleState.SlotStep (w.lifecycles x) (w'.lifecycles x) f := by
  rcases handleStep_of_step hinv hstep hx with heq | ⟨b, hb⟩
  · have hlife := congrArg HandleState.lifecycle heq
    exact .of_eq (congrArg (fun l => l.phase? f) hlife)
  · exact HandleState.slotStep_of_step (HandleState.inv_of_reachable (hinv.handles x hx)) hb f

/-- A session keeps its slots. -/
theorem slots_of_step (hinv : w.LifecycleInv sha) (hstep : w.step sha a = some w')
    {x : SessionId} (hx : x ∈ w.issued) (f : FileId) :
    ((w'.lifecycles x).phase? f).isSome = ((w.lifecycles x).phase? f).isSome := by
  rcases slotStep_of_step hinv hstep hx f with ⟨hnone, hnone'⟩ | ⟨p, p', hp, hp', _⟩
  · rw [hnone, hnone']
  · rw [hp, hp']
    rfl

/-- A published slot stays published. -/
theorem published_of_step (hinv : w.LifecycleInv sha) (hstep : w.step sha a = some w')
    {x : SessionId} (hx : x ∈ w.issued) {f : FileId}
    (hf : (w.lifecycles x).phase? f = some .published) :
    (w'.lifecycles x).phase? f = some .published := by
  rcases slotStep_of_step hinv hstep hx f with ⟨hnone, _⟩ | ⟨p, p', hp, hp', hphase⟩
  · cases hnone.symm.trans hf
  · cases hp.symm.trans hf
    rw [hp', hphase.absorbing (.inr rfl)]

/-! ## New sessions -/

/-- The files a session drawn by this section of a prepare is over. -/
def PrepareTask.drawsOver (t : PrepareTask) : PrepareAction → Option (AssocMap FileId FileMetadata)
  | .reserve .. => some t.request.files
  | .clearAwaiting .. => some t.grantedFiles
  | _ => none

/-- An id that is issued by a step is that of a new session, over files of its handler. -/
theorem allocated_of_step (hstep : w.step sha a = some w') {x : SessionId}
    (hx : x ∈ w'.issued) (hfresh : x ∉ w.issued) :
    ∃ h b t files, a = .prepare h b ∧ w.prepares h = some t ∧
      ((∃ token, b = .reserve x token) ∨ ∃ token, b = .clearAwaiting x token) ∧
      PrepareTask.drawsOver t b = some files ∧ w'.lifecycles x = Session.newLifecycle files := by
  have hsame : w'.issued = w.issued → False := fun h => hfresh (h ▸ hx)
  rcases prepareMove_of_step hstep with ⟨h, b, t', rfl, hsection, _, _⟩ | ⟨_, _, hissued, _⟩
  · -- only two of the sections issue an id
    have hplaced : ∀ (v : World) (t : PrepareTask) id token, v.issued = w.issued →
        x ∈ (v.placeReservation h t id token).issued →
        x = id ∧ (v.placeReservation h t id token).lifecycles x =
          Session.newLifecycle t.request.files := by
      intro v t id token hv hmem
      cases List.mem_cons.mp hmem with
      | inl heq =>
        subst heq
        exact ⟨rfl, Function.update_self ..⟩
      | inr hold => exact absurd (hv ▸ hold) hfresh
    cases hsection with
    | checkPin =>
      refine (hsame ?_).elim
      unfold checkPin
      dsimp only
      repeat' split
      all_goals rfl
    -- the reservation draws the id of the placeholder, if it takes place
    | @reserve t id token ht live phase hid =>
      rcases reserve_cases w h t id token with ⟨_, _, _, heq⟩ | ⟨_, heq⟩ | ⟨s, _, _, _, heq⟩
      · rw [heq] at hsame
        exact (hsame rfl).elim
      · rw [heq] at hx ⊢
        obtain ⟨hxid, hlife⟩ := hplaced w t id token rfl hx
        subst hxid
        exact ⟨h, _, t, _, rfl, ht, .inl ⟨token, rfl⟩, rfl, hlife⟩
      · rw [heq] at hx ⊢
        obtain ⟨hxid, hlife⟩ :=
          hplaced ((w.clearSlot s).observe (.sessionReclaimed s.id)) t id token
          rfl hx
        subst hxid
        exact ⟨h, _, t, _, rfl, ht, .inl ⟨token, rfl⟩, rfl, hlife⟩
    | sendRequest =>
      refine (hsame ?_).elim
      unfold sendRequest
      split <;> rfl
    | decide => exact (hsame rfl).elim
    -- an accepted offer draws the id of its session, if its guard is still there
    | @clearAwaiting t d id token ht live phase hd hid =>
      have hclear := (sameTasks_clearReservation w t).issued
      rcases clearAwaiting_cases w h t d id token with ⟨_, _, heq⟩ | ⟨_, _, heq⟩ | ⟨_, heq⟩
      · rw [heq] at hsame
        exact (hsame hclear).elim
      · rw [heq] at hsame
        exact (hsame hclear).elim
      · rw [heq] at hx ⊢
        cases List.mem_cons.mp hx with
        | inl hxid =>
          subst hxid
          refine ⟨h, _, t, t.grantedFiles, rfl, ht, .inr ⟨token, rfl⟩, rfl, ?_⟩
          simp only [PrepareTask.grantedFiles, hd]
          exact Function.update_self ..
        | inr hold => exact absurd (hclear ▸ hold) hfresh
    | refuse => exact (hsame (sameTasks_unwind w).issued).elim
    | decline => exact (hsame (sameTasks_unwind w).issued).elim
    | @install t s ht live phase =>
      refine (hsame ?_).elim
      unfold install
      dsimp only
      split <;> exact (sameTasks_unwind w).issued
    | deliverText => exact (hsame rfl).elim
    | drop => exact (hsame rfl).elim
  · exact (hsame hissued).elim

/-! ## The invariant -/

theorem lifecycleInv_start (c : ServerConfig) : (World.start c).LifecycleInv sha where
  prepare := prepareInv_start c
  wf _ _ h := by cases h
  session _ _ h := by cases h
  apart _ _ _ _ _ h := by cases h
  handles _ h := by cases h
  slots _ h := by rcases h with h | ⟨_, _, h, _⟩ <;> contradiction
  received _ h := by cases h

/-- The id of a hosted session was issued. -/
theorem LifecycleInv.issued_hosted (hinv : w.LifecycleInv sha) {s : Session} (hs : w.Hosted s) :
    s.id ∈ w.issued := by
  rcases hs with hs | ⟨h, t, ht, phase⟩
  · exact hinv.prepare.issued_current hs
  · have hwf := hinv.prepare.wf h t ht
    simp only [PrepareTask.Wf, phase] at hwf
    exact hinv.prepare.issued h t s.id ht (.inr hwf.2.1)

/-- A session about to be installed was so before the step, or is drawn by it. -/
theorem installing_of_step (hinv : w.PrepareInv) (hstep : w.step sha a = some w') {h : TaskId}
    {p' : PrepareTask} {s : Session} (hp' : w'.prepares h = some p')
    (phase' : p'.phase = .installing s) :
    (∃ p, w.prepares h = some p ∧ p.phase = .installing s) ∨
      (s.id ∈ w'.issued ∧ s.id ∉ w.issued ∧ ∃ h b t, a = .prepare h b ∧ w.prepares h = some t ∧
        PrepareTask.drawsOver t b = some s.files) := by
  -- the handler was installing, or it begins to
  rcases prepares_before hstep hp' with hp | ⟨b, rfl, hmove, heffect⟩
  · exact .inl ⟨p', hp, phase'⟩
  · generalize hold : w.prepares h = old at hmove
    cases hmove with
    -- the id was drawn as the handler was told to install
    | @toInstall t d id token phase hd hids hid =>
      cases phase'
      refine .inr ⟨?_, hid, h, _, t, rfl, hold, ?_⟩
      · rcases heffect.owned id (.inr rfl) with ⟨t₀, ht₀, hown⟩ | hin
        · exact absurd (hinv.issued h t₀ id ht₀ hown) hid
        · exact hin
      · simp only [PrepareTask.drawsOver, PrepareTask.grantedFiles, hd]
        rfl
    | dropped => exact .inl ⟨_, rfl, phase'⟩
    | reserved =>
      unfold PrepareTask.reservedAs at phase'
      split at phase' <;> simp at phase'
    | _ => simp at phase'

/-- A session hosted after a step was hosted before, perhaps without its last received
    file, or its id is issued by the step. -/
theorem hosted_of_step (hinv : w.PrepareInv) (hstep : w.step sha a = some w') {s' : Session}
    (hs' : w'.Hosted s') :
    (∃ s, w.Hosted s ∧ s'.id = s.id ∧ s'.files = s.files) ∨
      (s'.id ∈ w'.issued ∧ s'.id ∉ w.issued ∧ ∃ h b t, a = .prepare h b ∧ w.prepares h = some t ∧
        PrepareTask.drawsOver t b = some s'.files) := by
  rcases hs' with hs' | ⟨h, t', ht', phase'⟩
  · have hslot' : w'.slot.session = some s' := hs'
    -- by what the step does to the slot
    cases slotMove_of_step hstep with
    | keep slot | consented _ _ _ _ _ slot | withdrawnLate _ _ _ slot =>
      rw [slot] at hslot'
      exact .inl ⟨s', .inl hslot', rfl, rfl⟩
    -- the placeholder has the id that was drawn for it
    | place ht live phase fresh free after slot =>
      rw [slot] at hslot'
      cases hslot'
      have hissued := (prepareInv_step hinv hstep).issued _ _ _ after (.inl (by
        unfold PrepareTask.reservedAs
        split <;> rfl))
      exact .inr ⟨hissued, fresh, _, _, _, rfl, ht, rfl⟩
    | installed ht live phase slot =>
      rw [slot] at hslot'
      cases hslot'
      exact .inl ⟨s', .inr ⟨_, _, ht, phase⟩, rfl, rfl⟩
    | @recorded u t s _ hrec more slot =>
      rw [slot] at hslot'
      cases hslot'
      obtain ⟨hid, hfiles⟩ := markReceived_id s t.fileId w.now
      exact .inl ⟨s, .inl hrec.2.2.2.1, hid, hfiles⟩
    | refused _ _ _ slot | declined _ _ _ slot | delivered _ _ _ slot | withdrawn _ _ _ _ slot
    | cancelled _ _ _ _ _ slot | swept _ _ _ slot | stopped _ _ slot | completed _ _ slot =>
      rw [slot] at hslot'
      simp at hslot'
  -- a session that waits to be installed
  · rcases installing_of_step hinv hstep ht' phase' with ⟨p, hp, phase⟩ | hnew
    · exact .inl ⟨s', .inr ⟨h, p, hp, phase⟩, rfl, rfl⟩
    · exact .inr hnew

/-- An upload after a step was there before, with the same grant, or begins on the session
    in the slot. -/
theorem uploads_before (hstep : w.step sha a = some w') {u : TaskId} {t' : UploadTask}
    (ht' : w'.uploads u = some t') :
    w.uploads u = some t' ∨ ∃ b l, a = .upload u b ∧ UploadStep sha w u b w' ∧
      UploadMove sha w (w.uploads u) b t' l ∧ w.UploadEffect u t' l w' := by
  rcases uploadMove_of_step hstep with ⟨v, b, x, l, rfl, hsection, hmove, heffect⟩ | ⟨hsame, _⟩
  · by_cases hu : u = v
    · subst hu
      rw [heffect.uploads, Function.update_self] at ht'
      cases ht'
      exact .inr ⟨b, l, rfl, hsection, hmove, heffect⟩
    · rw [heffect.uploads, Function.update_of_ne hu] at ht'
      exact .inl ht'
  · rw [hsame] at ht'
    exact .inl ht'

/-- An upload that exists keeps existing, with at most one move. -/
theorem uploads_of_step (hstep : w.step sha a = some w') {u : TaskId} {t : UploadTask}
    (ht : w.uploads u = some t) :
    (w'.uploads u = some t ∧ ∀ b, a ≠ .upload u b) ∨
      ∃ b t' l, a = .upload u b ∧ t.dropped = false ∧ w'.uploads u = some t' ∧
        UploadMove sha w (some t) b t' l ∧ w.UploadEffect u t' l w' := by
  rcases uploadMove_of_step hstep with ⟨v, b, t', l, rfl, hsection, hmove, heffect⟩ |
      ⟨hsame, hcause⟩
  · by_cases hu : u = v
    · subst hu
      rw [ht] at hmove
      refine .inr ⟨b, t', l, rfl, hsection.live ht, ?_, hmove, heffect⟩
      rw [heffect.uploads, Function.update_self]
    · refine .inl ⟨by rw [heffect.uploads, Function.update_of_ne hu, ht], fun b' hb' => ?_⟩
      cases hb'
      exact hu rfl
  · refine .inl ⟨by rw [hsame, ht], fun b hb => ?_⟩
    rcases hcause with hne | ⟨v, _, hv, hnone, _⟩
    · exact hne u b hb
    · cases hb.symm.trans hv
      cases ht.symm.trans hnone

/-- The handle of an upload fits the slot of its file. -/
theorem LifecycleInv.fits (hinv : w.LifecycleInv sha) {u : TaskId} {t : UploadTask}
    {handle : ReceiveHandle} (ht : w.uploads u = some t) (hhandle : t.handle = some handle) :
    handle.Fits ((w.lifecycles t.grant.sessionId).phase? handle.file) := by
  have hheld : (w.handleState t.grant.sessionId).handles u = some handle := by
    simp only [handleState, ht, Option.bind_some, if_true, hhandle]
  exact (HandleState.inv_of_reachable (hinv.handles _ (hinv.session u t ht))).fits u _ hheld

/-- The slot of a live permit is publishing. -/
theorem LifecycleInv.publishing_of_permit (hinv : w.LifecycleInv sha) {u : TaskId}
    {t : UploadTask} (ht : w.uploads u = some t) (hpermit : t.handle = some (.permit t.fileId)) :
    (w.lifecycles t.grant.sessionId).phase? t.fileId = some .publishing :=
  hinv.fits ht hpermit

/-- A file that is recorded is published in the same section. -/
theorem published_of_recorded (hinv : w.LifecycleInv sha) {u : TaskId} {t : UploadTask}
    {s : Session} (hstep : w.step sha (.upload u .record) = some w') (hrec : w.Recording u t s) :
    (w'.lifecycles s.id).phase? t.fileId = some .published := by
  obtain ⟨ht, live, ⟨path, phase⟩, hs, hid⟩ := hrec
  have hpermit : t.handle = some (.permit t.fileId) := (hinv.wf u t ht).held_of live phase
  have hfits := hinv.publishing_of_permit ht hpermit
  cases step_upload hstep with
  | @record t₀ path₀ ht₀ live₀ phase₀ =>
    cases ht.symm.trans ht₀
    rcases record_cases w u t path₀ with ⟨c, _, _, heffect⟩ | ⟨hgone, _⟩
    · have hlife : (w.record u t path₀).lifecycles t.grant.sessionId =
          (w.lifecycles t.grant.sessionId).finish t.fileId := by
        rw [heffect.lifecycles]
        exact Function.update_self ..
      rw [hid, hlife, phase?_finish, if_pos rfl, hfits]
      rfl
    · exact absurd hid (hgone s hs)

/-- Every step keeps the invariant. -/
theorem lifecycleInv_step (hinv : w.LifecycleInv sha) (hstep : w.step sha a = some w') :
    w'.LifecycleInv sha := by
  -- an upload is on its session from the start, and that session was in the slot
  have hsession : ∀ u t', w'.uploads u = some t' →
      (∃ t, w.uploads u = some t ∧ t'.grant = t.grant) ∨
        ∃ c, w.state.currentSession = some c ∧ t'.grant.sessionId = c.id := by
    intro u t' ht'
    rcases uploads_before hstep ht' with ht | ⟨b, l, _, _, hmove, _⟩
    · exact .inl ⟨t', ht, rfl⟩
    · generalize hold : w.uploads u = old at hmove
      cases old with
      | some t => exact .inl ⟨t, rfl, hmove.grant_eq.2⟩
      | none =>
        cases hmove with
        | began hs => exact .inr ⟨_, hs, rfl⟩
  have hissued : ∀ u t', w'.uploads u = some t' → t'.grant.sessionId ∈ w.issued := by
    intro u t' ht'
    rcases hsession u t' ht' with ⟨t, ht, hgrant⟩ | ⟨c, hc, hid⟩
    · rw [hgrant]
      exact hinv.session u t ht
    · rw [hid]
      exact hinv.prepare.issued_current hc
  have hprepare := prepareInv_step hinv.prepare hstep
  refine ⟨hprepare, ?_, ?_, ?_, ?_, ?_, ?_⟩
  · intro u t' ht'
    rcases uploads_before hstep ht' with ht | ⟨b, l, _, hsection, hmove, _⟩
    · exact hinv.wf u t' ht
    · exact hmove.wf fun t ht => ⟨hinv.wf u t ht, hsection.live ht⟩
  · exact fun u t ht => issued_mono hstep (hissued u t ht)
  -- an upload's session is not one that waits to be installed
  · intro u t' h p' s ht' hp' phase' hid
    rcases installing_of_step hinv.prepare hstep hp' phase' with ⟨p, hp, phase⟩ | ⟨_, hfresh, _⟩
    · rcases hsession u t' ht' with ⟨t, ht, hgrant⟩ | ⟨c, hc, hcid⟩
      · exact hinv.apart u t h p s ht hp phase (hid.trans (congrArg UploadGrant.sessionId hgrant))
      · exact hinv.prepare.ne_installing hc hp phase (hid.trans hcid)
    · exact hfresh (hid ▸ hissued u t' ht')
  · intro x hx
    by_cases hold : x ∈ w.issued
    · rcases handleStep_of_step hinv hstep hold with heq | ⟨b, hb⟩
      · rw [heq]
        exact hinv.handles x hold
      · exact (hinv.handles x hold).step hb
    · -- a new session: no upload is on it yet
      obtain ⟨_, _, _, files, _, _, _, _, hlife⟩ := allocated_of_step hstep hx hold
      refine .init ⟨files, ?_⟩
      simp only [handleState, hlife, HandleState.mk.injEq, true_and]
      funext u
      cases ht : w'.uploads u with
      | none => rfl
      | some t =>
        have hne : t.grant.sessionId ≠ x := fun heq => hold (heq ▸ hissued u t ht)
        rw [Option.bind_some, if_neg hne]
  -- the slots are those of the session's files
  · intro s' hs' f
    rcases hosted_of_step hinv.prepare hstep hs' with
      ⟨s, hs, hid, hfiles⟩ | ⟨hissued, hfresh, h, b, t, rfl, ht, hdraws⟩
    · rw [hid, hfiles, slots_of_step hinv hstep (hinv.issued_hosted hs)]
      exact hinv.slots s hs f
    · obtain ⟨h₀, b₀, t₀, files, ha, ht₀, _, hdraws₀, hlife⟩ :=
        allocated_of_step hstep hissued hfresh
      cases ha
      cases ht.symm.trans ht₀
      cases hdraws.symm.trans hdraws₀
      rw [hlife, phase?_newLifecycle, Option.isSome_map]
      rfl
  -- what the session has received is published
  · intro s' hs' f hf
    have hslot' : w'.slot.session = some s' := hs'
    cases slotMove_of_step hstep with
    | keep slot | consented _ _ _ _ _ slot | withdrawnLate _ _ _ slot =>
      rw [slot] at hslot'
      have hissued := hinv.prepare.issued_current hslot'
      exact published_of_step hinv hstep hissued (hinv.received s' hslot' f hf)
    | place _ _ _ _ _ _ slot =>
      rw [slot] at hslot'
      cases hslot'
      exact absurd hf (Finset.notMem_empty f)
    | @installed h t s _ ht live phase slot =>
      rw [slot] at hslot'
      cases hslot'
      have hwf := hinv.prepare.wf h t ht
      simp only [PrepareTask.Wf, phase] at hwf
      obtain ⟨_, _, token, now, hnew⟩ := hwf
      rw [hnew] at hf
      exact absurd hf (Finset.notMem_empty f)
    -- the file that is recorded now, and those before it
    | @recorded u t s _ hrec more slot =>
      rw [slot] at hslot'
      cases hslot'
      have hs := hrec.2.2.2.1
      rw [(markReceived_id s t.fileId w.now).1]
      by_cases hft : f = t.fileId
      · subst hft
        exact published_of_recorded hinv hstep hrec
      · have hmem : f ∈ s.received := by
          unfold Session.markReceived at hf
          split at hf
          · exact (Finset.mem_insert.mp hf).resolve_left hft
          · exact hf
        exact published_of_step hinv hstep (hinv.prepare.issued_current hs)
          (hinv.received s hs f hmem)
    | refused _ _ _ slot | declined _ _ _ slot | delivered _ _ _ slot | withdrawn _ _ _ _ slot
    | cancelled _ _ _ _ _ slot | swept _ _ _ slot | stopped _ _ slot | completed _ _ slot =>
      rw [slot] at hslot'
      simp at hslot'

/-- Uploads, handles, slots and `received` fit together in every reachable world. -/
theorem lifecycleInv_of_reachable (h : (receiver sha).Reachable w) : w.LifecycleInv sha := by
  refine (receiver sha).reachable_induction (LifecycleInv sha) ?_ (fun _ _ _ => lifecycleInv_step) h
  rintro w ⟨c, rfl⟩
  exact lifecycleInv_start c

end World

end LocalSend
