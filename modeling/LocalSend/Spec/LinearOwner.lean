import LocalSend.ForStd.Custody
import LocalSend.Spec.OwnerMoves

/-!
# Linear owners

The gate hands an owner out once. It is then in the hands of the prepare that asked for it,
or in the protected session, until `receive` or `cancel` consumes it. The owners so move
as the resources of `ForStd.Custody` do, whatever the order of the steps.

## Key results

- `custody_step`: every step of the protected receiver is a step of custody
- `Linked.step`: which session each handler, the slot and the record speak of
- `linear_owner`: an owner is consumed once, by the upload that presents its session
-/

namespace LocalSend

/-- Where an owner can be before it is consumed. -/
inductive Place where
  | prepare (h : TaskId)
  | slot
deriving DecidableEq

/-- Whether an upload is between the two lock sections that write and clear the record of
    the running upload. -/
def ProtectedUploadPhase.recorded : ProtectedUploadPhase → Bool
  | .receiving | .finishing _ => true
  | _ => false

/-- The session a prepare holds the owner of. -/
def ProtectedPreparePhase.held : ProtectedPreparePhase → Option CrossCopyAuthorizedSession
  | .installing s => some s
  | _ => none

namespace ProtectedWorld

/-- The session whose owner is at a place. -/
def held (p : ProtectedWorld) : Place → Option CrossCopyAuthorizedSession
  | .prepare h => (p.prepares h).bind fun t => t.phase.held
  | .slot => p.world.protection.session

/-- How often an owner has been consumed: the calls of `cancel` and of `receive` on it. -/
def consumed (p : ProtectedWorld) (o : OwnerId) : Nat :=
  p.world.protection.owners.count (.ownerCancelled o) +
    (p.received.map fun call => call.session.owner).count o

/-- The custody of the owners. -/
def custody (p : ProtectedWorld) : Custody Place OwnerId where
  held := fun a => (p.held a).map CrossCopyAuthorizedSession.owner
  issued := fun o => o ∈ p.taken
  spent := p.consumed

/-! ## Every step is a step of custody -/

@[simp] theorem held_setPrepare (p : ProtectedWorld) (h : TaskId) (t : ProtectedPrepare) :
    (p.setPrepare h t).held = Function.update p.held (.prepare h) t.phase.held := by
  funext a
  cases a with
  | slot => simp [held, setPrepare]
  | prepare h' =>
    by_cases hh : h' = h
    · subst hh
      simp [held, setPrepare]
    · simp [held, setPrepare, Function.update_of_ne, hh]

theorem held_prepare {p : ProtectedWorld} {h : TaskId} {t : ProtectedPrepare}
    (ht : p.prepares h = some t) : p.held (.prepare h) = t.phase.held := by
  simp [held, ht]

/-- What custody depends on. -/
theorem custody_congr {p p' : ProtectedWorld} (hheld : p'.held = p.held)
    (hsessions : p'.sessions = p.sessions) (howners : p'.world.protection.owners =
      p.world.protection.owners) (hreceived : p'.received = p.received) :
      p'.custody = p.custody := by
  unfold custody taken
  simp only [hheld, hsessions, Custody.mk.injEq, true_and]
  funext o
  simp only [consumed, howners, hreceived]

/-- A prepare that holds no owner before and after it moves keeps custody as it is. -/
theorem custody_setPrepare {p : ProtectedWorld} {h : TaskId} {t t' : ProtectedPrepare}
    (ht : p.prepares h = some t) (hheld : t'.phase.held = t.phase.held) :
    (p.setPrepare h t').custody = p.custody := by
  refine custody_congr ?_ rfl rfl rfl
  rw [held_setPrepare, hheld, ← held_prepare ht, Function.update_eq_self]

/-- Writing one place of `held` writes it in custody. -/
theorem map_update (f : Place → Option CrossCopyAuthorizedSession) (a : Place)
    (s : Option CrossCopyAuthorizedSession) :
    (fun b => (Function.update f a s b).map CrossCopyAuthorizedSession.owner) =
      Function.update (fun b => (f b).map CrossCopyAuthorizedSession.owner) a
        (s.map CrossCopyAuthorizedSession.owner) := by
  funext b
  by_cases hb : b = a
  · subst hb
    simp
  · simp [Function.update_of_ne hb]

/-- One more call of `cancel` on `o`. -/
theorem consumed_cancelled {p p' : ProtectedWorld} {o : OwnerId} {signals : List Observation}
    (hsignals : ∀ x, Observation.ownerCancelled x ∉ signals)
    (howners : p'.world.protection.owners =
      p.world.protection.owners ++ signals ++ [.ownerCancelled o])
    (hreceived : p'.received = p.received) :
    p'.consumed = Function.update p.consumed o (p.consumed o + 1) := by
  funext x
  have hcount : signals.count (.ownerCancelled x) = 0 := List.count_eq_zero.mpr (hsignals x)
  unfold consumed
  rw [howners, hreceived, List.count_append, List.count_append, hcount]
  by_cases hx : x = o
  · subst hx
    simp
    omega
  · have hne : (Observation.ownerCancelled o) ≠ .ownerCancelled x := by
      simpa using Ne.symm hx
    simp [Function.update_of_ne hx, hne]

/-- One more call of `receive` on `o`. -/
theorem consumed_received {p p' : ProtectedWorld} {call : ReceiveCall}
    (howners : p'.world.protection.owners = p.world.protection.owners)
    (hreceived : p'.received = p.received ++ [call]) :
    p'.consumed = Function.update p.consumed call.session.owner
      (p.consumed call.session.owner + 1) := by
  funext x
  unfold consumed
  rw [howners, hreceived, List.map_append, List.count_append]
  by_cases hx : x = call.session.owner
  · subst hx
    simp
    omega
  · simp [Function.update_of_ne hx, Ne.symm hx]

/-- Taking the session out of the slot and consuming its owner spends it. -/
theorem custody_spend_slot {p p' : ProtectedWorld} {s : CrossCopyAuthorizedSession}
    (hs : p.world.protection.session = some s) (hprepares : p'.prepares = p.prepares)
    (hslot : p'.world.protection.session = none) (hsessions : p'.sessions = p.sessions)
    (hconsumed : p'.consumed = Function.update p.consumed s.owner (p.consumed s.owner + 1)) :
    p.custody.Step p'.custody := by
  have hheld : p'.held = Function.update p.held .slot none := by
    funext a
    cases a <;> simp [held, hprepares, hslot]
  have hcustody : p'.custody = ⟨Function.update p.custody.held .slot none, p.custody.issued,
      Function.update p.custody.spent s.owner (p.custody.spent s.owner + 1)⟩ := by
    simp only [custody, taken, hheld, hsessions, hconsumed, map_update, Option.map_none]
  rw [hcustody]
  apply Custody.Step.spend
  simp [custody, held, hs]

theorem custody_move {p p' : ProtectedWorld}
    (hmove : p.world.protection.Move p'.world.protection) (same : p.SameHandlers p') :
    p.custody.Step p'.custody := by
  -- with the slot and the counts as they were, nothing has moved
  have hkeep : p'.world.protection.session = p.world.protection.session →
      (∀ o, p'.world.protection.owners.count (.ownerCancelled o) =
        p.world.protection.owners.count (.ownerCancelled o)) → p'.custody = p.custody := by
    intro hsession hcount
    have hheld : p'.held = p.held := by
      funext a
      cases a <;> simp [held, same.prepares, hsession]
    have hconsumed : p'.consumed = p.consumed := by
      funext o
      simp only [consumed, hcount, same.received]
    simp only [custody, taken, hheld, same.sessions, hconsumed]
  generalize hq : p'.world.protection = q at hmove
  cases hmove with
  | keep =>
    rw [hkeep (by rw [hq]) fun o => by rw [hq]]
    exact .keep
  | @cancelled s hs =>
    refine custody_spend_slot hs same.prepares (by rw [hq]) same.sessions ?_
    exact consumed_cancelled (fun _ => List.not_mem_nil) (by rw [hq, List.append_nil]) same.received
  | signalled ha =>
    rw [hkeep (by rw [hq]) fun o => by simp [hq]]
    exact .keep
  | stopped =>
    -- `stop` signals the active upload; that consumes no owner
    have hsignals : ∀ x, Observation.ownerCancelled x ∉
        (p.world.protection.activeUpload.map fun a =>
          Observation.ownerSignalled a.owner).toList := by
      intro x
      cases p.world.protection.activeUpload <;> simp
    cases hs : p.world.protection.session with
    | none =>
      rw [hkeep (by simp [hq, hs, Protection.stop]) fun o => ?_]
      · exact .keep
      · simp [hq, hs, Protection.stop, List.count_eq_zero.mpr (hsignals o)]
    | some s =>
      refine custody_spend_slot hs same.prepares (by simp [hq, Protection.stop]) same.sessions ?_
      exact consumed_cancelled hsignals (by simp [hq, hs, Protection.stop]) same.received

/-- The gate's answer puts a fresh owner into the hands of the prepare. -/
theorem custody_gateAnswered {p : ProtectedWorld} {h : TaskId} {t : ProtectedPrepare}
    {owner : Option OwnerId} {id : SessionId} {token : Token} (ht : p.prepares h = some t)
    (phase : t.phase = .taking) (fresh : ∀ o ∈ owner, o ∉ p.taken) :
    p.custody.Step (p.gateAnswered h t owner id token).custody := by
  have hnone : t.phase.held = none := by rw [phase]; rfl
  -- the gate refuses, or gives out an owner nobody has had
  cases owner with
  | none =>
    have hkeep : (p.gateAnswered h t none id token).custody = p.custody :=
      custody_setPrepare ht hnone.symm
    rw [hkeep]
    exact .keep
  | some o =>
    -- the owner is held by the handler that asked
    let s : CrossCopyAuthorizedSession := ⟨id, t.prepare.metadata.fileId, token, o, p.world.now⟩
    have hheld : (p.gateAnswered h t (some o) id token).held =
        Function.update p.held (.prepare h) (some s) :=
      held_setPrepare p h { t with phase := .installing s }
    have hcustody : (p.gateAnswered h t (some o) id token).custody =
        ⟨Function.update p.custody.held (.prepare h) (some o), fun x => x = o ∨ p.custody.issued x,
          p.custody.spent⟩ := by
      simp only [custody, hheld, map_update, Custody.mk.injEq]
      refine ⟨rfl, ?_, rfl⟩
      funext x
      simp [taken, gateAnswered]
    rw [hcustody]
    refine .issue ?_ (fresh o rfl)
    simp [custody, held_prepare ht, hnone]

/-- After the lock section of the install the handler holds nothing; the slot has what is there. -/
theorem held_install (p : ProtectedWorld) (h : TaskId) (t : ProtectedPrepare)
    (s : CrossCopyAuthorizedSession) :
    (p.install h t s).held = Function.update (Function.update p.held (.prepare h) none) .slot
      (p.install h t s).world.protection.session := by
  -- the handler answers in every case
  have hgone : ∀ q, (p.install h t s).prepares h = some q → q.phase.held = none := by
    intro q hq
    simp only [install, setPrepare, Function.update_self, Option.some.injEq] at hq
    subst hq
    dsimp only
    repeat' split
    all_goals rfl
  -- whatever the slot had, the handler holds nothing now
  funext a
  cases a with
  | slot =>
    rw [Function.update_self]
    rfl
  | prepare h' =>
    rw [Function.update_of_ne (by simp)]
    by_cases hh : h' = h
    · subst hh
      rw [Function.update_self]
      cases hp : (p.install h' t s).prepares h' with
      | none => simp [held, hp]
      | some q => simp [held, hp, hgone q hp]
    · rw [Function.update_of_ne (by simpa using hh)]
      simp [held, install, setPrepare, Function.update_of_ne hh]

/-- The lock section after the gate moves the owner into the slot, or spends it. -/
theorem custody_install {p : ProtectedWorld} {h : TaskId} {t : ProtectedPrepare}
    {s : CrossCopyAuthorizedSession} (ht : p.prepares h = some t)
    (phase : t.phase = .installing s) : p.custody.Step (p.install h t s).custody := by
  have hprotection := World.protection_installCrosscopy p.world s
  have hholds : p.custody.held (.prepare h) = some s.owner := by
    simp [custody, held_prepare ht, phase, ProtectedPreparePhase.held]
  have hheld := p.held_install h t s
  by_cases hfull : p.world.protection.stopping ∨ p.world.protection.session.isSome
  · rw [if_pos hfull] at hprotection
    have hslot : (p.install h t s).world.protection.session = p.world.protection.session :=
      (congrArg Protection.session hprotection :)
    -- the slot is taken or closed: the owner is spent
    have hsame : Function.update (Function.update p.held (.prepare h) none) .slot
        p.world.protection.session = Function.update p.held (.prepare h) none := by
      rw [Function.update_eq_self_iff]
      rfl
    have hconsumed : (p.install h t s).consumed =
        Function.update p.consumed s.owner (p.consumed s.owner + 1) :=
      consumed_cancelled (fun _ => List.not_mem_nil)
        ((congrArg Protection.owners hprotection).trans (by rw [List.append_nil])) rfl
    have hcustody : (p.install h t s).custody = ⟨Function.update p.custody.held (.prepare h) none,
        p.custody.issued,
        Function.update p.custody.spent s.owner (p.custody.spent s.owner + 1)⟩ := by
      simp only [custody, hheld, hslot, hsame, hconsumed, map_update, Option.map_none]
      rfl
    rw [hcustody]
    exact .spend hholds
  · rw [if_neg hfull] at hprotection
    -- the slot is free: the owner moves into it
    have hempty : p.world.protection.session = none := by simpa using fun h => hfull (.inr h)
    have hcustody : (p.install h t s).custody = ⟨Function.update
        (Function.update p.custody.held (.prepare h) none) .slot (some s.owner),
        p.custody.issued, p.custody.spent⟩ := by
      -- nobody is told, so nothing is spent
      have hspent : (p.install h t s).consumed = p.consumed := by
        funext o
        unfold consumed
        rw [show (p.install h t s).world.protection.owners = p.world.protection.owners from
          (congrArg Protection.owners hprotection :)]
        rfl
      have hslot : (p.install h t s).world.protection.session = some s :=
        (congrArg Protection.session hprotection :)
      simp only [custody, hheld, hslot, hspent, map_update, Option.map_none, Option.map_some]
      rfl
    rw [hcustody]
    refine .move hholds ?_
    simp [custody, held, hempty]

/-- What the first lock section of an upload does, when it takes the protected session out. -/
theorem beginUpload_cases (p : ProtectedWorld) (u : TaskId) (x : SessionId) (f : FileId)
    (tok : Token) :
    (p.beginUpload u x f tok = p ∧
      (p.world.beginUpload u x f tok).protection = p.world.protection) ∨
    ∃ s, p.world.protection.session = some s ∧ s.sessionId = x ∧
      (((s.fileId ≠ f ∨ s.uploadToken ≠ tok) ∧
        p.beginUpload u x f tok = p.setUpload u ⟨s, false, .cancelling⟩ ∧
        (p.world.beginUpload u x f tok).protection = { p.world.protection with
          session := none, owners := p.world.protection.owners ++ [.ownerCancelled s.owner] }) ∨
      (s.fileId = f ∧ s.uploadToken = tok ∧
        p.beginUpload u x f tok = { p.setUpload u ⟨s, false, .receiving⟩ with
          received := p.received ++ [⟨s, x, f, tok⟩] } ∧
        (p.world.beginUpload u x f tok).protection = { p.world.protection with
          session := none, activeUpload := some ⟨s.sessionId, s.owner⟩ })) := by
  rw [World.protection_beginUpload]
  unfold beginUpload
  -- the session waits for an upload of its id
  cases hs : p.world.state.crosscopyAuthorizedSession.filter fun s => s.sessionId = x with
  | none => exact .inl ⟨rfl, rfl⟩
  | some s =>
    obtain ⟨hsession, hid⟩ := Option.filter_eq_some_iff.mp hs
    refine .inr ⟨s, hsession, by simpa using hid, ?_⟩
    -- the wrong credentials end the session, the right ones start its upload
    by_cases hwrong : s.fileId ≠ f ∨ s.uploadToken ≠ tok
    · exact .inl ⟨hwrong, if_pos hwrong, if_pos hwrong⟩
    · obtain ⟨hf, htok⟩ := not_or.mp hwrong
      exact .inr ⟨Classical.not_not.mp hf, Classical.not_not.mp htok, if_neg hwrong, if_neg hwrong⟩

theorem custody_beginUpload (p : ProtectedWorld) (u : TaskId) (x : SessionId) (f : FileId)
    (tok : Token) : p.custody.Step
      { p.beginUpload u x f tok with world := p.world.beginUpload u x f tok }.custody := by
  rcases p.beginUpload_cases u x f tok with
    ⟨hp, hw⟩ | ⟨s, hs, _, ⟨_, hp, hw⟩ | ⟨_, _, hp, hw⟩⟩ <;> rw [hp]
  · refine .of_eq (custody_congr ?_ rfl (congrArg Protection.owners hw :) rfl)
    funext a
    cases a with
    | prepare => rfl
    | slot => exact congrArg Protection.session hw
  · refine custody_spend_slot hs rfl (congrArg Protection.session hw :) rfl ?_
    exact consumed_cancelled (fun _ => List.not_mem_nil)
      ((congrArg Protection.owners hw).trans (by rw [List.append_nil])) rfl
  · refine custody_spend_slot hs rfl (congrArg Protection.session hw :) rfl ?_
    exact @consumed_received p _ ⟨s, x, f, tok⟩ (congrArg Protection.owners hw :) rfl

/-- Every step of the protected receiver is a step of custody. -/
theorem custody_step {p p' : ProtectedWorld} {a : ProtectedAction} (hstep : p.Step a p') :
    p.custody.Step p'.custody := by
  -- sections that leave a prepare what it holds, and all of an upload but its beginning
  have hquiet : ∀ {h t t'}, p.prepares h = some t → t'.phase.held = t.phase.held →
      p.custody.Step (p.setPrepare h t').custody := by
    intro h t t' ht hheld
    exact .of_eq (custody_setPrepare ht hheld)
  have hupload : ∀ {u t w'}, w'.protection = p.world.protection →
      p.custody.Step { p.setUpload u t with world := w' }.custody := by
    intro u t w' hw
    refine .of_eq (custody_congr ?_ rfl (congrArg Protection.owners hw :) rfl)
    funext a
    cases a with
    | prepare => rfl
    | slot => exact congrArg Protection.session hw
  cases hstep with
  | receiver move same => exact custody_move move same
  | @begin_ h values request fresh =>
    -- a request that is malformed is not even a task
    unfold beginPrepare
    split
    · rename_i prepare _
      refine .of_eq (custody_congr ?_ rfl rfl rfl)
      rw [held_setPrepare]
      refine Function.update_eq_self_iff.mpr ?_
      simp [held, fresh, ProtectedPreparePhase.held]
    · exact .keep
  -- before an owner is taken the handler holds none
  | @preflight h t ht live phase =>
    unfold preflight
    repeat' split
    all_goals exact hquiet ht (by rw [phase]; rfl)
  | @askGate h t ht live phase =>
    refine hquiet ht ?_
    rw [phase]
    cases p.gate <;> rfl
  -- the gate gives, the install moves or spends
  | gateAnswered ht live phase fresh hid => exact custody_gateAnswered ht phase fresh
  | install ht live phase => exact custody_install ht phase
  | prepareCancelled ht live phase => exact hquiet ht (by rw [phase]; rfl)
  | dropPrepare ht live awaits => exact hquiet ht rfl
  | beginUpload fresh => exact custody_beginUpload p _ _ _ _
  | uploadCancelled | received => exact hupload rfl
  | dropUpload _ _ _ same | awaitRoom _ _ same => exact hupload same
  | @finish u t result ht live phase =>
    have hprotection := World.protection_finishCrosscopy p.world t.session.sessionId
    -- the last section of an upload clears the record, not the session
    have hkeep : (p.world.finishCrosscopy t.session.sessionId).protection.session =
        p.world.protection.session ∧
        (p.world.finishCrosscopy t.session.sessionId).protection.owners =
          p.world.protection.owners := by
      rw [hprotection]
      split <;> exact ⟨rfl, rfl⟩
    -- the owner was spent when the upload took the session
    refine .of_eq (custody_congr ?_ rfl (hkeep.2 :) rfl)
    funext a
    cases a with
    | prepare => rfl
    | slot => exact hkeep.1
  | announce ht live phase sent => exact hupload sent
  | close ht live phase sent => exact hupload sent

/-! ## Which session everything speaks of -/

/-- The sessions are told apart by owner and by id. An upload's session is spent and its
    own, and the record names an upload that has not been through its last lock section. -/
structure Linked (p : ProtectedWorld) : Prop where
  linear : p.custody.Linear
  owners : p.taken.Nodup
  ids : p.ids.Nodup
  held : ∀ a s, p.held a = some s → s ∈ p.sessions
  uploads : ∀ u t, p.uploads u = some t → t.session ∈ p.sessions ∧ 0 < p.consumed t.session.owner
  ownSession : ∀ u v t t', p.uploads u = some t → p.uploads v = some t' →
    t.session = t'.session → u = v
  active : ∀ a, p.world.protection.activeUpload = some a → ∃ u t, p.uploads u = some t ∧
    a = ⟨t.session.sessionId, t.session.owner⟩ ∧ t.phase.recorded = true
  stopping : p.world.protection.stopping = true → p.world.protection.session = none

theorem linked_start (c : ServerConfig) (gate : Bool) : (ProtectedWorld.start c gate).Linked where
  -- nobody holds an owner at the start, and none has been given out
  linear := by
    have hheld : ∀ a, (ProtectedWorld.start c gate).held a = none := fun a => by cases a <;> rfl
    have hcustody : ∀ a, (ProtectedWorld.start c gate).custody.held a = none := fun a => by
      simp [custody, hheld]
    have hspent : ∀ o, (ProtectedWorld.start c gate).custody.spent o = 0 := fun o => rfl
    constructor
    · intro a b o ha
      cases (hcustody a).symm.trans ha
    · exact fun a o _ => hspent o
    · intro o
      rw [hspent]
      omega
    · intro o
      refine iff_of_false (fun h => (by cases h)) ?_
      rintro (h | ⟨a, ha⟩)
      · rw [hspent] at h
        simp at h
      · cases (hcustody a).symm.trans ha
  owners := List.nodup_nil
  ids := List.nodup_nil
  held a s ha := by cases a <;> contradiction
  uploads u t ht := by cases ht
  ownSession u v t t' ht := by cases ht
  active a ha := by cases ha
  stopping h := by cases h

/-- An upload's owner is nowhere any more. -/
theorem Linked.not_held {p : ProtectedWorld} (h : p.Linked) {u : TaskId} {t : ProtectedUpload}
    (ht : p.uploads u = some t) (a : Place) : p.held a ≠ some t.session := by
  intro ha
  have hzero : p.consumed t.session.owner = 0 := h.linear.unspent a _ (by simp [custody, ha])
  have hpos := (h.uploads u t ht).2
  omega

/-- Two sessions with one id are the same. -/
theorem Linked.session_eq {p : ProtectedWorld} (h : p.Linked) {s s' : CrossCopyAuthorizedSession}
    (hs : s ∈ p.sessions) (hs' : s' ∈ p.sessions) (hid : s.sessionId = s'.sessionId) : s = s' :=
  List.inj_on_of_nodup_map h.ids hs hs' hid

/-- What a step has to respect to keep the links, when it builds no session. -/
theorem Linked.of_frame {p p' : ProtectedWorld} (h : p.Linked) (hstep : p.custody.Step p'.custody)
    (hsessions : p'.sessions = p.sessions)
    (hheld : ∀ a s, p'.held a = some s → ∃ b, p.held b = some s)
    (huploads : ∀ u t', p'.uploads u = some t' →
      (∃ t, p.uploads u = some t ∧ t'.session = t.session) ∨
        (∃ b, p.held b = some t'.session) ∧ 0 < p'.consumed t'.session.owner ∧
          ∀ v t, v ≠ u → p'.uploads v = some t → p.uploads v = some t)
    (hactive : ∀ a, p'.world.protection.activeUpload = some a → ∃ u t, p'.uploads u = some t ∧
      a = ⟨t.session.sessionId, t.session.owner⟩ ∧ t.phase.recorded = true)
    (hstopping : p'.world.protection.stopping = true → p'.world.protection.session = none) :
    p'.Linked where
  linear := h.linear.step hstep
  owners := by
    unfold taken
    rw [hsessions]
    exact h.owners
  ids := by
    unfold ProtectedWorld.ids
    rw [hsessions]
    exact h.ids
  held a s ha := by
    obtain ⟨b, hb⟩ := hheld a s ha
    exact hsessions ▸ h.held b s hb
  -- an upload keeps its session, or is the one that has just taken it
  uploads u t' ht' := by
    rcases huploads u t' ht' with ⟨t, ht, hsession⟩ | ⟨⟨b, hb⟩, hpos, _⟩
    · obtain ⟨hmem, hpos⟩ := h.uploads u t ht
      rw [hsession, hsessions]
      exact ⟨hmem, Nat.lt_of_lt_of_le hpos (hstep.spent_le _)⟩
    · exact ⟨hsessions ▸ h.held b _ hb, hpos⟩
  -- sessions are spent by the upload that took them, so a new one shares none
  ownSession u v t t' ht ht' hsession := by
    apply Classical.byContradiction
    intro hne
    rcases huploads u t ht with ⟨q, hq, hu⟩ | ⟨⟨b, hb⟩, _, hrest⟩
    · rcases huploads v t' ht' with ⟨q', hq', hv⟩ | ⟨⟨b, hb⟩, _, hrest⟩
      · exact hne (h.ownSession u v q q' hq hq' (by rw [← hu, ← hv, hsession]))
      · exact h.not_held (hrest u t hne ht) b (hsession ▸ hb)
    · exact h.not_held (hrest v t' (Ne.symm hne) ht') b (hsession ▸ hb)
  active := hactive
  stopping := hstopping

/-- A move of the shared sections takes out of the slot and of the record at most. -/
theorem move_shrinks {q q' : Protection} (hmove : q.Move q') :
    (∀ s, q'.session = some s → q.session = some s) ∧
      (∀ a, q'.activeUpload = some a → q.activeUpload = some a) ∧
      (q'.stopping = true → q'.session = none ∨ q.stopping = true) := by
  cases hmove with
  | keep => exact ⟨fun s hs => hs, fun a ha => ha, .inr⟩
  | cancelled hs => exact ⟨fun s hs' => (by cases hs'), fun a ha => ha, .inr⟩
  | signalled ha => exact ⟨fun s hs => hs, fun a ha' => ha', .inr⟩
  | stopped => exact ⟨fun s hs => (by cases hs), fun a ha => (by cases ha), fun _ => .inl rfl⟩

/-- A step of a protected prepare that builds and installs nothing keeps the links. -/
theorem Linked.setPrepare {p : ProtectedWorld} (h : p.Linked) {i : TaskId} {t' : ProtectedPrepare}
    (hcustody : p.custody.Step (p.setPrepare i t').custody)
    (hheld : t'.phase.held = p.held (.prepare i)) : (p.setPrepare i t').Linked := by
  have hsame : (p.setPrepare i t').held = p.held := by
    rw [held_setPrepare, hheld, Function.update_eq_self]
  exact h.of_frame hcustody rfl (fun a s ha => ⟨a, by rw [← hsame]; exact ha⟩)
    (fun u t ht => .inl ⟨t, ht, rfl⟩) h.active h.stopping

/-- A step of a protected upload keeps the links, if it leaves the record to whom it names. -/
theorem Linked.setUpload {p : ProtectedWorld} (h : p.Linked) {u : TaskId} {t t' : ProtectedUpload}
    {w' : World} (hcustody : p.custody.Step { p.setUpload u t' with world := w' }.custody)
    (ht : p.uploads u = some t) (hsession : t'.session = t.session)
    (hslot : w'.protection.session = p.world.protection.session)
    (hstopping : w'.protection.stopping = p.world.protection.stopping)
    (hactive : ∀ a, w'.protection.activeUpload = some a →
      p.world.protection.activeUpload = some a ∧
        (a.sessionId = t.session.sessionId → t.phase.recorded = true → t'.phase.recorded = true)) :
    ({ p.setUpload u t' with world := w' } : ProtectedWorld).Linked := by
  have hsame : ({ p.setUpload u t' with world := w' } : ProtectedWorld).held = p.held := by
    funext a
    cases a with
    | prepare => rfl
    | slot => exact hslot
  refine h.of_frame hcustody rfl (fun a s ha => ⟨a, by rw [← hsame]; exact ha⟩) ?_ ?_
    fun hstop => hslot.trans (h.stopping (hstopping ▸ hstop))
  -- the other uploads are as they were
  · intro v q hq
    by_cases hv : v = u
    · subst hv
      simp only [ProtectedWorld.setUpload, Function.update_self, Option.some.injEq] at hq
      subst hq
      exact .inl ⟨t, ht, hsession⟩
    · simp only [ProtectedWorld.setUpload, Function.update_of_ne hv] at hq
      exact .inl ⟨q, hq, rfl⟩
  · intro a ha
    obtain ⟨hbefore, hrecorded⟩ := hactive a ha
    obtain ⟨v, q, hq, rfl, hphase⟩ := h.active a hbefore
    -- the record may name this upload, and then it has to stay recorded
    by_cases hv : v = u
    · subst hv
      cases hq.symm.trans ht
      exact ⟨v, t', by simp [ProtectedWorld.setUpload], by rw [hsession], hrecorded rfl hphase⟩
    · exact ⟨v, q, by simpa [ProtectedWorld.setUpload, Function.update_of_ne hv] using hq, rfl, hphase⟩

theorem Linked.gateAnswered {p : ProtectedWorld} (h : p.Linked) {i : TaskId} {t : ProtectedPrepare}
    {owner : Option OwnerId} {id : SessionId} {token : Token}
    (hcustody : p.custody.Step (p.gateAnswered i t owner id token).custody)
    (ht : p.prepares i = some t) (phase : t.phase = .taking) (fresh : ∀ o ∈ owner, o ∉ p.taken)
    (hid : id ∉ p.ids) : (p.gateAnswered i t owner id token).Linked := by
  cases owner with
  | none => exact h.setPrepare hcustody (by rw [held_prepare ht, phase]; rfl)
  | some o =>
    have hheld : (p.gateAnswered i t (some o) id token).held = Function.update p.held (.prepare i)
        (some ⟨id, t.prepare.metadata.fileId, token, o, p.world.now⟩) := held_setPrepare ..
    -- the new owner and the new id are in nobody's hands
    exact {
      linear := h.linear.step hcustody
      owners := List.nodup_cons.mpr ⟨fresh o rfl, h.owners⟩
      ids := List.nodup_cons.mpr ⟨hid, h.ids⟩
      held := by
        intro a s ha
        rw [hheld] at ha
        -- only the handler that asked holds something new
        by_cases hai : a = .prepare i
        · rw [hai, Function.update_self, Option.some.injEq] at ha
          exact List.mem_cons.mpr (.inl ha.symm)
        · rw [Function.update_of_ne hai] at ha
          exact List.mem_cons_of_mem _ (h.held a s ha)
      uploads := fun u q hq => ⟨List.mem_cons_of_mem _ (h.uploads u q hq).1, (h.uploads u q hq).2⟩
      ownSession := h.ownSession
      active := h.active
      stopping := h.stopping }

theorem Linked.install {p : ProtectedWorld} (h : p.Linked) {i : TaskId} {t : ProtectedPrepare}
    {s : CrossCopyAuthorizedSession} (hcustody : p.custody.Step (p.install i t s).custody)
    (ht : p.prepares i = some t) (phase : t.phase = .installing s) : (p.install i t s).Linked := by
  have hprotection := World.protection_installCrosscopy p.world s
  have hs : p.held (.prepare i) = some s := by rw [held_prepare ht, phase]; rfl
  have hrest : (p.install i t s).world.protection.activeUpload = p.world.protection.activeUpload ∧
      (p.install i t s).world.protection.stopping = p.world.protection.stopping := by
    show (p.world.installCrosscopy s).protection.activeUpload = _ ∧
      (p.world.installCrosscopy s).protection.stopping = _
    rw [hprotection]
    -- the install writes neither the record nor the barrier
    split <;> exact ⟨rfl, rfl⟩
  refine h.of_frame hcustody rfl ?_ (fun u q hq => .inl ⟨q, hq, rfl⟩)
    (fun a ha => h.active a (hrest.1 ▸ ha)) fun hstop => ?_
  · intro a q hq
    -- the slot has what it had, or what the handler held
    cases a with
    | slot =>
      have hslot : (p.world.installCrosscopy s).protection.session = some q := hq
      rw [hprotection] at hslot
      split at hslot
      · exact ⟨.slot, hslot⟩
      · cases hslot
        exact ⟨_, hs⟩
    | prepare i' =>
      by_cases hi : i' = i
      · subst hi
        simp only [ProtectedWorld.held, ProtectedWorld.install, ProtectedWorld.setPrepare,
          Function.update_self, Option.bind_some] at hq
        repeat' split at hq
        all_goals exact nomatch hq
      · refine ⟨.prepare i', ?_⟩
        simpa [ProtectedWorld.held, ProtectedWorld.install, ProtectedWorld.setPrepare,
          Function.update_of_ne hi] using hq
  -- behind the barrier nothing is installed
  · have hstopping := hrest.2.symm.trans hstop
    show (p.world.installCrosscopy s).protection.session = none
    rw [hprotection, if_pos (.inl hstopping)]
    exact h.stopping hstopping

theorem Linked.beginUpload {p : ProtectedWorld} (h : p.Linked) {u : TaskId} {x : SessionId}
    {f : FileId} {tok : Token} (fresh : p.uploads u = none)
    (hcustody : p.custody.Step
      { p.beginUpload u x f tok with world := p.world.beginUpload u x f tok }.custody) :
    ({ p.beginUpload u x f tok with world := p.world.beginUpload u x f tok } :
      ProtectedWorld).Linked := by
  -- nothing is held that was not held before
  have hheld : ∀ {t w' received}, (∀ s, w'.protection.session = some s →
      p.world.protection.session = some s) → ∀ a s,
      ({ p.setUpload u t with world := w', received := received } : ProtectedWorld).held a = some s →
        ∃ b, p.held b = some s := by
    intro t w' received hslot a s ha
    cases a with
    | prepare i => exact ⟨.prepare i, ha⟩
    | slot => exact ⟨.slot, hslot s ha⟩
  -- the new upload has the session of the slot, and no other upload changes
  have huploads : ∀ {s phase}, p.world.protection.session = some s →
      ∀ {q : ProtectedWorld}, q.uploads = (p.setUpload u ⟨s, false, phase⟩).uploads →
        0 < q.consumed s.owner → ∀ v t', q.uploads v = some t' →
          (∃ t, p.uploads v = some t ∧ t'.session = t.session) ∨
            (∃ b, p.held b = some t'.session) ∧ 0 < q.consumed t'.session.owner ∧
              ∀ w t, w ≠ v → q.uploads w = some t → p.uploads w = some t := by
    intro s phase hs q hq hpos v t' ht'
    rw [hq] at ht'
    by_cases hv : v = u
    · subst hv
      simp only [ProtectedWorld.setUpload, Function.update_self, Option.some.injEq] at ht'
      subst ht'
      refine .inr ⟨⟨.slot, hs⟩, hpos, fun w t hw ht => ?_⟩
      rw [hq] at ht
      simpa [ProtectedWorld.setUpload, Function.update_of_ne hw] using ht
    · simp only [ProtectedWorld.setUpload, Function.update_of_ne hv] at ht'
      exact .inl ⟨t', ht', rfl⟩
  rcases p.beginUpload_cases u x f tok with
    ⟨hp, hw⟩ | ⟨s, hs, _, ⟨_, hp, hw⟩ | ⟨_, _, hp, hw⟩⟩ <;> rw [hp] at hcustody ⊢
  · refine h.of_frame hcustody rfl (fun a s ha => ⟨a, ?_⟩) (fun u q hq => .inl ⟨q, hq, rfl⟩)
      (fun a ha => h.active a (by rw [← hw]; exact ha))
      fun hstop => ?_
    · cases a with
      | prepare => exact ha
      | slot => exact (congrArg Protection.session hw).symm.trans ha
    · show (p.world.beginUpload u x f tok).protection.session = none
      rw [hw]
      exact h.stopping (by rw [← hw]; exact hstop)
  · have hnone : (p.world.beginUpload u x f tok).protection.session = none := by rw [hw]
    refine h.of_frame hcustody rfl (hheld fun s hs => (by cases hnone.symm.trans hs))
      (huploads hs rfl ?_) (fun a ha => ?_) fun _ => hnone
    · have hcount := congrArg Protection.owners hw
      -- the wrong credentials: the owner is cancelled
      have hself : List.count (Observation.ownerCancelled s.owner) [.ownerCancelled s.owner] = 1 :=
        List.count_singleton_self
      simp only [consumed]
      rw [hcount, List.count_append]
      omega
    · have hbefore : p.world.protection.activeUpload = some a :=
        (congrArg Protection.activeUpload hw).symm.trans ha
      obtain ⟨v, q, hq, heq, hphase⟩ := h.active a hbefore
      have hv : v ≠ u := fun hv => (by cases (hv ▸ fresh).symm.trans hq)
      exact ⟨v, q, by simpa [ProtectedWorld.setUpload, Function.update_of_ne hv] using hq, heq, hphase⟩
  · have hnone : (p.world.beginUpload u x f tok).protection.session = none := by rw [hw]
    refine h.of_frame hcustody rfl (hheld fun s hs => (by cases hnone.symm.trans hs))
      (huploads hs rfl ?_) (fun a ha => ?_) fun _ => hnone
    · -- the right ones: the owner is spent on the call of `receive`
      have hreceived : s.owner ∈
          (p.received ++ [(⟨s, x, f, tok⟩ : ReceiveCall)]).map fun call =>
            call.session.owner := by simp
      exact Nat.lt_add_left _ (List.count_pos_iff.mpr hreceived)
    · have hself : (p.world.beginUpload u x f tok).protection.activeUpload =
          some ⟨s.sessionId, s.owner⟩ := by rw [hw]
      refine ⟨u, ⟨s, false, .receiving⟩, by simp [ProtectedWorld.setUpload], ?_, rfl⟩
      exact Option.some.inj (ha.symm.trans hself)

/-- Every step keeps the links. -/
theorem Linked.step {p p' : ProtectedWorld} {a : ProtectedAction} (h : p.Linked)
    (hstep : p.Step a p') : p'.Linked := by
  have hcustody := custody_step hstep
  have hquiet : ∀ {i t t'}, p.custody.Step (p.setPrepare i t').custody → p.prepares i = some t →
      t'.phase.held = t.phase.held → (p.setPrepare i t').Linked := by
    intro i t t' hcustody ht hheld
    exact h.setPrepare hcustody (hheld.trans (held_prepare ht).symm)
  have hupload : ∀ {u t t'}, p.custody.Step (p.setUpload u t').custody → p.uploads u = some t →
      t'.session = t.session → (t.phase.recorded = true → t'.phase.recorded = true) →
        (p.setUpload u t').Linked := by
    intro u t t' hcustody ht hsession hphase
    exact h.setUpload hcustody ht hsession rfl rfl fun _ ha => ⟨ha, fun _ => hphase⟩
  cases hstep with
  -- the receiver only takes records away
  | @receiver a p' move same =>
    obtain ⟨hsession, hactive, hstopping⟩ := move_shrinks move
    refine h.of_frame hcustody same.sessions (fun a s ha => ⟨a, ?_⟩)
      (fun u t ht => .inl ⟨t, same.uploads ▸ ht, rfl⟩) (fun a ha => ?_) fun hstop => ?_
    · cases a with
      | prepare i => simpa [ProtectedWorld.held, same.prepares] using ha
      | slot => exact hsession s ha
    · rw [same.uploads]
      exact h.active a (hactive a ha)
    · -- `stop` has emptied the slot, or it was empty and nothing fills it
      rcases hstopping hstop with hnone | hbefore
      · exact hnone
      · cases hs : p'.world.protection.session with
        | none => rfl
        | some s => cases (h.stopping hbefore).symm.trans (hsession s hs)
  | @begin_ i values request fresh =>
    revert hcustody
    unfold beginPrepare
    split <;> intro hcustody
    · exact h.setPrepare hcustody (by simp [ProtectedWorld.held, fresh, ProtectedPreparePhase.held])
    · exact h
  | @preflight i t ht live phase =>
    -- these hold the same before and after
    revert hcustody
    unfold preflight
    repeat' split
    all_goals exact fun hcustody => hquiet hcustody ht (by rw [phase]; rfl)
  | @askGate i t ht live phase =>
    refine hquiet hcustody ht ?_
    rw [phase]
    cases p.gate <;> rfl
  | gateAnswered ht live phase fresh hid => exact h.gateAnswered hcustody ht phase fresh hid
  | install ht live phase => exact h.install hcustody ht phase
  | prepareCancelled ht live phase => exact hquiet hcustody ht (by rw [phase]; rfl)
  | dropPrepare ht live awaits => exact hquiet hcustody ht rfl
  | beginUpload fresh => exact h.beginUpload fresh hcustody
  -- an upload that is cancelled has not been recorded
  | uploadCancelled ht live phase =>
    refine hupload hcustody ht rfl fun hphase => ?_
    rw [phase] at hphase
    cases hphase
  | received ht live phase => exact hupload hcustody ht rfl fun _ => rfl
  | dropUpload ht _ _ same | awaitRoom ht _ same =>
    refine h.setUpload hcustody ht rfl (by rw [same]) (by rw [same]) fun a ha => ?_
    exact ⟨by rw [← same]; exact ha, fun _ hphase => hphase⟩
  -- finishing clears the record of its own session
  | @finish u t result ht live phase =>
    have hprotection := World.protection_finishCrosscopy p.world t.session.sessionId
    have hkeep : (p.world.finishCrosscopy t.session.sessionId).protection.session =
          p.world.protection.session ∧
        (p.world.finishCrosscopy t.session.sessionId).protection.stopping =
          p.world.protection.stopping := by
      rw [hprotection]
      split <;> exact ⟨rfl, rfl⟩
    refine h.setUpload hcustody ht rfl hkeep.1 hkeep.2 fun a ha => ?_
    rw [hprotection] at ha
    split at ha
    · simp at ha
    · -- the record of another session stays
      rename_i hother
      refine ⟨ha, fun hid => absurd ?_ hother⟩
      simp [ha, hid]
  -- the events of an upload leave the records alone
  | announce ht live phase sent | close ht live phase sent =>
    refine h.setUpload hcustody ht rfl (by rw [sent]) (by rw [sent]) fun a ha => ?_
    refine ⟨by rw [← sent]; exact ha, fun _ hphase => ?_⟩
    rw [phase] at hphase
    contradiction

/-- The links hold in every reachable state. -/
theorem linked_of_reachable {sha : List UInt8 → String} {p : ProtectedWorld}
    (h : (protectedReceiver sha).Reachable p) : p.Linked := by
  refine TransitionSystem.reachable_induction _ Linked ?_ (fun p a p' hp hstep => ?_) h
  · rintro p ⟨c, gate, rfl⟩
    exact linked_start c gate
  · exact hp.step (step_cases hstep)

/-! ## The owners over a run -/

/-- Every protected handler has answered. -/
def Finished (p : ProtectedWorld) : Prop :=
  (∀ h t, p.prepares h = some t → t.phase.awaits = false) ∧
    ∀ u t, p.uploads u = some t → t.phase.awaits = false

/-- The owner is the one held in the protected session. -/
def Installed (p : ProtectedWorld) (o : OwnerId) : Prop :=
  ∃ s, p.world.protection.session = some s ∧ s.owner = o

/-- What holds after every step, and of every step, about the owners. -/
structure OwnersLinear (p : ProtectedWorld) (a : ProtectedAction) (p' : ProtectedWorld) : Prop where
  once : ∀ o, p'.consumed o ≤ 1
  accounted : p'.Finished → ∀ o ∈ p'.taken,
    (p'.consumed o = 1 ∧ ¬p'.Installed o) ∨ (p'.consumed o = 0 ∧ p'.Installed o)
  /-- `receive` is called for an upload that presents the installed session, exactly. -/
  presented : ∀ call ∈ p'.received, call ∈ p.received ∨
    p.world.protection.session = some call.session ∧ ∃ u, a = .begin_ u call.session.sessionId
      call.session.fileId call.session.uploadToken
  /-- Once `stop` has been through its critical section, and from then on. -/
  stopped : p.world.protection.stopping = true →
    p'.world.protection.stopping = true ∧ p'.world.protection.session = none ∧
      p'.received = p.received
  signalled : a = .receiver .stop → p'.world.protection.stopping = true ∧
    p'.world.protection.session = none ∧
    ∀ active, p.world.protection.activeUpload = some active →
      .ownerSignalled active.owner ∈ p'.world.protection.owners

/-- With every handler answered, an owner has been consumed or is installed. -/
theorem Linked.accounted {p : ProtectedWorld} (h : p.Linked) (hfinished : p.Finished) {o : OwnerId}
    (ho : o ∈ p.taken) :
    (p.consumed o = 1 ∧ ¬p.Installed o) ∨ (p.consumed o = 0 ∧ p.Installed o) := by
  -- what is in the slot has not been spent
  have hunspent : p.Installed o → p.consumed o = 0 := by
    rintro ⟨s, hs, rfl⟩
    exact h.linear.unspent .slot _ (by simp [custody, ProtectedWorld.held, hs])
  rcases (h.linear.accounted o).mp ho with hone | ⟨a, ha⟩
  · refine .inl ⟨hone, fun hinstalled => ?_⟩
    have hzero := hunspent hinstalled
    have hone : p.consumed o = 1 := hone
    omega
  · have hinstalled : p.Installed o := by
      simp only [custody, Option.map_eq_some_iff] at ha
      obtain ⟨s, hs, rfl⟩ := ha
      -- a handler that has answered holds nothing, so only the slot is left
      cases a with
      | slot => exact ⟨s, hs, rfl⟩
      | prepare i =>
        simp only [ProtectedWorld.held, Option.bind_eq_some_iff] at hs
        obtain ⟨t, ht, hheld⟩ := hs
        have hanswered := hfinished.1 i t ht
        cases hphase : t.phase <;> simp [hphase, ProtectedPreparePhase.held,
          ProtectedPreparePhase.awaits] at hheld hanswered
    exact .inr ⟨hunspent hinstalled, hinstalled⟩

/-- The calls of `receive` a step makes. -/
theorem received_of_step {p p' : ProtectedWorld} {a : ProtectedAction} (hstep : p.Step a p') :
    p'.received = p.received ∨ ∃ u s, p.world.protection.session = some s ∧
      a = .begin_ u s.sessionId s.fileId s.uploadToken ∧
      p'.received = p.received ++ [⟨s, s.sessionId, s.fileId, s.uploadToken⟩] := by
  cases hstep with
  | receiver move same => exact .inl same.received
  | begin_ =>
    refine .inl ?_
    unfold beginPrepare
    split <;> rfl
  | preflight =>
    refine .inl ?_
    unfold preflight
    repeat' split
    all_goals rfl
  | @gateAnswered h t owner =>
    refine .inl ?_
    cases owner <;> rfl
  -- only a lease calls `receive`
  | @beginUpload u x f tok fresh =>
    rcases p.beginUpload_cases u x f tok with
      ⟨hp, _⟩ | ⟨s, hs, hx, ⟨_, hp, _⟩ | ⟨hf, htok, hp, _⟩⟩ <;> rw [hp]
    · exact .inl rfl
    · exact .inl rfl
    · -- the only call of `receive`, with the credentials of the session
      subst hx hf htok
      exact .inr ⟨u, s, hs, rfl, rfl⟩
  | _ => exact .inl rfl

/-- The barrier of `stop` stays up. -/
theorem stopping_of_step {p p' : ProtectedWorld} {a : ProtectedAction} (hstep : p.Step a p')
    (hstop : p.world.protection.stopping = true) : p'.world.protection.stopping = true := by
  cases hstep with
  -- `stop` sets the barrier and nothing lowers it
  | receiver move same =>
    generalize p'.world.protection = q at move ⊢
    cases move with
    | keep | cancelled | signalled => exact hstop
    | stopped => rfl
  | begin_ =>
    unfold beginPrepare
    split <;> exact hstop
  | preflight =>
    unfold preflight
    repeat' split
    all_goals exact hstop
  | @gateAnswered h t owner => cases owner <;> exact hstop
  | @install h t s =>
    -- what is installed behind the barrier is cancelled
    show (p.world.installCrosscopy s).protection.stopping = true
    rw [World.protection_installCrosscopy, if_pos (.inl hstop)]
    exact hstop
  | @beginUpload u x f tok fresh =>
    show (p.world.beginUpload u x f tok).protection.stopping = true
    rcases p.beginUpload_cases u x f tok with
      ⟨_, hw⟩ | ⟨s, _, _, ⟨_, _, hw⟩ | ⟨_, _, _, hw⟩⟩ <;> rw [hw] <;> exact hstop
  | @finish u t result =>
    show (p.world.finishCrosscopy t.session.sessionId).protection.stopping = true
    rw [World.protection_finishCrosscopy]
    split <;> exact hstop
  | announce _ _ _ sent | close _ _ _ sent | dropUpload _ _ _ sent | awaitRoom _ _ sent =>
    show Protection.stopping _ = true
    rw [sent]
    exact hstop
  | _ => exact hstop

/-- Over every run: no owner is consumed twice; once all handlers have answered each has
    been consumed by `receive` or `cancel`, or is the installed one; only the upload that
    presents the installed session receives; and `stop` closes the protected half. -/
theorem linear_owner (sha : List UInt8 → String) (c : ServerConfig) (gate : Bool)
    (as : List ProtectedAction) :
    (protectedReceiver sha).Always OwnersLinear (ProtectedWorld.start c gate) as := by
  -- by induction on the run, with the links of the owners as the invariant
  refine (protectedReceiver sha).always_of_step Linked ?_ (linked_start c gate) as
  intro p a p' hlinked hrun
  have hstep := step_cases hrun
  have hlinked' := hlinked.step hstep
  refine ⟨hlinked', ?_⟩
  exact {
    once := hlinked'.linear.once
    accounted := fun hfinished o ho => hlinked'.accounted hfinished ho
    presented := by
      intro call hcall
      -- what was received in this step carried the credentials of the session
      rcases received_of_step hstep with hsame | ⟨u, s, hs, ha, hmore⟩
      · exact .inl (hsame ▸ hcall)
      · rw [hmore, List.mem_append, List.mem_singleton] at hcall
        rcases hcall with hcall | rfl
        · exact .inl hcall
        · exact .inr ⟨hs, u, ha⟩
    stopped := by
      intro hstop
      have hstop' := stopping_of_step hstep hstop
      refine ⟨hstop', hlinked'.stopping hstop', ?_⟩
      rcases received_of_step hstep with hsame | ⟨u, s, hs, _, _⟩
      · exact hsame
      · -- behind the barrier the slot is empty
        cases (hlinked.stopping hstop).symm.trans hs
    signalled := by
      rintro rfl
      -- `stop` signals the active upload
      have hworld : p'.world = p.world.stop := by
        have hrun : p.step sha (.receiver .stop) = some p' := hrun
        simp only [step, Action.ofProtected, Bool.false_eq_true, if_false, World.step,
          Option.map_some, Option.some.injEq] at hrun
        rw [← hrun]
      rw [hworld, World.protection_stop]
      refine ⟨rfl, rfl, fun active hactive => ?_⟩
      simp [Protection.stop, hactive] }

end ProtectedWorld

end LocalSend
