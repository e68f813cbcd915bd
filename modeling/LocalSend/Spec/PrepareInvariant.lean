import LocalSend.Spec.SlotMoves

/-!
# The prepare handlers of a run

What each prepare handler has seen when it is in a given phase (`PrepareTask.Wf`), and
whose session ids are whose: every id belongs to one handler, as its placeholder or as
its accepted session, and the session in the slot belongs to a handler that installed
it.

## Key results

- `PrepareMove`: the transitions of one prepare handler
- `prepareInv_of_reachable`: phases, ids and the slot fit together in every reachable world
- `prepares_before`: where the record of a handler comes from
-/

namespace LocalSend

/-! ## One handler -/

/-- The files the decision of a prepare grants. -/
def PrepareTask.grantedFiles (t : PrepareTask) : AssocMap FileId FileMetadata :=
  match t.decision with
  | none => .empty
  | some d => t.request.acceptedFiles (t.request.acceptedIds d)

/-- The PIN check of a prepare answered `Ok`. -/
def PrepareTask.Admitted (t : PrepareTask) : Prop := ∃ cleared, t.verdict = .ok cleared

/-- A prepare that passed the PIN gate, reserved the slot, and was given a decision that
    accepts at least one offered file. -/
def PrepareTask.Granted (t : PrepareTask) : Prop :=
  t.Admitted ∧ t.reserved ≠ none ∧
    ∃ d, t.decision = some d ∧ t.request.acceptedIds d ≠ [] ∧ (t.autoAccept = true → d = .accept)

/-- A session id the handler drew: of its placeholder, or of its accepted session. -/
def PrepareTask.Owns (t : PrepareTask) (s : SessionId) : Prop :=
  t.reserved = some s ∨ t.accepted = some s

/-- What a prepare handler has seen when it is in a given phase. -/
def PrepareTask.Wf (t : PrepareTask) : Prop :=
  match t.phase with
  | .reserving => t.Admitted ∧ t.reserved = none ∧ t.decision = none ∧ t.accepted = none
  | .sending | .deciding =>
    t.Admitted ∧ t.reserved ≠ none ∧ t.decision = none ∧ t.accepted = none ∧ t.autoAccept = false
  | .clearing =>
    t.Admitted ∧ t.reserved ≠ none ∧ t.accepted = none ∧
      ∃ d, t.decision = some d ∧ (t.autoAccept = true → d = .accept)
  | .refusing =>
    t.reserved ≠ none ∧ t.accepted = none ∧ ∃ reason, t.decision = some (.refuse reason)
  | .declining =>
    t.reserved ≠ none ∧ t.accepted = none ∧
      ∃ d, t.decision = some d ∧ t.request.acceptedIds d = []
  | .installing s =>
    t.Granted ∧ t.accepted = some s.id ∧
      ∃ (token : FileId → Token) (now : Nat),
        s = Session.new t.request.info.deviceAlias t.grantedFiles s.id token now
  | .messaging text => t.Granted ∧ t.accepted ≠ none ∧ t.request.messageText = some text
  | .answered status body =>
    (t.accepted = none ∧ body = none ∧ status ≠ .ok ∧ (t.reserved ≠ none → status ≠ .noContent)) ∨
    (t.Granted ∧ t.accepted ≠ none ∧ status = .noContent ∧ body = none ∧
      t.request.messageText.isSome = true) ∨
    (t.Granted ∧ status = .ok ∧ t.request.messageText = none ∧
      ∃ (s : SessionId) (token : FileId → Token), t.accepted = some s ∧
        body = some ⟨s, t.grantedFiles.mapVal fun f _ => token f⟩)

/-- The transitions of one prepare handler, in a world `w`. -/
inductive PrepareMove (w : World) : Option PrepareTask → PrepareAction → PrepareTask → Prop
  | refusedPin {peer pin request verdict status} (hv : ∀ cleared, verdict ≠ .ok cleared)
    (hs : status = .unauthorized ∨ status = .tooManyRequests) :
    PrepareMove w none (.checkPin peer pin request)
      { peer, request, verdict, autoAccept := false, reserved := none, decision := none,
        accepted := none, dropped := false, phase := .answered status none }
  | emptyOffer {peer pin request cleared} (hempty : request.files.isEmpty = true) :
    PrepareMove w none (.checkPin peer pin request)
      { peer, request, verdict := .ok cleared, autoAccept := false, reserved := none,
        decision := none, accepted := none, dropped := false,
        phase := .answered .noContent none }
  | admitted {peer pin request cleared} (hempty : request.files.isEmpty = false) :
    PrepareMove w none (.checkPin peer pin request)
      { peer, request, verdict := .ok cleared, autoAccept := false, reserved := none,
        decision := none, accepted := none, dropped := false, phase := .reserving }
  | conflict {t id token} (hphase : t.phase = .reserving) :
    PrepareMove w (some t) (.reserve id token) { t with phase := .answered .conflict none }
  | reserved {t id token} (hphase : t.phase = .reserving) (hid : id ∉ w.issued) :
    PrepareMove w (some t) (.reserve id token) (t.reservedAs id w.state.autoAccept)
  | nobodyListening {t} (hphase : t.phase = .sending) :
    PrepareMove w (some t) .sendRequest { t with decision := some .decline, phase := .clearing }
  | sent {t} (hphase : t.phase = .sending) :
    PrepareMove w (some t) .sendRequest { t with phase := .deciding }
  | decided {t answer} (hphase : t.phase = .deciding) :
    PrepareMove w (some t) (.decide answer)
      { t with
        decision := some (if t.reserved.any (fun r => r ∈ w.withdrawn) then .decline
          else answer.getD .decline)
        phase := .clearing }
  | toRefuse {t reason id token} (hphase : t.phase = .clearing)
    (hd : t.decision = some (.refuse reason)) :
    PrepareMove w (some t) (.clearAwaiting id token) { t with phase := .refusing }
  | toDecline {t d id token} (hphase : t.phase = .clearing) (hd : t.decision = some d)
    (hids : t.request.acceptedIds d = []) :
    PrepareMove w (some t) (.clearAwaiting id token) { t with phase := .declining }
  | toInstall {t d id token} (hphase : t.phase = .clearing) (hd : t.decision = some d)
    (hids : t.request.acceptedIds d ≠ []) (hid : id ∉ w.issued) :
    PrepareMove w (some t) (.clearAwaiting id token)
      { t with
        accepted := some id
        phase := .installing (Session.new t.request.info.deviceAlias
          (t.request.acceptedFiles (t.request.acceptedIds d)) id token w.now) }
  | refused {t} (hphase : t.phase = .refusing) :
    PrepareMove w (some t) .refuse { t with phase := .answered .badRequest none }
  | declined {t} (hphase : t.phase = .declining) :
    PrepareMove w (some t) .decline { t with phase := .answered .forbidden none }
  | installedMessage {t s text} (hphase : t.phase = .installing s)
    (htext : t.request.messageText = some text) :
    PrepareMove w (some t) .install { t with phase := .messaging text }
  | installed {t s} (hphase : t.phase = .installing s) (htext : t.request.messageText = none) :
    PrepareMove w (some t) .install
      { t with phase := .answered .ok (some ⟨s.id, s.tokens⟩) }
  | delivered {t text id} (hphase : t.phase = .messaging text) (hid : t.accepted = some id) :
    PrepareMove w (some t) .deliverText { t with phase := .answered .noContent none }
  | dropped {t} (hphase : t.phase.awaits = true) :
    PrepareMove w (some t) .drop { t with dropped := true }

/-- Every move leads from a handler that fits its phase to one that fits its next. -/
theorem PrepareMove.wf {w : World} {old : Option PrepareTask} {a : PrepareAction}
    {t' : PrepareTask} (hmove : PrepareMove w old a t') (hold : ∀ t, old = some t → t.Wf) :
    t'.Wf := by
  cases hmove with
  -- answered before anything was reserved: nothing to give back
  | refusedPin _ hs =>
    dsimp only [PrepareTask.Wf]
    refine .inl ⟨rfl, rfl, ?_, fun h => absurd rfl h⟩
    rcases hs with rfl | rfl <;> decide
  | emptyOffer =>
    dsimp only [PrepareTask.Wf]
    exact .inl ⟨rfl, rfl, by decide, fun h => absurd rfl h⟩
  -- the offer has files, and neither id has been handed out
  | admitted =>
    dsimp only [PrepareTask.Wf]
    exact ⟨⟨_, rfl⟩, rfl, rfl, rfl⟩
  -- another session is in the slot, so nothing was reserved
  | @conflict t _ _ hphase =>
    have h := hold t rfl
    simp only [PrepareTask.Wf, hphase] at h
    dsimp only [PrepareTask.Wf]
    exact .inl ⟨h.2.2.2, rfl, by decide, fun hr => absurd h.2.1 hr⟩
  | @reserved t _ _ hphase =>
    have h := hold t rfl
    simp only [PrepareTask.Wf, hphase] at h
    obtain ⟨hadm, _, hd, hacc⟩ := h
    unfold PrepareTask.reservedAs
    -- with auto-accept the decision is there at once, otherwise the handler asks
    split
    · dsimp only [PrepareTask.Wf]
      exact ⟨hadm, by simp, hacc, .accept, rfl, fun _ => rfl⟩
    · dsimp only [PrepareTask.Wf]
      exact ⟨hadm, by simp, hd, hacc, rfl⟩
  -- asked nobody: the decision is the decline that stands in for an answer
  | @nobodyListening t hphase =>
    have h := hold t rfl
    simp only [PrepareTask.Wf, hphase] at h
    obtain ⟨hadm, hres, _, hacc, hauto⟩ := h
    dsimp only [PrepareTask.Wf]
    exact ⟨hadm, hres, hacc, .decline, rfl, fun ha => (by cases hauto.symm.trans ha)⟩
  | @sent t hphase =>
    have h := hold t rfl
    simp only [PrepareTask.Wf, hphase] at h
    exact h
  -- it was asked, so auto-accept was off
  | @decided t answer hphase =>
    have h := hold t rfl
    simp only [PrepareTask.Wf, hphase] at h
    obtain ⟨hadm, hres, _, hacc, hauto⟩ := h
    dsimp only [PrepareTask.Wf]
    exact ⟨hadm, hres, hacc, _, rfl, fun ha => (by cases hauto.symm.trans ha)⟩
  -- a refusal is answered as such, however few files it names
  | @toRefuse t reason _ _ hphase hd =>
    have h := hold t rfl
    simp only [PrepareTask.Wf, hphase] at h
    dsimp only [PrepareTask.Wf]
    exact ⟨h.2.1, h.2.2.1, reason, hd⟩
  | @toDecline t d _ _ hphase hd hids =>
    have h := hold t rfl
    simp only [PrepareTask.Wf, hphase] at h
    dsimp only [PrepareTask.Wf]
    exact ⟨h.2.1, h.2.2.1, d, hd, hids⟩
  | @toInstall t d id token hphase hd hids =>
    have h := hold t rfl
    simp only [PrepareTask.Wf, hphase] at h
    obtain ⟨hadm, hres, _, d', hd', hauto⟩ := h
    -- the session is built from the files that the decision grants
    obtain rfl : d = d' := Option.some.inj (hd.symm.trans hd')
    dsimp only [PrepareTask.Wf]
    refine ⟨⟨hadm, hres, d, hd, hids, hauto⟩, rfl, token, w.now, ?_⟩
    simp only [PrepareTask.grantedFiles, hd, Session.new]
  -- the reservation is given back together with the answer
  | @refused t hphase =>
    have h := hold t rfl
    simp only [PrepareTask.Wf, hphase] at h
    dsimp only [PrepareTask.Wf]
    exact .inl ⟨h.2.1, rfl, by decide, fun _ => by decide⟩
  | @declined t hphase =>
    have h := hold t rfl
    simp only [PrepareTask.Wf, hphase] at h
    dsimp only [PrepareTask.Wf]
    exact .inl ⟨h.2.1, rfl, by decide, fun _ => by decide⟩
  -- a message has one session without uploads, files get their tokens
  | @installedMessage t s text hphase htext =>
    have h := hold t rfl
    simp only [PrepareTask.Wf, hphase] at h
    dsimp only [PrepareTask.Wf]
    exact ⟨h.1, by simp [h.2.1], htext⟩
  | @installed t s hphase htext =>
    have h := hold t rfl
    simp only [PrepareTask.Wf, hphase] at h
    obtain ⟨hgrant, hacc, token, now, hs⟩ := h
    -- the tokens of the answer are those of the installed session
    have htok : s.tokens = t.grantedFiles.mapVal fun f _ => token f := by
      rw [hs]
      rfl
    dsimp only [PrepareTask.Wf]
    refine .inr (.inr ⟨hgrant, rfl, htext, s.id, token, hacc, ?_⟩)
    rw [htok]
    rfl
  | @delivered t text id hphase =>
    have h := hold t rfl
    simp only [PrepareTask.Wf, hphase] at h
    dsimp only [PrepareTask.Wf]
    exact .inr (.inl ⟨h.1, h.2.1, rfl, rfl, by simp [h.2.2]⟩)
  | @dropped t =>
    have h := hold t rfl
    exact h

/-- A move keeps the ids a handler owns, or draws one that was never issued. -/
theorem PrepareMove.owns {w : World} {old : Option PrepareTask} {a : PrepareAction}
    {t' : PrepareTask} (hmove : PrepareMove w old a t') {s : SessionId} (hs : t'.Owns s) :
    (∃ t, old = some t ∧ t.Owns s) ∨
      (s ∉ w.issued ∧ ((∃ token, a = .reserve s token) ∨ ∃ token, a = .clearAwaiting s token)) := by
  cases hmove with
  -- before the reservation a handler owns no session
  | refusedPin | emptyOffer | admitted => rcases hs with hs | hs <;> simp at hs
  | @reserved t id token hphase hid =>
    -- the reservation is new, or what the handler had accepted before
    have hcases : t.accepted = some s ∨ id = s := by
      unfold PrepareTask.reservedAs at hs
      split at hs <;> rcases hs with hs | hs
      · exact .inr (Option.some.inj hs)
      · exact .inl hs
      · exact .inr (Option.some.inj hs)
      · exact .inl hs
    rcases hcases with hacc | rfl
    · exact .inl ⟨t, rfl, .inr hacc⟩
    · exact .inr ⟨hid, .inl ⟨token, rfl⟩⟩
  -- the session is new as well, the reservation is kept
  | @toInstall t d id token hphase hd hids hid =>
    rcases hs with hs | hs
    · exact .inl ⟨t, rfl, .inl hs⟩
    · obtain rfl := Option.some.inj hs
      exact .inr ⟨hid, .inr ⟨token, rfl⟩⟩
  | _ => exact .inl ⟨_, rfl, hs⟩

/-- The session in the slot is the placeholder of `t`, or the session `t` has installed. -/
def PrepareTask.Placed (t : PrepareTask) (s : Session) : Prop :=
  t.reserved = some s.id ∨
    (t.accepted = some s.id ∧ (∀ s', t.phase ≠ .installing s') ∧ s.files = t.grantedFiles)

/-- A prepare that has reserved the slot and not yet cleared its consent reservation. -/
def PreparePhase.beforeClear : PreparePhase → Bool
  | .sending | .deciding | .clearing => true
  | _ => false

/-- A reservation lasts, and the peer and the request stay what they are. -/
theorem PrepareMove.reserved_eq {w : World} {t t' : PrepareTask} {a : PrepareAction}
    (hmove : PrepareMove w (some t) a t') (hwf : t.Wf) {r : SessionId}
    (hr : t.reserved = some r) :
    t'.reserved = some r ∧ t'.peer = t.peer ∧ t'.request = t.request := by
  cases hmove with
  | @reserved _ id token hphase hid =>
    simp only [PrepareTask.Wf, hphase] at hwf
    cases hr.symm.trans hwf.2.1
  | _ => exact ⟨hr, rfl, rfl⟩

/-- Once a handler has drawn the id of its accepted session, that id, the decision and
    the request stay what they are, and it leaves `installing` for good. -/
theorem PrepareMove.accepted_eq {w : World} {t t' : PrepareTask} {a : PrepareAction}
    (hmove : PrepareMove w (some t) a t') (hwf : t.Wf) {s : SessionId}
    (hs : t.accepted = some s) :
    t'.accepted = some s ∧ t'.grantedFiles = t.grantedFiles ∧
      ((∀ s', t.phase ≠ .installing s') → ∀ s', t'.phase ≠ .installing s') := by
  -- nothing has been accepted before the offer is decided
  have hcontra : t.accepted = none → False := fun h => (by cases hs.symm.trans h)
  cases hmove with
  | @reserved _ id token hphase hid =>
    simp only [PrepareTask.Wf, hphase] at hwf
    exact (hcontra hwf.2.2.2).elim
  | @nobodyListening _ hphase | @decided _ answer hphase =>
    simp only [PrepareTask.Wf, hphase] at hwf
    exact (hcontra hwf.2.2.2.1).elim
  | @toInstall _ d id token hphase hd hids hid =>
    simp only [PrepareTask.Wf, hphase] at hwf
    exact (hcontra hwf.2.2.1).elim
  | @dropped => exact ⟨hs, rfl, fun h => h⟩
  | _ => exact ⟨hs, rfl, fun _ => by simp⟩

/-- A session stays the handler's own through every move of the handler. -/
theorem PrepareMove.placed {w : World} {t t' : PrepareTask} {a : PrepareAction}
    (hmove : PrepareMove w (some t) a t') (hwf : t.Wf) {s : Session} (hs : t.Placed s) :
    t'.Placed s := by
  rcases hs with hr | ⟨hacc, hphase, hfiles⟩
  · exact .inl (hmove.reserved_eq hwf hr).1
  · obtain ⟨hacc', hgranted, hphase'⟩ := hmove.accepted_eq hwf hacc
    exact .inr ⟨hacc', hphase' hphase, hfiles.trans hgranted.symm⟩

/-- Only clearing its reservation takes a handler out of the phases before that. -/
theorem PrepareMove.beforeClear {w : World} {t t' : PrepareTask} {a : PrepareAction}
    (hmove : PrepareMove w (some t) a t') (h : t.phase.beforeClear = true) :
    t'.phase.beforeClear = true ∨ ∃ id token, a = .clearAwaiting id token := by
  cases hmove with
  | toRefuse | toDecline | toInstall => exact .inr ⟨_, _, rfl⟩
  | nobodyListening | sent | decided => exact .inl rfl
  | dropped => exact .inl h
  | conflict hphase | reserved hphase | refused hphase | declined hphase
  | installedMessage hphase | installed hphase | delivered hphase =>
    rw [hphase] at h
    exact nomatch h

/-- Ids a handler owns stay its own. -/
theorem PrepareMove.owns_mono {w : World} {t t' : PrepareTask} {a : PrepareAction}
    (hmove : PrepareMove w (some t) a t') (hwf : t.Wf) {s : SessionId} (hs : t.Owns s) :
    t'.Owns s := by
  rcases hs with hs | hs
  · exact .inl (hmove.reserved_eq hwf hs).1
  · exact .inr (hmove.accepted_eq hwf hs).1

/-- A handler never draws one id for both of its sessions. -/
theorem PrepareMove.apart {w : World} {old : Option PrepareTask} {t' : PrepareTask}
    {a : PrepareAction} (hmove : PrepareMove w old a t')
    (hwf : ∀ t, old = some t → t.Wf)
    (hissued : ∀ t s, old = some t → t.Owns s → s ∈ w.issued)
    (hold : ∀ t s, old = some t → t.reserved = some s → t.accepted ≠ some s) :
    ∀ s, t'.reserved = some s → t'.accepted ≠ some s := by
  intro s hr hacc
  cases hmove with
  | refusedPin | emptyOffer | admitted => simp at hr
  | @reserved t id token hphase hid =>
    have h := hwf t rfl
    simp only [PrepareTask.Wf, hphase] at h
    -- nothing is accepted yet when the placeholder is made
    have hnone : (t.reservedAs id w.state.autoAccept).accepted = none := by
      unfold PrepareTask.reservedAs
      split <;> exact h.2.2.2
    cases hnone.symm.trans hacc
  | @toInstall t d id token hphase hd hids hid =>
    cases hacc
    -- the session's id is fresh, while the reservation's was issued
    exact hid (hissued t _ rfl (.inl hr))
  | _ => exact hold _ s rfl hr hacc

namespace World

/-! ## One step -/

/-- What a section of prepare `h` changes among the handlers: its own entry, the issued
    ids, by the one it draws, and the release tasks, by that of its own guard. -/
structure PrepareEffect (w : World) (h : TaskId) (t' : PrepareTask) (w' : World) : Prop where
  prepares : w'.prepares = Function.update w.prepares h (some t')
  uploads : w'.uploads = w.uploads
  issued : w'.issued = w.issued ∨ ∃ id, id ∉ w.issued ∧ w'.issued = id :: w.issued
  owned : ∀ s, t'.Owns s → (∃ t, w.prepares h = some t ∧ t.Owns s) ∨ s ∈ w'.issued
  releases : ∀ r ∈ w'.releases, r ∈ w.releases ∨ t'.reserved = some r
  withdrawn : w.withdrawn ⊆ w'.withdrawn
  now : w.now ≤ w'.now

/-- A section that runs on `v`, which has the handlers of `w`, and draws no id. -/
theorem PrepareEffect.of_sameTasks {w v w' : World} {h : TaskId} {t' : PrepareTask}
    (hsame : SameTasks w v) (hprepares : w'.prepares = Function.update v.prepares h (some t'))
    (hrest : w'.uploads = v.uploads ∧ w'.issued = v.issued ∧ w'.withdrawn = v.withdrawn ∧
      w'.now = v.now)
    (hreleases : w'.releases = v.releases ∨ w'.releases = v.releases ++ t'.reserved.toList)
    (howned : ∀ s, t'.Owns s → ∃ t, w.prepares h = some t ∧ t.Owns s) :
    PrepareEffect w h t' w' where
  prepares := hprepares.trans (by rw [hsame.prepares])
  uploads := hrest.1.trans hsame.uploads
  issued := .inl (hrest.2.1.trans hsame.issued)
  owned := fun s hs => .inl (howned s hs)
  releases := by
    -- the guard's release is queued when the handler is done or dropped
    intro r hr
    cases hreleases with
    | inl heq => exact .inl (hsame.releases (heq ▸ hr))
    | inr heq =>
      rw [heq, List.mem_append, Option.mem_toList] at hr
      exact hr.imp (fun h => hsame.releases h) id
  withdrawn := fun _ hs => by
    rw [hrest.2.2.1]
    exact hsame.withdrawn hs
  now := by
    rw [hrest.2.2.2]
    exact hsame.now

/-- A section of a prepare is one move of that handler. -/
theorem prepareMove_of_prepareStep {w w' : World} {h : TaskId} {a : PrepareAction}
    (hstep : PrepareStep w h a w') :
    ∃ t', PrepareMove w (w.prepares h) a t' ∧ PrepareEffect w h t' w' := by
  -- a handler without ids owns nothing, whatever was before
  have hnone : ∀ {t' : PrepareTask}, t'.reserved = none → t'.accepted = none →
      ∀ s, t'.Owns s → ∃ t, w.prepares h = some t ∧ t.Owns s := by
    intro t' hres hacc s hs
    rcases hs with hs | hs
    · cases hres.symm.trans hs
    · cases hacc.symm.trans hs
  cases hstep with
  -- the PIN, then the empty offer, then admission
  | @checkPin peer pin request fresh =>
    rw [fresh]
    unfold checkPin
    dsimp only
    split
    · exact ⟨_, .refusedPin (by simp [*]) (.inl rfl),
        .of_sameTasks (.refl w) rfl ⟨rfl, rfl, rfl, rfl⟩ (.inr rfl) (hnone rfl rfl)⟩
    · exact ⟨_, .refusedPin (by simp [*]) (.inr rfl),
        .of_sameTasks (.refl w) rfl ⟨rfl, rfl, rfl, rfl⟩ (.inr rfl) (hnone rfl rfl)⟩
    · rename_i hok
      rw [hok]
      cases hempty : request.files.isEmpty with
      | true =>
        exact ⟨_, .emptyOffer hempty,
          .of_sameTasks (.refl w) rfl ⟨rfl, rfl, rfl, rfl⟩ (.inr rfl) (hnone rfl rfl)⟩
      | false =>
        exact ⟨_, .admitted hempty,
          .of_sameTasks (.refl w) rfl ⟨rfl, rfl, rfl, rfl⟩ (.inl rfl) (hnone rfl rfl)⟩
  | @reserve t id token ht live phase hid =>
    have hmove := @PrepareMove.reserved w t id token phase hid
    -- the placeholder's id is the only new one
    have hown : ∀ s, (t.reservedAs id w.state.autoAccept).Owns s →
        (∃ t', w.prepares h = some t' ∧ t'.Owns s) ∨ s ∈ id :: w.issued := by
      intro s hs
      rcases hmove.owns hs with ⟨t', ht', hs⟩ | ⟨_, ⟨_, hact⟩ | ⟨_, hact⟩⟩
      · exact .inl ⟨t', ht.trans ht', hs⟩
      · cases hact
        exact .inr List.mem_cons_self
      · simp at hact
    rw [ht]
    -- a conflict answers at once; otherwise the slot was free or has been reclaimed
    rcases reserve_cases w h t id token with ⟨s, _, _, heq⟩ | ⟨_, heq⟩ | ⟨s, _, _, _, heq⟩
    · rw [heq]
      exact ⟨_, .conflict phase,
        .of_sameTasks (.refl w) rfl ⟨rfl, rfl, rfl, rfl⟩ (.inr rfl) fun s hs => ⟨t, ht, hs⟩⟩
    · rw [heq]
      exact ⟨_, hmove, rfl, rfl, .inr ⟨id, hid, rfl⟩, hown, fun _ hr => .inl hr, List.Subset.refl _,
        Nat.le_refl _⟩
    · rw [heq]
      exact ⟨_, hmove, rfl, rfl, .inr ⟨id, hid, rfl⟩, hown, fun _ hr => .inl hr, List.Subset.refl _,
        Nat.le_refl _⟩
  -- without a consumer the offer declines itself
  | @sendRequest t ht live phase =>
    rw [ht]
    unfold sendRequest
    split
    · exact ⟨_, .nobodyListening phase,
        .of_sameTasks (.refl w) rfl ⟨rfl, rfl, rfl, rfl⟩ (.inl rfl) fun s hs => ⟨t, ht, hs⟩⟩
    · exact ⟨_, .sent phase,
        .of_sameTasks (.refl w) rfl ⟨rfl, rfl, rfl, rfl⟩ (.inl rfl) fun s hs => ⟨t, ht, hs⟩⟩
  | @decide t answer ht live phase =>
    rw [ht]
    exact ⟨_, .decided phase,
      .of_sameTasks (.refl w) rfl ⟨rfl, rfl, rfl, rfl⟩ (.inl rfl) fun s hs => ⟨t, ht, hs⟩⟩
  | @clearAwaiting t d id token ht live phase hd hid =>
    have hsame := sameTasks_clearReservation w t
    rw [ht]
    -- the three ways on: a refusal, a decline, or a session to install
    rcases clearAwaiting_cases w h t d id token with ⟨reason, rfl, heq⟩ | ⟨_, hids, heq⟩ | ⟨hids, heq⟩
    · rw [heq]
      exact ⟨_, .toRefuse phase hd,
        .of_sameTasks hsame rfl ⟨rfl, rfl, rfl, rfl⟩ (.inl rfl) fun s hs => ⟨t, ht, hs⟩⟩
    · rw [heq]
      exact ⟨_, .toDecline phase hd hids,
        .of_sameTasks hsame rfl ⟨rfl, rfl, rfl, rfl⟩ (.inl rfl) fun s hs => ⟨t, ht, hs⟩⟩
    · rw [heq]
      -- the installed session is the only new id
      refine ⟨_, @PrepareMove.toInstall w t d id token phase hd hids hid, ?_, hsame.uploads, ?_, ?_,
        ?_, ?_, hsame.now⟩
      · rw [← hsame.prepares]
        rfl
      · exact .inr ⟨id, hid, congrArg (id :: ·) hsame.issued⟩
      -- what the handler owns now is its reservation and the session
      · intro s hs
        rcases hs with hs | hs
        · exact .inl ⟨t, ht, .inl hs⟩
        · cases hs
          exact .inr List.mem_cons_self
      · exact fun _ hr => .inl (hsame.releases hr)
      · exact fun _ hr => hsame.withdrawn hr
  -- both unwind whatever session is in the slot
  | @refuse t ht live phase =>
    rw [ht]
    exact ⟨_, .refused phase,
      .of_sameTasks (sameTasks_unwind w) rfl ⟨rfl, rfl, rfl, rfl⟩ (.inr rfl) fun s hs => ⟨t, ht, hs⟩⟩
  | @decline t ht live phase =>
    rw [ht]
    exact ⟨_, .declined phase,
      .of_sameTasks (sameTasks_unwind w) rfl ⟨rfl, rfl, rfl, rfl⟩ (.inr rfl) fun s hs => ⟨t, ht, hs⟩⟩
  -- a message stays to be delivered, files are answered with their tokens
  | @install t session ht live phase =>
    rw [ht]
    unfold install
    dsimp only
    split
    · exact ⟨_, .installedMessage phase (by assumption),
        .of_sameTasks (sameTasks_unwind w) rfl ⟨rfl, rfl, rfl, rfl⟩ (.inl rfl) fun s hs => ⟨t, ht, hs⟩⟩
    · exact ⟨_, .installed phase (by assumption),
        .of_sameTasks (sameTasks_unwind w) rfl ⟨rfl, rfl, rfl, rfl⟩ (.inr rfl) fun s hs => ⟨t, ht, hs⟩⟩
  | @deliverText t text id ht live phase hid =>
    rw [ht]
    exact ⟨_, .delivered phase hid,
      .of_sameTasks (.refl w) rfl ⟨rfl, rfl, rfl, rfl⟩ (.inr rfl) fun s hs => ⟨t, ht, hs⟩⟩
  | @drop t ht live phase =>
    rw [ht]
    exact ⟨_, .dropped phase,
      .of_sameTasks (.refl w) rfl ⟨rfl, rfl, rfl, rfl⟩ (.inr rfl) fun s hs => ⟨t, ht, hs⟩⟩

/-- A step is one move of a prepare handler, or leaves them all alone. -/
theorem prepareMove_of_step {sha : List UInt8 → String} {w w' : World} {a : Action}
    (hstep : w.step sha a = some w') :
    (∃ h b t', a = .prepare h b ∧ PrepareStep w h b w' ∧ PrepareMove w (w.prepares h) b t' ∧
      PrepareEffect w h t' w') ∨
    ((∀ h b, a ≠ .prepare h b) ∧ w'.prepares = w.prepares ∧ w'.issued = w.issued ∧
      w'.releases ⊆ w.releases ∧ w.withdrawn ⊆ w'.withdrawn ∧ w.now ≤ w'.now) := by
  cases a with
  | prepare h b =>
    obtain ⟨t', hmove, heffect⟩ := prepareMove_of_prepareStep (step_prepare hstep)
    exact .inl ⟨h, b, t', rfl, step_prepare hstep, hmove, heffect⟩
  -- an upload moves no handler of an offer
  | upload u b =>
    have h := samePrepares_of_uploadStep (step_upload hstep)
    have hreleases : w'.releases ⊆ w.releases := h.releases ▸ List.Subset.refl _
    have hwithdrawn : w.withdrawn ⊆ w'.withdrawn := h.withdrawn ▸ List.Subset.refl _
    exact .inr ⟨by simp, h.prepares, h.issued, hreleases, hwithdrawn, h.now ▸ Nat.le_refl _⟩
  | _ =>
    have h := sameTasks_of_step hstep (by simp) (by simp)
    exact .inr ⟨by simp, h.prepares, h.issued, h.releases, h.withdrawn, h.now⟩

/-- A handler that exists keeps existing, with at most one move. -/
theorem prepares_of_step {sha : List UInt8 → String} {w w' : World} {a : Action}
    (hstep : w.step sha a = some w') {h : TaskId} {t : PrepareTask} (ht : w.prepares h = some t) :
    (w'.prepares h = some t ∧ ∀ b, a ≠ .prepare h b) ∨
      ∃ b t', a = .prepare h b ∧ t.dropped = false ∧ w'.prepares h = some t' ∧
        PrepareMove w (some t) b t' := by
  rcases prepareMove_of_step hstep with ⟨g, b, t', rfl, hsection, hmove, heffect⟩ |
      ⟨ha, hprepares, _⟩
  · by_cases hg : h = g
    · subst hg
      rw [ht] at hmove
      exact .inr ⟨b, t', rfl, hsection.live ht, by rw [heffect.prepares, Function.update_self], hmove⟩
    · refine .inl ⟨by rw [heffect.prepares, Function.update_of_ne hg, ht], fun b' hb' => ?_⟩
      cases hb'
      exact hg rfl
  · exact .inl ⟨by rw [hprepares, ht], ha h⟩

/-- After the section that clears the reservation it no longer awaits consent. -/
theorem not_awaiting_of_clearAwaiting {w : World} {h : TaskId} {t : PrepareTask}
    {d : TransferDecision} {id : SessionId} {token : FileId → Token} {r : ConsentReservation}
    (hr : (w.clearAwaiting h t d id token).state.awaitingConsent = some r) :
    t.reserved ≠ some r.sessionId := by
  have hslot : (w.clearAwaiting h t d id token).slot = (w.clearReservation t).slot := by
    rcases clearAwaiting_cases w h t d id token with ⟨_, _, heq⟩ | ⟨_, _, heq⟩ | ⟨_, heq⟩ <;>
      (rw [heq]; rfl)
  have hawait : (w.clearReservation t).slot.awaiting = some r := by
    rw [← hslot]
    exact hr
  rcases slot_clearReservation w t with ⟨r', _, _, heq⟩ | ⟨hother, heq⟩
  · rw [heq] at hawait
    simp at hawait
  · rw [heq] at hawait
    exact hother r hawait

/-! ## The invariant -/

/-- How the prepare handlers of a world fit together, and fit the slot. -/
structure PrepareInv (w : World) : Prop where
  wf : ∀ h t, w.prepares h = some t → t.Wf
  issued : ∀ h t s, w.prepares h = some t → t.Owns s → s ∈ w.issued
  owner : ∀ h h' t t' s, w.prepares h = some t → w.prepares h' = some t' →
    t.Owns s → t'.Owns s → h = h'
  apart : ∀ h t s, w.prepares h = some t → t.reserved = some s → t.accepted ≠ some s
  placed : ∀ s, w.state.currentSession = some s → ∃ h t, w.prepares h = some t ∧ t.Placed s
  awaiting : ∀ r, w.state.awaitingConsent = some r → ∃ h t, w.prepares h = some t ∧
    t.reserved = some r.sessionId ∧ t.peer = r.fromIp ∧ t.phase.beforeClear = true

/-- A receiver that has just started has no handler and no session. -/
theorem prepareInv_start (c : ServerConfig) : (World.start c).PrepareInv where
  wf _ _ h := by cases h
  issued _ _ _ h := by cases h
  owner _ _ _ _ _ h := by cases h
  apart _ _ _ h := by cases h
  placed _ h := by cases h
  awaiting _ h := by cases h

/-- The session in the slot has an id that was issued. -/
theorem PrepareInv.issued_current {w : World} (hinv : w.PrepareInv) {s : Session}
    (hs : w.state.currentSession = some s) : s.id ∈ w.issued := by
  obtain ⟨h, t, ht, hplaced⟩ := hinv.placed s hs
  exact hinv.issued h t s.id ht (hplaced.imp id fun hacc => hacc.1)

/-- The session in the slot is not about to be installed. -/
theorem PrepareInv.ne_installing {w : World} (hinv : w.PrepareInv) {c s : Session} {h : TaskId}
    {p : PrepareTask} (hc : w.state.currentSession = some c) (hp : w.prepares h = some p)
    (phase : p.phase = .installing s) : s.id ≠ c.id := by
  intro hid
  have hwf := hinv.wf h p hp
  simp only [PrepareTask.Wf, phase] at hwf
  obtain ⟨g, q, hq, hplaced⟩ := hinv.placed c hc
  have hown : q.Owns s.id := by
    -- the handler of the slot's session and the one about to install own one id
    rw [hid]
    exact hplaced.imp id fun hacc => hacc.1
  obtain rfl : h = g := hinv.owner h g p q s.id hp hq (.inr hwf.2.1) hown
  cases hp.symm.trans hq
  cases hplaced with
  | inl hres =>
    -- the placeholder's id is not the accepted one
    rw [← hid] at hres
    exact hinv.apart h p s.id hp hres hwf.2.1
  | inr hacc => exact hacc.2.1 s phase

/-- The entry of a handler after a step, and where it comes from. -/
theorem prepares_before {sha : List UInt8 → String} {w w' : World} {a : Action}
    (hstep : w.step sha a = some w') {h : TaskId} {t' : PrepareTask}
    (ht' : w'.prepares h = some t') :
    w.prepares h = some t' ∨
      ∃ b, a = .prepare h b ∧ PrepareMove w (w.prepares h) b t' ∧ PrepareEffect w h t' w' := by
  rcases prepareMove_of_step hstep with ⟨g, b, u, rfl, _, hmove, heffect⟩ | ⟨_, hprepares, _⟩
  · by_cases hg : h = g
    · subst hg
      rw [heffect.prepares, Function.update_self] at ht'
      cases ht'
      exact .inr ⟨b, rfl, hmove, heffect⟩
    · rw [heffect.prepares, Function.update_of_ne hg] at ht'
      exact .inl ht'
  · rw [hprepares] at ht'
    exact .inl ht'

/-- A step issues one new id at most. -/
theorem issued_of_step {sha : List UInt8 → String} {w w' : World} {a : Action}
    (hstep : w.step sha a = some w') :
    w'.issued = w.issued ∨ ∃ id, id ∉ w.issued ∧ w'.issued = id :: w.issued := by
  rcases prepareMove_of_step hstep with ⟨_, _, _, _, _, _, heffect⟩ | ⟨_, _, hissued, _⟩
  · exact heffect.issued
  · exact .inl hissued

/-- Ids once issued stay issued. -/
theorem issued_mono {sha : List UInt8 → String} {w w' : World} {a : Action}
    (hstep : w.step sha a = some w') : w.issued ⊆ w'.issued := by
  rcases issued_of_step hstep with hissued | ⟨id, -, hissued⟩
  · rw [hissued]
    exact List.Subset.refl _
  · rw [hissued]
    exact List.subset_cons_self id w.issued

/-- A withdraw token that has been fired stays fired. -/
theorem withdrawn_mono {sha : List UInt8 → String} {w w' : World} {a : Action}
    (hstep : w.step sha a = some w') : w.withdrawn ⊆ w'.withdrawn := by
  rcases prepareMove_of_step hstep with ⟨_, _, _, _, _, _, heffect⟩ | ⟨_, _, _, _, hwithdrawn, _⟩
  · exact heffect.withdrawn
  · exact hwithdrawn

/-- The clock never goes back. -/
theorem now_mono {sha : List UInt8 → String} {w w' : World} {a : Action}
    (hstep : w.step sha a = some w') : w.now ≤ w'.now := by
  rcases prepareMove_of_step hstep with ⟨_, _, _, _, _, _, heffect⟩ | ⟨_, _, _, _, _, hnow⟩
  · exact heffect.now
  · exact hnow

/-- A session of the slot keeps its owner. -/
theorem PrepareInv.placed_of_step {sha : List UInt8 → String} {w w' : World} {a : Action}
    (hinv : w.PrepareInv) (hstep : w.step sha a = some w') {s s' : Session}
    (hs : w.state.currentSession = some s) (hid : s'.id = s.id) (hfiles : s'.files = s.files) :
    ∃ h t, w'.prepares h = some t ∧ t.Placed s' := by
  obtain ⟨h, t, ht, hplaced⟩ := hinv.placed s hs
  have hplaced' : t.Placed s' := by
    simpa only [PrepareTask.Placed, hid, hfiles] using hplaced
  rcases prepares_of_step hstep ht with ⟨ht', _⟩ | ⟨b, t', _, _, ht', hmove⟩
  · exact ⟨h, t, ht', hplaced'⟩
  · exact ⟨h, t', ht', hmove.placed (hinv.wf h t ht) hplaced'⟩

/-- A reservation that still awaits consent after a step keeps its owner. -/
theorem PrepareInv.awaiting_of_step {sha : List UInt8 → String} {w w' : World} {a : Action}
    (hinv : w.PrepareInv) (hstep : w.step sha a = some w') {r : ConsentReservation}
    (hr : w.state.awaitingConsent = some r) (hr' : w'.state.awaitingConsent = some r) :
    ∃ h t, w'.prepares h = some t ∧ t.reserved = some r.sessionId ∧ t.peer = r.fromIp ∧
      t.phase.beforeClear = true := by
  obtain ⟨h, t, ht, hres, hpeer, hphase⟩ := hinv.awaiting r hr
  rcases prepares_of_step hstep ht with ⟨ht', _⟩ | ⟨b, t', rfl, _, ht', hmove⟩
  · exact ⟨h, t, ht', hres, hpeer, hphase⟩
  · obtain ⟨hres', hpeer', _⟩ := hmove.reserved_eq (hinv.wf h t ht) hres
    refine ⟨h, t', ht', hres', hpeer'.trans hpeer, ?_⟩
    rcases hmove.beforeClear hphase with h' | ⟨id, token, rfl⟩
    · exact h'
    · -- the handler's own reservation does not survive this section
      cases step_prepare hstep with
      | clearAwaiting htask live phase hd hid =>
        cases ht.symm.trans htask
        exact absurd hres (not_awaiting_of_clearAwaiting hr')

/-- The record of a file changes neither the id nor the files of its session. -/
theorem markReceived_id (s : Session) (f : FileId) (now : Nat) :
    (s.markReceived f now).2.id = s.id ∧ (s.markReceived f now).2.files = s.files := by
  unfold Session.markReceived
  split <;> exact ⟨rfl, rfl⟩

/-- Every step keeps the invariant. -/
theorem prepareInv_step {sha : List UInt8 → String} {w w' : World} {a : Action}
    (hinv : w.PrepareInv) (hstep : w.step sha a = some w') : w'.PrepareInv := by
  -- what a handler owns after the step it owned before, or the step has issued it to it
  have howned : ∀ h t s, w'.prepares h = some t → t.Owns s →
      (∃ t₀, w.prepares h = some t₀ ∧ t₀.Owns s) ∨
        (s ∉ w.issued ∧ ∃ b, a = .prepare h b ∧ s ∈ w'.issued) := by
    intro h t s ht hs
    rcases prepares_before hstep ht with ht | ⟨b, ha, hmove, heffect⟩
    · exact .inl ⟨t, ht, hs⟩
    · rcases hmove.owns hs with h₀ | ⟨hfresh, _⟩
      · exact .inl h₀
      · rcases heffect.owned s hs with h₀ | hin
        · exact .inl h₀
        · exact .inr ⟨hfresh, b, ha, hin⟩
  refine ⟨?_, ?_, ?_, ?_, ?_, ?_⟩
  -- every task is well-formed
  · intro h t ht
    rcases prepares_before hstep ht with ht | ⟨b, _, hmove, _⟩
    · exact hinv.wf h t ht
    · exact hmove.wf (hinv.wf h)
  -- what is owned has been issued
  · intro h t s ht hs
    rcases howned h t s ht hs with ⟨t₀, ht₀, hs₀⟩ | ⟨_, _, _, hin⟩
    · exact issued_mono hstep (hinv.issued h t₀ s ht₀ hs₀)
    · exact hin
  -- no two handlers own one session: a fresh id was nobody's before
  · intro h h' t t' s ht ht' hs hs'
    rcases howned h t s ht hs with ⟨t₀, ht₀, hs₀⟩ | ⟨hfresh, b, ha, _⟩ <;>
      rcases howned h' t' s ht' hs' with ⟨t₁, ht₁, hs₁⟩ | ⟨hfresh', b', ha', _⟩
    · exact hinv.owner h h' t₀ t₁ s ht₀ ht₁ hs₀ hs₁
    · exact absurd (hinv.issued h t₀ s ht₀ hs₀) hfresh'
    · exact absurd (hinv.issued h' t₁ s ht₁ hs₁) hfresh
    · cases ha.symm.trans ha'
      rfl
  -- the two ids of a handler differ
  · intro h t s ht
    rcases prepares_before hstep ht with ht | ⟨b, _, hmove, _⟩
    · exact hinv.apart h t s ht
    · exact hmove.apart (hinv.wf h) (hinv.issued h) (hinv.apart h) s
  -- the session in the slot is the reservation or the accepted session of a handler
  · intro s' hs'
    have hslot' : w'.slot.session = some s' := hs'
    cases slotMove_of_step hstep with
    -- these leave the slot's session alone
    | keep slot | consented _ _ _ _ _ slot | withdrawnLate _ _ _ slot =>
      rw [slot] at hslot'
      exact hinv.placed_of_step hstep hslot' rfl rfl
    -- the placeholder of the handler that reserves
    | @place h t id token _ ht live phase fresh free after slot =>
      rw [slot] at hslot'
      cases hslot'
      refine ⟨h, _, after, .inl ?_⟩
      unfold PrepareTask.reservedAs
      split <;> rfl
    -- the session that the handler had built, with the files it granted
    | @installed h t s _ ht live phase slot =>
      rw [slot] at hslot'
      cases hslot'
      have hwf := hinv.wf h t ht
      simp only [PrepareTask.Wf, phase] at hwf
      obtain ⟨_, hacc, token, now, hnew⟩ := hwf
      have hfiles : s'.files = t.grantedFiles := by rw [hnew]; rfl
      rcases prepares_of_step hstep ht with ⟨_, hne⟩ | ⟨b, t', hb, _, ht', hmove⟩
      · exact absurd rfl (hne .install)
      · cases hb
        refine ⟨h, t', ht', .inr ?_⟩
        obtain ⟨hacc', hgranted, _⟩ := hmove.accepted_eq (hinv.wf h t ht) hacc
        refine ⟨hacc', ?_, hfiles.trans hgranted.symm⟩
        cases hmove <;> simp
    -- marking a file changes neither the id nor the files
    | @recorded u t s _ ht more slot =>
      rw [slot] at hslot'
      cases hslot'
      obtain ⟨hid, hfiles⟩ := markReceived_id s t.fileId w.now
      exact hinv.placed_of_step hstep ht.2.2.2.1 hid hfiles
    -- these clear the slot
    | refused _ _ _ slot | declined _ _ _ slot | delivered _ _ _ slot | withdrawn _ _ _ _ slot
    | cancelled _ _ _ _ _ slot | swept _ _ _ slot | stopped _ _ slot | completed _ _ slot =>
      rw [slot] at hslot'
      simp at hslot'
  -- the offer that awaits consent is a handler's reservation
  · intro r hr
    have hslot' : w'.slot.awaiting = some r := hr
    cases slotMove_of_step hstep with
    | @place h t id token _ ht live phase fresh free after slot =>
      rw [slot] at hslot'
      cases hslot'
      refine ⟨h, _, after, ?_⟩
      unfold PrepareTask.reservedAs
      split <;> exact ⟨rfl, rfl, rfl⟩
    | keep slot | refused _ _ _ slot | declined _ _ _ slot | installed _ _ _ slot
    | delivered _ _ _ slot | cancelled _ _ _ _ _ slot | swept _ _ _ slot | stopped _ _ slot
    | recorded _ _ slot | completed _ _ slot =>
      rw [slot] at hslot'
      exact hinv.awaiting_of_step hstep hslot' hr
    | consented _ _ _ _ _ slot | withdrawn _ _ _ _ slot | withdrawnLate _ _ _ slot =>
      rw [slot] at hslot'
      simp at hslot'

/-- Phases, ids and the slot fit together in every reachable world. -/
theorem prepareInv_of_reachable {sha : List UInt8 → String} {w : World}
    (h : (receiver sha).Reachable w) : w.PrepareInv := by
  refine (receiver sha).reachable_induction PrepareInv ?_ (fun _ _ _ => prepareInv_step) h
  rintro w ⟨c, rfl⟩
  exact prepareInv_start c

end World

end LocalSend
