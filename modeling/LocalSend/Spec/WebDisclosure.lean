import LocalSend.Server.WebShare

/-!
# What Web Share gives away

A share gives its file list and its files to the browsers it has approved. The approval is
asked for while the lock is free, and the handler that waits for it takes up whatever
share is running when it comes back. Shares are told apart by their number, and what a
share held when it was stopped or replaced is remembered, so that a response can be held
against the share its content is from.

## Key results

- `Inv.step`: who is known to which share, and what an answer goes back to
- `disclosure_iff`: when every response goes to a browser its share has approved
-/

namespace LocalSend

namespace WebWorld

/-! ## Shares by number -/

/-- What share number `g` holds now, or held when it ended. -/
def held (w : WebWorld) (g : Nat) : Option WebShareState :=
  if g = w.number ∧ w.host.share.isSome then w.host.share else w.ended g

/-- The session `id` of share number `g`. -/
def session (w : WebWorld) (g : Nat) (id : SessionId) : Option WebShareSession :=
  (w.held g).bind fun web => web.sessions.get? id

/-- The share that is held under the number of the current one. -/
theorem held_number {w : WebWorld} {web : WebShareState} (hs : w.host.share = some web) :
    w.held w.number = some web := by simp [held, hs]

/-- Its sessions. -/
theorem session_number {w : WebWorld} {web : WebShareState} (hs : w.host.share = some web)
    (id : SessionId) : w.session w.number id = web.sessions.get? id := by
  simp [session, held_number hs]

/-- Writing the running share. -/
theorem held_setShare (w : WebWorld) (web : WebShareState) :
    (w.setShare web).held = Function.update w.held w.number (some web) := by
  funext g
  by_cases hg : g = w.number
  · subst hg
    simp [held, setShare]
  · simp [held, setShare, hg]

/-- A share that ends is remembered as it was. -/
theorem held_endShare (w : WebWorld) : w.endShare.held = w.held := by
  funext g
  unfold held endShare
  cases hs : w.host.share with
  | none => simp
  | some web =>
    by_cases hg : g = w.number
    · subst hg
      simp
    · simp [hg]

/-- The share that takes the place of another has the next number. -/
theorem held_newShare (w : WebWorld) (web : WebShareState) (g : Nat) :
    ({ w.endShare with host.share := some web, number := w.number + 1 } : WebWorld).held g =
      if g = w.number + 1 then some web else w.endShare.held g := by
  by_cases hg : g = w.number + 1 <;> simp [held, endShare, hg]

/-! ## What the disclosures rest on -/

/-- The response is the share's own content, for a peer with an approved session there. -/
def Entitled (w : WebWorld) (d : Disclosure) : Prop :=
  ∃ web id s, w.held d.share = some web ∧ web.sessions.get? id = some s ∧ s.ip = d.peer ∧
    s.approved = true ∧
    match d.content with
    | .files files => files = web.files.mapVal fun _ file => file.metadata
    | .bytes fileId file => web.files.get? fileId = some file

/-- Every response so far was for its peer, from the share that was asked. -/
def Disclosures (w : WebWorld) : Prop := ∀ d ∈ w.sent, w.Entitled d ∧ d.requested = d.share

/-- An approved session's peer has passed the gate, and the share approves of everybody or
    was told to approve of this one. -/
def Provenance (w : WebWorld) : Prop :=
  ∀ g web id s, w.held g = some web → web.sessions.get? id = some s → s.approved = true →
    (g, id, s.ip) ∈ w.admitted ∧ (web.autoAccept = true ∨ (g, id) ∈ w.responded)

/-- A step books an admission when the gate of the running share lets the peer pass, and an
    approval when it is delivered. -/
def Booked (w : WebWorld) (a : WebAction) (w' : WebWorld) : Prop :=
  (∀ g id peer, (g, id, peer) ∈ w'.admitted → (g, id, peer) ∈ w.admitted ∨
    ∃ h s pin web cleared, a = .prepare h (.begin_ peer s pin id) ∧ w.host.share = some web ∧
      g = w.number ∧ (web.pinGate.check w.now pin peer).1 = .ok cleared) ∧
  ∀ g id, (g, id) ∈ w'.responded → (g, id) ∈ w.responded ∨
    a = .respondWebShare id true ∧ w.host.share.isSome ∧ g = w.number


/-- Who is known to which share. -/
structure Inv (w : WebWorld) : Prop where
  future : ∀ g, w.number < g → w.ended g = none
  issued : ∀ g id peer, (g, id, peer) ∈ w.admitted → id ∈ w.issued
  once : ∀ g g' id peer peer', (g, id, peer) ∈ w.admitted → (g', id, peer') ∈ w.admitted →
    g = g' ∧ peer = peer'
  admitted : ∀ g id s, w.session g id = some s → (g, id, s.ip) ∈ w.admitted
  approved : ∀ g web id s, w.held g = some web → web.sessions.get? id = some s →
    s.approved = true → web.autoAccept = true ∨ (g, id) ∈ w.responded
  tasks : ∀ h t, w.prepares h = some t → (t.share, t.sessionId, t.peer) ∈ w.admitted
  /-- A waiting request has a session that nobody has approved yet. -/
  waiting : ∀ h t, w.prepares h = some t → t.phase.awaits = true →
    ∃ s, w.session t.share t.sessionId = some s ∧ s.approved = false
  ownTask : ∀ h h' t t', w.prepares h = some t → w.prepares h' = some t' →
    t.sessionId = t'.sessionId → h = h'
  sender : ∀ g id s h, w.session g id = some s → s.responseTx = some h →
    ∃ t, w.prepares h = some t ∧ t.sessionId = id
  responded : ∀ h t, w.prepares h = some t →
    t.response = some true ∨ t.phase = .relocking true → (t.share, t.sessionId) ∈ w.responded
  /-- A download that has not answered yet was let in. -/
  downloads : ∀ u t, w.downloads u = some t → t.phase = .opening ∨ t.phase = .measuring →
    w.Entitled ⟨t.peer, t.share, t.share, .bytes t.fileId t.file⟩
  sent : w.Disclosures

/-- At the start there is no share. -/
theorem inv_start (device : DeviceInfo) : (WebWorld.start device).Inv where
  future _ _ := rfl
  issued g id peer h := by cases h
  once g g' id peer peer' h := by cases h
  admitted g id s h := by simp [session, held, WebWorld.start] at h
  approved g web id s h := by simp [held, WebWorld.start] at h
  tasks h t ht := by cases ht
  waiting h t ht := by cases ht
  ownTask h h' t t' ht := by cases ht
  sender g id s h hs := by simp [session, held, WebWorld.start] at hs
  responded h t ht := by cases ht
  downloads u t ht := by cases ht
  sent d hd := by cases hd

/-- The invariant gives where every approval comes from. -/
theorem Inv.provenance {w : WebWorld} (h : w.Inv) : w.Provenance := by
  intro g web id s hweb hs happroved
  exact ⟨h.admitted g id s (by simp [session, hweb, hs]), h.approved g web id s hweb hs happroved⟩

/-! ## Frames -/

/-- No share loses its files, its mode, or a session it has approved. -/
def Later (w w' : WebWorld) : Prop :=
  ∀ g web, w.held g = some web → ∃ web', w'.held g = some web' ∧ web'.files = web.files ∧
    web'.autoAccept = web.autoAccept ∧ ∀ id s, web.sessions.get? id = some s → s.approved = true →
      ∃ s', web'.sessions.get? id = some s' ∧ s'.ip = s.ip ∧ s'.approved = true

/-- What was entitled stays so. -/
theorem Entitled.later {w w' : WebWorld} {d : Disclosure} (h : w.Entitled d) (hlater : w.Later w') :
    w'.Entitled d := by
  obtain ⟨web, id, s, hweb, hs, hip, happroved, hcontent⟩ := h
  obtain ⟨web', hweb', hfiles, _, hsessions⟩ := hlater _ web hweb
  obtain ⟨s', hs', hip', happroved'⟩ := hsessions id s hs happroved
  refine ⟨web', id, s', hweb', hs', hip'.trans hip, happroved', ?_⟩
  rw [hfiles]
  exact hcontent

/-- What a section may do to a prepare: move it on, within what is known of its session. -/
def MovesPrepare (w w' : WebWorld) (t t' : PrepareDownload) : Prop :=
  t'.sessionId = t.sessionId ∧ t'.share = t.share ∧ t'.peer = t.peer ∧
    (t'.phase.awaits = true → ∃ s, w'.session t.share t.sessionId = some s ∧ s.approved = false) ∧
    (t'.response = some true ∨ t'.phase = .relocking true → (t.share, t.sessionId) ∈ w'.responded) ∧
    w.responded ⊆ w'.responded

/-- What a section respects that admits nobody. -/
structure Frame (w w' : WebWorld) : Prop where
  later : w.Later w'
  future : ∀ g, w'.number < g → w'.ended g = none
  issued : w'.issued = w.issued
  admitted : w'.admitted = w.admitted
  responded : w.responded ⊆ w'.responded
  /-- The sessions were there before, and have become approved only if that was delivered. -/
  sessions : ∀ g web' id s', w'.held g = some web' → web'.sessions.get? id = some s' →
    ∃ web s, w.held g = some web ∧ web'.autoAccept = web.autoAccept ∧
      web.sessions.get? id = some s ∧ s'.ip = s.ip ∧
      (s'.approved = true → s.approved = true ∨ (g, id) ∈ w'.responded) ∧
      ∀ h, s'.responseTx = some h → s.responseTx = some h
  prepares : ∀ h t', w'.prepares h = some t' → ∃ t, w.prepares h = some t ∧ w.MovesPrepare w' t t'
  kept : ∀ h t, w.prepares h = some t → ∃ t', w'.prepares h = some t' ∧ t'.sessionId = t.sessionId
  downloads : ∀ u t, w'.downloads u = some t → t.phase = .opening ∨ t.phase = .measuring →
    w'.Entitled ⟨t.peer, t.share, t.share, .bytes t.fileId t.file⟩
  sent : ∀ d ∈ w'.sent, d ∈ w.sent ∨ w'.Entitled d ∧ d.requested = d.share

/-- A step of the frame keeps the invariant. -/
theorem Frame.inv {w w' : WebWorld} (frame : w.Frame w') (h : w.Inv) : w'.Inv where
  future := frame.future
  issued g id peer hadmitted := by
    rw [frame.admitted] at hadmitted
    rw [frame.issued]
    exact h.issued g id peer hadmitted
  once := by
    rw [frame.admitted]
    exact h.once
  -- every session of a share was admitted in it, and sessions keep their address
  admitted g id s' hs' := by
    simp only [session, Option.bind_eq_some_iff] at hs'
    obtain ⟨web', hweb', hs'⟩ := hs'
    obtain ⟨web, s, hweb, _, hs, hip, _⟩ := frame.sessions g web' id s' hweb' hs'
    rw [frame.admitted, hip]
    exact h.admitted g id s (by simp [session, hweb, hs])
  -- a session is approved from before, or by a response of this step
  approved g web' id s' hweb' hs' happroved := by
    obtain ⟨web, s, hweb, hauto, hs, _, hbefore, _⟩ := frame.sessions g web' id s' hweb' hs'
    rcases hbefore happroved with happroved | hresponded
    · rw [hauto]
      exact (h.approved g web id s hweb hs happroved).imp_right fun h => frame.responded h
    · exact .inr hresponded
  -- requests keep their id, their share and their peer
  tasks i t' ht' := by
    obtain ⟨t, ht, hid, hshare, hpeer, _⟩ := frame.prepares i t' ht'
    rw [hid, hshare, hpeer, frame.admitted]
    exact h.tasks i t ht
  -- a request that waits has a session that nobody has approved
  waiting i t' ht' hawaits := by
    obtain ⟨t, _, hid, hshare, _, hwaits, _⟩ := frame.prepares i t' ht'
    rw [hid, hshare]
    exact hwaits hawaits
  ownTask i j t t' ht ht' hid := by
    obtain ⟨q, hq, hqid, _⟩ := frame.prepares i t ht
    obtain ⟨q', hq', hqid', _⟩ := frame.prepares j t' ht'
    exact h.ownTask i j q q' hq hq' (by rw [← hqid, ← hqid', hid])
  -- a sender leads to the request that waits for it
  sender g id s' i hs' htx := by
    simp only [session, Option.bind_eq_some_iff] at hs'
    obtain ⟨web', hweb', hs'⟩ := hs'
    obtain ⟨web, s, hweb, _, hs, _, _, hbefore⟩ := frame.sessions g web' id s' hweb' hs'
    obtain ⟨t, ht, hid⟩ := h.sender g id s i (by simp [session, hweb, hs]) (hbefore i htx)
    obtain ⟨t', ht', hid'⟩ := frame.kept i t ht
    exact ⟨t', ht', hid'.trans hid⟩
  responded i t' ht' hresponse := by
    obtain ⟨t, _, hid, hshare, _, _, hresponded, _⟩ := frame.prepares i t' ht'
    rw [hid, hshare]
    exact hresponded hresponse
  downloads := frame.downloads
  -- what was sent before was sent to somebody entitled, and an entitlement is kept
  sent d hd := by
    rcases frame.sent d hd with hbefore | hnew
    · exact ⟨(h.sent d hbefore).1.later frame.later, (h.sent d hbefore).2⟩
    · exact hnew

/-- The shares and the books of two worlds are the same. -/
structure SameShares (w w' : WebWorld) : Prop where
  held : w'.held = w.held
  future : (∀ g, w.number < g → w.ended g = none) → ∀ g, w'.number < g → w'.ended g = none
  issued : w'.issued = w.issued
  admitted : w'.admitted = w.admitted
  responded : w'.responded = w.responded

/-- A step that leaves the shares as they are. -/
theorem Later.of_held {w w' : WebWorld} (h : w'.held = w.held) : w.Later w' := by
  intro g web hweb
  exact ⟨web, by rw [h, hweb], rfl, rfl, fun id s hs happroved => ⟨s, hs, rfl, happroved⟩⟩

/-- A section that leaves the shares alone. -/
theorem SameShares.frame {w w' : WebWorld} (same : w.SameShares w') (h : w.Inv)
    (hprepares : ∀ i t', w'.prepares i = some t' → ∃ t, w.prepares i = some t ∧
      w.MovesPrepare w' t t')
    (hkept : ∀ i t, w.prepares i = some t → ∃ t', w'.prepares i = some t' ∧
      t'.sessionId = t.sessionId)
    (hdownloads : ∀ u t, w'.downloads u = some t → t.phase = .opening ∨ t.phase = .measuring →
      w'.Entitled ⟨t.peer, t.share, t.share, .bytes t.fileId t.file⟩)
    (hsent : ∀ d ∈ w'.sent, d ∈ w.sent ∨ w'.Entitled d ∧ d.requested = d.share) : w.Frame w' where
  later := .of_held same.held
  future := same.future h.future
  issued := same.issued
  admitted := same.admitted
  responded := same.responded ▸ List.Subset.refl _
  sessions g web id s hweb hs :=
    ⟨web, s, by rw [← same.held, hweb], rfl, hs, rfl, .inl, fun _ h => h⟩
  prepares := hprepares
  kept := hkept
  downloads := hdownloads
  sent := hsent

/-- The prepares are the same, and still wait for the sessions they waited for. -/
theorem Inv.samePrepares {w w' : WebWorld} (h : w.Inv) (hprepares : w'.prepares = w.prepares)
    (hresponded : w.responded ⊆ w'.responded)
    (hsession : ∀ g id s, w.session g id = some s → s.approved = false →
      ∃ s', w'.session g id = some s' ∧ s'.approved = false) :
    (∀ i t', w'.prepares i = some t' → ∃ t, w.prepares i = some t ∧ w.MovesPrepare w' t t') ∧
      ∀ i t, w.prepares i = some t → ∃ t', w'.prepares i = some t' ∧
        t'.sessionId = t.sessionId := by
  rw [hprepares]
  refine ⟨fun i t ht => ⟨t, ht, rfl, rfl, rfl, fun hawaits => ?_, fun hresponse => ?_, hresponded⟩,
    fun i t ht => ⟨t, ht, rfl⟩⟩
  · obtain ⟨s, hs, happroved⟩ := h.waiting i t ht hawaits
    exact hsession _ _ s hs happroved
  · exact hresponded (h.responded i t ht hresponse)

/-- The downloads are the same, and what they were let in for has stayed. -/
theorem Inv.sameDownloads {w w' : WebWorld} (h : w.Inv) (hdownloads : w'.downloads = w.downloads)
    (hlater : w.Later w') : ∀ u t, w'.downloads u = some t →
      t.phase = .opening ∨ t.phase = .measuring →
      w'.Entitled ⟨t.peer, t.share, t.share, .bytes t.fileId t.file⟩ := by
  rw [hdownloads]
  exact fun u t ht hphase => (h.downloads u t ht hphase).later hlater

/-- One prepare moves on, and the others still wait for the sessions they waited for. -/
theorem Inv.movePrepare {w w' : WebWorld} (h : w.Inv) {i : WebTaskId} {t t' : PrepareDownload}
    (ht : w.prepares i = some t) (hprepares : w'.prepares = Function.update w.prepares i (some t'))
    (hmoves : w.MovesPrepare w' t t')
    (hsession : ∀ g id s, id ≠ t.sessionId → w.session g id = some s → s.approved = false →
      ∃ s', w'.session g id = some s' ∧ s'.approved = false) :
    (∀ j q', w'.prepares j = some q' → ∃ q, w.prepares j = some q ∧ w.MovesPrepare w' q q') ∧
      ∀ j q, w.prepares j = some q → ∃ q', w'.prepares j = some q' ∧
        q'.sessionId = q.sessionId := by
  rw [hprepares]
  constructor
  -- the request that moves, and the others
  · intro j q' hq'
    by_cases hj : j = i
    · subst hj
      rw [Function.update_self, Option.some.injEq] at hq'
      exact ⟨t, ht, hq' ▸ hmoves⟩
    · rw [Function.update_of_ne hj] at hq'
      refine ⟨q', hq', rfl, rfl, rfl, fun hawaits => ?_, fun hresponse => ?_, hmoves.2.2.2.2.2⟩
      -- a waiting request of another session keeps it, for no two requests share one
      · obtain ⟨s, hs, happroved⟩ := h.waiting j q' hq' hawaits
        exact hsession _ _ s (fun hid => hj (h.ownTask j i q' t hq' ht hid)) hs happroved
      · exact hmoves.2.2.2.2.2 (h.responded j q' hq' hresponse)
  · intro j q hq
    by_cases hj : j = i
    · subst hj
      cases hq.symm.trans ht
      exact ⟨t', Function.update_self .., hmoves.1⟩
    · exact ⟨q, by rw [Function.update_of_ne hj, hq], rfl⟩

/-- A section that writes the running share. -/
theorem Inv.shareFrame {w w' : WebWorld} {web web' : WebShareState} (h : w.Inv)
    (hs : w.host.share = some web)
    (hheld : w'.held = Function.update w.held w.number (some web')) (hnumber : w'.number = w.number)
    (hended : w'.ended = w.ended) (hissued : w'.issued = w.issued)
    (hadmitted : w'.admitted = w.admitted) (hresponded : w.responded ⊆ w'.responded)
    (hfiles : web'.files = web.files) (hauto : web'.autoAccept = web.autoAccept)
    (hafter : ∀ id s', web'.sessions.get? id = some s' → ∃ s, web.sessions.get? id = some s ∧
      s'.ip = s.ip ∧ (s'.approved = true → s.approved = true ∨ (w.number, id) ∈ w'.responded) ∧
      ∀ h, s'.responseTx = some h → s.responseTx = some h)
    (hbefore : ∀ id s, web.sessions.get? id = some s → s.approved = true →
      ∃ s', web'.sessions.get? id = some s' ∧ s'.ip = s.ip ∧ s'.approved = true)
    (hprepares : ∀ i t', w'.prepares i = some t' → ∃ t, w.prepares i = some t ∧
      w.MovesPrepare w' t t')
    (hkept : ∀ i t, w.prepares i = some t → ∃ t', w'.prepares i = some t' ∧
      t'.sessionId = t.sessionId)
    (hdownloads : w'.downloads = w.downloads)
    (hsent : ∀ d ∈ w'.sent, d ∈ w.sent ∨ w'.Entitled d ∧ d.requested = d.share) : w.Frame w' := by
  -- a later world has the shares of an earlier one, the current one as `web'`
  have hlater : w.Later w' := by
    intro g web₀ hweb₀
    by_cases hg : g = w.number
    · subst hg
      cases (held_number hs).symm.trans hweb₀
      exact ⟨web', by rw [hheld, Function.update_self], hfiles, hauto, hbefore⟩
    · exact ⟨web₀, by rw [hheld, Function.update_of_ne hg, hweb₀], rfl, rfl,
        fun id s hs happroved => ⟨s, hs, rfl, happroved⟩⟩
  exact {
    later := hlater
    future := by
      rw [hnumber, hended]
      exact h.future
    issued := hissued
    admitted := hadmitted
    responded := hresponded
    -- only the current share's sessions may differ
    sessions := by
      intro g web₁ id s' hweb₁ hs'
      by_cases hg : g = w.number
      · subst hg
        rw [hheld, Function.update_self, Option.some.injEq] at hweb₁
        subst hweb₁
        obtain ⟨s, hs₀, hrest⟩ := hafter id s' hs'
        exact ⟨web, s, held_number hs, hauto, hs₀, hrest⟩
      · rw [hheld, Function.update_of_ne hg] at hweb₁
        exact ⟨web₁, s', hweb₁, rfl, hs', rfl, .inl, fun _ h => h⟩
    prepares := hprepares
    kept := hkept
    downloads := h.sameDownloads hdownloads hlater
    sent := hsent }

/-- Two sessions that differ in what no response depends on. -/
structure SimilarSession (s s' : WebShareSession) : Prop where
  ip : s'.ip = s.ip
  approved : s'.approved = s.approved
  responseTx : ∀ h, s'.responseTx = some h → s.responseTx = some h

/-- A section that writes what no response depends on: the gate, who has downloaded what,
    which answers are still awaited. -/
theorem Inv.similarFrame {w w' : WebWorld} {web web' : WebShareState} (h : w.Inv)
    (hs : w.host.share = some web)
    (hheld : w'.held = Function.update w.held w.number (some web')) (hnumber : w'.number = w.number)
    (hended : w'.ended = w.ended) (hissued : w'.issued = w.issued)
    (hadmitted : w'.admitted = w.admitted) (hresponded : w.responded ⊆ w'.responded)
    (hfiles : web'.files = web.files) (hauto : web'.autoAccept = web.autoAccept)
    (f : SessionId → WebShareSession → WebShareSession) (hf : ∀ id s, SimilarSession s (f id s))
    (hsessions : ∀ id, web'.sessions.get? id = (web.sessions.get? id).map (f id))
    (hprepares : (∀ g id s, w.session g id = some s → s.approved = false →
        ∃ s', w'.session g id = some s' ∧ s'.approved = false) →
      (∀ i t', w'.prepares i = some t' → ∃ t, w.prepares i = some t ∧ w.MovesPrepare w' t t') ∧
        ∀ i t, w.prepares i = some t → ∃ t', w'.prepares i = some t' ∧ t'.sessionId = t.sessionId)
    (hdownloads : w'.downloads = w.downloads) (hsent : w'.sent = w.sent) : w.Frame w' := by
  -- a similar session is approved where it was
  have hsession : ∀ g id s, w.session g id = some s → s.approved = false →
      ∃ s', w'.session g id = some s' ∧ s'.approved = false := by
    intro g id s hbefore happroved
    by_cases hg : g = w.number
    · subst hg
      rw [session_number hs] at hbefore
      refine ⟨f id s, ?_, (hf id s).approved.trans happroved⟩
      simp [session, hheld, hsessions, hbefore]
    · exact ⟨s, by simpa [session, hheld, Function.update_of_ne hg] using hbefore, happroved⟩
  obtain ⟨hmoved, hkept⟩ := hprepares hsession
  refine h.shareFrame hs hheld hnumber hended hissued hadmitted hresponded hfiles hauto ?_ ?_ hmoved
    hkept hdownloads fun d hd => .inl (hsent ▸ hd)
  -- no session is new, and none is approved in this step
  · intro id s' hs'
    rw [hsessions, Option.map_eq_some_iff] at hs'
    obtain ⟨s, hs₀, rfl⟩ := hs'
    exact ⟨s, hs₀, (hf id s).ip, fun happroved => .inl ((hf id s).approved ▸ happroved),
      (hf id s).responseTx⟩
  -- none is lost
  · intro id s hs₀ happroved
    exact ⟨f id s, by rw [hsessions, hs₀]; rfl, (hf id s).ip, (hf id s).approved.trans happroved⟩

/-! ## One lemma for each section -/

/-- A section that leaves shares and prepares alone. -/
theorem Inv.aside {w w' : WebWorld} (h : w.Inv) (same : w.SameShares w')
    (hprepares : w'.prepares = w.prepares)
    (hdownloads : ∀ u t, w'.downloads u = some t → t.phase = .opening ∨ t.phase = .measuring →
      w'.Entitled ⟨t.peer, t.share, t.share, .bytes t.fileId t.file⟩)
    (hsent : ∀ d ∈ w'.sent, d ∈ w.sent ∨ w'.Entitled d ∧ d.requested = d.share) : w'.Inv := by
  obtain ⟨hmoved, hkept⟩ := h.samePrepares hprepares (same.responded ▸ List.Subset.refl _)
    fun g id s hs happroved => ⟨s, by rw [session, same.held]; exact hs, happroved⟩
  exact (same.frame h hmoved hkept hdownloads hsent).inv h

/-- A peer with an approved session is answered with the list. -/
theorem Inv.sendList {w : WebWorld} (h : w.Inv) {web : WebShareState} (hs : w.host.share = some web)
    {peer : IpAddr} {id : SessionId} {s : WebShareSession}
    (hsession : web.sessions.get? id = some s) (happroved : s.approved = true) (hip : s.ip = peer) :
    (w.sendList peer w.number web).Inv := by
  refine h.aside ⟨rfl, fun h => h, rfl, rfl, rfl⟩ rfl h.downloads fun d hd => ?_
  rw [WebWorld.sendList, List.mem_append, List.mem_singleton] at hd
  refine hd.imp_right fun hd => ?_
  subst hd
  exact ⟨⟨web, id, s, held_number hs, hsession, hip, happroved, rfl⟩, rfl⟩

/-- The session opened for a peer. -/
theorem get?_openSession (web : WebShareState) (h : WebTaskId) (peer : IpAddr) (id j : SessionId) :
    (web.openSession h peer id).sessions.get? j =
      if j = id then some ⟨peer, web.autoAccept, if web.autoAccept then none else some h, []⟩
      else web.sessions.get? j := AssocMap.get?_insert ..

/-- A peer that has passed the gate is answered at once, or waits. -/
theorem openSession_cases (w : WebWorld) (h : WebTaskId) (web : WebShareState) (peer : IpAddr)
    (id : SessionId) :
    (web.autoAccept = true ∧ (w.openSession h web peer id).2 =
      WebWorld.sendList (emit { w.setShare (web.openSession h peer id) with
        issued := id :: w.issued, admitted := (w.number, id, peer) :: w.admitted }
          (.webShareRequest id peer)) peer w.number (web.openSession h peer id)) ∨
    (web.autoAccept = false ∧ (w.openSession h web peer id).2 =
      setPrepare { w.setShare (web.openSession h peer id) with
        issued := id :: w.issued, admitted := (w.number, id, peer) :: w.admitted } h
          ⟨peer, id, w.number, none, false, .sending⟩) := by
  have hauto : (web.openSession h peer id).autoAccept = web.autoAccept := rfl
  unfold openSession
  cases hask : web.autoAccept with
  | true => exact .inl ⟨rfl, by simp [hauto, hask]; rfl⟩
  | false => exact .inr ⟨rfl, by simp [hauto, hask]; rfl⟩

/-- What admitting a peer does: a session of its own in the running share, and either the list or
    a request that waits for the approval. -/
structure Admits (w : WebWorld) (i : WebTaskId) (web : WebShareState) (peer : IpAddr)
    (id : SessionId) (w' : WebWorld) : Prop where
  held : w'.held = Function.update w.held w.number (some (web.openSession i peer id))
  number : w'.number = w.number
  ended : w'.ended = w.ended
  issued : w'.issued = id :: w.issued
  admitted : w'.admitted = (w.number, id, peer) :: w.admitted
  responded : w'.responded = w.responded
  downloads : w'.downloads = w.downloads
  kept : ∀ j t, w.prepares j = some t → w'.prepares j = some t
  asks : web.autoAccept = false → w'.prepares i = some ⟨peer, id, w.number, none, false, .sending⟩
  prepares : ∀ j t, w'.prepares j = some t → w.prepares j = some t ∨
    j = i ∧ web.autoAccept = false ∧ t = ⟨peer, id, w.number, none, false, .sending⟩
  sent : ∀ d ∈ w'.sent, d ∈ w.sent ∨ web.autoAccept = true ∧
    d = ⟨peer, w.number, w.number, .files (web.files.mapVal fun _ file => file.metadata)⟩

/-- A session that is opened admits its peer. -/
theorem admits_openSession (w : WebWorld) (web : WebShareState) {i : WebTaskId} {peer : IpAddr}
    {id : SessionId} (hfresh : w.prepares i = none) :
    w.Admits i web peer id (w.openSession i web peer id).2 := by
  -- in a share that approves of everybody nobody is asked
  rcases w.openSession_cases i web peer id with ⟨hauto, heq⟩ | ⟨hask, heq⟩ <;> rw [heq]
  · exact {
      held := held_setShare w _
      number := rfl
      ended := rfl
      issued := rfl
      admitted := rfl
      responded := rfl
      downloads := rfl
      kept := fun _ _ hj => hj
      asks := fun hask => by simp [hauto] at hask
      prepares := fun _ _ hj => .inl hj
      sent := fun d hd => by
        rw [WebWorld.sendList, List.mem_append, List.mem_singleton] at hd
        exact hd.imp_right fun hd => ⟨hauto, hd⟩ }
  -- otherwise the request waits, and the rest is as before
  · exact {
      held := held_setShare w _
      number := rfl
      ended := rfl
      issued := rfl
      admitted := rfl
      responded := rfl
      downloads := rfl
      kept := fun j t hj => by
        have hji : j ≠ i := by
          rintro rfl
          simp [hfresh] at hj
        simp only [setPrepare, Function.update_of_ne hji]
        exact hj
      asks := fun _ => Function.update_self ..
      prepares := fun j t hj => by
        by_cases hji : j = i
        · subst hji
          simp only [setPrepare, Function.update_self, Option.some.injEq] at hj
          exact .inr ⟨rfl, hask, hj.symm⟩
        · simp only [setPrepare, Function.update_of_ne hji] at hj
          exact .inl hj
      sent := fun _ hd => .inl hd }

/-- No admitted session has the id that is drawn. -/
theorem Inv.ne_of_fresh {w : WebWorld} (h : w.Inv) {id : SessionId} (hid : id ∉ w.issued)
    {g : Nat} {j : SessionId} {p : IpAddr} (hmem : (g, j, p) ∈ w.admitted) : j ≠ id :=
  fun hj => hid (hj ▸ h.issued g j p hmem)

section Admits

variable {w w' : WebWorld} {i : WebTaskId} {web web₀ : WebShareState} {peer : IpAddr}
    {id : SessionId}

/-- The sessions afterwards: the one that is opened, and those there were. -/
theorem Admits.session_cases (h : w.Admits i web peer id w') (hs : w.host.share = some web₀)
    (hsessions : web.sessions = web₀.sessions) {g : Nat} {j : SessionId} {s : WebShareSession}
    (hafter : w'.session g j = some s) :
    w.session g j = some s ∨ g = w.number ∧ j = id ∧
      s = ⟨peer, web.autoAccept, if web.autoAccept then none else some i, []⟩ := by
  by_cases hg : g = w.number
  · subst hg
    simp only [session, h.held, Function.update_self, Option.bind_some] at hafter
    rw [get?_openSession] at hafter
    split at hafter
    · rename_i hj
      exact .inr ⟨rfl, hj, (Option.some.inj hafter).symm⟩
    · rw [hsessions, ← session_number hs] at hafter
      exact .inl hafter
  · exact .inl (by simpa [session, h.held, Function.update_of_ne hg] using hafter)

/-- The sessions from before are still there. -/
theorem Admits.session_kept (h : w.Admits i web peer id w') (hinv : w.Inv) (hid : id ∉ w.issued)
    (hs : w.host.share = some web₀) (hsessions : web.sessions = web₀.sessions) {g : Nat}
    {j : SessionId} {s : WebShareSession} (hbefore : w.session g j = some s) :
    w'.session g j = some s := by
  have hj := hinv.ne_of_fresh hid (hinv.admitted g j s hbefore)
  by_cases hg : g = w.number
  · subst hg
    rw [session_number hs, ← hsessions] at hbefore
    simp [session, h.held, get?_openSession, hj, hbefore]
  · simpa [session, h.held, Function.update_of_ne hg] using hbefore

/-- A session that is admitted takes nothing back. -/
theorem Admits.later (h : w.Admits i web peer id w') (hinv : w.Inv) (hid : id ∉ w.issued)
    (hs : w.host.share = some web₀) (hfiles : web.files = web₀.files)
    (hauto : web.autoAccept = web₀.autoAccept) (hsessions : web.sessions = web₀.sessions) :
    w.Later w' := by
  intro g web₁ hweb₁
  by_cases hg : g = w.number
  · subst hg
    cases (held_number hs).symm.trans hweb₁
    refine ⟨web.openSession i peer id, by rw [h.held, Function.update_self], hfiles, hauto,
      fun j s hs₁ happroved => ?_⟩
    have hj := hinv.ne_of_fresh hid (hinv.admitted _ j s (by rw [session_number hs, hs₁]))
    exact ⟨s, by simp [get?_openSession, hj, hsessions, hs₁], rfl, happroved⟩
  · exact ⟨web₁, by rw [h.held, Function.update_of_ne hg, hweb₁], rfl, rfl,
      fun j s hs happroved => ⟨s, hs, rfl, happroved⟩⟩

/-- Admitting a peer whose id nobody has. -/
theorem Inv.admits (h : w.Inv) (hadmits : w.Admits i web peer id w') (hid : id ∉ w.issued)
    (hs : w.host.share = some web₀) (hfiles : web.files = web₀.files)
    (hauto : web.autoAccept = web₀.autoAccept) (hsessions : web.sessions = web₀.sessions) :
    w'.Inv := by
  have hlater := hadmits.later h hid hs hfiles hauto hsessions
  exact {
    future := by
      rw [hadmits.number, hadmits.ended]
      exact h.future
    issued := by
      intro g j p hmem
      rw [hadmits.admitted, List.mem_cons] at hmem
      rw [hadmits.issued]
      rcases hmem with heq | hmem
      · cases heq
        exact List.mem_cons_self
      · exact List.mem_cons_of_mem _ (h.issued g j p hmem)
    -- the id is fresh, so it was admitted nowhere before
    once := by
      intro g g' j p p' hmem hmem'
      rw [hadmits.admitted, List.mem_cons] at hmem hmem'
      rcases hmem with heq | hmem <;> rcases hmem' with heq' | hmem'
      · cases heq
        cases heq'
        exact ⟨rfl, rfl⟩
      · cases heq
        exact absurd rfl (h.ne_of_fresh hid hmem')
      · cases heq'
        exact absurd rfl (h.ne_of_fresh hid hmem)
      · exact h.once g g' j p p' hmem hmem'
    admitted := by
      intro g j s hs'
      rw [hadmits.admitted]
      rcases hadmits.session_cases hs hsessions hs' with hbefore | ⟨rfl, rfl, rfl⟩
      · exact List.mem_cons_of_mem _ (h.admitted g j s hbefore)
      · exact List.mem_cons_self
    -- approved is what was approved before
    approved := by
      intro g web₁ j s hweb₁ hs₁ happroved
      rw [hadmits.responded]
      have hafter : w'.session g j = some s := by simp [session, hweb₁, hs₁]
      rcases hadmits.session_cases hs hsessions hafter with hbefore | ⟨rfl, rfl, rfl⟩
      · simp only [session, Option.bind_eq_some_iff] at hbefore
        obtain ⟨web₂, hweb₂, hs₂⟩ := hbefore
        obtain ⟨web₃, hweb₃, _, hauto₃, _⟩ := hlater g web₂ hweb₂
        cases hweb₁.symm.trans hweb₃
        rw [hauto₃]
        exact h.approved g web₂ j s hweb₂ hs₂ happroved
      · -- the new session is approved only in a share that approves of everybody
        rw [hadmits.held, Function.update_self, Option.some.injEq] at hweb₁
        subst hweb₁
        exact .inl happroved
    tasks := by
      intro j t hj
      rw [hadmits.admitted]
      rcases hadmits.prepares j t hj with hj | ⟨_, _, rfl⟩
      · exact List.mem_cons_of_mem _ (h.tasks j t hj)
      · exact List.mem_cons_self
    -- a request that waits is the new one, or its session is kept
    waiting := by
      intro j t hj hawaits
      rcases hadmits.prepares j t hj with hj | ⟨_, hask, rfl⟩
      · obtain ⟨s, hs', happroved⟩ := h.waiting j t hj hawaits
        exact ⟨s, hadmits.session_kept h hid hs hsessions hs', happroved⟩
      · refine ⟨⟨peer, web.autoAccept, if web.autoAccept then none else some i, []⟩, ?_, hask⟩
        simp [session, hadmits.held, get?_openSession]
    -- two requests of one session: neither is the new one, or both are
    ownTask := by
      intro j k t t' hj hk hsame
      rcases hadmits.prepares j t hj with hbefore | ⟨hji, _, ht⟩ <;>
        rcases hadmits.prepares k t' hk with hbefore' | ⟨hki, _, ht'⟩
      · exact h.ownTask j k t t' hbefore hbefore' hsame
      · rw [ht'] at hsame
        exact absurd hsame (h.ne_of_fresh hid (h.tasks j t hbefore))
      · rw [ht] at hsame
        exact absurd hsame.symm (h.ne_of_fresh hid (h.tasks k t' hbefore'))
      · rw [hji, hki]
    -- the new session's sender is the new request's
    sender := by
      intro g j s k hs' htx
      rcases hadmits.session_cases hs hsessions hs' with hbefore | ⟨rfl, rfl, rfl⟩
      · obtain ⟨t, ht, hid'⟩ := h.sender g j s k hbefore htx
        exact ⟨t, hadmits.kept k t ht, hid'⟩
      · simp only at htx
        split at htx
        · simp at htx
        · rename_i hask
          cases htx
          exact ⟨_, hadmits.asks (by simpa using hask), rfl⟩
    responded := by
      intro j t hj hresponse
      rw [hadmits.responded]
      rcases hadmits.prepares j t hj with hj | ⟨_, _, rfl⟩
      · exact h.responded j t hj hresponse
      · simp at hresponse
    downloads := h.sameDownloads hadmits.downloads hlater
    -- the list goes out at once only where the new session is approved
    sent := by
      intro d hd
      rcases hadmits.sent d hd with hd | ⟨happroved, rfl⟩
      · exact ⟨(h.sent d hd).1.later hlater, (h.sent d hd).2⟩
      · refine ⟨⟨web.openSession i peer id, id,
          ⟨peer, web.autoAccept, if web.autoAccept then none else some i, []⟩, ?_, ?_, rfl,
          happroved, rfl⟩, rfl⟩
        · rw [hadmits.held, Function.update_self]
        · rw [get?_openSession, if_pos rfl] }

end Admits

/-- A peer that has passed the gate gets a session of its own. -/
theorem Inv.openSession {w : WebWorld} (h : w.Inv) {i : WebTaskId} {web₀ : WebShareState}
    (web : WebShareState) (hs : w.host.share = some web₀) (hfiles : web.files = web₀.files)
    (hauto : web.autoAccept = web₀.autoAccept) (hsessions : web.sessions = web₀.sessions)
    {peer : IpAddr} {id : SessionId} (hfresh : w.prepares i = none) (hid : id ∉ w.issued) :
    (w.openSession i web peer id).2.Inv :=
  h.admits (w.admits_openSession web hfresh) hid hs hfiles hauto hsessions

/-- A peer that the gate turns away leaves its count there. -/
theorem Inv.refused {w : WebWorld} (h : w.Inv) {web : WebShareState} (hs : w.host.share = some web)
    (gate : PinGate) : (w.setShare { web with pinGate := gate }).Inv := by
  let web' : WebShareState := { web with pinGate := gate }
  have hframe := h.similarFrame hs (held_setShare w web') rfl rfl rfl rfl (List.Subset.refl _) rfl
    rfl (fun _ s => s) (fun _ s => ⟨rfl, rfl, fun _ h => h⟩) (fun id => by simp [web'])
    (fun hsession => h.samePrepares rfl (List.Subset.refl _) hsession) rfl rfl
  exact hframe.inv h

/-- The first section of a prepare. -/
theorem Inv.prepareDownload {w : WebWorld} (h : w.Inv) {i : WebTaskId} {peer : IpAddr}
    {sessionId : Option SessionId} {pin : Option String} {id : SessionId}
    (hfresh : w.prepares i = none) (hid : id ∉ w.issued) :
    (w.prepareDownload i peer sessionId pin id).2.Inv := by
  unfold WebWorld.prepareDownload
  cases hs : w.host.share with
  | none => exact h
  | some web =>
    simp only
    split
    · -- a session of this share, approved, and the peer's own
      rename_i s hrepeat
      rw [Option.filter_eq_some_iff, Option.any_eq_true] at hrepeat
      obtain ⟨_, session, hsession, htest⟩ := hrepeat
      simp only [Bool.and_eq_true, decide_eq_true_eq] at htest
      exact h.sendList hs hsession htest.1 htest.2
    · split
      · exact h.refused hs _
      · exact h.refused hs _
      · let web' := { web with pinGate := (web.pinGate.check w.now pin peer).2 }
        exact h.openSession web' hs rfl rfl rfl hfresh hid

/-- A prepare that moves on without touching a share. -/
theorem Inv.setPrepare {w : WebWorld} (h : w.Inv) {i : WebTaskId} {t : PrepareDownload}
    (t' : PrepareDownload) (ht : w.prepares i = some t) (hid : t'.sessionId = t.sessionId)
    (hshare : t'.share = t.share) (hpeer : t'.peer = t.peer)
    (hawaits : t'.phase.awaits = true → t.phase.awaits = true)
    (hresponse : t'.response = some true ∨ t'.phase = .relocking true →
      t.response = some true ∨ t.phase = .relocking true) : (w.setPrepare i t').Inv := by
  have same : w.SameShares (w.setPrepare i t') := ⟨rfl, id, rfl, rfl, rfl⟩
  have hmoves : w.MovesPrepare (w.setPrepare i t') t t' :=
    ⟨hid, hshare, hpeer, fun ha => h.waiting i t ht (hawaits ha),
      fun hr => h.responded i t ht (hresponse hr), List.Subset.refl _⟩
  obtain ⟨hprepares, hkept⟩ := h.movePrepare ht rfl hmoves
    fun g id s _ hs happroved => ⟨s, hs, happroved⟩
  exact (same.frame h hprepares hkept h.downloads fun d hd => .inl hd).inv h

/-- An event that is sent changes nothing here. -/
theorem Inv.emit {w : WebWorld} (h : w.Inv) (e : WebShareEvent) : (w.emit e).Inv :=
  h.aside ⟨rfl, id, rfl, rfl, rfl⟩ rfl h.downloads fun _ hd => .inl hd

/-- The request to the consumer keeps the invariant. -/
theorem Inv.sendRequest {w : WebWorld} (h : w.Inv) {i : WebTaskId} {t : PrepareDownload}
    (ht : w.prepares i = some t) (hphase : t.phase = .sending) (delivered : Bool) :
    (w.sendRequest i t delivered).Inv := by
  unfold WebWorld.sendRequest
  split
  · exact (h.emit _).setPrepare { t with phase := .deciding } ht rfl rfl rfl
      (by simp [hphase, PrepareDownloadPhase.awaits]) (by simp +contextual)
  · exact h.setPrepare { t with phase := .refused .forbidden "" } ht rfl rfl rfl
      (by simp [PrepareDownloadPhase.awaits]) (by simp +contextual)

/-- The consumer's answer keeps the invariant. -/
theorem Inv.decide {w : WebWorld} (h : w.Inv) {i : WebTaskId} {t : PrepareDownload}
    (ht : w.prepares i = some t) (hphase : t.phase = .deciding) : (w.decide i t).Inv := by
  refine h.setPrepare { t with phase := _ } ht rfl rfl rfl
    (by simp [hphase, PrepareDownloadPhase.awaits]) fun hr => ?_
  -- an answer that reads as yes is a yes: without one it reads as no
  rcases hr with hr | hr
  · exact .inl hr
  · cases hresponse : t.response with
    | none => simp [hresponse] at hr
    | some accepted =>
      simp only [hresponse, Option.getD_some, PrepareDownloadPhase.relocking.injEq] at hr
      exact .inl (by rw [hr])

/-- The sessions after the running share is written. -/
theorem session_of_held {w w' : WebWorld} {web' : WebShareState}
    (hheld : w'.held = Function.update w.held w.number (some web')) (g : Nat) (id : SessionId) :
    w'.session g id = if g = w.number then web'.sessions.get? id else w.session g id := by
  by_cases hg : g = w.number
  · simp [session, hheld, hg]
  · simp [session, hheld, hg]

/-- A session with the id of a request is the one that was opened for the request. -/
theorem Inv.own {w : WebWorld} (h : w.Inv) {i : WebTaskId} {t : PrepareDownload}
    (ht : w.prepares i = some t) {g : Nat} {s : WebShareSession}
    (hs : w.session g t.sessionId = some s) : g = t.share ∧ s.ip = t.peer :=
  h.once _ _ _ _ _ (h.admitted _ _ _ hs) (h.tasks i t ht)

/-- A request that waits has no approved session, in any share. -/
theorem Inv.unapproved {w : WebWorld} (h : w.Inv) {i : WebTaskId} {t : PrepareDownload}
    (ht : w.prepares i = some t) (hawaits : t.phase.awaits = true) {g : Nat} {s : WebShareSession}
    (hs : w.session g t.sessionId = some s) : s.approved = false := by
  obtain ⟨s₀, hs₀, happroved⟩ := h.waiting i t ht hawaits
  rw [(h.own ht hs).1, hs₀, Option.some.injEq] at hs
  rw [← hs, happroved]

/-- The second section after a refusal: the session goes. -/
theorem Inv.reject {w : WebWorld} (h : w.Inv) {i : WebTaskId} {t : PrepareDownload}
    (ht : w.prepares i = some t) (hawaits : t.phase.awaits = true) {web : WebShareState}
    (hs : w.host.share = some web) (status : StatusCode) (text : String) :
    ((w.setShare { web with sessions := web.sessions.erase t.sessionId }).setPrepare i
      { t with phase := .refused status text }).Inv := by
  -- the share without the session, and the request refused
  let web' : WebShareState := { web with sessions := web.sessions.erase t.sessionId }
  let t' : PrepareDownload := { t with phase := .refused status text }
  let w' : WebWorld := (w.setShare web').setPrepare i t'
  have hheld : w'.held = Function.update w.held w.number (some web') := held_setShare w web'
  -- the request no longer waits, and nothing is approved
  have hmoves : w.MovesPrepare w' t t' := by
    refine ⟨rfl, rfl, rfl, (by cases ·), fun hr => ?_, List.Subset.refl _⟩
    exact h.responded i t ht (hr.imp_right (by cases ·))
  -- the other sessions are kept as they are
  have hprepares :=
    @Inv.movePrepare w w' h i t t' ht rfl hmoves fun g id s hid hsession happroved =>
    ⟨s, by
      rw [session_of_held hheld]
      split
      · rename_i hg
        rw [hg, session_number hs] at hsession
        simp [web', AssocMap.get?_erase, hid, hsession]
      · exact hsession, happroved⟩
  refine (h.shareFrame hs hheld rfl rfl rfl rfl (List.Subset.refl _) rfl rfl ?_ ?_
    hprepares.1 hprepares.2 rfl fun d hd => .inl hd).inv h
  -- what is left of the sessions was there before
  · intro id s hs'
    simp only [web', AssocMap.get?_erase] at hs'
    split at hs'
    · simp at hs'
    · exact ⟨s, hs', rfl, .inl, fun _ h => h⟩
  -- an approved session is not the one that is erased: that one was waiting
  · intro id s hs₁ happroved
    have hid : id ≠ t.sessionId := by
      intro hid
      subst hid
      have := h.unapproved ht hawaits (by rw [session_number hs, hs₁])
      simp [this] at happroved
    exact ⟨s, by simp [web', AssocMap.get?_erase, hid, hs₁], rfl, happroved⟩

/-- The second section after an approval, over a share that holds the session. -/
theorem Inv.approve {w : WebWorld} (h : w.Inv) {i : WebTaskId} {t : PrepareDownload}
    (ht : w.prepares i = some t) (hphase : t.phase = .relocking true) {web : WebShareState}
    (hs : w.host.share = some web) (hown : (web.sessions.get? t.sessionId).isSome) :
    (w.relock i t true).Inv := by
  -- the condition: the share still has the session of the request
  obtain ⟨s₀, hs₀⟩ := Option.isSome_iff_exists.mp hown
  have hsession₀ : w.session w.number t.sessionId = some s₀ := by rw [session_number hs, hs₀]
  obtain ⟨hshare, hip⟩ := h.own ht hsession₀
  -- the relock follows an accepting response, which is on record
  have hresponded : (w.number, t.sessionId) ∈ w.responded := by
    rw [hshare]
    exact h.responded i t ht (.inr hphase)
  -- the world after the relock, part by part
  let f : WebShareSession → WebShareSession := fun s =>
      { s with approved := true, responseTx := none }
  let web' : WebShareState := { web with sessions := web.sessions.modify t.sessionId f }
  let t' : PrepareDownload :=
    { t with phase := .answered (prepareResponse w.host.device t.sessionId web') }
  let w' : WebWorld := ((w.setShare web').sendList t.peer t.share web').setPrepare i t'
  have hw' : w.relock i t true = w' := by simp [WebWorld.relock, hs]; rfl
  have hheld : w'.held = Function.update w.held w.number (some web') := held_setShare w web'
  have hmoves : w.MovesPrepare w' t t' := by
    refine ⟨rfl, rfl, rfl, (by cases ·), fun hr => ?_, List.Subset.refl _⟩
    exact h.responded i t ht (hr.imp_right (by cases ·))
  have hprepares :=
    @Inv.movePrepare w w' h i t t' ht rfl hmoves fun g id s hid hsession happroved =>
    ⟨s, by
      rw [session_of_held hheld]
      split
      · rename_i hg
        rw [hg, session_number hs] at hsession
        simp [web', hid, hsession]
      · exact hsession, happroved⟩
  have happroved : web'.sessions.get? t.sessionId = some (f s₀) := by simp [web', hs₀]
  rw [hw']
  refine (h.shareFrame hs hheld rfl rfl rfl rfl (List.Subset.refl _) rfl rfl ?_ ?_
    hprepares.1 hprepares.2 rfl fun d hd => ?_).inv h
  -- the approved session is the one that was responded to
  · intro id s' hs'
    by_cases hid : id = t.sessionId
    · subst hid
      cases hs'.symm.trans happroved
      exact ⟨s₀, hs₀, rfl, fun _ => .inr hresponded, fun _ h => (by cases h)⟩
    · simp only [web', AssocMap.get?_modify_of_ne _ hid] at hs'
      exact ⟨s', hs', rfl, .inl, fun _ h => h⟩
  -- an approved session is another one, and is as before
  · intro id s hs₁ happroved
    have hid : id ≠ t.sessionId := by
      intro hid
      subst hid
      have := h.unapproved ht (by rw [hphase]; rfl) (by rw [session_number hs, hs₁])
      simp [this] at happroved
    exact ⟨s, by simp [web', hid, hs₁], rfl, happroved⟩
  -- the list that goes out is the current share's, to its admitted peer
  · have hd : d ∈ w.sent ++ _ := hd
    rw [List.mem_append, List.mem_singleton] at hd
    refine hd.imp_right fun hd => ?_
    subst hd
    refine ⟨⟨web', t.sessionId, f s₀, ?_, happroved, hip, rfl, rfl⟩, hshare.symm⟩
    show w'.held w.number = some web'
    rw [hheld, Function.update_self]

/-- A download that has been let in, or has nothing more to answer. -/
theorem Inv.setDownload {w : WebWorld} (h : w.Inv) (u : WebTaskId) (t : Download)
    (ht : t.phase = .opening ∨ t.phase = .measuring →
      w.Entitled ⟨t.peer, t.share, t.share, .bytes t.fileId t.file⟩) : (w.setDownload u t).Inv := by
  refine h.aside ⟨rfl, id, rfl, rfl, rfl⟩ rfl (fun v t' ht' hphase => ?_) fun _ hd => .inl hd
  by_cases hv : v = u
  · subst hv
    simp only [WebWorld.setDownload, Function.update_self, Option.some.injEq] at ht'
    subst ht'
    exact ht hphase
  · simp only [WebWorld.setDownload, Function.update_of_ne hv] at ht'
    exact h.downloads v t' ht' hphase

/-- A download that has been let in is answered. -/
theorem Inv.sendBytes {w : WebWorld} (h : w.Inv) (u : WebTaskId) (t : Download)
    (rest : Option (List (List UInt8))) (length : Nat)
    (ht : w.Entitled ⟨t.peer, t.share, t.share, .bytes t.fileId t.file⟩) :
    (w.sendBytes u t rest length).Inv := by
  have hset := h.setDownload u { t with phase := .streaming rest 0 length false } (by simp)
  refine hset.aside ⟨rfl, id, rfl, rfl, rfl⟩ rfl hset.downloads fun d hd => ?_
  rw [WebWorld.sendBytes, List.mem_append, List.mem_singleton] at hd
  exact hd.imp_right fun hd => by
    subst hd
    exact ⟨ht, rfl⟩

/-- The lock section of a download. -/
theorem Inv.download {w : WebWorld} (h : w.Inv) (u : WebTaskId) (peer : IpAddr)
    (sessionId : SessionId) (fileId : FileId) : (w.download u peer sessionId fileId).2.Inv := by
  unfold WebWorld.download
  cases hs : w.host.share with
  | none => exact h
  | some web =>
    simp only
    split
    · exact h
    · rename_i hlet
      split
      · exact h
      · rename_i file hfile
        simp only [Bool.not_eq_true', Bool.not_eq_false, Option.any_eq_true, Bool.and_eq_true,
          decide_eq_true_eq] at hlet
        obtain ⟨s, hsession, happroved, hip⟩ := hlet
        have hentitled : w.Entitled ⟨peer, w.number, w.number, .bytes fileId file⟩ :=
          ⟨web, sessionId, s, held_number hs, hsession, hip, happroved, hfile⟩
        split
        · exact h.sendBytes u _ _ _ hentitled
        · exact h.setDownload u _ fun _ => hentitled

/-- The record of a finished file keeps the invariant. -/
theorem Inv.finishFile {w : WebWorld} (h : w.Inv) (t : Download) (finished : Bool) :
    (w.finishFile t finished).Inv := by
  unfold WebWorld.finishFile
  split
  · exact h
  · exact h.aside ⟨rfl, id, rfl, rfl, rfl⟩ rfl h.downloads fun _ hd => .inl hd

/-- What a body does once it is being sent. -/
theorem Inv.pollNext {w : WebWorld} (h : w.Inv) (u : WebTaskId) (t : Download)
    (rest : Option (List (List UInt8))) (bytesSent totalBytes : Nat) (finished : Bool)
    (item : Option (Option (List UInt8))) :
    (w.pollNext u t rest bytesSent totalBytes finished item).Inv := by
  match item with
  | none => exact (h.finishFile t finished).setDownload u _ (by simp)
  | some none => exact h
  | some (some bytes) =>
    unfold WebWorld.pollNext
    refine Inv.setDownload ?_ u _ (by simp)
    split
    · exact (h.emit _).finishFile t finished
    · exact h.emit _

/-- The sessions remember what was downloaded. -/
theorem Inv.markDownloaded {w : WebWorld} (h : w.Inv) (sessionId : SessionId) (fileId : FileId) :
    (w.markDownloaded sessionId fileId).Inv := by
  -- without a share or a session nothing is marked
  unfold WebWorld.markDownloaded
  cases hs : w.host.share with
  | none => exact h
  | some web =>
    simp only
    cases hsession : web.sessions.get? sessionId with
    | none => exact h
    | some session =>
      simp only
      generalize (if fileId ∈ session.downloadedFiles then session.downloadedFiles
        else fileId :: session.downloadedFiles) = downloaded
      let web' : WebShareState := { web with sessions := web.sessions.modify sessionId fun s =>
        { s with downloadedFiles := downloaded } }
      -- the mark is no part of what the invariant is about
      have hset : (w.setShare web').Inv := by
        have hframe := h.similarFrame hs (held_setShare w web') rfl rfl rfl rfl (List.Subset.refl _)
          rfl rfl (fun id s => if id = sessionId then { s with downloadedFiles := downloaded } else s)
          (fun id s => by
            by_cases hid : id = sessionId
            · simp only [hid]
              exact ⟨rfl, rfl, fun _ h => h⟩
            · simp only [hid]
              exact ⟨rfl, rfl, fun _ h => h⟩)
          (fun id => by by_cases hid : id = sessionId <;> simp [web', hid])
          (fun hsession => h.samePrepares rfl (List.Subset.refl _) hsession) rfl rfl
        exact hframe.inv h
      split
      · exact hset.emit _
      · exact hset

/-- A share that ends is still known. -/
theorem Inv.endShare {w : WebWorld} (h : w.Inv) : w.endShare.Inv := by
  have hfuture : ∀ g, w.number < g → w.endShare.ended g = none := by
    intro g hg
    unfold WebWorld.endShare
    cases w.host.share with
    | none => exact h.future g hg
    | some web =>
      have hne : g ≠ w.number := by omega
      simp [Function.update_of_ne hne, h.future g hg]
  exact h.aside ⟨held_endShare w, fun _ => hfuture, rfl, rfl, rfl⟩ rfl
    (h.sameDownloads rfl (.of_held (held_endShare w))) fun _ hd => .inl hd

/-- A new share begins without sessions. -/
theorem Inv.startWebShare {w : WebWorld} (h : w.Inv) (files : List WebShareFile)
    (pin : Option String) (autoAccept : Bool) : (w.startWebShare files pin autoAccept).2.Inv := by
  unfold WebWorld.startWebShare
  split
  · exact h
  · have hend := h.endShare
    -- the share with the next number, and what every number now holds
    let w' : WebWorld := { w.endShare with
      host.share := some (.new files pin autoAccept), number := w.number + 1 }
    have hnew : ∀ g, w'.held g =
        if g = w.number + 1 then some (.new files pin autoAccept) else w.endShare.held g :=
      fun g => held_newShare w _ g
    have hnone : w.endShare.held (w.number + 1) = none := by
      simpa [held, WebWorld.endShare] using hend.future (w.number + 1) (Nat.lt_succ_self _)
    -- whatever was known is of another share
    have hbefore : ∀ g web, w.endShare.held g = some web → w'.held g = some web := by
      intro g web hweb
      rw [hnew, if_neg (fun hg => by rw [hg, hnone] at hweb; simp at hweb), hweb]
    have hsession : ∀ g id s, w.endShare.session g id = some s → w'.session g id = some s := by
      intro g id s hs
      simp only [session, Option.bind_eq_some_iff] at hs ⊢
      obtain ⟨web, hweb, hs⟩ := hs
      exact ⟨web, hbefore g web hweb, hs⟩
    have hlater : w.endShare.Later w' := fun g web hweb =>
      ⟨web, hbefore g web hweb, rfl, rfl, fun id s hs happroved => ⟨s, hs, rfl, happroved⟩⟩
    have hprepares := @Inv.samePrepares w.endShare w' hend rfl (List.Subset.refl _)
      fun g id s hs happroved => ⟨s, hsession g id s hs, happroved⟩
    have hframe : w.endShare.Frame w' := {
      later := hlater
      future := fun g hg => hend.future g (by
        have : w.number + 1 < g := hg
        show w.number < g
        omega)
      issued := rfl
      admitted := rfl
      responded := List.Subset.refl _
      sessions := by
        intro g web id s hweb hs
        rw [hnew] at hweb
        split at hweb
        · cases hweb
          cases hs
        -- a session of the new share: there is none
        · exact ⟨web, s, hweb, rfl, hs, rfl, .inl, fun _ h => h⟩
      prepares := hprepares.1
      kept := hprepares.2
      downloads := hend.sameDownloads rfl hlater
      sent := fun _ hd => .inl hd }
    exact hframe.inv hend

/-- An answer of the user goes to the request it is for. -/
theorem Inv.respondWebShare {w : WebWorld} (h : w.Inv) (sessionId : SessionId) (accepted : Bool) :
    (w.respondWebShare sessionId accepted).2.Inv := by
  unfold WebWorld.respondWebShare
  -- without a share, or without a sender that waits, nothing changes
  cases hs : w.host.share with
  | none => exact h
  | some web =>
    simp only
    cases hsender : (web.sessions.get? sessionId).bind WebShareSession.responseTx with
    | none => exact h
    | some i =>
      simp only
      obtain ⟨s, hsession, htx⟩ := Option.bind_eq_some_iff.mp hsender
      let f : SessionId → WebShareSession → WebShareSession := fun id s =>
        if id = sessionId then { s with responseTx := none } else s
      have hf : ∀ id s, SimilarSession s (f id s) := by
        intro id s
        by_cases hid : id = sessionId
        · simp only [f, hid]
          exact ⟨rfl, rfl, fun _ h => (by cases h)⟩
        · simp only [f, hid]
          exact ⟨rfl, rfl, fun _ h => h⟩
      let web' : WebShareState := { web with sessions := web.sessions.modify sessionId fun session =>
        { session with responseTx := none } }
      have hsessions : ∀ id, web'.sessions.get? id = (web.sessions.get? id).map (f id) := by
        intro id
        by_cases hid : id = sessionId <;> simp [web', f, hid]
      -- the request has gone: only the sender is taken
      split
      · have hframe := h.similarFrame hs (held_setShare w web') rfl rfl rfl rfl (List.Subset.refl _)
          rfl rfl f hf hsessions (fun hsession => h.samePrepares rfl (List.Subset.refl _) hsession)
          rfl rfl
        exact hframe.inv h
      · rename_i t ht
        obtain ⟨ht, _⟩ := Option.filter_eq_some_iff.mp ht
        have hs₀ : w.session w.number sessionId = some s := by rw [session_number hs, hsession]
        -- the sender that was kept leads to the request of this very session
        obtain ⟨t₀, ht₀, hid⟩ := h.sender _ _ s i hs₀ htx
        cases ht.symm.trans ht₀
        have hshare := (h.own ht (hid ▸ hs₀)).1
        let w' : WebWorld := { (w.setShare web').setPrepare i { t with response := some accepted } with
          responded := if accepted then (w.number, sessionId) :: w.responded else w.responded }
        have hgrows : w.responded ⊆ w'.responded := by
          intro e he
          simp only [w']
          split
          · exact List.mem_cons_of_mem _ he
          · exact he
        -- the response is recorded with the request, and the pair joins the responded ones
        have hframe : w.Frame w' := by
          refine h.similarFrame hs (held_setShare w web') rfl rfl rfl rfl hgrows rfl rfl f hf
            hsessions (fun hsession => ?_) rfl rfl
          refine h.movePrepare ht rfl ⟨rfl, rfl, rfl, fun ha => ?_, fun hr => ?_, hgrows⟩
            fun g id s _ => hsession g id s
          · obtain ⟨s, hs, happroved⟩ := h.waiting i t ht ha
            exact hsession _ _ s hs happroved
          · rcases hr with hr | hr
            · cases hr
              rw [← hshare, hid]
              exact List.mem_cons_self
            · exact hgrows (h.responded i t ht (.inr hr))
        exact hframe.inv h

/-! ## One step -/

/-- A handler that was told yes finds the session of its request in the share it comes back
    to. -/
def RelocksOwn (w : WebWorld) (a : WebAction) (_ : WebWorld) : Prop :=
  ∀ h t web, a = .prepare h .relock → w.prepares h = some t → t.phase = .relocking true →
    w.host.share = some web → (web.sessions.get? t.sessionId).isSome

/-- Every step of a prepare-download keeps the invariant, if a relock finds its own share. -/
theorem Inv.prepareStep {w w' : WebWorld} (hinv : w.Inv) {h : WebTaskId} {t : PrepareDownload}
    {a : PrepareDownloadAction} (ht : w.prepares h = some t) (hstep : w.prepareStep h t a = some w')
    (hown : w.RelocksOwn (.prepare h a) w') : w'.Inv := by
  cases a with
  | begin_ => cases hstep
  | sendRequest delivered =>
    simp only [WebWorld.prepareStep, Option.ite_none_right_eq_some, Option.some.injEq] at hstep
    exact hstep.2 ▸ hinv.sendRequest ht hstep.1 delivered
  | decide =>
    simp only [WebWorld.prepareStep, Option.ite_none_right_eq_some, Option.some.injEq] at hstep
    exact hstep.2 ▸ hinv.decide ht hstep.1
  | relock =>
    simp only [WebWorld.prepareStep] at hstep
    split at hstep
    · rename_i accepted hphase
      cases hstep
      have hawaits : t.phase.awaits = true := by rw [hphase]; rfl
      cases hs : w.host.share with
      -- the share is gone, so the request is refused
      | none =>
        simp only [WebWorld.relock, hs]
        exact hinv.setPrepare { t with phase := .refused .forbidden "" } ht rfl rfl rfl
          (fun _ => hawaits) (by simp +contextual)
      | some web =>
        -- the answer that was taken decides
        cases accepted with
        | false =>
          simp only [WebWorld.relock, hs]
          exact hinv.reject ht hawaits hs _ _
        | true => exact hinv.approve ht hphase hs (hown h t web rfl ht hphase hs)
    · simp at hstep
  | drop =>
    simp only [WebWorld.prepareStep, Option.ite_none_right_eq_some, Option.some.injEq] at hstep
    exact hstep.2 ▸ hinv.setPrepare { t with dropped := true } ht rfl rfl rfl id id

/-- Every step of a download keeps the invariant. -/
theorem Inv.downloadStep {w w' : WebWorld} (hinv : w.Inv) {u : WebTaskId} {t : Download}
    {a : DownloadAction} (ht : w.downloads u = some t) (hstep : w.downloadStep u t a = some w') :
    w'.Inv := by
  -- by what the download does next; only bytes that are sent concern the invariant
  cases a with
  | begin_ => cases hstep
  | opened ok =>
    simp only [WebWorld.downloadStep, Option.ite_none_right_eq_some, Option.some.injEq] at hstep
    exact hstep.2 ▸ hinv.setDownload u _ fun _ => hinv.downloads u t ht (.inl hstep.1)
  | measured length =>
    simp only [WebWorld.downloadStep, Option.ite_none_right_eq_some] at hstep
    obtain ⟨hphase, hstep⟩ := hstep
    cases length with
    | none => exact Option.some.inj hstep ▸ hinv.setDownload u _ (by simp)
    | some length =>
      exact Option.some.inj hstep ▸ hinv.sendBytes u t none length
        (hinv.downloads u t ht (.inr hphase))
  | poll item =>
    simp only [WebWorld.downloadStep] at hstep
    split at hstep
    · exact Option.some.inj hstep ▸ hinv.pollNext ..
    · split at hstep
      · exact Option.some.inj hstep ▸ hinv.pollNext ..
      · simp at hstep
    · simp at hstep
  | drop =>
    simp only [WebWorld.downloadStep] at hstep
    split at hstep
    · simp at hstep
    · exact Option.some.inj hstep ▸ hinv.setDownload u _ fun hphase => hinv.downloads u t ht hphase

/-- Every step keeps what is known of the shares, as long as no handler comes back to a
    share that does not know its request. -/
theorem Inv.step {w w' : WebWorld} (hinv : w.Inv) {a : WebAction} (hstep : w.step a = some w')
    (hown : w.RelocksOwn a w') : w'.Inv := by
  cases a with
  -- a request of the listing: a new one, or one under way
  | prepare h a =>
    cases ht : w.prepares h with
    | none =>
      cases a with
      | begin_ peer sessionId pin id =>
        simp only [WebWorld.step, ht, Option.ite_none_right_eq_some, Option.some.injEq] at hstep
        exact hstep.2 ▸ hinv.prepareDownload ht hstep.1
      | _ => simp [WebWorld.step, ht] at hstep
    | some t =>
      simp only [WebWorld.step, ht, Option.ite_none_left_eq_some] at hstep
      exact hinv.prepareStep ht hstep.2 hown
  -- a download, likewise
  | download u a =>
    cases ht : w.downloads u with
    | none =>
      cases a with
      | begin_ peer sessionId fileId =>
        simp only [WebWorld.step, ht, Option.some.injEq] at hstep
        exact hstep ▸ hinv.download u peer sessionId fileId
      | _ => simp [WebWorld.step, ht] at hstep
    | some t =>
      simp only [WebWorld.step, ht, Option.ite_none_left_eq_some] at hstep
      exact hinv.downloadStep ht hstep.2
  | markDownloaded sessionId fileId =>
    simp only [WebWorld.step, Option.ite_none_right_eq_some, Option.some.injEq] at hstep
    have herase : { w with finishing := w.finishing.erase (sessionId, fileId) }.Inv :=
      hinv.aside ⟨rfl, id, rfl, rfl, rfl⟩ rfl hinv.downloads fun _ hd => .inl hd
    exact hstep.2 ▸ herase.markDownloaded sessionId fileId
  | startWebShare files pin autoAccept =>
    exact Option.some.inj hstep ▸ hinv.startWebShare files pin autoAccept
  | stopWebShare => exact Option.some.inj hstep ▸ hinv.endShare
  | respondWebShare sessionId accepted =>
    exact Option.some.inj hstep ▸ hinv.respondWebShare sessionId accepted
  | tick d =>
    exact Option.some.inj hstep ▸
      hinv.aside ⟨rfl, id, rfl, rfl, rfl⟩ rfl hinv.downloads fun _ hd => .inl hd

/-! ## The books -/

/-- A section that admits nobody and delivers no approval. -/
def SameBooks (w w' : WebWorld) : Prop := w'.admitted = w.admitted ∧ w'.responded = w.responded

/-- A section that admits nobody and delivers no approval is booked. -/
theorem SameBooks.booked {w w' : WebWorld} (h : w.SameBooks w') (a : WebAction) :
    w.Booked a w' := by
  constructor
  · intro g id peer hmem
    exact .inl (h.1 ▸ hmem)
  · intro g id hmem
    exact .inl (h.2 ▸ hmem)

/-- The first section admits a peer that the gate lets pass, and nobody else. -/
theorem prepareDownload_booked (w : WebWorld) (h : WebTaskId) (peer : IpAddr)
    (sessionId : Option SessionId) (pin : Option String) (id : SessionId) :
    w.Booked (.prepare h (.begin_ peer sessionId pin id))
      (w.prepareDownload h peer sessionId pin id).2 := by
  unfold prepareDownload
  -- only an admission adds to the books, and it is the last case
  cases hs : w.host.share with
  | none => exact SameBooks.booked ⟨rfl, rfl⟩ _
  | some web =>
    simp only
    split
    · exact SameBooks.booked ⟨rfl, rfl⟩ _
    · split
      · exact SameBooks.booked (show w.SameBooks (w.setShare _) from ⟨rfl, rfl⟩) _
      · exact SameBooks.booked (show w.SameBooks (w.setShare _) from ⟨rfl, rfl⟩) _
      · rename_i cleared hcheck
        generalize { web with pinGate := (web.pinGate.check w.now pin peer).2 } = web'
        -- however the session starts, it is admitted once and nobody has responded
        have hbooks : (w.openSession h web' peer id).2.admitted = (w.number, id, peer) :: w.admitted ∧
            (w.openSession h web' peer id).2.responded = w.responded := by
          rcases w.openSession_cases h web' peer id with ⟨_, heq⟩ | ⟨_, heq⟩ <;> rw [heq] <;>
            exact ⟨rfl, rfl⟩
        constructor
        · intro g j p hmem
          rw [hbooks.1, List.mem_cons] at hmem
          rcases hmem with heq | hmem
          · cases heq
            exact .inr ⟨h, sessionId, pin, web, cleared, rfl, hs, rfl, hcheck⟩
          · exact .inl hmem
        · intro g j hmem
          rw [hbooks.2] at hmem
          exact .inl hmem

/-- A relock admits nobody and delivers no approval. -/
theorem relock_books (w : WebWorld) (h : WebTaskId) (t : PrepareDownload) (accepted : Bool) :
    w.SameBooks (w.relock h t accepted) := by
  unfold relock
  cases w.host.share with
  | none => exact ⟨rfl, rfl⟩
  | some web => cases accepted <;> exact ⟨rfl, rfl⟩

/-- So are the sections of a prepare-download after the first. -/
theorem prepareStep_books {w w' : WebWorld} {h : WebTaskId} {t : PrepareDownload}
    {a : PrepareDownloadAction} (hstep : w.prepareStep h t a = some w') : w.SameBooks w' := by
  cases a with
  | begin_ => cases hstep
  | sendRequest delivered =>
    simp only [prepareStep, Option.ite_none_right_eq_some, Option.some.injEq] at hstep
    rw [← hstep.2]
    cases delivered <;> exact ⟨rfl, rfl⟩
  | decide =>
    simp only [prepareStep, Option.ite_none_right_eq_some, Option.some.injEq] at hstep
    rw [← hstep.2]
    exact ⟨rfl, rfl⟩
  | relock =>
    simp only [prepareStep] at hstep
    split at hstep
    · exact Option.some.inj hstep ▸ w.relock_books h t _
    · simp at hstep
  | drop =>
    simp only [prepareStep, Option.ite_none_right_eq_some, Option.some.injEq] at hstep
    rw [← hstep.2]
    exact ⟨rfl, rfl⟩

/-- So is the begin of a download. -/
theorem download_books (w : WebWorld) (u : WebTaskId) (peer : IpAddr) (sessionId : SessionId)
    (fileId : FileId) : w.SameBooks (w.download u peer sessionId fileId).2 := by
  unfold download
  cases w.host.share with
  | none => exact ⟨rfl, rfl⟩
  | some web =>
    simp only
    split
    · exact ⟨rfl, rfl⟩
    · split
      · exact ⟨rfl, rfl⟩
      · split <;> exact ⟨rfl, rfl⟩

/-- So is the poll of a stream. -/
theorem pollNext_books (w : WebWorld) (u : WebTaskId) (t : Download)
    (rest : Option (List (List UInt8))) (bytesSent totalBytes : Nat) (finished : Bool)
    (item : Option (Option (List UInt8))) :
    w.SameBooks (w.pollNext u t rest bytesSent totalBytes finished item) := by
  match item with
  | none => cases finished <;> exact ⟨rfl, rfl⟩
  | some none => exact ⟨rfl, rfl⟩
  | some (some bytes) =>
    have hfinish : ∀ w : WebWorld, w.SameBooks (w.finishFile t finished) := by
      intro w
      cases finished <;> exact ⟨rfl, rfl⟩
    simp only [pollNext]
    split
    · exact hfinish (w.emit _)
    · exact ⟨rfl, rfl⟩

/-- So are the sections of a download. -/
theorem downloadStep_books {w w' : WebWorld} {u : WebTaskId} {t : Download} {a : DownloadAction}
    (hstep : w.downloadStep u t a = some w') : w.SameBooks w' := by
  cases a with
  | begin_ => cases hstep
  | opened ok =>
    simp only [downloadStep, Option.ite_none_right_eq_some, Option.some.injEq] at hstep
    rw [← hstep.2]
    exact ⟨rfl, rfl⟩
  | measured length =>
    simp only [downloadStep, Option.ite_none_right_eq_some] at hstep
    cases length <;> exact Option.some.inj hstep.2 ▸ ⟨rfl, rfl⟩
  | poll item =>
    simp only [downloadStep] at hstep
    split at hstep
    · exact Option.some.inj hstep ▸ w.pollNext_books ..
    · split at hstep
      · exact Option.some.inj hstep ▸ w.pollNext_books ..
      · simp at hstep
    · simp at hstep
  | drop =>
    simp only [downloadStep] at hstep
    split at hstep
    · simp at hstep
    · exact Option.some.inj hstep ▸ ⟨rfl, rfl⟩

/-- So is the record of a finished file. -/
theorem markDownloaded_books (w : WebWorld) (sessionId : SessionId) (fileId : FileId) :
    w.SameBooks (w.markDownloaded sessionId fileId) := by
  unfold markDownloaded
  cases w.host.share with
  | none => exact ⟨rfl, rfl⟩
  | some web =>
    simp only
    cases web.sessions.get? sessionId with
    | none => exact ⟨rfl, rfl⟩
    | some session =>
      simp only
      generalize (if fileId ∈ session.downloadedFiles then session.downloadedFiles
        else fileId :: session.downloadedFiles) = downloaded
      split <;> exact ⟨rfl, rfl⟩

/-- An approval is booked when it is delivered over the running share. -/
theorem respondWebShare_booked (w : WebWorld) (sessionId : SessionId) (accepted : Bool) :
    w.Booked (.respondWebShare sessionId accepted) (w.respondWebShare sessionId accepted).2 := by
  unfold respondWebShare
  -- the response is booked where the share, the sender and the request are there
  cases hs : w.host.share with
  | none => exact SameBooks.booked ⟨rfl, rfl⟩ _
  | some web =>
    simp only
    split
    · exact SameBooks.booked ⟨rfl, rfl⟩ _
    · split
      · exact SameBooks.booked (show w.SameBooks (w.setShare _) from ⟨rfl, rfl⟩) _
      · constructor
        · exact fun g id peer hmem => .inl hmem
        · intro g id hmem
          simp only at hmem
          split at hmem
          · rename_i haccepted
            rcases List.mem_cons.mp hmem with heq | hmem
            · cases heq
              exact .inr ⟨by rw [haccepted], by rw [hs]; rfl, rfl⟩
            · exact .inl hmem
          · exact .inl hmem

/-- Every step keeps its books. -/
theorem booked_of_step {w w' : WebWorld} {a : WebAction} (hstep : w.step a = some w') :
    w.Booked a w' := by
  -- each action in turn: only the two above write in the books
  cases a with
  | prepare h a =>
    cases ht : w.prepares h with
    | none =>
      cases a with
      | begin_ peer sessionId pin id =>
        simp only [WebWorld.step, ht, Option.ite_none_right_eq_some, Option.some.injEq] at hstep
        exact hstep.2 ▸ w.prepareDownload_booked h peer sessionId pin id
      | _ => simp [WebWorld.step, ht] at hstep
    | some t =>
      simp only [WebWorld.step, ht, Option.ite_none_left_eq_some] at hstep
      exact (prepareStep_books hstep.2).booked _
  | download u a =>
    cases ht : w.downloads u with
    | none =>
      cases a with
      | begin_ peer sessionId fileId =>
        simp only [WebWorld.step, ht, Option.some.injEq] at hstep
        exact hstep ▸ (w.download_books u peer sessionId fileId).booked _
      | _ => simp [WebWorld.step, ht] at hstep
    | some t =>
      simp only [WebWorld.step, ht, Option.ite_none_left_eq_some] at hstep
      exact (downloadStep_books hstep.2).booked _
  | markDownloaded sessionId fileId =>
    simp only [WebWorld.step, Option.ite_none_right_eq_some, Option.some.injEq] at hstep
    let w₀ : WebWorld := { w with finishing := w.finishing.erase (sessionId, fileId) }
    have hbooks : w.SameBooks (w₀.markDownloaded sessionId fileId) :=
      w₀.markDownloaded_books sessionId fileId
    exact hstep.2 ▸ hbooks.booked _
  | startWebShare files pin autoAccept =>
    have hbooks : w.SameBooks (w.startWebShare files pin autoAccept).2 := by
      unfold startWebShare
      split <;> exact ⟨rfl, rfl⟩
    exact Option.some.inj hstep ▸ hbooks.booked _
  | stopWebShare =>
    have hbooks : w.SameBooks w.endShare := ⟨rfl, rfl⟩
    exact Option.some.inj hstep ▸ hbooks.booked _
  | respondWebShare sessionId accepted =>
    exact Option.some.inj hstep ▸ w.respondWebShare_booked sessionId accepted
  | tick d =>
    have hbooks : w.SameBooks { w with now := w.now + d } := ⟨rfl, rfl⟩
    exact Option.some.inj hstep ▸ hbooks.booked _

/-! ## Web Share disclosure -/

/-- A step that gives away nothing it should not, and whose approvals are all accounted for. -/
def Discloses (w : WebWorld) (a : WebAction) (w' : WebWorld) : Prop :=
  w'.Disclosures ∧ w'.Provenance ∧ w.Booked a w'

/-- A step that discloses well leads every approved request back to its own share. -/
theorem Inv.relocksOwn {w w' : WebWorld} (hinv : w.Inv) {a : WebAction} (hstep : w.step a = some w')
    (hdisclosures : w'.Disclosures) : w.RelocksOwn a w' := by
  intro h t web ha ht hphase hs
  subst ha
  have hsent : ∃ content, (⟨t.peer, t.share, w.number, content⟩ : Disclosure) ∈ w'.sent := by
    simp only [WebWorld.step, ht, Option.ite_none_left_eq_some, WebWorld.prepareStep, hphase,
      Option.some.injEq] at hstep
    rw [← hstep.2]
    simp only [WebWorld.relock, hs]
    exact ⟨_, List.mem_append_right _ (List.mem_singleton_self _)⟩
  obtain ⟨content, hmem⟩ := hsent
  have hshare : t.share = w.number := (hdisclosures _ hmem).2
  obtain ⟨s, hsession, _⟩ := hinv.waiting h t ht (by rw [hphase]; rfl)
  rw [hshare, session_number hs] at hsession
  rw [hsession]
  rfl

/-- Every response goes to a browser that the share it is from has approved, and that made
    its request to this share, exactly as long as no approved request comes back to a share
    that does not know it. -/
theorem disclosure_iff (device : DeviceInfo) (as : List WebAction) :
    webShareSystem.Always Discloses (start device) as ↔
      webShareSystem.Always RelocksOwn (start device) as := by
  refine (webShareSystem.always_iff_of_invariant Inv (fun w a w' hinv hstep => ?_)
    (inv_start device)).symm
  have hkeeps : w.RelocksOwn a w' → w'.Inv := fun hown => hinv.step hstep hown
  refine ⟨⟨fun hown => ?_, fun hdiscloses => hinv.relocksOwn hstep hdiscloses.1⟩, hkeeps⟩
  exact ⟨(hkeeps hown).sent, (hkeeps hown).provenance, booked_of_step hstep⟩

end WebWorld

namespace Scenario

/-- A file of a share. -/
def shared (name : String) : WebShareFile :=
  ⟨⟨⟨name⟩, name, 1, "text/plain", none, none, none⟩, .inline [0]⟩

def device : DeviceInfo := ⟨"d", "2.1", none, none, "fp", 53317, .http, false, none⟩

/-- A request is approved while its share runs, and another share, behind a PIN, has taken
    that share's place when its handler wants the lock again. -/
def approvedThenReplaced : List WebAction :=
  [.startWebShare [shared "old"] none false, .prepare 0 (.begin_ (.v4 1) none none ⟨"s"⟩),
    .prepare 0 (.sendRequest true), .respondWebShare ⟨"s"⟩ true, .prepare 0 .decide, .stopWebShare,
    .startWebShare [shared "new"] (some "1234") false]

end Scenario

namespace WebWorld

/-- The request is answered with the files of the share it was never made to. -/
theorem discloses_later_share :
    ¬∀ (device : DeviceInfo) (as : List WebAction),
    webShareSystem.Always Discloses (start device) as := by
  intro h
  refine webShareSystem.not_always_of_test (start Scenario.device) Scenario.approvedThenReplaced
    (.prepare 0 .relock) (fun _ w' => w'.sent.any fun d => d.requested ≠ d.share) (by decide) ?_
    (h Scenario.device _)
  intro w w' _ htest hdiscloses
  simp only [List.any_eq_true, decide_eq_true_eq] at htest
  obtain ⟨d, hd, hne⟩ := htest
  exact hne (hdiscloses.1 d hd).2

end WebWorld

end LocalSend
