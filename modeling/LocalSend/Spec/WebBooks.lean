import LocalSend.Spec.WebDisclosure

/-!
# What the streams of Web Share count

Every stream counts the bytes it yields and hands its file to a task of its own once it has
come to its end or to its length. The task finds the session, if its share is still running,
and records the file there. The books say what holds of this in every run: the counters are
what has been yielded, and a stream that is through has its file recorded or its task still to
run. Most sections of the Web Share half leave them alone.

## Key results

- `books_start`: the books before any share
- `Quiet.books`: the sections that have nothing to do with a stream
- `quiet_prepareDownload`, `quiet_relock`, `quiet_startWebShare`, `quiet_respondWebShare`: which
  sections these are
-/

namespace LocalSend

/-- The bytes that the body of download `u` has yielded along the actions. -/
def yielded (u : WebTaskId) : List WebAction → Nat
  | [] => 0
  | .download v (.poll (some (some bytes))) :: as =>
    (if v = u then bytes.length else 0) + yielded u as
  | _ :: as => yielded u as

/-- What a body yields along two parts of a run is what it yields along each. -/
theorem yielded_append (u : WebTaskId) (as bs : List WebAction) :
    yielded u (as ++ bs) = yielded u as + yielded u bs := by
  induction as using yielded.induct with
  | case1 => simp [yielded]
  | case2 v bytes as ih => simp [yielded, ih, Nat.add_assoc]
  | case3 a as hpoll ih =>
    rw [List.cons_append, yielded.eq_3 u a _ hpoll, yielded.eq_3 u a _ hpoll, ih]

/-- `bytes_sent` of a body, 0 before there is one. -/
def DownloadPhase.bytesSent : DownloadPhase → Nat
  | .streaming _ sent _ _ => sent
  | _ => 0

namespace WebWorld

/-- The invariant of the streams and of what is recorded of them, with what each stream has
    yielded so far. -/
structure Books (count : WebTaskId → Nat) (w : WebWorld) : Prop where
  counted : ∀ u t, w.downloads u = some t → t.phase.bytesSent = min (count u) (2 ^ 64 - 1)
  unopened : ∀ u, w.downloads u = none → count u = 0
  unfinished : ∀ u t rest sent total, w.downloads u = some t →
    t.phase = .streaming rest sent total false → 0 < total → sent < total
  sessions : ∀ g id s, w.session g id = some s → id ∈ w.issued
  once : ∀ g g' id s s', w.session g id = some s → w.session g' id = some s' → g = g'
  nonempty : ∀ g web, w.held g = some web → web.files.keys ≠ []
  recorded : ∀ g web id s, w.held g = some web → web.sessions.get? id = some s →
    s.downloadedFiles.Nodup ∧ s.downloadedFiles ⊆ web.files.keys
  downloads : ∀ u t, w.downloads u = some t → t.sessionId ∈ w.issued
  /-- What a stream gives out is a file of the share that knows its session. -/
  offered : ∀ u t web s, w.downloads u = some t → w.host.share = some web →
    web.sessions.get? t.sessionId = some s → t.fileId ∈ web.files.keys
  /-- Every task that records a file comes from a stream of it. -/
  finishing : ∀ id f, (id, f) ∈ w.finishing → ∃ u t, w.downloads u = some t ∧ t.sessionId = id ∧
    t.fileId = f
  /-- A stream that is through is recorded, or its task is still to run. -/
  tracked : ∀ u t rest sent total web s, w.downloads u = some t →
    t.phase = .streaming rest sent total true → w.host.share = some web →
    web.sessions.get? t.sessionId = some s →
    (t.sessionId, t.fileId) ∈ w.finishing ∨ t.fileId ∈ s.downloadedFiles
  done : ∀ id, .webShareSessionDone id ∈ w.events → id ∈ w.issued

/-- Before any share there is nothing to count. -/
theorem books_start (device : DeviceInfo) : (WebWorld.start device).Books fun _ => 0 where
  counted u t ht := by cases ht
  unopened _ _ := rfl
  unfinished u t rest sent total ht := by cases ht
  sessions g id s hs := by simp [session, held, WebWorld.start] at hs
  once g g' id s s' hs := by simp [session, held, WebWorld.start] at hs
  nonempty g web hweb := by simp [held, WebWorld.start] at hweb
  recorded g web id s hweb := by simp [held, WebWorld.start] at hweb
  downloads u t ht := by cases ht
  offered u t web s ht := by cases ht
  finishing id f hmem := by cases hmem
  tracked u t rest sent total web s ht := by cases ht
  done id hmem := by cases hmem

/-! ## Sections that have nothing to do with a stream -/

/-- A session as it was before, with the files of its share. -/
def SameSession (web web' : WebShareState) (id : SessionId) (s' : WebShareSession) : Prop :=
  web'.files = web.files ∧ ∃ s, web.sessions.get? id = some s ∧
    s'.downloadedFiles = s.downloadedFiles

/-- What a section does that opens no body, polls none and records nothing. A session that was
    not there before has a new id, is of the running share, and has nothing recorded. -/
structure Quiet (w w' : WebWorld) : Prop where
  downloads : w'.downloads = w.downloads
  finishing : w'.finishing = w.finishing
  issued : w.issued ⊆ w'.issued
  events : ∀ e, (∀ id ip, e ≠ .webShareRequest id ip) → w'.events.count e = w.events.count e
  files : ∀ g web', w'.held g = some web' →
    (∃ web, w.held g = some web ∧ web'.files = web.files) ∨ web'.files.keys ≠ []
  sessions : ∀ g web' id s', w'.held g = some web' → web'.sessions.get? id = some s' →
    (∃ web, w.held g = some web ∧ SameSession web web' id s') ∨
      (g = w'.number ∧ id ∉ w.issued ∧ id ∈ w'.issued ∧ s'.downloadedFiles = [])
  running : ∀ web' id s', w'.host.share = some web' → web'.sessions.get? id = some s' →
    id ∈ w.issued → ∃ web, w.host.share = some web ∧ SameSession web web' id s'

/-- A quiet section emits only requests for consent. -/
theorem Quiet.mem_events {w w' : WebWorld} (h : w.Quiet w') {e : WebShareEvent}
    (he : ∀ id ip, e ≠ .webShareRequest id ip) : e ∈ w'.events ↔ e ∈ w.events := by
  rw [← List.count_pos_iff, ← List.count_pos_iff, h.events e he]

/-- A session after a quiet section was there before, or is new and of the running share. -/
theorem Quiet.session {w w' : WebWorld} (h : w.Quiet w') {g : Nat} {id : SessionId}
    {s' : WebShareSession} (hs' : w'.session g id = some s') :
    (∃ s, w.session g id = some s) ∨ (g = w'.number ∧ id ∉ w.issued ∧ id ∈ w'.issued) := by
  simp only [WebWorld.session, Option.bind_eq_some_iff] at hs'
  obtain ⟨web', hweb', hs'⟩ := hs'
  cases h.sessions g web' id s' hweb' hs' with
  | inl hsame =>
    obtain ⟨web, hweb, _, s, hs, _⟩ := hsame
    exact .inl ⟨s, by simp [WebWorld.session, hweb, hs]⟩
  | inr hnew => exact .inr ⟨hnew.1, hnew.2.1, hnew.2.2.1⟩

/-- A quiet section keeps the books. -/
theorem Quiet.books {w w' : WebWorld} {count : WebTaskId → Nat} (quiet : w.Quiet w')
    (h : w.Books count) : w'.Books count where
  counted := quiet.downloads ▸ h.counted
  unopened := quiet.downloads ▸ h.unopened
  unfinished := quiet.downloads ▸ h.unfinished
  sessions g id s' hs' := by
    cases quiet.session hs' with
    | inl hold =>
      obtain ⟨s, hs⟩ := hold
      exact quiet.issued (h.sessions g id s hs)
    | inr hnew => exact hnew.2.2
  once g g' id s s' hs hs' := by
    cases quiet.session hs with
    | inl hold =>
      obtain ⟨q, hq⟩ := hold
      have hissued := h.sessions g id q hq
      obtain ⟨q', hq'⟩ := (quiet.session hs').resolve_right fun hnew => hnew.2.1 hissued
      exact h.once g g' id q q' hq hq'
    | inr hnew =>
      -- both are new, and a new one is of the running share
      have hother := (quiet.session hs').resolve_left ?_
      · rw [hnew.1, hother.1]
      · intro hold
        obtain ⟨q', hq'⟩ := hold
        exact hnew.2.1 (h.sessions g' id q' hq')
  nonempty g web' hweb' := by
    cases quiet.files g web' hweb' with
    | inl hsame =>
      obtain ⟨web, hweb, hfiles⟩ := hsame
      rw [hfiles]
      exact h.nonempty g web hweb
    | inr hfiles => exact hfiles
  recorded g web' id s' hweb' hs' := by
    cases quiet.sessions g web' id s' hweb' hs' with
    | inl hsame =>
      obtain ⟨web, hweb, hfiles, s, hs, hdownloaded⟩ := hsame
      rw [hfiles, hdownloaded]
      exact h.recorded g web id s hweb hs
    | inr hnew =>
      rw [hnew.2.2.2]
      exact ⟨List.nodup_nil, List.nil_subset _⟩
  downloads u t ht := quiet.issued (h.downloads u t (quiet.downloads ▸ ht))
  offered u t web' s' ht hweb' hs' := by
    rw [quiet.downloads] at ht
    obtain ⟨web, hweb, hfiles, s, hs, _⟩ := quiet.running web' _ s' hweb' hs' (h.downloads u t ht)
    rw [hfiles]
    exact h.offered u t web s ht hweb hs
  finishing := by
    rw [quiet.finishing, quiet.downloads]
    exact h.finishing
  tracked u t rest sent total web' s' ht hphase hweb' hs' := by
    rw [quiet.downloads] at ht
    obtain ⟨web, hweb, _, s, hs, hdownloaded⟩ :=
      quiet.running web' _ s' hweb' hs' (h.downloads u t ht)
    rw [quiet.finishing, hdownloaded]
    exact h.tracked u t rest sent total web s ht hphase hweb hs
  done id hmem := quiet.issued (h.done id ((quiet.mem_events (by simp)).mp hmem))

/-- A section that leaves the shares alone. -/
theorem Quiet.of_held {w w' : WebWorld} (hdownloads : w'.downloads = w.downloads)
    (hfinishing : w'.finishing = w.finishing) (hissued : w'.issued = w.issued)
    (hevents : ∀ e, (∀ id ip, e ≠ .webShareRequest id ip) → w'.events.count e = w.events.count e)
    (hheld : w'.held = w.held) (hshare : w'.host.share = w.host.share ∨ w'.host.share = none) :
    w.Quiet w' where
  downloads := hdownloads
  finishing := hfinishing
  issued := hissued ▸ List.Subset.refl _
  events := hevents
  files g web' hweb' := .inl ⟨web', hheld ▸ hweb', rfl⟩
  sessions g web' id s' hweb' hs' := .inl ⟨web', hheld ▸ hweb', rfl, s', hs', rfl⟩
  running web' id s' hweb' hs' _ := by
    cases hshare with
    | inl hsame => exact ⟨web', hsame ▸ hweb', rfl, s', hs', rfl⟩
    | inr hnone => rw [hnone] at hweb'; cases hweb'

/-- A section that writes the running share and records nothing there. -/
theorem Quiet.of_share {w w' : WebWorld} {web web' : WebShareState} (hs : w.host.share = some web)
    (hdownloads : w'.downloads = w.downloads) (hfinishing : w'.finishing = w.finishing)
    (hissued : w.issued ⊆ w'.issued)
    (hevents : ∀ e, (∀ id ip, e ≠ .webShareRequest id ip) → w'.events.count e = w.events.count e)
    (hheld : w'.held = Function.update w.held w.number (some web')) (hnumber : w'.number = w.number)
    (hshare : w'.host.share = some web') (hfiles : web'.files = web.files)
    (hsessions : ∀ id s', web'.sessions.get? id = some s' →
      (∃ s, web.sessions.get? id = some s ∧ s'.downloadedFiles = s.downloadedFiles) ∨
        (id ∉ w.issued ∧ id ∈ w'.issued ∧ s'.downloadedFiles = [])) : w.Quiet w' where
  downloads := hdownloads
  finishing := hfinishing
  issued := hissued
  events := hevents
  files g web₁ hweb₁ := by
    refine .inl ?_
    -- the shares of earlier numbers are as they were
    by_cases hg : g = w.number
    · subst hg
      rw [hheld, Function.update_self, Option.some.injEq] at hweb₁
      exact ⟨web, held_number hs, hweb₁ ▸ hfiles⟩
    · rw [hheld, Function.update_of_ne hg] at hweb₁
      exact ⟨web₁, hweb₁, rfl⟩
  sessions g web₁ id s' hweb₁ hs' := by
    by_cases hg : g = w.number
    · subst hg
      rw [hheld, Function.update_self, Option.some.injEq] at hweb₁
      subst hweb₁
      cases hsessions id s' hs' with
      | inl hold => exact .inl ⟨web, held_number hs, hfiles, hold⟩
      | inr hnew => exact .inr ⟨hnumber.symm, hnew⟩
    · rw [hheld, Function.update_of_ne hg] at hweb₁
      exact .inl ⟨web₁, hweb₁, rfl, s', hs', rfl⟩
  running web₁ id s' hweb₁ hs' hid := by
    cases hshare.symm.trans hweb₁
    exact ⟨web, hs, hfiles, (hsessions id s' hs').resolve_right fun hnew => hnew.1 hid⟩

/-- Doing nothing is quiet. -/
theorem Quiet.refl (w : WebWorld) : w.Quiet w :=
  .of_held rfl rfl rfl (fun _ _ => rfl) rfl (.inl rfl)

/-- A request event is none that the books are about. -/
theorem count_emit_request (w : WebWorld) (id : SessionId) (ip : IpAddr) (e : WebShareEvent)
    (he : ∀ id ip, e ≠ .webShareRequest id ip) :
    (w.emit (.webShareRequest id ip)).events.count e = w.events.count e := by
  have hnew : ([.webShareRequest id ip] : List WebShareEvent).count e = 0 := by
    rw [List.count_eq_zero, List.mem_singleton]
    exact he id ip
  rw [WebWorld.emit, List.count_append, hnew, Nat.add_zero]

/-- Where a request stands is no part of the books. -/
theorem quiet_setPrepare (w : WebWorld) (h : WebTaskId) (t : PrepareDownload) :
    w.Quiet (w.setPrepare h t) := .of_held rfl rfl rfl (fun _ _ => rfl) rfl (.inl rfl)

/-- Only the sessions count of what is written to the running share. -/
theorem quiet_setShare (w : WebWorld) {web web' : WebShareState} (hs : w.host.share = some web)
    (hfiles : web'.files = web.files)
    (hsessions : ∀ id s', web'.sessions.get? id = some s' →
      ∃ s, web.sessions.get? id = some s ∧ s'.downloadedFiles = s.downloadedFiles) :
    w.Quiet (w.setShare web') :=
  .of_share hs rfl rfl (List.Subset.refl _) (fun _ _ => rfl) (held_setShare w web') rfl rfl hfiles
    fun id s' hs' => .inl (hsessions id s' hs')

/-- Opening a session is quiet: its id is new and it has recorded nothing. -/
theorem quiet_openSession (w : WebWorld) (h : WebTaskId) {web web₀ : WebShareState} (peer : IpAddr)
    {id : SessionId} (hs : w.host.share = some web₀) (hfiles : web.files = web₀.files)
    (hsessions : web.sessions = web₀.sessions) (hid : id ∉ w.issued) :
    w.Quiet (w.openSession h web peer id).2 := by
  have hnew : ∀ j s', (web.openSession h peer id).sessions.get? j = some s' →
      (∃ s, web₀.sessions.get? j = some s ∧ s'.downloadedFiles = s.downloadedFiles) ∨
        (j ∉ w.issued ∧ j ∈ id :: w.issued ∧ s'.downloadedFiles = []) := by
    intro j s' hs'
    rw [get?_openSession] at hs'
    by_cases hj : j = id
    · subst hj
      rw [if_pos rfl, Option.some.injEq] at hs'
      exact .inr ⟨hid, List.mem_cons_self, hs' ▸ rfl⟩
    · rw [if_neg hj, hsessions] at hs'
      exact .inl ⟨s', hs', rfl⟩
  have hheld := held_setShare w (web.openSession h peer id)
  unfold WebWorld.openSession
  dsimp only
  split
  · refine .of_share hs rfl rfl (List.subset_cons_self ..) ?_ hheld rfl rfl hfiles hnew
    exact fun e he => count_emit_request _ id peer e he
  · exact .of_share hs rfl rfl (List.subset_cons_self ..) (fun _ _ => rfl) hheld rfl rfl hfiles hnew

/-- Asking for a listing is quiet, whatever is answered. -/
theorem quiet_prepareDownload (w : WebWorld) (h : WebTaskId) (peer : IpAddr)
    (sessionId : Option SessionId) (pin : Option String) {id : SessionId} (hid : id ∉ w.issued) :
    w.Quiet (w.prepareDownload h peer sessionId pin id).2 := by
  unfold WebWorld.prepareDownload
  cases hs : w.host.share with
  | none => exact .refl w
  | some web =>
    dsimp only
    split
    · exact .of_held rfl rfl rfl (fun _ _ => rfl) rfl (.inl rfl)
    · have hgate : w.Quiet
          (w.setShare { web with pinGate := (web.pinGate.check w.now pin peer).2 }) :=
        quiet_setShare w hs rfl fun j s' hs' => ⟨s', hs', rfl⟩
      split
      · exact hgate
      · exact hgate
      · exact quiet_openSession w h peer hs rfl rfl hid

/-- Taking the lock again after the answer is quiet. -/
theorem quiet_relock (w : WebWorld) (h : WebTaskId) (t : PrepareDownload) (accepted : Bool) :
    w.Quiet (w.relock h t accepted) := by
  unfold WebWorld.relock
  cases hs : w.host.share with
  | none => exact quiet_setPrepare w h _
  | some web =>
    dsimp only
    split
    · refine .of_share hs rfl rfl (List.Subset.refl _) (fun _ _ => rfl)
        (held_setShare w { web with sessions := web.sessions.erase t.sessionId }) rfl rfl rfl ?_
      intro id s' hs'
      rw [AssocMap.get?_erase, Option.ite_none_left_eq_some] at hs'
      exact .inl ⟨s', hs'.2, rfl⟩
    · refine .of_share hs rfl rfl (List.Subset.refl _) (fun _ _ => rfl) (held_setShare w _) rfl rfl
        rfl ?_
      intro id s' hs'
      rw [AssocMap.get?_modify] at hs'
      split at hs'
      · obtain ⟨s, hs₀, heq⟩ := Option.map_eq_some_iff.mp hs'
        exact .inl ⟨s, hs₀, heq ▸ rfl⟩
      · exact .inl ⟨s', hs', rfl⟩

/-- A request for a listing goes on quietly. -/
theorem quiet_prepareStep {w w' : WebWorld} {h : WebTaskId} {t : PrepareDownload}
    {a : PrepareDownloadAction} (hstep : w.prepareStep h t a = some w') : w.Quiet w' := by
  cases a with
  | begin_ peer sessionId pin id => cases hstep
  | sendRequest delivered =>
    simp only [prepareStep, Option.ite_none_right_eq_some, Option.some.injEq] at hstep
    rw [← hstep.2]
    unfold WebWorld.sendRequest
    split
    · exact .of_held rfl rfl rfl (fun e he => count_emit_request w _ _ e he) rfl (.inl rfl)
    · exact quiet_setPrepare w h _
  | decide =>
    simp only [prepareStep, Option.ite_none_right_eq_some, Option.some.injEq] at hstep
    exact hstep.2 ▸ quiet_setPrepare w h _
  | relock =>
    simp only [prepareStep] at hstep
    split at hstep
    · exact Option.some.inj hstep ▸ quiet_relock w h t _
    · cases hstep
  | drop =>
    simp only [prepareStep, Option.ite_none_right_eq_some, Option.some.injEq] at hstep
    exact hstep.2 ▸ quiet_setPrepare w h _

/-- Ending the share is quiet: its sessions stay known as they were. -/
theorem quiet_endShare (w : WebWorld) : w.Quiet w.endShare :=
  .of_held rfl rfl rfl (fun _ _ => rfl) (held_endShare w) (.inr rfl)

/-- A share of some files has files. -/
theorem keys_new_ne_nil {files : List WebShareFile} (pin : Option String) (autoAccept : Bool)
    (hfiles : files ≠ []) : (WebShareState.new files pin autoAccept).files.keys ≠ [] := by
  have hinsert : ∀ (map : AssocMap FileId WebShareFile) (file : WebShareFile),
      (map.insert file.metadata.id file).keys ≠ [] := by
    intro map file
    simp [AssocMap.keys, AssocMap.insert]
  have hfold : ∀ (files : List WebShareFile) (map : AssocMap FileId WebShareFile), map.keys ≠ [] →
      (files.foldl (fun map file => map.insert file.metadata.id file) map).keys ≠ [] := by
    intro files
    induction files with
    | nil => exact fun _ hmap => hmap
    | cons file files ih => exact fun map _ => ih _ (hinsert map file)
  cases files with
  | nil => exact absurd rfl hfiles
  | cons file files => exact hfold files _ (hinsert _ file)

/-- A new share has no sessions yet. -/
theorem quiet_startWebShare (w : WebWorld) (files : List WebShareFile) (pin : Option String)
    (autoAccept : Bool) : w.Quiet (w.startWebShare files pin autoAccept).2 := by
  unfold WebWorld.startWebShare
  split
  · exact .refl w
  · rename_i hfiles
    -- the share that is started has no session yet
    have hnew := held_newShare w (.new files pin autoAccept)
    rw [held_endShare] at hnew
    exact {
      downloads := rfl
      finishing := rfl
      issued := List.Subset.refl _
      events := fun _ _ => rfl
      files := by
        intro g web' hweb'
        rw [hnew] at hweb'
        split at hweb'
        · cases hweb'
          exact .inr (keys_new_ne_nil pin autoAccept fun h => hfiles (h ▸ rfl))
        · exact .inl ⟨web', hweb', rfl⟩
      sessions := by
        intro g web' id s' hweb' hs'
        rw [hnew] at hweb'
        split at hweb'
        · cases hweb'
          cases hs'
        · exact .inl ⟨web', hweb', rfl, s', hs', rfl⟩
      running := by
        intro web' id s' hweb' hs' _
        cases hweb'
        cases hs' }

/-- Answering a request for consent is quiet. -/
theorem quiet_respondWebShare (w : WebWorld) (sessionId : SessionId) (accepted : Bool) :
    w.Quiet (w.respondWebShare sessionId accepted).2 := by
  unfold WebWorld.respondWebShare
  cases hs : w.host.share with
  | none => exact .refl w
  | some web =>
    dsimp only
    split
    · exact .refl w
    · -- an answer closes the channel of the session, and nothing else of it
      have hsessions : ∀ id s', (web.sessions.modify sessionId fun session =>
          { session with responseTx := none }).get? id = some s' →
          (∃ s, web.sessions.get? id = some s ∧ s'.downloadedFiles = s.downloadedFiles) ∨
            (id ∉ w.issued ∧ id ∈ w.issued ∧ s'.downloadedFiles = []) := by
        intro id s' hs'
        rw [AssocMap.get?_modify] at hs'
        split at hs'
        · obtain ⟨s, hs₀, heq⟩ := Option.map_eq_some_iff.mp hs'
          exact .inl ⟨s, hs₀, heq ▸ rfl⟩
        · exact .inl ⟨s', hs', rfl⟩
      split
      · exact .of_share hs rfl rfl (List.Subset.refl _) (fun _ _ => rfl)
          (held_setShare w _) rfl rfl rfl
          hsessions
      · exact .of_share hs rfl rfl (List.Subset.refl _) (fun _ _ => rfl)
          (held_setShare w _) rfl rfl rfl
          hsessions

end WebWorld

end LocalSend
