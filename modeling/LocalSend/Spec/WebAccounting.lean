import LocalSend.Spec.WebStreams
import Mathlib.Data.List.Perm.Subperm

/-!
# Download accounting

A file is recorded for a session when a stream of it has run through, and the session is
reported as done when the last file of the share is recorded. A stream that ends before its
length counts as through, one whose file has grown reports more than its length, and a file
that is fetched again once everything is recorded reports the session again. Here are the
runs in which none of this happens, and what the books say in them.

## Key results

- `Accounts.step`: a step that is in order keeps the accounts
- `downloads_accounted`: what is recorded and reported in a run whose steps are all in order
- `repeated_download_reports_again`: a session that is reported as done twice
-/

namespace LocalSend

/-- Every file of the share has been recorded for the session. -/
def WebShareSession.HasAll (s : WebShareSession) (web : WebShareState) : Prop :=
  ∀ f ∈ web.files.keys, f ∈ s.downloadedFiles

instance (s : WebShareSession) (web : WebShareState) : Decidable (s.HasAll web) :=
  inferInstanceAs (Decidable (∀ f ∈ web.files.keys, f ∈ s.downloadedFiles))

/-- Whether a session has all files is a matter of its files and of those of its share. -/
theorem hasAll_congr {s s' : WebShareSession} {web web' : WebShareState}
    (hfiles : web'.files = web.files) (hdownloaded : s'.downloadedFiles = s.downloadedFiles) :
    s'.HasAll web' ↔ s.HasAll web := by
  rw [WebShareSession.HasAll, WebShareSession.HasAll, hfiles, hdownloaded]

namespace WebWorld

/-- A stream of the session has yielded all bytes of the file. An empty file has been sent when
    its stream has come to its end. -/
def SentInFull (w : WebWorld) (id : SessionId) (f : FileId) : Prop :=
  ∃ u t rest sent total finished, w.downloads u = some t ∧ t.sessionId = id ∧ t.fileId = f ∧
    t.phase = .streaming rest sent total finished ∧ total ≤ sent ∧ (0 < total ∨ finished = true)

/-- How often a session has been reported as done. -/
def doneCount (w : WebWorld) (id : SessionId) : Nat := w.events.count (.webShareSessionDone id)

/-- A step that is in order: no stream ends before its length, unless the file has been sent in
    full by another stream of the session or the session is gone; no stream yields more than
    its length; and nothing is recorded for a session that has every file already. -/
structure InOrder (w : WebWorld) (a : WebAction) (_ : WebWorld) : Prop where
  short : ∀ u t rest sent total, a = .download u (.poll none) → w.downloads u = some t →
    t.phase = .streaming rest sent total false →
    total ≤ sent ∨ w.SentInFull t.sessionId t.fileId ∨
      ∀ web, w.host.share = some web → web.sessions.get? t.sessionId = none
  long : ∀ u bytes t rest sent total finished, a = .download u (.poll (some (some bytes))) →
    w.downloads u = some t → t.phase = .streaming rest sent total finished →
    sent + bytes.length ≤ total
  again : ∀ id f web s, a = .markDownloaded id f → w.host.share = some web →
    web.sessions.get? id = some s → ¬s.HasAll web

/-- What the accounts of the downloads say, with what each stream has yielded so far. -/
structure Accounted (count : WebTaskId → Nat) (w : WebWorld) : Prop where
  /-- `bytes_sent` is what the stream has yielded, as far as 64 bits go. -/
  counted : ∀ u t rest sent total finished, w.downloads u = some t →
    t.phase = .streaming rest sent total finished → sent = min (count u) (2 ^ 64 - 1)
  /-- A file is recorded only after a stream of the session has yielded all its bytes. -/
  recorded : ∀ g id s f, w.session g id = some s → f ∈ s.downloadedFiles → w.SentInFull id f
  /-- It is recorded as soon as its task has run. -/
  settled : ∀ web id s f, w.host.share = some web → web.sessions.get? id = some s →
    w.SentInFull id f → (id, f) ∉ w.finishing → f ∈ s.downloadedFiles
  progress : ∀ id f sent total, .webShareDownloadProgress id f sent total ∈ w.events → sent ≤ total
  once : ∀ id, w.doneCount id ≤ 1
  /-- A session has been reported as done when the last file of its share is recorded. -/
  done : ∀ g web id s, w.held g = some web → web.sessions.get? id = some s →
    (w.doneCount id = 1 ↔ s.HasAll web)

/-- The part of the accounts that depends on the steps being in order. -/
structure Accounts (w : WebWorld) : Prop where
  recorded : ∀ g id s f, w.session g id = some s → f ∈ s.downloadedFiles → w.SentInFull id f
  /-- A task is for a file that has been sent in full, or its session is gone. -/
  pending : ∀ id f, (id, f) ∈ w.finishing → w.SentInFull id f ∨
    ∀ web, w.host.share = some web → web.sessions.get? id = none
  progress : ∀ id f sent total, .webShareDownloadProgress id f sent total ∈ w.events → sent ≤ total
  once : ∀ id, w.doneCount id ≤ 1
  done : ∀ g web id s, w.held g = some web → web.sessions.get? id = some s →
    w.doneCount id = if s.HasAll web then 1 else 0

/-- Before any share nothing is recorded and nothing done. -/
theorem accounts_start (device : DeviceInfo) : (WebWorld.start device).Accounts where
  recorded g id s f hs := by simp [session, held, WebWorld.start] at hs
  pending id f hmem := by cases hmem
  progress id f sent total hmem := by cases hmem
  once id := by simp [doneCount, WebWorld.start]
  done g web id s hweb := by simp [held, WebWorld.start] at hweb

/-- The streams that are through have sent in full, and what they have sent is recorded once
    their tasks have run. -/
theorem Accounts.accounted {count : WebTaskId → Nat} {w : WebWorld} (h : w.Accounts)
    (hbooks : w.Books count) : w.Accounted count where
  counted u t rest sent total finished ht hphase := by
    have hcounted := hbooks.counted u t ht
    rwa [hphase] at hcounted
  recorded := h.recorded
  settled web id s f hs hget hsent hnot := by
    obtain ⟨u, t, rest, sent, total, finished, ht, hid, hfile, hphase, hle, hopen⟩ := hsent
    have hfinished : finished = true := by
      cases hf : finished with
      | true => rfl
      | false =>
        have hpos : 0 < total := hopen.resolve_right (by simp [hf])
        have := hbooks.unfinished u t rest sent total ht (hf ▸ hphase) hpos
        omega
    subst hid hfile hfinished
    exact (hbooks.tracked u t rest sent total web s ht hphase hs hget).resolve_left hnot
  progress := h.progress
  once := h.once
  done g web id s hweb hget := by
    rw [h.done g web id s hweb hget]
    split <;> simp_all

/-! ## Sections that have nothing to do with a stream -/

/-- What was sent in full is told by the bodies alone. -/
theorem SentInFull.of_downloads {w w' : WebWorld} {id : SessionId} {f : FileId}
    (h : w.SentInFull id f) (hdownloads : w'.downloads = w.downloads) : w'.SentInFull id f := by
  unfold SentInFull
  rw [hdownloads]
  exact h

/-- A quiet section keeps the accounts. -/
theorem Quiet.accounts {w w' : WebWorld} {count : WebTaskId → Nat} (quiet : w.Quiet w')
    (hbooks : w.Books count) (h : w.Accounts) : w'.Accounts where
  recorded g id s' f hs' hf := by
    simp only [WebWorld.session, Option.bind_eq_some_iff] at hs'
    obtain ⟨web', hweb', hs'⟩ := hs'
    cases quiet.sessions g web' id s' hweb' hs' with
    | inl hsame =>
      obtain ⟨web, hweb, _, s, hs, hdownloaded⟩ := hsame
      rw [hdownloaded] at hf
      have hsession : w.session g id = some s := by simp [WebWorld.session, hweb, hs]
      exact (h.recorded g id s f hsession hf).of_downloads quiet.downloads
    | inr hnew =>
      rw [hnew.2.2.2] at hf
      cases hf
  pending id f hmem := by
    rw [quiet.finishing] at hmem
    cases h.pending id f hmem with
    | inl hsent => exact .inl (hsent.of_downloads quiet.downloads)
    | inr hgone =>
      obtain ⟨u, t, ht, hid, _⟩ := hbooks.finishing id f hmem
      have hissued : id ∈ w.issued := hid ▸ hbooks.downloads u t ht
      refine .inr fun web' hweb' => Option.eq_none_iff_forall_ne_some.mpr fun s' hs' => ?_
      obtain ⟨web, hweb, _, s, hs, _⟩ := quiet.running web' id s' hweb' hs' hissued
      rw [hgone web hweb] at hs
      cases hs
  progress id f sent total hmem := h.progress id f sent total ((quiet.mem_events (by simp)).mp hmem)
  once id := by
    rw [doneCount, quiet.events _ (by simp)]
    exact h.once id
  done g web' id s' hweb' hs' := by
    rw [doneCount, quiet.events _ (by simp)]
    cases quiet.sessions g web' id s' hweb' hs' with
    | inl hsame =>
      obtain ⟨web, hweb, hfiles, s, hs, hdownloaded⟩ := hsame
      have hdone := h.done g web id s hweb hs
      rw [doneCount] at hdone
      rw [hdone]
      exact if_congr (hasAll_congr hfiles hdownloaded).symm rfl rfl
    | inr hnew =>
      -- nothing has been reported of a session that is new, and its share has files
      obtain ⟨_, hfresh, _, hempty⟩ := hnew
      have hnone : w.events.count (.webShareSessionDone id) = 0 :=
        List.count_eq_zero.mpr fun hmem => hfresh (hbooks.done id hmem)
      have hnot : ¬s'.HasAll web' := by
        intro hall
        obtain ⟨f, hf⟩ := List.exists_mem_of_ne_nil _ ((quiet.books hbooks).nonempty g web' hweb')
        have hmem := hall f hf
        rw [hempty] at hmem
        cases hmem
      rw [hnone, if_neg hnot]

/-! ## Streams -/

namespace StreamMoves

variable {w w' : WebWorld} {u : WebTaskId} {t' : Download} {count : WebTaskId → Nat}

/-- A body goes on and what was sent in full stays sent. -/
theorem sentInFull (h : w.StreamMoves w' u t') {id : SessionId} {f : FileId}
    (hsent : w.SentInFull id f) : w'.SentInFull id f := by
  obtain ⟨v, t, rest, sent, total, finished, ht, hid, hfile, hphase, hle, hopen⟩ := hsent
  obtain ⟨q, hq, hqid, hqfile, hgoes⟩ := h.kept ht
  obtain ⟨rest', sent', finished', hqphase, hmore, hfinished⟩ :=
    hgoes rest sent total finished hphase
  exact ⟨v, q, rest', sent', total, finished', hq, hqid.trans hid, hqfile.trans hfile, hqphase,
    hle.trans hmore, hopen.imp_right hfinished⟩

/-- A stream that moves keeps the accounts if it gets through in full and reports no more than
    its length. -/
theorem accounts (hmoves : w.StreamMoves w' u t') (h : w.Accounts)
    (hthrough : w'.finishing = w.finishing ∨ w'.SentInFull t'.sessionId t'.fileId ∨
      ∀ web, w.host.share = some web → web.sessions.get? t'.sessionId = none)
    (hprogress : ∀ id f sent total, .webShareDownloadProgress id f sent total ∈ w'.events →
      .webShareDownloadProgress id f sent total ∈ w.events ∨ sent ≤ total) : w'.Accounts where
  recorded g id s f hs hf := by
    rw [hmoves.session_eq] at hs
    exact hmoves.sentInFull (h.recorded g id s f hs hf)
  pending id f hmem := by
    rw [hmoves.share]
    -- what was to be recorded before was sent before
    have hold : (id, f) ∈ w.finishing → w'.SentInFull id f ∨
        ∀ web, w.host.share = some web → web.sessions.get? id = none :=
      fun hmem => (h.pending id f hmem).imp_left hmoves.sentInFull
    cases hthrough with
    | inl hsame => exact hold (hsame ▸ hmem)
    | inr hfull =>
      cases hmoves.finishing with
      | inl hsame => exact hold (hsame ▸ hmem)
      | inr hmore =>
        rw [hmore, List.mem_append, List.mem_singleton, Prod.mk.injEq] at hmem
        cases hmem with
        | inl hmem => exact hold hmem
        | inr hnew =>
          rw [hnew.1, hnew.2]
          exact hfull
  progress id f sent total hmem := by
    cases hprogress id f sent total hmem with
    | inl hold => exact h.progress id f sent total hold
    | inr hle => exact hle
  once id := by
    rw [doneCount, hmoves.done_iff]
    exact h.once id
  done g web id s hweb hs := by
    rw [hmoves.held] at hweb
    rw [doneCount, hmoves.done_iff]
    exact h.done g web id s hweb hs

end StreamMoves

/-- The progress that a stream reports when it yields bytes. -/
theorem pollNext_events (w : WebWorld) (u : WebTaskId) (t : Download)
    (rest : Option (List (List UInt8))) (sent total : Nat) (finished : Bool) (bytes : List UInt8) :
    (w.pollNext u t rest sent total finished (some (some bytes))).events = w.events ++
      [.webShareDownloadProgress t.sessionId t.fileId (min (sent + bytes.length) (2 ^ 64 - 1))
        total] := by
  unfold WebWorld.pollNext WebWorld.finishFile
  dsimp only
  split
  · split <;> rfl
  · rfl

/-- A section of a download keeps the accounts, if the stream's last chunk is not short. -/
theorem Accounts.downloadStep {w w' : WebWorld} {u : WebTaskId} {t : Download} {a : DownloadAction}
    {count : WebTaskId → Nat} (h : w.Accounts) (hbooks : w.Books count)
    (ht : w.downloads u = some t) (hstep : w.downloadStep u t a = some w')
    (horder : w.InOrder (.download u a) w') : w'.Accounts := by
  by_cases ha : ∀ item, a ≠ .poll item
  · obtain ⟨t', hmoves, _, hfinishing, hevents⟩ := downloadStep_cases hbooks ht ha hstep
    exact hmoves.accounts h (.inl hfinishing) fun id f sent total hmem => .inl (hevents ▸ hmem)
  · simp only [not_forall, not_not] at ha
    obtain ⟨item, ha⟩ := ha
    subst ha
    obtain ⟨rest, rest', sent, total, finished, hphase, hw'⟩ := poll_cases hstep
    subst hw'
    cases item with
    | none =>
      have hmoves := streamMoves_end ht hphase rest'
      refine hmoves.accounts h ?_ fun id f sent total hmem => .inl ?_
      · cases hf : finished with
        | true => exact .inl rfl
        | false =>
          subst hf
          refine .inr ?_
          -- the end comes in order: after the last byte, or where it does no harm
          obtain hle | hsent | hgone := horder.short u t rest sent total rfl ht hphase
          · exact .inl ⟨u, _, rest', sent, total, true, hmoves.get_self, rfl, rfl, rfl, hle, .inr rfl⟩
          · exact .inl (hmoves.sentInFull hsent)
          · exact .inr hgone
      · cases finished <;> exact hmem
    | some item =>
      cases item with
      | none => exact h
      | some bytes =>
        have hcounted : sent = min (count u) (2 ^ 64 - 1) := by
          have := hbooks.counted u t ht
          rwa [hphase] at this
        -- the bytes stay below the length, so their progress does
        have hlong := horder.long u bytes t rest sent total finished rfl ht hphase
        have hmoves := streamMoves_bytes ht hphase (by omega) rest' bytes
        refine hmoves.accounts h ?_ ?_
        · by_cases hdone : total ≤ min (sent + bytes.length) (2 ^ 64 - 1)
          · exact .inr (.inl ⟨u, _, rest', _, total, _, hmoves.get_self, rfl, rfl, rfl, hdone,
              .inr (by rw [Bool.or_eq_true]; exact .inr (decide_eq_true hdone))⟩)
          · refine .inl ?_
            simp only [WebWorld.pollNext, if_neg hdone]
            rfl
        · intro id f sent' total' hmem
          rw [pollNext_events, List.mem_append, List.mem_singleton] at hmem
          refine hmem.imp_right fun hnew => ?_
          rw [WebShareEvent.webShareDownloadProgress.injEq] at hnew
          omega

/-! ## The task that records a file -/

/-- A list of different files of the share has all of them iff it is as long as the share. -/
theorem length_eq_size_iff {web : WebShareState} {l : List FileId} (hnodup : l.Nodup)
    (hfiles : l ⊆ web.files.keys) : l.length = web.files.size ↔ ∀ f ∈ web.files.keys, f ∈ l := by
  have hsize : web.files.size = web.files.keys.length := (List.length_map ..).symm
  rw [hsize]
  have hsubperm : List.Subperm l web.files.keys := List.subperm_of_subset hnodup hfiles
  constructor
  · intro hlength f hf
    exact (hsubperm.perm_of_length_le hlength.ge).mem_iff.mpr hf
  · intro hall
    exact hsubperm.length_le.antisymm (List.subperm_of_subset web.files.nodup hall).length_le

/-- The file is recorded for the session `s` of the running share, and the session is reported as
    done if it has as many files as the share now. -/
structure Records (w w' : WebWorld) (web : WebShareState) (id : SessionId) (s : WebShareSession)
    (fileId : FileId) : Prop where
  share : w.host.share = some web
  session : web.sessions.get? id = some s
  downloads : w'.downloads = w.downloads
  finishing : w'.finishing ⊆ w.finishing
  share' : w'.host.share = some (web.setDownloaded id (withFile fileId s.downloadedFiles))
  held : w'.held = (w.setShare (web.setDownloaded id (withFile fileId s.downloadedFiles))).held
  events : w'.events = if (withFile fileId s.downloadedFiles).length = web.files.size then
    w.events ++ [.webShareSessionDone id] else w.events

section Records

variable {w w' : WebWorld} {web : WebShareState} {id : SessionId} {s : WebShareSession}
  {fileId : FileId} {count : WebTaskId → Nat}

/-- Recording a file changes the files of one session. -/
theorem Records.session_cases (h : w.Records w' web id s fileId) {g : Nat} {j : SessionId}
    {s' : WebShareSession} (hs' : w'.session g j = some s') : ∃ q, w.session g j = some q ∧
      s'.downloadedFiles = if g = w.number ∧ j = id then withFile fileId s.downloadedFiles
        else q.downloadedFiles := by
  rw [WebWorld.session, h.held] at hs'
  exact session_setDownloaded h.share hs'

/-- The session in which a file is recorded is the running one. -/
theorem Records.session_eq (h : w.Records w' web id s fileId) : w.session w.number id = some s := by
  rw [session_number h.share, h.session]

/-- Of the other sessions nothing is reported. -/
theorem Records.doneCount_of_ne (h : w.Records w' web id s fileId) {j : SessionId} (hj : j ≠ id) :
    w'.doneCount j = w.doneCount j := by
  rw [doneCount, h.events]
  split
  · have hnone : ([.webShareSessionDone id] : List WebShareEvent).count (.webShareSessionDone j) = 0 := by
      simp [Ne.symm hj]
    rw [List.count_append, hnone]
    rfl
  · rfl

/-- The session is reported when it has every file now. -/
theorem Records.doneCount_self (h : w.Records w' web id s fileId) (hbooks : w.Books count)
    (hmem : (id, fileId) ∈ w.finishing) (hbefore : w.doneCount id = 0) : w'.doneCount id =
      if ∀ f ∈ web.files.keys, f ∈ withFile fileId s.downloadedFiles then 1 else 0 := by
  obtain ⟨hnodup, _⟩ := hbooks.recorded w.number web id s (held_number h.share) h.session
  have hwith : (withFile fileId s.downloadedFiles).Nodup := nodup_withFile hnodup
  have hsize := length_eq_size_iff hwith (hbooks.withFile_subset h.share h.session hmem)
  rw [doneCount, h.events]
  by_cases hall : ∀ f ∈ web.files.keys, f ∈ withFile fileId s.downloadedFiles
  · rw [if_pos (hsize.mpr hall), if_pos hall, List.count_append, List.count_singleton_self]
    exact congrArg (· + 1) hbefore
  · rw [if_neg (mt hsize.mp hall), if_neg hall]
    exact hbefore

/-- What is recorded has been sent in full. -/
theorem Records.sentInFull (h : w.Records w' web id s fileId) (haccounts : w.Accounts)
    (hsent : w.SentInFull id fileId) {g : Nat} {j : SessionId} {s' : WebShareSession} {f : FileId}
    (hs' : w'.session g j = some s') (hf : f ∈ s'.downloadedFiles) : w'.SentInFull j f := by
  obtain ⟨q, hq, hdownloaded⟩ := h.session_cases hs'
  rw [hdownloaded] at hf
  split at hf
  · rename_i hself
    rw [hself.2]
    cases mem_withFile.mp hf with
    | inl heq => exact heq ▸ hsent.of_downloads h.downloads
    | inr hold =>
      exact (haccounts.recorded w.number id s f h.session_eq hold).of_downloads h.downloads
  · exact (haccounts.recorded g j q f hq hf).of_downloads h.downloads

/-- A session is reported exactly when it has every file of its share, after as before. -/
theorem Records.done (h : w.Records w' web id s fileId) (haccounts : w.Accounts)
    (hbooks : w.Books count) (hagain : ¬s.HasAll web) (hmem : (id, fileId) ∈ w.finishing) {g : Nat}
    {web' : WebShareState} {j : SessionId} {s' : WebShareSession} (hweb' : w'.held g = some web')
    (hs' : web'.sessions.get? j = some s') : w'.doneCount j = if s'.HasAll web' then 1 else 0 := by
  have hsession' : w'.session g j = some s' := by simp [WebWorld.session, hweb', hs']
  obtain ⟨q, hq, hdownloaded⟩ := h.session_cases hsession'
  rw [h.held, held_setShare] at hweb'
  by_cases hj : j = id
  · -- no other share has a session of this id
    subst hj
    have hg : g = w.number := hbooks.once g w.number j q s hq h.session_eq
    subst hg
    rw [Function.update_self, Option.some.injEq] at hweb'
    rw [if_pos ⟨rfl, rfl⟩] at hdownloaded
    have hall : s'.HasAll web' ↔ ∀ f ∈ web.files.keys, f ∈ withFile fileId s.downloadedFiles := by
      rw [WebShareSession.HasAll, ← hweb', hdownloaded]
      rfl
    have hbefore : w.doneCount j = 0 := by
      rw [haccounts.done w.number web j s (held_number h.share) h.session, if_neg hagain]
    rw [h.doneCount_self hbooks hmem hbefore]
    exact if_congr hall.symm rfl rfl
  · rw [h.doneCount_of_ne hj]
    rw [if_neg fun hself => hj hself.2] at hdownloaded
    by_cases hg : g = w.number
    · subst hg
      rw [Function.update_self, Option.some.injEq] at hweb'
      rw [session_number h.share] at hq
      rw [haccounts.done w.number web j q (held_number h.share) hq]
      exact if_congr (hasAll_congr (hweb' ▸ rfl) hdownloaded).symm rfl rfl
    · rw [Function.update_of_ne hg] at hweb'
      exact haccounts.done g web' j s' hweb' hs'

/-- A file is recorded that has been sent in full, for a session that does not have every file
    yet. -/
theorem Records.accounts (h : w.Records w' web id s fileId) (haccounts : w.Accounts)
    (hbooks : w.Books count) (hagain : ¬s.HasAll web) (hmem : (id, fileId) ∈ w.finishing)
    (hsent : w.SentInFull id fileId) : w'.Accounts where
  recorded g j s' f hs' hf := h.sentInFull haccounts hsent hs' hf
  pending j f hmem' := by
    cases haccounts.pending j f (h.finishing hmem') with
    | inl hsent => exact .inl (hsent.of_downloads h.downloads)
    | inr hgone =>
      -- a session that is gone is not brought back
      refine .inr fun web' hweb' => Option.eq_none_iff_forall_ne_some.mpr fun s' hs' => ?_
      cases h.share'.symm.trans hweb'
      obtain ⟨q, hq, _⟩ := get?_setDownloaded hs'
      rw [hgone web h.share] at hq
      cases hq
  progress j f sent total hmem' := by
    rw [h.events] at hmem'
    split at hmem'
    · rw [List.mem_append, List.mem_singleton] at hmem'
      exact haccounts.progress j f sent total (hmem'.resolve_right (by simp))
    · exact haccounts.progress j f sent total hmem'
  once j := by
    by_cases hj : j = id
    · have hbefore : w.doneCount id = 0 := by
        rw [haccounts.done w.number web id s (held_number h.share) h.session, if_neg hagain]
      rw [hj, h.doneCount_self hbooks hmem hbefore]
      split <;> omega
    · rw [h.doneCount_of_ne hj]
      exact haccounts.once j
  done g web' j s' hweb' hs' := h.done haccounts hbooks hagain hmem hweb' hs'

end Records

/-- Recording a file keeps the accounts: the session is done with its last file, and only then. -/
theorem Accounts.markDownloaded {w : WebWorld} {count : WebTaskId → Nat} {id : SessionId}
    {fileId : FileId} (h : w.Accounts) (hbooks : w.Books count) (hmem : (id, fileId) ∈ w.finishing)
    (hagain : ∀ web s, w.host.share = some web → web.sessions.get? id = some s → ¬s.HasAll web) :
    ({ w with finishing := w.finishing.erase (id, fileId) }.markDownloaded id fileId).Accounts := by
  let w₁ : WebWorld := { w with finishing := w.finishing.erase (id, fileId) }
  cases markDownloaded_cases w₁ id fileId with
  | inl hgone =>
    rw [hgone.1]
    exact { h with pending := fun j f hf => h.pending j f (List.mem_of_mem_erase hf) }
  | inr hfound =>
    obtain ⟨web, s, hs, hget, heq⟩ := hfound
    have hs₀ : w.host.share = some web := hs
    -- the session is there, so the file was sent
    have hsent : w.SentInFull id fileId := by
      refine (h.pending id fileId hmem).resolve_right fun hgone => ?_
      rw [hgone web hs₀] at hget
      cases hget
    have hrecords : w.Records (w₁.markDownloaded id fileId) web id s fileId := by
      rw [heq]
      split
      · rename_i hall
        exact ⟨hs₀, hget, rfl, List.erase_subset, rfl, rfl, by rw [if_pos hall]; rfl⟩
      · rename_i hall
        exact ⟨hs₀, hget, rfl, List.erase_subset, rfl, rfl, by rw [if_neg hall]; rfl⟩
    exact hrecords.accounts h hbooks (hagain web s hs₀ hget) hmem hsent

/-! ## Runs -/

/-- A step that is in order keeps the accounts. -/
theorem Accounts.step {w w' : WebWorld} {a : WebAction} {count : WebTaskId → Nat} (h : w.Accounts)
    (hbooks : w.Books count) (hstep : w.step a = some w') (horder : w.InOrder a w') :
    w'.Accounts := by
  obtain hquiet | hmoves | hbegun | hmarked := step_cases hbooks hstep
  · exact hquiet.1.accounts hbooks h
  · obtain ⟨u, t, b, ha, ht, hdownload⟩ := hmoves
    subst ha
    exact h.downloadStep hbooks ht hdownload horder
  · obtain ⟨u, t', peer, id, f, _, hmoves, _, _, hfinishing, hevents⟩ := hbegun
    exact hmoves.accounts h (.inl hfinishing) fun id f sent total hmem => .inl (hevents ▸ hmem)
  · obtain ⟨id, f, ha, hmem, hw'⟩ := hmarked
    subst ha hw'
    exact h.markDownloaded hbooks hmem fun web s hs hget => horder.again id f web s rfl hs hget

/-- In a run whose steps are all in order a file is recorded for a session only after a stream
    of it has yielded all bytes, no progress is over its length, and a session is reported as
    done once, when the last file of its share is recorded. -/
theorem downloads_accounted {device : DeviceInfo} {as : List WebAction} {w : WebWorld}
    (hrun : webShareSystem.exec (start device) as = some w)
    (horder : webShareSystem.Always InOrder (start device) as) :
    w.Accounted fun u => yielded u as := by
  have hboth : (∃ count, w.Books count) ∧ w.Accounts := by
    refine webShareSystem.exec_of_always (fun w => (∃ count, w.Books count) ∧ w.Accounts) ?_
      ⟨⟨_, books_start device⟩, accounts_start device⟩ hrun horder
    intro w a w' h hstep horder
    obtain ⟨hbooks, haccounts⟩ := h
    obtain ⟨count, hbooks⟩ := hbooks
    exact ⟨⟨_, hbooks.step hstep⟩, haccounts.step hbooks hstep horder⟩
  exact hboth.2.accounted (books_of_run hrun)

/-- The test of `InOrder` that a concrete run is put to. -/
def inOrderTest (w : WebWorld) : WebAction → Bool
  | .download u (.poll none) =>
    (w.downloads u).all fun t =>
      match t.phase with
      | .streaming _ sent total false => total ≤ sent
      | _ => true
  | .download u (.poll (some (some bytes))) =>
    (w.downloads u).all fun t =>
      match t.phase with
      | .streaming _ sent total _ => sent + bytes.length ≤ total
      | _ => true
  | .markDownloaded id _ =>
    w.host.share.all fun web => (web.sessions.get? id).all fun s => !Decidable.decide (s.HasAll web)
  | _ => true

/-- The test for an orderly step tells the truth. -/
theorem inOrder_of_test {w w' : WebWorld} {a : WebAction} (h : w.inOrderTest a = true) :
    w.InOrder a w' where
  short u t rest sent total ha ht hphase := by
    subst ha
    simp only [inOrderTest, ht, Option.all_some, hphase, decide_eq_true_eq] at h
    exact .inl h
  long u bytes t rest sent total finished ha ht hphase := by
    subst ha
    simpa only [inOrderTest, ht, Option.all_some, hphase, decide_eq_true_eq] using h
  again id f web s ha hs hget := by
    subst ha
    simpa only [inOrderTest, hs, hget, Option.all_some, Bool.not_eq_true', decide_eq_false_iff_not]
      using h

end WebWorld

namespace Scenario

/-- A browser is let in to a share of the files and begins to fetch each of `fetched`. -/
def fetch (files fetched : List String) : List WebAction :=
  [.startWebShare (files.map shared) none true, .prepare 0 (.begin_ (.v4 1) none none ⟨"s"⟩)] ++
    fetched.zipIdx.map fun (name, u) => .download u (.begin_ (.v4 1) ⟨"s"⟩ ⟨name⟩)

/-- The stream of the download yields its byte, and the file is recorded. -/
def finish (u : WebTaskId) (name : String) : List WebAction :=
  [.download u (.poll (some (some [0]))), .markDownloaded ⟨"s"⟩ ⟨name⟩]

end Scenario

namespace WebWorld

/-- Two files are fetched at once, one of them a second time before the other is through. -/
theorem downloads_accounted_twice : ∃ w,
    webShareSystem.exec (start Scenario.device) (Scenario.fetch ["a", "b"] ["a", "b", "a"] ++
      Scenario.finish 0 "a" ++ Scenario.finish 2 "a" ++ Scenario.finish 1 "b") = some w ∧
    w.Accounted fun u => yielded u (Scenario.fetch ["a", "b"] ["a", "b", "a"] ++
      Scenario.finish 0 "a" ++ Scenario.finish 2 "a" ++ Scenario.finish 1 "b") := by
  obtain ⟨w, hrun⟩ := Option.isSome_iff_exists.mp (show (webShareSystem.exec (start Scenario.device)
    (Scenario.fetch ["a", "b"] ["a", "b", "a"] ++ Scenario.finish 0 "a" ++ Scenario.finish 2 "a" ++
      Scenario.finish 1 "b")).isSome = true by decide)
  refine ⟨w, hrun, downloads_accounted hrun ?_⟩
  exact webShareSystem.always_of_allPass inOrderTest (fun w a w' h => inOrder_of_test h) (by decide)

/-- The only file of a share is fetched once more: the session is reported as done again. -/
theorem repeated_download_reports_again :
    ¬∀ (device : DeviceInfo) (as : List WebAction) (w : WebWorld),
      webShareSystem.exec (start device) as = some w → w.Accounted fun u => yielded u as := by
  intro h
  obtain ⟨w, hrun, htwice⟩ := (Option.any_eq_true ..).mp
    (show (webShareSystem.exec (start Scenario.device) (Scenario.fetch ["a"] ["a", "a"] ++
      Scenario.finish 0 "a" ++ Scenario.finish 1 "a")).any (fun w => w.doneCount ⟨"s"⟩ = 2) = true by
      decide)
  have honce := (h Scenario.device _ w hrun).once ⟨"s"⟩
  have hcount : w.doneCount ⟨"s"⟩ = 2 := of_decide_eq_true htwice
  omega

end WebWorld

end LocalSend
