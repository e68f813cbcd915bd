import LocalSend.Spec.WebBooks

/-!
# The streams of a download

A download begins, its body is polled, and the task that `finish_file` spawns records the file.
Each of these keeps the books, and nothing else touches them.

## Key results

- `StreamMoves.books`: a stream that is opened or polled
- `Books.markDownloaded`: the task that records a file
- `step_cases`: what a step of the Web Share half is for the streams
- `books_of_run`: the books of every run
-/

namespace LocalSend

/-- What a phase keeps as its download goes on: the length of an open body, and how far it is. -/
def DownloadPhase.GoesOn (p p' : DownloadPhase) : Prop :=
  ∀ rest sent total finished, p = .streaming rest sent total finished →
    ∃ rest' sent' finished', p' = .streaming rest' sent' total finished' ∧ sent ≤ sent' ∧
      (finished = true → finished' = true)

/-- The share with the files `downloaded` recorded for a session. -/
def WebShareState.setDownloaded (web : WebShareState) (id : SessionId) (downloaded : List FileId) :
    WebShareState :=
  { web with sessions := web.sessions.modify id fun s => { s with downloadedFiles := downloaded } }

namespace WebWorld

/-! ## Streams -/

/-- A download begins or goes on, and its record is `t'` now. The shares are left alone, the
    task of its file is spawned when the stream gets through, and the only event is its
    progress. -/
structure StreamMoves (w w' : WebWorld) (u : WebTaskId) (t' : Download) : Prop where
  share : w'.host.share = w.host.share
  held : w'.held = w.held
  issued : w'.issued = w.issued
  downloads : w'.downloads = Function.update w.downloads u (some t')
  source : (∃ t, w.downloads u = some t ∧ t'.sessionId = t.sessionId ∧ t'.fileId = t.fileId ∧
      t.phase.GoesOn t'.phase) ∨
    (w.downloads u = none ∧ t'.sessionId ∈ w.issued ∧
      ∀ web, w.host.share = some web → t'.fileId ∈ web.files.keys)
  unfinished : ∀ rest sent total, t'.phase = .streaming rest sent total false → 0 < total → sent < total
  finishing : w'.finishing = w.finishing ∨ w'.finishing = w.finishing ++ [(t'.sessionId, t'.fileId)]
  through : ∀ rest sent total, t'.phase = .streaming rest sent total true →
    w'.finishing = w.finishing ++ [(t'.sessionId, t'.fileId)] ∨
      ∃ t rest₀ sent₀, w.downloads u = some t ∧ t.phase = .streaming rest₀ sent₀ total true
  events : w'.events = w.events ∨ ∃ sent total,
    w'.events = w.events ++ [.webShareDownloadProgress t'.sessionId t'.fileId sent total]

namespace StreamMoves

variable {w w' : WebWorld} {u : WebTaskId} {t' : Download}

/-- The stream that has moved is the one after its step. -/
theorem get_self (h : w.StreamMoves w' u t') : w'.downloads u = some t' := by
  rw [h.downloads, Function.update_self]

/-- The other streams are what they were. -/
theorem get_of_ne (h : w.StreamMoves w' u t') {v : WebTaskId} (hv : v ≠ u) :
    w'.downloads v = w.downloads v := by rw [h.downloads, Function.update_of_ne hv]

/-- What was to be recorded still is. -/
theorem mem_finishing (h : w.StreamMoves w' u t') {p : SessionId × FileId} (hp : p ∈ w.finishing) :
    p ∈ w'.finishing := by
  cases h.finishing with
  | inl hsame => exact hsame ▸ hp
  | inr hmore => exact hmore ▸ List.mem_append_left _ hp

/-- No download is forgotten. -/
theorem kept (h : w.StreamMoves w' u t') {v : WebTaskId} {t : Download}
    (ht : w.downloads v = some t) :
    ∃ q, w'.downloads v = some q ∧ q.sessionId = t.sessionId ∧ q.fileId = t.fileId ∧
      t.phase.GoesOn q.phase := by
  by_cases hv : v = u
  · subst hv
    obtain hold | hnew := h.source
    · obtain ⟨t₀, ht₀, hid, hfile, hgoes⟩ := hold
      cases ht₀.symm.trans ht
      exact ⟨t', h.get_self, hid, hfile, hgoes⟩
    · rw [hnew.1] at ht
      cases ht
  · exact ⟨t, (h.get_of_ne hv).trans ht, rfl, rfl,
      fun rest sent total finished hphase => ⟨rest, sent, finished, hphase, le_rfl, id⟩⟩

/-- No session is opened or closed by a stream. -/
theorem session_eq (h : w.StreamMoves w' u t') (g : Nat) (id : SessionId) :
    w'.session g id = w.session g id := by rw [session, session, h.held]

/-- No session is reported done by a stream. -/
theorem done_iff (h : w.StreamMoves w' u t') (id : SessionId) :
    w'.events.count (.webShareSessionDone id) = w.events.count (.webShareSessionDone id) := by
  cases h.events with
  | inl hsame => rw [hsame]
  | inr hmore =>
    obtain ⟨sent, total, hmore⟩ := hmore
    have hnone : ([.webShareDownloadProgress t'.sessionId t'.fileId sent total] :
        List WebShareEvent).count (.webShareSessionDone id) = 0 := by simp
    rw [hmore, List.count_append, hnone, Nat.add_zero]

/-- A download that is new or goes on is of a session that has been there, and of a file of the
    share that knows the session. -/
theorem known {count : WebTaskId → Nat} (h : w.StreamMoves w' u t') (hbooks : w.Books count) :
    t'.sessionId ∈ w.issued ∧ ∀ web s, w.host.share = some web →
      web.sessions.get? t'.sessionId = some s → t'.fileId ∈ web.files.keys := by
  cases h.source with
  | inl hold =>
    obtain ⟨t, ht, hid, hfile, _⟩ := hold
    rw [hid, hfile]
    exact ⟨hbooks.downloads u t ht, fun web s hs hsession => hbooks.offered u t web s ht hs hsession⟩
  | inr hnew => exact ⟨hnew.2.1, fun web _ hs _ => hnew.2.2 web hs⟩

/-- The books stay right if the stream that has moved counts what it has sent, and every other one
    what it counted. -/
theorem books {count count' : WebTaskId → Nat} (h : w.StreamMoves w' u t') (hbooks : w.Books count)
    (hself : t'.phase.bytesSent = min (count' u) (2 ^ 64 - 1))
    (hother : ∀ v, v ≠ u → count' v = count v) : w'.Books count' where
  -- the stream that has moved counts as its new phase says, every other one as before
  counted v t ht := by
    by_cases hv : v = u
    · subst hv
      cases h.get_self.symm.trans ht
      exact hself
    · rw [hother v hv]
      exact hbooks.counted v t (h.get_of_ne hv ▸ ht)
  unopened v ht := by
    by_cases hv : v = u
    · subst hv
      cases h.get_self.symm.trans ht
    · rw [hother v hv]
      exact hbooks.unopened v (h.get_of_ne hv ▸ ht)
  unfinished v t rest sent total ht hphase := by
    by_cases hv : v = u
    · subst hv
      cases h.get_self.symm.trans ht
      exact h.unfinished rest sent total hphase
    · exact hbooks.unfinished v t rest sent total (h.get_of_ne hv ▸ ht) hphase
  sessions g id s hs := by
    -- sessions and shares are where they were
    rw [h.session_eq] at hs
    rw [h.issued]
    exact hbooks.sessions g id s hs
  once g g' id s s' hs hs' := by
    rw [h.session_eq] at hs hs'
    exact hbooks.once g g' id s s' hs hs'
  nonempty := by
    rw [h.held]
    exact hbooks.nonempty
  recorded := by
    rw [h.held]
    exact hbooks.recorded
  downloads v t ht := by
    rw [h.issued]
    by_cases hv : v = u
    · subst hv
      cases h.get_self.symm.trans ht
      exact (h.known hbooks).1
    · exact hbooks.downloads v t (h.get_of_ne hv ▸ ht)
  offered v t web s ht hs hsession := by
    rw [h.share] at hs
    by_cases hv : v = u
    · subst hv
      cases h.get_self.symm.trans ht
      exact (h.known hbooks).2 web s hs hsession
    · exact hbooks.offered v t web s (h.get_of_ne hv ▸ ht) hs hsession
  -- a finished stream hands its file to one task
  finishing id f hmem := by
    -- the pair is an old one, or the one that the end of this stream has added
    have hcases : (id, f) ∈ w.finishing ∨ (id, f) = (t'.sessionId, t'.fileId) := by
      cases h.finishing with
      | inl hsame => exact .inl (hsame ▸ hmem)
      | inr hmore => exact (List.mem_append.mp (hmore ▸ hmem)).imp_right List.mem_singleton.mp
    cases hcases with
    | inl hold =>
      obtain ⟨v, t, ht, hid, hfile⟩ := hbooks.finishing id f hold
      obtain ⟨q, hq, hqid, hqfile, _⟩ := h.kept ht
      exact ⟨v, q, hq, hqid.trans hid, hqfile.trans hfile⟩
    | inr hnew =>
      rw [Prod.mk.injEq] at hnew
      exact ⟨u, t', h.get_self, hnew.1.symm, hnew.2.symm⟩
  tracked v t rest sent total web s ht hphase hs hsession := by
    rw [h.share] at hs
    by_cases hv : v = u
    · subst hv
      cases h.get_self.symm.trans ht
      -- through just now, or through before
      cases h.through rest sent total hphase with
      | inl hspawned => exact .inl (hspawned ▸ List.mem_append_right _ (List.mem_singleton_self _))
      | inr hbefore =>
        obtain ⟨q, rest₀, sent₀, hq, hqphase⟩ := hbefore
        obtain ⟨q', hq', hid, hfile, _⟩ := h.kept hq
        cases h.get_self.symm.trans hq'
        rw [hid] at hsession ⊢
        rw [hfile]
        exact (hbooks.tracked v q rest₀ sent₀ total web s hq hqphase hs hsession).imp_left
          h.mem_finishing
    · exact (hbooks.tracked v t rest sent total web s (h.get_of_ne hv ▸ ht) hphase hs
        hsession).imp_left h.mem_finishing
  done id hmem := by
    rw [h.issued]
    rw [← List.count_pos_iff, h.done_iff, List.count_pos_iff] at hmem
    exact hbooks.done id hmem

end StreamMoves

/-! ## One lemma for each section of a download -/

/-- A download that goes on without its body being polled. -/
theorem streamMoves_setDownload {w : WebWorld} {u : WebTaskId} {t t' : Download}
    {count : WebTaskId → Nat} (h : w.Books count) (ht : w.downloads u = some t)
    (hid : t'.sessionId = t.sessionId) (hfile : t'.fileId = t.fileId)
    (hphase : t'.phase = t.phase ∨ ∀ rest sent total finished,
      t.phase ≠ .streaming rest sent total finished)
    (hstream : t'.phase = t.phase ∨ ∀ rest sent total finished,
      t'.phase = .streaming rest sent total finished → sent = 0 ∧ finished = false) :
    w.StreamMoves (w.setDownload u t') u t' where
  share := rfl
  held := rfl
  issued := rfl
  downloads := rfl
  source := by
    -- the body is the one of the same session and file as before
    refine .inl ⟨t, ht, hid, hfile, fun rest sent total finished hstreaming => ?_⟩
    cases hphase with
    | inl hsame => exact ⟨rest, sent, finished, hsame.trans hstreaming, le_rfl, id⟩
    | inr hnot => exact absurd hstreaming (hnot rest sent total finished)
  unfinished rest sent total hstreaming hpos := by
    cases hstream with
    | inl hsame => exact h.unfinished u t rest sent total ht (hsame ▸ hstreaming) hpos
    | inr hopen => rw [(hopen rest sent total false hstreaming).1]; exact hpos
  finishing := .inl rfl
  through rest sent total hstreaming := by
    cases hstream with
    | inl hsame => exact .inr ⟨t, rest, sent, ht, hsame ▸ hstreaming⟩
    -- a body that has just been opened is not through
    | inr hopen => exact absurd (hopen rest sent total true hstreaming).2 (by simp)
  events := .inl rfl

/-- What `finish_file` touches. -/
theorem finishFile_eq (w : WebWorld) (t : Download) (finished : Bool) :
    ∃ l, w.finishFile t finished = { w with finishing := l } ∧
      (finished = true → l = w.finishing) ∧
      (finished = false → l = w.finishing ++ [(t.sessionId, t.fileId)]) := by
  cases finished with
  | true => exact ⟨w.finishing, rfl, fun _ => rfl, fun h => absurd h (by simp)⟩
  | false => exact ⟨_, rfl, fun h => absurd h (by simp), fun _ => rfl⟩

section Poll

variable {w : WebWorld} {u : WebTaskId} {t : Download} {rest : Option (List (List UInt8))}
  {sent total : Nat} {finished : Bool}

/-- A stream that streams on has sent at least as much, and does not take back that it is
    finished. -/
theorem goesOn_of_stream {p : DownloadPhase} (hp : p = .streaming rest sent total finished)
    (rest' : Option (List (List UInt8))) {sent' : Nat} {finished' : Bool} (hsent : sent ≤ sent')
    (hfinished : finished = true → finished' = true) :
    p.GoesOn (.streaming rest' sent' total finished') := by
  intro rest₀ sent₀ total₀ finished₀ hp₀
  cases hp.symm.trans hp₀
  exact ⟨rest', sent', finished', rfl, hsent, hfinished⟩

/-- A poll that yields bytes. -/
theorem streamMoves_bytes (ht : w.downloads u = some t)
    (hphase : t.phase = .streaming rest sent total finished) (hsent : sent ≤ 2 ^ 64 - 1)
    (rest' : Option (List (List UInt8))) (bytes : List UInt8) :
    w.StreamMoves (w.pollNext u t rest' sent total finished (some (some bytes))) u
      { t with
        phase := .streaming rest' (min (sent + bytes.length) (2 ^ 64 - 1)) total
          (finished || Decidable.decide (total ≤ min (sent + bytes.length) (2 ^ 64 - 1))) } := by
  -- the counter saturates
  have hmore : sent ≤ min (sent + bytes.length) (2 ^ 64 - 1) := by omega
  generalize hn : min (sent + bytes.length) (2 ^ 64 - 1) = n at hmore
  let w₁ := w.emit (.webShareDownloadProgress t.sessionId t.fileId n total)
  obtain ⟨l, hfinish, hkept, hspawned⟩ := finishFile_eq w₁ t finished
  -- the flag is set and the task spawned by the same comparison
  have hl : w.pollNext u t rest' sent total finished (some (some bytes)) =
      { w with
        events := w₁.events
        finishing := if total ≤ n then l else w.finishing
        downloads := Function.update w.downloads u (some { t with
          phase := .streaming rest' n total (finished || Decidable.decide (total ≤ n)) }) } := by
    unfold WebWorld.pollNext
    dsimp only
    rw [hn]
    by_cases hdone : total ≤ n
    · rw [if_pos hdone, if_pos hdone, hfinish]
      rfl
    · rw [if_neg hdone, if_neg hdone]
      rfl
  rw [hl]
  have hfinishing : l = w.finishing ∨ l = w.finishing ++ [(t.sessionId, t.fileId)] := by
    cases hf : finished with
    | true => exact .inl (hkept hf)
    | false => exact .inr (hspawned hf)
  exact {
    share := rfl
    held := rfl
    issued := rfl
    downloads := rfl
    -- the counter grows, and a stream that was through stays through
    source := .inl ⟨t, ht, rfl, rfl, goesOn_of_stream hphase rest' hmore fun h => by simp [h]⟩
    unfinished := by
      intro rest₀ sent₀ total₀ hstream _
      simp only [DownloadPhase.streaming.injEq, Bool.or_eq_false_iff,
        decide_eq_false_iff_not] at hstream
      omega
    finishing := by
      dsimp only
      split
      · exact hfinishing
      · exact .inl rfl
    through := by
      intro rest₀ sent₀ total₀ hstream
      simp only [DownloadPhase.streaming.injEq, Bool.or_eq_true, decide_eq_true_eq] at hstream
      obtain ⟨_, _, htotal, hthrough⟩ := hstream
      subst htotal
      cases hf : finished with
      | true => exact .inr ⟨t, rest, sent, ht, hf ▸ hphase⟩
      | false =>
        -- these bytes are the last ones, so the task has been spawned for them
        have hdone := hthrough.resolve_left (by simp [hf])
        refine .inl ?_
        dsimp only
        rw [if_pos hdone, hspawned hf]
        rfl
    events := .inr ⟨n, total, rfl⟩ }

/-- A poll that finds the end. -/
theorem streamMoves_end (ht : w.downloads u = some t)
    (hphase : t.phase = .streaming rest sent total finished) (rest' : Option (List (List UInt8))) :
    w.StreamMoves (w.pollNext u t rest' sent total finished none) u
      { t with phase := .streaming rest' sent total true } := by
  -- the end counts as much as the last byte does, whatever has been sent
  obtain ⟨l, hfinish, hkept, hspawned⟩ := finishFile_eq w t finished
  have hl : w.pollNext u t rest' sent total finished none =
      { w with
        finishing := l
        downloads := Function.update w.downloads u (some { t with
          phase := .streaming rest' sent total true }) } := by
    unfold WebWorld.pollNext
    rw [hfinish]
    rfl
  rw [hl]
  exact {
    share := rfl
    held := rfl
    issued := rfl
    downloads := rfl
    source := .inl ⟨t, ht, rfl, rfl, goesOn_of_stream hphase rest' le_rfl fun _ => rfl⟩
    unfinished := fun rest₀ sent₀ total₀ hstream => by cases hstream
    finishing := by
      cases hf : finished with
      | true => exact .inl (hkept hf)
      -- a stream that had come to its length spawns no second task at its end
      | false => exact .inr (hspawned hf)
    through := by
      intro rest₀ sent₀ total₀ hstream
      cases hstream
      cases hf : finished with
      | true => exact .inr ⟨t, rest, sent, ht, hf ▸ hphase⟩
      | false => exact .inl (hspawned hf)
    events := .inl rfl }

end Poll

/-- A poll that is answered is of an open body. -/
theorem poll_cases {w w' : WebWorld} {u : WebTaskId} {t : Download}
    {item : Option (Option (List UInt8))} (hstep : w.downloadStep u t (.poll item) = some w') :
    ∃ rest rest' sent total finished, t.phase = .streaming rest sent total finished ∧
      w' = w.pollNext u t rest' sent total finished item := by
  simp only [downloadStep] at hstep
  split at hstep
  · rename_i sent total finished hphase
    exact ⟨none, none, sent, total, finished, hphase, (Option.some.inj hstep).symm⟩
  · rename_i rest sent total finished hphase
    simp only [Option.ite_none_right_eq_some, Option.some.injEq] at hstep
    exact ⟨some rest, some rest.tail, sent, total, finished, hphase, hstep.2.symm⟩
  · cases hstep

/-- A step of a download other than a poll writes its record only, and opens the body at most. -/
theorem downloadStep_cases {w w' : WebWorld} {u : WebTaskId} {t : Download} {a : DownloadAction}
    {count : WebTaskId → Nat} (h : w.Books count) (ht : w.downloads u = some t)
    (ha : ∀ item, a ≠ .poll item) (hstep : w.downloadStep u t a = some w') :
    ∃ t', w.StreamMoves w' u t' ∧ t'.phase.bytesSent = t.phase.bytesSent ∧
      w'.finishing = w.finishing ∧ w'.events = w.events := by
  cases a with
  | begin_ peer sessionId fileId => cases hstep
  | opened ok =>
    simp only [downloadStep, Option.ite_none_right_eq_some, Option.some.injEq] at hstep
    obtain ⟨hphase, hstep⟩ := hstep
    subst hstep
    refine ⟨_, streamMoves_setDownload h ht rfl rfl (.inr (by simp [hphase])) (.inr ?_), ?_, rfl, rfl⟩
    · cases ok <;> simp
    · cases ok <;> simp [hphase, DownloadPhase.bytesSent]
  | measured length =>
    simp only [downloadStep, Option.ite_none_right_eq_some] at hstep
    obtain ⟨hphase, hstep⟩ := hstep
    cases length with
    | some length =>
      cases hstep
      -- the body starts at nothing, with the length that was read
      have hmoves : w.StreamMoves
          (w.setDownload u { t with phase := .streaming none 0 length false }) u
          { t with phase := .streaming none 0 length false } := by
        refine streamMoves_setDownload h ht rfl rfl (.inr (by simp [hphase])) (.inr ?_)
        intro rest sent total finished hstream
        cases hstream
        exact ⟨rfl, rfl⟩
      exact ⟨_, { hmoves with }, by rw [hphase]; rfl, rfl, rfl⟩
    | none =>
      cases hstep
      exact ⟨_, streamMoves_setDownload h ht rfl rfl (.inr (by simp [hphase])) (.inr (by simp)),
        by rw [hphase]; rfl, rfl, rfl⟩
  | poll item => exact absurd rfl (ha item)
  | drop =>
    simp only [downloadStep] at hstep
    split at hstep
    · cases hstep
    · cases hstep
      exact ⟨_, streamMoves_setDownload h ht rfl rfl (.inl rfl) (.inl rfl), rfl, rfl, rfl⟩

/-- Only polls yield. -/
theorem yielded_of_not_poll {u v : WebTaskId} {a : DownloadAction} (ha : ∀ item, a ≠ .poll item) :
    yielded v [.download u a] = 0 := by
  cases a with
  | poll item => exact absurd rfl (ha item)
  | _ => rfl

/-- A stream yields nothing in a step of another. -/
theorem yielded_of_ne {u v : WebTaskId} (hv : v ≠ u) (a : DownloadAction) :
    yielded v [.download u a] = 0 := by
  cases a with
  | poll item =>
    cases item with
    | none => rfl
    | some item =>
      cases item with
      | none => rfl
      | some bytes => simp [yielded, Ne.symm hv]
  | _ => rfl

/-- Every step of a stream keeps the books, with what it has yielded counted for it alone. -/
theorem Books.downloadStep {w w' : WebWorld} {u : WebTaskId} {t : Download} {a : DownloadAction}
    {count : WebTaskId → Nat} (h : w.Books count) (ht : w.downloads u = some t)
    (hstep : w.downloadStep u t a = some w') :
    w'.Books fun v => count v + yielded v [.download u a] := by
  -- the counters of other downloads are not concerned
  have hother : ∀ v, v ≠ u → count v + yielded v [.download u a] = count v := by
    intro v hv
    rw [yielded_of_ne hv, Nat.add_zero]
  -- only a poll yields bytes
  by_cases ha : ∀ item, a ≠ .poll item
  · obtain ⟨t', hmoves, hbytes, _, _⟩ := downloadStep_cases h ht ha hstep
    refine hmoves.books h ?_ hother
    rw [hbytes, h.counted u t ht, yielded_of_not_poll ha, Nat.add_zero]
  · simp only [not_forall, not_not] at ha
    obtain ⟨item, ha⟩ := ha
    subst ha
    obtain ⟨rest, rest', sent, total, finished, hphase, hw'⟩ := poll_cases hstep
    have hcounted := h.counted u t ht
    rw [hphase] at hcounted
    subst hw'
    -- what the poll yields
    cases item with
    | none => exact (streamMoves_end ht hphase rest').books h hcounted hother
    | some item =>
      cases item with
      | none => exact h
      | some bytes =>
        have hsent : sent = min (count u) (2 ^ 64 - 1) := hcounted
        refine (streamMoves_bytes ht hphase (by omega) rest' bytes).books h ?_ hother
        simp only [DownloadPhase.bytesSent, yielded, if_true]
        omega

/-- A download is refused, or begins with the file that its share has under the id. -/
theorem download_cases (w : WebWorld) {u : WebTaskId} (hnone : w.downloads u = none) {peer : IpAddr}
    {sessionId : SessionId} {fileId : FileId} {count : WebTaskId → Nat} (h : w.Books count) :
    (w.download u peer sessionId fileId).2 = w ∨
      ∃ t', w.StreamMoves (w.download u peer sessionId fileId).2 u t' ∧ t'.phase.bytesSent = 0 ∧
        (w.download u peer sessionId fileId).2.finishing = w.finishing ∧
        (w.download u peer sessionId fileId).2.events = w.events := by
  -- no share is running
  unfold WebWorld.download
  cases hs : w.host.share with
  | none => exact .inl rfl
  | some web =>
    dsimp only
    split
    -- the session is not one of the share, or has not been accepted
    · exact .inl rfl
    · rename_i hsession
      rw [Bool.not_eq_true', Bool.not_eq_false, Option.any_eq_true] at hsession
      obtain ⟨s, hget, _⟩ := hsession
      -- a session that a share holds has been issued
      have hissued : sessionId ∈ w.issued :=
        h.sessions w.number sessionId s (by rw [session_number hs, hget])
      split
      -- the share has no such file
      · exact .inl rfl
      · rename_i file hfile
        have hoffered : ∀ web', some web = some web' → fileId ∈ web'.files.keys := by
          intro web' hweb'
          cases hweb'
          exact AssocMap.mem_keys_iff.mpr ⟨file, hfile⟩
        -- inline or from a path, the record that is written is fresh
        have hnew : ∀ t' : Download, t'.sessionId = sessionId → t'.fileId = fileId →
            (t'.phase = .opening ∨ ∃ rest total, t'.phase = .streaming rest 0 total false) →
            w.StreamMoves (w.setDownload u t') u t' := by
          intro t' hid hfileId hphase
          have hbegins : ∀ rest sent total finished,
              t'.phase = .streaming rest sent total finished →
              sent = 0 ∧ finished = false := by
            intro rest sent total finished hstream
            cases hphase with
            | inl hopening => rw [hopening] at hstream; cases hstream
            | inr hopen =>
              obtain ⟨rest₀, total₀, hopen⟩ := hopen
              rw [hopen] at hstream
              cases hstream
              exact ⟨rfl, rfl⟩
          exact {
            share := rfl
            held := rfl
            issued := rfl
            downloads := rfl
            source := .inr ⟨hnone, hid ▸ hissued, hfileId ▸ hs ▸ hoffered⟩
            unfinished := fun rest sent total hstream hpos => (hbegins _ _ _ _ hstream).1 ▸ hpos
            finishing := .inl rfl
            through := fun rest sent total hstream => absurd (hbegins _ _ _ _ hstream).2 (by simp)
            events := .inl rfl }
        -- an inline text streams at once, a path is opened first
        refine .inr ?_
        split
        · exact ⟨_, { hnew _ rfl rfl (.inr ⟨_, _, rfl⟩) with }, rfl, rfl, rfl⟩
        · exact ⟨_, hnew _ rfl rfl (.inl rfl), rfl, rfl, rfl⟩

/-! ## The task that records a file -/

/-- `HashSet::insert`. -/
def withFile (fileId : FileId) (files : List FileId) : List FileId :=
  if fileId ∈ files then files else fileId :: files

/-- The files that are downloaded after one more. -/
theorem mem_withFile {fileId f : FileId} {files : List FileId} :
    f ∈ withFile fileId files ↔ f = fileId ∨ f ∈ files := by
  unfold withFile
  split
  · rename_i hmem
    constructor
    · exact fun h => .inr h
    · intro h
      cases h with
      | inl heq => exact heq ▸ hmem
      | inr h => exact h
  · exact List.mem_cons

/-- None of them is listed twice. -/
theorem nodup_withFile {fileId : FileId} {files : List FileId} (h : files.Nodup) :
    (withFile fileId files).Nodup := by
  unfold withFile
  split
  · exact h
  · rename_i hmem
    exact List.nodup_cons.mpr ⟨hmem, h⟩

/-- Where a session comes from that is there after its downloaded files were written. -/
theorem get?_setDownloaded {web : WebShareState} {id j : SessionId} {downloaded : List FileId}
    {s' : WebShareSession} (hs' : (web.setDownloaded id downloaded).sessions.get? j = some s') :
    ∃ s, web.sessions.get? j = some s ∧
      s'.downloadedFiles = if j = id then downloaded else s.downloadedFiles := by
  simp only [WebShareState.setDownloaded, AssocMap.get?_modify] at hs'
  split at hs'
  · rename_i hj
    obtain ⟨s, hs, heq⟩ := Option.map_eq_some_iff.mp hs'
    exact ⟨s, hs, by rw [if_pos hj, ← heq]⟩
  · rename_i hj
    exact ⟨s', hs', by rw [if_neg hj]⟩

/-- What the task of `finish_file` does: nothing when the share or the session is gone, and
    otherwise the file is recorded, and the session may be reported as done. -/
theorem markDownloaded_cases (w : WebWorld) (id : SessionId) (fileId : FileId) :
    (w.markDownloaded id fileId = w ∧
      ∀ web, w.host.share = some web → web.sessions.get? id = none) ∨
    ∃ web s, w.host.share = some web ∧ web.sessions.get? id = some s ∧
      w.markDownloaded id fileId =
        if (withFile fileId s.downloadedFiles).length = web.files.size then
          (w.setShare (web.setDownloaded id (withFile fileId s.downloadedFiles))).emit
            (.webShareSessionDone id)
        else w.setShare (web.setDownloaded id (withFile fileId s.downloadedFiles)) := by
  unfold WebWorld.markDownloaded
  -- without a share there is nothing to record in
  cases hs : w.host.share with
  | none => exact .inl ⟨rfl, fun web hweb => by cases hweb⟩
  | some web =>
    dsimp only
    split
    -- the session may have been taken away with its share
    · rename_i hnone
      exact .inl ⟨rfl, fun web' hweb' => by cases hweb'; exact hnone⟩
    · rename_i s hget
      exact .inr ⟨web, s, rfl, hget, rfl⟩

section Record

variable {w : WebWorld} {web : WebShareState} {id : SessionId} {s : WebShareSession}
  {count : WebTaskId → Nat}

/-- The sessions when files have been recorded for one. -/
theorem session_setDownloaded (hs : w.host.share = some web) {downloaded : List FileId} {g : Nat}
    {j : SessionId} {s' : WebShareSession}
    (hs' : (w.setShare (web.setDownloaded id downloaded)).session g j = some s') :
    ∃ q, w.session g j = some q ∧
      s'.downloadedFiles = if g = w.number ∧ j = id then downloaded else q.downloadedFiles := by
  simp only [session, held_setShare, Option.bind_eq_some_iff] at hs'
  obtain ⟨web', hweb', hs'⟩ := hs'
  by_cases hg : g = w.number
  · subst hg
    rw [Function.update_self, Option.some.injEq] at hweb'
    subst hweb'
    obtain ⟨q, hq, hdownloaded⟩ := get?_setDownloaded hs'
    refine ⟨q, by rw [session_number hs, hq], ?_⟩
    simpa using hdownloaded
  · rw [Function.update_of_ne hg] at hweb'
    exact ⟨s', by simp [session, hweb', hs'], by simp [hg]⟩

/-- A task records a file of the share that knows its session. -/
theorem Books.withFile_subset (h : w.Books count) (hs : w.host.share = some web)
    (hget : web.sessions.get? id = some s) {fileId : FileId} (hmem : (id, fileId) ∈ w.finishing) :
    withFile fileId s.downloadedFiles ⊆ web.files.keys := by
  obtain ⟨u, t, ht, hid, hfile⟩ := h.finishing id fileId hmem
  intro f hf
  cases mem_withFile.mp hf with
  | inl heq =>
    rw [heq, ← hfile]
    exact h.offered u t web s ht hs (hid ▸ hget)
  | inr hold => exact (h.recorded w.number web id s (held_number hs) hget).2 hold

/-- Files of the share are recorded that include those recorded before. -/
theorem Books.record (h : w.Books count) (hs : w.host.share = some web)
    (hget : web.sessions.get? id = some s) {downloaded : List FileId} (hnodup : downloaded.Nodup)
    (hfiles : downloaded ⊆ web.files.keys) (hmore : s.downloadedFiles ⊆ downloaded) :
    (w.setShare (web.setDownloaded id downloaded)).Books count where
  counted := h.counted
  unopened := h.unopened
  unfinished := h.unfinished
  sessions g j s' hs' := by
    obtain ⟨q, hq, _⟩ := session_setDownloaded hs hs'
    exact h.sessions g j q hq
  once g g' j s₁ s₂ hs₁ hs₂ := by
    obtain ⟨q₁, hq₁, _⟩ := session_setDownloaded hs hs₁
    obtain ⟨q₂, hq₂, _⟩ := session_setDownloaded hs hs₂
    exact h.once g g' j q₁ q₂ hq₁ hq₂
  nonempty g web' hweb' := by
    rw [held_setShare] at hweb'
    -- only the running share is written
    by_cases hg : g = w.number
    · subst hg
      rw [Function.update_self, Option.some.injEq] at hweb'
      subst hweb'
      exact h.nonempty w.number web (held_number hs)
    · rw [Function.update_of_ne hg] at hweb'
      exact h.nonempty g web' hweb'
  recorded g web' j s' hweb' hs' := by
    rw [held_setShare] at hweb'
    by_cases hg : g = w.number
    · subst hg
      rw [Function.update_self, Option.some.injEq] at hweb'
      subst hweb'
      obtain ⟨q, hq, hdownloaded⟩ := get?_setDownloaded hs'
      rw [hdownloaded]
      split
      · exact ⟨hnodup, hfiles⟩
      · exact h.recorded w.number web j q (held_number hs) hq
    · rw [Function.update_of_ne hg] at hweb'
      exact h.recorded g web' j s' hweb' hs'
  -- what is recorded is about one session of the running share
  downloads := h.downloads
  offered u t web' s' ht hweb' hs' := by
    cases hweb'
    obtain ⟨q, hq, _⟩ := get?_setDownloaded hs'
    exact h.offered u t web q ht hs hq
  finishing := h.finishing
  tracked u t rest sent total web' s' ht hphase hweb' hs' := by
    cases hweb'
    obtain ⟨q, hq, hdownloaded⟩ := get?_setDownloaded hs'
    refine (h.tracked u t rest sent total web q ht hphase hs hq).imp_right fun hmem => ?_
    rw [hdownloaded]
    split
    · rename_i hid
      rw [hid, hget, Option.some.injEq] at hq
      exact hmore (hq ▸ hmem)
    · exact hmem
  done := h.done

/-- A task is through whose file is recorded, if there is still a session to record it for. -/
theorem Books.eraseFinishing (h : w.Books count) {fileId : FileId}
    (hrecorded : ∀ web s, w.host.share = some web → web.sessions.get? id = some s →
      fileId ∈ s.downloadedFiles) :
    ({ w with finishing := w.finishing.erase (id, fileId) } : WebWorld).Books count where
  counted := h.counted
  unopened := h.unopened
  unfinished := h.unfinished
  sessions := h.sessions
  once := h.once
  nonempty := h.nonempty
  recorded := h.recorded
  downloads := h.downloads
  offered := h.offered
  finishing j f hmem := h.finishing j f (List.mem_of_mem_erase hmem)
  -- what the erased task stood for is recorded, any other task is still there
  tracked u t rest sent total web' s' ht hphase hweb' hs' := by
    by_cases hp : (t.sessionId, t.fileId) = (id, fileId)
    · rw [Prod.mk.injEq] at hp
      obtain ⟨hid, hfile⟩ := hp
      rw [hid] at hs'
      exact .inr (hfile ▸ hrecorded web' s' hweb' hs')
    · refine (h.tracked u t rest sent total web' s' ht hphase hweb' hs').imp_left fun hmem => ?_
      exact (List.mem_erase_of_ne hp).mpr hmem
  done := h.done

/-- The report that a session is done keeps the books if the session was issued. -/
theorem Books.emitDone (h : w.Books count) (hid : id ∈ w.issued) :
    (w.emit (.webShareSessionDone id)).Books count :=
  { h with
    done := by
      intro j hmem
      rw [WebWorld.emit, List.mem_append, List.mem_singleton] at hmem
      cases hmem with
      | inl hold => exact h.done j hold
      | inr hnew =>
        cases hnew
        exact hid }

/-- The record of a finished download keeps the books. -/
theorem Books.markDownloaded (h : w.Books count) {fileId : FileId}
    (hmem : (id, fileId) ∈ w.finishing) :
    ({ w with finishing := w.finishing.erase (id, fileId) }.markDownloaded id fileId).Books count := by
  let w₁ : WebWorld := { w with finishing := w.finishing.erase (id, fileId) }
  -- the share that knew the session may be gone
  cases markDownloaded_cases w₁ id fileId with
  | inl hgone =>
    rw [hgone.1]
    refine h.eraseFinishing fun web s hs hget => ?_
    rw [hgone.2 web hs] at hget
    cases hget
  | inr hfound =>
    obtain ⟨web, s, hs, hget, heq⟩ := hfound
    have hs₀ : w.host.share = some web := hs
    obtain ⟨hnodup, _⟩ := h.recorded w.number web id s (held_number hs₀) hget
    have hbooks : (w.setShare (web.setDownloaded id (withFile fileId s.downloadedFiles))).Books count :=
      h.record hs₀ hget (nodup_withFile hnodup) (h.withFile_subset hs₀ hget hmem)
        fun f hf => mem_withFile.mpr (.inr hf)
    -- the task may leave the queue, since its file is recorded now
    have herased : (w₁.setShare (web.setDownloaded id (withFile fileId s.downloadedFiles))).Books
        count := by
      refine hbooks.eraseFinishing fun web' s' hweb' hs' => ?_
      cases hweb'
      obtain ⟨q, _, hdownloaded⟩ := get?_setDownloaded hs'
      rw [hdownloaded, if_pos rfl]
      exact mem_withFile.mpr (.inl rfl)
    -- with the last file the session is announced as done
    rw [heq]
    split
    · exact herased.emitDone (h.sessions w.number id s (by rw [session_number hs₀, hget]))
    · exact herased

end Record

/-! ## Runs -/

/-- Every step but those of the downloads, and of the tasks that record files, is quiet. -/
theorem quiet_step {w w' : WebWorld} {a : WebAction} (hstep : w.step a = some w')
    (hdownload : ∀ u b, a ≠ .download u b) (hmark : ∀ id f, a ≠ .markDownloaded id f) :
    w.Quiet w' := by
  -- the sections by what they touch: requests, share, clock
  cases a with
  | prepare i b =>
    cases ht : w.prepares i with
    | none =>
      cases b with
      | begin_ peer sessionId pin id =>
        simp only [WebWorld.step, ht, Option.ite_none_right_eq_some, Option.some.injEq] at hstep
        exact hstep.2 ▸ quiet_prepareDownload w i peer sessionId pin hstep.1
      | _ => simp [WebWorld.step, ht] at hstep
    | some t =>
      simp only [WebWorld.step, ht, Option.ite_none_left_eq_some] at hstep
      exact quiet_prepareStep hstep.2
  | download u b => exact absurd rfl (hdownload u b)
  | markDownloaded id fileId => exact absurd rfl (hmark id fileId)
  | startWebShare files pin autoAccept =>
    exact Option.some.inj hstep ▸ quiet_startWebShare w files pin autoAccept
  | stopWebShare => exact Option.some.inj hstep ▸ quiet_endShare w
  | respondWebShare id accepted => exact Option.some.inj hstep ▸ quiet_respondWebShare w id accepted
  | tick d =>
    have hquiet : w.Quiet { w with now := w.now + d } :=
      .of_held rfl rfl rfl (fun _ _ => rfl) rfl (.inl rfl)
    exact Option.some.inj hstep ▸ hquiet

/-- What a step of the Web Share half is for the streams. -/
theorem step_cases {w w' : WebWorld} {a : WebAction} {count : WebTaskId → Nat} (h : w.Books count)
    (hstep : w.step a = some w') :
    (w.Quiet w' ∧ ∀ u, yielded u [a] = 0) ∨
      (∃ u t b, a = .download u b ∧ w.downloads u = some t ∧ w.downloadStep u t b = some w') ∨
      (∃ u t' peer id f, a = .download u (.begin_ peer id f) ∧ w.StreamMoves w' u t' ∧
        w.downloads u = none ∧ t'.phase.bytesSent = 0 ∧ w'.finishing = w.finishing ∧
        w'.events = w.events) ∨
      ∃ id f, a = .markDownloaded id f ∧ (id, f) ∈ w.finishing ∧
        w' = { w with finishing := w.finishing.erase (id, f) }.markDownloaded id f := by
  cases a with
  | download u b =>
    -- a download that begins, or one that goes on
    cases ht : w.downloads u with
    | none =>
      cases b with
      | begin_ peer sessionId fileId =>
        simp only [WebWorld.step, ht, Option.some.injEq] at hstep
        subst hstep
        -- a request that is refused changes nothing
        cases download_cases w ht h with
        | inl hrefused => exact .inl ⟨hrefused.symm ▸ .refl w, fun _ => rfl⟩
        | inr hbegun =>
          obtain ⟨t', hmoves, hbytes, hfinishing, hevents⟩ := hbegun
          exact .inr (.inr
            (.inl ⟨u, t', peer, sessionId, fileId, rfl, hmoves, ht, hbytes, hfinishing, hevents⟩))
      | _ => simp [WebWorld.step, ht] at hstep
    | some t =>
      simp only [WebWorld.step, ht, Option.ite_none_left_eq_some] at hstep
      exact .inr (.inl ⟨u, t, b, rfl, ht, hstep.2⟩)
  | markDownloaded id fileId =>
    simp only [WebWorld.step, Option.ite_none_right_eq_some, Option.some.injEq] at hstep
    exact .inr (.inr (.inr ⟨id, fileId, rfl, hstep.1, hstep.2.symm⟩))
  | _ => exact .inl ⟨quiet_step hstep (by simp) (by simp), fun _ => rfl⟩

/-- Every step keeps the books, with what it has yielded counted for its stream. -/
theorem Books.step {w w' : WebWorld} {a : WebAction} {count : WebTaskId → Nat} (h : w.Books count)
    (hstep : w.step a = some w') : w'.Books fun u => count u + yielded u [a] := by
  obtain hquiet | hmoves | hbegun | hmarked := step_cases h hstep
  · simp only [hquiet.2, Nat.add_zero]
    exact hquiet.1.books h
  · obtain ⟨u, t, b, ha, ht, hdownload⟩ := hmoves
    subst ha
    exact h.downloadStep ht hdownload
  · obtain ⟨u, t', peer, id, f, ha, hmoves, ht, hbytes, _, _⟩ := hbegun
    subst ha
    refine hmoves.books h ?_ fun v hv => rfl
    rw [hbytes, h.unopened u ht]
    rfl
  · obtain ⟨id, f, ha, hmem, hw'⟩ := hmarked
    subst ha hw'
    exact h.markDownloaded hmem

/-- The books of every run. -/
theorem books_of_run {device : DeviceInfo} {as : List WebAction} {w : WebWorld}
    (hrun : webShareSystem.exec (start device) as = some w) : w.Books fun u => yielded u as := by
  refine webShareSystem.exec_history (P := fun as w => w.Books fun u => yielded u as)
    (books_start device) (fun as w a w' h hstep => ?_) hrun
  simp only [yielded_append]
  exact h.step hstep

end WebWorld

end LocalSend
