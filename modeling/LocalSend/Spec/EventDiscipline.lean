import LocalSend.Spec.ConsentSafety
import LocalSend.Spec.EventMoves

/-!
# The events of a standard session

A session is announced file by file, and then as done. Which of its uploads gets to the end and
when is open: uploads of one file take turns, a cancel comes in between, the sweep or another
handler takes the session out. But each file has one slot, and a session that was done is never
hosted again.

A session that a message was delivered as is done without anybody having learnt its id, so the
requests that name a session (`NamesDisclosed`) can name no such session.

## Key results

- `Finished.step`: a session that is done stays done
- `eventInv_step`: one step, for each kind of step that sends events
- `event_discipline`: the events of every session in every run
-/

namespace LocalSend

/-- What may come after an event: a file is announced once, and nothing is announced of a session
    that is done. -/
def SessionEvent.Allows : SessionEvent → SessionEvent → Prop
  | .fileReceived x f, e => e ≠ .fileReceived x f
  | .sessionDone x, e => e ≠ .sessionDone x ∧ ∀ f, e ≠ .fileReceived x f

namespace World

/-- Upload and cancel requests name no standard session whose id was not disclosed. -/
def NamesDisclosed (w : World) (a : Action) (w' : World) : Prop :=
  OnlyDisclosed w a w' ∧ ∀ peer x, a = .cancel peer (some x) → x ∈ w.issued → w.Disclosed x

/-- The session events are in order, of accepted files only, and an upload announces its session
    as done only when every accepted file has been announced. -/
structure EventsDisciplined (w : World) (a : Action) (w' : World) : Prop where
  order : w'.sessionEvents.Pairwise SessionEvent.Allows
  accepted : ∀ x f, .fileReceived x f ∈ w'.sessionEvents → w'.ConsentedTo x f
  complete : ∀ u b x, a = .upload u b → .sessionDone x ∈ w'.sessionEvents →
    .sessionDone x ∉ w.sessionEvents →
    ∀ f, w'.ConsentedTo x f → .fileReceived x f ∈ w'.sessionEvents

/-- A session that is neither hosted nor about to be announced as a message, and never will be. -/
structure Finished (w : World) (x : SessionId) : Prop where
  issued : x ∈ w.issued
  unhosted : ∀ s, w.Hosted s → s.id ≠ x
  unsent : ∀ h t text, w.prepares h = some t → t.dropped = false → t.phase = .messaging text →
    t.accepted ≠ some x

variable {sha : List UInt8 → String} {w w' : World} {a : Action}

/-- A session that is done stays done. -/
theorem Finished.step {x : SessionId} (h : w.Finished x) (hinv : w.PrepareInv)
    (hstep : w.step sha a = some w') : w'.Finished x := by
  refine ⟨issued_mono hstep h.issued, fun s' hs' => ?_, fun g t' text ht' live' phase' => ?_⟩
  · -- a session that is newly hosted has a fresh id
    rcases hosted_of_step hinv hstep hs' with ⟨s, hs, hid, _⟩ | ⟨_, hfresh, _⟩
    · rw [hid]
      exact h.unhosted s hs
    · rintro rfl
      exact hfresh h.issued
  · rcases prepares_before hstep ht' with ht | ⟨b, rfl, hmove, _⟩
    · exact h.unsent g t' text ht live' phase'
    · generalize hold : w.prepares g = old at hmove
      cases hmove with
      | @installedMessage t s _ phase =>
        -- a message is delivered for the session that its prepare was installing
        have hwf := hinv.wf g t hold
        simp only [PrepareTask.Wf, phase] at hwf
        show t.accepted ≠ some x
        rw [hwf.2.1]
        intro heq
        exact h.unhosted s (.inr ⟨g, t, hold, phase⟩) (Option.some.inj heq)
      | dropped => simp at live'
      | reserved =>
        unfold PrepareTask.reservedAs at phase'
        split at phase' <;> simp at phase'
      | _ => simp at phase'

/-- What the session events sent so far say of the sessions. -/
structure EventInv (sha256 : List UInt8 → String) (w : World) : Prop where
  lifecycle : w.LifecycleInv sha256
  uploads : w.UploadsConsented
  order : w.sessionEvents.Pairwise SessionEvent.Allows
  received : ∀ x f, .fileReceived x f ∈ w.sessionEvents →
    x ∈ w.issued ∧ (w.lifecycles x).phase? f = some .published ∧ w.ConsentedTo x f
  recorded : ∀ s, w.state.currentSession = some s → ∀ f ∈ s.received,
    f ∈ s.files.keys ∧ .fileReceived s.id f ∈ w.sessionEvents
  done : ∀ x, .sessionDone x ∈ w.sessionEvents → w.Finished x

theorem eventInv_start (c : ServerConfig) : (World.start c).EventInv sha where
  lifecycle := lifecycleInv_start c
  uploads _ _ h := by cases h
  order := .nil
  received _ _ h := by cases h
  recorded _ h := by cases h
  done _ h := by cases h

/-! ## Sessions that are done -/

/-- A disclosed session that leaves the slot is finished. -/
theorem finished_of_cleared (hinv : w.PrepareInv) (hstep : w.step sha a = some w') {s : Session}
    (hs : w.state.currentSession = some s) (hdisclosed : w.Disclosed s.id)
    (hcleared : w'.state.currentSession = none) : w'.Finished s.id := by
  refine ⟨issued_mono hstep (hinv.issued_current hs), fun s' hs' => ?_,
    fun g q text hq _ phase hacc => ?_⟩
  · rcases hs' with hs' | ⟨h, p, hp, phase⟩
    · cases hcleared.symm.trans hs'
    · -- a session about to be installed is another one
      rcases installing_of_step hinv hstep hp phase with ⟨p₀, hp₀, phase₀⟩ | ⟨_, hfresh, _⟩
      · exact hinv.ne_installing hs hp₀ phase₀
      · intro hid
        rw [hid] at hfresh
        exact hfresh (hinv.issued_current hs)
  · -- its prepare has been answered with the id, so no text is delivered for it
    obtain ⟨h, t, body, ht, hok, hid⟩ := hdisclosed
    have hown := (consents_of_current hinv hs ht hok hid).2.1
    have ht' := answered_of_step hstep ht hok.2
    obtain rfl : g = h :=
      (prepareInv_step hinv hstep).owner g h q t s.id hq ht' (.inr hacc) (.inr hown)
    cases hq.symm.trans ht'
    cases phase.symm.trans hok.2

/-- A message session whose text was delivered is finished. -/
theorem finished_of_delivered (hinv : w.PrepareInv) {h : TaskId}
    (hstep : w.step sha (.prepare h .deliverText) = some w') {t : PrepareTask} {id : SessionId}
    (ht : w.prepares h = some t) (hid : t.accepted = some id) : w'.Finished id := by
  have hinv' := prepareInv_step hinv hstep
  obtain ⟨hcleared, ht'⟩ : w'.state.currentSession = none ∧
      w'.prepares h = some { t with phase := .answered .noContent none } := by
    cases step_prepare hstep with
    | deliverText ht₀ =>
      cases ht.symm.trans ht₀
      exact ⟨rfl, Function.update_self ..⟩
  -- its prepare is the only one that knows the id, and has been answered
  have howner : ∀ g q, w'.prepares g = some q → q.accepted = some id →
      q.phase = .answered .noContent none := by
    intro g q hq hacc
    obtain rfl : g = h := hinv'.owner g h q _ id hq ht' (.inr hacc) (.inr hid)
    cases hq.symm.trans ht'
    rfl
  refine ⟨issued_mono hstep (hinv.issued h t id ht (.inr hid)), fun s hs heq => ?_,
    fun g q text' hq _ phase' hacc => ?_⟩
  · rcases hs with hs | ⟨g, q, hq, phase'⟩
    · cases hcleared.symm.trans hs
    · have hwf := hinv'.wf g q hq
      simp only [PrepareTask.Wf, phase'] at hwf
      have hanswered := howner g q hq (heq ▸ hwf.2.1)
      cases phase'.symm.trans hanswered
  · have hanswered := howner g q hq hacc
    cases phase'.symm.trans hanswered

/-! ## Files that are recorded -/

/-- What holds when an upload is about to record its file. -/
theorem EventInv.recording (hinv : w.EventInv sha) {u : TaskId} {t : UploadTask} {s : Session}
    (hrec : w.Recording u t s) :
    (w.lifecycles s.id).phase? t.fileId = some .publishing ∧ s.files.contains t.fileId = true ∧
      w.ConsentedTo s.id t.fileId ∧ w.Disclosed s.id := by
  obtain ⟨ht, live, ⟨path, phase⟩, hs, hid⟩ := hrec
  -- an upload that records holds the permit of its file
  have hpermit : t.handle = some (.permit t.fileId) := (hinv.lifecycle.wf u t ht).held_of live phase
  have hpublishing := hinv.lifecycle.publishing_of_permit ht hpermit
  rw [← hid] at hpublishing
  have hslot := hinv.lifecycle.slots s (.inl hs) t.fileId
  rw [hpublishing] at hslot
  obtain ⟨h, p, body, hp, hok, hbody, hacc, hadmitted, hconsents⟩ := hinv.uploads u t ht
  rw [← hid] at hbody hacc
  exact ⟨hpublishing, hslot.symm, ⟨h, p, hp, hacc, hadmitted, hconsents⟩,
    ⟨h, p, body, hp, hok, hbody⟩⟩

/-- `mark_received` adds the file and nothing else. -/
theorem markReceived_of_contains {s : Session} {f : FileId} (h : s.files.contains f = true) (now : Nat) :
    (s.markReceived f now).2.received = insert f s.received ∧
      ((s.markReceived f now).1 = true ↔ (insert f s.received).card = s.files.size) := by
  unfold Session.markReceived
  rw [if_pos h]
  exact ⟨rfl, decide_eq_true_iff⟩

/-- Once as many files have been received as the session has, all of them have. -/
theorem received_of_card {s : Session} {received : Finset FileId}
    (hsub : ∀ f ∈ received, f ∈ s.files.keys) (hcard : received.card = s.files.size) {f : FileId}
    (hf : s.files.contains f = true) : f ∈ received := by
  have hkeys : s.files.keys.toFinset.card = s.files.size :=
    (List.toFinset_card_of_nodup s.files.nodup).trans (List.length_map ..)
  -- a subset of the keys that is as large as they are
  have heq : received = s.files.keys.toFinset := by
    apply Finset.eq_of_subset_of_card_le
    · intro g hg
      exact List.mem_toFinset.mpr (hsub g hg)
    · omega
  rw [heq]
  exact List.mem_toFinset.mpr (AssocMap.contains_iff_mem_keys.mp hf)

/-! ## One step -/

/-- A session that is not finished may still be announced as done. -/
theorem EventInv.allows_done (hinv : w.EventInv sha) {x : SessionId} (hx : ¬w.Finished x) :
    ∀ e ∈ w.sessionEvents, e.Allows (.sessionDone x) := by
  intro e he
  cases e with
  | fileReceived y f => rintro ⟨⟩
  | sessionDone y =>
    refine ⟨?_, fun _ => by simp⟩
    intro heq
    cases heq
    exact hx (hinv.done x he)

/-- A file that is not published yet may still be announced. -/
theorem EventInv.allows_received (hinv : w.EventInv sha) {s : Session} {f : FileId}
    (hs : w.state.currentSession = some s)
    (hpublishing : (w.lifecycles s.id).phase? f = some .publishing) :
    ∀ e ∈ w.sessionEvents, e.Allows (.fileReceived s.id f) := by
  intro e he
  cases e with
  | fileReceived y g =>
    intro heq
    cases heq
    -- what was announced has been published, and this file still is being published
    have hpublished := (hinv.received _ _ he).2.1
    cases hpublishing.symm.trans hpublished
  | sessionDone y =>
    refine ⟨by simp, fun g heq => ?_⟩
    cases heq
    exact (hinv.done _ he).unhosted s (.inl hs) rfl

/-- The events stay in order. -/
theorem EventInv.order_step (hinv : w.EventInv sha) (hstep : w.step sha a = some w') :
    w'.sessionEvents.Pairwise SessionEvent.Allows := by
  have hcurrent : ∀ s, w.state.currentSession = some s → ¬w.Finished s.id :=
    fun s hs hfinished => hfinished.unhosted s (.inl hs) rfl
  -- each new event may follow all those before it
  cases eventMove_of_step hstep with
  | quiet events =>
    rw [events]
    exact hinv.order
  | @delivered h t id text _ ht live phase hid events =>
    rw [events, List.pairwise_append]
    refine ⟨hinv.order, List.pairwise_singleton .., fun e he e' he' => ?_⟩
    cases List.mem_singleton.mp he'
    exact hinv.allows_done (fun hfinished => hfinished.unsent h t text ht live phase hid) e he
  | cancelled hs _ events =>
    rw [events, List.pairwise_append]
    refine ⟨hinv.order, List.pairwise_singleton .., fun e he e' he' => ?_⟩
    cases List.mem_singleton.mp he'
    exact hinv.allows_done (hcurrent _ hs) e he
  | received hrec _ _ events =>
    obtain ⟨hpublishing, _⟩ := hinv.recording hrec
    rw [events, List.pairwise_append]
    refine ⟨hinv.order, List.pairwise_singleton .., fun e he e' he' => ?_⟩
    cases List.mem_singleton.mp he'
    exact hinv.allows_received hrec.2.2.2.1 hpublishing e he
  | @completed u t s _ hrec _ _ events =>
    obtain ⟨hpublishing, _⟩ := hinv.recording hrec
    have hs := hrec.2.2.2.1
    have hnew : [SessionEvent.fileReceived s.id t.fileId, .sessionDone s.id].Pairwise
        SessionEvent.Allows := by
      simp [SessionEvent.Allows]
    rw [events, List.pairwise_append]
    refine ⟨hinv.order, hnew, fun e he e' he' => ?_⟩
    rcases List.mem_pair.mp he' with rfl | rfl
    · exact hinv.allows_received hs hpublishing e he
    · exact hinv.allows_done (hcurrent s hs) e he

/-- What is announced as received stays published and accepted. -/
theorem EventInv.received_step (hinv : w.EventInv sha) (hstep : w.step sha a = some w')
    {x : SessionId} {f : FileId} (he : .fileReceived x f ∈ w'.sessionEvents) :
    x ∈ w'.issued ∧ (w'.lifecycles x).phase? f = some .published ∧ w'.ConsentedTo x f := by
  -- published files stay so, and nobody takes back a consent
  have hold : .fileReceived x f ∈ w.sessionEvents →
      x ∈ w'.issued ∧ (w'.lifecycles x).phase? f = some .published ∧ w'.ConsentedTo x f := by
    intro hmem
    obtain ⟨hissued, hpublished, hconsents⟩ := hinv.received x f hmem
    exact ⟨issued_mono hstep hissued, published_of_step hinv.lifecycle hstep hissued hpublished,
      hconsents.step hinv.lifecycle.prepare hstep⟩
  have hrecorded : ∀ u t s, a = .upload u .record → w.Recording u t s →
      s.id ∈ w'.issued ∧ (w'.lifecycles s.id).phase? t.fileId = some .published ∧
        w'.ConsentedTo s.id t.fileId := by
    rintro u t s rfl hrec
    obtain ⟨_, _, hconsents, _⟩ := hinv.recording hrec
    exact ⟨issued_mono hstep (hinv.lifecycle.prepare.issued_current hrec.2.2.2.1),
      published_of_recorded hinv.lifecycle hstep hrec, hconsents.step hinv.lifecycle.prepare hstep⟩
  cases eventMove_of_step hstep with
  | quiet events =>
    rw [events] at he
    exact hold he
  | delivered _ _ _ _ events | cancelled _ _ events =>
    rw [events, List.mem_append] at he
    apply he.elim hold
    intro hnew
    cases List.mem_singleton.mp hnew
  | received hrec _ _ events =>
    rw [events, List.mem_append] at he
    apply he.elim hold
    intro hnew
    cases List.mem_singleton.mp hnew
    exact hrecorded _ _ _ rfl hrec
  | completed hrec _ _ events =>
    rw [events, List.mem_append] at he
    apply he.elim hold
    intro hnew
    rcases List.mem_pair.mp hnew with heq | heq
    · cases heq
      exact hrecorded _ _ _ rfl hrec
    · simp at heq

/-- Every received file of the session in the slot was announced. -/
theorem EventInv.recorded_step (hinv : w.EventInv sha) (hstep : w.step sha a = some w')
    {s' : Session} (hs' : w'.state.currentSession = some s') {f : FileId} (hf : f ∈ s'.received) :
    f ∈ s'.files.keys ∧ .fileReceived s'.id f ∈ w'.sessionEvents := by
  have hslot' : w'.slot.session = some s' := hs'
  have hmove := eventMove_of_step hstep
  have hmono : ∀ e ∈ w.sessionEvents, e ∈ w'.sessionEvents := by
    intro e he
    cases hmove with
    | quiet events | delivered _ _ _ _ events | cancelled _ _ events | received _ _ _ events
    | completed _ _ _ events =>
      rw [events]
      simp [he]
  -- only a recorded file changes what the session in the slot has received
  cases slotMove_of_step hstep with
  | keep slot | consented _ _ _ _ _ slot | withdrawnLate _ _ _ slot =>
    rw [slot] at hslot'
    obtain ⟨hkey, hmem⟩ := hinv.recorded s' hslot' f hf
    exact ⟨hkey, hmono _ hmem⟩
  | place _ _ _ _ _ _ slot =>
    rw [slot] at hslot'
    cases hslot'
    cases Finset.notMem_empty f hf
  | @installed h t s _ ht _ phase slot =>
    rw [slot] at hslot'
    cases hslot'
    have hwf := hinv.lifecycle.prepare.wf h t ht
    simp only [PrepareTask.Wf, phase] at hwf
    obtain ⟨_, _, token, now, hnew⟩ := hwf
    rw [hnew] at hf
    cases Finset.notMem_empty f hf
  | @recorded u t s _ hrec more slot =>
    rw [slot] at hslot'
    cases hslot'
    obtain ⟨_, hfile, _⟩ := hinv.recording hrec
    obtain ⟨hid, hfiles⟩ := markReceived_id s t.fileId w.now
    rw [(markReceived_of_contains hfile w.now).1, Finset.mem_insert] at hf
    rw [hid, hfiles]
    rcases hf with rfl | hf
    · -- the file that is recorded now is announced in the same section
      refine ⟨AssocMap.contains_iff_mem_keys.mp hfile, ?_⟩
      cases hmove with
      | quiet _ unrecorded => exact absurd hrec (unrecorded u t s rfl)
      | received hrec' _ _ events =>
        cases hrec.1.symm.trans hrec'.1
        cases hrec.2.2.2.1.symm.trans hrec'.2.2.2.1
        rw [events]
        simp
      | completed hrec' last =>
        cases hrec.1.symm.trans hrec'.1
        cases hrec.2.2.2.1.symm.trans hrec'.2.2.2.1
        -- more files are to come, so the session does not end here
        cases more.symm.trans last
    · obtain ⟨hkey, hmem⟩ := hinv.recorded s hrec.2.2.2.1 f hf
      exact ⟨hkey, hmono _ hmem⟩
  | refused _ _ _ slot | declined _ _ _ slot | delivered _ _ _ slot | withdrawn _ _ _ _ slot
  | cancelled _ _ _ _ _ slot | swept _ _ _ slot | stopped _ _ slot | completed _ _ slot =>
    rw [slot] at hslot'
    simp at hslot'

/-- A session that is announced as done is finished. -/
theorem EventInv.done_step (hinv : w.EventInv sha) (hnames : NamesDisclosed w a w')
    (hstep : w.step sha a = some w') {x : SessionId} (he : .sessionDone x ∈ w'.sessionEvents) :
    w'.Finished x := by
  have hprepare := hinv.lifecycle.prepare
  have hold : .sessionDone x ∈ w.sessionEvents → w'.Finished x :=
    fun hmem => (hinv.done x hmem).step hprepare hstep
  -- the session is announced by its own prepare, its cancel or its last upload
  cases eventMove_of_step hstep with
  | quiet events =>
    rw [events] at he
    exact hold he
  | delivered ht _ _ hid events =>
    rw [events, List.mem_append] at he
    apply he.elim hold
    intro hnew
    cases List.mem_singleton.mp hnew
    exact finished_of_delivered hprepare hstep ht hid
  | @cancelled peer s _ hs cleared events =>
    rw [events, List.mem_append] at he
    apply he.elim hold
    intro hnew
    cases List.mem_singleton.mp hnew
    exact finished_of_cleared hprepare hstep hs
      (hnames.2 peer s.id rfl (hprepare.issued_current hs)) cleared
  | received _ _ _ events =>
    rw [events, List.mem_append] at he
    apply he.elim hold
    intro hnew
    cases List.mem_singleton.mp hnew
  | completed hrec _ cleared events =>
    rw [events, List.mem_append] at he
    apply he.elim hold
    intro hnew
    rcases List.mem_pair.mp hnew with heq | heq
    · simp at heq
    · cases heq
      obtain ⟨_, _, _, hdisclosed⟩ := hinv.recording hrec
      exact finished_of_cleared hprepare hstep hrec.2.2.2.1 hdisclosed cleared

/-- Every step keeps the invariant, when its requests name disclosed ids only. -/
theorem eventInv_step (hinv : w.EventInv sha) (hnames : NamesDisclosed w a w')
    (hstep : w.step sha a = some w') : w'.EventInv sha where
  lifecycle := lifecycleInv_step hinv.lifecycle hstep
  uploads := uploadsConsented_step hinv.lifecycle.prepare hinv.uploads hnames.1 hstep
  order := hinv.order_step hstep
  received _ _ he := hinv.received_step hstep he
  recorded _ hs' _ hf := hinv.recorded_step hstep hs' hf
  done _ he := hinv.done_step hnames hstep he

/-- An upload that announces its session as done has announced the last of its accepted files. -/
theorem EventInv.complete (hinv : w.EventInv sha) {u : TaskId} {b : UploadAction}
    (hstep : w.step sha (.upload u b) = some w') {x : SessionId}
    (hdone : .sessionDone x ∈ w'.sessionEvents) (hnew : .sessionDone x ∉ w.sessionEvents)
    {f : FileId} (hf : w'.ConsentedTo x f) : .fileReceived x f ∈ w'.sessionEvents := by
  cases eventMove_of_step hstep with
  | quiet events =>
    rw [events] at hdone
    exact absurd hdone hnew
  | received _ _ _ events =>
    rw [events, List.mem_append] at hdone
    apply hdone.elim (fun hmem => absurd hmem hnew)
    intro hmem
    cases List.mem_singleton.mp hmem
  | @completed _ t s _ hrec last cleared events =>
    obtain ⟨_, hfile, _, hdisclosed⟩ := hinv.recording hrec
    have hs := hrec.2.2.2.1
    have hx : x = s.id := by
      rw [events, List.mem_append] at hdone
      rcases hdone with hmem | hmem
      · exact absurd hmem hnew
      · rcases List.mem_pair.mp hmem with heq | heq
        · simp at heq
        · exact SessionEvent.sessionDone.inj heq
    subst hx
    -- `f` is a file of the session in the slot, and that has as many files as it has received
    obtain ⟨h, p, body, hp, hok, hid⟩ := hdisclosed
    obtain ⟨_, hacc, hiff⟩ := consents_of_current hinv.lifecycle.prepare hs hp hok hid
    obtain ⟨h', p', hp', hacc', _, hconsents⟩ := hf
    have hprepares : w'.prepares = w.prepares :=
      (samePrepares_of_uploadStep (step_upload hstep)).prepares
    rw [hprepares] at hp'
    obtain rfl : h' = h :=
      hinv.lifecycle.prepare.owner h' h p' p s.id hp' hp (.inr hacc') (.inr hacc)
    cases hp.symm.trans hp'
    -- with the last file, every file of the session has been received
    have hcard := (markReceived_of_contains hfile w.now).2.mp last
    have hmem : f ∈ insert t.fileId s.received := by
      refine received_of_card (fun g hg => ?_) hcard ((hiff f).mpr hconsents)
      rcases Finset.mem_insert.mp hg with rfl | hg
      · exact AssocMap.contains_iff_mem_keys.mp hfile
      · exact (hinv.recorded s hs g hg).1
    rw [events]
    rcases Finset.mem_insert.mp hmem with rfl | hmem
    · simp
    · simp [(hinv.recorded s hs f hmem).2]

/-- The events of every session in every run whose requests name disclosed ids only: each file is
    announced at most once and was accepted, the session is announced as done at most once and
    nothing of it after that, and by an upload only when all of its accepted files have been. -/
theorem event_discipline (sha : List UInt8 → String) (c : ServerConfig) (as : List Action)
    (hnames : (receiver sha).Always NamesDisclosed (World.start c) as) :
    (receiver sha).Always EventsDisciplined (World.start c) as := by
  -- induction on the run, with the invariant `EventInv`
  apply (receiver sha).always_of_invariant (EventInv sha) _ (eventInv_start c) hnames
  intro w a w' hinv hstep hnames
  have hinv' := eventInv_step hinv hnames hstep
  refine ⟨hinv', hinv'.order, fun x f he => (hinv'.received x f he).2.2, ?_⟩
  intro u b x ha hdone hnew f hf
  subst ha
  exact hinv.complete hstep hdone hnew hf

end World

namespace Scenario

/-- Alice uploads her accepted file to its end, and then sends a cancel for the session. -/
def uploadedThenCancelled : List Action :=
  uploading ++ [.upload 0 (.sinkCreated (.ok ⟨["a.bin"]⟩)), .upload 0 (.chunk [7]),
    .upload 0 (.chunkWritten true), .upload 0 .reportProgress, .upload 0 .streamEnd,
    .upload 0 (.flushed true), .upload 0 .publish, .upload 0 (.committed (some ⟨["a.bin"]⟩)),
    .upload 0 .record, .cancel alice (some ⟨"session"⟩)]

/-- Uploads and cancels name the session id the first prepare was answered with. -/
def namesAnsweredOnly (w : World) : Action → Bool
  | .cancel _ (some x) => namesAnswered w (.upload 0 (.begin_ x ⟨""⟩ ⟨""⟩))
  | a => namesAnswered w a

theorem namesDisclosed_of_namesAnsweredOnly (w : World) (a : Action) (w' : World)
    (h : namesAnsweredOnly w a = true) : World.NamesDisclosed w a w' := by
  constructor
  · intro u x f token ha
    subst ha
    exact onlyDisclosed_of_namesAnswered w (.upload u (.begin_ x f token)) w' h u x f token rfl
  · intro peer x ha
    subst ha
    exact onlyDisclosed_of_namesAnswered w (.upload 0 (.begin_ x ⟨""⟩ ⟨""⟩)) w' h 0 x ⟨""⟩ ⟨""⟩ rfl

end Scenario

namespace World

/-- The events of a session that is uploaded and then cancelled. -/
theorem event_discipline_uploaded :
    (receiver Scenario.digest).Always EventsDisciplined (World.start Scenario.config)
      Scenario.uploadedThenCancelled :=
  event_discipline Scenario.digest Scenario.config Scenario.uploadedThenCancelled
    ((receiver Scenario.digest).always_of_allPass Scenario.namesAnsweredOnly
      Scenario.namesDisclosed_of_namesAnsweredOnly (by decide))

end World

end LocalSend
