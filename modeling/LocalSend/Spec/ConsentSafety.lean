import LocalSend.Spec.LifecycleInvariant
import LocalSend.Spec.LogMoves
import LocalSend.Spec.SlotOwnership

/-!
# Consent safety

Everything the receiver writes or announces for a session goes back to the prepare
request that created it: one that passed the PIN gate and whose decision accepts the
file. The placeholder of an offer carries real tokens, but no response discloses its id,
and a request can only name ids that some response disclosed (`OnlyDisclosed`).

## Key results

- `contains_grantedFiles_iff`: an accepted session is over the accepted offered files
- `uploadsConsented_step`: an upload begins only on a session disclosed with its tokens
- `consent_safety`: every write and every announcement has its own consent
-/

namespace LocalSend

/-- The decision of a prepare accepts the offered file `f`: `auto_accept` was set at the
    reservation, or the consumer accepted all files, or a list with this one in it. -/
def PrepareTask.Consents (t : PrepareTask) (f : FileId) : Prop :=
  t.request.files.contains f = true ∧
    (t.autoAccept = true ∨ t.decision = some .accept ∨
      ∃ ids, t.decision = some (.acceptFiles ids) ∧ f ∈ ids)

/-- The prepare was answered 200 with the session id and the tokens in `body`. -/
def PrepareTask.AnsweredOk (t : PrepareTask) (body : PrepareUploadResponse) : Prop :=
  t.dropped = false ∧ t.phase = .answered .ok (some body)

/-- The accepted ids of a decision, among the offered files. -/
theorem PrepareUploadRequest.contains_acceptedFiles_iff (request : PrepareUploadRequest)
    (d : TransferDecision) (f : FileId) :
    (request.acceptedFiles (request.acceptedIds d)).contains f = true ↔
      request.files.contains f = true ∧ f ∈ request.acceptedIds d := by
  simp only [acceptedFiles, AssocMap.contains_iff, AssocMap.get?_filter, Option.filter_eq_some_iff,
    List.contains_iff_mem, exists_and_right]

/-- An accepted session is over exactly the offered files its decision accepts. -/
theorem PrepareTask.contains_grantedFiles_iff {t : PrepareTask} (h : t.Granted) (f : FileId) :
    t.grantedFiles.contains f = true ↔ t.Consents f := by
  obtain ⟨_, _, d, hd, _, hauto⟩ := h
  simp only [grantedFiles, hd, PrepareUploadRequest.contains_acceptedFiles_iff, Consents,
    Option.some.injEq]
  apply and_congr_right
  intro hfile
  constructor
  · intro hmem
    cases d with
    | accept => exact .inr (.inl rfl)
    | acceptFiles ids => exact .inr (.inr ⟨ids, rfl, (List.mem_filter.mp hmem).1⟩)
    | decline => cases hmem
    | refuse reason => cases hmem
  · have haccept : d = .accept → f ∈ t.request.acceptedIds d := by
      rintro rfl
      exact AssocMap.contains_iff_mem_keys.mp hfile
    rintro (h | h | ⟨ids, rfl, hmem⟩)
    · exact haccept (hauto h)
    · exact haccept h
    · exact List.mem_filter.mpr ⟨hmem, hfile⟩

/-- A granted prepare accepts some file. -/
theorem PrepareTask.Granted.exists_consents {t : PrepareTask} (h : t.Granted) :
    ∃ f, t.Consents f := by
  have ⟨_, _, d, hd, hids, _⟩ := h
  obtain ⟨f, hf⟩ := List.exists_mem_of_ne_nil _ hids
  refine ⟨f, (contains_grantedFiles_iff h f).mp ?_⟩
  simp only [grantedFiles, hd, PrepareUploadRequest.contains_acceptedFiles_iff]
  refine ⟨?_, hf⟩
  cases d with
  | accept => exact AssocMap.contains_iff_mem_keys.mpr hf
  | acceptFiles ids => exact (List.mem_filter.mp hf).2
  | decline => cases hf
  | refuse reason => cases hf

/-- Once a handler has drawn the id of its accepted session, what it was granted on stays. -/
theorem PrepareMove.consents_eq {w : World} {t t' : PrepareTask} {a : PrepareAction}
    (hmove : PrepareMove w (some t) a t') (hwf : t.Wf) {s : SessionId}
    (hs : t.accepted = some s) :
    t'.accepted = some s ∧ t'.verdict = t.verdict ∧ t'.request = t.request ∧
      ∀ f, t'.Consents f ↔ t.Consents f := by
  have hcontra : t.accepted = none → False := fun h => (by cases hs.symm.trans h)
  cases hmove with
  | @reserved _ id token hphase hid =>
    simp only [PrepareTask.Wf, hphase] at hwf
    exact (hcontra hwf.2.2.2).elim
  | @nobodyListening _ hphase | @decided _ answer hphase =>
    simp only [PrepareTask.Wf, hphase] at hwf
    exact (hcontra hwf.2.2.2.1).elim
  | @toInstall _ d id token hphase hd hids hid =>
    simp only [PrepareTask.Wf, hphase] at hwf
    exact (hcontra hwf.2.2.1).elim
  | _ => exact ⟨hs, rfl, rfl, fun _ => Iff.rfl⟩

namespace World

/-- The session with id `x` came from a prepare that passed the PIN check and whose
    decision accepts `f`. -/
def ConsentedTo (w : World) (x : SessionId) (f : FileId) : Prop :=
  ∃ h t, w.prepares h = some t ∧ t.accepted = some x ∧ t.Admitted ∧ t.Consents f

/-- The same for a message: its text is that of the accepted offer. -/
def ConsentedText (w : World) (x : SessionId) (text : String) : Prop :=
  ∃ h t f, w.prepares h = some t ∧ t.accepted = some x ∧ t.Admitted ∧ t.Consents f ∧
    t.request.messageText = some text

/-- Some prepare response has disclosed the session id `x`. -/
def Disclosed (w : World) (x : SessionId) : Prop :=
  ∃ h t body, w.prepares h = some t ∧ t.AnsweredOk body ∧ body.sessionId = x

/-- An upload request names no standard session whose id was not disclosed. -/
def OnlyDisclosed (w : World) (a : Action) (_ : World) : Prop :=
  ∀ u x f token, a = .upload u (.begin_ x f token) → x ∈ w.issued → w.Disclosed x

/-- What an observation needs to have been consented to. -/
def Consented (w : World) : Observation → Prop
  | .sinkCreate _ x f => w.ConsentedTo x f
  | .emitted (.fileReceived x f ..) => w.ConsentedTo x f
  | .emitted (.textReceived x text _) => w.ConsentedText x text
  | _ => True

/-- The tokens in `body` are those of the accepted session: of the offered files its
    decision accepts, and the ones the session in the slot verifies. -/
structure DisclosesGranted (w : World) (t : PrepareTask) (body : PrepareUploadResponse) : Prop where
  admitted : t.Admitted
  accepted : t.accepted = some body.sessionId
  files : ∀ f, body.files.contains f = true ↔ t.Consents f
  tokens : ∀ s, w.state.currentSession = some s → s.id = body.sessionId → s.tokens = body.files

/-- Every write and announcement was consented to; tokens are returned with 200 only, and
    are those of the accepted files; and an upload runs only on a session whose prepare
    was answered with them. -/
structure ConsentSafe (w : World) : Prop where
  observed : ∀ time o, (time, o) ∈ w.log → w.Consented o
  disclosed : ∀ h t status body, w.prepares h = some t → t.phase = .answered status (some body) →
    status = .ok ∧ w.DisclosesGranted t body
  usable : ∀ h t u x, w.prepares h = some t → w.uploads u = some x → t.Owns x.grant.sessionId →
    ∃ body, t.AnsweredOk body ∧ body.sessionId = x.grant.sessionId ∧ t.Consents x.fileId

variable {sha : List UInt8 → String} {w w' : World} {a : Action}

/-! ## What was consented to stays so -/

/-- An answered prepare makes no further step. -/
theorem answered_of_step (hstep : w.step sha a = some w') {h : TaskId} {t : PrepareTask}
    {status : StatusCode} {body : Option PrepareUploadResponse} (ht : w.prepares h = some t)
    (hphase : t.phase = .answered status body) : w'.prepares h = some t := by
  rcases prepares_of_step hstep ht with ⟨ht', _⟩ | ⟨b, t', _, _, _, hmove⟩
  · exact ht'
  · cases hmove with
    | dropped phase =>
      rw [hphase] at phase
      cases phase
    | conflict phase | reserved phase | nobodyListening phase | sent phase | decided phase
    | toRefuse phase | toDecline phase | toInstall phase | refused phase | declined phase
    | installedMessage phase | installed phase | delivered phase =>
      cases hphase.symm.trans phase

theorem ConsentedTo.step (hinv : w.PrepareInv) (hstep : w.step sha a = some w') {x : SessionId}
    {f : FileId} (h : w.ConsentedTo x f) : w'.ConsentedTo x f := by
  obtain ⟨g, t, ht, hacc, hadmitted, hconsents⟩ := h
  rcases prepares_of_step hstep ht with ⟨ht', _⟩ | ⟨b, t', _, _, ht', hmove⟩
  · exact ⟨g, t, ht', hacc, hadmitted, hconsents⟩
  · obtain ⟨hacc', hverdict, _, hiff⟩ := hmove.consents_eq (hinv.wf g t ht) hacc
    refine ⟨g, t', ht', hacc', ?_, (hiff f).mpr hconsents⟩
    simpa only [PrepareTask.Admitted, hverdict] using hadmitted

theorem ConsentedText.step (hinv : w.PrepareInv) (hstep : w.step sha a = some w') {x : SessionId}
    {text : String} (h : w.ConsentedText x text) : w'.ConsentedText x text := by
  obtain ⟨g, t, f, ht, hacc, hadmitted, hconsents, htext⟩ := h
  rcases prepares_of_step hstep ht with ⟨ht', _⟩ | ⟨b, t', _, _, ht', hmove⟩
  · exact ⟨g, t, f, ht', hacc, hadmitted, hconsents, htext⟩
  · obtain ⟨hacc', hverdict, hrequest, hiff⟩ := hmove.consents_eq (hinv.wf g t ht) hacc
    refine ⟨g, t', f, ht', hacc', ?_, (hiff f).mpr hconsents, by rw [hrequest]; exact htext⟩
    simpa only [PrepareTask.Admitted, hverdict] using hadmitted

theorem Consented.step (hinv : w.PrepareInv) (hstep : w.step sha a = some w')
    {o : Observation} (h : w.Consented o) : w'.Consented o := by
  cases o with
  | sinkCreate => exact ConsentedTo.step hinv hstep h
  | emitted e =>
    cases e with
    | fileReceived => exact ConsentedTo.step hinv hstep h
    | textReceived => exact ConsentedText.step hinv hstep h
    | _ => trivial
  | _ => trivial

/-! ## Where uploads begin -/

/-- A session whose id was disclosed is over the files its prepare was granted. -/
theorem consents_of_current (hinv : w.PrepareInv) {s : Session}
    (hs : w.state.currentSession = some s) {h : TaskId} {t : PrepareTask}
    {body : PrepareUploadResponse} (ht : w.prepares h = some t) (hok : t.AnsweredOk body)
    (hid : body.sessionId = s.id) :
    t.Admitted ∧ t.accepted = some s.id ∧ ∀ f, s.files.contains f = true ↔ t.Consents f := by
  have hwf := hinv.wf h t ht
  simp only [PrepareTask.Wf, hok.2, reduceCtorEq, ne_eq, not_true_eq_false, false_and, and_false,
    true_and, false_or, Option.some.injEq] at hwf
  obtain ⟨hgranted, _, x, token, hacc, rfl⟩ := hwf
  cases hid
  obtain ⟨g, p, hp, hplaced⟩ := hinv.placed s hs
  obtain rfl : h = g :=
    hinv.owner h g t p s.id ht hp (.inr hacc) (hplaced.imp id fun hacc => hacc.1)
  cases ht.symm.trans hp
  rcases hplaced with hres | ⟨_, _, hfiles⟩
  · exact absurd hacc (hinv.apart h t s.id ht hres)
  · refine ⟨hgranted.1, hacc, fun f => ?_⟩
    rw [hfiles]
    exact PrepareTask.contains_grantedFiles_iff hgranted f

/-- Every upload runs on a disclosed session, for a file that was accepted. -/
def UploadsConsented (w : World) : Prop :=
  ∀ u x, w.uploads u = some x → ∃ h t body, w.prepares h = some t ∧ t.AnsweredOk body ∧
    body.sessionId = x.grant.sessionId ∧ t.accepted = some x.grant.sessionId ∧ t.Admitted ∧
    t.Consents x.fileId

/-- The session a prepare was answered with has its tokens while it is in the slot. -/
def TokensAgree (w : World) : Prop :=
  ∀ h t status body s, w.prepares h = some t → t.phase = .answered status (some body) →
    w.state.currentSession = some s → s.id = body.sessionId → s.tokens = body.files

/-- An upload that begins is for a file of a session whose prepare accepted it. -/
theorem consented_of_begun (hinv : w.PrepareInv) (hdisclosed : OnlyDisclosed w a w') {u : TaskId}
    {s : Session} {f : FileId} {token : Token} {file : FileMetadata}
    (ha : a = .upload u (.begin_ s.id f token)) (hs : w.state.currentSession = some s)
    (hfile : s.files.get? f = some file) :
    ∃ h t body, w.prepares h = some t ∧ t.AnsweredOk body ∧ body.sessionId = s.id ∧
      t.accepted = some s.id ∧ t.Admitted ∧ t.Consents f := by
  obtain ⟨h, t, body, ht, hok, hid⟩ := hdisclosed u s.id f token ha (hinv.issued_current hs)
  obtain ⟨hadmitted, hacc, hiff⟩ := consents_of_current hinv hs ht hok hid
  exact ⟨h, t, body, ht, hok, hid, hacc, hadmitted,
    (hiff f).mp (AssocMap.contains_iff.mpr ⟨file, hfile⟩)⟩

/-- Requests that name disclosed ids only begin uploads that were consented to. -/
theorem uploadsConsented_step (hinv : w.PrepareInv) (h : w.UploadsConsented)
    (hdisclosed : OnlyDisclosed w a w') (hstep : w.step sha a = some w') :
    w'.UploadsConsented := by
  have hkeep : ∀ x f, (∃ g t body, w.prepares g = some t ∧ t.AnsweredOk body ∧
      body.sessionId = x ∧ t.accepted = some x ∧ t.Admitted ∧ t.Consents f) →
      ∃ g t body, w'.prepares g = some t ∧ t.AnsweredOk body ∧ body.sessionId = x ∧
        t.accepted = some x ∧ t.Admitted ∧ t.Consents f := by
    rintro x f ⟨g, t, body, ht, hok, hrest⟩
    exact ⟨g, t, body, answered_of_step hstep ht hok.2, hok, hrest⟩
  intro u x' hx'
  rcases uploads_before hstep hx' with hx | ⟨b, l, rfl, hsection, hmove, _⟩
  · exact hkeep _ _ (h u x' hx)
  · generalize hold : w.uploads u = old at hmove
    cases old with
    | some x =>
      obtain ⟨hfile, hgrant⟩ := hmove.grant_eq
      rw [hfile, hgrant]
      exact hkeep _ _ (h u x hold)
    | none =>
      cases hmove with
      | began hs verified hfile => exact hkeep _ _ (consented_of_begun hinv hdisclosed rfl hs hfile)

/-- The tokens of a disclosed session stay those that were disclosed. -/
theorem tokensAgree_step (hinv : w.PrepareInv) (h : w.TokensAgree)
    (hstep : w.step sha a = some w') : w'.TokensAgree := by
  intro g t' status body s' ht' hphase hs' hid
  have hslot' : w'.slot.session = some s' := hs'
  rcases prepares_before hstep ht' with ht | ⟨b, rfl, hmove, _⟩
  · -- answered before the step: only the session itself could have changed
    have hwf := hinv.wf g t' ht
    have hown : t'.accepted = some body.sessionId := by
      simp only [PrepareTask.Wf, hphase, reduceCtorEq, false_and, and_false, false_or,
        Option.some.injEq] at hwf
      obtain ⟨_, _, _, x, token, hacc, rfl⟩ := hwf
      exact hacc
    -- by what the step does to the slot
    cases slotMove_of_step hstep with
    | keep slot | consented _ _ _ _ _ slot | withdrawnLate _ _ _ slot =>
      rw [slot] at hslot'
      exact h g t' status body s' ht hphase hslot' hid
    -- a new session has a fresh id, and the answer's was drawn before
    | place _ _ _ fresh _ _ slot =>
      rw [slot] at hslot'
      cases hslot'
      exact absurd (hinv.issued g t' _ ht (.inr hown)) (hid ▸ fresh)
    -- the installing handler would be the one that has answered
    | @installed k p s _ hp _ phase slot =>
      rw [slot] at hslot'
      cases hslot'
      have hwfp := hinv.wf k p hp
      simp only [PrepareTask.Wf, phase] at hwfp
      rw [← hid] at hown
      obtain rfl : g = k := hinv.owner g k t' p s'.id ht hp (.inr hown) (.inr hwfp.2.1)
      cases ht.symm.trans hp
      cases phase.symm.trans hphase
    -- a receive that is recorded keeps the tokens
    | @recorded v x s _ hrec _ slot =>
      rw [slot] at hslot'
      cases hslot'
      have htokens : (s.markReceived x.fileId w.now).2.tokens = s.tokens := by
        unfold Session.markReceived
        split <;> rfl
      rw [htokens]
      rw [(markReceived_id s x.fileId w.now).1] at hid
      exact h g t' status body s ht hphase hrec.2.2.2.1 hid
    -- the slot is empty
    | refused _ _ _ slot | declined _ _ _ slot | delivered _ _ _ slot | withdrawn _ _ _ _ slot
    | cancelled _ _ _ _ _ slot | swept _ _ _ slot | stopped _ _ slot | completed _ _ slot =>
      rw [slot] at hslot'
      simp at hslot'
  · -- answered by the step: it installs the session whose tokens it returns
    have hinstalled : ∀ p s, w.prepares g = some p → p.phase = .installing s → b = .install →
        s' = s := by
      rintro p s hp phase rfl
      cases step_prepare hstep with
      | @install q c hq _ phase' =>
        cases hp.symm.trans hq
        cases phase.symm.trans phase'
        cases (congrArg Slot.session (slot_install w g p s)).symm.trans hs'
        rfl
    generalize hold : w.prepares g = old at hmove
    cases hmove with
    | @installed p s phase _ =>
      cases hphase
      rw [hinstalled p s hold phase rfl]
    -- a dropped handler keeps its answer, and had none
    | dropped phase =>
      have hphase' := hphase
      rw [hphase'] at phase
      cases phase
    | reserved =>
      unfold PrepareTask.reservedAs at hphase
      split at hphase <;> simp at hphase
    | _ => simp at hphase

/-! ## Every run -/

/-- What consent safety is carried by. -/
structure ConsentInv (w : World) : Prop where
  prepare : w.PrepareInv
  uploads : w.UploadsConsented
  tokens : w.TokensAgree
  observed : ∀ time o, (time, o) ∈ w.log → w.Consented o

/-- A new observation was consented to. -/
theorem consented_of_observed (hinv : w.ConsentInv) (hdisclosed : OnlyDisclosed w a w')
    (hstep : w.step sha a = some w') {o : Observation} (ho : w.Observed a o) :
    w'.Consented o := by
  apply Consented.step hinv.prepare hstep
  cases ho with
  | routine h =>
    cases o with
    | emitted e =>
      -- the two events with content are never routine
      cases e with
      | fileReceived | textReceived => exact h.elim
      | _ => trivial
    | sinkCreate => exact h.elim
    | _ => trivial
  | began _ hs hfile =>
    obtain ⟨h, t, _, ht, _, _, hacc, hadmitted, hconsents⟩ :=
      consented_of_begun hinv.prepare hdisclosed rfl hs hfile
    exact ⟨h, t, ht, hacc, hadmitted, hconsents⟩
  | announced hx _ _ _ hid =>
    obtain ⟨h, t, _, ht, _, _, hacc, hadmitted, hconsents⟩ := hinv.uploads _ _ hx
    exact ⟨h, t, ht, hid ▸ hacc, hadmitted, hconsents⟩
  | @delivered h t id text ht _ phase hacc =>
    -- the text of a message is that of the request its handler holds
    have hwf := hinv.prepare.wf h t ht
    simp only [PrepareTask.Wf, phase] at hwf
    obtain ⟨hgranted, _, htext⟩ := hwf
    obtain ⟨f, hf⟩ := hgranted.exists_consents
    exact ⟨h, t, f, ht, hacc, hgranted.1, hf, htext⟩
  | _ => trivial

theorem consentInv_start (c : ServerConfig) : (World.start c).ConsentInv where
  prepare := prepareInv_start c
  uploads _ _ h := by cases h
  tokens _ _ _ _ _ h := by cases h
  observed _ _ h := by cases h

/-- Requests that name disclosed ids only keep the invariant. -/
theorem consentInv_step (hinv : w.ConsentInv) (hdisclosed : OnlyDisclosed w a w')
    (hstep : w.step sha a = some w') : w'.ConsentInv where
  prepare := prepareInv_step hinv.prepare hstep
  uploads := uploadsConsented_step hinv.prepare hinv.uploads hdisclosed hstep
  tokens := tokensAgree_step hinv.prepare hinv.tokens hstep
  observed time o ho := by
    cases observed_of_step hstep ho with
    | inl hold => exact Consented.step hinv.prepare hstep (hinv.observed time o hold)
    | inr hnew => exact consented_of_observed hinv hdisclosed hstep hnew.2

theorem ConsentInv.consentSafe (hinv : w.ConsentInv) : w.ConsentSafe where
  observed := hinv.observed
  disclosed h t status body ht hphase := by
    have hwf := hinv.prepare.wf h t ht
    have htokens := hinv.tokens h t status body
    simp only [PrepareTask.Wf, hphase, reduceCtorEq, false_and, and_false, false_or,
      Option.some.injEq] at hwf
    obtain ⟨hgranted, hstatus, _, x, token, hacc, rfl⟩ := hwf
    refine ⟨hstatus, hgranted.1, hacc, fun f => ?_, fun s hs hid => htokens s ht hphase hs hid⟩
    rw [← PrepareTask.contains_grantedFiles_iff hgranted, AssocMap.contains_iff_mem_keys,
      AssocMap.keys_mapVal, ← AssocMap.contains_iff_mem_keys]
  usable h t u x ht hx hown := by
    obtain ⟨g, p, body, hp, hok, hid, hacc, _, hconsents⟩ := hinv.uploads u x hx
    obtain rfl : h = g := hinv.prepare.owner h g t p _ ht hp hown (.inr hacc)
    cases ht.symm.trans hp
    exact ⟨body, hok, hid, hconsents⟩

/-- Consent safety over every run whose requests carry only disclosed ids: whatever is
    created, announced, disclosed or uploaded goes back to a prepare that was admitted by
    the PIN gate and whose decision accepts it. -/
theorem consent_safety (sha : List UInt8 → String) (c : ServerConfig) (as : List Action)
    (hdisclosed : (receiver sha).Always OnlyDisclosed (World.start c) as) :
    (receiver sha).Always (fun _ _ w' => w'.ConsentSafe) (World.start c) as := by
  refine (receiver sha).always_of_invariant ConsentInv ?_ (consentInv_start c) hdisclosed
  intro w a w' hinv hstep honly
  have hinv' := consentInv_step hinv honly hstep
  exact ⟨hinv', hinv'.consentSafe⟩

end World

namespace Scenario

/-- Alice's upload has taken the lease of her accepted file. -/
def uploading : List Action := installed ++ [.upload 0 (.begin_ ⟨"session"⟩ ⟨"f"⟩ ⟨"s"⟩)]

/-- An upload request names the session id the first prepare was answered with. -/
def namesAnswered (w : World) : Action → Bool
  | .upload _ (.begin_ x _ _) => (w.prepares 0).any fun t =>
    !t.dropped && match t.phase with
      | .answered .ok (some body) => body.sessionId = x
      | _ => false
  | _ => true

theorem onlyDisclosed_of_namesAnswered (w : World) (a : Action) (w' : World)
    (h : namesAnswered w a = true) : World.OnlyDisclosed w a w' := by
  rintro u x f token rfl _
  simp only [namesAnswered, Option.any_eq_true, Bool.and_eq_true, Bool.not_eq_true'] at h
  obtain ⟨t, ht, live, hphase⟩ := h
  split at hphase
  · exact ⟨0, t, _, ht, ⟨live, by assumption⟩, decide_eq_true_eq.mp hphase⟩
  · simp at hphase

end Scenario

namespace World

/-- Consent safety on a run in which Alice uploads the file that was accepted. -/
theorem consent_safety_uploading :
    (receiver Scenario.digest).Always (fun _ _ w' => w'.ConsentSafe) (World.start Scenario.config)
      Scenario.uploading :=
  consent_safety Scenario.digest Scenario.config Scenario.uploading
    ((receiver Scenario.digest).always_of_allPass Scenario.namesAnswered
      Scenario.onlyDisclosed_of_namesAnswered (by decide))

end World

end LocalSend
