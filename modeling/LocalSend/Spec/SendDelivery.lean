import LocalSend.Spec.AnswerCauses
import LocalSend.Spec.ConsentSafety
import LocalSend.Spec.ConsumerFrame
import LocalSend.Transfer.Network

/-!
# What a successful send means

A send that reports success has delivered: its offer was accepted, and each file that was accepted has
been committed by the receiver with the bytes that the sender read, as many as it had offered; or it
was a message, and its text has been put into the channel to the receiver's consumer, if there was room
for it. That holds for any number of senders at once, whatever the other clients of the receiver do.

The receiver knows nothing of the senders: what it does is a run of `receiver`
(`network_simulates`), and its invariants hold. What joins the two ends are the connections. The
bytes that an upload has taken are those its connection has delivered, and its body is at its end
only when they are all that was announced.

## Key results

- `step_cases`: inversion of a step of the network
- `Carries.step`: a connection and the upload at its other end, through a step of the receiver
- `inv_of_reachable`: the invariant of the senders and the connections
- `text_passed`: what has become of the text of a message
- `send_delivers`: the result, for every run
-/

namespace LocalSend

/-! ## The moves of a handler, as a connection sees them -/

/-- Whether an upload has read its body to the end, and not rejected it. -/
def UploadPhase.complete : UploadPhase → Bool
  | .flushing | .validated | .surrendering | .committing | .recording _ | .answered .ok => true
  | _ => false

/-- The body of an upload is complete when its stream has ended. -/
theorem UploadMove.complete {sha : List UInt8 → String} {w : World} {t t' : UploadTask}
    {b : UploadAction} {l : ReceiveLifecycle} (hmove : UploadMove sha w (some t) b t' l)
    (hwf : t.Wf sha) (hcomplete : t'.phase.complete = true) :
    t.phase.complete = true ∨ b = .streamEnd := by
  cases hmove with
  | ended => exact .inr rfl
  | valid phase | won phase | lost phase | committed phase | recorded phase =>
    exact .inl (by rw [phase]; rfl)
  | dropped => exact .inl hcomplete
  | @notCreated t e status phase hs =>
    rcases hs with rfl | rfl <;> cases hcomplete
  | @gaveUp t amount status phase | @aborted t status phase =>
    have hbad : status ≠ .ok := hwf.body_of phase
    cases status with
    | ok => exact absurd rfl hbad
    | _ => cases hcomplete
  | _ => cases hcomplete

/-- What a handler has read grows by the chunks that it is given. -/
theorem UploadMove.bytes_eq {sha : List UInt8 → String} {w : World} {t t' : UploadTask}
    {b : UploadAction} {l : ReceiveLifecycle} (hmove : UploadMove sha w (some t) b t' l) :
    (∃ chunk, b = .chunk chunk ∧ t'.body.bytes = t.body.bytes ++ chunk ∧
      t'.phase.complete = false) ∨
      ((∀ chunk, b ≠ .chunk chunk) ∧ t'.body.bytes = t.body.bytes) := by
  cases hmove with
  | @received t chunk phase =>
    refine .inl ⟨chunk, rfl, ?_, rfl⟩
    show (t.body.chunks ++ [chunk]).flatten = t.body.chunks.flatten ++ chunk
    rw [List.flatten_append, List.flatten_singleton]
  | _ => exact .inr ⟨by simp, rfl⟩

/-- An answer of 200 discloses the session that was granted, with a token for each file of it. -/
theorem PrepareTask.AnsweredOk.granted {p : PrepareTask} {body : PrepareUploadResponse}
    (hok : p.AnsweredOk body) (hwf : p.Wf) : p.Granted ∧ p.accepted = some body.sessionId ∧
      ∀ f, body.files.contains f = true ↔ p.Consents f := by
  simp only [PrepareTask.Wf, hok.2, reduceCtorEq, ne_eq, not_true_eq_false, false_and, and_false,
    true_and, false_or, Option.some.injEq] at hwf
  obtain ⟨hgranted, _, x, token, hacc, rfl⟩ := hwf
  refine ⟨hgranted, hacc, fun f => ?_⟩
  rw [← PrepareTask.contains_grantedFiles_iff hgranted, AssocMap.contains_iff_mem_keys,
    AssocMap.contains_iff_mem_keys, AssocMap.keys_mapVal]

/-! ## A connection and its upload -/

namespace World

variable {sha : List UInt8 → String} {w w' : World} {a : Action}

/-- The upload `u`, if it has begun, is for the file of the connection, and has read what that has
    delivered: all that was announced, once the body is at its end. -/
def Carries (w : World) (u : TaskId) (conn : Connection) : Prop :=
  ∀ t, w.uploads u = some t → t.fileId = conn.fileId ∧ t.body.bytes = conn.delivered ∧
    (t.phase.complete = true → conn.delivered = conn.wire ∧ conn.wire.length = conn.announced)

/-- The upload `u`, if it has begun, is for a session that prepare `h` was granted on an offer of
    `files`, and it expects as many bytes as were offered. -/
def GrantedBy (w : World) (u h : TaskId) (files : AssocMap FileId FileMetadata) : Prop :=
  ∀ t, w.uploads u = some t → ∃ p file, w.prepares h = some p ∧
    p.accepted = some t.grant.sessionId ∧ files.get? t.fileId = some file ∧
    t.grant.declaredSize = file.size

/-- What becomes of a connection in an action of the receiver. -/
def delivering (u : TaskId) (conn : Connection) : Action → Connection
  | .upload v (.chunk bytes) =>
    if v = u then { conn with delivered := conn.delivered ++ bytes } else conn
  | _ => conn

/-- An upload that another handler's step leaves alone. -/
theorem uploads_of_other (hstep : w.step sha a = some w') {u : TaskId}
    (hother : ∀ b, a ≠ .upload u b) :
    w'.uploads u = w.uploads u := by
  rcases uploadMove_of_step hstep with ⟨v, b, t', l, rfl, _, _, heffect⟩ | ⟨hsame, _⟩
  · rw [heffect.uploads, Function.update_of_ne]
    rintro rfl
    exact hother b rfl
  · rw [hsame]

/-- An upload after a step of its own has begun with it, or made a move. -/
theorem uploads_of_own {u : TaskId} {b : UploadAction} (hstep : w.step sha (.upload u b) = some w')
    {t' : UploadTask} (ht' : w'.uploads u = some t') :
    (w.uploads u = none ∧ ∃ l, UploadMove sha w none b t' l) ∨
      ∃ t l, w.uploads u = some t ∧ UploadMove sha w (some t) b t' l := by
  cases hold : w.uploads u with
  | some t =>
    rcases uploads_of_step hstep hold with ⟨_, hne⟩ | ⟨c, t₁, l, hc, _, ht₁, hmove, _⟩
    · exact absurd rfl (hne b)
    · cases hc
      cases ht'.symm.trans ht₁
      exact .inr ⟨t, l, rfl, hmove⟩
  | none =>
    rcases uploads_before hstep ht' with ht | ⟨c, l, hc, _, hmove, _⟩
    · cases hold.symm.trans ht
    · cases hc
      rw [hold] at hmove
      exact .inl ⟨rfl, l, hmove⟩

/-- What another action does is delivered to no upload. -/
theorem delivering_of_other {u : TaskId} (conn : Connection) (hother : ∀ b, a ≠ .upload u b) :
    delivering u conn a = conn := by
  unfold delivering
  split
  · rename_i v bytes
    refine if_neg ?_
    rintro rfl
    exact hother _ rfl
  · rfl

/-- A connection keeps with its upload through a step of the receiver. -/
theorem Carries.step {u : TaskId} {conn : Connection} (h : w.Carries u conn)
    (hinv : w.LifecycleInv sha) (hstep : w.step sha a = some w')
    (hbegin : ∀ x f token, a ≠ .upload u (.begin_ x f token))
    (hend : a = .upload u .streamEnd → conn.delivered = conn.wire ∧
      conn.wire.length = conn.announced) :
    w'.Carries u (delivering u conn a) := by
  -- a chunk adds to both sides, every other section keeps them
  intro t' ht'
  by_cases hown : ∃ b, a = .upload u b
  · obtain ⟨b, rfl⟩ := hown
    -- a new task has begun in this step, which is excluded
    rcases uploads_of_own hstep ht' with ⟨_, l, hmove⟩ | ⟨t, l, ht, hmove⟩
    · cases hmove
      exact absurd rfl (hbegin _ _ _)
    · obtain ⟨hfile, hbytes, hcomplete⟩ := h t ht
      have hfile' := hmove.grant_eq.1.trans hfile
      rcases hmove.bytes_eq with ⟨chunk, rfl, hbytes', hstreaming⟩ | ⟨hne, hbytes'⟩
      · have hdelivering : delivering u conn (.upload u (.chunk chunk)) =
            { conn with delivered := conn.delivered ++ chunk } := if_pos rfl
        rw [hdelivering]
        refine ⟨hfile', by rw [hbytes', hbytes], fun hcomplete' => ?_⟩
        cases hstreaming.symm.trans hcomplete'
      · have hdelivering : delivering u conn (.upload u b) = conn := by
          cases b with
          | chunk bytes => exact absurd rfl (hne bytes)
          | _ => rfl
        rw [hdelivering]
        refine ⟨hfile', hbytes'.trans hbytes, fun hcomplete' => ?_⟩
        -- the body may become complete only at its end
        rcases hmove.complete (hinv.wf u t ht) hcomplete' with hold | rfl
        · exact hcomplete hold
        · exact hend rfl
  · have hother : ∀ b, a ≠ .upload u b := fun b hb => hown ⟨b, hb⟩
    rw [uploads_of_other hstep hother] at ht'
    rw [delivering_of_other conn hother]
    exact h t' ht'

/-- What an upload was granted on stays. -/
theorem GrantedBy.step {u h : TaskId} {files : AssocMap FileId FileMetadata}
    (hgranted : w.GrantedBy u h files) (hinv : w.LifecycleInv sha) (hstep : w.step sha a = some w')
    (hbegin : ∀ x f token, a ≠ .upload u (.begin_ x f token)) : w'.GrantedBy u h files := by
  -- what a handler has accepted it accepts for good
  have hprepare : ∀ p x, w.prepares h = some p → p.accepted = some x →
      ∃ p', w'.prepares h = some p' ∧ p'.accepted = some x := by
    intro p x hp hx
    rcases prepares_of_step hstep hp with ⟨hp', _⟩ | ⟨_, p', _, _, hp', hmove⟩
    · exact ⟨p, hp', hx⟩
    · exact ⟨p', hp', (hmove.accepted_eq (hinv.prepare.wf h p hp) hx).1⟩
  intro t' ht'
  -- a grant is kept by the sections of its upload and by all others
  by_cases hown : ∃ b, a = .upload u b
  · obtain ⟨b, rfl⟩ := hown
    rcases uploads_of_own hstep ht' with ⟨_, l, hmove⟩ | ⟨t, l, ht, hmove⟩
    · cases hmove
      exact absurd rfl (hbegin _ _ _)
    · obtain ⟨p, file, hp, hx, hfile, hsize⟩ := hgranted t ht
      obtain ⟨p', hp', hx'⟩ := hprepare p _ hp hx
      rw [hmove.grant_eq.1, hmove.grant_eq.2]
      exact ⟨p', file, hp', hx', hfile, hsize⟩
  · rw [uploads_of_other hstep fun b hb => hown ⟨b, hb⟩] at ht'
    obtain ⟨p, file, hp, hx, hfile, hsize⟩ := hgranted t' ht'
    obtain ⟨p', hp', hx'⟩ := hprepare p _ hp hx
    exact ⟨p', file, hp', hx', hfile, hsize⟩

/-- A request that a handler has stays with it. -/
theorem request_of_step (hstep : w.step sha a = some w') {h : TaskId} {p : PrepareTask}
    (hp : w.prepares h = some p) : ∃ p', w'.prepares h = some p' ∧ p'.request = p.request := by
  rcases prepares_of_step hstep hp with ⟨hp', _⟩ | ⟨_, p', _, _, hp', hmove⟩
  · exact ⟨p, hp', rfl⟩
  · exact ⟨p', hp', hmove.request_eq⟩

/-- What an upload gets that begins with an id and on a file that prepare `h` was answered with. -/
theorem granted_of_begin (hinv : w.LifecycleInv sha) {u h : TaskId} {p : PrepareTask}
    {body : PrepareUploadResponse} {f : FileId} {token : Token} (hp : w.prepares h = some p)
    (hok : p.AnsweredOk body) (fresh : w.uploads u = none)
    (hstep : w.step sha (.upload u (.begin_ body.sessionId f token)) = some w') :
    w'.GrantedBy u h p.request.files ∧ ∀ conn : Connection, conn.fileId = f → conn.delivered = [] →
      w'.Carries u conn := by
  -- the task is new, so its first section has made it
  have hbegan : ∀ t', w'.uploads u = some t' →
      ∃ l, UploadMove sha w none (.begin_ body.sessionId f token) t' l := by
    intro t' ht'
    rcases uploads_of_own hstep ht' with ⟨_, hmove⟩ | ⟨t, l, ht, _⟩
    · exact hmove
    · cases fresh.symm.trans ht
  -- an upload's sections leave the handlers alone
  have hprepares : w'.prepares = w.prepares :=
    (samePrepares_of_uploadStep (step_upload hstep)).prepares
  constructor
  · intro t' ht'
    obtain ⟨l, hmove⟩ := hbegan t' ht'
    generalize hx : body.sessionId = x at hmove
    cases hmove with
    | @began s _ _ file hs verified hfile ready =>
      obtain ⟨_, hacc, _⟩ := consents_of_current hinv.prepare hs hp hok hx
      -- the session in the slot has the files that its handler granted
      have hgranted : s.files = p.grantedFiles := by
        obtain ⟨g, q, hq, hplaced⟩ := hinv.prepare.placed s hs
        have hown : q.Owns s.id := hplaced.imp id fun h => h.1
        obtain rfl : h = g := hinv.prepare.owner h g p q s.id hp hq (.inr hacc) hown
        cases hp.symm.trans hq
        rcases hplaced with hres | ⟨_, _, hfiles⟩
        · exact absurd hacc (hinv.prepare.apart h p s.id hp hres)
        · exact hfiles
      rw [hgranted] at hfile
      -- what was granted was offered
      have hoffered : p.request.files.get? f = some file := by
        unfold PrepareTask.grantedFiles at hfile
        split at hfile
        · simp [AssocMap.get?, AssocMap.empty] at hfile
        · rw [PrepareUploadRequest.acceptedFiles, AssocMap.get?_filter,
            Option.filter_eq_some_iff] at hfile
          exact hfile.1
      exact ⟨p, file, by rw [hprepares, hp], hacc, hoffered, rfl⟩
  -- nothing has been delivered and nothing has been read
  · intro conn hfile hdelivered t' ht'
    obtain ⟨l, hmove⟩ := hbegan t' ht'
    generalize body.sessionId = x at hmove
    cases hmove with
    | began =>
      refine ⟨hfile.symm, ?_, fun h => (by cases h)⟩
      rw [hdelivered]
      rfl

end World

/-! ## One step of the network -/

namespace Network

variable {sha : List UInt8 → String} {n n' : Network}

/-- The steps of the network. -/
inductive Step (sha : List UInt8 → String) (n : Network) : NetworkAction → Network → Prop
  | start {c program device peer} (fresh : n.senders c = none)
    (hfiles : program.files.isEmpty = false) :
    Step sha n (.start c program device peer)
      (n.setSender c ⟨program, device, peer, .offering, none⟩)
  | prepare {c s h pin world} (hs : n.senders c = some s) (phase : s.phase = .offering)
    (hstep : n.world.step sha (.prepare h (.checkPin s.peer pin s.request)) = some world) :
    Step sha n (.prepare c h pin)
      { n.setSender c { s with phase := .preparing h, handler := some h } with world := world }
  | prepared {c s h p reply order} (hs : n.senders c = some s) (phase : s.phase = .preparing h)
    (hp : n.world.prepares h = some p) (hreply : p.reply? = some reply)
    (horder : ∀ response, LocalSendClient.prepareUpload reply = .ok response →
      order.Perm response.files.entries) :
    Step sha n (.prepared c order)
      (n.setSender c { s with phase := s.program.prepared order (LocalSendClient.prepareUpload reply) })
  | unknownFile {c s session file token rest u opened} (hs : n.senders c = some s)
    (phase : s.phase = .sending session ((file, token) :: rest))
    (hsource : s.program.sources.get? file = none) :
    Step sha n (.upload c u opened)
      (n.finish c s (.error (.message ("File not found for ID: " ++ file.val))))
  | upload {c s session file token rest u opened source world} (hs : n.senders c = some s)
    (phase : s.phase = .sending session ((file, token) :: rest))
    (hsource : s.program.sources.get? file = some source) (fresh : u ∉ n.begun)
    (hstep : n.world.step sha (.upload u (.begin_ session file token)) = some world) :
    Step sha n (.upload c u opened)
      { n.setSender c { s with phase := .streaming session file u rest } with
        world := world
        connections := Function.update n.connections u
          (some ⟨c, file, (source.read opened).1, (source.read opened).2, []⟩)
        begun := u :: n.begun }
  | uploaded {c s session file u rest status} (hs : n.senders c = some s)
    (phase : s.phase = .streaming session file u rest)
      (hstatus : n.world.uploadAnswer u = some status) :
    Step sha n (.uploaded c)
      (n.setSender c { s with
        phase := .uploaded session rest (LocalSendClient.uploadFile (.response status.asU16 none)) })
  | fail {c s e} (hs : n.senders c = some s) (he : e = .io ∨ e = .reqwest) :
    Step sha n (.fail c e) (n.finish c s (.error (.client e)))
  | receiver {a world} (allowed : n.allows a = true) (hstep : n.world.step sha a = some world) :
    Step sha n (.receiver a)
      { n with world := world, connections := n.delivers a, begun := a.begins ++ n.begun }

/-- Every step of the network is one of these. -/
theorem step_cases {a : NetworkAction} (hstep : n.step sha a = some n') : Step sha n a n' := by
  cases a with
  -- each action of the network asks for a sender in its phase
  | start c program device peer =>
    simp only [step, Option.isNone_iff_eq_none, Option.ite_none_right_eq_some,
      Option.some.injEq] at hstep
    obtain ⟨⟨fresh, hfiles⟩, rfl⟩ := hstep
    exact .start fresh hfiles
  | prepare c h pin =>
    simp only [step] at hstep
    split at hstep
    · split at hstep
      · rw [Option.map_eq_some_iff] at hstep
        obtain ⟨world, hworld, rfl⟩ := hstep
        exact .prepare (by assumption) (by assumption) hworld
      · cases hstep
    · cases hstep
  | prepared c order =>
    simp only [step] at hstep
    split at hstep
    · split at hstep
      · simp only [Option.bind_eq_some_iff, Option.ite_none_right_eq_some,
          Option.some.injEq] at hstep
        obtain ⟨reply, ⟨p, hp, hreply⟩, horder, rfl⟩ := hstep
        refine .prepared (by assumption) (by assumption) hp hreply fun response hresponse => ?_
        rw [hresponse] at horder
        simpa [Except.toOption] using horder
      · cases hstep
    · cases hstep
  | upload c u opened =>
    simp only [step] at hstep
    split at hstep
    · split at hstep
      -- an unknown file ends the send, a known one begins its upload
      · unfold upload at hstep
        split at hstep
        · cases hstep
          exact .unknownFile (by assumption) (by assumption) (by assumption)
        · rw [Option.ite_none_left_eq_some, Option.map_eq_some_iff] at hstep
          obtain ⟨fresh, world, hworld, rfl⟩ := hstep
          exact .upload (by assumption) (by assumption) (by assumption) fresh hworld
      · cases hstep
    · cases hstep
  | uploaded c =>
    simp only [step] at hstep
    split at hstep
    · split at hstep
      · rw [Option.map_eq_some_iff] at hstep
        obtain ⟨status, hstatus, rfl⟩ := hstep
        exact .uploaded (by assumption) (by assumption) hstatus
      · cases hstep
    · cases hstep
  | fail c e =>
    simp only [step] at hstep
    split at hstep
    · split at hstep
      -- what has finished does not fail
      · cases hstep
      · rw [Option.ite_none_right_eq_some] at hstep
        obtain ⟨he, hstep⟩ := hstep
        cases hstep
        exact .fail (by assumption) he
    · cases hstep
  | receiver a =>
    simp only [step, Option.ite_none_right_eq_some, Option.map_eq_some_iff] at hstep
    obtain ⟨allowed, world, hworld, rfl⟩ := hstep
    exact .receiver allowed hworld

/-- A step of the network is a step of the receiver, or none. -/
theorem Step.world {a : NetworkAction} (h : Step sha n a n') :
    n'.world = n.world ∨ ∃ b, n.world.step sha b = some n'.world := by
  cases h with
  | prepare _ _ hstep => exact .inr ⟨_, hstep⟩
  | upload _ _ _ _ hstep => exact .inr ⟨_, hstep⟩
  | receiver _ hstep => exact .inr ⟨_, hstep⟩
  | start | prepared | unknownFile | uploaded | fail => exact .inl rfl

/-- Whatever the senders do, the receiver runs as by itself. -/
theorem network_simulates (sha : List UInt8 → String) :
    (network sha).Simulation (receiver sha) Network.world where
  init := by
    rintro _ ⟨c, rfl⟩
    exact .init ⟨c, rfl⟩
  step n a n' _ hstep := by
    rcases (step_cases hstep).world with heq | ⟨b, hb⟩
    · exact ⟨[], by rw [heq]; rfl⟩
    · refine ⟨[b], ?_⟩
      rw [TransitionSystem.exec_singleton]
      exact hb

/-! ## What has been delivered -/

/-- File `f` of sender `c` has been committed for session `x`: the bytes that an upload of this
    sender read, as many as were offered. -/
def Delivered (n : Network) (c : Nat) (s : Sender) (x : SessionId) (f : FileId) : Prop :=
  ∃ u conn file source opened time path, n.connections u = some conn ∧ conn.sender = c ∧
    s.program.files.get? f = some file ∧ s.program.sources.get? f = some source ∧
    source.read opened = (file.size, conn.source) ∧ file.size ≤ conn.source.length ∧
    (time, .fileCommitted u x f path (conn.source.take file.size)) ∈ n.world.log

/-- The offer of a sender was answered with session `x` and tokens, and the accepted files that are
    not among those `left` have been delivered. -/
def Accepted (n : Network) (c : Nat) (s : Sender) (x : SessionId) (left : List FileId) : Prop :=
  ∃ h p body, s.handler = some h ∧ n.world.prepares h = some p ∧ p.AnsweredOk body ∧
    body.sessionId = x ∧ ∀ f, p.Consents f → f ∈ left ∨ n.Delivered c s x f

/-- The offer of a sender was granted, and each file that was accepted is delivered; or it was a
    message, with whose text the event has `Arrived` that its handler sends. -/
def SentIf (n : Network) (Arrived : TaskId → ServerEvent → Prop) (c : Nat) (s : Sender) : Prop :=
  ∃ h p, s.handler = some h ∧ n.world.prepares h = some p ∧ p.request = s.request ∧ p.Granted ∧
    ((∃ body, p.AnsweredOk body ∧ ∀ f, p.Consents f → n.Delivered c s body.sessionId f) ∨
      ∃ text x, p.phase = .answered .noContent none ∧ s.request.messageText = some text ∧
        p.accepted = some x ∧ Arrived h (.textReceived x text s.device.deviceAlias))

/-- All that was granted is delivered, but for the text. -/
def Concluded (n : Network) : Nat → Sender → Prop := n.SentIf fun _ _ => True

/-- What is known of a connection. -/
structure ConnectionInv (n : Network) (u : TaskId) (conn : Connection) : Prop where
  begun : u ∈ n.begun
  carries : n.world.Carries u conn
  sender : ∃ s h source opened, n.senders conn.sender = some s ∧ s.handler = some h ∧
    s.program.sources.get? conn.fileId = some source ∧
    source.read opened = (conn.announced, conn.source) ∧ n.world.GrantedBy u h s.program.files

/-- What is known of a sender. -/
structure SenderInv (n : Network) (c : Nat) (s : Sender) : Prop where
  offers : s.program.files.isEmpty = false
  unhandled : s.phase = .offering → s.handler = none
  handled : ∀ h, s.handler = some h → ∃ p, n.world.prepares h = some p ∧ p.request = s.request
  preparing : ∀ h, s.phase = .preparing h → s.handler = some h
  sending : ∀ x rest, s.phase = .sending x rest → n.Accepted c s x (rest.map Prod.fst)
  streaming : ∀ x f u rest, s.phase = .streaming x f u rest →
    n.Accepted c s x (f :: rest.map Prod.fst) ∧
      ∃ conn, n.connections u = some conn ∧ conn.sender = c ∧ conn.fileId = f
  concluded : s.phase = .finished (.ok ()) → n.Concluded c s

structure Inv (n : Network) : Prop where
  connections : ∀ u conn, n.connections u = some conn → n.ConnectionInv u conn
  senders : ∀ c s, n.senders c = some s → n.SenderInv c s
  /-- The ids that the receiver draws are not empty. -/
  issued : ∀ x ∈ n.world.issued, x.val ≠ ""

/-! ## What stays -/

/-- What a step of the network keeps: the log, the answers of prepares and their requests, and what
    the connections are about. -/
structure Extends (n n' : Network) : Prop where
  log : ∀ e ∈ n.world.log, e ∈ n'.world.log
  answered : ∀ h p status body, n.world.prepares h = some p → p.phase = .answered status body →
    n'.world.prepares h = some p
  request : ∀ h p, n.world.prepares h = some p →
    ∃ p', n'.world.prepares h = some p' ∧ p'.request = p.request
  connections : ∀ u conn, n.connections u = some conn → ∃ conn', n'.connections u = some conn' ∧
    conn'.sender = conn.sender ∧ conn'.fileId = conn.fileId ∧ conn'.source = conn.source

/-- What only grows in a step: a step of the receiver keeps all answers and observations, and the
    connections stay. -/
theorem extends_of_world {n n' : Network}
    (hworld : n'.world = n.world ∨ ∃ b, n.world.step sha b = some n'.world)
    (hconnections : ∀ u conn, n.connections u = some conn → ∃ conn', n'.connections u = some conn' ∧
      conn'.sender = conn.sender ∧ conn'.fileId = conn.fileId ∧ conn'.source = conn.source) :
    n.Extends n' := by
  rcases hworld with heq | ⟨b, hb⟩
  · refine ⟨?_, ?_, ?_, hconnections⟩
    · rw [heq]
      exact fun _ h => h
    · rw [heq]
      exact fun _ _ _ _ h _ => h
    · rw [heq]
      exact fun _ p h => ⟨p, h, rfl⟩
  · exact ⟨fun _ => World.log_mono hb, fun _ _ _ _ => World.answered_of_step hb,
      fun _ _ => World.request_of_step hb, hconnections⟩

/-- What the connections deliver after an action of the receiver. -/
theorem delivers_eq (n : Network) (a : Action) (u : TaskId) :
    n.delivers a u = (n.connections u).map fun conn => World.delivering u conn a := by
  -- only a chunk changes a connection, and only that of its own upload
  have hkeep : (∀ conn, World.delivering u conn a = conn) →
      n.connections u = (n.connections u).map fun conn => World.delivering u conn a := by
    intro hsame
    cases n.connections u with
    | none => rfl
    | some conn => exact congrArg some (hsame conn).symm
  cases a with
  | upload v b =>
    cases b with
    | chunk bytes =>
      by_cases hv : v = u
      · subst hv
        cases hconn : n.connections v with
        | none => simp [delivers, hconn]
        | some conn => simp [delivers, World.delivering, hconn]
      · have hrest : n.delivers (.upload v (.chunk bytes)) u = n.connections u := by
          cases hconn : n.connections v with
          | none => simp [delivers, hconn]
          | some conn => simp [delivers, hconn, Function.update_of_ne (Ne.symm hv)]
        rw [hrest]
        exact hkeep fun conn => if_neg hv
    | _ => exact hkeep fun _ => rfl
  | _ => exact hkeep fun _ => rfl

/-- A connection delivers more of the same upload. -/
theorem delivering_same (u : TaskId) (conn : Connection) (a : Action) :
    (World.delivering u conn a).sender = conn.sender ∧
      (World.delivering u conn a).fileId = conn.fileId ∧
      (World.delivering u conn a).announced = conn.announced ∧
      (World.delivering u conn a).source = conn.source := by
  unfold World.delivering
  split
  · split <;> exact ⟨rfl, rfl, rfl, rfl⟩
  · exact ⟨rfl, rfl, rfl, rfl⟩

/-- Every step of the network only adds to what has been decided. -/
theorem extends_of_step {a : NetworkAction} (hinv : n.Inv) (h : Step sha n a n') :
    n.Extends n' := by
  refine extends_of_world h.world fun u conn hconn => ?_
  cases h with
  | @upload c s session file token rest v opened source world hs phase hsource fresh hstep =>
    have hne : u ≠ v := by
      rintro rfl
      exact fresh (hinv.connections u conn hconn).begun
    exact ⟨conn, (Function.update_of_ne hne ..).trans hconn, rfl, rfl, rfl⟩
  | @receiver a world allowed hstep =>
    obtain ⟨hsender, hfile, _, hsource⟩ := delivering_same u conn a
    have hdelivers := delivers_eq n a u
    rw [hconn] at hdelivers
    exact ⟨_, hdelivers, hsender, hfile, hsource⟩
  | start | prepare | prepared | unknownFile | uploaded | fail => exact ⟨conn, hconn, rfl, rfl, rfl⟩

/-- What is delivered stays delivered. -/
theorem Delivered.mono (hext : n.Extends n') {c : Nat} {s : Sender} {x : SessionId} {f : FileId}
    (h : n.Delivered c s x f) : n'.Delivered c s x f := by
  obtain ⟨u, conn, file, source, opened, time, path, hconn, hsender, hfile, hsource, hread, hsize,
    hmem⟩ := h
  obtain ⟨conn', hconn', hsender', _, hsource'⟩ := hext.connections u conn hconn
  rw [← hsource'] at hread hsize hmem
  exact ⟨u, conn', file, source, opened, time, path, hconn', hsender'.trans hsender, hfile, hsource,
    hread, hsize, hext.log _ hmem⟩

/-- What is accepted stays accepted. -/
theorem Accepted.mono (hext : n.Extends n') {c : Nat} {s : Sender} {x : SessionId}
    {left : List FileId} (h : n.Accepted c s x left) : n'.Accepted c s x left := by
  obtain ⟨g, p, body, hg, hp, hok, hx, hfiles⟩ := h
  exact ⟨g, p, body, hg, hext.answered g p _ _ hp hok.2, hok, hx,
    fun f hf => (hfiles f hf).imp id (Delivered.mono hext)⟩

/-- What is known of a sender stays so. -/
theorem SenderInv.mono (hext : n.Extends n') {c : Nat} {s : Sender} (h : n.SenderInv c s) :
    n'.SenderInv c s where
  offers := h.offers
  -- what a sender relies on at the receiver outlasts the step
  unhandled := h.unhandled
  handled g hg := by
    obtain ⟨p, hp, hrequest⟩ := h.handled g hg
    obtain ⟨p', hp', hsame⟩ := hext.request g p hp
    exact ⟨p', hp', hsame.trans hrequest⟩
  preparing := h.preparing
  sending x rest hphase := (h.sending x rest hphase).mono hext
  streaming x f u rest hphase := by
    obtain ⟨haccepted, conn, hconn, hsender, hfile⟩ := h.streaming x f u rest hphase
    obtain ⟨conn', hconn', hsender', hfile', _⟩ := hext.connections u conn hconn
    exact ⟨haccepted.mono hext, conn', hconn', hsender'.trans hsender, hfile'.trans hfile⟩
  concluded hphase := by
    obtain ⟨g, p, hg, hp, hrequest, hgranted, hcases⟩ := h.concluded hphase
    rcases hcases with ⟨body, hok, hfiles⟩ | ⟨text, x, hanswered, hmessage⟩
    · exact ⟨g, p, hg, hext.answered g p _ _ hp hok.2, hrequest, hgranted,
        .inl ⟨body, hok, fun f hf => (hfiles f hf).mono hext⟩⟩
    · exact ⟨g, p, hg, hext.answered g p _ _ hp hanswered, hrequest, hgranted,
        .inr ⟨text, x, hanswered, hmessage⟩⟩

/-! ## Connections through a step -/

/-- A sender with a handler keeps it, and its program. -/
theorem senders_of_step {a : NetworkAction} (hinv : n.Inv) (h : Step sha n a n') {c : Nat}
    {s : Sender} {g : TaskId} (hs : n.senders c = some s) (hg : s.handler = some g) :
    ∃ s', n'.senders c = some s' ∧ s'.handler = some g ∧ s'.program = s.program := by
  -- the sender that acts keeps both; it has no handler yet where it gets one
  have hupdate : ∀ (d : Nat) (s₀ s₁ : Sender), n.senders d = some s₀ →
      (s₀.handler = some g → s₁.handler = some g ∧ s₁.program = s₀.program) →
      ∃ s', Function.update n.senders d (some s₁) c = some s' ∧ s'.handler = some g ∧
        s'.program = s.program := by
    intro d s₀ s₁ hd hkeep
    by_cases hc : c = d
    · subst hc
      cases hs.symm.trans hd
      obtain ⟨hhandler, hprogram⟩ := hkeep hg
      exact ⟨s₁, Function.update_self .., hhandler, hprogram⟩
    · exact ⟨s, (Function.update_of_ne hc ..).trans hs, hg, rfl⟩
  cases h with
  | @start d program device peer fresh =>
    -- a number that is in use starts no sender
    have hc : c ≠ d := by
      rintro rfl
      cases fresh.symm.trans hs
    exact ⟨s, (Function.update_of_ne hc ..).trans hs, hg, rfl⟩
  | prepare hd phase =>
    -- what is about to offer has no handler yet
    refine hupdate _ _ _ hd fun hhandler => ?_
    cases ((hinv.senders _ _ hd).unhandled phase).symm.trans hhandler
  | prepared hd => exact hupdate _ _ _ hd fun h => ⟨h, rfl⟩
  | unknownFile hd => exact hupdate _ _ _ hd fun h => ⟨h, rfl⟩
  | upload hd => exact hupdate _ _ _ hd fun h => ⟨h, rfl⟩
  | uploaded hd => exact hupdate _ _ _ hd fun h => ⟨h, rfl⟩
  | fail hd => exact hupdate _ _ _ hd fun h => ⟨h, rfl⟩
  | receiver => exact ⟨s, hs, hg, rfl⟩

/-- What is known of a connection stays so in a step of the receiver that does not begin its upload
    again, and ends it only when all has arrived. -/
theorem ConnectionInv.of_step {a : NetworkAction} (hinv : n.Inv) (hlife : n.world.LifecycleInv sha)
    (h : Step sha n a n') {u : TaskId} {conn : Connection} (hconn : n.ConnectionInv u conn)
    {b : Action} (hb : n.world.step sha b = some n'.world) (hbegun : u ∈ n'.begun)
    (hbegin : ∀ x f token, b ≠ .upload u (.begin_ x f token))
    (hend : b = .upload u .streamEnd → conn.delivered = conn.wire ∧
      conn.wire.length = conn.announced) :
    n'.ConnectionInv u (World.delivering u conn b) := by
  obtain ⟨hsender, hfile, hannounced, hsource⟩ := delivering_same u conn b
  obtain ⟨s, g, source, opened, hs, hg, hsrc, hread, hgranted⟩ := hconn.sender
  -- the sender of the connection is still there, with its handler and its program
  obtain ⟨s', hs', hg', hprogram⟩ := senders_of_step hinv h hs hg
  refine ⟨hbegun, hconn.carries.step hlife hb hbegin hend, s', g, source, opened, ?_, hg', ?_, ?_, ?_⟩
  · rw [hsender]
    exact hs'
  · rw [hfile, hprogram]
    exact hsrc
  · rw [hannounced, hsource]
    exact hread
  · rw [hprogram]
    exact hgranted.step hlife hb hbegin

/-- It stays so in a step of a sender. -/
theorem ConnectionInv.of_same {a : NetworkAction} (hinv : n.Inv) (h : Step sha n a n') {u : TaskId}
    {conn : Connection} (hconn : n.ConnectionInv u conn) (hworld : n'.world = n.world)
    (hbegun : n'.begun = n.begun) : n'.ConnectionInv u conn := by
  obtain ⟨s, g, source, opened, hs, hg, hsrc, hread, hgranted⟩ := hconn.sender
  obtain ⟨s', hs', hg', hprogram⟩ := senders_of_step hinv h hs hg
  refine ⟨hbegun ▸ hconn.begun, hworld ▸ hconn.carries, s', g, source, opened, hs', hg', ?_, hread, ?_⟩
  · rw [hprogram]
    exact hsrc
  · rw [hprogram, hworld]
    exact hgranted

/-- Every connection keeps with its upload. -/
theorem connectionInv_step {a : NetworkAction} (hinv : n.Inv) (hlife : n.world.LifecycleInv sha)
    (h : Step sha n a n') {u : TaskId} {conn' : Connection}
    (hconn' : n'.connections u = some conn') :
    n'.ConnectionInv u conn' := by
  have hstep := h
  cases h with
  -- these leave the connections as they were
  | start | prepared | unknownFile | uploaded | fail =>
    exact (hinv.connections u conn' hconn').of_same hinv hstep rfl rfl
  -- an offer changes the receiver's world, no connection
  | prepare _ _ hb =>
    have hconn := hinv.connections u conn' hconn'
    exact hconn.of_step hinv hlife hstep hb hconn.begun (by simp) (by simp)
  | @upload c s session file token rest v opened source world hs phase hsource fresh hb =>
    by_cases hu : u = v
    · -- the connection of the upload that begins
      subst hu
      cases (Function.update_self ..).symm.trans hconn'
      have hsender := hinv.senders c s hs
      obtain ⟨g, p, body, hg, hp, hok, rfl, _⟩ := hsender.sending _ _ phase
      obtain ⟨q, hq, hrequest⟩ := hsender.handled g hg
      cases hp.symm.trans hq
      have hfresh : n.world.uploads u = none := by
        cases World.step_upload hb with
        -- the handler's grant is what the upload is given
        | begin_ fresh => exact fresh
      obtain ⟨hgranted, hcarries⟩ := World.granted_of_begin hlife hp hok hfresh hb
      rw [hrequest] at hgranted
      exact ⟨List.mem_cons_self .., hcarries _ rfl rfl, _, g, source, opened,
        Function.update_self .., hg, hsource, rfl, hgranted⟩
    · have hold : n.connections u = some conn' := (Function.update_of_ne hu ..).symm.trans hconn'
      have hconn := hinv.connections u conn' hold
      -- the lease of another upload is no step of this one
      have hne : ∀ b, Action.upload v (.begin_ session file token) ≠ .upload u b := by
        intro b hb
        cases hb
        exact hu rfl
      have hkeep := hconn.of_step hinv hlife hstep hb (List.mem_cons_of_mem _ hconn.begun)
        (fun x f t => hne _) (fun hend => absurd hend (hne _))
      rwa [World.delivering_of_other conn' hne] at hkeep
  | @receiver b world allowed hb =>
    -- the connection was there before, and the action is one that it allows
    have hdelivers : n.delivers b u = some conn' := hconn'
    rw [delivers_eq, Option.map_eq_some_iff] at hdelivers
    obtain ⟨conn, hold, rfl⟩ := hdelivers
    have hconn := hinv.connections u conn hold
    refine hconn.of_step hinv hlife hstep hb (List.mem_append_right _ hconn.begun) ?_ ?_
    -- no upload begins twice
    · rintro x f token rfl
      simp only [allows, decide_eq_true_eq] at allowed
      exact allowed hconn.begun
    -- the body ends after everything has been delivered
    · rintro rfl
      simp only [allows, hold, Option.all_some, Bool.and_eq_true, decide_eq_true_eq] at allowed
      exact allowed

/-! ## Senders through a step -/

/-- The sender that acts has a new phase. -/
theorem SenderInv.setPhase {c : Nat} {s : Sender} (h : n.SenderInv c s) {phase : SendPhase}
    (hoffering : phase ≠ .offering) (hpreparing : ∀ g, phase ≠ .preparing g)
    (hsending : ∀ x rest, phase = .sending x rest → n.Accepted c s x (rest.map Prod.fst))
    (hstreaming : ∀ x f u rest, phase = .streaming x f u rest →
      n.Accepted c s x (f :: rest.map Prod.fst) ∧
        ∃ conn, n.connections u = some conn ∧ conn.sender = c ∧ conn.fileId = f)
    (hconcluded : phase = .finished (.ok ()) → n.Concluded c s) :
    n.SenderInv c { s with phase := phase } where
  offers := h.offers
  unhandled hphase := absurd hphase hoffering
  handled := h.handled
  preparing g hphase := absurd hphase (hpreparing g)
  sending := hsending
  streaming := hstreaming
  concluded := hconcluded

/-- A sender that fails claims nothing. -/
theorem SenderInv.failed {c : Nat} {s : Sender} (h : n.SenderInv c s) (e : SendError) :
    n.SenderInv c { s with phase := .finished (.error e) } :=
  h.setPhase (by simp) (by simp) (by simp) (by simp) (by simp)

/-- When no accepted file is left, all has been sent. -/
theorem Accepted.concluded {c : Nat} {s : Sender} {x : SessionId} (hacc : n.Accepted c s x [])
    (h : n.SenderInv c s) (hprepare : n.world.PrepareInv) : n.Concluded c s := by
  obtain ⟨g, p, body, hg, hp, hok, rfl, hfiles⟩ := hacc
  obtain ⟨q, hq, hrequest⟩ := h.handled g hg
  cases hp.symm.trans hq
  obtain ⟨hgranted, _, _⟩ := hok.granted (hprepare.wf g p hp)
  refine ⟨g, p, hg, hp, hrequest, hgranted, .inl ⟨body, hok, fun f hf => ?_⟩⟩
  exact (hfiles f hf).resolve_left (List.not_mem_nil)

/-- The head of the loop over the accepted files. -/
theorem SenderInv.loop {c : Nat} {s : Sender} (h : n.SenderInv c s) (hprepare : n.world.PrepareInv)
    {x : SessionId} {rest : List (FileId × Token)} (hacc : n.Accepted c s x (rest.map Prod.fst)) :
    n.SenderInv c { s with phase := .loop x rest } := by
  cases rest with
  | nil =>
    apply h.setPhase <;> simp only [SendPhase.loop, ne_eq, reduceCtorEq, not_false_eq_true,
      implies_true, false_implies, forall_const]
    exact hacc.concluded h hprepare
  | cons next rest =>
    apply h.setPhase <;> simp only [SendPhase.loop, ne_eq, reduceCtorEq, not_false_eq_true,
      implies_true, false_implies]
    intro y left hphase
    cases hphase
    exact hacc

/-- A sender is told what its handler has answered, if this was not dropped. -/
theorem reply_cases {p : PrepareTask} {reply : Reply PrepareUploadResponse}
    (h : p.reply? = some reply) :
    ∃ status body, p.dropped = false ∧ p.phase = .answered status body ∧
      reply = .response status.asU16 body := by
  unfold PrepareTask.reply? at h
  split at h
  · rename_i status body hphase
    rw [Option.ite_none_left_eq_some, Bool.not_eq_true] at h
    obtain ⟨live, h⟩ := h
    cases h
    exact ⟨status, body, live, hphase, rfl⟩
  · cases h

/-- `prepare_upload` succeeds on a 200 and on a 204. -/
theorem prepareUpload_ok {status : StatusCode} {body : Option PrepareUploadResponse}
    {response : PrepareUploadResponse}
    (h : LocalSendClient.prepareUpload (.response status.asU16 body) = .ok response) :
    (status = .ok ∧ body = some response) ∨ (status = .noContent ∧ response = ⟨⟨""⟩, .empty⟩) := by
  cases status with
  | ok =>
    cases body with
    | none => cases h
    | some response =>
      cases h
      exact .inl ⟨rfl, rfl⟩
  | noContent =>
    cases h
    exact .inr ⟨rfl, rfl⟩
  | _ => cases h

/-- A single file has the id it was offered under. -/
theorem contains_singleton {id f : FileId} {file : FileMetadata}
    (h : (AssocMap.singleton id file).contains f = true) : f = id := by
  rw [AssocMap.contains_iff_mem_keys] at h
  exact List.mem_singleton.mp h

/-- What an answer to the offer of a sender comes to. -/
inductive PreparedAs (n : Network) (s : Sender) (p : PrepareTask) : SendPhase → Prop
  | accepted {response left} (hok : p.AnsweredOk response)
    (hleft : ∀ f, p.Consents f ↔ f ∈ left.map Prod.fst) :
    PreparedAs n s p (.loop response.sessionId left)
  | message {text x} (hphase : p.phase = .answered .noContent none) (hgranted : p.Granted)
    (htext : s.request.messageText = some text) (hx : p.accepted = some x) :
    PreparedAs n s p (.finished (.ok ()))
  | failed {status body e} (hphase : p.phase = .answered status body)
    (he : LocalSendClient.prepareUpload (.response status.asU16 body) = .error e) :
    PreparedAs n s p (.finished (.error (.client e)))

/-- A 200 comes with a session and tokens for the accepted files. -/
theorem preparedAs_of_accepted {s : Sender} {p : PrepareTask} {response : PrepareUploadResponse}
    (hrequest : p.request = s.request) (hwf : p.Wf) (hok : p.AnsweredOk response)
    (hid : response.sessionId.val ≠ "") {order : List (FileId × Token)}
    (hperm : order.Perm response.files.entries) :
    n.PreparedAs s p (s.program.prepared order (.ok response)) := by
  obtain ⟨hgranted, _, hfiles⟩ := hok.granted hwf
  -- where only one file was offered, it is the one that was accepted
  have hsingle : ∀ id file, s.program.files = .singleton id file →
      ∃ token, response.files.get? id = some token ∧
        ∀ f, p.Consents f ↔ f ∈ [(id, token)].map Prod.fst := by
    intro id file hoffer
    have hall : ∀ f, p.Consents f → f = id := by
      intro f hf
      have hmem := hf.1
      rw [hrequest, Sender.request, hoffer] at hmem
      exact contains_singleton hmem
    obtain ⟨f, hf⟩ := hgranted.exists_consents
    obtain rfl := hall f hf
    obtain ⟨token, htoken⟩ := AssocMap.contains_iff.mp ((hfiles f).mpr hf)
    refine ⟨token, htoken,
      fun f' => ⟨fun hf' => List.mem_singleton.mpr (hall f' hf'), fun hmem => ?_⟩⟩
    cases List.mem_singleton.mp hmem
    exact hf
  cases hprogram : s.program with
  -- `execute` takes the files in the order that it got
  | execute inputs =>
    have hnext : (SendProgram.execute inputs).prepared order (.ok response) =
        .loop response.sessionId order := if_neg hid
    rw [hnext]
    refine .accepted hok fun f => ?_
    rw [← hfiles f, AssocMap.contains_iff_mem_keys]
    exact (hperm.map Prod.fst).mem_iff.symm
  -- one file was offered, so its token is in the answer
  | sendTextMessage id message =>
    obtain ⟨token, htoken, hleft⟩ := hsingle id _ (by rw [hprogram]; rfl)
    have hnext : (SendProgram.sendTextMessage id message).prepared order (.ok response) =
        .loop response.sessionId [(id, token)] := by
      simp only [SendProgram.prepared, if_neg hid, htoken]
    rw [hnext]
    exact .accepted hok hleft
  | sendFile id path length mimeType =>
    obtain ⟨token, htoken, hleft⟩ := hsingle id _ (by rw [hprogram]; rfl)
    have hnext : (SendProgram.sendFile id path length mimeType).prepared order (.ok response) =
        .loop response.sessionId [(id, token)] := by
      simp only [SendProgram.prepared, htoken]
    rw [hnext]
    exact .accepted hok hleft

/-- A 204 acknowledges a message, since something was offered. -/
theorem preparedAs_of_message {g : TaskId} {s : Sender} {p : PrepareTask}
    {body : Option PrepareUploadResponse} (hanswer : n.world.AnswerInv sha)
    (hoffers : s.program.files.isEmpty = false) (hp : n.world.prepares g = some p)
    (hrequest : p.request = s.request) (hphase : p.phase = .answered .noContent body)
    (order : List (FileId × Token)) :
    n.PreparedAs s p (s.program.prepared order (.ok ⟨⟨""⟩, .empty⟩)) := by
  have hwf := hanswer.lifecycle.prepare.wf g p hp
  obtain ⟨_, hcause⟩ := hanswer.cause g p _ _ hp hphase
  rcases hcause with hempty | ⟨hgranted, hmessage⟩
  · rw [hrequest] at hempty
    cases hoffers.symm.trans hempty
  -- the session of the message was built
  simp only [PrepareTask.Wf, hphase] at hwf
  rcases hwf with ⟨_, _, _, hnot⟩ | ⟨_, hacc, _, rfl, _⟩ | ⟨_, hok, _⟩
  · exact absurd rfl (hnot hgranted.2.1)
  · obtain ⟨x, hx⟩ := Option.ne_none_iff_exists'.mp hacc
    obtain ⟨text, htext⟩ := Option.isSome_iff_exists.mp hmessage
    rw [hrequest] at htext
    have hdone : n.PreparedAs s p (.finished (.ok ())) := .message hphase hgranted htext hx
    cases hprogram : s.program with
    | execute | sendTextMessage => exact hdone
    | sendFile id path length mimeType =>
      -- a file has no preview, so it is no message
      have hnone : s.request.messageText = none := by
        unfold Sender.request
        rw [hprogram]
        rfl
      cases hnone.symm.trans htext
  · cases hok

/-- What a program does with the answer to its offer. -/
theorem SenderInv.preparedAs {c : Nat} {s : Sender} (h : n.SenderInv c s) (hinv : n.Inv)
    (hanswer : n.world.AnswerInv sha) {g : TaskId} (hphase : s.phase = .preparing g)
    {p : PrepareTask} (hp : n.world.prepares g = some p) {reply : Reply PrepareUploadResponse}
    (hreply : p.reply? = some reply) {order : List (FileId × Token)}
    (horder : ∀ response, LocalSendClient.prepareUpload reply = .ok response →
      order.Perm response.files.entries) :
    p.request = s.request ∧
      n.PreparedAs s p (s.program.prepared order (LocalSendClient.prepareUpload reply)) := by
  have hprepare := hanswer.lifecycle.prepare
  obtain ⟨q, hq, hrequest⟩ := h.handled g (h.preparing g hphase)
  cases hp.symm.trans hq
  refine ⟨hrequest, ?_⟩
  obtain ⟨status, body, live, hanswered, rfl⟩ := reply_cases hreply
  -- an error ends the send, an answer 200 or 204 goes on
  cases hresult : LocalSendClient.prepareUpload (.response status.asU16 body) with
  | error e => exact .failed hanswered hresult
  | ok response =>
    have hperm := horder response hresult
    rcases prepareUpload_ok hresult with ⟨rfl, rfl⟩ | ⟨rfl, rfl⟩
    · have hok : p.AnsweredOk response := ⟨live, hanswered⟩
      obtain ⟨_, hacc, _⟩ := hok.granted (hprepare.wf g p hp)
      have hid := hinv.issued _ (hprepare.issued g p _ hp (.inr hacc))
      exact preparedAs_of_accepted hrequest (hprepare.wf g p hp) hok hid hperm
    · exact preparedAs_of_message hanswer h.offers hp hrequest hanswered order

/-- What a program does with the answer to its offer keeps the invariant. -/
theorem SenderInv.prepared {c : Nat} {s : Sender} (h : n.SenderInv c s)
    (hprepare : n.world.PrepareInv) {g : TaskId} (hphase : s.phase = .preparing g) {p : PrepareTask}
    (hp : n.world.prepares g = some p) {phase : SendPhase} (hrequest : p.request = s.request)
    (hprepared : n.PreparedAs s p phase) : n.SenderInv c { s with phase := phase } := by
  have hg := h.preparing g hphase
  cases hprepared with
  | accepted hok hleft =>
    exact h.loop hprepare ⟨g, p, _, hg, hp, hok, rfl, fun f hf => .inl ((hleft f).mp hf)⟩
  | @message text x hanswered hgranted htext hx =>
    refine h.setPhase (by simp) (by simp) (by simp) (by simp) fun _ => ?_
    exact ⟨g, p, hg, hp, hrequest, hgranted, .inr ⟨text, x, hanswered, htext, hx, trivial⟩⟩
  | failed => exact h.failed _

/-- What an upload that is answered 200 has delivered. -/
theorem delivered_of_answered (hinv : n.Inv) (hanswer : n.world.AnswerInv sha) {c : Nat}
    {s : Sender} (hs : n.senders c = some s) {x : SessionId} {left : List FileId}
    (hacc : n.Accepted c s x left) {u : TaskId} {conn : Connection}
    (hconn : n.connections u = some conn) (hsender : conn.sender = c) {time : Nat}
    (hok : (time, .uploadAnswered u .ok) ∈ n.world.log) : n.Delivered c s x conn.fileId := by
  have hconnInv := hinv.connections u conn hconn
  obtain ⟨s', g, source, opened, hs', hg, hsource, hread, hgranted⟩ := hconnInv.sender
  subst hsender
  cases hs.symm.trans hs'
  obtain ⟨t, ht, hphase⟩ := (hanswer.answered time u _ hok).2 rfl
  obtain ⟨hfile, hbytes, hcomplete⟩ := hconnInv.carries t ht
  obtain ⟨hwire, hlength⟩ := hcomplete (by rw [hphase]; rfl)
  obtain ⟨p, file, hp, hx, hoffered, hsize⟩ := hgranted t ht
  -- the session is the one that the sender was told
  obtain ⟨g', p', body, hg', hp', hbody, rfl, _⟩ := hacc
  cases hg.symm.trans hg'
  cases hp.symm.trans hp'
  obtain ⟨_, hx', _⟩ := hbody.granted (hanswer.lifecycle.prepare.wf g p hp)
  have hsame : t.grant.sessionId = body.sessionId := Option.some.inj (hx.symm.trans hx')
  -- the body has the declared length, and it is the announced one
  have haccepts : t.grant.Accepts sha t.body.bytes :=
    (hanswer.lifecycle.wf u t ht).body_of hphase rfl
  have hannounced : conn.announced = file.size := by
    rw [← hlength, ← hwire, ← hbytes, haccepts.1, hsize]
  have hcontent : t.body.bytes = conn.source.take file.size := by
    rw [hbytes, hwire, Connection.wire, hannounced]
  have hle : file.size ≤ conn.source.length := by
    have hlength := hlength
    rw [Connection.wire, hannounced, List.length_take] at hlength
    omega
  obtain ⟨time, path, hmem⟩ := hanswer.committed u t ht hphase
  rw [hcontent, hfile, hsame] at hmem
  rw [hfile] at hoffered
  rw [hannounced] at hread
  exact ⟨u, conn, file, source, opened, time, path, hconn, rfl, hoffered, hsource, hread, hle, hmem⟩

/-- An upload that has been answered was answered in the log. -/
theorem uploadAnswer_mem {w : World} {u : TaskId} {status : StatusCode}
    (h : w.uploadAnswer u = some status) :
    ∃ time, (time, .uploadAnswered u status) ∈ w.log := by
  unfold World.uploadAnswer at h
  obtain ⟨⟨time, o⟩, hmem, ho⟩ := List.exists_of_findSome?_eq_some h
  cases o with
  | uploadAnswered v status' =>
    rw [Option.ite_none_right_eq_some] at ho
    obtain ⟨rfl, ho⟩ := ho
    cases ho
    exact ⟨time, hmem⟩
  | _ => cases ho

/-- What a sender does with the answer to an upload keeps the invariant. -/
theorem SenderInv.uploaded {c : Nat} {s : Sender} (h : n.SenderInv c s) (hinv : n.Inv)
    (hanswer : n.world.AnswerInv sha) (hs : n.senders c = some s) {x : SessionId} {f : FileId}
    {u : TaskId} {rest : List (FileId × Token)} (hphase : s.phase = .streaming x f u rest)
    {status : StatusCode} (hstatus : n.world.uploadAnswer u = some status) :
    n.SenderInv c { s with
      phase := .uploaded x rest (LocalSendClient.uploadFile (.response status.asU16 none)) } := by
  obtain ⟨hacc, conn, hconn, hsender, hfile⟩ := h.streaming x f u rest hphase
  obtain ⟨time, hmem⟩ := uploadAnswer_mem hstatus
  have hcontent := (hanswer.answered time u status hmem).1
  -- only an answer 200 takes the file off the list
  cases status with
  | ok =>
    have hdelivered := delivered_of_answered hinv hanswer hs hacc hconn hsender hmem
    rw [hfile] at hdelivered
    have hleft : n.Accepted c s x (rest.map Prod.fst) := by
      obtain ⟨g, p, body, hg, hp, hok, hx, hfiles⟩ := hacc
      refine ⟨g, p, body, hg, hp, hok, hx, fun f' hf' => ?_⟩
      rcases hfiles f' hf' with hmem | hold
      · rcases List.mem_cons.mp hmem with rfl | hleft
        · exact .inr hdelivered
        · exact .inl hleft
      · exact .inr hold
    exact h.loop hanswer.lifecycle.prepare hleft
  | noContent => exact absurd rfl hcontent
  | _ => exact h.failed _

/-- Every sender keeps its invariant. -/
theorem senderInv_step {a : NetworkAction} (hinv : n.Inv) (hanswer : n.world.AnswerInv sha)
    (h : Step sha n a n') {c : Nat} {s' : Sender} (hs' : n'.senders c = some s') :
    n'.SenderInv c s' := by
  have hext := extends_of_step hinv h
  -- the senders that do not act stay as they are
  have hupdate : ∀ (d : Nat) (s₁ : Sender), Function.update n.senders d (some s₁) c = some s' →
      (c = d → n'.SenderInv c s₁) → n'.SenderInv c s' := by
    intro d s₁ hd hacts
    by_cases hc : c = d
    · rw [hc, Function.update_self] at hd
      cases hd
      exact hacts hc
    · rw [Function.update_of_ne hc] at hd
      exact (hinv.senders c s' hd).mono hext
  cases h with
  -- a new sender has done nothing yet
  | @start d program device peer fresh hfiles =>
    refine hupdate d _ hs' fun _ => ?_
    exact ⟨hfiles, fun _ => rfl, by simp, by simp, by simp, by simp, by simp⟩
  | @prepare d s g pin world hd phase hstep =>
    refine hupdate d _ hs' fun hc => ?_
    subst hc
    -- the handler of the offer is new, and has its request
    have hnew : ∃ p, world.prepares g = some p ∧ p.request = s.request := by
      obtain ⟨p, hmove, heffect⟩ := World.prepareMove_of_prepareStep (World.step_prepare hstep)
      refine ⟨p, by rw [heffect.prepares, Function.update_self], ?_⟩
      generalize n.world.prepares g = old at hmove
      cases hmove <;> rfl
    have hold := hinv.senders c s hd
    exact ⟨hold.offers, by simp, fun h hh => (by cases hh; exact hnew),
      fun h hh => (by cases hh; rfl), by simp, by simp, by simp⟩
  -- what the answer is turned into, by what the handler has granted
  | @prepared d s g p reply order hd phase hp hreply horder =>
    refine hupdate d _ hs' fun hc => ?_
    subst hc
    have hold := hinv.senders c s hd
    obtain ⟨hrequest, hprepared⟩ := hold.preparedAs hinv hanswer phase hp hreply horder
    exact (hold.prepared hanswer.lifecycle.prepare phase hp hrequest hprepared).mono hext
  | @unknownFile d s session file token rest u opened hd phase hsource =>
    refine hupdate d _ hs' fun hc => ?_
    subst hc
    exact ((hinv.senders c s hd).failed _).mono hext
  -- the connection is the sender's own, for the file it comes to next
  | @upload d s session file token rest u opened source world hd phase hsource fresh hstep =>
    refine hupdate d _ hs' fun hc => ?_
    subst hc
    have hold := (hinv.senders c s hd).mono hext
    refine hold.setPhase (by simp) (by simp) (by simp) ?_ (by simp)
    intro x f v left hphase
    cases hphase
    refine ⟨?_, _, Function.update_self .., rfl, rfl⟩
    exact hold.sending session ((file, token) :: rest) phase
  | @uploaded d s session file u rest status hd phase hstatus =>
    refine hupdate d _ hs' fun hc => ?_
    subst hc
    exact ((hinv.senders c s hd).uploaded hinv hanswer hd phase hstatus).mono hext
  | @fail d s e hd he =>
    refine hupdate d _ hs' fun hc => ?_
    subst hc
    exact ((hinv.senders c s hd).failed _).mono hext
  | receiver => exact (hinv.senders c s' hs').mono hext

/-- The receiver draws no empty id. -/
theorem issued_step {a : NetworkAction} (hinv : n.Inv) (h : Step sha n a n') :
    ∀ x ∈ n'.world.issued, x.val ≠ "" := by
  intro x hx
  by_cases hold : x ∈ n.world.issued
  · exact hinv.issued x hold
  -- the only new ids are those that a handler draws
  have hdraws : ∀ {b : Action} {world : World}, n.world.step sha b = some world → x ∈ world.issued →
      ∃ h token, b = .prepare h (.reserve x token) ∨ b = .prepare h (.clearAwaiting x token) := by
    intro b world hb hmem
    obtain ⟨h, _, _, _, rfl, _, hdraw, _⟩ := World.allocated_of_step hb hmem hold
    rcases hdraw with ⟨token, rfl⟩ | ⟨token, rfl⟩
    · exact ⟨h, token, .inl rfl⟩
    · exact ⟨h, token, .inr rfl⟩
  cases h with
  -- an offer or a lease draws none
  | start | prepared | unknownFile | uploaded | fail => exact absurd hx hold
  | prepare _ _ hb =>
    obtain ⟨_, _, h | h⟩ := hdraws hb hx <;> cases h
  | upload _ _ _ _ hb =>
    obtain ⟨_, _, h | h⟩ := hdraws hb hx <;> cases h
  -- the network lets no empty id be drawn
  | receiver allowed hb =>
    obtain ⟨_, _, rfl | rfl⟩ := hdraws hb hx
    · simpa [allows, Action.drawsEmpty] using allowed
    · simpa [allows, Action.drawsEmpty] using allowed

/-! ## Every run -/

/-- At the start there are no senders and no connections. -/
theorem inv_start (c : ServerConfig) : Inv ⟨World.start c, fun _ => none, fun _ => none, []⟩ where
  connections _ _ h := by cases h
  senders _ _ h := by cases h
  issued _ h := by cases h

/-- Every step of the network keeps the invariant. -/
theorem inv_step {a : NetworkAction} (hinv : n.Inv) (hanswer : n.world.AnswerInv sha)
    (h : Step sha n a n') : n'.Inv where
  connections _ _ hconn := connectionInv_step hinv hanswer.lifecycle h hconn
  senders _ _ hs := senderInv_step hinv hanswer h hs
  issued := issued_step hinv h

/-- The invariant of every state of the network. -/
theorem inv_of_reachable (h : (network sha).Reachable n) : n.Inv := by
  refine (network_simulates sha).invariant (World.AnswerInv sha) Inv
    (fun _ => World.answerInv_of_reachable) ?_ ?_ h
  · rintro _ ⟨c, rfl⟩
    exact inv_start c
  · intro n a n' hanswer _ hinv hstep
    exact inv_step hinv hanswer (step_cases hstep)

/-! ## What became of a text -/

/-- Handler `h` delivers its text while the channel has no room for it. -/
def TurnsAway (h : TaskId) (n : Network) (a : NetworkAction) : Prop :=
  a = .receiver (.prepare h .deliverText) ∧ n.world.channel.hasRoom = false

/-- What has passed the channel in a run, has passed it in the end. -/
theorem passed_of_exec {as : List NetworkAction} (hrun : (network sha).exec n as = some n')
    {e : ServerEvent} (he : e ∈ n.world.channel.passed) : e ∈ n'.world.channel.passed := by
  refine (network sha).exec_induction (fun n => e ∈ n.world.channel.passed) ?_ he hrun
  intro n a n' he hstep
  obtain heq | ⟨b, hb⟩ := (step_cases hstep).world
  · rwa [heq]
  · exact (World.passed_of_step hb).mem he

/-- The text of an acknowledged message is in the channel, or was turned away. -/
theorem text_passed {c : ServerConfig} {as : List NetworkAction}
    (hrun : (network sha).exec ⟨World.start c, fun _ => none, fun _ => none, []⟩ as = some n)
    {h : TaskId} {p : PrepareTask} (hp : n.world.prepares h = some p)
    (phase : p.phase = .answered .noContent none) {x : SessionId} (hx : p.accepted = some x)
    {text : String} (htext : p.request.messageText = some text) :
    .textReceived x text p.request.info.deviceAlias ∈ n.world.channel.passed ∨
      (network sha).Occurred (TurnsAway h) ⟨World.start c, fun _ => none, fun _ => none, []⟩ as := by
  -- the step in which the handler acknowledged it
  obtain ⟨before, a, after, m, m', rfl, hbefore, hnew, hstep, hp', hafter⟩ :=
    TransitionSystem.exists_turn (P := fun n => n.world.prepares h = some p) hrun
      (by simp [World.start]) hp
  have hreach : (network sha).Reachable m := .exec (.init ⟨c, rfl⟩) hbefore
  have hprepare := World.prepareInv_of_reachable ((network_simulates sha).reachable hreach)
  cases step_cases hstep with
  | start | prepared | unknownFile | uploaded | fail => exact absurd hp' hnew
  | prepare _ _ hworld | upload _ _ _ _ hworld =>
    obtain ⟨ha, -⟩ := World.passed_of_acknowledged hprepare hworld hp' hnew phase hx htext
    cases ha
  | receiver _ hworld =>
    obtain ⟨rfl, hpassed⟩ := World.passed_of_acknowledged hprepare hworld hp' hnew phase hx htext
    cases hroom : m.world.channel.hasRoom with
    | true => exact .inl (passed_of_exec hafter (hpassed hroom))
    | false => exact .inr ⟨before, _, after, m, rfl, hbefore, rfl, hroom⟩

/-- A send that reports success was granted, and has delivered every file that was accepted, or the
    text of its message, unless the channel had no room when its handler delivered that. -/
theorem send_delivers (sha : List UInt8 → String) (config : ServerConfig) (as : List NetworkAction)
    (n : Network) (hrun : (network sha).exec ⟨World.start config, fun _ => none, fun _ => none, []⟩
      as = some n) (c : Nat)
    (s : Sender) (hs : n.senders c = some s) (hok : s.phase = .finished (.ok ())) :
    n.SentIf (fun h e => e ∈ n.world.channel.passed ∨ (network sha).Occurred (TurnsAway h)
      ⟨World.start config, fun _ => none, fun _ => none, []⟩ as) c s := by
  have hreach : (network sha).Reachable n := .exec (.init ⟨config, rfl⟩) hrun
  obtain ⟨h, p, hh, hp, hrequest, hgranted, hfiles | ⟨text, x, phase, htext, hx, -⟩⟩ :=
    ((inv_of_reachable hreach).senders c s hs).concluded hok
  · exact ⟨h, p, hh, hp, hrequest, hgranted, .inl hfiles⟩
  · refine ⟨h, p, hh, hp, hrequest, hgranted, .inr ⟨text, x, phase, htext, hx, ?_⟩⟩
    rw [← hrequest] at htext
    have hpassed := text_passed hrun hp phase hx htext
    rwa [hrequest] at hpassed

end Network

namespace Scenario

/-- Alice sends a file of two bytes and a text; the user leaves the text out. -/
def aliceSends : SendProgram :=
  .execute [(⟨"f"⟩, .file ⟨["a.bin"]⟩ 2 "application/octet-stream"), (⟨"g"⟩, .text "hi")]

/-- Her offer is accepted in part, and her file is uploaded in two pieces. The file has grown by the
    time that it is read. -/
def partialSend : List NetworkAction :=
  [.start 0 aliceSends offer.info alice,
    .prepare 0 0 none,
    .receiver (.prepare 0 (.reserve ⟨"reserved"⟩ (token "r"))),
    .receiver (.prepare 0 .sendRequest),
    .receiver (.prepare 0 (.decide (some (.acceptFiles [⟨"f"⟩])))),
    .receiver (.prepare 0 (.clearAwaiting ⟨"session"⟩ (token "s"))),
    .receiver (.prepare 0 .install),
    .prepared 0 [(⟨"f"⟩, ⟨"s"⟩)],
    .upload 0 0 (2, [1, 2, 3]),
    .receiver (.upload 0 (.sinkCreated (.ok ⟨["a.bin"]⟩))),
    .receiver (.upload 0 (.chunk [1])),
    .receiver (.upload 0 (.chunkWritten true)),
    .receiver (.upload 0 .reportProgress),
    .receiver (.upload 0 (.chunk [2])),
    .receiver (.upload 0 (.chunkWritten true)),
    .receiver (.upload 0 .reportProgress),
    .receiver (.upload 0 .streamEnd),
    .receiver (.upload 0 (.flushed true)),
    .receiver (.upload 0 .publish),
    .receiver (.upload 0 (.committed (some ⟨["a.bin"]⟩))),
    .receiver (.upload 0 .record)]

/-- Whether a send has reported success. -/
def succeeded : SendPhase → Bool
  | .finished (.ok ()) => true
  | _ => false

/-- The test of a send that has succeeded. -/
theorem eq_of_succeeded {phase : SendPhase} (h : succeeded phase = true) :
    phase = .finished (.ok ()) := by
  unfold succeeded at h
  split at h
  · rfl
  · cases h

end Scenario

namespace Network

/-- Alice's send reports success, and what was accepted of it is delivered. -/
theorem send_delivers_partial : ∃ (as : List NetworkAction) (n : Network) (s : Sender),
    (network Scenario.digest).exec
      ⟨World.start Scenario.config, fun _ => none, fun _ => none, []⟩ as = some n ∧
      n.senders 0 = some s ∧ s.phase = .finished (.ok ()) ∧
      n.SentIf (fun h e => e ∈ n.world.channel.passed ∨
        (network Scenario.digest).Occurred (TurnsAway h)
        ⟨World.start Scenario.config, fun _ => none, fun _ => none, []⟩ as) 0 s := by
  let start : Network := ⟨World.start Scenario.config, fun _ => none, fun _ => none, []⟩
  obtain ⟨n, n', hrun, hstep, htest⟩ := (network Scenario.digest).exists_run_of_test start
    Scenario.partialSend (.uploaded 0)
    (fun _ n => (n.senders 0).any fun s => Scenario.succeeded s.phase) (by decide +kernel)
  have hwhole : (network Scenario.digest).exec start (Scenario.partialSend ++ [.uploaded 0]) =
      some n' := by
    rw [TransitionSystem.exec_append, hrun, Option.bind_some, TransitionSystem.exec_singleton, hstep]
  obtain ⟨s, hs, hphase⟩ := (Option.any_eq_true ..).mp htest
  have hok := Scenario.eq_of_succeeded hphase
  exact ⟨_, n', s, hwhole, hs, hok,
    send_delivers Scenario.digest Scenario.config _ n' hwhole 0 s hs hok⟩

end Network

end LocalSend
