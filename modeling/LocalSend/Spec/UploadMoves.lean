import LocalSend.Spec.StepCases

/-!
# The upload handlers of a run

What each upload handler holds and has read when it is in a given phase
(`UploadTask.Wf`), and the transitions of one handler (`UploadMove`): its own record,
and the lifecycle its session has afterwards. No section of an upload touches the
lifecycle of another session.

## Key results

- `UploadMove.wf`: a move leads from a handler that fits its phase to one that fits its next
- `uploadMove_of_uploadStep`: a section of an upload handler is one of its moves
-/

namespace LocalSend

/-! ## One handler -/

/-- All bytes the stream has yielded. -/
def BodyWriter.bytes (b : BodyWriter) : List UInt8 := b.chunks.flatten

/-- The byte count and the hasher's input are those of the whole body so far. -/
def BodyWriter.Counted (b : BodyWriter) : Prop :=
  b.bytesWritten = b.bytes.length ∧ b.hashed = b.bytes

/-- A body has the declared size, and the declared digest when one was declared. -/
def UploadGrant.Accepts (sha256 : List UInt8 → String) (g : UploadGrant) (bytes : List UInt8) :
    Prop :=
  bytes.length = g.declaredSize ∧
    ∀ expected, g.declaredSha = some expected →
      World.eqIgnoreAsciiCase (sha256 bytes) expected = true

/-- The handle an upload of file `f` holds in a given phase. -/
def UploadPhase.Holds (p : UploadPhase) (f : FileId) (handle : Option ReceiveHandle) : Prop :=
  match p with
  | .creating | .streaming | .writing _ | .reporting | .flushing | .validated =>
    handle = some (.lease f)
  | .surrendering => handle = some (.spentLease f)
  | .committing | .recording _ | .rejecting _ _ false => handle = some (.permit f)
  | .rejecting _ _ true | .aborting _ => handle = some (.lease f) ∨ handle = none
  | .answered _ => handle = none

/-- What the body of an upload amounts to in a given phase: which of its bytes the writer
    has taken, and from `validated` on that they are what was declared. -/
def UploadPhase.BodyFits (sha256 : List UInt8 → String) (p : UploadPhase) (g : UploadGrant)
    (b : BodyWriter) : Prop :=
  match p with
  | .creating | .streaming | .reporting | .flushing => b.written = b.bytes
  | .writing chunk => b.written ++ chunk = b.bytes
  | .validated | .surrendering | .committing | .recording _ =>
    b.written = b.bytes ∧ g.Accepts sha256 b.bytes
  | .rejecting _ status _ | .aborting status => status ≠ .ok
  | .answered status => status = .ok → g.Accepts sha256 b.bytes

/-- What an upload handler holds and has read when it is in a given phase. -/
structure UploadTask.Wf (sha256 : List UInt8 → String) (t : UploadTask) : Prop where
  counted : t.body.Counted
  body : t.phase.BodyFits sha256 t.grant t.body
  held : t.dropped = false → t.phase.Holds t.fileId t.handle
  released : t.dropped = true → t.handle = none

/-- What a handler in a known phase has read. -/
theorem UploadTask.Wf.body_of {sha : List UInt8 → String} {t : UploadTask} (h : t.Wf sha)
    {p : UploadPhase} (phase : t.phase = p) : p.BodyFits sha t.grant t.body := by
  rw [← phase]
  exact h.body

/-- What a live handler in a known phase holds. -/
theorem UploadTask.Wf.held_of {sha : List UInt8 → String} {t : UploadTask} (h : t.Wf sha)
    (live : t.dropped = false) {p : UploadPhase} (phase : t.phase = p) :
    p.Holds t.fileId t.handle := by
  rw [← phase]
  exact h.held live

/-- The transitions of one upload handler in a world `w`, with the lifecycle its session
    has afterwards. -/
inductive UploadMove (sha256 : List UInt8 → String) (w : World) :
    Option UploadTask → UploadAction → UploadTask → ReceiveLifecycle → Prop
  | began {s token f file} (hs : w.state.currentSession = some s)
    (verified : s.verifyToken f token = true) (hfile : s.files.get? f = some file)
    (ready : (w.lifecycles s.id).phase? f = some .ready) :
    UploadMove sha256 w none (.begin_ s.id f token)
      { fileId := f, grant := World.grantUpload w.state s file, handle := some (.lease f),
        body := .new, dropped := false, phase := .creating }
      ((w.lifecycles s.id).setPhase f .receiving)
  | created {t path} (phase : t.phase = .creating) :
    UploadMove sha256 w (some t) (.sinkCreated (.ok path)) { t with phase := .streaming }
      (w.lifecycles t.grant.sessionId)
  | notCreated {t e status} (phase : t.phase = .creating)
    (hs : status = .badRequest ∨ status = .internalServerError) :
    UploadMove sha256 w (some t) (.sinkCreated (.error e))
      { t with handle := none, phase := .answered status }
      ((w.lifecycles t.grant.sessionId).dropHandle t.handle)
  | received {t chunk} (phase : t.phase = .streaming) :
    UploadMove sha256 w (some t) (.chunk chunk)
      { t with
        body := { t.body with
          chunks := t.body.chunks ++ [chunk]
          bytesWritten := t.body.bytesWritten + chunk.length
          hashed := t.body.hashed ++ chunk }
        phase := .writing chunk }
      (w.lifecycles t.grant.sessionId)
  | streamFailed {t} (phase : t.phase = .streaming) :
    UploadMove sha256 w (some t) .streamError
      { t with phase := .rejecting t.body.reported .internalServerError true }
      (w.lifecycles t.grant.sessionId)
  | ended {t} (phase : t.phase = .streaming) :
    UploadMove sha256 w (some t) .streamEnd { t with phase := .flushing }
      (w.lifecycles t.grant.sessionId)
  | wrote {t chunk} (phase : t.phase = .writing chunk) :
    UploadMove sha256 w (some t) (.chunkWritten true)
      { t with
        body := { t.body with written := t.body.written ++ chunk }
        phase := .reporting }
      (w.lifecycles t.grant.sessionId)
  | notWritten {t chunk} (phase : t.phase = .writing chunk) :
    UploadMove sha256 w (some t) (.chunkWritten false)
      { t with phase := .rejecting t.body.reported .internalServerError true }
      (w.lifecycles t.grant.sessionId)
  | reported {t} (phase : t.phase = .reporting) :
    UploadMove sha256 w (some t) .reportProgress
      { t with body := { t.body with reported := t.body.bytesWritten }, phase := .streaming }
      (w.lifecycles t.grant.sessionId)
  /-- The flush failed, or the body is not what was declared. -/
  | invalid {t ok amount} (phase : t.phase = .flushing)
    (hbad : ok = true → t.body.Counted → ¬t.grant.Accepts sha256 t.body.bytes)
    (hamount : amount = t.body.reported ∨ amount = t.body.bytesWritten) :
    UploadMove sha256 w (some t) (.flushed ok)
      { t with phase := .rejecting amount .internalServerError true }
      (w.lifecycles t.grant.sessionId)
  | valid {t} (phase : t.phase = .flushing)
    (hgood : t.body.Counted → t.grant.Accepts sha256 t.body.bytes) :
    UploadMove sha256 w (some t) (.flushed true) { t with phase := .validated }
      (w.lifecycles t.grant.sessionId)
  | interrupted {t} (phase : t.phase.inBody = true)
    (fired : (w.lifecycles t.grant.sessionId).fired t.fileId = true) :
    UploadMove sha256 w (some t) .interrupt
      { t with phase := .rejecting t.body.reported .conflict true }
      (w.lifecycles t.grant.sessionId)
  | rejected {t amount status} (phase : t.phase = .rejecting amount status true) :
    UploadMove sha256 w (some t) .reject { t with phase := .aborting status }
      (w.lifecycles t.grant.sessionId)
  | gaveUp {t amount status} (phase : t.phase = .rejecting amount status false) :
    UploadMove sha256 w (some t) .reject { t with handle := none, phase := .answered status }
      ((w.lifecycles t.grant.sessionId).dropHandle t.handle)
  | aborted {t status} (phase : t.phase = .aborting status) :
    UploadMove sha256 w (some t) .aborted { t with handle := none, phase := .answered status }
      ((w.lifecycles t.grant.sessionId).dropHandle t.handle)
  | won {t} (phase : t.phase = .validated)
    (receiving : (w.lifecycles t.grant.sessionId).phase? t.fileId = some .receiving) :
    UploadMove sha256 w (some t) .publish
      { t with handle := some (.permit t.fileId), phase := .committing }
      ((w.lifecycles t.grant.sessionId).setPhase t.fileId .publishing)
  | lost {t} (phase : t.phase = .validated)
    (taken : (w.lifecycles t.grant.sessionId).phase? t.fileId ≠ some .receiving) :
    UploadMove sha256 w (some t) .publish
      { t with handle := some (.spentLease t.fileId), phase := .surrendering }
      (w.lifecycles t.grant.sessionId)
  | surrendered {t} (phase : t.phase = .surrendering) :
    UploadMove sha256 w (some t) .surrender
      { t with handle := none, phase := .rejecting t.body.bytesWritten .conflict true }
      ((w.lifecycles t.grant.sessionId).dropHandle t.handle)
  | committed {t path} (phase : t.phase = .committing) :
    UploadMove sha256 w (some t) (.committed (some path)) { t with phase := .recording path }
      (w.lifecycles t.grant.sessionId)
  | notCommitted {t} (phase : t.phase = .committing) :
    UploadMove sha256 w (some t) (.committed none)
      { t with phase := .rejecting t.body.bytesWritten .internalServerError false }
      (w.lifecycles t.grant.sessionId)
  | recorded {t path s} (phase : t.phase = .recording path)
    (hs : w.state.currentSession = some s) (hid : s.id = t.grant.sessionId) :
    UploadMove sha256 w (some t) .record { t with handle := none, phase := .answered .ok }
      ((w.lifecycles t.grant.sessionId).finish t.fileId)
  /-- The session of a committed file is no longer in the slot. -/
  | orphaned {t path} (phase : t.phase = .recording path)
    (hs : ∀ s, w.state.currentSession = some s → s.id ≠ t.grant.sessionId) :
    UploadMove sha256 w (some t) .record
      { t with handle := none, phase := .answered .internalServerError }
      ((w.lifecycles t.grant.sessionId).dropHandle t.handle)
  | dropped {t} (awaits : t.awaits = true) :
    UploadMove sha256 w (some t) .drop { t with handle := none, dropped := true }
      ((w.lifecycles t.grant.sessionId).dropHandle t.handle)

/-- A move keeps the file and the grant of its handler. -/
theorem UploadMove.grant_eq {sha : List UInt8 → String} {w : World} {t t' : UploadTask}
    {a : UploadAction} {l : ReceiveLifecycle} (hmove : UploadMove sha w (some t) a t' l) :
    t'.fileId = t.fileId ∧ t'.grant = t.grant := by
  cases hmove <;> exact ⟨rfl, rfl⟩

/-- The record section answers. -/
theorem UploadMove.answered_of_record {sha : List UInt8 → String} {w : World} {t t' : UploadTask}
    {l : ReceiveLifecycle} (hmove : UploadMove sha w (some t) .record t' l) :
    ∃ status, t'.phase = .answered status := by
  cases hmove <;> exact ⟨_, rfl⟩

/-- An answered upload makes no further move. -/
theorem UploadMove.ne_answered {sha : List UInt8 → String} {w : World} {t t' : UploadTask}
    {a : UploadAction} {l : ReceiveLifecycle} (hmove : UploadMove sha w (some t) a t' l)
    {status : StatusCode} : t.phase ≠ .answered status := by
  intro hphase
  cases hmove with
  | interrupted phase =>
    rw [hphase] at phase
    cases phase
  | dropped awaits =>
    simp only [UploadTask.awaits, hphase] at awaits
    simp at awaits
  | created phase | notCreated phase | received phase | streamFailed phase | ended phase
  | wrote phase | notWritten phase | reported phase | invalid phase | valid phase
  | rejected phase | gaveUp phase | aborted phase | won phase | lost phase
  | surrendered phase | committed phase | notCommitted phase | recorded phase
  | orphaned phase =>
    cases hphase.symm.trans phase

/-- Counting goes on with every chunk. -/
theorem BodyWriter.Counted.chunk {b : BodyWriter} (h : b.Counted) (chunk : List UInt8) :
    BodyWriter.Counted { b with
      chunks := b.chunks ++ [chunk]
      bytesWritten := b.bytesWritten + chunk.length
      hashed := b.hashed ++ chunk } := by
  have hbytes : (b.chunks ++ [chunk]).flatten = b.bytes ++ chunk := by
    rw [List.flatten_append, List.flatten_singleton]
    rfl
  constructor
  · show b.bytesWritten + chunk.length = (b.chunks ++ [chunk]).flatten.length
    rw [hbytes, List.length_append, h.1]
  · show b.hashed ++ chunk = (b.chunks ++ [chunk]).flatten
    rw [hbytes, h.2]

/-- A phase of the body is one in which the lease is held. -/
theorem UploadPhase.holds_of_inBody {p : UploadPhase} (h : p.inBody = true) {f : FileId}
    {handle : Option ReceiveHandle} (hheld : p.Holds f handle) : handle = some (.lease f) := by
  cases p with
  | streaming | writing | reporting | flushing => exact hheld
  | _ => exact nomatch h

/-- Every move leads from a handler that fits its phase to one that fits its next. -/
theorem UploadMove.wf {sha : List UInt8 → String} {w : World} {old : Option UploadTask}
    {a : UploadAction} {t' : UploadTask} {l : ReceiveLifecycle}
    (hmove : UploadMove sha w old a t' l)
    (hold : ∀ t, old = some t → t.Wf sha ∧ t.dropped = false) : t'.Wf sha := by
  -- what the body is, who holds the handle, and what a dropped task has released
  cases hmove with
  -- a new upload has read nothing
  | began => exact ⟨⟨rfl, rfl⟩, rfl, fun _ => rfl, fun h => (by cases h)⟩
  | @created t path phase =>
    obtain ⟨h, live⟩ := hold t rfl
    have hbody := h.body_of phase
    have hheld := h.held_of live phase
    -- an error answer says nothing of the body
    exact ⟨h.counted, hbody, fun _ => hheld, h.released⟩
  | @notCreated t e status phase hs =>
    obtain ⟨h, _⟩ := hold t rfl
    refine ⟨h.counted, fun hok => ?_, fun _ => rfl, fun _ => rfl⟩
    subst hok
    rcases hs with hs | hs <;> simp at hs
  -- what was written is the concatenation of the chunks, one chunk later
  | @received t chunk phase =>
    obtain ⟨h, live⟩ := hold t rfl
    have hheld := h.held_of live phase
    refine ⟨h.counted.chunk chunk, ?_, fun _ => hheld, h.released⟩
    have hwritten : t.body.written = t.body.bytes := h.body_of phase
    show t.body.written ++ chunk = (t.body.chunks ++ [chunk]).flatten
    rw [hwritten, List.flatten_append, List.flatten_singleton]
    rfl
  | @ended t phase | @wrote t chunk phase | @reported t phase | @committed t path phase =>
    obtain ⟨h, live⟩ := hold t rfl
    have hbody := h.body_of phase
    have hheld := h.held_of live phase
    exact ⟨h.counted, hbody, fun _ => hheld, h.released⟩
  -- from here on the answer is an error
  | @streamFailed t phase | @notWritten t chunk phase | @invalid t ok amount phase hbad =>
    obtain ⟨h, live⟩ := hold t rfl
    have hheld := h.held_of live phase
    exact ⟨h.counted, fun hok => (by cases hok), fun _ => .inl hheld, h.released⟩
  -- the digest is of what was counted
  | @valid t phase hgood =>
    obtain ⟨h, live⟩ := hold t rfl
    have hbody := h.body_of phase
    have hheld := h.held_of live phase
    exact ⟨h.counted, ⟨hbody, hgood h.counted⟩, fun _ => hheld, h.released⟩
  -- an interrupt can come at any await of the body
  | @interrupted t phase fired =>
    obtain ⟨h, live⟩ := hold t rfl
    refine ⟨h.counted, fun hok => (by cases hok), fun _ => .inl ?_, h.released⟩
    exact UploadPhase.holds_of_inBody phase (h.held live)
  | @rejected t amount status phase =>
    obtain ⟨h, live⟩ := hold t rfl
    have hbody := h.body_of phase
    have hheld := h.held_of live phase
    exact ⟨h.counted, hbody, fun _ => hheld, h.released⟩
  -- the handle goes with the rejection
  | @gaveUp t amount status phase | @aborted t status phase =>
    obtain ⟨h, _⟩ := hold t rfl
    have hbad : status ≠ .ok := h.body_of phase
    exact ⟨h.counted, fun hok => absurd hok hbad, fun _ => rfl, fun _ => rfl⟩
  -- the handle is now a permit, or to be given up
  | @won t phase receiving | @lost t phase taken =>
    obtain ⟨h, live⟩ := hold t rfl
    have hbody := h.body_of phase
    exact ⟨h.counted, hbody, fun _ => rfl, fun hd => (by cases live.symm.trans hd)⟩
  -- the permit was never won
  | @surrendered t phase =>
    obtain ⟨h, _⟩ := hold t rfl
    exact ⟨h.counted, fun hok => (by cases hok), fun _ => .inr rfl, fun _ => rfl⟩
  | @notCommitted t phase =>
    obtain ⟨h, live⟩ := hold t rfl
    have hheld := h.held_of live phase
    exact ⟨h.counted, fun hok => (by cases hok), fun _ => hheld, h.released⟩
  -- the answer 200 is for a validated body
  | @recorded t path s phase =>
    obtain ⟨h, _⟩ := hold t rfl
    have hbody := h.body_of phase
    exact ⟨h.counted, fun _ => hbody.2, fun _ => rfl, fun _ => rfl⟩
  | @orphaned t path phase hs =>
    obtain ⟨h, _⟩ := hold t rfl
    exact ⟨h.counted, fun hok => (by cases hok), fun _ => rfl, fun _ => rfl⟩
  | @dropped t awaits =>
    obtain ⟨h, _⟩ := hold t rfl
    exact ⟨h.counted, h.body, fun hd => (by cases hd), fun _ => rfl⟩

/-- A handler holds a handle on its own file. -/
theorem UploadTask.Wf.file_eq {sha : List UInt8 → String} {t : UploadTask} (h : t.Wf sha)
    {handle : ReceiveHandle} (hheld : t.handle = some handle) : handle.file = t.fileId := by
  -- a dropped upload holds no handle
  have live : t.dropped = false := by
    rw [← Bool.not_eq_true]
    exact fun hd => (by cases hheld.symm.trans (h.released hd))
  have hholds := h.held live
  rw [hheld] at hholds
  -- the handle is of the upload's file in every phase that has one
  cases hp : t.phase with
  -- an aborted rejection may have lost its handle already
  | rejecting amount status abort =>
    cases abort with
    | true =>
      rw [hp] at hholds
      rcases hholds with heq | heq <;> cases heq
      rfl
    | false =>
      rw [hp] at hholds
      cases hholds
      rfl
  | aborting =>
    rw [hp] at hholds
    rcases hholds with heq | heq <;> cases heq
    rfl
  | answered =>
    rw [hp] at hholds
    cases hholds
  | creating | streaming | writing | reporting | flushing | validated | surrendering
  | committing | recording =>
    rw [hp] at hholds
    cases hholds
    rfl

/-- Dropping a handle frees at most the slot of its file. -/
theorem phase?_dropHandle (l : ReceiveLifecycle) (handle : Option ReceiveHandle) (g : FileId) :
    (l.dropHandle handle).phase? g = l.phase? g ∨
      ((l.dropHandle handle).phase? g = some .ready ∧ ∃ h, handle = some h ∧ h.file = g) := by
  -- a lease or a permit is of one file, and its drop puts that file back to ready
  rcases handle with _ | (f | f | f)
  · exact .inl rfl
  · show (l.dropLease f).phase? g = _ ∨ (l.dropLease f).phase? g = _ ∧ _
    rw [ReceiveLifecycle.phase?_dropLease]
    split
    · exact .inr ⟨rfl, _, rfl, (by assumption : g = f ∧ _).1.symm⟩
    · exact .inl rfl
  · show (l.dropLease f).phase? g = _ ∨ (l.dropLease f).phase? g = _ ∧ _
    rw [ReceiveLifecycle.phase?_dropLease]
    split
    · exact .inr ⟨rfl, _, rfl, (by assumption : g = f ∧ _).1.symm⟩
    · exact .inl rfl
  · show (l.dropPermit f).phase? g = _ ∨ (l.dropPermit f).phase? g = _ ∧ _
    rw [ReceiveLifecycle.phase?_dropPermit]
    split
    · exact .inr ⟨rfl, _, rfl, (by assumption : g = f ∧ _).1.symm⟩
    · exact .inl rfl

/-- A move leaves the slots of the other files alone. -/
theorem UploadMove.phase?_of_ne {sha : List UInt8 → String} {w : World} {old : Option UploadTask}
    {a : UploadAction} {t' : UploadTask} {l : ReceiveLifecycle}
    (hmove : UploadMove sha w old a t' l) (hold : ∀ t, old = some t → t.Wf sha) {g : FileId}
    (hg : g ≠ t'.fileId) : l.phase? g = (w.lifecycles t'.grant.sessionId).phase? g := by
  -- a drop concerns the file of its own handle only
  have hdrop : ∀ t, old = some t → g ≠ t.fileId →
      ((w.lifecycles t.grant.sessionId).dropHandle t.handle).phase? g =
        (w.lifecycles t.grant.sessionId).phase? g := by
    intro t ht hne
    rcases phase?_dropHandle (w.lifecycles t.grant.sessionId) t.handle g with
      heq | ⟨_, handle, hheld, hfile⟩
    · exact heq
    · exact absurd (hfile.symm.trans ((hold t ht).file_eq hheld)) hne
  cases hmove with
  | began =>
    rw [ReceiveLifecycle.phase?_setPhase, if_neg hg]
    rfl
  | won => rw [ReceiveLifecycle.phase?_setPhase, if_neg hg]
  | recorded => rw [ReceiveLifecycle.phase?_finish, if_neg hg]
  -- these drop the handle
  | notCreated | gaveUp | aborted | surrendered | orphaned | dropped => exact hdrop _ rfl hg
  -- these leave the lifecycle alone
  | created | received | streamFailed | ended | wrote | notWritten | reported | invalid | valid
  | interrupted | rejected | lost | committed | notCommitted => rfl

/-- No section of an upload cancels a slot. -/
theorem UploadMove.not_cancels {sha : List UInt8 → String} {w : World} {old : Option UploadTask}
    {a : UploadAction} {t' : UploadTask} {l : ReceiveLifecycle}
    (hmove : UploadMove sha w old a t' l) {f : FileId} (hf : l.phase? f = some .cancelled) :
    (w.lifecycles t'.grant.sessionId).phase? f = some .cancelled := by
  -- only a cancellation writes that phase
  have hset : ∀ (l : ReceiveLifecycle) g p, p ≠ .cancelled →
      (l.setPhase g p).phase? f = some .cancelled → l.phase? f = some .cancelled := by
    intro l g p hp h
    rw [ReceiveLifecycle.phase?_setPhase] at h
    split at h
    · rw [Option.map_eq_some_iff] at h
      obtain ⟨_, _, heq⟩ := h
      exact absurd heq hp
    · exact h
  -- a drop writes ready
  have hdrop : ∀ (l : ReceiveLifecycle) handle, (l.dropHandle handle).phase? f = some .cancelled →
      l.phase? f = some .cancelled := by
    intro l handle h
    rcases phase?_dropHandle l handle f with heq | ⟨heq, _⟩
    · rw [← heq]
      exact h
    · cases heq.symm.trans h
  cases hmove with
  | began => exact hset _ _ _ (by decide) hf
  | won => exact hset _ _ _ (by decide) hf
  | recorded => exact hset _ _ _ (by decide) hf
  | notCreated | gaveUp | aborted | surrendered | orphaned | dropped => exact hdrop _ _ hf
  | created | received | streamFailed | ended | wrote | notWritten | reported | invalid | valid
  | interrupted | rejected | lost | committed | notCommitted => exact hf

namespace World

/-! ## One step -/

/-- What a section of upload `u` leaves behind: its record, and its session's lifecycle. -/
structure UploadEffect (w : World) (u : TaskId) (t' : UploadTask) (l : ReceiveLifecycle)
    (w' : World) : Prop where
  uploads : w'.uploads = Function.update w.uploads u (some t')
  lifecycles : w'.lifecycles = Function.update w.lifecycles t'.grant.sessionId l

/-- A section that leaves every lifecycle alone. -/
theorem UploadEffect.of_same {w w' : World} {u : TaskId} {t' : UploadTask}
    (huploads : w'.uploads = Function.update w.uploads u (some t'))
    (hlife : w'.lifecycles = w.lifecycles) :
    w.UploadEffect u t' (w.lifecycles t'.grant.sessionId) w' where
  uploads := huploads
  lifecycles := by rw [hlife, Function.update_eq_self]

/-- The body check passes exactly the bodies that are what was declared. -/
theorem bodyFlushed_cases (sha : List UInt8 → String) (w : World) (u : TaskId) (t : UploadTask)
    (ok : Bool) :
    (ok = true ∧ (t.body.Counted → t.grant.Accepts sha t.body.bytes) ∧
      bodyFlushed sha w u t ok = w.setUpload u { t with phase := .validated }) ∨
    ((ok = true → t.body.Counted → ¬t.grant.Accepts sha t.body.bytes) ∧ ∃ amount,
      (amount = t.body.reported ∨ amount = t.body.bytesWritten) ∧ bodyFlushed sha w u t ok =
        w.setUpload u { t with phase := .rejecting amount .internalServerError true }) := by
  unfold bodyFlushed
  dsimp only
  cases ok with
  -- the file could not be flushed
  | false => exact .inr ⟨fun h => (by cases h), t.body.reported, .inl rfl, rfl⟩
  | true =>
    simp only [Bool.not_true, Bool.false_eq_true, if_false]
    -- then the sizes are compared, then the digests
    split
    · rename_i hsize
      refine .inr ⟨fun _ hcounted haccepts => hsize ?_, t.body.bytesWritten, .inr rfl, rfl⟩
      rw [hcounted.1]
      exact haccepts.1
    · rename_i hsize
      split
      · rename_i hdigest
        refine .inr ⟨fun _ hcounted haccepts => ?_, t.body.bytesWritten, .inr rfl, rfl⟩
        simp only [Option.any_eq_true, Bool.not_eq_true'] at hdigest
        obtain ⟨expected, hdeclared, hne⟩ := hdigest
        rw [hcounted.2, haccepts.2 expected hdeclared] at hne
        simp at hne
      · rename_i hdigest
        -- both agree
        refine .inl ⟨trivial, fun hcounted => ⟨?_, fun expected hdeclared => ?_⟩, rfl⟩
        · rw [← hcounted.1]
          exact Decidable.not_not.mp hsize
        · rw [hdeclared, Option.any_some, Bool.not_eq_true', Bool.not_eq_false,
            hcounted.2] at hdigest
          exact hdigest

/-- The first lock section of an upload takes a lease, or starts no handler. -/
theorem beginUpload_cases (sha : List UInt8 → String) (w : World) (u : TaskId)
    (sid : SessionId) (f : FileId) (token : Token) :
    ((w.beginUpload u sid f token).uploads = w.uploads ∧
      (w.beginUpload u sid f token).lifecycles = w.lifecycles) ∨
    ∃ t' l, UploadMove sha w none (.begin_ sid f token) t' l ∧
      w.UploadEffect u t' l (w.beginUpload u sid f token) := by
  unfold beginUpload
  -- the guards of the route, each of which answers at once
  split
  · refine .inl ?_
    dsimp only
    split <;> exact ⟨rfl, rfl⟩
  · split
    · exact .inl ⟨rfl, rfl⟩
    · rename_i s hs
      split
      · exact .inl ⟨rfl, rfl⟩
      · rename_i hid
        simp only [Decidable.not_not] at hid
        subst hid
        split
        · exact .inl ⟨rfl, rfl⟩
        · rename_i hverified
          simp only [Bool.not_eq_true', Bool.not_eq_false] at hverified
          split
          · exact .inl ⟨rfl, rfl⟩
          · rename_i file hfile
            split
            · exact .inl ⟨rfl, rfl⟩
            -- the lease is taken
            · rename_i l hl
              obtain ⟨hready, hl⟩ := ReceiveLifecycle.beginReceive_eq_some.mp hl
              subst hl
              exact .inr ⟨_, _, .began hs hverified hfile hready, ⟨rfl, rfl⟩⟩

/-- The last lock section of an upload records its file, or finds its session gone. -/
theorem record_cases (w : World) (u : TaskId) (t : UploadTask) (path : PathBuf) :
    (∃ s, w.state.currentSession = some s ∧ s.id = t.grant.sessionId ∧
      w.UploadEffect u { t with handle := none, phase := .answered .ok }
        ((w.lifecycles t.grant.sessionId).finish t.fileId) (w.record u t path)) ∨
    ((∀ s, w.state.currentSession = some s → s.id ≠ t.grant.sessionId) ∧
      w.record u t path = w.answerUpload u t .internalServerError) := by
  unfold record
  -- the session is gone, or another is in the slot
  cases hfilter : w.state.currentSession.filter fun s => s.id = t.grant.sessionId with
  | none =>
    refine .inr ⟨fun s hs => ?_, rfl⟩
    simpa [hs] using hfilter
  | some s =>
    simp only [Option.filter_eq_some_iff, decide_eq_true_eq] at hfilter
    obtain ⟨hs, hid⟩ := hfilter
    refine .inl ⟨s, hs, hid, ?_⟩
    -- with the last file or without, the permit is finished
    rw [← hid]
    dsimp only
    split
    all_goals
      constructor
      · rfl
      · show Function.update (Function.update w.lifecycles s.id _) t.grant.sessionId _ = _
        rw [← hid]
        simp [ReceiveLifecycle.dropHandle, observe, trySend, recordFile, setLifecycle,
          storeReceived, hid]

/-- A section of an upload is one of the moves. -/
theorem uploadMove_of_uploadStep {sha : List UInt8 → String} {w w' : World} {u : TaskId}
    {a : UploadAction} (hstep : UploadStep sha w u a w') :
    (w.uploads u = none ∧ w'.uploads = w.uploads ∧ w'.lifecycles = w.lifecycles) ∨
    ∃ t' l, UploadMove sha w (w.uploads u) a t' l ∧ w.UploadEffect u t' l w' := by
  cases hstep with
  -- a refused begin leaves no task
  | @begin_ sid f token fresh =>
    rw [fresh]
    exact (beginUpload_cases sha w u sid f token).imp (fun h => ⟨rfl, h⟩) id
  | @sinkCreated t result ht live phase =>
    rw [ht]
    refine .inr ?_
    -- the sink refuses the name or fails
    rcases result with (reason | reason) | path
    · exact ⟨_, _, .notCreated phase (.inl rfl), ⟨rfl, rfl⟩⟩
    · exact ⟨_, _, .notCreated phase (.inr rfl), ⟨rfl, rfl⟩⟩
    · exact ⟨_, _, .created phase, .of_same rfl rfl⟩
  | @chunk t bytes ht live phase =>
    rw [ht]
    exact .inr ⟨_, _, .received phase, .of_same rfl rfl⟩
  | @streamError t ht live phase =>
    rw [ht]
    exact .inr ⟨_, _, .streamFailed phase, .of_same rfl rfl⟩
  | @streamEnd t ht live phase =>
    rw [ht]
    exact .inr ⟨_, _, .ended phase, .of_same rfl rfl⟩
  | @chunkWritten t chunk ok ht live phase =>
    rw [ht]
    -- the write may fail
    cases ok with
    | true => exact .inr ⟨_, _, .wrote phase, .of_same rfl rfl⟩
    | false => exact .inr ⟨_, _, .notWritten phase, .of_same rfl rfl⟩
  | @reportProgress t ht live phase =>
    rw [ht]
    exact .inr ⟨_, _, .reported phase, .of_same rfl rfl⟩
  | @flushed t ok ht live phase =>
    rw [ht]
    -- the body is what was offered, or it is rejected
    rcases bodyFlushed_cases sha w u t ok with ⟨rfl, hgood, heq⟩ | ⟨hbad, amount, hamount, heq⟩
    · rw [heq]
      exact .inr ⟨_, _, .valid phase hgood, .of_same rfl rfl⟩
    · rw [heq]
      exact .inr ⟨_, _, .invalid phase hbad hamount, .of_same rfl rfl⟩
  | @interrupt t ht live phase awaits fired =>
    rw [ht]
    exact .inr ⟨_, _, .interrupted phase fired, .of_same rfl rfl⟩
  | @reject t amount status abort ht live phase =>
    rw [ht]
    -- with an abort the sink is cleaned up first
    cases abort with
    | true => exact .inr ⟨_, _, .rejected phase, .of_same rfl rfl⟩
    | false => exact .inr ⟨_, _, .gaveUp phase, ⟨rfl, rfl⟩⟩
  | @aborted t status ht live phase =>
    rw [ht]
    exact .inr ⟨_, _, .aborted phase, ⟨rfl, rfl⟩⟩
  | @publish t ht live phase =>
    rw [ht]
    unfold publish
    -- the cancellation may have come first
    cases hl : (w.lifecycles t.grant.sessionId).beginPublication t.fileId with
    | some l =>
      obtain ⟨hreceiving, hl⟩ := ReceiveLifecycle.beginPublication_eq_some.mp hl
      subst hl
      exact .inr ⟨_, _, .won phase hreceiving, ⟨rfl, rfl⟩⟩
    | none =>
      have htaken := ReceiveLifecycle.beginPublication_eq_none.mp hl
      exact .inr ⟨_, _, .lost phase htaken, .of_same rfl rfl⟩
  | @surrender t ht live phase =>
    rw [ht]
    exact .inr ⟨_, _, .surrendered phase, ⟨rfl, rfl⟩⟩
  | @committed t result ht live phase =>
    rw [ht]
    -- the sink commits or fails
    cases result with
    | some path => exact .inr ⟨_, _, .committed phase, .of_same rfl rfl⟩
    | none => exact .inr ⟨_, _, .notCommitted phase, .of_same rfl rfl⟩
  | @record t path ht live phase =>
    rw [ht]
    -- recorded in the session, or orphaned
    rcases record_cases w u t path with ⟨s, hs, hid, heffect⟩ | ⟨hs, heq⟩
    · exact .inr ⟨_, _, .recorded phase hs hid, heffect⟩
    · rw [heq]
      exact .inr ⟨_, _, .orphaned phase hs, ⟨rfl, rfl⟩⟩
  | @drop t ht live awaits =>
    rw [ht]
    exact .inr ⟨_, _, .dropped awaits, ⟨rfl, rfl⟩⟩

end World

end LocalSend
