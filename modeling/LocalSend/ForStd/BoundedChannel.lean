import Mathlib.Data.List.Basic

/-!
# A bounded channel with fair senders

A channel with as many permits as it has places. A sender that finds no permit waits in a queue, and
a permit that comes back goes to the first one that waits: the sender holds it from then on, whether
or not it has been polled since. One that only tries to send takes no place in the queue, so while
somebody waits it finds the channel full, even where the reader has just taken an event out.

## Key results

- `BoundedChannel.accounted`, `BoundedChannel.exhausted`: every place is taken, held or free, and
  none is free while somebody waits
- `BoundedChannel.hasRoom_iff`: a sender that was given a permit keeps those out that only try
- `BoundedChannel.queue_trySend_of_room`, `BoundedChannel.queue_send`: an event gets in if there is
  a permit for it
- `BoundedChannel.passed_recv`: what got in has not been lost
- `BoundedChannel.senders_recv`, `BoundedChannel.senders_send`: the senders stand in line until they
  have sent or go away
-/

/-- The events of type `ε` in a channel and the senders of type `σ` at its end. -/
structure BoundedChannel (ε σ : Type) where
  capacity : Nat
  /-- The receiver has dropped its end. -/
  closed : Bool
  queue : List ε
  /-- What the receiver has taken out, in that order. -/
  received : List ε
  /-- The permits that nobody holds. -/
  permits : Nat
  /-- The senders that wait for a permit, the first first. -/
  waiting : List σ
  /-- The senders that were given a permit while they waited, and have not sent yet. -/
  granted : List σ
  accounted : queue.length + granted.length + permits = capacity
  exhausted : waiting = [] ∨ permits = 0
deriving DecidableEq

namespace BoundedChannel

variable {ε σ : Type}

def new (capacity : Nat) : BoundedChannel ε σ where
  capacity := capacity
  closed := false
  queue := []
  received := []
  permits := capacity
  waiting := []
  granted := []
  accounted := by simp
  exhausted := .inl rfl

/-- Everything that has ever been put into the channel. -/
def passed (ch : BoundedChannel ε σ) : List ε := ch.received ++ ch.queue

/-- Those that stand in line: first those that have their permits. -/
def senders (ch : BoundedChannel ε σ) : List σ := ch.granted ++ ch.waiting

/-- Whether an event can be put in without waiting. -/
def hasRoom (ch : BoundedChannel ε σ) : Bool := !ch.closed && 0 < ch.permits

/-- Put an event in, or drop it when the channel is closed or has no free permit. -/
def trySend (ch : BoundedChannel ε σ) (e : ε) : BoundedChannel ε σ :=
  if h : ch.hasRoom = true then
    { ch with
      queue := ch.queue ++ [e]
      permits := ch.permits - 1
      accounted := by
        have hpermits : 0 < ch.permits := by simp_all [hasRoom]
        have haccounted := ch.accounted
        rw [List.length_append, List.length_singleton]
        omega
      exhausted := ch.exhausted.imp_right fun hzero => by omega }
  else ch

/-- The queue of senders and the permits after one permit has come back. -/
def handOver (permits : Nat) (granted : List σ) : List σ → Nat × List σ × List σ
  | [] => (permits + 1, [], granted)
  | s :: rest => (permits, rest, granted ++ [s])

/-- A permit that comes back is handed on or free. -/
theorem handOver_accounted (permits : Nat) (granted waiting : List σ) :
    (handOver permits granted waiting).2.2.length + (handOver permits granted waiting).1 =
      granted.length + permits + 1 := by
  cases waiting with
  | nil =>
    show granted.length + (permits + 1) = _
    omega
  | cons s rest =>
    show (granted ++ [s]).length + permits = _
    rw [List.length_append, List.length_singleton]
    omega

/-- It is free only if nobody waits. -/
theorem handOver_exhausted {permits : Nat} {waiting : List σ} (granted : List σ)
    (h : waiting = [] ∨ permits = 0) :
    (handOver permits granted waiting).2.1 = [] ∨ (handOver permits granted waiting).1 = 0 := by
  cases waiting with
  | nil => exact .inl rfl
  | cons s rest => exact .inr (h.resolve_left (List.cons_ne_nil s rest))

/-- The line stays as it is. -/
theorem handOver_senders (permits : Nat) (granted waiting : List σ) :
    (handOver permits granted waiting).2.2 ++ (handOver permits granted waiting).2.1 =
      granted ++ waiting := by
  cases waiting with
  | nil => rfl
  | cons s rest => exact (List.append_cons granted s rest).symm

/-- The receiver takes the next event, if there is one, and its permit comes back. -/
def recv (ch : BoundedChannel ε σ) : BoundedChannel ε σ :=
  match h : ch.queue with
  | [] => ch
  | e :: rest =>
    { ch with
      queue := rest
      received := ch.received ++ [e]
      permits := (handOver ch.permits ch.granted ch.waiting).1
      waiting := (handOver ch.permits ch.granted ch.waiting).2.1
      granted := (handOver ch.permits ch.granted ch.waiting).2.2
      accounted := by
        have haccounted := ch.accounted
        have hback := handOver_accounted ch.permits ch.granted ch.waiting
        rw [h, List.length_cons] at haccounted
        omega
      exhausted := handOver_exhausted ch.granted ch.exhausted }

/-- The receiver drops its end; nobody waits for a permit any more. -/
def close (ch : BoundedChannel ε σ) : BoundedChannel ε σ :=
  { ch with
    closed := true
    waiting := []
    accounted := ch.accounted
    exhausted := .inl rfl }

section Senders

variable [DecidableEq σ]

/-- Whether a sender that is ready to wait can go on now: with an error, if the channel is closed. -/
def isReady (ch : BoundedChannel ε σ) (s : σ) : Bool := ch.closed || s ∈ ch.granted || 0 < ch.permits

/-- A sender puts its event in, with the permit that it was given or with a free one. -/
def send (ch : BoundedChannel ε σ) (s : σ) (e : ε) : BoundedChannel ε σ :=
  if h : s ∈ ch.granted then
    { ch with
      queue := ch.queue ++ [e]
      granted := ch.granted.erase s
      accounted := by
        have haccounted := ch.accounted
        have hpos := List.length_pos_of_mem h
        rw [List.length_append, List.length_singleton, List.length_erase_of_mem h]
        omega
      exhausted := ch.exhausted }
  else ch.trySend e

/-- A sender that finds no permit joins the queue. -/
def wait (ch : BoundedChannel ε σ) (s : σ) : BoundedChannel ε σ :=
  if h : ch.closed = false ∧ ch.permits = 0 ∧ s ∉ ch.waiting ∧ s ∉ ch.granted then
    { ch with
      waiting := ch.waiting ++ [s]
      accounted := ch.accounted
      exhausted := .inr h.2.1 }
  else ch

/-- A sender goes away; a permit that it was given comes back. -/
def leave (ch : BoundedChannel ε σ) (s : σ) : BoundedChannel ε σ :=
  if h : s ∈ ch.granted then
    { ch with
      permits := (handOver ch.permits (ch.granted.erase s) ch.waiting).1
      waiting := (handOver ch.permits (ch.granted.erase s) ch.waiting).2.1
      granted := (handOver ch.permits (ch.granted.erase s) ch.waiting).2.2
      accounted := by
        have haccounted := ch.accounted
        have hpos := List.length_pos_of_mem h
        have hback := handOver_accounted ch.permits (ch.granted.erase s) ch.waiting
        rw [List.length_erase_of_mem h] at hback
        omega
      exhausted := handOver_exhausted (ch.granted.erase s) ch.exhausted }
  else
    { ch with
      waiting := ch.waiting.erase s
      accounted := ch.accounted
      exhausted := ch.exhausted.imp_left fun hnil => by rw [hnil, List.erase_nil] }

end Senders

/-! ## Places and permits -/

/-- There is room in an open channel exactly if it has a place that is neither taken nor held for a
    sender that was given its permit, however many more have waited. -/
theorem hasRoom_iff {ch : BoundedChannel ε σ} :
    ch.hasRoom = true ↔ ch.closed = false ∧ ch.queue.length + ch.granted.length < ch.capacity := by
  have haccounted := ch.accounted
  rw [hasRoom, Bool.and_eq_true, Bool.not_eq_true', decide_eq_true_eq]
  exact and_congr_right fun _ => by omega

/-- So an open one has room then. -/
theorem hasRoom_of_empty {ch : BoundedChannel ε σ} (hopen : ch.closed = false)
    (hcapacity : 0 < ch.capacity) (hqueue : ch.queue = []) (hgranted : ch.granted = []) :
    ch.hasRoom = true := by
  rw [hasRoom_iff, hqueue, hgranted]
  exact ⟨hopen, hcapacity⟩

/-- While a permit is free, those in line all have theirs. -/
theorem senders_of_permits {ch : BoundedChannel ε σ} (h : 0 < ch.permits) :
    ch.senders = ch.granted := by
  unfold senders
  rw [ch.exhausted.resolve_right (by omega), List.append_nil]

/-! ## Sending without waiting -/

/-- With room, an event is put in at the end. -/
theorem queue_trySend_of_room {ch : BoundedChannel ε σ} (h : ch.hasRoom = true) (e : ε) :
    (ch.trySend e).queue = ch.queue ++ [e] := by
  unfold trySend
  rw [dif_pos h]

/-- Without, it is lost. -/
theorem trySend_of_not_room {ch : BoundedChannel ε σ} (h : ch.hasRoom = false) (e : ε) :
    ch.trySend e = ch := by
  unfold trySend
  rw [dif_neg (by simp [h])]

/-- No event leaves the channel by that. -/
theorem queue_prefix_trySend (ch : BoundedChannel ε σ) (e : ε) :
    ch.queue <+: (ch.trySend e).queue := by
  cases h : ch.hasRoom with
  | true => exact ⟨[e], (queue_trySend_of_room h e).symm⟩
  | false => exact ⟨[], by rw [trySend_of_not_room h, List.append_nil]⟩

/-- Nor is one that has passed taken back. -/
theorem passed_prefix_trySend (ch : BoundedChannel ε σ) (e : ε) :
    ch.passed <+: (ch.trySend e).passed := by
  obtain ⟨new, hqueue⟩ := ch.queue_prefix_trySend e
  refine ⟨new, ?_⟩
  have hreceived : (ch.trySend e).received = ch.received := by
    unfold trySend
    split <;> rfl
  rw [passed, passed, hreceived, ← hqueue, List.append_assoc]

/-- With room, the event has passed. -/
theorem mem_passed_trySend {ch : BoundedChannel ε σ} (h : ch.hasRoom = true) (e : ε) :
    e ∈ (ch.trySend e).passed := by
  unfold passed
  rw [queue_trySend_of_room h]
  exact List.mem_append_right _ List.mem_concat_self

/-- Nobody has got in line by that. -/
theorem senders_trySend (ch : BoundedChannel ε σ) (e : ε) :
    (ch.trySend e).senders = ch.senders := by
  unfold trySend
  split <;> rfl

/-- Trying to send takes nothing out. -/
@[simp] theorem received_trySend (ch : BoundedChannel ε σ) (e : ε) :
    (ch.trySend e).received = ch.received := by
  unfold trySend
  split <;> rfl

/-- Trying to send keeps the capacity. -/
@[simp] theorem capacity_trySend (ch : BoundedChannel ε σ) (e : ε) :
    (ch.trySend e).capacity = ch.capacity := by
  unfold trySend
  split <;> rfl

/-- Trying to send does not close the channel. -/
@[simp] theorem closed_trySend (ch : BoundedChannel ε σ) (e : ε) :
    (ch.trySend e).closed = ch.closed := by
  unfold trySend
  split <;> rfl

/-! ## Receiving -/

/-- The reader takes the first event. -/
theorem queue_recv (ch : BoundedChannel ε σ) : ch.recv.queue = ch.queue.tail := by
  unfold recv
  split
  · rename_i h
    rw [h, List.tail_nil]
  · rename_i e rest h
    show rest = ch.queue.tail
    rw [h, List.tail_cons]

/-- What the reader takes out has passed the channel. -/
theorem passed_recv (ch : BoundedChannel ε σ) : ch.recv.passed = ch.passed := by
  unfold recv passed
  split
  · rfl
  · rename_i e rest h
    show ch.received ++ [e] ++ rest = ch.received ++ ch.queue
    rw [h, List.append_assoc, List.singleton_append]

section Permits

variable [DecidableEq σ]

/-- A sender that is ready puts its event in at the end, where the channel is open. -/
theorem queue_send {ch : BoundedChannel ε σ} {s : σ} (hopen : ch.closed = false)
    (hready : ch.isReady s = true) (e : ε) : (ch.send s e).queue = ch.queue ++ [e] := by
  unfold send
  split
  · rfl
  · rename_i hgranted
    -- it was given no permit, so there is a free one
    have hpermits : 0 < ch.permits := by
      simp only [isReady, hopen, Bool.false_or, Bool.or_eq_true, decide_eq_true_eq] at hready
      exact hready.resolve_left hgranted
    exact queue_trySend_of_room (by simp [hasRoom, hopen, hpermits]) e

/-- A send takes nothing out of the queue and overtakes nothing in it. -/
theorem queue_prefix_send (ch : BoundedChannel ε σ) (s : σ) (e : ε) :
    ch.queue <+: (ch.send s e).queue := by
  unfold send
  split
  · exact List.prefix_append ch.queue [e]
  · exact ch.queue_prefix_trySend e

/-- It leaves the line with that. -/
theorem senders_send {ch : BoundedChannel ε σ} {s : σ} (hopen : ch.closed = false)
    (hready : ch.isReady s = true) (e : ε) : (ch.send s e).senders = ch.senders.erase s := by
  unfold send
  split
  · rename_i hgranted
    exact (List.erase_append_left ch.waiting hgranted).symm
  · rename_i hgranted
    have hpermits : 0 < ch.permits := by
      simp only [isReady, hopen, Bool.false_or, Bool.or_eq_true, decide_eq_true_eq] at hready
      exact hready.resolve_left hgranted
    have hout : s ∉ ch.senders := by rwa [senders_of_permits hpermits]
    rw [senders_trySend, List.erase_of_not_mem hout]

/-- Sending takes nothing out. -/
@[simp] theorem received_send (ch : BoundedChannel ε σ) (s : σ) (e : ε) :
    (ch.send s e).received = ch.received := by
  unfold send
  split
  · rfl
  · exact ch.received_trySend e

/-- Sending keeps the capacity. -/
@[simp] theorem capacity_send (ch : BoundedChannel ε σ) (s : σ) (e : ε) :
    (ch.send s e).capacity = ch.capacity := by
  unfold send
  split
  · rfl
  · exact ch.capacity_trySend e

/-- Sending does not close the channel. -/
@[simp] theorem closed_send (ch : BoundedChannel ε σ) (s : σ) (e : ε) :
    (ch.send s e).closed = ch.closed := by
  unfold send
  split
  · rfl
  · exact ch.closed_trySend e

/-- A sender that waits is in line, once. -/
theorem senders_wait (ch : BoundedChannel ε σ) (s : σ) :
    (ch.wait s).senders = ch.senders ∨
      (s ∉ ch.senders ∧ (ch.wait s).senders = ch.senders ++ [s]) := by
  unfold wait
  split
  · rename_i h
    refine .inr ⟨?_, (List.append_assoc ..).symm⟩
    simp only [senders, List.mem_append, not_or]
    exact ⟨h.2.2.2, h.2.2.1⟩
  · exact .inl rfl

/-- A sender that goes away is in line no more. -/
theorem senders_leave (ch : BoundedChannel ε σ) (s : σ) :
    (ch.leave s).senders = ch.senders.erase s := by
  unfold leave
  split
  · rename_i hgranted
    show (handOver ch.permits (ch.granted.erase s) ch.waiting).2.2 ++
      (handOver ch.permits (ch.granted.erase s) ch.waiting).2.1 = (ch.granted ++ ch.waiting).erase s
    rw [handOver_senders, List.erase_append_left ch.waiting hgranted]
  · rename_i hgranted
    exact (List.erase_append_right ch.waiting hgranted).symm

/-- A sender that joins or leaves the line changes nothing else. -/
structure SameEvents (ch ch' : BoundedChannel ε σ) : Prop where
  capacity : ch'.capacity = ch.capacity
  closed : ch'.closed = ch.closed
  queue : ch'.queue = ch.queue
  received : ch'.received = ch.received

omit [DecidableEq σ] in
/-- A channel has the same events as itself. -/
theorem SameEvents.refl (ch : BoundedChannel ε σ) : SameEvents ch ch := ⟨rfl, rfl, rfl, rfl⟩

/-- Joining the waiters moves no event. -/
theorem sameEvents_wait (ch : BoundedChannel ε σ) (s : σ) : SameEvents ch (ch.wait s) := by
  unfold wait
  split
  · exact ⟨rfl, rfl, rfl, rfl⟩
  · exact .refl ch

/-- Leaving the waiters moves no event. -/
theorem sameEvents_leave (ch : BoundedChannel ε σ) (s : σ) : SameEvents ch (ch.leave s) := by
  unfold leave
  split <;> exact ⟨rfl, rfl, rfl, rfl⟩

end Permits

end BoundedChannel
