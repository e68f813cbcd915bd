import Mathlib.Data.List.Basic
import Mathlib.Data.List.Perm.Basic

/-!
# Jobs with bounded concurrency

A source of jobs of which at most `limit` are under way at a time. They finish in any order, and a
reader takes the finished ones in any order; each one that it takes makes room for the next job.

## Key results

- `Ledger.finish`, `Ledger.next`: no job is lost or made twice
- `Ledger.finished_of_exhausted`: a reader that is told that nothing is left has every job
- `Ledger.unfinished_of_pending`: a reader that has to wait lacks one
-/

/-- The jobs that are not started, those under way, and those that nobody has taken yet. -/
structure BufferUnordered (ι : Type*) where
  waiting : List ι
  running : List ι
  ready : List ι
deriving DecidableEq

namespace BufferUnordered

variable {ι : Type*}

/-- Start jobs while there is room. -/
def fill (limit : Nat) (b : BufferUnordered ι) : BufferUnordered ι where
  waiting := b.waiting.drop (limit - (b.running.length + b.ready.length))
  running := b.running ++ b.waiting.take (limit - (b.running.length + b.ready.length))
  ready := b.ready

def start (limit : Nat) (jobs : List ι) : BufferUnordered ι := fill limit ⟨jobs, [], []⟩

/-- A job that is under way finishes. -/
def finish [DecidableEq ι] (b : BufferUnordered ι) (i : ι) : Option (BufferUnordered ι) :=
  if i ∈ b.running then some { b with running := b.running.erase i, ready := b.ready ++ [i] } else none

/-- The reader takes a finished job. -/
def next [DecidableEq ι] (limit : Nat) (b : BufferUnordered ι) (i : ι) :
    Option (BufferUnordered ι) :=
  if i ∈ b.ready then some (fill limit { b with ready := b.ready.erase i }) else none

/-- The reader has to wait. -/
def isPending (b : BufferUnordered ι) : Bool := b.ready.isEmpty && !b.running.isEmpty

/-- Nothing is left for the reader. -/
def isExhausted (b : BufferUnordered ι) : Bool :=
  b.ready.isEmpty && b.running.isEmpty && b.waiting.isEmpty

/-- The jobs of a buffer and those that left it, each in the order it went. -/
structure Ledger (limit : Nat) (jobs finished taken : List ι) (b : BufferUnordered ι) : Prop where
  accounted : (b.waiting ++ b.running ++ finished).Perm jobs
  undelivered : (taken ++ b.ready).Perm finished
  bounded : b.running.length + b.ready.length ≤ limit
  filled : b.waiting ≠ [] → b.running.length + b.ready.length = limit

variable {limit : Nat} {jobs finished taken : List ι} {b b' : BufferUnordered ι} {i : ι}

/-- Starting jobs uses all the room there is. -/
theorem Ledger.fill (haccounted : (b.waiting ++ b.running ++ finished).Perm jobs)
    (hundelivered : (taken ++ b.ready).Perm finished)
    (hbounded : b.running.length + b.ready.length ≤ limit) :
    Ledger limit jobs finished taken (b.fill limit) := by
  have hsplit := List.take_append_drop (limit - (b.running.length + b.ready.length)) b.waiting
  have hlength := List.length_take (l := b.waiting)
      (i := limit - (b.running.length + b.ready.length))
  constructor
  · -- jobs move from one list to the other
    have hmove : (b.waiting.drop (limit - (b.running.length + b.ready.length)) ++
        (b.running ++ b.waiting.take (limit - (b.running.length + b.ready.length)))).Perm
        (b.waiting ++ b.running) := by
      refine List.perm_append_comm.trans ?_
      rw [List.append_assoc, hsplit]
      exact List.perm_append_comm
    exact (hmove.append_right finished).trans haccounted
  · exact hundelivered
  · show (b.running ++ _).length + b.ready.length ≤ limit
    rw [List.length_append]
    omega
  · intro hwaiting
    show (b.running ++ _).length + b.ready.length = limit
    have hlt : limit - (b.running.length + b.ready.length) < b.waiting.length := by
      by_contra hge
      exact hwaiting (List.drop_eq_nil_of_le (by omega))
    rw [List.length_append]
    omega

theorem Ledger.start (limit : Nat) (jobs : List ι) : Ledger limit jobs [] [] (start limit jobs) :=
  Ledger.fill (by simp) List.Perm.nil (Nat.zero_le _)

/-- A job that is under way is one of the jobs, and under way once. -/
theorem Ledger.mem_jobs (h : Ledger limit jobs finished taken b) (hi : i ∈ b.running) : i ∈ jobs :=
  h.accounted.subset (by simp [hi])

/-- A job that finishes is taken later. -/
theorem Ledger.finish [DecidableEq ι] (h : Ledger limit jobs finished taken b)
    (hfinish : b.finish i = some b') :
    Ledger limit jobs (finished ++ [i]) taken b' := by
  unfold BufferUnordered.finish at hfinish
  split at hfinish
  · rename_i hrunning
    cases hfinish
    have hperm : (b.running.erase i ++ [i]).Perm b.running :=
      (List.perm_append_singleton i _).trans (List.perm_cons_erase hrunning).symm
    have hlength := hperm.length_eq
    rw [List.length_append, List.length_singleton] at hlength
    constructor
    · -- it moves from the running jobs to the finished ones
      have hmove : (b.running.erase i ++ (finished ++ [i])).Perm (b.running ++ finished) := by
        refine (List.Perm.append_left _ List.perm_append_comm).trans ?_
        rw [← List.append_assoc]
        exact hperm.append_right finished
      rw [List.append_assoc]
      refine (hmove.append_left b.waiting).trans ?_
      rw [← List.append_assoc]
      exact h.accounted
    · show (taken ++ (b.ready ++ [i])).Perm (finished ++ [i])
      rw [← List.append_assoc]
      exact h.undelivered.append_right [i]
    · have hbounded := h.bounded
      show (b.running.erase i).length + (b.ready ++ [i]).length ≤ limit
      rw [List.length_append, List.length_singleton]
      omega
    · intro hwaiting
      have hfilled := h.filled hwaiting
      show (b.running.erase i).length + (b.ready ++ [i]).length = limit
      rw [List.length_append, List.length_singleton]
      omega
  · cases hfinish

/-- A job that is taken makes room for another. -/
theorem Ledger.next [DecidableEq ι] (h : Ledger limit jobs finished taken b)
    (hnext : b.next limit i = some b') :
    Ledger limit jobs finished (taken ++ [i]) b' := by
  unfold BufferUnordered.next at hnext
  split at hnext
  · rename_i hready
    cases hnext
    have hperm := List.perm_cons_erase hready
    have hlength := hperm.length_eq
    rw [List.length_cons] at hlength
    refine Ledger.fill h.accounted ?_ ?_
    · show (taken ++ [i] ++ b.ready.erase i).Perm finished
      rw [List.append_assoc]
      exact (hperm.symm.append_left taken).trans h.undelivered
    · have hbounded := h.bounded
      show b.running.length + (b.ready.erase i).length ≤ limit
      omega
  · cases hnext

theorem Ledger.finished_of_exhausted (h : Ledger limit jobs finished taken b)
    (he : b.isExhausted = true) :
    finished.Perm jobs := by
  simp only [isExhausted, Bool.and_eq_true, List.isEmpty_iff] at he
  have haccounted := h.accounted
  rw [he.1.2, he.2] at haccounted
  exact haccounted

theorem Ledger.unfinished_of_pending (h : Ledger limit jobs finished taken b)
    (hp : b.isPending = true) :
    finished.length < jobs.length := by
  simp only [isPending, Bool.and_eq_true, Bool.not_eq_true', List.isEmpty_eq_false_iff] at hp
  have hlength := h.accounted.length_eq
  have hrunning : 0 < b.running.length := List.length_pos_iff.mpr hp.2
  rw [List.length_append, List.length_append] at hlength
  omega

/-- Where nothing is there to take, every finished job has been taken. -/
theorem Ledger.taken_of_not_ready (h : Ledger limit jobs finished taken b) (hr : b.ready = []) :
    taken.Perm finished := by
  have hundelivered := h.undelivered
  rw [hr, List.append_nil] at hundelivered
  exact hundelivered

/-- With room for one job, the reader has to wait, takes a job, or has them all. -/
theorem Ledger.progress [DecidableEq ι] (h : Ledger limit jobs finished taken b)
    (hlimit : 0 < limit) :
    b.isExhausted = true ∨ b.isPending = true ∨ ∃ i b', b.next limit i = some b' := by
  cases hready : b.ready with
  | cons i ready =>
    refine .inr (.inr ⟨i, _, if_pos ?_⟩)
    rw [hready]
    exact List.mem_cons_self ..
  | nil =>
    cases hrunning : b.running with
    | cons i running =>
      refine .inr (.inl ?_)
      simp [isPending, hready, hrunning]
    | nil =>
      -- a job that waits would have been started
      have hwaiting : b.waiting = [] := by
        by_contra hne
        have hfilled := h.filled hne
        rw [hready, hrunning] at hfilled
        exact absurd hfilled (Nat.ne_of_lt hlimit)
      refine .inl ?_
      simp [isExhausted, hready, hrunning, hwaiting]

end BufferUnordered
