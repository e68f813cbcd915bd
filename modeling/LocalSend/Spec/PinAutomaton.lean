import Mathlib.Data.Finset.Card
import LocalSend.Server.Pin

/-!
# What the PIN gate is for one peer

The gate keeps one table for all peers, forgets lockouts when they have run out, and
evicts entries when the table is full. What a peer sees of it is a small automaton on
its own requests alone: it remembers when the peer presented wrong values since its last
correct one, and locks it out after every third of them.

## Key results

- `check_eq`: one call, as far as the table has room
- `refines`: the verdicts of a peer are those of the automaton
- `Spaced.lockout_le`: four wrong values in a row take at least `lockout`
- `pin_gate_refines`: the refinement, and what follows for one peer
-/

namespace LocalSend

/-- One call of `check`. -/
structure PinCall where
  now : Nat
  provided : Option String
  peer : IpAddr
deriving DecidableEq

namespace PinGate

/-- A sequence of calls, each with its verdict. -/
def checks (g : PinGate) : List PinCall → List (PinCall × PinVerdict)
  | [] => []
  | c :: cs =>
    let r := g.check c.now c.provided c.peer
    (c, r.1) :: r.2.checks cs

end PinGate

/-! ## The automaton of one peer -/

/-- Wrong values lock a peer out, three at a time, for `lockout` after the last of them.
    `wrongs` are the times of those since its last correct value, the latest first. -/
def PinLocked (wrongs : List Nat) (now : Nat) : Prop :=
  maxFailures ∣ wrongs.length ∧ ∃ last, wrongs.head? = some last ∧ now < last + lockout

instance (wrongs : List Nat) (now : Nat) : Decidable (PinLocked wrongs now) :=
  match h : wrongs.head? with
  | none => isFalse fun ⟨_, _, hlast, _⟩ => nomatch h.symm.trans hlast
  | some last => decidable_of_iff (maxFailures ∣ wrongs.length ∧ now < last + lockout) <| by
      simp [PinLocked, h]

/-- One request of a peer: a locked out one is not compared, a missing PIN is not counted. -/
def PinAutomaton.step (pin : String) (wrongs : List Nat) (c : PinCall) : PinVerdict × List Nat :=
  if PinLocked wrongs c.now then (.lockedOut, wrongs)
  else
    match c.provided with
    | none => (.unauthorized, wrongs)
    | some value => if value = pin then (.ok true, []) else (.unauthorized, c.now :: wrongs)

/-- The automaton on a peer's own requests. -/
def PinAutomaton.run (pin : String) (wrongs : List Nat) :
    List PinCall → List (PinCall × PinVerdict)
  | [] => []
  | c :: cs =>
    let r := PinAutomaton.step pin wrongs c
    (c, r.1) :: run pin r.2 cs

/-- A wrong value was compared. -/
def PinCompared (e : PinCall × PinVerdict) : Bool := e.1.provided.isSome && e.2 = .unauthorized

namespace PinGate

/-! ## Comparing values -/

/-- The bytes of a string as a list are those of its array. -/
theorem toList_eq_data (bytes : ByteArray) : bytes.toList = bytes.data.toList := by
  have hloop : ∀ i r, ByteArray.toList.loop bytes i r = r.reverse ++ bytes.data.toList.drop i := by
    intro i r
    fun_induction ByteArray.toList.loop bytes i r with
    | case1 i r h ih =>
      have hi : i < bytes.data.toList.length := h
      have hget : bytes.get! i = bytes.data.toList[i] := getElem!_pos bytes.data i h
      rw [ih, List.reverse_cons, List.append_assoc, List.drop_eq_getElem_cons hi, hget]
      rfl
    | case2 i r h =>
      have hi : bytes.data.toList.length ≤ i := Nat.le_of_not_lt h
      rw [List.drop_eq_nil_of_le hi, List.append_nil]
  rw [ByteArray.toList, hloop]
  rfl

/-- Collecting the differing bits with `|` and `^` finds the first difference. -/
theorem foldl_or_xor_eq_zero (xs : List (UInt8 × UInt8)) (acc : UInt8) :
    xs.foldl (fun acc p => acc ||| (p.1 ^^^ p.2)) acc = 0 ↔ acc = 0 ∧ ∀ p ∈ xs, p.1 = p.2 := by
  induction xs generalizing acc with
  | nil => simp
  | cons p xs ih =>
    rw [List.foldl_cons, ih, UInt8.or_eq_zero_iff, UInt8.xor_eq_zero_iff, List.forall_mem_cons,
      and_assoc]

theorem constantTimeEq_iff (a b : List UInt8) : constantTimeEq a b = true ↔ a = b := by
  induction a generalizing b with
  | nil => cases b <;> simp [constantTimeEq]
  | cons x a ih =>
    cases b with
    | nil => simp [constantTimeEq]
    | cons y b =>
      have htail := ih b
      by_cases hlen : a.length = b.length
      · simp only [constantTimeEq, hlen, List.length_cons, ne_eq, not_true_eq_false, if_false,
          decide_eq_true_eq, foldl_or_xor_eq_zero, true_and, List.zip_cons_cons,
          List.forall_mem_cons, List.cons.injEq] at htail ⊢
        rw [htail]
      · have hne : a ≠ b := fun h => hlen (congrArg List.length h)
        simp [constantTimeEq, hlen, hne]

/-- `check` compares the values as strings. -/
theorem constantTimeEq_toUTF8 (a b : String) :
    constantTimeEq a.toUTF8.toList b.toUTF8.toList = true ↔ a = b := by
  rw [constantTimeEq_iff, toList_eq_data, toList_eq_data]
  constructor
  · intro h
    have harray : a.toUTF8.data = b.toUTF8.data := Array.toList_inj.mp h
    exact String.toByteArray_inj.mp (ByteArray.ext harray)
  · rintro rfl
    rfl

/-! ## One call -/

/-- What `check` does to the entry of its peer. -/
def checkEntry (pin : String) (entry : Option (Nat × Nat)) (now : Nat) (provided : Option String) :
    PinVerdict × Option (Nat × Nat) :=
  if entry.any fun e => e.1 ≥ maxFailures && now - e.2 < lockout then (.lockedOut, entry)
  else
    let entry := if entry.any fun e => e.1 ≥ maxFailures then none else entry
    match provided with
    | none => (.unauthorized, entry)
    | some value =>
      if value = pin then (.ok true, none)
      else (.unauthorized, some ((entry.map Prod.fst).getD 0 + 1, now))

/-- A call is about its peer only, as long as a peer that is not in the table finds room. -/
theorem check_eq {g : PinGate} {pin : String} (hpin : g.pin = some pin) (now : Nat)
    (provided : Option String) (peer : IpAddr)
    (hroom : ∀ h : AssocMap IpAddr (Nat × Nat), (h = g.failures ∨ h = g.failures.erase peer) →
      h.get? peer = none → h.size < maxTrackedPeers) :
    (g.check now provided peer).1 = (checkEntry pin (g.failures.get? peer) now provided).1 ∧
    (g.check now provided peer).2.pin = some pin ∧
    ∀ q, (g.check now provided peer).2.failures.get? q =
      if q = peer then (checkEntry pin (g.failures.get? peer) now provided).2
      else g.failures.get? q := by
  obtain ⟨_, failures, wrongValues⟩ := g
  cases hpin
  unfold check checkEntry
  dsimp only
  generalize hentry : failures.get? peer = entry
  -- a locked peer is refused before anything is looked at
  split
  · refine ⟨rfl, rfl, fun q => ?_⟩
    split
    · rename_i hq
      rw [hq, hentry]
    · rfl
  -- the table once a lockout that has run out is forgotten
  obtain ⟨table, htable, heither, hself, hother⟩ : ∃ table,
      (if entry.any fun e => e.1 ≥ maxFailures then
        (⟨some pin, failures.erase peer, wrongValues⟩ : PinGate)
        else ⟨some pin, failures, wrongValues⟩) = ⟨some pin, table, wrongValues⟩ ∧
      (table = failures ∨ table = failures.erase peer) ∧
      table.get? peer = (if entry.any fun e => e.1 ≥ maxFailures then none else entry) ∧
      ∀ q, q ≠ peer → table.get? q = failures.get? q := by
    split
    · refine ⟨failures.erase peer, rfl, .inr rfl, ?_, fun q hq => ?_⟩
      · rw [AssocMap.get?_erase, if_pos rfl]
      · rw [AssocMap.get?_erase, if_neg hq]
    · exact ⟨failures, rfl, .inl rfl, hentry, fun _ _ => rfl⟩
  rw [htable, ← hself]
  -- no PIN: the attempt does not count
  cases provided with
  | none =>
    refine ⟨rfl, rfl, fun q => ?_⟩
    by_cases hq : q = peer
    · rw [if_pos hq, hq]
    · rw [if_neg hq]
      exact hother q hq
  | some value =>
    dsimp only
    -- the right one clears the entry, a wrong one counts
    by_cases hvalue : value = pin
    · rw [if_pos hvalue, if_pos ((constantTimeEq_toUTF8 value pin).mpr hvalue)]
      refine ⟨rfl, rfl, fun q => ?_⟩
      rw [AssocMap.get?_erase]
      split
      · rfl
      · exact hother q (by assumption)
    · rw [if_neg hvalue, if_neg fun h => hvalue ((constantTimeEq_toUTF8 value pin).mp h)]
      -- a peer that is not in the table finds room, so nobody is evicted
      have hmake : ∀ n, (if table.contains peer then (⟨some pin, table, n⟩ : PinGate)
          else makeRoom ⟨some pin, table, n⟩ now) = ⟨some pin, table, n⟩ := by
        intro n
        split
        · rfl
        · rename_i hcontains
          have hnone : table.get? peer = none := by simpa [AssocMap.contains] using hcontains
          exact if_pos (hroom table heither hnone)
      rw [hmake]
      refine ⟨rfl, rfl, fun q => ?_⟩
      dsimp only
      rw [AssocMap.get?_insert]
      split
      · rfl
      · exact hother q (by assumption)

/-! ## Any number of calls -/

/-- The entry of a peer and what the automaton remembers of it, at a time no later call is
    before. An entry that is missing stands for a lockout that has run out. -/
def EntryFits (now : Nat) (wrongs : List Nat) : Option (Nat × Nat) → Prop
  | none => maxFailures ∣ wrongs.length ∧ ∀ last, wrongs.head? = some last → last + lockout ≤ now
  | some (count, last) => wrongs.head? = some last ∧ 0 < count ∧ count ≤ maxFailures ∧
      wrongs.length % maxFailures = count % maxFailures

theorem EntryFits.mono {now now' : Nat} {wrongs : List Nat} {entry : Option (Nat × Nat)}
    (h : EntryFits now wrongs entry) (hle : now ≤ now') : EntryFits now' wrongs entry := by
  cases entry with
  | none => exact ⟨h.1, fun last hlast => (h.2 last hlast).trans hle⟩
  | some e => exact h

/-- An entry stands for a lockout exactly when the automaton is locked. -/
theorem locked_iff {wrongs : List Nat} {now : Nat} {entry : Option (Nat × Nat)}
    (hfits : EntryFits now wrongs entry) :
    (entry.any fun e => e.1 ≥ maxFailures && now - e.2 < lockout) = true ↔
      PinLocked wrongs now := by
  have hpos : 0 < lockout := by decide
  cases entry with
  -- no entry: no failure is recent enough to lock
  | none =>
    refine iff_of_false (by simp) ?_
    rintro ⟨_, last, hlast, hnow⟩
    have hout := hfits.2 last hlast
    omega
  | some e =>
    obtain ⟨count, last⟩ := e
    obtain ⟨hlast, hcount, hle, hmod⟩ := hfits
    -- the count is the number of failures since the last lockout
    have hthird : maxFailures ∣ wrongs.length ↔ count ≥ maxFailures := by
      unfold maxFailures at *
      omega
    simp only [Option.any_some, Bool.and_eq_true, decide_eq_true_eq, PinLocked, hthird, hlast,
      Option.some.injEq, exists_eq_left']
    omega

/-- What is left of the entry of a peer that is not locked out. -/
theorem EntryFits.forget {wrongs : List Nat} {now : Nat} {entry : Option (Nat × Nat)}
    (hfits : EntryFits now wrongs entry) (hfree : ¬PinLocked wrongs now) :
    EntryFits now wrongs (if entry.any fun e => e.1 ≥ maxFailures then none else entry) := by
  split
  · rename_i hfull
    cases entry with
    | none => simp at hfull
    | some e =>
      obtain ⟨count, last⟩ := e
      obtain ⟨hlast, _, hle, hmod⟩ := hfits
      simp only [Option.any_some, decide_eq_true_eq] at hfull
      have hthird : maxFailures ∣ wrongs.length := by
        unfold maxFailures at *
        omega
      refine ⟨hthird, fun t ht => ?_⟩
      refine Nat.le_of_not_lt fun hnow => hfree ⟨hthird, t, ht, hnow⟩
  · exact hfits

/-- A wrong value is counted on both sides. -/
theorem EntryFits.wrong {wrongs : List Nat} {now : Nat} {entry : Option (Nat × Nat)}
    (hfits : EntryFits now wrongs entry)
    (hroom : (entry.any fun e => e.1 ≥ maxFailures) = false) :
    EntryFits now (now :: wrongs) (some ((entry.map Prod.fst).getD 0 + 1, now)) := by
  -- the first failure, or the next after fewer than three
  cases entry with
  | none =>
    obtain ⟨hthird, _⟩ := hfits
    refine ⟨rfl, Nat.succ_pos _, by decide, ?_⟩
    simp only [Option.map_none, Option.getD_none, List.length_cons]
    unfold maxFailures at *
    omega
  | some e =>
    obtain ⟨count, last⟩ := e
    obtain ⟨_, _, hle, hmod⟩ := hfits
    simp only [Option.any_some, decide_eq_false_iff_not] at hroom
    refine ⟨rfl, Nat.succ_pos _, ?_, ?_⟩
    · simp only [Option.map_some, Option.getD_some]
      omega
    · simp only [Option.map_some, Option.getD_some, List.length_cons]
      unfold maxFailures at *
      omega

/-- One call of the gate is one step of the automaton. -/
theorem checkEntry_step {pin : String} {wrongs : List Nat} {entry : Option (Nat × Nat)}
    {c : PinCall} (hfits : EntryFits c.now wrongs entry) :
    (checkEntry pin entry c.now c.provided).1 = (PinAutomaton.step pin wrongs c).1 ∧
      EntryFits c.now (PinAutomaton.step pin wrongs c).2
        (checkEntry pin entry c.now c.provided).2 := by
  unfold checkEntry PinAutomaton.step
  -- both are locked at the same times
  by_cases hlocked : PinLocked wrongs c.now
  · rw [if_pos ((locked_iff hfits).mpr hlocked), if_pos hlocked]
    exact ⟨rfl, hfits⟩
  · rw [if_neg fun h => hlocked ((locked_iff hfits).mp h), if_neg hlocked]
    have hforget := hfits.forget hlocked
    dsimp only
    -- an entry that is left has fewer than three failures
    have hroom : ((if entry.any fun e => e.1 ≥ maxFailures then none else entry).any
        fun e => e.1 ≥ maxFailures) = false := by
      split
      · rfl
      · exact Bool.not_eq_true _ ▸ by assumption
    generalize (if entry.any fun e => e.1 ≥ maxFailures then none else entry) = left
      at hforget hroom ⊢
    -- no PIN, the right one, a wrong one
    cases c.provided with
    | none => exact ⟨rfl, hforget⟩
    | some value =>
      dsimp only
      split
      · exact ⟨rfl, ⟨0, rfl⟩, by simp⟩
      · exact ⟨rfl, hforget.wrong hroom⟩

/-- The table has entries of the peers in `peers` only. -/
def Tracks (g : PinGate) (peers : Finset IpAddr) : Prop :=
  ∀ q e, g.failures.get? q = some e → q ∈ peers

/-- A peer of `peers` that is not in the table finds room in it. -/
theorem size_lt_of_tracks {table : AssocMap IpAddr (Nat × Nat)} {peers : Finset IpAddr}
    (htable : ∀ q e, table.get? q = some e → q ∈ peers) {peer : IpAddr} (hpeer : peer ∈ peers)
    (hnone : table.get? peer = none) : table.size < peers.card := by
  have hsize : table.size = table.keys.toFinset.card := by
    have hnodup : table.keys.Nodup := table.nodup
    rw [List.toFinset_card_of_nodup hnodup, AssocMap.keys, List.length_map, AssocMap.size]
  rw [hsize]
  apply Finset.card_lt_card
  refine Finset.ssubset_iff_subset_ne.mpr ⟨fun q hq => ?_, fun heq => ?_⟩
  · obtain ⟨e, he⟩ := AssocMap.mem_keys_iff.mp (List.mem_toFinset.mp hq)
    exact htable q e he
  · rw [← heq, List.mem_toFinset, AssocMap.mem_keys_iff] at hpeer
    obtain ⟨e, he⟩ := hpeer
    cases hnone.symm.trans he

/-- One call, seen from one peer. -/
theorem check_step {g : PinGate} {pin : String} {peers : Finset IpAddr} (hpin : g.pin = some pin)
    (htracks : g.Tracks peers) (hcard : peers.card ≤ maxTrackedPeers) {c : PinCall}
    (hc : c.peer ∈ peers) :
    (g.check c.now c.provided c.peer).1 =
      (checkEntry pin (g.failures.get? c.peer) c.now c.provided).1 ∧
    (g.check c.now c.provided c.peer).2.pin = some pin ∧
    (g.check c.now c.provided c.peer).2.Tracks peers ∧
    ∀ q, (g.check c.now c.provided c.peer).2.failures.get? q = if q = c.peer then
      (checkEntry pin (g.failures.get? c.peer) c.now c.provided).2 else g.failures.get? q := by
  -- the peers are no more than the table holds, so a new one finds room
  obtain ⟨hverdict, hpin', hentries⟩ := check_eq hpin c.now c.provided c.peer (by
    intro table htable hnone
    refine (size_lt_of_tracks ?_ hc hnone).trans_le hcard
    rcases htable with rfl | rfl
    · exact htracks
    · intro q e he
      rw [AssocMap.get?_erase] at he
      split at he
      · simp at he
      · exact htracks q e he)
  -- a wrong value adds its own peer only
  refine ⟨hverdict, hpin', fun q e he => ?_, hentries⟩
  rw [hentries] at he
  split at he
  · rename_i hq
    exact hq ▸ hc
  · exact htracks q e he

/-- The verdicts of a peer are those of the automaton on its own calls. -/
theorem refines {pin : String} {peers : Finset IpAddr} (hcard : peers.card ≤ maxTrackedPeers)
    (p : IpAddr) (calls : List PinCall) (hsorted : calls.Pairwise fun c d => c.now ≤ d.now)
    (hpeers : ∀ c ∈ calls, c.peer ∈ peers) {g : PinGate} (hpin : g.pin = some pin)
    (htracks : g.Tracks peers) {wrongs : List Nat}
    (hfits : ∀ c ∈ calls, EntryFits c.now wrongs (g.failures.get? p)) :
    (g.checks calls).filter (fun e => e.1.peer = p) =
      PinAutomaton.run pin wrongs (calls.filter fun c => c.peer = p) := by
  -- by induction on the calls: those of other peers leave the entry of `p` alone
  induction calls generalizing g wrongs with
  | nil => rfl
  | cons c cs ih =>
    rw [List.pairwise_cons] at hsorted
    rw [List.forall_mem_cons] at hpeers hfits
    obtain ⟨hverdict, hpin', htracks', hentries⟩ := check_step hpin htracks hcard hpeers.1
    have hrest := fun {ws} =>
        @ih hsorted.2 hpeers.2 (g.check c.now c.provided c.peer).2 hpin' htracks' ws
    rw [hentries] at hrest
    unfold checks
    -- a call of `p` is a step of the automaton
    by_cases hc : c.peer = p
    · subst hc
      obtain ⟨hstep, hfits'⟩ := @checkEntry_step pin _ _ c hfits.1
      simp only [List.filter_cons, decide_true, if_true, PinAutomaton.run, hverdict, hstep]
      rw [if_pos rfl] at hrest
      rw [hrest fun d hd => hfits'.mono (hsorted.1 d hd)]
    · rw [if_neg (Ne.symm hc)] at hrest
      simp only [List.filter_cons, hc, decide_false, Bool.false_eq_true, if_false]
      exact hrest hfits.2

end PinGate

/-! ## How many wrong values are compared -/

/-- After every third wrong value the next one comes at least `lockout` later. -/
def Spaced : List Nat → Prop
  | now :: last :: wrongs =>
    (maxFailures ∣ (last :: wrongs).length → last + lockout ≤ now) ∧ Spaced (last :: wrongs)
  | [_] | [] => True

/-- Four wrong values in a row take at least `lockout`. -/
theorem Spaced.lockout_le {t₁ t₂ t₃ t₄ : Nat} {wrongs : List Nat}
    (h : Spaced (t₄ :: t₃ :: t₂ :: t₁ :: wrongs)) (h₁₂ : t₁ ≤ t₂) (h₂₃ : t₂ ≤ t₃) (h₃₄ : t₃ ≤ t₄) :
    t₁ + lockout ≤ t₄ := by
  obtain ⟨h₃, h₂, h₁, _⟩ := h
  simp only [List.length_cons] at h₁ h₂ h₃
  unfold maxFailures at h₁ h₂ h₃
  -- one of three consecutive lengths is a multiple of three
  have hthird : 3 ∣ wrongs.length + 1 ∨ 3 ∣ wrongs.length + 1 + 1 ∨
      3 ∣ wrongs.length + 1 + 1 + 1 := by
    omega
  rcases hthird with h | h | h
  · have := h₁ h
    omega
  · have := h₂ h
    omega
  · have := h₃ h
    omega

namespace PinAutomaton

variable {pin : String} {wrongs : List Nat}

theorem spaced_step {c : PinCall} (h : Spaced wrongs) : Spaced (step pin wrongs c).2 := by
  unfold step
  split
  · exact h
  rename_i hfree
  split
  · exact h
  split
  · trivial
  · cases wrongs with
    | nil => trivial
    | cons last wrongs =>
      refine ⟨fun hthird => Nat.le_of_not_lt fun hnow => ?_, h⟩
      exact hfree ⟨hthird, last, rfl, hnow⟩

@[simp] theorem map_fst_run (cs : List PinCall) : (run pin wrongs cs).map Prod.fst = cs := by
  induction cs generalizing wrongs with
  | nil => rfl
  | cons c cs ih => rw [run, List.map_cons, ih]

/-- A run goes on from where it was interrupted. -/
theorem run_split {cs : List PinCall} {l₁ l₂ : List (PinCall × PinVerdict)} (h : Spaced wrongs)
    (hrun : run pin wrongs cs = l₁ ++ l₂) :
    ∃ wrongs' cs', Spaced wrongs' ∧ run pin wrongs' cs' = l₂ := by
  induction l₁ generalizing cs wrongs with
  | nil => exact ⟨wrongs, cs, h, hrun⟩
  | cons e l₁ ih =>
    cases cs with
    | nil => cases hrun
    | cons c cs =>
      rw [run, List.cons_append, List.cons.injEq] at hrun
      exact ih (spaced_step h) hrun.2

/-- The times of the compared wrong values, the latest first. -/
def comparedTimes (l : List (PinCall × PinVerdict)) : List Nat :=
  ((l.filter PinCompared).map fun e => e.1.now).reverse

/-- Without a correct value among them, calls only add to the wrong values remembered. -/
theorem spaced_comparedTimes {cs : List PinCall} {l₁ l₂ : List (PinCall × PinVerdict)}
    (h : Spaced wrongs) (hrun : run pin wrongs cs = l₁ ++ l₂) (hclear : ∀ e ∈ l₁, e.2 ≠ .ok true) :
    Spaced (comparedTimes l₁ ++ wrongs) := by
  -- by induction on the attempts since the last right one
  induction l₁ generalizing cs wrongs with
  | nil => exact h
  | cons e l₁ ih =>
    cases cs with
    | nil => cases hrun
    | cons c cs =>
      rw [run, List.cons_append, List.cons.injEq] at hrun
      rw [List.forall_mem_cons] at hclear
      obtain ⟨rfl, hrest⟩ := hrun
      have hspaced := ih (spaced_step h) hrest hclear.2
      -- the times compared with are the failures that the automaton keeps
      have hwrongs : comparedTimes ((c, (step pin wrongs c).1) :: l₁) ++ wrongs =
          comparedTimes l₁ ++ (step pin wrongs c).2 := by
        have hnot := hclear.1
        unfold step at hnot ⊢
        unfold comparedTimes PinCompared
        split
        · simp
        · split
          · rename_i hnone
            simp [hnone]
          · rename_i value hvalue
            split
            · rename_i hright
              simp [*] at hnot
            · simp [hvalue]
      rw [hwrongs]
      exact hspaced

/-- At most `maxFailures` of them in any span shorter than `lockout`. -/
theorem window_le (l : List Nat) (h : Spaced (l ++ wrongs)) (hsorted : l.Pairwise (· ≥ ·)) (a : Nat) :
    (l.filter fun t => a ≤ t ∧ t < a + lockout).length ≤ maxFailures := by
  induction l with
  | nil => exact Nat.zero_le _
  | cons t l ih =>
    rw [List.pairwise_cons] at hsorted
    have htail : Spaced (l ++ wrongs) := by
      cases hl : l ++ wrongs with
      | nil => trivial
      | cons last rest =>
        rw [List.cons_append, hl] at h
        exact h.2
    by_cases ht : a ≤ t ∧ t < a + lockout
    · match l, hsorted, h with
      | [], _, _ | [_], _, _ | [_, _], _, _ =>
        refine (List.length_filter_le ..).trans ?_
        simp [maxFailures]
      | t₃ :: t₂ :: t₁ :: rest, hsorted, h =>
        simp only [List.pairwise_cons, List.forall_mem_cons] at hsorted
        obtain ⟨⟨h₃, _⟩, ⟨h₂, _⟩, ⟨h₁, _⟩, hrest, _⟩ := hsorted
        have hspan := Spaced.lockout_le h h₁ h₂ h₃
        -- what was compared before the last three is out of the window
        have hout : ∀ u ∈ t₁ :: rest, ¬(a ≤ u ∧ u < a + lockout) := by
          intro u hu
          have hle : u ≤ t₁ := by
            rcases List.mem_cons.mp hu with rfl | hu
            · exact Nat.le_refl _
            · exact hrest u hu
          omega
        have hnil : (t₁ :: rest).filter (fun t => a ≤ t ∧ t < a + lockout) = [] := by
          apply List.filter_eq_nil_iff.mpr
          intro u hu
          simpa using hout u hu
        have hsplit : t :: t₃ :: t₂ :: t₁ :: rest = [t, t₃, t₂] ++ (t₁ :: rest) := rfl
        rw [hsplit, List.filter_append, hnil, List.append_nil]
        exact List.length_filter_le ..
    · rw [List.filter_cons_of_neg (by simpa using ht)]
      exact ih htail hsorted.2

/-- The compared values of a part of a run without a correct value, in any span shorter than
    `lockout`. -/
theorem compared_le {cs : List PinCall} (hsorted : cs.Pairwise fun c d => c.now ≤ d.now)
    {l₁ l₂ l₃ : List (PinCall × PinVerdict)} (hrun : run pin [] cs = l₁ ++ l₂ ++ l₃)
    (hclear : ∀ e ∈ l₂, e.2 ≠ .ok true) (a : Nat) :
    (l₂.filter fun e => PinCompared e && (a ≤ e.1.now ∧ e.1.now < a + lockout)).length ≤
      maxFailures := by
  -- the attempts are among the calls, so their times ascend
  have hpart : (l₂.map Prod.fst).Sublist cs := by
    have hmap := congrArg (List.map Prod.fst) hrun
    rw [map_fst_run, List.map_append, List.map_append] at hmap
    rw [hmap]
    exact (List.sublist_append_right ..).trans (List.sublist_append_left ..)
  have hordered : (l₂.filter PinCompared).Pairwise fun e e' => e.1.now ≤ e'.1.now := by
    have h := hsorted.sublist hpart
    rw [List.pairwise_map] at h
    exact h.sublist List.filter_sublist
  -- the calls before them leave a spaced state of the automaton
  rw [List.append_assoc] at hrun
  have hempty : Spaced [] := trivial
  obtain ⟨wrongs, cs', hspaced, hrest⟩ := run_split hempty hrun
  have hwindow := window_le (comparedTimes l₂) (spaced_comparedTimes hspaced hrest hclear) (by
    rw [comparedTimes, List.pairwise_reverse, List.pairwise_map]
    exact hordered) a
  rw [comparedTimes, List.filter_reverse, List.length_reverse, List.filter_map, List.length_map,
    List.filter_filter] at hwindow
  refine le_of_eq_of_le (congrArg List.length (List.filter_congr fun e _ => ?_)) hwindow
  exact Bool.and_comm ..

end PinAutomaton

namespace PinGate

/-- With at most `maxTrackedPeers` addresses, the gate gives each peer the verdicts of the
    automaton on its own calls. So nobody else's calls change them, and between two correct
    values at most `maxFailures` wrong ones are compared in any span shorter than `lockout`. -/
theorem pin_gate_refines (pin : String) (calls : List PinCall)
    (hsorted : calls.Pairwise fun c d => c.now ≤ d.now)
    (hpeers : (calls.map PinCall.peer).toFinset.card ≤ maxTrackedPeers) (p : IpAddr) :
    ((new (some pin)).checks calls).filter (fun e => e.1.peer = p) =
      PinAutomaton.run pin [] (calls.filter fun c => c.peer = p) ∧
    (∀ calls' : List PinCall, calls'.Pairwise (fun c d => c.now ≤ d.now) →
      (calls'.map PinCall.peer).toFinset.card ≤ maxTrackedPeers →
      calls'.filter (fun c => c.peer = p) = calls.filter (fun c => c.peer = p) →
      ((new (some pin)).checks calls').filter (fun e => e.1.peer = p) =
        ((new (some pin)).checks calls).filter fun e => e.1.peer = p) ∧
    ∀ l₁ l₂ l₃ a, ((new (some pin)).checks calls).filter (fun e => e.1.peer = p) = l₁ ++ l₂ ++ l₃ →
      (∀ e ∈ l₂, e.2 ≠ .ok true) →
      (l₂.filter fun e => PinCompared e && (a ≤ e.1.now ∧ e.1.now < a + lockout)).length ≤
        maxFailures := by
  have hrefines : ∀ cs : List PinCall, cs.Pairwise (fun c d => c.now ≤ d.now) →
      (cs.map PinCall.peer).toFinset.card ≤ maxTrackedPeers →
      ((new (some pin)).checks cs).filter (fun e => e.1.peer = p) =
        PinAutomaton.run pin [] (cs.filter fun c => c.peer = p) := by
    intro cs hcs hcard
    have htracks : (new (some pin)).Tracks (cs.map PinCall.peer).toFinset := fun _ _ h => (by cases h)
    refine refines hcard p cs hcs (fun c hc => ?_) rfl htracks fun c _ => ⟨⟨0, rfl⟩, by simp⟩
    exact List.mem_toFinset.mpr (List.mem_map_of_mem hc)
  -- the refinement, then its two consequences
  refine ⟨hrefines calls hsorted hpeers, ?_, ?_⟩
  -- the same calls of `p` are the same run of the automaton
  · intro calls' hsorted' hpeers' hsame
    rw [hrefines calls' hsorted' hpeers', hrefines calls hsorted hpeers, hsame]
  · intro l₁ l₂ l₃ a hrun hclear
    rw [hrefines calls hsorted hpeers] at hrun
    exact PinAutomaton.compared_le (hsorted.sublist List.filter_sublist) hrun hclear a

/-- Two peers guess in turns; the one with three wrong values is locked out, the other is
    not. -/
theorem pin_gate_refines_two_peers :
    ((new (some "1")).checks [⟨0, some "2", .v4 1⟩, ⟨1, some "3", .v4 1⟩, ⟨1, none, .v4 2⟩,
      ⟨2, some "4", .v4 1⟩, ⟨3, some "1", .v4 1⟩, ⟨3, some "1", .v4 2⟩]).filter
        (fun e => e.1.peer = .v4 1) =
      PinAutomaton.run "1" [] [⟨0, some "2", .v4 1⟩, ⟨1, some "3", .v4 1⟩, ⟨2, some "4", .v4 1⟩,
        ⟨3, some "1", .v4 1⟩] :=
  (pin_gate_refines "1" [⟨0, some "2", .v4 1⟩, ⟨1, some "3", .v4 1⟩, ⟨1, none, .v4 2⟩,
    ⟨2, some "4", .v4 1⟩, ⟨3, some "1", .v4 1⟩, ⟨3, some "1", .v4 2⟩] (by decide) (by decide)
    (.v4 1)).1

end PinGate

end LocalSend
