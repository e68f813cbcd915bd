import LocalSend.ForStd.TransitionSystem
import LocalSend.Spec.PinAutomaton

/-!
# The lockout table of the PIN gate

The table is bounded although its keys are chosen by strangers. A peer that is in it already
pushes nobody out; a new one takes the place of entries that have expired, and only where
there is none that of the oldest.

## Key results

- `checkStep`: every call of `check` is one of five
- `Bounded.step`: the bounds on the table, kept by every call
- `eviction_discipline`: the bounds and who makes room for whom, over any sequence of calls
-/

namespace LocalSend

/-- A call of the gate. -/
inductive PinAction where
  | check (c : PinCall)
  | set (pin : Option String)

namespace PinGate

/-- The lockout table. -/
abbrev Table := AssocMap IpAddr (Nat × Nat)

/-- The gate with the time of its latest check, before which no later check comes. -/
def system : TransitionSystem (PinGate × Nat) PinAction where
  Init s := ∃ pin, s.1 = new pin
  step s
    | .check c => if s.2 ≤ c.now then some ((s.1.check c.now c.provided c.peer).2, c.now) else none
    | .set pin => some (s.1.set pin, s.2)

/-! ## One call -/

/-- What `make_room` leaves of a table. -/
def roomIn (table : Table) (now : Nat) : Table :=
  (makeRoom ⟨none, table, 0⟩ now).failures

/-- Making room is a matter of the table. -/
theorem makeRoom_eq (g : PinGate) (now : Nat) :
    g.makeRoom now = { g with failures := roomIn g.failures now } := by
  unfold roomIn makeRoom
  dsimp only
  split
  · rfl
  · split
    · rfl
    · split <;> rfl

/-- The table once a lockout of `peer` that has run out is forgotten. -/
def forgetting (table : Table) (peer : IpAddr) : Table :=
  if (table.get? peer).any fun e => e.1 ≥ maxFailures then table.erase peer else table

/-- The table a wrong value of `peer` is counted in. -/
def counting (table : Table) (now : Nat) (peer : IpAddr) : Table :=
  if (forgetting table peer).contains peer then forgetting table peer
  else roomIn (forgetting table peer) now

/-- What a call of `check` can do. -/
inductive CheckStep (g : PinGate) (c : PinCall) : PinVerdict → PinGate → Prop
  | notRequired (hpin : g.pin = none) : CheckStep g c (.ok false) g
  | locked {pin count last} (hpin : g.pin = some pin)
    (hentry : g.failures.get? c.peer = some (count, last)) (hcount : maxFailures ≤ count)
    (hnow : c.now - last < lockout) : CheckStep g c .lockedOut g
  | missing {pin} (hpin : g.pin = some pin) (hprovided : c.provided = none) :
    CheckStep g c .unauthorized { g with failures := forgetting g.failures c.peer }
  | right {pin} (hpin : g.pin = some pin) (hprovided : c.provided = some pin) :
    CheckStep g c (.ok true)
      { g with failures := (forgetting g.failures c.peer).erase c.peer, wrongValues := 0 }
  | wrong {pin value} (hpin : g.pin = some pin) (hprovided : c.provided = some value)
    (hwrong : value ≠ pin)
    (hfree : ∀ count last, g.failures.get? c.peer = some (count, last) → maxFailures ≤ count →
      lockout ≤ c.now - last) :
    CheckStep g c .unauthorized
      { g with
        failures := (counting g.failures c.now c.peer).insert c.peer
          ((((counting g.failures c.now c.peer).get? c.peer).map Prod.fst).getD 0 + 1, c.now)
        wrongValues := min (g.wrongValues + 1) u32Max }

/-- Every call of `check` is one of these. -/
theorem checkStep (g : PinGate) (c : PinCall) :
    CheckStep g c (g.check c.now c.provided c.peer).1 (g.check c.now c.provided c.peer).2 := by
  obtain ⟨pin, failures, wrongValues⟩ := g
  obtain ⟨now, provided, peer⟩ := c
  cases pin with
  | none => exact .notRequired rfl
  | some pin =>
    unfold check
    dsimp only
    -- a locked peer, before the value is looked at
    split
    · rename_i hlocked
      obtain ⟨⟨count, last⟩, hentry, hlocked⟩ := (Option.any_eq_true _ _).mp hlocked
      simp only [Bool.and_eq_true, decide_eq_true_eq] at hlocked
      exact .locked rfl hentry hlocked.1 hlocked.2
    · rename_i hfree
      -- the lockout that has run out is forgotten
      have hforget : (if (failures.get? peer).any fun e => e.1 ≥ maxFailures then
          (⟨some pin, failures.erase peer, wrongValues⟩ : PinGate)
          else ⟨some pin, failures, wrongValues⟩) = ⟨some pin, forgetting failures peer,
            wrongValues⟩ := by
        unfold forgetting
        split <;> rfl
      rw [hforget]
      -- no value, the right one, a wrong one
      cases provided with
      | none => exact .missing rfl rfl
      | some value =>
        dsimp only
        by_cases hvalue : value = pin
        · rw [if_pos ((constantTimeEq_toUTF8 value pin).mpr hvalue)]
          exact .right rfl (congrArg some hvalue)
        · rw [if_neg fun h => hvalue ((constantTimeEq_toUTF8 value pin).mp h)]
          -- a wrong value makes room only for a peer that is not in the table
          have hcounting : ∀ n, (if (forgetting failures peer).contains peer then
              (⟨some pin, forgetting failures peer, n⟩ : PinGate)
              else makeRoom ⟨some pin, forgetting failures peer, n⟩ now) =
                ⟨some pin, counting failures now peer, n⟩ := by
            intro n
            unfold counting
            rw [makeRoom_eq]
            split <;> rfl
          rw [hcounting]
          -- had the last failure been within the lockout, the peer would be locked
          refine .wrong rfl rfl hvalue fun count last hentry hcount => ?_
          apply Nat.le_of_not_lt
          intro hnow
          apply hfree
          rw [hentry]
          simp [hcount, hnow]

/-! ## Making room -/

/-- Whether an entry still counts at a time. -/
def live (now : Nat) (_ : IpAddr) (e : Nat × Nat) : Bool := now - e.2 < lockout

/-- What a left fold that keeps the older of two entries ends with. -/
theorem foldl_older {pick : Option (IpAddr × (Nat × Nat)) → IpAddr × (Nat × Nat) →
      Option (IpAddr × (Nat × Nat))}
    (hfirst : ∀ e, pick none e = some e)
    (hnext : ∀ b e, pick (some b) e = if e.2.2 < b.2.2 then some e else some b)
    (l : List (IpAddr × (Nat × Nat))) (best : Option (IpAddr × (Nat × Nat))) :
    (best = none ∧ l = [] ∧ l.foldl pick best = none) ∨
      ∃ x, l.foldl pick best = some x ∧ (x ∈ l ∨ best = some x) ∧ (∀ e ∈ l, x.2.2 ≤ e.2.2) ∧
        ∀ b ∈ best, x.2.2 ≤ b.2.2 := by
  -- induction on the entries still to come, for any best one so far
  induction l generalizing best with
  | nil =>
    cases best with
    | none => exact .inl ⟨rfl, rfl, rfl⟩
    | some b =>
      refine .inr ⟨b, rfl, .inr rfl, by simp, fun b' hb' => ?_⟩
      cases hb'
      exact Nat.le_refl _
  | cons e l ih =>
    right
    rw [List.foldl_cons]
    cases best with
    | none =>
      -- the first entry is the best so far, and so bounds what follows
      rw [hfirst]
      rcases ih (some e) with ⟨hnone, _⟩ | ⟨x, hx, hmem, hle, hbest⟩
      · simp at hnone
      · refine ⟨x, hx, .inl ?_, ?_, by simp⟩
        · rcases hmem with hmem | heq
          · exact List.mem_cons_of_mem _ hmem
          · cases heq
            exact List.mem_cons_self
        · rw [List.forall_mem_cons]
          exact ⟨hbest e rfl, hle⟩
    | some b =>
      rw [hnext]
      -- an older entry takes the place of the best one, any other leaves it
      by_cases hlt : e.2.2 < b.2.2
      · rw [if_pos hlt]
        rcases ih (some e) with ⟨hnone, _⟩ | ⟨x, hx, hmem, hle, hbest⟩
        · simp at hnone
        · have hxe := hbest e rfl
          refine ⟨x, hx, .inl ?_, List.forall_mem_cons.mpr ⟨hxe, hle⟩, fun b' hb' => ?_⟩
          · rcases hmem with hmem | heq
            · exact List.mem_cons_of_mem _ hmem
            · cases heq
              exact List.mem_cons_self
          · cases hb'
            omega
      · rw [if_neg hlt]
        rcases ih (some b) with ⟨hnone, _⟩ | ⟨x, hx, hmem, hle, hbest⟩
        · simp at hnone
        · have hxb := hbest b rfl
          refine ⟨x, hx, hmem.imp_left (List.mem_cons_of_mem _), ?_, fun b' hb' => ?_⟩
          · rw [List.forall_mem_cons]
            exact ⟨by omega, hle⟩
          · cases hb'
            exact hxb

/-- The entry `min_by_key` finds has an oldest last failure. -/
theorem oldest_spec (table : Table) :
    (table.size = 0 ∧ oldest table = none) ∨ ∃ peer e, oldest table = some peer ∧
      table.get? peer = some e ∧ ∀ q e', table.get? q = some e' → e.2 ≤ e'.2 := by
  obtain ⟨pick, hfirst, hnext, heq⟩ : ∃ pick : Option (IpAddr × (Nat × Nat)) →
      IpAddr × (Nat × Nat) →
      Option (IpAddr × (Nat × Nat)), (∀ e, pick none e = some e) ∧
        (∀ b e, pick (some b) e = if e.2.2 < b.2.2 then some e else some b) ∧
          oldest table = (table.entries.foldl pick none).map Prod.fst := by
    -- the step of the fold is read off the definition
    refine ⟨_, ?_, ?_, rfl⟩ <;> intros <;> rfl
  rw [heq]
  rcases foldl_older hfirst hnext table.entries none with ⟨_, hnil, hnone⟩ |
      ⟨⟨peer, e⟩, hsome, hmem, hle, _⟩
  · exact .inl ⟨congrArg List.length hnil, congrArg (Option.map Prod.fst) hnone⟩
  · refine .inr ⟨peer, e, congrArg (Option.map Prod.fst) hsome, ?_, fun q e' he' => ?_⟩
    · rcases hmem with hmem | heq
      · exact AssocMap.get?_eq_some_iff.mpr hmem
      · simp at heq
    · exact hle (q, e') (AssocMap.get?_eq_some_iff.mp he')

/-- What `make_room` can do to a table that is not over the bound. -/
inductive RoomStep (table : Table) (now : Nat) : Table → Prop
  | roomy (hroom : table.size < maxTrackedPeers) : RoomStep table now table
  | swept (hfull : table.size = maxTrackedPeers)
    (hroom : (table.filter (live now)).size < maxTrackedPeers) :
    RoomStep table now (table.filter (live now))
  | evicted {peer e} (hfull : table.size = maxTrackedPeers)
    (hlive : table.filter (live now) = table) (hpeer : table.get? peer = some e)
    (holdest : ∀ q e', table.get? q = some e' → e.2 ≤ e'.2) :
    RoomStep table now (table.erase peer)

/-- Where there is room, nothing is removed. -/
theorem roomIn_of_roomy {table : Table} (h : table.size < maxTrackedPeers) (now : Nat) :
    roomIn table now = table := by
  unfold roomIn makeRoom
  rw [if_pos h]

/-- Making room sweeps a full table, and evicts the oldest entry if all are live. -/
theorem roomStep {table : Table} (hsize : table.size ≤ maxTrackedPeers) (now : Nat) :
    RoomStep table now (roomIn table now) := by
  unfold roomIn makeRoom
  dsimp only
  -- there is room, or the table is full
  split
  · exact .roomy (by assumption)
  · rename_i hfull
    have hfull : table.size = maxTrackedPeers := by omega
    -- the expired entries go first
    split
    · exact .swept hfull (by assumption)
    · rename_i hstill
      have hlive : table.filter (live now) = table := by
        apply AssocMap.filter_eq_self_of_size
        have hstill : ¬(table.filter (live now)).size < maxTrackedPeers := hstill
        omega
      have hsame : (table.filter fun _ e => now - e.2 < lockout) = table := hlive
      rw [hsame]
      -- a table of live entries only gives up its oldest one
      rcases oldest_spec table with ⟨hempty, _⟩ | ⟨peer, e, heq, hpeer, holdest⟩
      · rw [hfull] at hempty
        cases hempty
      · rw [heq]
        exact .evicted hfull hlive hpeer holdest

/-- Afterwards there is room for one more. -/
theorem RoomStep.size_lt {table table' : Table} {now : Nat} (h : RoomStep table now table') :
    table'.size < maxTrackedPeers := by
  cases h with
  | roomy hroom | swept _ hroom => exact hroom
  | evicted hfull _ hpeer =>
    have hsmaller := AssocMap.size_erase_of_contains (AssocMap.contains_iff.mpr ⟨_, hpeer⟩)
    omega

/-- Making room only takes entries away. -/
theorem RoomStep.get? {table table' : Table} {now : Nat} (h : RoomStep table now table')
    (q : IpAddr) : table'.get? q = table.get? q ∨ table'.get? q = none := by
  cases h with
  | roomy => exact .inl rfl
  | swept =>
    -- an entry that is still live stays, any other is gone
    rw [AssocMap.get?_filter]
    cases table.get? q with
    | none => exact .inl rfl
    | some e =>
      simp only [Option.filter]
      split
      · exact .inl rfl
      · exact .inr rfl
  | evicted =>
    rw [AssocMap.get?_erase]
    split
    · exact .inr rfl
    · exact .inl rfl

/-! ## The bounds -/

/-- The table is bounded, and so is every count in it. No failure is later than the latest
    check. -/
structure Bounded (g : PinGate) (clock : Nat) : Prop where
  size : g.failures.size ≤ maxTrackedPeers
  entry : ∀ q count last, g.failures.get? q = some (count, last) →
    0 < count ∧ count ≤ maxFailures ∧ last ≤ clock

/-- A new gate has an empty table. -/
theorem bounded_new (pin : Option String) (clock : Nat) : (new pin).Bounded clock :=
  ⟨Nat.zero_le _, fun _ _ _ h => (by cases h)⟩

/-- A full count is forgotten or refused before the next value is compared. -/
theorem forgetting_get? {table : Table} {peer q : IpAddr} {count last : Nat}
    (h : (forgetting table peer).get? q = some (count, last)) :
    table.get? q = some (count, last) ∧ (q = peer → count < maxFailures) := by
  unfold forgetting at h
  split at h
  · rw [AssocMap.get?_erase] at h
    split at h
    · simp at h
    · rename_i hq
      exact ⟨h, fun heq => absurd heq hq⟩
  · -- nothing was forgotten, so the count of the peer is below the bound
    rename_i hsmall
    refine ⟨h, fun heq => ?_⟩
    rw [← heq, h] at hsmall
    simpa using hsmall

/-- Forgetting one peer forgets no other. -/
theorem forgetting_get?_of_ne (table : Table) {peer q : IpAddr} (hq : q ≠ peer) :
    (forgetting table peer).get? q = table.get? q := by
  unfold forgetting
  split
  · rw [AssocMap.get?_erase, if_neg hq]
  · rfl

/-- Forgetting a peer makes the table no larger. -/
theorem forgetting_size_le (table : Table) (peer : IpAddr) :
    (forgetting table peer).size ≤ table.size := by
  unfold forgetting
  split
  · exact AssocMap.size_filter_le _ _
  · exact Nat.le_refl _

/-- The table a wrong value is counted in has no more entries, and room for the peer. -/
theorem counting_spec {table : Table} (hsize : table.size ≤ maxTrackedPeers) (now : Nat)
    (peer : IpAddr) :
    (∀ q, (counting table now peer).get? q = (forgetting table peer).get? q ∨
      (counting table now peer).get? q = none) ∧
    (counting table now peer).size ≤ maxTrackedPeers ∧
    ((counting table now peer).contains peer = false →
      (counting table now peer).size < maxTrackedPeers) := by
  have hforget := (forgetting_size_le table peer).trans hsize
  unfold counting
  split
  · rename_i hcontains
    -- a peer that is still in the table needs no room
    exact ⟨fun q => .inl rfl, hforget, fun h => (by cases hcontains.symm.trans h)⟩
  · have hroom := roomStep hforget now
    exact ⟨hroom.get?, Nat.le_of_lt hroom.size_lt, fun _ => hroom.size_lt⟩

/-- The bounds hold at every later time. -/
theorem Bounded.mono {g : PinGate} {clock now : Nat} (h : g.Bounded clock) (hle : clock ≤ now) :
    g.Bounded now := by
  refine ⟨h.size, fun q count last hentry => ?_⟩
  obtain ⟨hpos, hle', hlast⟩ := h.entry q count last hentry
  exact ⟨hpos, hle', hlast.trans hle⟩

/-- Every call keeps the bounds. -/
theorem Bounded.step {g : PinGate} {clock : Nat} (h : g.Bounded clock) {c : PinCall}
    (hnow : clock ≤ c.now) : (g.check c.now c.provided c.peer).2.Bounded c.now := by
  have hstep := checkStep g c
  generalize g.check c.now c.provided c.peer = r at hstep
  obtain ⟨verdict, g'⟩ := r
  have h := h.mono hnow
  -- one case per answer: only a wrong value adds an entry or raises a count
  cases hstep with
  | notRequired | locked => exact h
  | missing =>
    refine ⟨(forgetting_size_le _ _).trans h.size, fun q count last hentry => ?_⟩
    exact h.entry q count last (forgetting_get? hentry).1
  | right =>
    refine ⟨(AssocMap.size_filter_le _ _).trans ((forgetting_size_le _ _).trans h.size),
      fun q count last hentry => ?_⟩
    simp only [AssocMap.get?_erase] at hentry
    split at hentry
    · simp at hentry
    · exact h.entry q count last (forgetting_get? hentry).1
  | wrong =>
    obtain ⟨hget, hsize, hroom⟩ := counting_spec h.size c.now c.peer
    refine ⟨?_, fun q count last hentry => ?_⟩
    · show ((counting g.failures c.now c.peer).insert ..).size ≤ _
      rw [AssocMap.size_insert]
      split
      · exact hsize
      · rename_i hcontains
        exact hroom (Bool.not_eq_true _ ▸ hcontains)
    · simp only [AssocMap.get?_insert] at hentry
      split at hentry
      · -- the new entry of the peer: its count was not full before
        cases hentry
        refine ⟨Nat.succ_pos _, ?_, Nat.le_refl _⟩
        rcases hget c.peer with hsame | hnone
        · rw [hsame]
          cases hold : (forgetting g.failures c.peer).get? c.peer with
          | none => decide
          | some e => exact (forgetting_get? hold).2 rfl
        · rw [hnone]
          decide
      · rcases hget q with hsame | hnone
        · rw [hsame] at hentry
          exact h.entry q count last (forgetting_get? hentry).1
        · cases hentry.symm.trans hnone

/-! ## Who makes room for whom -/

/-- The entry of `q` is taken out. -/
def Removed (g g' : PinGate) (q : IpAddr) (e : Nat × Nat) : Prop :=
  g.failures.get? q = some e ∧ g'.failures.get? q = none

/-- What a call may do to the entries of others. -/
structure Disciplined (g : PinGate) (c : PinCall) (g' : PinGate) : Prop where
  /-- A peer that is in the table changes nobody else's entry. -/
  tracked : g.failures.contains c.peer → ∀ q, q ≠ c.peer → g'.failures.get? q = g.failures.get? q
  /-- A new peer with a wrong value changes no entry, and only takes out what has expired, or
      one that has an oldest last failure while nothing has expired. -/
  untracked : g.failures.contains c.peer = false → (∀ q, q ≠ c.peer →
      g'.failures.get? q = g.failures.get? q ∨ g'.failures.get? q = none) ∧
    ∀ q e, Removed g g' q e → e.2 + lockout ≤ c.now ∨
      ((∀ r e', g.failures.get? r = some e' → c.now < e'.2 + lockout) ∧
        (∀ r e', g.failures.get? r = some e' → e.2 ≤ e'.2) ∧
        ∀ r e', Removed g g' r e' → r = q)

/-- An entry is expired once the lockout is over. -/
theorem not_live_iff {now : Nat} {q : IpAddr} {e : Nat × Nat} :
    live now q e = false ↔ e.2 + lockout ≤ now := by
  have hpos : 0 < lockout := by decide
  simp only [live, decide_eq_false_iff_not]
  omega

/-- Forgetting an unknown peer changes nothing. -/
theorem forgetting_of_not_contains {table : Table} {peer : IpAddr}
    (h : table.contains peer = false) : forgetting table peer = table := by
  unfold forgetting
  rw [AssocMap.contains_eq_false_iff.mp h]
  rfl

/-- A peer that is in the table is counted without making room for it. -/
theorem counting_of_contains {table : Table} (hsize : table.size ≤ maxTrackedPeers) (now : Nat)
    {peer : IpAddr} (h : table.contains peer = true) :
    counting table now peer = forgetting table peer := by
  unfold counting
  split
  · rfl
  · rename_i hcontains
    -- its lockout has run out, and left room for one
    have hsmaller : (forgetting table peer).size < maxTrackedPeers := by
      unfold forgetting at hcontains ⊢
      split
      · have herase := AssocMap.size_erase_of_contains h
        omega
      · rename_i hkept
        rw [if_neg hkept] at hcontains
        exact absurd h hcontains
    exact roomIn_of_roomy hsmaller now

/-- What a new peer with a wrong value takes out of the table. -/
theorem RoomStep.disciplined {table table' : Table} {now : Nat} (h : RoomStep table now table')
    {q : IpAddr} {e : Nat × Nat} (hold : table.get? q = some e) (hgone : table'.get? q = none) :
    e.2 + lockout ≤ now ∨ ((∀ r e', table.get? r = some e' → now < e'.2 + lockout) ∧
      (∀ r e', table.get? r = some e' → e.2 ≤ e'.2) ∧
      ∀ r e', table.get? r = some e' → table'.get? r = none → r = q) := by
  cases h with
  | roomy => cases hold.symm.trans hgone
  | swept =>
    rw [AssocMap.get?_filter, hold] at hgone
    apply Or.inl
    apply not_live_iff.mp
    simpa [Option.filter] using hgone
  | @evicted peer e₀ hfull hlive hpeer holdest =>
    -- the evicted peer is the only one that is gone
    have hgone_iff : ∀ r e', table.get? r = some e' → (table.erase peer).get? r = none →
        r = peer := by
      intro r e' hr hnone
      by_contra hne
      rw [AssocMap.get?_erase, if_neg hne, hr] at hnone
      simp at hnone
    have hq : q = peer := hgone_iff q e hold hgone
    subst hq
    cases hold.symm.trans hpeer
    refine .inr ⟨fun r e' hr => ?_, holdest, hgone_iff⟩
    -- nothing has expired, or the sweep would have made room
    rw [← hlive, AssocMap.get?_filter, Option.filter_eq_some_iff] at hr
    apply Nat.lt_of_not_le
    intro hle
    cases (not_live_iff.mpr hle).symm.trans hr.2

/-- Every call keeps to the discipline. -/
theorem Bounded.disciplined {g : PinGate} {clock : Nat} (h : g.Bounded clock) (c : PinCall) :
    g.Disciplined c (g.check c.now c.provided c.peer).2 := by
  have hstep := checkStep g c
  generalize g.check c.now c.provided c.peer = r at hstep
  obtain ⟨verdict, g'⟩ := r
  -- a call that leaves the entries of others as they are
  have hquiet : ∀ {g' : PinGate}, (∀ q, q ≠ c.peer → g'.failures.get? q = g.failures.get? q) →
      g.Disciplined c g' := by
    intro g' hsame
    refine ⟨fun _ => hsame,
      fun hnew => ⟨fun q hq => .inl (hsame q hq), fun q e ⟨hold, hgone⟩ => ?_⟩⟩
    have hq : q ≠ c.peer := by
      rintro rfl
      cases hold.symm.trans (AssocMap.contains_eq_false_iff.mp hnew)
    cases hold.symm.trans ((hsame q hq).symm.trans hgone)
  cases hstep with
  | notRequired | locked => exact hquiet fun _ _ => rfl
  | missing => exact hquiet fun q hq => forgetting_get?_of_ne _ hq
  | right =>
    apply hquiet
    intro q hq
    show ((forgetting g.failures c.peer).erase c.peer).get? q = _
    rw [AssocMap.get?_erase, if_neg hq, forgetting_get?_of_ne _ hq]
  | wrong =>
    constructor
    · intro htracked q hq
      show ((counting g.failures c.now c.peer).insert ..).get? q = _
      rw [AssocMap.get?_insert, if_neg hq, counting_of_contains h.size _ htracked,
        forgetting_get?_of_ne _ hq]
    · intro hnew
      -- a new peer is counted in the table that room was made in
      have hcounting : counting g.failures c.now c.peer = roomIn g.failures c.now := by
        unfold counting
        rw [forgetting_of_not_contains hnew, hnew]
        rfl
      have hroom := roomStep h.size c.now
      rw [← hcounting] at hroom
      have hother : ∀ q, q ≠ c.peer →
          ∀ e, ((counting g.failures c.now c.peer).insert c.peer e).get? q =
          (counting g.failures c.now c.peer).get? q := by
        intro q hq e
        rw [AssocMap.get?_insert, if_neg hq]
      refine ⟨fun q hq => ?_, fun q e ⟨hold, hgone⟩ => ?_⟩
      · show ((counting g.failures c.now c.peer).insert ..).get? q = _ ∨ _
        rw [hother q hq]
        exact hroom.get? q
      · have hne : ∀ r e', g.failures.get? r = some e' → r ≠ c.peer := by
          rintro r e' hr rfl
          cases hr.symm.trans (AssocMap.contains_eq_false_iff.mp hnew)
        -- its own new entry aside, what is gone was taken out to make room
        have hgone' := (hother q (hne q e hold) _).symm.trans hgone
        refine (hroom.disciplined hold hgone').imp_right fun ⟨hlive, holdest, hone⟩ =>
          ⟨hlive, holdest, fun r e' hr => ?_⟩
        exact hone r e' hr.1 ((hother r (hne r e' hr.1) _).symm.trans hr.2)

/-! ## Any sequence of calls -/

/-- The bounds after a call, and its discipline. -/
def Kept (s : PinGate × Nat) (a : PinAction) (s' : PinGate × Nat) : Prop :=
  s'.1.failures.size ≤ maxTrackedPeers ∧
    (∀ q e, s'.1.failures.get? q = some e → e.1 ≤ maxFailures) ∧
    ∀ c, a = .check c → s.1.Disciplined c s'.1

/-- Over any sequence of calls at times that do not decrease: the table and its counts are
    bounded, a peer that is in the table pushes nobody out, and a new one only entries that have
    expired, or one with an oldest last failure where nothing has. -/
theorem eviction_discipline (pin : Option String) (clock : Nat) (as : List PinAction) :
    system.Always Kept (new pin, clock) as := by
  refine system.always_of_step (fun s => s.1.Bounded s.2) ?_ (bounded_new pin clock) as
  intro s a s' h hstep
  obtain ⟨g, clock⟩ := s
  have hbounds : ∀ {g' : PinGate} {now}, g'.Bounded now →
      ∀ q e, g'.failures.get? q = some e → e.1 ≤ maxFailures :=
    fun h q e he => (h.entry q e.1 e.2 he).2.1
  cases a with
  | check c =>
    simp only [system] at hstep
    split at hstep
    · rename_i hnow
      cases hstep
      have h' := h.step hnow
      -- the clock only moves with a check that is not earlier than the last one
      refine ⟨h', h'.size, hbounds h', fun c' hc' => ?_⟩
      cases hc'
      exact h.disciplined c
    · simp at hstep
  | set pin =>
    cases hstep
    have h' := bounded_new pin clock
    exact ⟨h', h'.size, hbounds h', by simp⟩

end PinGate

end LocalSend
