import LocalSend.Spec.PinTable

/-!
# What the sweep of the lockout table costs

`make_room` drops the entries past `lockout` before it evicts, since they decide nothing any
more. But `check` only forgets a full count when its lockout has run out; a smaller count is kept
however old it is, and is then worth as much as a new one. So a sweep that drops anything can be
told: by the peer whose guesses it has forgotten, or because the fuller table is swept before the
other one is.

## Key results

- `Alike.guesses_le`: gates that cannot be told apart have counted the same guesses of a peer
- `Twins.not_alike`: a table with more entries is swept earlier
- `sweep_unobservable_iff`: a sweep cannot be told exactly when it drops nothing
-/

namespace LocalSend

namespace PinGate

/-- What `make_room` does before it evicts. -/
def sweep (g : PinGate) (now : Nat) : PinGate :=
  { g with failures := g.failures.filter (live now) }

/-- What can be seen of calls: each verdict, and `wrong_values` after it. -/
def observed (g : PinGate) : List PinCall → List (PinVerdict × Nat)
  | [] => []
  | c :: cs =>
    let r := g.check c.now c.provided c.peer
    (r.1, r.2.wrongValues) :: r.2.observed cs

/-- No calls from a time on tell two gates apart. -/
def Alike (now : Nat) (g g' : PinGate) : Prop :=
  ∀ calls : List PinCall, calls.Pairwise (fun c d => c.now ≤ d.now) → (∀ c ∈ calls, now ≤ c.now) →
    g.observed calls = g'.observed calls

/-! ## Guesses that count -/

/-- How many wrong values of a peer count at a time. -/
def guesses (now : Nat) : Option (Nat × Nat) → Nat
  | none => 0
  | some (count, last) =>
    if count < maxFailures then count else if now - last < lockout then maxFailures else 0

/-- A value that is not the PIN. -/
def wrongPin (pin : String) : String := pin ++ "0"

theorem wrongPin_ne (pin : String) : wrongPin pin ≠ pin := by
  intro h
  have hlength := congrArg (fun s : String => s.toList.length) h
  simp [wrongPin] at hlength

/-- A peer presents a wrong value. -/
def guess (pin : String) (now : Nat) (peer : IpAddr) : PinCall := ⟨now, some (wrongPin pin), peer⟩

/-- What a wrong value does to the entry of its peer. -/
theorem checkEntry_guess (pin : String) {entry : Option (Nat × Nat)} {now : Nat}
    (hbound : ∀ count last, entry = some (count, last) → count ≤ maxFailures) :
    checkEntry pin entry now (some (wrongPin pin)) =
      if guesses now entry < maxFailures then (.unauthorized, some (guesses now entry + 1, now))
      else (.lockedOut, entry) := by
  unfold checkEntry
  simp only [wrongPin_ne, if_false]
  cases entry with
  | none => rfl
  | some e =>
    obtain ⟨count, last⟩ := e
    have hle := hbound count last rfl
    simp only [Option.any_some, Bool.and_eq_true, decide_eq_true_eq, guesses]
    -- a full count is refused until it expires, and starts over after that
    by_cases hsmall : count < maxFailures
    · have hnot : ¬count ≥ maxFailures := by omega
      simp [hsmall, hnot]
    · have hfull : count ≥ maxFailures := by omega
      by_cases hnow : now - last < lockout
      · simp [hsmall, hfull, hnow]
      · have hpos : 0 < maxFailures := by decide
        simp [hsmall, hfull, hnow, hpos]

/-- A peer has room in the table: an entry, or a place for one. -/
def Room (g : PinGate) (peer : IpAddr) : Prop :=
  g.failures.contains peer = true ∨ g.failures.size < maxTrackedPeers

/-- The gate after a call. -/
def after (g : PinGate) (c : PinCall) : PinGate := (g.check c.now c.provided c.peer).2

/-- What a wrong value of a peer with room does. -/
structure Guessed (expected : String) (g : PinGate) (now : Nat) (peer : IpAddr)
    (verdict : PinVerdict) (g' : PinGate) : Prop where
  pin : g'.pin = some expected
  bounded : g'.Bounded now
  verdict : verdict = if guesses now (g.failures.get? peer) < maxFailures then
    .unauthorized else .lockedOut
  entry : guesses now (g.failures.get? peer) < maxFailures →
    g'.failures.get? peer = some (guesses now (g.failures.get? peer) + 1, now)
  other : ∀ q, q ≠ peer → g'.failures.get? q = g.failures.get? q
  contains : g'.failures.contains peer = true
  size : g'.failures.size = if g.failures.contains peer then g.failures.size else
    g.failures.size + 1

theorem Bounded.guessed {g : PinGate} {clock now : Nat} {pin : String} (h : g.Bounded clock)
    (hnow : clock ≤ now) (hpin : g.pin = some pin) {peer : IpAddr} (hroom : g.Room peer) :
    Guessed pin g now peer (g.check now (some (wrongPin pin)) peer).1
      (g.after (guess pin now peer)) := by
  have hbound : ∀ count last, g.failures.get? peer = some (count, last) → count ≤ maxFailures :=
    fun count last hentry => (h.entry peer count last hentry).2.1
  -- nobody else is pushed out: the peer has an entry, or the table a place
  obtain ⟨hverdict, hpin', hentries⟩ := check_eq hpin now (some (wrongPin pin)) peer (by
    intro table htable hnone
    rcases hroom with hcontains | hsize
    · have hsmaller := AssocMap.size_erase_of_contains hcontains
      have hsize := h.size
      rcases htable with rfl | rfl
      · cases hcontains.symm.trans (AssocMap.contains_eq_false_iff.mpr hnone)
      · omega
    · rcases htable with rfl | rfl
      · exact hsize
      · exact (AssocMap.size_filter_le _ _).trans_lt hsize)
  rw [checkEntry_guess pin hbound] at hverdict hentries
  have hbounded : (g.after (guess pin now peer)).Bounded now :=
    Bounded.step h (c := guess pin now peer) hnow
  have hself : (g.after (guess pin now peer)).failures.get? peer =
      (if guesses now (g.failures.get? peer) <
      maxFailures then
        ((.unauthorized : PinVerdict), some (guesses now (g.failures.get? peer) + 1, now))
      else (.lockedOut, g.failures.get? peer)).2 := (hentries peer).trans (if_pos rfl)
  have hother : ∀ q, q ≠ peer →
      (g.after (guess pin now peer)).failures.get? q = g.failures.get? q :=
    fun q hq => (hentries q).trans (if_neg hq)
  have hcontains : (g.after (guess pin now peer)).failures.contains peer = true := by
    rw [AssocMap.contains_iff, hself]
    split
    · exact ⟨_, rfl⟩
    · rename_i hlocked
      cases hentry : g.failures.get? peer with
      | none =>
        rw [hentry] at hlocked
        have hnone : guesses now none < maxFailures := Nat.succ_pos _
        exact absurd hnone hlocked
      | some e => exact ⟨e, rfl⟩
  refine ⟨hpin', hbounded, ?_, fun hfree => ?_, hother, hcontains, ?_⟩
  · rw [hverdict]
    split <;> rfl
  · rw [hself, if_pos hfree]
  · -- the two tables track the same peers
    rw [← AssocMap.size_insert g.failures peer (0, now)]
    apply AssocMap.size_congr
    intro q
    by_cases hq : q = peer
    · subst hq
      rw [hcontains]
      simp [AssocMap.contains, AssocMap.get?_insert]
    · simp [AssocMap.contains, AssocMap.get?_insert, hq, hother q hq]

/-! ## Gates that cannot be told apart -/

theorem Alike.symm {now : Nat} {g g' : PinGate} (h : Alike now g g') : Alike now g' g :=
  fun calls hsorted hlater => (h calls hsorted hlater).symm

/-- A call cannot tell them apart, and neither can what comes after it. -/
theorem Alike.step {now : Nat} {g g' : PinGate} (h : Alike now g g') {c : PinCall}
    (hnow : now ≤ c.now) :
    (g.check c.now c.provided c.peer).1 = (g'.check c.now c.provided c.peer).1 ∧
      Alike c.now (g.after c) (g'.after c) := by
  -- what follows the call is observed as the tail of a longer run
  have hcalls : ∀ calls : List PinCall, calls.Pairwise (fun c d => c.now ≤ d.now) →
      (∀ d ∈ calls, c.now ≤ d.now) → g.observed (c :: calls) = g'.observed (c :: calls) := by
    intro calls hsorted hlater
    apply h
    · exact List.pairwise_cons.mpr ⟨hlater, hsorted⟩
    · rw [List.forall_mem_cons]
      exact ⟨hnow, fun d hd => hnow.trans (hlater d hd)⟩
  constructor
  · have hone := hcalls [] List.Pairwise.nil (by simp)
    simp only [observed, List.cons.injEq, Prod.mk.injEq] at hone
    exact hone.1.1
  · intro calls hsorted hlater
    have hmore := hcalls calls hsorted hlater
    simp only [observed, List.cons.injEq] at hmore
    exact hmore.2

theorem guesses_le (now : Nat) {entry : Option (Nat × Nat)} : guesses now entry ≤ maxFailures := by
  unfold guesses
  split
  · exact Nat.zero_le _
  · split
    · omega
    · split <;> omega

theorem guesses_counted (now : Nat) {n : Nat} (h : n < maxFailures) :
    guesses now (some (n + 1, now)) = n + 1 := by
  have hpos : 0 < lockout := by decide
  show (if n + 1 < maxFailures then n + 1 else if now - now < lockout then maxFailures else 0) = n + 1
  rw [Nat.sub_self, if_pos hpos]
  split <;> omega

/-- The wrong values of a peer are counted alike: its next guesses would tell. -/
theorem Alike.guesses_le {pin : String} {now : Nat} {g g' : PinGate} (h : Alike now g g')
    (hpin : g.pin = some pin) (hpin' : g'.pin = some pin) (hbounded : g.Bounded now)
    (hbounded' : g'.Bounded now) {peer : IpAddr} (hroom : g.Room peer) (hroom' : g'.Room peer) :
    guesses now (g.failures.get? peer) ≤ guesses now (g'.failures.get? peer) := by
  -- induction on how many guesses the first gate still lets through
  induction hn : maxFailures - guesses now (g.failures.get? peer) generalizing g g' with
  | zero =>
    -- the peer is locked out by one gate, so by both
    have hguessed := hbounded.guessed (Nat.le_refl now) hpin hroom
    have hguessed' := hbounded'.guessed (Nat.le_refl now) hpin' hroom'
    have hverdict := (h.step (c := guess pin now peer) (Nat.le_refl now)).1
    have hverdict : (g.check now (some (wrongPin pin)) peer).1 =
        (g'.check now (some (wrongPin pin)) peer).1 := hverdict
    rw [hguessed.verdict, hguessed'.verdict] at hverdict
    have hlocked : ¬guesses now (g.failures.get? peer) < maxFailures := by omega
    rw [if_neg hlocked] at hverdict
    by_contra hlt
    have hle := @PinGate.guesses_le now (g.failures.get? peer)
    rw [if_pos (by omega)] at hverdict
    simp at hverdict
  | succ n ih =>
    have hguessed := hbounded.guessed (Nat.le_refl now) hpin hroom
    have hguessed' := hbounded'.guessed (Nat.le_refl now) hpin' hroom'
    have halike := (h.step (c := guess pin now peer) (Nat.le_refl now)).2
    have hfree : guesses now (g.failures.get? peer) < maxFailures := by omega
    by_contra hlt
    have hfree' : guesses now (g'.failures.get? peer) < maxFailures := by omega
    -- one more guess in both
    have hentry := congrArg (guesses now) (hguessed.entry hfree)
    have hentry' := congrArg (guesses now) (hguessed'.entry hfree')
    rw [guesses_counted now hfree] at hentry
    rw [guesses_counted now hfree'] at hentry'
    have hstep := ih halike hguessed.pin hguessed'.pin hguessed.bounded hguessed'.bounded
      (.inl hguessed.contains) (.inl hguessed'.contains) (by omega)
    omega

/-! ## A fuller table -/

/-- There are more addresses than the table tracks. -/
theorem exists_untracked {table : Table} (h : table.size ≤ maxTrackedPeers) :
    ∃ peer, table.contains peer = false := by
  by_contra hnone
  push Not at hnone
  -- else the first 1025 IPv4 addresses were all keys of the table
  have hsubset : ((List.range (maxTrackedPeers + 1)).map fun i => IpAddr.v4 (BitVec.ofNat 32 i)) ⊆
      table.keys := by
    intro peer _
    exact AssocMap.contains_iff_mem_keys.mp (Bool.not_eq_false _ ▸ hnone peer)
  have hnodup : ((List.range (maxTrackedPeers + 1)).map fun i =>
      IpAddr.v4 (BitVec.ofNat 32 i)).Nodup := by
    apply List.Nodup.map_on _ List.nodup_range
    intro i hi j hj heq
    have hi : i < 1025 := List.mem_range.mp hi
    have hj : j < 1025 := List.mem_range.mp hj
    have hbits := congrArg BitVec.toNat (IpAddr.v4.inj heq)
    simp only [BitVec.toNat_ofNat] at hbits
    omega
  have hle := (List.subperm_of_subset hnodup hsubset).length_le
  rw [List.length_map, List.length_range, AssocMap.keys, List.length_map] at hle
  have hsize : table.entries.length ≤ maxTrackedPeers := h
  omega

/-- Two gates with one PIN, the table of the second with fewer peers, none of them its own. -/
structure Twins (expected : String) (now : Nat) (g g' : PinGate) : Prop where
  pin : g.pin = some expected
  pin' : g'.pin = some expected
  bounded : g.Bounded now
  bounded' : g'.Bounded now
  sub : ∀ q, g'.failures.contains q = true → g.failures.contains q = true
  less : g'.failures.size < g.failures.size

/-- The gate with fewer peers has room for any. -/
theorem Twins.room {pin : String} {now : Nat} {g g' : PinGate} (h : Twins pin now g g')
    (peer : IpAddr) : g'.Room peer :=
  .inr (h.less.trans_le h.bounded.size)

/-- A peer both have room for presents a wrong value to both. -/
theorem Twins.guess {pin : String} {now later : Nat} {g g' : PinGate} (h : Twins pin now g g')
    (hlater : now ≤ later) {peer : IpAddr} (hroom : g.Room peer)
    (hless : g'.failures.contains peer = false → g.failures.contains peer = true →
      g'.failures.size + 1 < g.failures.size) :
    Twins pin later (g.after (PinGate.guess pin later peer))
      (g'.after (PinGate.guess pin later peer)) := by
  have hguessed := h.bounded.guessed hlater h.pin hroom
  have hguessed' := h.bounded'.guessed hlater h.pin' (h.room peer)
  refine ⟨hguessed.pin, hguessed'.pin, hguessed.bounded, hguessed'.bounded, fun q hq => ?_, ?_⟩
  · by_cases hpeer : q = peer
    · rw [hpeer]
      exact hguessed.contains
    · rw [AssocMap.contains, hguessed'.other q hpeer] at hq
      rw [AssocMap.contains, hguessed.other q hpeer]
      exact h.sub q hq
  · have hlt := h.less
    rw [hguessed.size, hguessed'.size]
    -- each table grows by one where the peer is new to it
    cases hcontains' : g'.failures.contains peer with
    | false =>
      cases hcontains : g.failures.contains peer with
      | false => simpa using hlt
      | true => simpa using hless hcontains' hcontains
    | true =>
      rw [h.sub peer hcontains']
      simpa using hlt

/-- A full table whose entries have all expired is empty after the next new peer. -/
theorem Bounded.guess_swept {pin : String} {g : PinGate} {now : Nat} (h : g.Bounded now)
    (hpin : g.pin = some pin) (hfull : g.failures.size = maxTrackedPeers) {peer : IpAddr}
    (hnew : g.failures.contains peer = false) :
    (g.after (PinGate.guess pin (now + lockout) peer)).pin = some pin ∧
      (∀ q, q ≠ peer → (g.after (PinGate.guess pin (now + lockout) peer)).failures.get? q = none) ∧
      (g.after (PinGate.guess pin (now + lockout) peer)).failures.size = 1 := by
  -- every last failure is a whole lockout ago
  have hempty : (g.failures.filter (live (now + lockout))).entries = [] := by
    apply List.filter_eq_nil_iff.mpr
    intro e he
    have hlast := (h.entry e.1 e.2.1 e.2.2 (AssocMap.get?_eq_some_iff.mpr he)).2.2
    rw [Bool.not_eq_true]
    apply not_live_iff.mpr
    omega
  have hroom : roomIn g.failures (now + lockout) = g.failures.filter (live (now + lockout)) := by
    unfold roomIn makeRoom
    have hnot : ¬g.failures.size < maxTrackedPeers := by omega
    have hroom : (g.failures.filter (live (now + lockout))).size < maxTrackedPeers := by
      rw [AssocMap.size, hempty]
      decide
    rw [if_neg hnot]
    exact congrArg PinGate.failures (if_pos hroom)
  -- the table is full and the peer new, so the sweep is run, and empties it
  have hcounting : counting g.failures (now + lockout) peer =
      g.failures.filter (live (now + lockout)) := by
    unfold counting
    rw [forgetting_of_not_contains hnew, hnew, ← hroom]
    rfl
  have hget : ∀ q, (g.failures.filter (live (now + lockout))).get? q = none := by
    intro q
    rw [AssocMap.get?, hempty]
    rfl
  have hstep := checkStep g (PinGate.guess pin (now + lockout) peer)
  have hafter : g.after (PinGate.guess pin (now + lockout) peer) =
    (g.check (PinGate.guess pin (now + lockout) peer).now
      (PinGate.guess pin (now + lockout) peer).provided
      (PinGate.guess pin (now + lockout) peer).peer).2 := rfl
  rw [hafter]
  generalize g.check (PinGate.guess pin (now + lockout) peer).now
    (PinGate.guess pin (now + lockout) peer).provided
      (PinGate.guess pin (now + lockout) peer).peer = r at hstep
  obtain ⟨verdict, g'⟩ := r
  -- a wrong value of a new peer can only be counted
  cases hstep with
  | notRequired hnone => cases hnone.symm.trans hpin
  | locked _ hentry => cases hentry.symm.trans (AssocMap.contains_eq_false_iff.mp hnew)
  | missing _ hprovided => cases hprovided
  | right hpin' hprovided =>
    cases hpin.symm.trans hpin'
    exact absurd (Option.some.inj hprovided) (wrongPin_ne pin)
  | wrong =>
    refine ⟨hpin, fun q hq => ?_, ?_⟩
    · show ((counting g.failures (now + lockout) peer).insert peer _).get? q = none
      rw [AssocMap.get?_insert, if_neg hq, hcounting, hget]
    · show ((counting g.failures (now + lockout) peer).insert peer _).size = 1
      rw [AssocMap.size_insert, hcounting, AssocMap.contains, hget, AssocMap.size, hempty]
      rfl

/-- A fuller table is swept earlier, which shows in the guesses of a peer that the other one
    still counts. -/
theorem Twins.not_alike {pin : String} {now : Nat} {g g' : PinGate} (h : Twins pin now g g')
    {peer : IpAddr} {count last : Nat} (hentry : g'.failures.get? peer = some (count, last))
    (hcount : count < maxFailures) : ¬Alike now g g' := by
  intro halike
  have hpos := (h.bounded'.entry peer count last hentry).1
  -- induction on the places left in the fuller table
  induction hn : maxTrackedPeers - g.failures.size generalizing g g' with
  | zero =>
    -- the table is full: a new peer comes when everything in it has expired
    have hfull : g.failures.size = maxTrackedPeers := by
      have hsize := h.bounded.size
      omega
    obtain ⟨fresh, hfresh⟩ := exists_untracked h.bounded.size
    have hne : peer ≠ fresh := by
      rintro rfl
      have hcontains := h.sub peer (AssocMap.contains_iff.mpr ⟨_, hentry⟩)
      cases hfresh.symm.trans hcontains
    have hlater : now ≤ now + lockout := Nat.le_add_right _ _
    obtain ⟨hpin, hgone, hsize⟩ := h.bounded.guess_swept h.pin hfull hfresh
    have hguessed' := h.bounded'.guessed hlater h.pin' (h.room fresh)
    have hstep := (halike.step (c := PinGate.guess pin (now + lockout) fresh) hlater).2
    have hbounded : (g.after (PinGate.guess pin (now + lockout) fresh)).Bounded (now + lockout) :=
      Bounded.step h.bounded (c := PinGate.guess pin (now + lockout) fresh) hlater
    -- the smaller table still has room, so the entry is still counted there
    have hkept := (hguessed'.other peer hne).trans hentry
    have hroom : (g.after (PinGate.guess pin (now + lockout) fresh)).Room peer := by
      right
      rw [hsize]
      decide
    have hle := hstep.symm.guesses_le hguessed'.pin hpin hguessed'.bounded hbounded
      (.inl (AssocMap.contains_iff.mpr ⟨_, hkept⟩)) hroom
    have hle : guesses (now + lockout)
        ((g'.after (PinGate.guess pin (now + lockout) fresh)).failures.get? peer) ≤
        guesses (now + lockout)
          ((g.after (PinGate.guess pin (now + lockout) fresh)).failures.get? peer) := hle
    rw [hkept, hgone peer hne] at hle
    simp only [guesses, hcount, if_true] at hle
    omega
  | succ n ih =>
    -- one more peer in both
    obtain ⟨fresh, hfresh⟩ := exists_untracked h.bounded.size
    have hroom : g.Room fresh := .inr (by omega)
    have hne : peer ≠ fresh := by
      rintro rfl
      have hcontains := h.sub peer (AssocMap.contains_iff.mpr ⟨_, hentry⟩)
      cases hfresh.symm.trans hcontains
    have hguessed := h.bounded.guessed (Nat.le_refl now) h.pin hroom
    have hguessed' := h.bounded'.guessed (Nat.le_refl now) h.pin' (h.room fresh)
    have htwins := h.guess (Nat.le_refl now) hroom fun _ hcontains =>
        (by cases hfresh.symm.trans hcontains)
    apply ih htwins ((hguessed'.other peer hne).trans hentry)
    · exact (halike.step (c := PinGate.guess pin now fresh) (Nat.le_refl now)).2
    · rw [hguessed.size, hfresh]
      simp only [Bool.false_eq_true, if_false]
      omega

/-! ## What a sweep costs -/

theorem bounded_of_reachable {s : PinGate × Nat} (h : system.Reachable s) : s.1.Bounded s.2 := by
  apply system.reachable_induction (fun s => s.1.Bounded s.2) _ _ h
  · intro s hinit
    obtain ⟨pin, hpin⟩ := hinit
    rw [hpin]
    exact bounded_new pin s.2
  · intro s a s' hbounded hstep
    obtain ⟨g, clock⟩ := s
    cases a with
    | check c =>
      simp only [system] at hstep
      split at hstep
      · rename_i hnow
        cases hstep
        exact hbounded.step hnow
      · simp at hstep
    | set pin =>
      cases hstep
      exact bounded_new pin clock

theorem Bounded.sweep {g : PinGate} {clock : Nat} (h : g.Bounded clock) (now : Nat) :
    (g.sweep now).Bounded clock := by
  refine ⟨(AssocMap.size_filter_le _ _).trans h.size, fun q count last hentry => ?_⟩
  have hfilter : (g.failures.filter (live now)).get? q = some (count, last) := hentry
  rw [AssocMap.get?_filter, Option.filter_eq_some_iff] at hfilter
  exact h.entry q count last hfilter.1

/-- Without a PIN nothing is looked up. -/
theorem observed_of_not_required {g : PinGate} (h : g.pin = none) (calls : List PinCall) :
    g.observed calls = calls.map fun _ => (.ok false, g.wrongValues) := by
  induction calls with
  | nil => rfl
  | cons c calls ih =>
    have hcheck : g.check c.now c.provided c.peer = (.ok false, g) := by
      unfold check
      rw [h]
    simp only [observed, List.map_cons, hcheck, ih]

/-- A sweep that drops an entry leaves a smaller table. -/
theorem Bounded.twins_sweep {g : PinGate} {clock now : Nat} {pin : String} (h : g.Bounded clock)
    (hnow : clock ≤ now) (hpin : g.pin = some pin) {q : IpAddr} {e : Nat × Nat}
    (hentry : g.failures.get? q = some e) (hexpired : e.2 + lockout ≤ now) :
    Twins pin now g (g.sweep now) := by
  have hlower : (g.sweep now).failures.size < g.failures.size := by
    by_contra hnot
    have hsame : g.failures.filter (live now) = g.failures :=
      AssocMap.filter_eq_self_of_size (Nat.le_of_not_lt hnot)
    -- a sweep that takes nothing away would have kept the expired entry
    have hget := AssocMap.get?_filter g.failures (live now) q
    rw [hsame, hentry, Option.filter, not_live_iff.mpr hexpired] at hget
    simp at hget
  refine ⟨hpin, hpin, h.mono hnow, (h.sweep now).mono hnow, fun r hr => ?_, hlower⟩
  obtain ⟨e', he'⟩ := AssocMap.contains_iff.mp hr
  have hfilter : (g.failures.filter (live now)).get? r = some e' := he'
  rw [AssocMap.get?_filter, Option.filter_eq_some_iff] at hfilter
  exact AssocMap.contains_iff.mpr ⟨e', hfilter.1⟩

/-- What a wrong value leaves as the entry of a peer that is not locked out. -/
theorem Guessed.counted {pin : String} {g g' : PinGate} {now : Nat} {peer : IpAddr}
    {verdict : PinVerdict} (h : Guessed pin g now peer verdict g')
    (hfree : guesses now (g.failures.get? peer) + 1 < maxFailures) :
    ∃ count, g'.failures.get? peer = some (count, now) ∧ count < maxFailures :=
  ⟨_, h.entry (Nat.lt_of_succ_lt hfree), hfree⟩

/-- A sweep that drops something can be told. -/
theorem Twins.not_alike_sweep {pin : String} {g : PinGate} {now : Nat}
    (h : Twins pin now g (g.sweep now)) {q : IpAddr} {e : Nat × Nat}
    (hentry : g.failures.get? q = some e) : ¬Alike now g (g.sweep now) := by
  intro halike
  have hone : guesses now none + 1 < maxFailures := by
    show 0 + 1 < maxFailures
    decide
  by_cases hfull : g.failures.size < maxTrackedPeers
  · -- a peer neither of them knows
    obtain ⟨fresh, hfresh⟩ := exists_untracked h.bounded.size
    have hfresh' : (g.sweep now).failures.get? fresh = none := by
      apply AssocMap.contains_eq_false_iff.mp
      cases hcontains : (g.sweep now).failures.contains fresh with
      | false => rfl
      | true => cases hfresh.symm.trans (h.sub fresh hcontains)
    -- its first wrong value counts as one in the swept table, which is still the smaller one
    have htwins := h.guess (Nat.le_refl now) (.inr hfull) fun _ hcontains =>
      (by cases hfresh.symm.trans hcontains)
    have hguessed := h.bounded'.guessed (Nat.le_refl now) h.pin' (h.room fresh)
    obtain ⟨count, hcount, hlt⟩ := hguessed.counted (hfresh' ▸ hone)
    exact htwins.not_alike hcount hlt
      (halike.step (c := PinGate.guess pin now fresh) (Nat.le_refl now)).2
  · have hsize : g.failures.size = maxTrackedPeers := by
      have hle := h.bounded.size
      omega
    cases hrest : (g.sweep now).failures.entries with
    | nil =>
      -- the peer that was forgotten guesses again
      have hnone : ∀ r, (g.sweep now).failures.get? r = none := by
        intro r
        rw [AssocMap.get?, hrest]
        rfl
      have hzero : (g.sweep now).failures.size = 0 := congrArg List.length hrest
      have hroom : g.Room q := .inl (AssocMap.contains_iff.mpr ⟨e, hentry⟩)
      have htwins := h.guess (Nat.le_refl now) hroom fun _ _ => by
        rw [hzero, hsize]
        decide
      have hguessed := h.bounded'.guessed (Nat.le_refl now) h.pin' (h.room q)
      obtain ⟨count, hcount, hlt⟩ := hguessed.counted (hnone q ▸ hone)
      exact htwins.not_alike hcount hlt
        (halike.step (c := PinGate.guess pin now q) (Nat.le_refl now)).2
    | cons entry rest =>
      -- a peer that was kept guesses once its own entry has expired
      obtain ⟨r, count, last⟩ := entry
      have hkept : (g.sweep now).failures.get? r = some (count, last) := by
        apply AssocMap.get?_eq_some_iff.mpr
        rw [hrest]
        exact List.mem_cons_self
      by_cases hsmall : count < maxFailures
      · exact h.not_alike hkept hsmall halike
      · have hlater : now ≤ now + lockout := Nat.le_add_right _ _
        have hcontains' : (g.sweep now).failures.contains r = true :=
          AssocMap.contains_iff.mpr ⟨_, hkept⟩
        have hroom : g.Room r := .inl (h.sub r hcontains')
        have htwins := h.guess hlater hroom fun hnot => (by cases hcontains'.symm.trans hnot)
        -- its full count starts over at the latest when a whole lockout has passed
        have hlast := (h.bounded'.entry r count last hkept).2.2
        have hforgotten : guesses (now + lockout) (some (count, last)) + 1 < maxFailures := by
          simp only [guesses, hsmall, if_false]
          rw [if_neg (by omega)]
          decide
        have hguessed := h.bounded'.guessed hlater h.pin' (h.room r)
        obtain ⟨count', hcount, hlt⟩ := hguessed.counted (hkept ▸ hforgotten)
        exact htwins.not_alike hcount hlt
          (halike.step (c := PinGate.guess pin (now + lockout) r) hlater).2

/-- A sweep cannot be told by any later calls exactly when it drops nothing, or there is no PIN. -/
theorem sweep_unobservable_iff {g : PinGate} {clock : Nat} (h : system.Reachable (g, clock))
    {now : Nat} (hnow : clock ≤ now) :
    Alike now g (g.sweep now) ↔
      g.pin = none ∨ ∀ q e, g.failures.get? q = some e → now < e.2 + lockout := by
  constructor
  · intro halike
    cases hpin : g.pin with
    | none => exact .inl rfl
    | some pin =>
      right
      intro q e hentry
      by_contra hlt
      have hexpired := Nat.le_of_not_lt hlt
      have htwins := (bounded_of_reachable h).twins_sweep hnow hpin hentry hexpired
      exact htwins.not_alike_sweep hentry halike
  · intro hquiet
    rcases hquiet with hpin | hlive
    · intro calls _ _
      rw [observed_of_not_required hpin, observed_of_not_required (g := g.sweep now) hpin]
      rfl
    · -- nothing has expired, so the sweep changes nothing
      have hall : g.failures.filter (live now) = g.failures := by
        apply AssocMap.filter_eq_self_of_size
        apply Nat.le_of_eq
        apply congrArg List.length
        symm
        apply List.filter_eq_self.mpr
        intro e he
        have hlater := hlive e.1 e.2 (AssocMap.get?_eq_some_iff.mpr he)
        by_contra hnot
        have hexpired := not_live_iff.mp (Bool.not_eq_true _ ▸ hnot)
        omega
      have hsame : g.sweep now = g := by
        show ({ g with failures := g.failures.filter (live now) } : PinGate) = g
        rw [hall]
      rw [hsame]
      intro calls _ _
      rfl

/-- A peer has presented two wrong values. -/
def twiceWrong : PinGate := ⟨some "1", .singleton (.v4 1) (2, 0), 2⟩

theorem twiceWrong_reachable : system.Reachable (twiceWrong, 0) := by
  have hinit : system.Reachable (new (some "1"), 0) := .init ⟨some "1", rfl⟩
  have hrun : system.exec (new (some "1"), 0)
      [.check ⟨0, some "2", .v4 1⟩, .check ⟨0, some "2", .v4 1⟩] = some (twiceWrong, 0) := by
    decide +kernel
  exact hinit.exec hrun

/-- Their age tells whether a sweep can be told. -/
theorem sweep_unobservable_twiceWrong :
    Alike (lockout - 1) twiceWrong (twiceWrong.sweep (lockout - 1)) ∧
      ¬Alike lockout twiceWrong (twiceWrong.sweep lockout) := by
  constructor
  · apply (sweep_unobservable_iff twiceWrong_reachable (by decide)).mpr
    right
    intro q e hentry
    rw [AssocMap.get?_eq_some_iff] at hentry
    cases List.mem_singleton.mp hentry
    decide
  · intro halike
    rcases (sweep_unobservable_iff twiceWrong_reachable (by decide)).mp halike with hpin | hlive
    · cases hpin
    · exact absurd (hlive (.v4 1) (2, 0) rfl) (by decide)

/-- Five minutes later the peer has one wrong value left, or three if it was swept. -/
theorem sweep_observable :
    ∃ g clock now calls, system.Reachable (g, clock) ∧ clock ≤ now ∧
      calls.Pairwise (fun c d : PinCall => c.now ≤ d.now) ∧ (∀ c ∈ calls, now ≤ c.now) ∧
      g.observed calls = [(.unauthorized, 3), (.lockedOut, 3)] ∧
      (g.sweep now).observed calls = [(.unauthorized, 3), (.unauthorized, 4)] :=
  ⟨twiceWrong, 0, lockout, [⟨lockout, some "2", .v4 1⟩, ⟨lockout, some "2", .v4 1⟩],
    twiceWrong_reachable, by decide, by decide, by decide, by decide +kernel, by decide +kernel⟩

end PinGate

end LocalSend
