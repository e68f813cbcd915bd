import LocalSend.ForStd.FirstWins
import LocalSend.Discovery.Http

/-!
# What a sweep finds

The probes of a sweep answer in any order, and a deadline may cut it anywhere. What it returns is
read off the answers that arrived: the first device of each fingerprint, in the order in which the
answers were taken.

## Key results

- `Scanned.step`: what the loop has taken, against what the probes have answered
- `sweep_correct`: what any sweep returns
- `scan_order_independent`: the two scans are such sweeps
-/

namespace LocalSend

open FirstWins BufferUnordered

/-! ## The first device of each fingerprint -/

/-- A device that a sweep reports. -/
def isPeer (own : String) (device : DeviceInfo) : Bool :=
  device.fingerprint ≠ "" && device.fingerprint ≠ own

/-- A peer has a fingerprint, and it is not the own one. -/
theorem isPeer_eq_true {own : String} {device : DeviceInfo} :
    isPeer own device = true ↔ device.fingerprint ≠ "" ∧ device.fingerprint ≠ own := by
  rw [isPeer, Bool.and_eq_true, decide_eq_true_iff, decide_eq_true_iff]

def sameFingerprint (d e : DeviceInfo) : Bool := d.fingerprint = e.fingerprint

/-- Two devices are the same by their fingerprints. -/
theorem sameFingerprint_eq_true {d e : DeviceInfo} :
    sameFingerprint d e = true ↔ d.fingerprint = e.fingerprint := decide_eq_true_iff

/-- The loop keeps the first device of each fingerprint. -/
theorem foldl_addDiscovered (own : String) (devices : List DeviceInfo)
    {acc : List String × List DeviceInfo}
    (hseen : ∀ f, f ∈ acc.1 ↔ f ∈ acc.2.map DeviceInfo.fingerprint) :
    (devices.foldl (addDiscovered own) acc).2 =
      keepFirst sameFingerprint acc.2 (devices.filter (isPeer own)) := by
  induction devices generalizing acc with
  | nil => rfl
  | cons d devices ih =>
    rw [List.foldl_cons]
    by_cases hpeer : isPeer own d = true
    · have hkept : ¬(d.fingerprint = "" ∨ d.fingerprint = own) :=
        not_or.mpr (isPeer_eq_true.mp hpeer)
      rw [List.filter_cons_of_pos hpeer, keepFirst_cons]
      by_cases hmem : d.fingerprint ∈ acc.1
      · -- a device with this fingerprint was kept before
        have hadd : addDiscovered own acc d = acc := by
          rw [addDiscovered, if_neg hkept, if_pos hmem]
        obtain ⟨e, he, hfp⟩ := List.mem_map.mp ((hseen _).mp hmem)
        rw [hadd, ih hseen, keep_of_clash he (sameFingerprint_eq_true.mpr hfp)]
      -- its fingerprint is new: it joins both lists
      · have hadd : addDiscovered own acc d = (d.fingerprint :: acc.1, acc.2 ++ [d]) := by
          rw [addDiscovered, if_neg hkept, if_neg hmem]
        have hnew : ∀ e ∈ acc.2, sameFingerprint e d = false := by
          intro e he
          rw [← Bool.not_eq_true, sameFingerprint_eq_true]
          intro hfp
          exact hmem ((hseen _).mpr (List.mem_map.mpr ⟨e, he, hfp⟩))
        rw [hadd, keep_of_not_clash hnew]
        apply ih
        intro f
        rw [List.mem_cons, hseen, List.map_append, List.mem_append, List.map_singleton,
          List.mem_singleton, or_comm]
    -- it has no fingerprint, or the client's own
    · have hskip : d.fingerprint = "" ∨ d.fingerprint = own := by
        by_contra hother
        exact hpeer (isPeer_eq_true.mpr (not_or.mp hother))
      rw [List.filter_cons_of_neg hpeer, addDiscovered, if_pos hskip, ih hseen]

/-- The devices that are returned. -/
theorem outcome_devices (self : HttpDiscovery) (s : ScanState) : (self.outcome s).devices =
    keepFirst sameFingerprint [] (s.discovered.filter (isPeer self.localDevice.fingerprint)) :=
  foldl_addDiscovered self.localDevice.fingerprint s.discovered fun f => by simp

/-- What a sweep reports it has found, and it is a peer. -/
theorem mem_outcome_devices {self : HttpDiscovery} {s : ScanState} {d : DeviceInfo}
    (h : d ∈ (self.outcome s).devices) :
    d ∈ s.discovered ∧ isPeer self.localDevice.fingerprint d = true := by
  rw [outcome_devices] at h
  cases mem_keepFirst h with
  | inl hnil => cases hnil
  | inr hfilter =>
    exact List.mem_filter.mp hfilter

/-- No two reported devices have the same fingerprint. -/
theorem outcome_devices_pairwise (self : HttpDiscovery) (s : ScanState) :
    (self.outcome s).devices.Pairwise fun d e => d.fingerprint ≠ e.fingerprint := by
  have hnil : ([] : List DeviceInfo).Pairwise fun d e => sameFingerprint d e = false :=
    List.Pairwise.nil
  rw [outcome_devices]
  refine (keepFirst_pairwise _ hnil).imp ?_
  intro d e hclash hfp
  rw [sameFingerprint_eq_true.mpr hfp] at hclash
  cases hclash

/-- A device that was discovered is returned, or another with its fingerprint is. -/
theorem exists_outcome_device {self : HttpDiscovery} {s : ScanState} {d : DeviceInfo}
    (hd : d ∈ s.discovered) (hpeer : isPeer self.localDevice.fingerprint d = true) :
    ∃ e ∈ (self.outcome s).devices, e.fingerprint = d.fingerprint := by
  obtain ⟨e, he, hcase⟩ : ∃ e ∈ (self.outcome s).devices, e = d ∨ sameFingerprint e d = true := by
    rw [outcome_devices]
    exact exists_mem_keepFirst [] (List.mem_filter.mpr ⟨hd, hpeer⟩)
  cases hcase with
  | inl heq => exact ⟨e, he, by rw [heq]⟩
  | inr hclash => exact ⟨e, he, sameFingerprint_eq_true.mp hclash⟩

/-! ## The loop -/

/-- The probe that an action finishes. -/
def ScanAction.finished? : ScanAction → Option Nat
  | .finish i => some i
  | _ => none

/-- The probe whose answer an action takes. -/
def ScanAction.taken? : ScanAction → Option Nat
  | .next i => some i
  | _ => none

/-- The probes that have answered, in that order. -/
def finishedProbes (as : List ScanAction) : List Nat := as.filterMap ScanAction.finished?

/-- The probes whose answers the loop has taken, in that order. -/
def takenProbes (as : List ScanAction) : List Nat := as.filterMap ScanAction.taken?

/-- The finished probes are listed in the order of their ends. -/
theorem finishedProbes_concat (as : List ScanAction) (a : ScanAction) :
    finishedProbes (as ++ [a]) = finishedProbes as ++ a.finished?.toList := by
  unfold finishedProbes
  rw [List.filterMap_append]
  cases a <;> rfl

/-- The taken answers are listed in the order in which they are taken. -/
theorem takenProbes_concat (as : List ScanAction) (a : ScanAction) :
    takenProbes (as ++ [a]) = takenProbes as ++ a.taken?.toList := by
  unfold takenProbes
  rw [List.filterMap_append]
  cases a <;> rfl

/-- A probe is listed as finished if and only if it has ended in the run. -/
theorem mem_finishedProbes {as : List ScanAction} {i : Nat} :
    i ∈ finishedProbes as ↔ .finish i ∈ as := by
  unfold finishedProbes
  rw [List.mem_filterMap]
  constructor
  · intro h
    obtain ⟨a, ha, hi⟩ := h
    cases a with
    | finish j =>
      cases hi
      exact ha
    | next j => cases hi
    | deadline => cases hi
    | exhausted => cases hi
  · intro h
    exact ⟨.finish i, h, rfl⟩

/-- The loop after some actions. -/
structure Scanned (answers : List (Option DeviceInfo)) (as : List ScanAction) (s : ScanState) : Prop where
  ledger : Ledger scanConcurrency (List.range answers.length) (finishedProbes as) (takenProbes as)
    s.probes
  discovered : s.discovered = (takenProbes as).filterMap fun i => answers[i]?.join
  cut : s.complete = false → s.isOver = true ∧ s.probes.isPending = true
  ended : s.isOver = true → s.complete = true → s.probes.isExhausted = true
  steps : as.length = (finishedProbes as).length + (takenProbes as).length + s.isOver.toNat

variable {answers : List (Option DeviceInfo)} {within : Option Nat}

/-- At the start no probe has ended and nothing has been found. -/
theorem Scanned.start (answers : List (Option DeviceInfo)) :
    Scanned answers [] (.start answers.length) := by
  constructor
  · exact Ledger.start ..
  · rfl
  · intro h
    cases h
  · intro h
    cases h
  · rfl

/-- What the step of a sweep does. -/
theorem sweep_step_cases {s s' : ScanState} {a : ScanAction}
    (h : (sweep answers within).step s a = some s') :
    s.isOver = false ∧
      ((∃ i probes, a = .finish i ∧ s.probes.finish i = some probes ∧
        s' = { s with probes := probes }) ∨
        (∃ i probes, a = .next i ∧ s.probes.next scanConcurrency i = some probes ∧
          s' = { s with probes := probes, discovered := s.discovered ++ (answers[i]?.join).toList }) ∨
        (a = .deadline ∧ s.probes.isPending = true ∧ s' = { s with complete := false, isOver := true }) ∨
        a = .exhausted ∧ s.probes.isExhausted = true ∧ s' = { s with isOver := true }) := by
  have hover : s.isOver = false := by
    cases hs : s.isOver with
    | false => rfl
    | true => simp [sweep, hs] at h
  -- one action at a time, each with its guard
  refine ⟨hover, ?_⟩
  simp only [sweep] at h
  rw [if_neg (ne_true_of_eq_false hover)] at h
  cases a with
  | finish i =>
    obtain ⟨probes, hprobes, heq⟩ := Option.map_eq_some_iff.mp h
    exact .inl ⟨i, probes, rfl, hprobes, heq.symm⟩
  | next i =>
    obtain ⟨probes, hprobes, heq⟩ := Option.map_eq_some_iff.mp h
    exact .inr (.inl ⟨i, probes, rfl, hprobes, heq.symm⟩)
  | deadline =>
    obtain ⟨hpending, heq⟩ := Option.ite_none_right_eq_some.mp h
    rw [Bool.and_eq_true] at hpending
    exact .inr (.inr (.inl ⟨rfl, hpending.2, (Option.some.inj heq).symm⟩))
  | exhausted =>
    obtain ⟨hexhausted, heq⟩ := Option.ite_none_right_eq_some.mp h
    exact .inr (.inr (.inr ⟨rfl, hexhausted, (Option.some.inj heq).symm⟩))

/-- One action of the loop. -/
theorem Scanned.step {as : List ScanAction} {s s' : ScanState} {a : ScanAction}
    (h : Scanned answers as s) (hstep : (sweep answers within).step s a = some s') :
    Scanned answers (as ++ [a]) s' := by
  obtain ⟨hover, hcases⟩ := sweep_step_cases hstep
  have hcomplete : s.complete = true := by
    by_contra hcut
    have hended := (h.cut (Bool.eq_false_of_not_eq_true hcut)).1
    rw [hover] at hended
    cases hended
  have hsteps := h.steps
  rw [hover] at hsteps
  obtain ⟨i, probes, rfl, hprobes, rfl⟩ | ⟨i, probes, rfl, hprobes, rfl⟩ |
    ⟨rfl, hpending, rfl⟩ | ⟨rfl, hexhausted, rfl⟩ := hcases
  · -- a probe answers
    have hfinished := finishedProbes_concat as (.finish i)
    have htaken := takenProbes_concat as (.finish i)
    simp only [ScanAction.finished?, ScanAction.taken?, Option.toList_some, Option.toList_none,
      List.append_nil] at hfinished htaken
    constructor
    · rw [hfinished, htaken]
      exact h.ledger.finish hprobes
    · rw [htaken]
      exact h.discovered
    · exact fun hcut => absurd (hcomplete.symm.trans hcut) (by decide)
    · exact fun hended => absurd (hover.symm.trans hended) (by decide)
    · rw [hfinished, htaken, List.length_append, List.length_append, hsteps, hover]
      simp only [List.length_singleton]
      omega
  · -- the loop takes an answer
    have hfinished := finishedProbes_concat as (.next i)
    have htaken := takenProbes_concat as (.next i)
    simp only [ScanAction.finished?, ScanAction.taken?, Option.toList_some, Option.toList_none,
      List.append_nil] at hfinished htaken
    constructor
    · rw [hfinished, htaken]
      exact h.ledger.next hprobes
    · rw [htaken, List.filterMap_append, ← h.discovered]
      show _ = _ ++ List.filterMap _ [i]
      cases hanswer : answers[i]?.join with
      | none => simp only [hanswer, List.filterMap_cons, List.filterMap_nil, Option.toList_none]
      | some d => simp only [hanswer, List.filterMap_cons, List.filterMap_nil, Option.toList_some]
    · exact fun hcut => absurd (hcomplete.symm.trans hcut) (by decide)
    · exact fun hended => absurd (hover.symm.trans hended) (by decide)
    · rw [hfinished, htaken, List.length_append, List.length_append, hsteps, hover]
      simp only [List.length_singleton]
      omega
  · -- the deadline
    have hfinished := finishedProbes_concat as .deadline
    have htaken := takenProbes_concat as .deadline
    simp only [ScanAction.finished?, ScanAction.taken?, Option.toList_none,
      List.append_nil] at hfinished htaken
    constructor
    · rw [hfinished, htaken]
      exact h.ledger
    · rw [htaken]
      exact h.discovered
    · exact fun _ => ⟨rfl, hpending⟩
    · intro _ hcut
      cases hcut
    · rw [hfinished, htaken, List.length_append, hsteps]
      rfl
  · -- the end of the stream
    have hfinished := finishedProbes_concat as .exhausted
    have htaken := takenProbes_concat as .exhausted
    simp only [ScanAction.finished?, ScanAction.taken?, Option.toList_none,
      List.append_nil] at hfinished htaken
    constructor
    · rw [hfinished, htaken]
      exact h.ledger
    · rw [htaken]
      exact h.discovered
    · exact fun hcut => absurd (hcomplete.symm.trans hcut) (by decide)
    · exact fun _ _ => hexhausted
    · rw [hfinished, htaken, List.length_append, hsteps]
      rfl

/-- Every run of a sweep is scanned: by the length of the run. -/
theorem scanned_of_exec {as : List ScanAction} {s : ScanState}
    (hrun : (sweep answers within).exec (.start answers.length) as = some s) :
    Scanned answers as s :=
  (sweep answers within).exec_history (Scanned.start answers)
    (fun _ _ _ _ h hstep => h.step hstep) hrun

/-! ## What is returned -/

/-- A sweep that is over has taken every answer that arrived. -/
theorem Scanned.taken_perm {as : List ScanAction} {s : ScanState} (h : Scanned answers as s)
    (hover : s.isOver = true) : (takenProbes as).Perm (finishedProbes as) := by
  apply h.ledger.taken_of_not_ready
  cases hcomplete : s.complete with
  | false =>
    have hpending := (h.cut hcomplete).2
    simp only [isPending, Bool.and_eq_true, List.isEmpty_iff] at hpending
    exact hpending.1
  | true =>
    have hexhausted := h.ended hover hcomplete
    simp only [isExhausted, Bool.and_eq_true, List.isEmpty_iff] at hexhausted
    exact hexhausted.1.1

/-- Once the sweep is over, it has found what the finished probes answered. -/
theorem Scanned.mem_discovered {as : List ScanAction} {s : ScanState} (h : Scanned answers as s)
    (hover : s.isOver = true) {d : DeviceInfo} :
    d ∈ s.discovered ↔ ∃ i, .finish i ∈ as ∧ answers[i]? = some (some d) := by
  rw [h.discovered, List.mem_filterMap]
  constructor
  · intro hd
    obtain ⟨i, hi, hanswer⟩ := hd
    exact ⟨i, mem_finishedProbes.mp ((h.taken_perm hover).subset hi),
      Option.join_eq_some_iff.mp hanswer⟩
  · intro hd
    obtain ⟨i, hi, hanswer⟩ := hd
    exact ⟨i, (h.taken_perm hover).symm.subset (mem_finishedProbes.mpr hi),
      Option.join_eq_some_iff.mpr hanswer⟩

/-- Once the sweep is over, it says complete if and only if every probe has ended. -/
theorem Scanned.complete_iff {as : List ScanAction} {s : ScanState} (h : Scanned answers as s)
    (hover : s.isOver = true) : s.complete = true ↔ ∀ i < answers.length, .finish i ∈ as := by
  constructor
  · intro hcomplete i hi
    have hperm := h.ledger.finished_of_exhausted (h.ended hover hcomplete)
    exact mem_finishedProbes.mp (hperm.symm.subset (List.mem_range.mpr hi))
  · intro hall
    by_contra hcut
    -- a probe that is cut off has not answered, and no probe answers twice
    have hlt := h.ledger.unfinished_of_pending (h.cut (Bool.eq_false_of_not_eq_true hcut)).2
    have hsubset : List.range answers.length ⊆ finishedProbes as := by
      intro i hi
      exact mem_finishedProbes.mpr (hall i (List.mem_range.mp hi))
    have hle := (List.subperm_of_subset List.nodup_range hsubset).length_le
    omega

/-- What a sweep reports, after some actions. -/
structure Reports (own : String) (answers : List (Option DeviceInfo)) (as : List ScanAction)
    (outcome : ScanOutcome) : Prop where
  distinct : outcome.devices.Pairwise fun d e => d.fingerprint ≠ e.fingerprint
  peers : ∀ d ∈ outcome.devices, d.fingerprint ≠ "" ∧ d.fingerprint ≠ own
  answered : ∀ d ∈ outcome.devices, ∃ i, .finish i ∈ as ∧ answers[i]? = some (some d)
  fingerprints : ∀ f, f ∈ outcome.devices.map DeviceInfo.fingerprint ↔
    f ≠ "" ∧ f ≠ own ∧ ∃ i d, .finish i ∈ as ∧ answers[i]? = some (some d) ∧ d.fingerprint = f
  complete : outcome.complete = true ↔ ∀ i < answers.length, .finish i ∈ as

/-- What the sweep then reports is one device for each peer that a finished probe answered. -/
theorem Scanned.reports {as : List ScanAction} {s : ScanState} (h : Scanned answers as s)
    (hover : s.isOver = true) (self : HttpDiscovery) :
    Reports self.localDevice.fingerprint answers as (self.outcome s) := by
  constructor
  · exact outcome_devices_pairwise self s
  · exact fun d hd => isPeer_eq_true.mp (mem_outcome_devices hd).2
  · exact fun d hd => (h.mem_discovered hover).mp (mem_outcome_devices hd).1
  · intro f
    rw [List.mem_map]
    constructor
    -- a reported device was discovered by a probe that had answered
    · intro hf
      obtain ⟨d, hd, hfp⟩ := hf
      obtain ⟨hdiscovered, hpeer⟩ := mem_outcome_devices hd
      obtain ⟨hempty, hown⟩ := isPeer_eq_true.mp hpeer
      obtain ⟨i, hi, hanswer⟩ := (h.mem_discovered hover).mp hdiscovered
      exact ⟨hfp ▸ hempty, hfp ▸ hown, i, d, hi, hanswer, hfp⟩
    -- a device that answered is reported, or one that came before it with the same fingerprint
    · intro hf
      obtain ⟨hempty, hown, i, d, hi, hanswer, hfp⟩ := hf
      have hpeer : isPeer self.localDevice.fingerprint d = true :=
        isPeer_eq_true.mpr ⟨hfp.symm ▸ hempty, hfp.symm ▸ hown⟩
      obtain ⟨e, he, hsame⟩ :=
        exists_outcome_device ((h.mem_discovered hover).mpr ⟨i, hi, hanswer⟩) hpeer
      exact ⟨e, he, hsame.trans hfp⟩
  · exact h.complete_iff hover

/-- More answers, more fingerprints. -/
theorem Reports.mono {own : String} {as as' : List ScanAction} {outcome outcome' : ScanOutcome}
    (h : Reports own answers as outcome) (h' : Reports own answers as' outcome')
    (hsub : ∀ i, .finish i ∈ as → .finish i ∈ as') {f : String}
    (hf : f ∈ outcome.devices.map DeviceInfo.fingerprint) :
    f ∈ outcome'.devices.map DeviceInfo.fingerprint := by
  obtain ⟨hempty, hown, i, d, hi, hanswer, hfp⟩ := (h.fingerprints f).mp hf
  exact (h'.fingerprints f).mpr ⟨hempty, hown, i, d, hsub i hi, hanswer, hfp⟩

/-- Only the probes of a sweep answer. -/
theorem Scanned.finish_lt {as : List ScanAction} {s : ScanState} (h : Scanned answers as s)
    {i : Nat} (hi : .finish i ∈ as) : i < answers.length := by
  have hmem := h.ledger.accounted.subset (List.mem_append_right _ (mem_finishedProbes.mpr hi))
  exact List.mem_range.mp hmem

/-- A sweep that is not over can go on. -/
theorem Scanned.progress {as : List ScanAction} {s : ScanState} (h : Scanned answers as s)
    (hover : s.isOver = false) : ∃ a s', (sweep answers within).step s a = some s' := by
  have hstep : ∀ a, (sweep answers within).step s a = _ := fun a =>
      if_neg (ne_true_of_eq_false hover)
  obtain hexhausted | hpending | ⟨i, probes, hnext⟩ := h.ledger.progress (by decide)
  · exact ⟨.exhausted, _, (hstep .exhausted).trans (if_pos hexhausted)⟩
  · -- a probe that runs may answer
    simp only [isPending, Bool.and_eq_true, Bool.not_eq_true',
      List.isEmpty_eq_false_iff] at hpending
    obtain ⟨i, hi⟩ := List.exists_mem_of_ne_nil _ hpending.2
    have hfinish : s.probes.finish i = some _ := if_pos hi
    exact ⟨.finish i, _, (hstep (.finish i)).trans (Option.map_eq_some_iff.mpr ⟨_, hfinish, rfl⟩)⟩
  · exact ⟨.next i, _, (hstep (.next i)).trans (Option.map_eq_some_iff.mpr ⟨_, hnext, rfl⟩)⟩

/-- A probe starts once and ends once, and the time runs out once. -/
theorem Scanned.length_le {as : List ScanAction} {s : ScanState} (h : Scanned answers as s) :
    as.length ≤ 2 * answers.length + 1 := by
  have hsteps := h.steps
  have hfinished := h.ledger.accounted.length_eq
  have htaken := h.ledger.undelivered.length_eq
  have hover : s.isOver.toNat ≤ 1 := s.isOver.toNat_le
  simp only [List.length_append, List.length_range] at hfinished htaken
  omega

/-- What is asked of a scan: what it reports, whatever the order of its answers and wherever it is
    cut, and that it comes to an end. -/
structure SweepCorrect (self : HttpDiscovery) (answers : List (Option DeviceInfo))
    (scan : Option Nat → TransitionSystem ScanState ScanAction) : Prop where
  reports : ∀ within as s, (scan within).exec (.start answers.length) as = some s →
    s.isOver = true →
    Reports self.localDevice.fingerprint answers as (self.outcome s)
  order : ∀ within within' as as' s s', (scan within).exec (.start answers.length) as = some s →
    (scan within').exec (.start answers.length) as' = some s' → s.isOver = true → s'.isOver = true →
    s.complete = true → s'.complete = true →
    ∀ f, f ∈ (self.outcome s).devices.map DeviceInfo.fingerprint ↔
      f ∈ (self.outcome s').devices.map DeviceInfo.fingerprint
  extend : ∀ within within' as more s s',
    (scan within).exec (.start answers.length) (as ++ [.deadline]) = some s →
    (scan within').exec (.start answers.length) (as ++ more) = some s' → s'.isOver = true →
    ∀ f ∈ (self.outcome s).devices.map DeviceInfo.fingerprint,
      f ∈ (self.outcome s').devices.map DeviceInfo.fingerprint
  returns : ∀ within as s, (scan within).exec (.start answers.length) as = some s →
    as.length ≤ 2 * answers.length + 1 ∧
      (s.isOver = true ∨ ∃ a s', (scan within).step s a = some s')

/-- A sweep over any answers reports what its probes found, however they are ordered and cut off. -/
theorem sweep_correct (self : HttpDiscovery) (answers : List (Option DeviceInfo)) :
    SweepCorrect self answers (sweep answers) := by
  constructor
  -- what one run reports
  · intro within as s hrun hover
    exact (scanned_of_exec hrun).reports hover self
  -- two complete runs report the same fingerprints
  · intro within within' as as' s s' hrun hrun' hover hover' hcomplete hcomplete' f
    have h := scanned_of_exec hrun
    have h' := scanned_of_exec hrun'
    have hall := (h.complete_iff hover).mp hcomplete
    have hall' := (h'.complete_iff hover').mp hcomplete'
    constructor
    · exact (h.reports hover self).mono (h'.reports hover' self) fun i hi =>
        hall' i (h.finish_lt hi)
    · exact (h'.reports hover' self).mono (h.reports hover self) fun i hi =>
        hall i (h'.finish_lt hi)
  -- a later deadline loses nothing
  · intro within within' as more s s' hrun hrun' hover' f hf
    have h := scanned_of_exec hrun
    -- a run that takes one more step and is over then was not over before, unless by the
    -- deadline
    have hover : s.isOver = true := by
      rw [TransitionSystem.exec_append, Option.bind_eq_some_iff] at hrun
      obtain ⟨t, -, hlast⟩ := hrun
      rw [TransitionSystem.exec_singleton] at hlast
      obtain ⟨-, hcases⟩ := sweep_step_cases hlast
      obtain ⟨i, probes, ha, -⟩ | ⟨i, probes, ha, -⟩ | ⟨-, -, rfl⟩ | ⟨ha, -⟩ := hcases
      · cases ha
      · cases ha
      · rfl
      · cases ha
    -- what had arrived by the earlier deadline arrives by the later one
    refine (h.reports hover self).mono ((scanned_of_exec hrun').reports hover' self) ?_ hf
    intro i hi
    cases List.mem_append.mp hi with
    | inl hi => exact List.mem_append_left _ hi
    | inr hi => cases List.mem_singleton.mp hi
  -- the run is bounded, and goes on until it is over
  · intro within as s hrun
    have h := scanned_of_exec hrun
    refine ⟨h.length_le, ?_⟩
    cases hover : s.isOver with
    | true => exact .inl rfl
    | false => exact .inr (h.progress hover)

/-- Both scans report what answered, whatever the order of the answers and wherever they are cut. -/
theorem scan_order_independent (self : HttpDiscovery) (network : Nat → String → HttpReply)
    (targets : List String) :
    (∀ targetPort allowRegisterFallback,
      SweepCorrect self (self.infoAnswers network targets targetPort allowRegisterFallback)
        fun within => self.scanHosts network targets targetPort within allowRegisterFallback) ∧
      SweepCorrect self (self.registerAnswers network targets)
        fun within => self.scanRegisterHosts network targets within := by
  constructor
  · intro targetPort allowRegisterFallback
    exact sweep_correct self _
  · exact sweep_correct self _

end LocalSend
