import Mathlib.Data.List.Induction
import Mathlib.Logic.Relation

/-!
# Guarded transition systems

A transition system is a set of initial states and an executable step function:
`step s a = some s'` when action `a` is enabled in `s`, and `none` otherwise.
The same function is replayed on a concrete run (`exec`) and inducted over in a
proof (`Reachable`), so the guards of the two can never differ.

## Key results

- `reachable_induction`: an inductive invariant holds in every reachable state
- `exec_history`: an invariant of a state and of the actions that led to it
- `Occurred.snoc`, `Occurred.last`: what some action of a run was taken in
- `exists_turn`: the step in which something came about
- `always_of_step`: what every step from an invariant state satisfies, every run satisfies
- `always_of_invariant`: the same for runs whose steps all meet a condition
- `always_iff_of_invariant`: two step properties that agree on invariant states agree on runs
- `Leads.trans`, `Leads.lift`: how runs of some actions compose, and are replayed in another system
- `Simulation.reachable`: a simulation maps reachable states to reachable states
- `Simulation.invariant`: an invariant that rests on one of the simulated system
-/

/-- A set of initial states and a guarded step function. -/
structure TransitionSystem (σ α : Type*) where
  Init : σ → Prop
  step : σ → α → Option σ

namespace TransitionSystem

variable {σ α : Type*} (sys : TransitionSystem σ α)

/-- Replay the actions `as` from `s`; `none` when one of them is not enabled. -/
def exec (s : σ) : List α → Option σ
  | [] => some s
  | a :: as => (sys.step s a).bind fun s' => exec s' as

/-- The states some run from an initial state ends in. -/
inductive Reachable : σ → Prop
  | init {s : σ} : sys.Init s → Reachable s
  | step {s s' : σ} {a : α} : Reachable s → sys.step s a = some s' → Reachable s'

/-- Every step of the run of `as` from `s` satisfies `P`. The run may stop early:
    an action that is not enabled ends it. -/
def Always (P : σ → α → σ → Prop) (s : σ) : List α → Prop
  | [] => True
  | a :: as => ∀ s', sys.step s a = some s' → P s a s' ∧ Always P s' as

/-- Some action of the run of `as` from `s` was taken in a state of which `P` holds with it. -/
def Occurred (P : σ → α → Prop) (s : σ) (as : List α) : Prop :=
  ∃ before a after t, as = before ++ a :: after ∧ sys.exec s before = some t ∧ P t a

/-- A run of actions of which `P` holds leads from `s` to `s'`. -/
def Leads (P : α → Prop) (s s' : σ) : Prop := ∃ as, (∀ a ∈ as, P a) ∧ sys.exec s as = some s'

/-- Every action of the run of `as` from `s` passes a test in the state it is taken in. -/
def allPass (test : σ → α → Bool) (s : σ) : List α → Bool
  | [] => true
  | a :: as => test s a && (sys.step s a).all fun s' => allPass test s' as

variable {sys}

@[simp] theorem exec_nil (s : σ) : sys.exec s [] = some s := rfl

@[simp] theorem exec_cons (s : σ) (a : α) (as : List α) :
    sys.exec s (a :: as) = (sys.step s a).bind fun s' => sys.exec s' as := rfl

/-- A run of `as ++ bs` is a run of `as` continued by a run of `bs`. -/
theorem exec_append (s : σ) (as bs : List α) :
    sys.exec s (as ++ bs) = (sys.exec s as).bind fun s' => sys.exec s' bs := by
  induction as generalizing s with
  | nil => rfl
  | cons a as ih =>
    simp only [List.cons_append, exec_cons]
    cases sys.step s a with
    | none => rfl
    | some s' => exact ih s'

/-- The one-action run is the step. -/
theorem exec_singleton (s : σ) (a : α) : sys.exec s [a] = sys.step s a := by
  simp only [exec_cons, exec_nil]
  cases sys.step s a <;> rfl

/-- A run from a reachable state ends in a reachable state. -/
theorem Reachable.exec {s s' : σ} {as : List α} (h : sys.Reachable s)
    (hrun : sys.exec s as = some s') : sys.Reachable s' := by
  induction as generalizing s with
  | nil => cases hrun; exact h
  | cons a as ih =>
    simp only [exec_cons, Option.bind_eq_some_iff] at hrun
    obtain ⟨t, ht, hrun⟩ := hrun
    exact ih (h.step ht) hrun

/-- An invariant that holds initially and survives every step holds in every
    reachable state. -/
theorem reachable_induction (sys : TransitionSystem σ α) (Inv : σ → Prop)
    (hinit : ∀ s, sys.Init s → Inv s) (hstep : ∀ s a s', Inv s → sys.step s a = some s' → Inv s')
    {s : σ} (h : sys.Reachable s) : Inv s := by
  induction h with
  | init h => exact hinit _ h
  | step _ hs ih => exact hstep _ _ _ ih hs

/-- The same along one run: `Inv` at its start gives `Inv` at its end. -/
theorem exec_induction (sys : TransitionSystem σ α) (Inv : σ → Prop)
    (hstep : ∀ s a s', Inv s → sys.step s a = some s' → Inv s')
    {s s' : σ} {as : List α} (h : Inv s) (hrun : sys.exec s as = some s') : Inv s' := by
  induction as generalizing s with
  | nil => cases hrun; exact h
  | cons a as ih =>
    simp only [exec_cons, Option.bind_eq_some_iff] at hrun
    obtain ⟨t, ht, hrun⟩ := hrun
    exact ih (hstep _ _ _ h ht) hrun

/-- The same for what a state says of the actions that led to it. -/
theorem exec_history (sys : TransitionSystem σ α) {P : List α → σ → Prop} {s₀ : σ} (hinit : P [] s₀)
    (hstep : ∀ as s a s', P as s → sys.step s a = some s' → P (as ++ [a]) s')
    {as : List α} {s : σ} (hrun : sys.exec s₀ as = some s) : P as s := by
  induction as using List.reverseRecOn generalizing s with
  | nil => cases hrun; exact hinit
  | append_singleton as a ih =>
    rw [exec_append, Option.bind_eq_some_iff] at hrun
    obtain ⟨t, ht, hlast⟩ := hrun
    rw [exec_singleton] at hlast
    exact hstep as t a s (ih ht) hlast

/-- What has occurred stays so. -/
theorem Occurred.snoc {P : σ → α → Prop} {s : σ} {as : List α} (h : sys.Occurred P s as) (a : α) :
    sys.Occurred P s (as ++ [a]) := by
  obtain ⟨before, b, after, t, rfl, hrun, hP⟩ := h
  exact ⟨before, b, after ++ [a], t, by rw [List.append_assoc, List.cons_append], hrun, hP⟩

/-- What does not hold at the start of a run and does at its end came about in one of its steps. -/
theorem exists_turn {P : σ → Prop} {s s' : σ} {as : List α} (hrun : sys.exec s as = some s')
    (hstart : ¬P s) (hend : P s') :
    ∃ before a after t t', as = before ++ a :: after ∧ sys.exec s before = some t ∧ ¬P t ∧
      sys.step t a = some t' ∧ P t' ∧ sys.exec t' after = some s' := by
  induction as generalizing s with
  | nil =>
    cases hrun
    exact absurd hend hstart
  | cons a as ih =>
    simp only [exec_cons, Option.bind_eq_some_iff] at hrun
    obtain ⟨t, ht, hrun⟩ := hrun
    by_cases hP : P t
    · exact ⟨[], a, as, s, t, rfl, rfl, hstart, ht, hP, hrun⟩
    · obtain ⟨before, b, after, u, u', rfl, hbefore, hu, hstep, hu', hafter⟩ := ih hrun hP
      refine ⟨a :: before, b, after, u, u', rfl, ?_, hu, hstep, hu', hafter⟩
      rw [exec_cons, ht]
      exact hbefore

/-- The last action of a run has occurred. -/
theorem Occurred.last {P : σ → α → Prop} {s t : σ} {as : List α} {a : α}
    (hrun : sys.exec s as = some t) (hP : P t a) : sys.Occurred P s (as ++ [a]) :=
  ⟨as, a, [], t, rfl, hrun, hP⟩

/-! ## Properties of the steps of a run -/

/-- Two step properties hold along a run together iff each does. -/
theorem always_and {P Q : σ → α → σ → Prop} {s : σ} {as : List α} :
    sys.Always (fun s a s' => P s a s' ∧ Q s a s') s as ↔
      sys.Always P s as ∧ sys.Always Q s as := by
  induction as generalizing s with
  | nil => exact ⟨fun _ => ⟨trivial, trivial⟩, fun _ => trivial⟩
  | cons a as ih =>
    constructor
    · intro h
      exact ⟨fun s' hs => ⟨(h s' hs).1.1, (ih.mp (h s' hs).2).1⟩,
        fun s' hs => ⟨(h s' hs).1.2, (ih.mp (h s' hs).2).2⟩⟩
    · intro h s' hs
      exact ⟨⟨(h.1 s' hs).1, (h.2 s' hs).1⟩, ih.mpr ⟨(h.1 s' hs).2, (h.2 s' hs).2⟩⟩

/-- The step property at the last step of a run. -/
theorem Always.last {P : σ → α → σ → Prop} {s t t' : σ} {as : List α} {a : α}
    (h : sys.Always P s (as ++ [a])) (hrun : sys.exec s as = some t)
    (hstep : sys.step t a = some t') : P t a t' := by
  induction as generalizing s with
  | nil => cases hrun; exact (h t' hstep).1
  | cons b as ih =>
    simp only [exec_cons, Option.bind_eq_some_iff] at hrun
    obtain ⟨u, hu, hrun⟩ := hrun
    exact ih (h u hu).2 hrun

/-- A test that the last step of one concrete run passes, as an equation to evaluate. -/
theorem exists_run_of_test (sys : TransitionSystem σ α) (s : σ) (as : List α) (a : α)
    (test : σ → σ → Bool)
    (hrun : ((sys.exec s as).bind fun t => (sys.step t a).map (test t)) = some true) :
    ∃ t t', sys.exec s as = some t ∧ sys.step t a = some t' ∧ test t t' = true := by
  simp only [Option.bind_eq_some_iff, Option.map_eq_some_iff] at hrun
  obtain ⟨t, ht, t', ht', hpass⟩ := hrun
  exact ⟨t, t', ht, ht', hpass⟩

/-- A test on the last step of one concrete run refutes a step property. -/
theorem not_always_of_test (sys : TransitionSystem σ α) {P : σ → α → σ → Prop} (s : σ)
    (as : List α) (a : α) (test : σ → σ → Bool)
    (hrun : ((sys.exec s as).bind fun t => (sys.step t a).map (test t)) = some true)
    (htest : ∀ t t', sys.exec s as = some t → test t t' = true → ¬P t a t') :
    ¬sys.Always P s (as ++ [a]) := by
  intro h
  obtain ⟨t, t', ht, ht', hpass⟩ := sys.exists_run_of_test s as a test hrun
  exact htest t t' ht hpass (h.last ht ht')

/-- A run whose actions pass a test satisfies what the test implies. -/
theorem always_of_allPass (sys : TransitionSystem σ α) {P : σ → α → σ → Prop}
    (test : σ → α → Bool) (htest : ∀ s a s', test s a = true → P s a s') {s : σ} {as : List α}
    (h : sys.allPass test s as = true) : sys.Always P s as := by
  induction as generalizing s with
  | nil => trivial
  | cons a as ih =>
    intro s' hs
    simp only [allPass, hs, Option.all_some, Bool.and_eq_true] at h
    exact ⟨htest s a s' h.1, ih h.2⟩

/-- A run all of whose steps satisfy `C` satisfies `P` at every step and keeps the
    invariant, when `C` at a step from an invariant state gives both for that step. -/
theorem always_of_invariant (sys : TransitionSystem σ α) (Inv : σ → Prop) {C P : σ → α → σ → Prop}
    (hstep : ∀ s a s', Inv s → sys.step s a = some s' → C s a s' → Inv s' ∧ P s a s')
    {s : σ} {as : List α} (h : Inv s) (hC : sys.Always C s as) : sys.Always P s as := by
  induction as generalizing s with
  | nil => trivial
  | cons a as ih =>
    intro s' hs
    obtain ⟨hCa, hCas⟩ := hC s' hs
    obtain ⟨hInv, hP⟩ := hstep _ _ _ h hs hCa
    exact ⟨hP, ih hInv hCas⟩

/-- A run all of whose steps satisfy `C` ends in an invariant state, when the steps that
    satisfy it keep the invariant. -/
theorem exec_of_always (sys : TransitionSystem σ α) (Inv : σ → Prop) {C : σ → α → σ → Prop}
    (hstep : ∀ s a s', Inv s → sys.step s a = some s' → C s a s' → Inv s')
    {s t : σ} {as : List α} (h : Inv s) (hrun : sys.exec s as = some t) (hC : sys.Always C s as) :
    Inv t := by
  induction as generalizing s with
  | nil => cases hrun; exact h
  | cons a as ih =>
    simp only [exec_cons, Option.bind_eq_some_iff] at hrun
    obtain ⟨s', hs, hrun⟩ := hrun
    obtain ⟨hCa, hCas⟩ := hC s' hs
    exact ih (hstep _ _ _ h hs hCa) hrun hCas

/-- What every step from an invariant state satisfies holds along every run. -/
theorem always_of_step (sys : TransitionSystem σ α) (Inv : σ → Prop) {P : σ → α → σ → Prop}
    (hstep : ∀ s a s', Inv s → sys.step s a = some s' → Inv s' ∧ P s a s')
    {s : σ} (h : Inv s) (as : List α) : sys.Always P s as := by
  induction as generalizing s with
  | nil => trivial
  | cons a as ih =>
    intro s' hs
    obtain ⟨hInv, hP⟩ := hstep _ _ _ h hs
    exact ⟨hP, ih hInv⟩

/-- Two step properties that agree at every step from an invariant state agree on
    runs, when either of them keeps the invariant. -/
theorem always_iff_of_invariant (sys : TransitionSystem σ α) (Inv : σ → Prop)
    {C P : σ → α → σ → Prop} (hstep : ∀ s a s', Inv s → sys.step s a = some s' →
      (C s a s' ↔ P s a s') ∧ (C s a s' → Inv s'))
    {s : σ} {as : List α} (h : Inv s) : sys.Always C s as ↔ sys.Always P s as := by
  constructor
  · refine sys.always_of_invariant Inv (fun s a s' hI hs hC => ?_) h
    obtain ⟨hiff, hInv⟩ := hstep s a s' hI hs
    exact ⟨hInv hC, hiff.mp hC⟩
  · refine sys.always_of_invariant Inv (fun s a s' hI hs hP => ?_) h
    obtain ⟨hiff, hInv⟩ := hstep s a s' hI hs
    exact ⟨hInv (hiff.mpr hP), hiff.mpr hP⟩

/-! ## Runs of some actions -/

theorem Leads.refl (P : α → Prop) (s : σ) : sys.Leads P s s := ⟨[], by simp, rfl⟩

theorem Leads.of_step {P : α → Prop} {s s' : σ} {a : α} (ha : P a)
    (hstep : sys.step s a = some s') :
    sys.Leads P s s' := by
  refine ⟨[a], ?_, ?_⟩
  · intro b hb
    rw [List.mem_singleton] at hb
    rwa [hb]
  · rw [exec_singleton, hstep]

theorem Leads.trans {P : α → Prop} {s t u : σ} (h : sys.Leads P s t) (h' : sys.Leads P t u) :
    sys.Leads P s u := by
  obtain ⟨as, has, hrun⟩ := h
  obtain ⟨bs, hbs, hrun'⟩ := h'
  refine ⟨as ++ bs, ?_, ?_⟩
  · intro a ha
    exact (List.mem_append.mp ha).elim (has a) (hbs a)
  · rw [exec_append, hrun]
    exact hrun'

theorem Leads.mono {P Q : α → Prop} (hPQ : ∀ a, P a → Q a) {s s' : σ} (h : sys.Leads P s s') :
    sys.Leads Q s s' := by
  obtain ⟨as, has, hrun⟩ := h
  exact ⟨as, fun a ha => hPQ a (has a ha), hrun⟩

/-- Runs of some actions end in reachable states. -/
theorem Leads.reachable {P : α → Prop} {s s' : σ} (h : sys.Leads P s s') (hs : sys.Reachable s) :
    sys.Reachable s' := by
  obtain ⟨as, -, hrun⟩ := h
  exact hs.exec hrun

/-- What each of the actions keeps, their runs keep. -/
theorem Leads.induction {P : α → Prop} (Inv : σ → Prop)
    (hstep : ∀ s a s', P a → Inv s → sys.step s a = some s' → Inv s') {s s' : σ}
    (h : sys.Leads P s s') (hs : Inv s) : Inv s' := by
  obtain ⟨as, has, hrun⟩ := h
  induction as generalizing s with
  | nil => cases hrun; exact hs
  | cons a as ih =>
    simp only [exec_cons, Option.bind_eq_some_iff] at hrun
    obtain ⟨t, ht, hrun⟩ := hrun
    exact ih (hstep s a t (has a List.mem_cons_self) hs ht)
      (fun b hb => has b (List.mem_cons_of_mem a hb)) hrun

/-- `f` maps the initial states of `sys` to initial states of `abs`, and every step
    from a state satisfying `Inv` to a (possibly empty) run of `abs`. -/
structure Simulation {τ β : Type*} (sys : TransitionSystem σ α) (abs : TransitionSystem τ β)
    (f : σ → τ) : Prop where
  init : ∀ s, sys.Init s → abs.Reachable (f s)
  step : ∀ s a s', sys.Reachable s → sys.step s a = some s' →
    ∃ bs, abs.exec (f s) bs = some (f s')

/-- A simulation maps reachable states to reachable states, so every invariant of the
    abstract system holds of the image. -/
theorem Simulation.reachable {τ β : Type*} {abs : TransitionSystem τ β} {f : σ → τ}
    (sim : sys.Simulation abs f) {s : σ} (h : sys.Reachable s) : abs.Reachable (f s) := by
  induction h with
  | init h => exact sim.init _ h
  | step hs hstep ih =>
    obtain ⟨bs, hbs⟩ := sim.step _ _ _ hs hstep
    exact ih.exec hbs

/-- An invariant of a system that simulates another one, by steps between states whose images keep
    an invariant of the other. -/
theorem Simulation.invariant {τ β : Type*} {abs : TransitionSystem τ β} {f : σ → τ}
    (sim : sys.Simulation abs f) (AbsInv : τ → Prop) (Inv : σ → Prop)
    (habs : ∀ t, abs.Reachable t → AbsInv t) (hinit : ∀ s, sys.Init s → Inv s)
    (hstep : ∀ s a s', AbsInv (f s) → AbsInv (f s') → Inv s → sys.step s a = some s' → Inv s')
    {s : σ} (h : sys.Reachable s) : Inv s := by
  induction h with
  | init h => exact hinit _ h
  | step hs hs' ih =>
    have hbefore := habs _ (sim.reachable hs)
    have hafter := habs _ (sim.reachable (hs.step hs'))
    exact hstep _ _ _ hbefore hafter ih hs'

end TransitionSystem
