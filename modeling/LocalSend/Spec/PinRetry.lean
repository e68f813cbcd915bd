import LocalSend.Spec.SendFlows
import LocalSend.Spec.TuiConsent

/-!
# What a PIN retry sends

A retry reads the target and the payload from the screen, not from the send that was refused. They
are the same as long as no key has changed them since, and they may be changed: a message can be
edited while it is sent, and the key of the iteration in which the answer arrives goes to the
screen. A send that was cancelled goes on, so that another send of its flow may still be in flight.

## Key results

- `RetryInv.step`: the send that is under way, and the one that was refused, are on the screen
- `retry_resends`: what a retry sends, in runs whose keys leave them there
-/

namespace LocalSend

variable {I : Type} {lib : TuiLibrary I}

/-! ## The invariant -/

/-- Whether an update is the last one of its task. -/
def SendUpdate.isLast : SendUpdate → Bool
  | .progress .. => false
  | .finished .. | .needsPin .. => true

/-- The sends whose end has not been noticed. -/
def TuiWorld.underWay (s : TuiWorld I) : List SendTask :=
  s.tasks ++ (s.updates.filter fun p => p.2.isLast).map Prod.fst

/-- The send that was refused is on the screen of its flow, which has none in flight. -/
def Waits (lib : TuiLibrary I) (s : TuiWorld I) (kind : SendKind) : Prop :=
  ∃ t, s.refused = some t ∧ t.kind = kind ∧ s.app.sends lib kind = (some t.target, t.payload) ∧
    t.payload ≠ "" ∧ ∀ other ∈ s.tasks, other.kind ≠ kind

/-- A send that waits for a PIN is left waiting while its flow stays and no send of it is in
    flight. -/
theorem Waits.congr {s s' : TuiWorld I} {kind : SendKind} (h : Waits lib s kind)
    (htasks : ∀ t ∈ s'.tasks, t ∈ s.tasks) (hrefused : s'.refused = s.refused)
    (hsends : s'.app.sends lib kind = s.app.sends lib kind) : Waits lib s' kind := by
  obtain ⟨t, ht, hk, hflow, hne, hnone⟩ := h
  exact ⟨t, hrefused.trans ht, hk, hsends.trans hflow, hne,
    fun other hother => hnone other (htasks other hother)⟩

/-- The send of the current generation is on its screen, and so is the send that was refused. -/
structure RetryInv (lib : TuiLibrary I) (s : TuiWorld I) : Prop where
  channel : ∀ p ∈ s.updates, p.2.isLast = true →
    ∃ result, p.2 = sendUpdateFromResult p.1.generation p.1.kind result
  nonempty : ∀ t ∈ s.underWay, t.payload ≠ ""
  current : ∀ t ∈ s.underWay, t.generation = s.app.sendGeneration →
    s.app.sends lib t.kind = (some t.target, t.payload) ∧ s.app.pendingPinKind ≠ some t.kind
  single : (s.underWay.filter fun t => t.generation = s.app.sendGeneration).length ≤ 1
  alone : ∀ kind, (s.tasks.filter fun t => t.kind = kind).length ≤ 1
  reported : ∀ p ∈ s.updates, p.2.isLast = true → p.1.generation = s.app.sendGeneration →
    ∀ t ∈ s.tasks, t.kind ≠ p.1.kind
  pending : ∀ kind, s.app.pendingPinKind = some kind → Waits lib s kind

/-- At the start nothing is under way. -/
theorem RetryInv.start (lib : TuiLibrary I) (deviceInfo : DeviceInfo) (autoAccept : Bool) :
    RetryInv lib (.start lib deviceInfo autoAccept) := by
  constructor
  · intro p hp
    cases hp
  · intro t ht
    cases ht
  · intro t ht
    cases ht
  · exact Nat.zero_le 1
  · exact fun _ => Nat.zero_le 1
  · intro p hp
    cases hp
  · intro kind hkind
    cases hkind

/-- Whether a flow waits for a PIN, or its send of the current generation is under way. -/
def Attempting (s : TuiWorld I) (kind : SendKind) : Prop :=
  s.app.pendingPinKind = some kind ∨ ∃ t ∈ s.underWay, t.kind = kind ∧
    t.generation = s.app.sendGeneration

/-- A step that leaves the sends as they are, and what stands on the screens of those attempted. -/
theorem RetryInv.edit {s s' : TuiWorld I} (h : RetryInv lib s) (htasks : s'.tasks = s.tasks)
    (hupdates : s'.updates = s.updates) (hrefused : s'.refused = s.refused)
    (hsends : ∀ kind, Attempting s kind → s'.app.sends lib kind = s.app.sends lib kind)
    (hgeneration : s'.app.sendGeneration = s.app.sendGeneration)
    (hpending : s'.app.pendingPinKind = s.app.pendingPinKind ∨ s'.app.pendingPinKind = none) :
    RetryInv lib s' := by
  have hunder : s'.underWay = s.underWay := by
    unfold TuiWorld.underWay
    rw [htasks, hupdates]
  -- a step may close the prompt, and opens none
  have hsome : ∀ kind, s'.app.pendingPinKind = some kind → s.app.pendingPinKind = some kind := by
    intro kind hkind
    cases hpending with
    | inl hsame => exact hsame ▸ hkind
    | inr hnone =>
      rw [hnone] at hkind
      cases hkind
  constructor
  · rw [hupdates]
    exact h.channel
  · rw [hunder]
    exact h.nonempty
  -- what is current is an attempt, so the step leaves its flow alone
  · rw [hunder, hgeneration]
    intro t ht hcurrent
    obtain ⟨hflow, hnot⟩ := h.current t ht hcurrent
    exact ⟨(hsends _ (.inr ⟨t, ht, rfl, hcurrent⟩)).trans hflow, fun hkind => hnot (hsome _ hkind)⟩
  · rw [hunder, hgeneration]
    exact h.single
  · rw [htasks]
    exact h.alone
  · rw [hupdates, hgeneration, htasks]
    exact h.reported
  · intro kind hkind
    have hbefore := hsome kind hkind
    exact (h.pending kind hbefore).congr (fun t ht => htasks ▸ ht) hrefused
      (hsends kind (.inl hbefore))

/-- A step that leaves the flows and the sends as they are. -/
theorem RetryInv.frame {s s' : TuiWorld I} (h : RetryInv lib s) (htasks : s'.tasks = s.tasks)
    (hupdates : s'.updates = s.updates) (hrefused : s'.refused = s.refused)
    (hkept : FlowsKept lib s.app s'.app)
    (hpending : s'.app.pendingPinKind = s.app.pendingPinKind ∨ s'.app.pendingPinKind = none) :
    RetryInv lib s' :=
  h.edit htasks hupdates hrefused (fun kind _ => hkept.sends kind) hkept.generation hpending

/-- A generation that no send has makes every send one of the past. -/
theorem RetryInv.bump {s s' : TuiWorld I} (h : RetryInv lib s) (htasks : s'.tasks = s.tasks)
    (hupdates : s'.updates = s.updates)
    (hfresh : ∀ t ∈ s.underWay, t.generation ≠ s'.app.sendGeneration)
    (hpending : ∀ kind, s'.app.pendingPinKind = some kind → Waits lib s' kind) :
    RetryInv lib s' := by
  have hunder : s'.underWay = s.underWay := by
    unfold TuiWorld.underWay
    rw [htasks, hupdates]
  constructor
  · rw [hupdates]
    exact h.channel
  · rw [hunder]
    exact h.nonempty
  -- nothing under way is of the new generation
  · rw [hunder]
    exact fun t ht hcurrent => absurd hcurrent (hfresh t ht)
  · rw [hunder, List.filter_eq_nil_iff.mpr fun t ht => by
      rw [decide_eq_true_eq]
      exact hfresh t ht]
    exact Nat.zero_le 1
  · rw [htasks]
    exact h.alone
  · rw [hupdates]
    intro p hp hlast hcurrent
    -- what a channel still holds is under way, so not of the new generation
    refine absurd hcurrent (hfresh p.1 (List.mem_append_right _ ?_))
    exact List.mem_map.mpr ⟨p, List.mem_filter.mpr ⟨hp, hlast⟩, rfl⟩
  · exact hpending

/-- A send starts, of a new generation, on a flow that has none in flight and waits for no PIN. -/
theorem RetryInv.spawn {s s' : TuiWorld I} (h : RetryInv lib s) {kind : SendKind}
    {target : DeviceInfo} {payload : String} {pin : Option String}
    (htasks : s'.tasks = s.tasks ++ [⟨s'.app.sendGeneration, kind, target, payload, pin⟩])
    (hupdates : s'.updates = s.updates) (hpayload : payload ≠ "")
    (hsends : s'.app.sends lib kind = (some target, payload))
    (hfresh : ∀ t ∈ s.underWay, t.generation ≠ s'.app.sendGeneration)
    (hfree : ∀ t ∈ s.tasks, t.kind ≠ kind) (hnot : s'.app.pendingPinKind ≠ some kind)
    (hpending : ∀ k, s'.app.pendingPinKind = some k → Waits lib s' k) : RetryInv lib s' := by
  have hmem : ∀ t ∈ s'.underWay, t ∈ s.underWay ∨
      t = ⟨s'.app.sendGeneration, kind, target, payload, pin⟩ := by
    intro t ht
    unfold TuiWorld.underWay at ht ⊢
    rw [htasks, hupdates] at ht
    simp only [List.mem_append, List.mem_singleton] at ht ⊢
    tauto
  -- nothing that was under way is of the new generation
  have hold : ∀ l : List SendTask, (∀ t ∈ l, t ∈ s.underWay) →
      l.filter (fun t => t.generation = s'.app.sendGeneration) = [] := by
    intro l hl
    refine List.filter_eq_nil_iff.mpr fun t ht => ?_
    rw [decide_eq_true_eq]
    exact hfresh t (hl t ht)
  constructor
  · rw [hupdates]
    exact h.channel
  · intro t ht
    cases hmem t ht with
    | inl ht => exact h.nonempty t ht
    | inr ht => exact ht ▸ hpayload
  · intro t ht hcurrent
    cases hmem t ht with
    | inl ht => exact absurd hcurrent (hfresh t ht)
    | inr ht =>
      subst ht
      exact ⟨hsends, hnot⟩
  -- the new task is the only one of its generation
  · unfold TuiWorld.underWay
    rw [htasks, hupdates, List.filter_append, List.filter_append,
      hold s.tasks fun t ht => List.mem_append_left _ ht, hold _ fun t ht =>
        List.mem_append_right _ ht]
    simp
  -- at most one task for each flow
  · intro k
    rw [htasks, List.filter_append]
    by_cases hk : kind = k
    · -- the flow had none
      have hnone : s.tasks.filter (fun t => t.kind = k) = [] := by
        refine List.filter_eq_nil_iff.mpr fun t ht => ?_
        rw [decide_eq_true_eq]
        exact hk ▸ hfree t ht
      rw [hnone]
      exact List.length_filter_le _ _
    · have hnone : [(⟨s'.app.sendGeneration, kind, target, payload, pin⟩ : SendTask)].filter
          (fun t => t.kind = k) = [] := by
        rw [List.filter_singleton]
        simp [hk]
      rw [hnone, List.append_nil]
      exact h.alone k
  -- an update that has not been read is of an older generation
  · rw [hupdates]
    intro p hp hlast hcurrent
    refine absurd hcurrent (hfresh p.1 (List.mem_append_right _ ?_))
    exact List.mem_map.mpr ⟨p, List.mem_filter.mpr ⟨hp, hlast⟩, rfl⟩
  · exact hpending

/-- An update is taken, and changes nothing of the flows. -/
theorem RetryInv.drop {s s' : TuiWorld I} (h : RetryInv lib s) {p : SendTask × SendUpdate}
    (hupdates : s.updates = p :: s'.updates) (htasks : s'.tasks = s.tasks)
    (hrefused : s'.refused = s.refused) (hkept : FlowsKept lib s.app s'.app)
    (hpending : s'.app.pendingPinKind = s.app.pendingPinKind) :
    RetryInv lib s' := by
  -- one update less, and the same tasks
  have hsub : s'.underWay.Sublist s.underWay := by
    unfold TuiWorld.underWay
    rw [htasks, hupdates]
    exact ((List.sublist_cons_self p _).filter _).map _ |>.append_left _
  have hmem : ∀ q ∈ s'.updates, q ∈ s.updates := by
    rw [hupdates]
    exact fun q hq => List.mem_cons_of_mem _ hq
  -- the fields of the invariant in their order, each over fewer updates
  constructor
  · exact fun q hq => h.channel q (hmem q hq)
  · exact fun t ht => h.nonempty t (hsub.subset ht)
  · intro t ht hcurrent
    obtain ⟨hsends, hnot⟩ := h.current t (hsub.subset ht) (hcurrent.trans hkept.generation)
    exact ⟨(hkept.sends _).trans hsends, hpending ▸ hnot⟩
  · rw [hkept.generation]
    exact (hsub.filter _).length_le.trans h.single
  · rw [htasks]
    exact h.alone
  · rw [hkept.generation, htasks]
    exact fun q hq => h.reported q (hmem q hq)
  · intro kind hkind
    exact (h.pending kind (hpending ▸ hkind)).congr (fun t ht => htasks ▸ ht) hrefused
      (hkept.sends kind)

/-- A task reports its progress. -/
theorem RetryInv.progress {s s' : TuiWorld I} (h : RetryInv lib s) {p : SendTask × SendUpdate}
    (hp : p.2.isLast = false) (hupdates : s'.updates = s.updates ++ [p])
    (htasks : s'.tasks = s.tasks) (hrefused : s'.refused = s.refused) (happ : s'.app = s.app) :
    RetryInv lib s' := by
  -- progress is no last update, so nothing else is under way
  have hlast : s'.updates.filter (fun p => p.2.isLast) = s.updates.filter fun p => p.2.isLast := by
    rw [hupdates, List.filter_append, List.filter_singleton, hp]
    exact List.append_nil _
  have hunder : s'.underWay = s.underWay := by
    unfold TuiWorld.underWay
    rw [htasks, hlast]
  have hmem : ∀ q ∈ s'.updates, q.2.isLast = true → q ∈ s.updates := by
    intro q hq hql
    have hfilter : q ∈ s'.updates.filter fun p => p.2.isLast := List.mem_filter.mpr ⟨hq, hql⟩
    rw [hlast] at hfilter
    exact (List.mem_filter.mp hfilter).1
  constructor
  · exact fun q hq hql => h.channel q (hmem q hq hql) hql
  · rw [hunder]
    exact h.nonempty
  · rw [hunder, happ]
    exact h.current
  · rw [hunder, happ]
    exact h.single
  · rw [htasks]
    exact h.alone
  · rw [happ, htasks]
    exact fun q hq hql => h.reported q (hmem q hq hql) hql
  · rw [happ]
    exact fun kind hkind =>
      (h.pending kind hkind).congr (fun t ht => htasks ▸ ht) hrefused (by rw [happ])

/-- A task sends its last update: it is not in flight any more. -/
theorem RetryInv.finish {s s' : TuiWorld I} (h : RetryInv lib s) {task : SendTask}
    {result : SendResult} (hmem : task ∈ s.tasks) (htasks : s'.tasks = s.tasks.erase task)
    (hupdates : s'.updates = s.updates ++
      [(task, sendUpdateFromResult task.generation task.kind result)])
    (hrefused : s'.refused = s.refused) (happ : s'.app = s.app) : RetryInv lib s' := by
  have hlast : (sendUpdateFromResult task.generation task.kind result).isLast = true := by
    cases result <;> rfl
  -- the task ends and its last update takes its place
  have hperm := List.perm_cons_erase hmem
  have hunder : s'.underWay.Perm s.underWay := by
    unfold TuiWorld.underWay
    rw [htasks, hupdates, List.filter_append, List.filter_singleton, hlast, cond_true,
      List.map_append, List.map_singleton]
    refine (List.Perm.append_left _ List.perm_append_comm).trans ?_
    rw [← List.append_assoc]
    exact ((List.perm_append_singleton task _).trans hperm.symm).append_right _
  have hsub : ∀ t ∈ s'.tasks, t ∈ s.tasks := by
    rw [htasks]
    exact fun t ht => List.mem_of_mem_erase ht
  constructor
  -- the last update says how the task has ended
  · rw [hupdates]
    intro q hq hql
    cases List.mem_append.mp hq with
    | inl hq => exact h.channel q hq hql
    | inr hq =>
      rw [List.mem_singleton.mp hq]
      exact ⟨result, rfl⟩
  -- what is under way is the same, in another order
  · exact fun t ht => h.nonempty t (hunder.subset ht)
  · rw [happ]
    exact fun t ht => h.current t (hunder.subset ht)
  · rw [happ]
    exact (hunder.filter _).length_eq.trans_le h.single
  -- one task less in its flow
  · intro kind
    rw [htasks]
    exact ((List.erase_sublist.filter _).length_le).trans (h.alone kind)
  · rw [hupdates, happ]
    intro q hq hql hcurrent t ht
    cases List.mem_append.mp hq with
    | inl hq => exact h.reported q hq hql hcurrent t (hsub t ht)
    | inr hq =>
      -- the task was the only one of its flow
      rw [List.mem_singleton.mp hq]
      intro hk
      have halone := h.alone task.kind
      rw [(hperm.filter _).length_eq, List.filter_cons, if_pos (decide_eq_true rfl),
        List.length_cons] at halone
      have hfilter : t ∈ (s.tasks.erase task).filter fun t => t.kind = task.kind :=
        List.mem_filter.mpr ⟨htasks ▸ ht, decide_eq_true hk⟩
      have hpos := List.length_pos_of_mem hfilter
      omega
  · rw [happ]
    exact fun kind hkind => (h.pending kind hkind).congr hsub hrefused (by rw [happ])

/-! ## The steps of the loop -/

/-- An update is taken from the front of its channel. -/
theorem sendUpdate_eq_some {s s' : TuiWorld I} (h : s.sendUpdate lib = some s') :
    ∃ task update updates, s.updates = (task, update) :: updates ∧ s' = { s with
      app := s.app.pollSendUpdate lib update
      updates := updates
      refused := if update.asksPin s.app.sendGeneration then some task else s.refused } := by
  unfold TuiWorld.sendUpdate at h
  split at h
  · cases h
  · rename_i task update updates hupdates
    exact ⟨task, update, updates, hupdates, (Option.some.inj h).symm⟩

/-- The end of a send is noticed: it is of the past, or its flow is cleared or waits for a PIN. -/
theorem RetryInv.sendUpdate {s s' : TuiWorld I} (h : RetryInv lib s)
    (hs : s.sendUpdate lib = some s') :
    RetryInv lib s' := by
  obtain ⟨task, update, updates, hupdates, rfl⟩ := sendUpdate_eq_some hs
  have hmem : (task, update) ∈ s.updates := by
    rw [hupdates]
    exact List.mem_cons_self ..
  -- nothing changes but the channel
  have hother : update.asksPin s.app.sendGeneration = false →
      ((∃ generation sent total, update = .progress generation sent total) ∨
        ∃ generation kind result, generation ≠ s.app.sendGeneration ∧
          update = sendUpdateFromResult generation kind result) →
      RetryInv lib { s with
        app := s.app.pollSendUpdate lib update
        updates := updates
        refused := if update.asksPin s.app.sendGeneration then some task else s.refused } := by
    intro hno hcase
    obtain ⟨hpending, hkept⟩ := pollSendUpdate_other lib s.app hcase
    exact h.drop (p := (task, update)) hupdates rfl (by rw [hno]; rfl) hkept hpending
  -- progress, or the end of a send
  cases hlast : update.isLast with
  | false =>
    cases update with
    | progress generation sent total => exact hother rfl (.inl ⟨generation, sent, total, rfl⟩)
    | finished generation kind => cases hlast
    | needsPin generation kind => cases hlast
  | true =>
    obtain ⟨result, hresult⟩ := h.channel _ hmem hlast
    dsimp only at hresult
    -- the end of the current send, or of one that has been given up
    by_cases hcurrent : task.generation = s.app.sendGeneration
    · have h₁ : RetryInv lib { s with updates := updates } :=
        h.drop (p := (task, update)) hupdates rfl rfl (.of_screens rfl rfl rfl) rfl
      have hunder : s.underWay.Perm
          (task :: ({ s with updates := updates } : TuiWorld I).underWay) := by
        unfold TuiWorld.underWay
        rw [hupdates, List.filter_cons, if_pos hlast, List.map_cons]
        exact List.perm_middle
      -- it was the only send of its generation
      have hfresh : ∀ t ∈ ({ s with updates := updates } : TuiWorld I).underWay,
          t.generation ≠ s.app.sendGeneration := by
        intro t ht hgeneration
        have hsingle := h.single
        rw [(hunder.filter _).length_eq, List.filter_cons, if_pos (decide_eq_true hcurrent),
          List.length_cons] at hsingle
        have hfilter : t ∈ ({ s with updates := updates } : TuiWorld I).underWay.filter fun t =>
            t.generation = s.app.sendGeneration :=
              List.mem_filter.mpr ⟨ht, decide_eq_true hgeneration⟩
        have hpos := List.length_pos_of_mem hfilter
        omega
      have htask : task ∈ s.underWay := hunder.symm.subset (List.mem_cons_self ..)
      obtain ⟨hflow, hnot⟩ := h.current task htask hcurrent
      -- what waited for a PIN before still does
      have hwaits : ∀ app : App I, (∀ k ≠ task.kind, app.sends lib k = s.app.sends lib k) →
          app.pendingPinKind = s.app.pendingPinKind → ∀ k, app.pendingPinKind = some k →
          Waits lib { s with app := app, updates := updates } k := by
        intro app hsends hpending k hk
        have hbefore : s.app.pendingPinKind = some k := hpending ▸ hk
        have hne : k ≠ task.kind := fun heq => hnot (heq ▸ hbefore)
        exact (h.pending k hbefore).congr (fun t ht => ht) rfl (hsends k hne)
      rw [hcurrent] at hresult
      subst hresult
      cases result with
      -- the end takes the next generation
      | ok =>
        obtain ⟨hsends, hgeneration, hpending⟩ := pollSendUpdate_finished lib s.app task.kind
        refine h₁.bump rfl rfl (fun t ht => ?_) (hwaits _ hsends hpending)
        exact fun heq => hfresh t ht (heq.trans hgeneration)
      | failed =>
        obtain ⟨hsends, hgeneration, hpending⟩ := pollSendUpdate_finished lib s.app task.kind
        refine h₁.bump rfl rfl (fun t ht => ?_) (hwaits _ hsends hpending)
        exact fun heq => hfresh t ht (heq.trans hgeneration)
      -- a refusal for the PIN leaves the send waiting for one
      | invalidPin =>
        obtain ⟨hsends, hgeneration, hpending⟩ := pollSendUpdate_needsPin lib s.app task.kind
        refine h₁.bump rfl rfl (fun t ht heq => hfresh t ht (heq.trans hgeneration)) ?_
        intro k hk
        have hkind : task.kind = k := Option.some.inj (hpending.symm.trans hk)
        subst hkind
        refine ⟨task, if_pos (decide_eq_true rfl), rfl, (hsends _).trans hflow,
          h.nonempty task htask, ?_⟩
        exact h.reported _ hmem rfl hcurrent
    -- an update of another generation is dropped
    · refine hother ?_ (.inr ⟨task.generation, task.kind, result, hcurrent, hresult⟩)
      subst hresult
      cases result with
      | ok => rfl
      | failed => rfl
      | invalidPin => exact decide_eq_false hcurrent

/-- What is asked of a key: it does not change what a flow that waits for a PIN would send, nor what
    is under way unless it cancels that; it starts no send on a flow that has one or that waits for
    a PIN; and the count of the generations does not come around. -/
structure KeyKeeps (lib : TuiLibrary I) (s : TuiWorld I) (key : KeyCode) (env : AppEnv) : Prop where
  keeps : ∀ kind, s.app.changesSend lib kind key env = true →
    s.app.pendingPinKind ≠ some kind ∧ (Attempting s kind → s.app.cancelsSend kind key = true)
  starts : ∀ kind, s.app.startsSend lib kind key env = true →
    s.app.pendingPinKind ≠ some kind ∧ ∀ t ∈ s.tasks, t.kind ≠ kind
  fresh : s.app.takesGeneration lib key env = true → ∀ t ∈ s.underWay,
  t.generation ≠ s.app.sendGeneration + 1

/-- A retry with a PIN sends what was refused, if it can be sent, and no other send of its flow is
    in flight. -/
def RetryResends (lib : TuiLibrary I) (s : TuiWorld I) (a : TuiAction) (s' : TuiWorld I) : Prop :=
  ∀ env input kind, a = .key (some .enter) env → s.app.popup = some (.pinEntry input) →
    lib.value input ≠ "" → s.app.pendingPinKind = some kind →
    ∃ t, s.refused = some t ∧ t.kind = kind ∧
      s'.tasks = s.tasks ++ (if sendable env kind t.payload then
        [⟨s.app.sendGeneration + 1, kind, t.target, t.payload, some (lib.value input)⟩] else []) ∧
      ∀ other ∈ s.tasks, other.kind ≠ kind

/-- What a key leaves of the world. -/
theorem handleKey_world (lib : TuiLibrary I) (s : TuiWorld I) (key : KeyCode) (env : AppEnv) :
    (s.handleKey lib (some key) env).tasks = s.tasks ++ spawned (s.app.handleKey lib key env).2 ∧
      (s.handleKey lib (some key) env).app.pendingPinKind =
        (s.app.handleKey lib key env).1.pendingPinKind ∧
      FlowsKept lib (s.app.handleKey lib key env).1 (s.handleKey lib (some key) env).app := by
  obtain ⟨hpending, hkept⟩ := maybeOpenPinPrompt_kept lib
    { (s.app.handleKey lib key env).1 with dirty := true }
  refine ⟨rfl, hpending, ?_, hkept.generation⟩
  intro kind
  refine (hkept.sends kind).trans ?_
  cases kind <;> rfl

/-- Starting or cancelling a send takes a generation. -/
theorem takesGeneration_of_screen {app : App I} {key : KeyCode} {env : AppEnv} {kind : SendKind}
    (hpopup : app.popup = none)
    (h : app.startsSend lib kind key env = true ∨ app.cancelsSend kind key = true) :
    app.takesGeneration lib key env = true := by
  unfold App.takesGeneration
  rw [hpopup]
  refine List.any_eq_true.mpr ⟨kind, by cases kind <;> simp, ?_⟩
  rw [Bool.or_eq_true]
  exact h

/-- A key without a popup. -/
theorem RetryInv.screenKey {s : TuiWorld I} (h : RetryInv lib s) (hpopup : s.app.popup = none)
    {key : KeyCode} {env : AppEnv} (hkey : KeyKeeps lib s key env) :
    RetryInv lib (s.handleKey lib (some key) env) := by
  obtain ⟨htasks, hpending, hkept⟩ := handleKey_world lib s key env
  have hmoves := handleKey_moves lib hpopup key env
  generalize s.app.handleKey lib key env = r at htasks hpending hkept hmoves
  -- what waits for a PIN stays on its screen
  have hwaits : ∀ kind, s.app.pendingPinKind = some kind →
      s.app.changesSend lib kind key env = false := by
    intro kind hkind
    rw [← Bool.not_eq_true]
    exact fun hchanges => (hkey.keeps kind hchanges).1 hkind
  cases hmoves with
  -- what the key changes is under no attempt, unless it cancels it
  | edits hno hsends hnone hsame hgeneration =>
    rw [hnone, List.append_nil] at htasks
    refine h.edit htasks rfl rfl (fun kind hattempt => (hkept.sends kind).trans (hsends kind ?_))
      (hkept.generation.trans hgeneration) (.inl (hpending.trans hsame))
    -- an edit that would hit an attempt has been ruled out for the key
    rw [← Bool.not_eq_true]
    intro hchanges
    have hcancels := (hkey.keeps kind hchanges).2 hattempt
    rw [hno kind] at hcancels
    cases hcancels
  -- a cancellation takes the next generation
  | cancels hcancels hsends hnone hsame hgeneration =>
    rw [hnone, List.append_nil] at htasks
    have hfresh := hkey.fresh (takesGeneration_of_screen hpopup (.inr hcancels))
    refine h.bump htasks rfl
      (fun t ht heq => hfresh t ht (heq.trans (hkept.generation.trans hgeneration)))
      (fun kind hkind => ?_)
    have hbefore : s.app.pendingPinKind = some kind := (hpending.trans hsame) ▸ hkind
    exact (h.pending kind hbefore).congr (fun t ht => htasks ▸ ht) rfl
      ((hkept.sends kind).trans (hsends kind (hwaits kind hbefore)))
  -- a new send takes a generation that nothing under way has
  | @starts kind target payload hstarts hspawn =>
    have hfresh := hkey.fresh (takesGeneration_of_screen hpopup (.inl hstarts))
    obtain ⟨hnot, hfree⟩ := hkey.starts kind hstarts
    have hsame : ∀ k, (s.handleKey lib (some key) env).app.sends lib k = s.app.sends lib k :=
      fun k => (hkept.sends k).trans (hspawn.keeps k)
    have hgeneration := hkept.generation.trans hspawn.generation
    rw [hspawn.task] at htasks
    refine h.spawn (by rw [hgeneration]; exact htasks) rfl hspawn.nonempty
      ((hsame kind).trans hspawn.sends)
      (fun t ht heq => hfresh t ht (heq.trans hgeneration)) hfree ?_ ?_
    · rw [hpending, hspawn.pending]
      exact hnot
    -- what waits for a PIN is of the other flow
    · intro k hk
      have hbefore : s.app.pendingPinKind = some k := (hpending.trans hspawn.pending) ▸ hk
      obtain ⟨t, ht, htk, hflow, hne, hnone⟩ := h.pending k hbefore
      refine ⟨t, ht, htk, (hsame k).trans hflow, hne, ?_⟩
      rw [htasks]
      intro other hother
      cases List.mem_append.mp hother with
      | inl hother => exact hnone other hother
      | inr hother =>
        rw [List.mem_singleton.mp hother]
        intro heq
        exact hnot (hbefore.trans (congrArg some heq.symm))

/-- So does answering the prompt for a PIN, either way. -/
theorem takesGeneration_of_prompt {app : App I} {input : I} {key : KeyCode} {env : AppEnv}
    (hpopup : app.popup = some (.pinEntry input))
    (h : key = .esc ∨ key = .enter ∧ lib.value input ≠ "" ∧
      ∃ kind, app.pendingPinKind = some kind ∧ app.ready lib kind env = true) :
    app.takesGeneration lib key env = true := by
  unfold App.takesGeneration
  rw [hpopup]
  obtain rfl | ⟨rfl, hvalue, kind, hpending, hready⟩ := h
  · rfl
  · simp [hvalue, hpending, hready]

/-- A key on a popup. -/
theorem RetryInv.popupKey {s : TuiWorld I} (h : RetryInv lib s) (hpopup : s.app.popup.isSome = true)
    {key : KeyCode} {env : AppEnv} (hkey : KeyKeeps lib s key env) :
    RetryInv lib (s.handleKey lib (some key) env) := by
  obtain ⟨htasks, hpending, hkept⟩ := handleKey_world lib s key env
  rw [handleKey_popup hpopup] at htasks hpending hkept
  have hmoves := handlePopupKey_moves lib s.app key env
  generalize s.app.handlePopupKey lib key env = r at htasks hpending hkept hmoves
  cases hmoves with
  -- the popup is another one, or the prompt goes on
  | keeps hnone hflows hsame =>
    rw [hnone, List.append_nil] at htasks
    refine h.frame htasks rfl rfl ⟨fun k => (hkept.sends k).trans (hflows.sends k),
      hkept.generation.trans hflows.generation⟩ ?_
    exact hsame.imp (fun h => hpending.trans h) fun h => hpending.trans h
  -- Escape gives the send up with its generation
  | cancels hesc hprompt hnone hcleared hgeneration =>
    rw [hnone, List.append_nil] at htasks
    have hfresh := hkey.fresh (takesGeneration_of_prompt hprompt (.inl hesc))
    refine h.bump htasks rfl
      (fun t ht heq => hfresh t ht (heq.trans (hkept.generation.trans hgeneration)))
      fun kind hkind => ?_
    rw [hpending, hcleared] at hkind
    cases hkind
  -- Enter with a PIN: the send that was refused starts again
  | @retries input kind henter hprompt hvalue hwaiting hr =>
    obtain ⟨heq, -⟩ | ⟨target, payload, hsendable, hspawn⟩ := spawnSend_cases lib
      { s.app with popup := none, pendingPinKind := none } kind (some (lib.value input)) env
    · -- the path has gone in the meantime
      rw [← hr] at heq
      have hnone : spawned r.2 = [] := by rw [heq]; rfl
      rw [hnone, List.append_nil] at htasks
      rw [heq] at hkept hpending
      refine h.frame htasks rfl rfl ⟨fun k => (hkept.sends k).trans ?_, hkept.generation⟩
        (.inr hpending)
      cases k <;> rfl
    -- a send that starts takes a fresh generation
    · have hready : s.app.ready lib kind env = true := by
        refine Eq.trans ?_ (hspawn.ready hsendable)
        cases kind <;> rfl
      have hfresh := hkey.fresh (takesGeneration_of_prompt hprompt
        (.inr ⟨henter, hvalue, kind, hwaiting, hready⟩))
      rw [← hr] at hspawn
      have hgeneration := hkept.generation.trans hspawn.generation
      obtain ⟨-, -, -, -, -, hfree⟩ := h.pending kind hwaiting
      have hclosed : (s.handleKey lib (some key) env).app.pendingPinKind = none :=
        hpending.trans hspawn.pending
      rw [hspawn.task] at htasks
      refine h.spawn (by rw [hgeneration]; exact htasks) rfl hspawn.nonempty
        ((hkept.sends kind).trans ((hspawn.keeps kind).trans hspawn.sends))
        (fun t ht heq => hfresh t ht (heq.trans hgeneration)) hfree ?_ fun k hk => ?_
      · rw [hclosed]
        exact (Option.some_ne_none kind).symm
      · rw [hclosed] at hk
        cases hk

/-- Submitting a PIN spawns the send of the flow that waits for it. -/
theorem handleKey_retry {app : App I} {input : I} {kind : SendKind}
    (hpopup : app.popup = some (.pinEntry input)) (hvalue : lib.value input ≠ "")
    (hpending : app.pendingPinKind = some kind) (env : AppEnv) :
    app.handleKey lib .enter env =
      App.spawnSend lib { app with popup := none, pendingPinKind := none } kind
      (some (lib.value input)) env := by
  rw [handleKey_popup (by rw [hpopup]; rfl)]
  unfold App.handlePopupKey
  rw [hpopup]
  dsimp only
  rw [if_neg hvalue]
  unfold App.retryPendingSendWithPin
  dsimp only
  rw [hpending]
  cases kind with
  | file => rfl
  | text => rfl

/-- What was refused is on its screen, so the retry sends it. -/
theorem RetryInv.resends {s s' : TuiWorld I} {a : TuiAction} (h : RetryInv lib s)
    (hs : (tui lib).step s a = some s') : RetryResends lib s a s' := by
  intro env input kind ha hpopup hvalue hpending
  subst ha
  obtain ⟨t, ht, htk, hflow, hne, hnone⟩ := h.pending kind hpending
  obtain ⟨-, heq⟩ := Option.ite_none_right_eq_some.mp hs
  obtain ⟨htasks, -, -⟩ := handleKey_world lib s .enter env
  cases heq
  refine ⟨t, ht, htk, ?_, hnone⟩
  -- closing the prompt leaves the flow as it was
  have hsends : App.sends lib { s.app with popup := none, pendingPinKind := none } kind =
      (some t.target, t.payload) := by
    refine Eq.trans ?_ hflow
    cases kind <;> rfl
  rw [htasks, handleKey_retry hpopup hvalue hpending]
  -- the send starts with what is on the screen, or it cannot be sent at all
  obtain ⟨heq, hunsendable⟩ | ⟨target, payload, hsendable, hspawn⟩ := spawnSend_cases lib
    { s.app with popup := none, pendingPinKind := none } kind (some (lib.value input)) env
  · rw [heq, hunsendable _ _ hne hsends]
    rfl
  · have hsame := hspawn.sends.symm.trans hsends
    have htarget : target = t.target := Option.some.inj (congrArg Prod.fst hsame)
    have hpayload : payload = t.payload := congrArg Prod.snd hsame
    rw [hspawn.task, ← hpayload, hsendable, ← htarget]
    rfl

/-- The keys of a run leave an attempt on its screen. -/
def KeysKeep (lib : TuiLibrary I) (s : TuiWorld I) (a : TuiAction) (_ : TuiWorld I) : Prop :=
  ∀ key env, a = .key (some key) env → KeyKeeps lib s key env

/-- A step whose key keeps to the flow keeps the invariant. -/
theorem RetryInv.step {s s' : TuiWorld I} {a : TuiAction} (h : RetryInv lib s)
    (hs : (tui lib).step s a = some s') (hkeys : KeysKeep lib s a s') : RetryInv lib s' := by
  change tuiStep lib s a = some s' at hs
  cases a with
  -- the event waits for its turn
  | event ev =>
    cases hs
    exact h.frame rfl rfl rfl (.of_screens rfl rfl rfl) (.inl rfl)
  | sighting device =>
    cases hs
    exact h.frame rfl rfl rfl (.of_screens rfl rfl rfl) (.inl rfl)
  -- the updates of the tasks go into their channel
  | progress task sent total =>
    obtain ⟨-, heq⟩ := Option.ite_none_right_eq_some.mp hs
    cases heq
    exact h.progress (p := (task, .progress task.generation sent total)) rfl rfl rfl rfl rfl
  | finish task result =>
    obtain ⟨hmem, heq⟩ := Option.ite_none_right_eq_some.mp hs
    cases heq
    exact h.finish hmem rfl rfl rfl rfl
  | draw env =>
    obtain ⟨-, heq⟩ := Option.ite_none_right_eq_some.mp hs
    cases heq
    unfold TuiWorld.draw
    dsimp only
    -- drawing lays out the lists and no more
    split
    · obtain ⟨hpending, hkept⟩ := render_kept lib s.app env
      refine h.frame rfl rfl rfl ⟨fun k => ?_, hkept.generation⟩ (.inl hpending)
      refine Eq.trans ?_ (hkept.sends k)
      cases k <;> rfl
    · exact h.frame rfl rfl rfl (.of_screens rfl rfl rfl) (.inl rfl)
  | serverEvent env =>
    obtain ⟨-, heq⟩ := Option.ite_none_right_eq_some.mp hs
    obtain ⟨ev, events, -, rfl⟩ := serverEvent_eq_some heq
    obtain ⟨hnone, hpending, hkept⟩ := pollServerEvent_kept lib s.app s.taken env ev
    -- no event of the server starts a send
    refine h.frame ?_ rfl rfl hkept (.inl hpending)
    show s.tasks ++ spawned _ = s.tasks
    rw [hnone, List.append_nil]
  | serverEventsDone =>
    obtain ⟨-, heq⟩ := Option.ite_none_right_eq_some.mp hs
    cases heq
    exact h.frame rfl rfl rfl (.of_screens rfl rfl rfl) (.inl rfl)
  | sendUpdate =>
    obtain ⟨-, heq⟩ := Option.ite_none_right_eq_some.mp hs
    exact h.sendUpdate heq
  | sendUpdatesDone repaint =>
    obtain ⟨-, heq⟩ := Option.ite_none_right_eq_some.mp hs
    cases heq
    exact h.frame rfl rfl rfl (.of_screens rfl rfl rfl) (.inl rfl)
  | key key env =>
    obtain ⟨-, heq⟩ := Option.ite_none_right_eq_some.mp hs
    cases heq
    -- a wake without a key only opens the prompt
    cases key with
    | none =>
      obtain ⟨hpending, hkept⟩ := maybeOpenPinPrompt_kept lib s.app
      exact h.frame rfl rfl rfl hkept (.inl hpending)
    | some key =>
      have hkey := hkeys key env rfl
      -- the two tables of keys, without a popup and with one
      cases hpopup : s.app.popup with
      | none => exact h.screenKey hpopup hkey
      | some popup => exact h.popupKey (by rw [hpopup]; rfl) hkey

/-- In every run whose keys leave an attempt on its screen, a retry sends what was refused. -/
theorem retry_resends (lib : TuiLibrary I) (deviceInfo : DeviceInfo) (autoAccept : Bool)
    (as : List TuiAction)
    (hkeys : (tui lib).Always (KeysKeep lib) (.start lib deviceInfo autoAccept) as) :
    (tui lib).Always (RetryResends lib) (.start lib deviceInfo autoAccept) as := by
  refine (tui lib).always_of_invariant (RetryInv lib) ?_ (RetryInv.start lib deviceInfo autoAccept) hkeys
  intro s a s' h hs hC
  exact ⟨h.step hs hC, h.resends hs⟩

/-! ## Two runs -/

/-- Whether a flow is attempted, as a test. -/
def attemptingTest (s : TuiWorld I) (kind : SendKind) : Bool :=
  s.app.pendingPinKind = some kind ||
    s.underWay.any fun t => t.kind = kind && t.generation = s.app.sendGeneration

/-- A test that a key passes only if it leaves an attempt on its screen. -/
def keyKeepsTest (lib : TuiLibrary I) (s : TuiWorld I) (key : KeyCode) (env : AppEnv) : Bool :=
  ([SendKind.file, .text].all fun kind => !s.app.changesSend lib kind key env ||
    s.app.pendingPinKind ≠ some kind && (!attemptingTest s kind || s.app.cancelsSend kind key)) &&
  ([SendKind.file, .text].all fun kind => !s.app.startsSend lib kind key env ||
    s.app.pendingPinKind ≠ some kind && s.tasks.all fun t => t.kind ≠ kind) &&
  (!s.app.takesGeneration lib key env || s.underWay.all fun t =>
    t.generation ≠ s.app.sendGeneration + 1)

/-- The test of the keys of a run. -/
def keysKeepTest (lib : TuiLibrary I) (s : TuiWorld I) : TuiAction → Bool
  | .key (some key) env => keyKeepsTest lib s key env
  | _ => true

/-- The test for an attempt under way misses none. -/
theorem attemptingTest_of_attempting {s : TuiWorld I} {kind : SendKind} (h : Attempting s kind) :
    attemptingTest s kind = true := by
  unfold attemptingTest
  rw [Bool.or_eq_true]
  refine h.imp decide_eq_true fun ⟨t, ht, htk, hgeneration⟩ => List.any_eq_true.mpr ⟨t, ht, ?_⟩
  simp [htk, hgeneration]

/-- The test for keys that keep to the flow tells the truth. -/
theorem keyKeeps_of_test {s : TuiWorld I} {key : KeyCode} {env : AppEnv}
    (h : keyKeepsTest lib s key env = true) : KeyKeeps lib s key env := by
  -- the two kinds are all the kinds
  have hkinds : ∀ kind, kind ∈ [SendKind.file, .text] := fun kind => by cases kind <;> simp
  simp only [keyKeepsTest, Bool.and_eq_true, List.all_eq_true] at h
  obtain ⟨⟨hkeeps, hstarts⟩, hfresh⟩ := h
  constructor
  · intro kind hchanges
    have hkind := hkeeps kind (hkinds kind)
    rw [hchanges, Bool.not_true, Bool.false_or, Bool.and_eq_true, decide_eq_true_eq] at hkind
    refine ⟨hkind.1, fun hattempt => ?_⟩
    have hcancels := hkind.2
    rw [attemptingTest_of_attempting hattempt] at hcancels
    exact hcancels
  · intro kind hstart
    have hkind := hstarts kind (hkinds kind)
    rw [hstart, Bool.not_true, Bool.false_or, Bool.and_eq_true, decide_eq_true_eq,
      List.all_eq_true] at hkind
    exact ⟨hkind.1, fun t ht => of_decide_eq_true (hkind.2 t ht)⟩
  · intro htakes t ht
    rw [htakes, Bool.not_true, Bool.false_or, List.all_eq_true] at hfresh
    exact of_decide_eq_true (hfresh t ht)

/-- An iteration that finds nothing but a key. -/
def iteration (key : Option KeyCode) : List TuiAction :=
  [.draw plainEnv, .serverEventsDone, .sendUpdatesDone false, .key key plainEnv]

/-- A message to a peer. -/
def plainTask : SendTask := ⟨1, .text, plainDevice "peer", "h", none⟩

/-- The message is entered and sent. -/
def sendMessage : List TuiAction :=
  .sighting (plainDevice "peer") ::
    (iteration (some .enter) ++ iteration (some (.char 'h')) ++ iteration (some .enter))

/-- The peer asks for a PIN, and it is entered. -/
def enterPin : List TuiAction :=
  .finish plainTask .invalidPin ::
    ([.draw plainEnv, .serverEventsDone, .sendUpdate, .sendUpdatesDone false, .key none plainEnv] ++
      iteration (some (.char '1')) ++ [.draw plainEnv, .serverEventsDone, .sendUpdatesDone false])

/-- A message that was refused for its PIN is sent again with the PIN. -/
theorem retry_resends_message : (tui TuiLibrary.plain).Always (RetryResends TuiLibrary.plain)
    (.start TuiLibrary.plain (plainDevice "self") false)
    (sendMessage ++ enterPin ++ [.key (some .enter) plainEnv]) := by
  refine retry_resends TuiLibrary.plain (plainDevice "self") false _ ?_
  refine (tui TuiLibrary.plain).always_of_allPass (keysKeepTest TuiLibrary.plain) ?_ (by decide)
  intro s a _ htest key env ha
  subst ha
  exact keyKeeps_of_test htest

/-- A key that is typed while the message is sent is part of the message that the retry sends. -/
theorem retry_sends_edited_message : ¬(tui TuiLibrary.plain).Always (RetryResends TuiLibrary.plain)
    (.start TuiLibrary.plain (plainDevice "self") false)
    (sendMessage ++ iteration (some (.char '!')) ++ enterPin ++ [.key (some .enter) plainEnv]) := by
  refine (tui TuiLibrary.plain).not_always_of_test _ _ _
    (fun s s' => s.app.popup = some (.pinEntry "1") ∧ s.app.pendingPinKind = some .text ∧
      s.refused = some plainTask ∧ s.tasks = [] ∧
      s'.tasks.map SendTask.payload = ["h!"]) (by decide) ?_
  intro s s' _ htest hresends
  simp only [Bool.decide_and, Bool.and_eq_true, decide_eq_true_eq] at htest
  obtain ⟨hpopup, hpending, hrefused, hidle, hpayload⟩ := htest
  obtain ⟨t, ht, -, htasks, -⟩ := hresends plainEnv "1" .text rfl hpopup (by decide) hpending
  rw [← Option.some.inj (hrefused.symm.trans ht), hidle] at htasks
  rw [htasks] at hpayload
  exact absurd (show ["h"] = ["h!"] from hpayload) (by decide)

end LocalSend
