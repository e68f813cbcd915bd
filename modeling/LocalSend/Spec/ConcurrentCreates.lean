import LocalSend.Spec.Interleavings

/-!
# Creates side by side

In the order in which interleaved `create` calls reserve their names they are a serial history:
each has taken the candidate that would have been free for it had the others run to their end
before, or not at all. So a `create` that succeeds in every order can only fail at a
`create_dir`, and only when another one has just made the same directory.

## Key results

- `Merged.step`: an interleaving of calls that share no missing directory is a serial history
- `creates_succeed_iff`: creates that succeed in every order succeed in every interleaving exactly
  when no two of them need the same missing directory
-/

namespace LocalSend

namespace CreateCalls

variable {calls : CreateCalls} {fs : FileSystem PathBuf} {history : List (ReceiveId × Nat)}
  {w w' : FileWorld} {u v : ReceiveId} {k : Nat}

/-! ## An interleaving as a serial history -/

/-- Call `u` has come to the component `current` of its walk, and the directories above are
    there. -/
def Reaches (calls : CreateCalls) (w : FileWorld) (u : ReceiveId) (current : PathBuf)
    (rest : List String) : Prop :=
  ∃ pre name, current = calls.saveDir.join (pre ++ [name]) ∧ calls.chain u = pre ++ name :: rest ∧
    ∀ p, OnChain calls.saveDir pre 0 p → w.fs.entry p = some .directory

/-- What a call that waits in a phase has found. The calls of the history have reserved their
    names. -/
def Waits (calls : CreateCalls) (fs : FileSystem PathBuf) (history : List (ReceiveId × Nat))
    (w : FileWorld) (u : ReceiveId) : CreatePhase → Prop
  | .inspecting current rest => u ∉ history.map Prod.fst ∧ calls.Reaches w u current rest
  | .makingDirectory current rest =>
    u ∉ history.map Prod.fst ∧ calls.Reaches w u current rest ∧ fs.entry current = none
  | .reserving attempt =>
    u ∉ history.map Prod.fst ∧ attempt ≤ maxCollisionAttempts ∧
      (∀ j, j < attempt → w.fs.entry (calls.candidate u j) ≠ none) ∧
      w.fs.entry (calls.saveDir.join (calls.chain u)) = some .directory ∧
      ∀ p, calls.Enters u p → w.fs.entry p = some .directory
  | .openingTemp _ tempPath =>
    u ∈ history.map Prod.fst ∧ tempPath = calls.temporary u ∧
      w.fs.entry (calls.saveDir.join (calls.chain u)) = some .directory

/-- Where call `u` stands. -/
def Stands (calls : CreateCalls) (fs : FileSystem PathBuf) (history : List (ReceiveId × Nat))
    (w : FileWorld) (u : ReceiveId) : Option Receive → Prop
  | none => u ∉ history.map Prod.fst
  | some (.task (.creating future)) =>
    u < calls.count ∧ future.directory = calls.saveDir.join (calls.chain u) ∧
      future.leaf = calls.leaf u ∧ calls.Waits fs history w u future.phase
  | some (.task (.pending _)) => u ∈ history.map Prod.fst
  | _ => False

/-- `p` is a directory that call `u`, which has begun, is past. -/
def Passed (calls : CreateCalls) (w : FileWorld) (u : ReceiveId) (p : PathBuf) : Prop :=
  calls.Enters u p ∧ (w.receives u).isSome ∧ ∀ future current,
    w.receives u = some (.task (.creating future)) → future.component = some current →
      p.components.length < current.components.length

/-- What a call has put at `p`. -/
def Placed (calls : CreateCalls) (history : List (ReceiveId × Nat)) (w : FileWorld) (p : PathBuf) :
    Prop :=
  (w.fs.entry p = some .directory ∧ ∃ u, calls.Passed w u p) ∨
    ∃ x ∈ history, p = calls.candidate x.1 x.2 ∨ (p = calls.temporary x.1 ∧ Succeeded w x.1)

/-- An interleaving so far: on the disk is what was there, the directories that calls are past,
    and the files of a serial history, which is the calls in the order of their reservations. -/
structure Merged (calls : CreateCalls) (fs : FileSystem PathBuf) (history : List (ReceiveId × Nat))
    (w : FileWorld) : Prop where
  serial : calls.Serial fs history
  kept : ∀ p e, fs.entry p = some e → w.fs.entry p = some e
  placed : ∀ p, fs.entry p = none → w.fs.entry p ≠ none → calls.Placed history w p
  present : ∀ x ∈ history, w.fs.entry (calls.candidate x.1 x.2) ≠ none ∧
    ∀ p, calls.Enters x.1 p → w.fs.entry p ≠ none
  temporaries : ∀ u, Succeeded w u → w.fs.entry (calls.temporary u) ≠ none
  stands : ∀ u, calls.Stands fs history w u (w.receives u)

/-- Before any call, the history is empty and the disk is as it was. -/
theorem merged_start (fs : FileSystem PathBuf) :
    calls.Merged fs [] (SinkWorld.start calls.saveDir fs) where
  serial := .nil
  kept _ _ h := h
  placed _ hnone h := absurd hnone h
  present _ h := by cases h
  temporaries _ h := by
    obtain ⟨_, h⟩ := h
    cases h
  stands _ := List.not_mem_nil

/-- A call that has begun is one of the calls. -/
theorem Merged.lt (h : calls.Merged fs history w) (hbegun : (w.receives u).isSome) :
    u < calls.count := by
  have hstands := h.stands u
  cases hr : w.receives u with
  | none => simp [hr] at hbegun
  | some r =>
    rw [hr] at hstands
    unfold Stands at hstands
    split at hstands
    · cases ‹some r = none›
    · exact hstands.1
    · exact h.serial.calls_lt.2 u hstands
    · exact hstands.elim

section

variable (hall : calls.SucceedInEveryOrder fs)

include hall

/-- What is where a call has yet to go is a directory, and was there or is another call's. -/
theorem Merged.directory (h : calls.Merged fs history w) (hcall : u < calls.count)
    (hnew : u ∉ history.map Prod.fst) {p : PathBuf} (hp : calls.Enters u p)
    (hsome : w.fs.entry p ≠ none) :
    w.fs.entry p = some .directory ∧ (fs.entry p = none → ∃ v, calls.Passed w v p) := by
  obtain ⟨_, hfits⟩ := h.serial.exists_fits hall hcall hnew
  cases hentry : fs.entry p with
  | some e =>
    have he : e = .directory := by
      by_contra hne
      exact hfits.way p hp (.inl ⟨e, hentry, hne⟩)
    exact ⟨h.kept p _ (he ▸ hentry), by simp⟩
  | none =>
    rcases h.placed p hentry hsome with ⟨hdir, hpassed⟩ | ⟨x, hx, hfile⟩
    · exact ⟨hdir, fun _ => hpassed⟩
    · exact absurd (.inr ⟨x, hx, hfile.imp_right And.left⟩) (hfits.way p hp)

/-- The candidate that is free after the history is free. -/
theorem Merged.candidate_free (h : calls.Merged fs history w) (hcall : u < calls.count)
    (hnew : u ∉ history.map Prod.fst) (hfits : calls.Fits fs history u k) :
    w.fs.entry (calls.candidate u k) = none := by
  by_contra hsome
  have hfree : fs.entry (calls.candidate u k) = none := by
    by_contra hentry
    exact hfits.free (.inl hentry)
  rcases h.placed _ hfree hsome with ⟨_, v, hpassed⟩ | ⟨x, hx, hfile⟩
  · -- it would be a directory of a call: of one in the history, of `u` itself, or of another
    by_cases hv : v ∈ history.map Prod.fst
    · obtain ⟨x, hx, rfl⟩ := List.mem_map.mp hv
      exact hfits.free (.inr ⟨x, hx, .inl hpassed.1⟩)
    · by_cases huv : u = v
      · subst huv
        exact not_onChain_join _ hpassed.1
      · exact hfits.candidate_not_enters hall h.serial hcall hnew (h.lt hpassed.2.1) hv huv hpassed.1
  · exact hfits.free (.inr ⟨x, hx, .inr (hfile.imp_right And.left)⟩)

/-- A candidate that is taken after the history is taken. -/
theorem Merged.candidate_taken (h : calls.Merged fs history w) (hcall : u < calls.count)
    (htaken : calls.TakenIn fs history (calls.candidate u k)) :
    w.fs.entry (calls.candidate u k) ≠ none := by
  rcases htaken with hentry | ⟨x, hx, henters | heq | heq⟩
  · obtain ⟨e, he⟩ := Option.ne_none_iff_exists'.mp hentry
    rw [h.kept _ e he]
    nofun
  · exact (h.present x hx).2 _ henters
  · rw [heq]
    exact (h.present x hx).1
  · have hlt := h.serial.calls_lt.2 x.1 (List.mem_map_of_mem hx)
    exact absurd heq (candidate_ne_temporary hall hcall hlt k)

/-- Nobody has taken the place of the temporary of a call that has not opened it. -/
theorem Merged.temporary_free (h : calls.Merged fs history w) (hcall : u < calls.count)
    (hwaits : ¬Succeeded w u) : w.fs.entry (calls.temporary u) = none := by
  by_contra hsome
  obtain ⟨_, hfits⟩ := Serial.nil.exists_fits hall hcall List.not_mem_nil
  have hfree : fs.entry (calls.temporary u) = none := by
    by_contra hentry
    exact hfits.freeTemp (.inl hentry)
  rcases h.placed _ hfree hsome with ⟨_, v, hpassed⟩ | ⟨x, hx, heq | ⟨heq, hopened⟩⟩
  · by_cases huv : u = v
    · subst huv
      exact not_onChain_join _ hpassed.1
    · exact (temporary_apart hall hcall (h.lt hpassed.2.1) huv).2 hpassed.1
  · have hlt := h.serial.calls_lt.2 x.1 (List.mem_map_of_mem hx)
    exact candidate_ne_temporary hall hlt hcall x.2 heq.symm
  · have hlt := h.serial.calls_lt.2 x.1 (List.mem_map_of_mem hx)
    have hne : u ≠ x.1 := fun huv => hwaits (huv ▸ hopened)
    exact (temporary_apart hall hcall hlt hne).1 heq

end

/-- Call `u` is now at `r`, and the file system is `fs'`. -/
structure Goes (w : FileWorld) (u : ReceiveId) (r : Receive) (fs' : FileSystem PathBuf)
    (w' : FileWorld) : Prop where
  receives : w'.receives = Function.update w.receives u (some r)
  entry : w'.fs.entry = fs'.entry

variable {r : Receive} {fs' : FileSystem PathBuf}

/-- The call that goes on is where it went. -/
theorem Goes.self (h : Goes w u r fs' w') : w'.receives u = some r := by
  rw [h.receives, Function.update_self]

/-- Every other call stays where it was. -/
theorem Goes.other (h : Goes w u r fs' w') (hv : v ≠ u) : w'.receives v = w.receives v := by
  rw [h.receives, Function.update_of_ne hv]

/-- A way that is made stays made while the disk only grows. -/
theorem Reaches.mono {current : PathBuf} {rest : List String}
    (hgrows : ∀ p e, w.fs.entry p = some e → w'.fs.entry p = some e)
    (h : calls.Reaches w u current rest) : calls.Reaches w' u current rest := by
  obtain ⟨pre, name, hcurrent, hchain, hdirs⟩ := h
  exact ⟨pre, name, hcurrent, hchain, fun p hp => hgrows p _ (hdirs p hp)⟩

/-- What a waiting call relies on outlasts the steps of others. -/
theorem Waits.mono {history' : List (ReceiveId × Nat)}
    (hgrows : ∀ p e, w.fs.entry p = some e → w'.fs.entry p = some e)
    (hhistory : u ∈ history'.map Prod.fst ↔ u ∈ history.map Prod.fst) {phase : CreatePhase}
    (h : calls.Waits fs history w u phase) : calls.Waits fs history' w' u phase := by
  cases phase with
  | inspecting current rest => exact ⟨fun hmem => h.1 (hhistory.mp hmem), h.2.mono hgrows⟩
  | makingDirectory current rest =>
    exact ⟨fun hmem => h.1 (hhistory.mp hmem), h.2.1.mono hgrows, h.2.2⟩
  | reserving attempt =>
    obtain ⟨hnew, hle, htaken, hdir, hway⟩ := h
    refine ⟨fun hmem => hnew (hhistory.mp hmem), hle, fun j hj => ?_, hgrows _ _ hdir,
      fun p hp => hgrows p _ (hway p hp)⟩
    obtain ⟨e, he⟩ := Option.ne_none_iff_exists'.mp (htaken j hj)
    rw [hgrows _ e he]
    nofun
  | openingTemp finalPath tempPath => exact ⟨hhistory.mpr h.1, h.2.1, hgrows _ _ h.2.2⟩

/-- Where a call stands outlasts the steps of others. -/
theorem Stands.mono {history' : List (ReceiveId × Nat)} {r : Option Receive}
    (hgrows : ∀ p e, w.fs.entry p = some e → w'.fs.entry p = some e)
    (hhistory : u ∈ history'.map Prod.fst ↔ u ∈ history.map Prod.fst)
    (h : calls.Stands fs history w u r) : calls.Stands fs history' w' u r := by
  unfold Stands at h ⊢
  split at h
  · exact fun hmem => h (hhistory.mp hmem)
  · exact ⟨h.1, h.2.1, h.2.2.1, h.2.2.2.mono hgrows hhistory⟩
  · exact hhistory.mpr h
  · exact h.elim

/-- One call goes on. What it adds is accounted for, and nothing goes away. -/
theorem Merged.advance {history' : List (ReceiveId × Nat)} (h : calls.Merged fs history w)
    (hgoes : Goes w u r fs' w') (hwaits : ¬Succeeded w u)
    (hgrows : ∀ p e, w.fs.entry p = some e → fs'.entry p = some e)
    (hpassed : ∀ p, calls.Passed w u p → calls.Passed w' u p)
    (hserial : calls.Serial fs history') (hhistory : ∀ x ∈ history, x ∈ history')
    (hothers : ∀ v, v ≠ u → (v ∈ history'.map Prod.fst ↔ v ∈ history.map Prod.fst))
    (hplaced : ∀ p, w.fs.entry p = none → fs'.entry p ≠ none → calls.Placed history' w' p)
    (hpresent : ∀ x ∈ history', x ∉ history → fs'.entry (calls.candidate x.1 x.2) ≠ none ∧
      ∀ p, calls.Enters x.1 p → fs'.entry p ≠ none)
    (htemporary : Succeeded w' u → fs'.entry (calls.temporary u) ≠ none)
    (hstands : calls.Stands fs history' w' u (some r)) : calls.Merged fs history' w' := by
  have hsome : ∀ p, w.fs.entry p ≠ none → fs'.entry p ≠ none := by
    intro p hp
    obtain ⟨e, he⟩ := Option.ne_none_iff_exists'.mp hp
    rw [hgrows p e he]
    nofun
  have hpassed' : ∀ v p, calls.Passed w v p → calls.Passed w' v p := by
    intro v p hp
    by_cases hv : v = u
    · subst hv
      exact hpassed p hp
    · unfold Passed
      rw [hgoes.other hv]
      exact hp
  have hopened : ∀ v, v ≠ u → (Succeeded w' v ↔ Succeeded w v) := by
    intro v hv
    unfold Succeeded
    rw [hgoes.other hv]
  constructor
  · exact hserial
  · intro p e he
    rw [hgoes.entry]
    exact hgrows p e (h.kept p e he)
  · intro p hnone hp
    rw [hgoes.entry] at hp
    -- what is new was placed by this call; what was there stays accounted for
    by_cases hold : w.fs.entry p = none
    · exact hplaced p hold hp
    · rcases h.placed p hnone hold with ⟨hdir, v, hv⟩ | ⟨x, hx, hfile⟩
      · left
        rw [hgoes.entry]
        exact ⟨hgrows p _ hdir, v, hpassed' v p hv⟩
      · right
        refine ⟨x, hhistory x hx, hfile.imp_right fun ⟨heq, hx'⟩ => ⟨heq, ?_⟩⟩
        -- the file of a call that has succeeded is not of the one that goes on
        have hne : x.1 ≠ u := fun heq => hwaits (heq ▸ hx')
        exact (hopened x.1 hne).mpr hx'
  · intro x hx
    rw [hgoes.entry]
    by_cases hold : x ∈ history
    · obtain ⟨hcandidate, henters⟩ := h.present x hold
      exact ⟨hsome _ hcandidate, fun p hp => hsome p (henters p hp)⟩
    · exact hpresent x hx hold
  · intro v hv
    rw [hgoes.entry]
    by_cases hvu : v = u
    · subst hvu
      exact htemporary hv
    · exact hsome _ (h.temporaries v ((hopened v hvu).mp hv))
  · intro v
    by_cases hvu : v = u
    · subst hvu
      rw [hgoes.self]
      exact hstands
    · rw [hgoes.other hvu]
      apply (h.stands v).mono _ (hothers v hvu)
      rw [hgoes.entry]
      exact hgrows

/-- A call goes on and leaves the disk as it is. -/
theorem Merged.stay (h : calls.Merged fs history w) {next : CreateFuture}
    (hgoes : Goes w u (.task (.creating next)) w.fs w') (hwaits : ¬Succeeded w u)
    (hpassed : ∀ p, calls.Passed w u p → calls.Passed w' u p)
    (hstands : calls.Stands fs history w u (some (.task (.creating next)))) :
    calls.Merged fs history w' := by
  refine h.advance hgoes hwaits (fun p e he => he) hpassed h.serial (fun x hx => hx)
    (fun v _ => Iff.rfl) (fun p hnone hp => absurd hnone hp) (fun x hx hold => absurd hx hold) ?_ ?_
  · rintro ⟨file, hfile⟩
    cases hgoes.self.symm.trans hfile
  · apply hstands.mono _ Iff.rfl
    rw [hgoes.entry]
    exact fun p e he => he

/-! ## One call of an interleaving -/

/-- A call that is still creating has not succeeded. -/
theorem not_succeeded_of_creating {future : CreateFuture}
    (hr : w.receives u = some (.task (.creating future))) : ¬Succeeded w u := by
  rintro ⟨file, hfile⟩
  cases hr.symm.trans hfile

/-- A directory that a call is past it stays past. -/
theorem Passed.goes (hgoes : Goes w u r fs' w') {p : PathBuf} (h : calls.Passed w u p)
    (hdeeper : ∀ next current, r = .task (.creating next) → next.component = some current →
      p.components.length < current.components.length) : calls.Passed w' u p := by
  refine ⟨h.1, by rw [hgoes.self]; rfl, fun future current hfuture hcurrent => ?_⟩
  apply hdeeper future current _ hcurrent
  exact Option.some.inj (hgoes.self.symm.trans hfuture)

/-- A component of a walk is one of the directories of its call. -/
theorem enters_component {pre rest : List String} {name : String}
    (hchain : calls.chain u = pre ++ name :: rest) :
    calls.Enters u (calls.saveDir.join (pre ++ [name])) :=
  ⟨pre ++ [name], by simp, ⟨rest, by simp [hchain]⟩, rfl⟩

/-- A walk that has the directories of `pre` goes on with the next component, or reserves. -/
theorem waits_walkOn (fs : FileSystem PathBuf) (future : CreateFuture) {pre rest : List String}
    (hplain : ".." ∉ calls.chain u)
    (hchain : calls.chain u = pre ++ rest) (hnew : u ∉ history.map Prod.fst)
    (hdirs : ∀ p, OnChain calls.saveDir pre 0 p → w.fs.entry p = some .directory)
    (hbase : rest = [] → w.fs.entry (calls.saveDir.join pre) = some .directory) :
    ∃ phase, future.walkOn (calls.saveDir.join pre) rest =
        .awaits (.creating ⟨future.directory, future.leaf, phase⟩) ∧
      calls.Waits fs history w u phase ∧ ∀ current,
        CreateFuture.component ⟨future.directory, future.leaf, phase⟩ = some current →
        current.components.length = (calls.saveDir.join pre).components.length + 1 := by
  cases rest with
  | nil =>
    rw [List.append_nil] at hchain
    -- all components are there: the first name is tried next
    refine ⟨.reserving 0, rfl, ⟨hnew, Nat.zero_le _, nofun, ?_, fun p hp => hdirs p ?_⟩, nofun⟩
    · rw [hchain]
      exact hbase rfl
    · rw [← hchain]
      exact hp
  | cons name rest =>
    have hname : name ≠ ".." := by
      rintro rfl
      exact hplain (by simp [hchain])
    refine ⟨.inspecting (calls.saveDir.join (pre ++ [name])) rest, ?_,
      ⟨hnew, pre, name, rfl, hchain, hdirs⟩, ?_⟩
    · simp [CreateFuture.walkOn, CreateFuture.walk, hname, PathBuf.join]
    · intro current hcurrent
      cases hcurrent
      simp only [PathBuf.join, List.length_append, List.length_singleton]
      omega

section

variable (hall : calls.SucceedInEveryOrder fs)

include hall

/-- A call begins. -/
theorem Merged.begun (h : calls.Merged fs history w) (hcall : u < calls.count)
    (hr : w.receives u = none) {future : CreateFuture}
    (hcreate : AtomicFileSink.create calls.saveDir (calls.fileName u) = .ok future)
    (hgoes : Goes w u (.task (.creating future)) w.fs w') : calls.Merged fs history w' := by
  obtain ⟨_, hcreate', hleaf, hchain⟩ := create_eq_ok_of_call hall hcall
  cases hcreate.symm.trans hcreate'
  obtain ⟨_, hchain', hdirectory, _, hwalk⟩ := AtomicFileSink.create_eq_ok hcreate
  cases hchain.symm.trans hchain'
  have hnew : u ∉ history.map Prod.fst := by
    have hstands := h.stands u
    rw [hr] at hstands
    exact hstands
  -- without components the call starts in the save directory, which was there
  have hbase : calls.chain u = [] → w.fs.entry (calls.saveDir.join []) = some .directory := by
    intro hnil
    rw [PathBuf.join_nil]
    exact h.kept _ _ (base_directory hall hcall (.inl hnil))
  obtain ⟨phase, hnext, hwaits, _⟩ := waits_walkOn fs future (chain_plain hall hcall) rfl hnew
    (fun p ⟨pre, hlen, hpre, _⟩ => by simp [List.prefix_nil.mp hpre] at hlen) hbase
  rw [PathBuf.join_nil, ← hwalk] at hnext
  have hphase : future.phase = phase :=
    congrArg CreateFuture.phase (SinkTask.creating.inj (SinkStep.awaits.inj hnext))
  rw [← hphase] at hwaits
  refine h.stay hgoes ?_ ?_ ⟨hcall, hdirectory, hleaf, hwaits⟩
  · rintro ⟨_, hpending⟩
    cases hr.symm.trans hpending
  · intro p hpassed
    exact absurd hpassed.2.1 (by simp [hr])

/-- A component that is a directory is entered. -/
theorem Merged.entered (h : calls.Merged fs history w) {future : CreateFuture}
    (hr : w.receives u = some (.task (.creating future))) {current : PathBuf} {rest : List String}
    (hphase : future.phase = .inspecting current rest) (hdir : w.fs.entry current = some .directory)
    (hgoes : Goes w u (future.walkOn current rest).receive w.fs w') :
    calls.Merged fs history w' := by
  have hstands := h.stands u
  rw [hr] at hstands
  obtain ⟨hcall, hdirectory, hleaf, hwaits⟩ := hstands
  rw [hphase] at hwaits
  obtain ⟨hnew, pre, name, rfl, hchain, hdirs⟩ := hwaits
  -- the directories of the walk are those before and the one just entered
  have hdirs' : ∀ p, OnChain calls.saveDir (pre ++ [name]) 0 p →
      w.fs.entry p = some .directory := by
    intro p hp
    rcases onChain_snoc.mp hp with rfl | hp
    · exact hdir
    · exact hdirs p hp
  obtain ⟨phase, hnext, hwaits, hdeeper⟩ := waits_walkOn fs future (chain_plain hall hcall)
    (hchain.trans (List.append_cons pre name rest)) hnew hdirs' (fun _ => hdir)
  rw [hnext] at hgoes
  refine h.stay hgoes (not_succeeded_of_creating hr) (fun p hp => hp.goes hgoes ?_)
    ⟨hcall, hdirectory, hleaf, hwaits⟩
  intro next current' heq hcurrent
  cases heq
  -- the walk is deeper than what it has passed
  have hlt := hp.2.2 _ _ hr (by rw [CreateFuture.component, hphase])
  rw [hdeeper current' hcurrent]
  omega

omit hall in
/-- A component that is not there is one that was not there. -/
theorem Merged.missing (h : calls.Merged fs history w) {future : CreateFuture}
    (hr : w.receives u = some (.task (.creating future))) {current : PathBuf} {rest : List String}
    (hphase : future.phase = .inspecting current rest) (hnone : w.fs.entry current = none)
    (hgoes : Goes w u (.task (.creating { future with phase := .makingDirectory current rest }))
      w.fs w') :
    calls.Merged fs history w' := by
  have hstands := h.stands u
  rw [hr] at hstands
  obtain ⟨hcall, hdirectory, hleaf, hwaits⟩ := hstands
  rw [hphase] at hwaits
  have hmissing : fs.entry current = none := by
    by_contra hsome
    obtain ⟨e, he⟩ := Option.ne_none_iff_exists'.mp hsome
    cases hnone.symm.trans (h.kept current e he)
  refine h.stay hgoes (not_succeeded_of_creating hr) (fun p hp => hp.goes hgoes ?_)
    ⟨hcall, hdirectory, hleaf, hwaits.1, hwaits.2, hmissing⟩
  intro next current' heq hcurrent
  cases heq
  cases hcurrent
  exact hp.2.2 _ _ hr (by rw [CreateFuture.component, hphase])

/-- A missing component is made. -/
theorem Merged.made (h : calls.Merged fs history w) {future : CreateFuture}
    (hr : w.receives u = some (.task (.creating future))) {current : PathBuf} {rest : List String}
    (hphase : future.phase = .makingDirectory current rest) (hfree : w.fs.entry current = none)
    (hgoes : Goes w u (future.walkOn current rest).receive
      (w.fs.setEntry current (some .directory) nofun) w') : calls.Merged fs history w' := by
  have hstands := h.stands u
  rw [hr] at hstands
  obtain ⟨hcall, hdirectory, hleaf, hwaits⟩ := hstands
  rw [hphase] at hwaits
  obtain ⟨hnew, ⟨pre, name, rfl, hchain, hdirs⟩, _⟩ := hwaits
  have hgrows : ∀ p e, w.fs.entry p = some e →
      (w.fs.setEntry (calls.saveDir.join (pre ++ [name])) (some .directory) nofun).entry p = some e := by
    intro p e he
    rw [FileSystem.entry_setEntry, if_neg, he]
    rintro rfl
    cases hfree.symm.trans he
  have hmade : w'.fs.entry (calls.saveDir.join (pre ++ [name])) = some .directory := by
    rw [hgoes.entry, FileSystem.entry_setEntry, if_pos rfl]
  have hdirs' : ∀ p, OnChain calls.saveDir (pre ++ [name]) 0 p →
      w'.fs.entry p = some .directory := by
    intro p hp
    rcases onChain_snoc.mp hp with rfl | hp
    · exact hmade
    · rw [hgoes.entry]
      exact hgrows p _ (hdirs p hp)
  obtain ⟨phase, hnext, hwaits, hdeeper⟩ := waits_walkOn fs future (chain_plain hall hcall)
    (hchain.trans (List.append_cons pre name rest)) hnew hdirs' (fun _ => hmade)
  rw [hnext] at hgoes
  have hpast : ∀ p : PathBuf,
      p.components.length ≤ (calls.saveDir.join (pre ++ [name])).components.length →
      ∀ next current', Receive.task (.creating ⟨future.directory, future.leaf, phase⟩) =
        .task (.creating next) → next.component = some current' →
          p.components.length < current'.components.length := by
    intro p hp next current' heq hcurrent
    cases heq
    rw [hdeeper current' hcurrent]
    omega
  refine h.advance hgoes (not_succeeded_of_creating hr) hgrows
    (fun p hp => hp.goes hgoes (hpast p ?_))
    h.serial (fun x hx => hx) (fun v _ => Iff.rfl) (fun p hnone hsome => ?_)
    (fun x hx hold => absurd hx hold) ?_ ⟨hcall, hdirectory, hleaf, hwaits⟩
  · exact Nat.le_of_lt (hp.2.2 _ _ hr (by rw [CreateFuture.component, hphase]))
  · -- the only new entry is the directory that was made
    have hp : p = calls.saveDir.join (pre ++ [name]) := by
      by_contra hne
      rw [FileSystem.entry_setEntry, if_neg hne] at hsome
      exact hsome hnone
    subst hp
    refine .inl ⟨hmade, u, enters_component hchain, ?_, fun next current' hnext => ?_⟩
    · rw [hgoes.self]
      rfl
    · exact hpast _ (Nat.le_refl _) next current' (Option.some.inj (hgoes.self.symm.trans hnext))
  · rintro ⟨file, hfile⟩
    cases hgoes.self.symm.trans hfile

omit hall in
/-- The name that a call tries depends on the call and the attempt alone. -/
theorem candidate_eq {future : CreateFuture}
    (hdirectory : future.directory = calls.saveDir.join (calls.chain u))
    (hleaf : future.leaf = calls.leaf u) (attempt : Nat) :
    future.candidate attempt = calls.candidate u attempt := by
  rw [CreateFuture.candidate, hdirectory, hleaf]
  rfl

/-- A name is reserved: the one that is free for the call after the calls that reserved before. -/
theorem Merged.reserved (h : calls.Merged fs history w) {future : CreateFuture}
    (hr : w.receives u = some (.task (.creating future))) {attempt : Nat}
    (hphase : future.phase = .reserving attempt)
    (hfree : w.fs.entry (future.candidate attempt) = none)
    (hgoes : Goes w u (.task (.creating (future.reservedAt attempt (calls.uuid u))))
      (w.fs.newFile (future.candidate attempt)) w') :
    calls.Merged fs (history ++ [(u, attempt)]) w' := by
  have hstands := h.stands u
  rw [hr] at hstands
  obtain ⟨hcall, hdirectory, hleaf, hwaits⟩ := hstands
  rw [hphase] at hwaits
  obtain ⟨hnew, _, htaken, hdir, hway⟩ := hwaits
  rw [candidate_eq hdirectory hleaf] at hfree hgoes
  obtain ⟨k, hfits⟩ := h.serial.exists_fits hall hcall hnew
  -- names are taken by the calls before alone, so this one gets the name that the serial order
  -- gives it
  have hk : k = attempt := by
    rcases Nat.lt_trichotomy k attempt with hlt | heq | hlt
    · exact absurd (h.candidate_free hall hcall hnew hfits) (htaken k hlt)
    · exact heq
    · exact absurd hfree (h.candidate_taken hall hcall (hfits.taken attempt hlt))
  subst hk
  -- a new file replaces nothing
  have hgrows : ∀ p e, w.fs.entry p = some e →
      (w.fs.newFile (calls.candidate u k)).entry p = some e := by
    intro p e he
    rw [FileSystem.entry_newFile, if_neg, he]
    rintro rfl
    cases hfree.symm.trans he
  have hmem : u ∈ (history ++ [(u, k)]).map Prod.fst := by simp
  refine h.advance hgoes (not_succeeded_of_creating hr) hgrows (fun p hp => hp.goes hgoes ?_)
    (h.serial.snoc hcall hnew hfits) (fun x hx => List.mem_append_left _ hx) (fun v hv => ?_)
    (fun p hnone hsome => ?_) (fun x hx hold => ?_) ?_ ⟨hcall, hdirectory, hleaf, hmem, ?_, ?_⟩
  · intro next current heq hcurrent
    cases heq
    cases hcurrent
  · simp [hv]
  · have hp : p = calls.candidate u k := by
      by_contra hne
      rw [FileSystem.entry_newFile, if_neg hne] at hsome
      exact hsome hnone
    exact .inr ⟨(u, k), by simp, .inl hp⟩
  · have hx : x = (u, k) := by simpa [hold] using hx
    subst hx
    constructor
    · rw [FileSystem.entry_newFile, if_pos rfl]
      nofun
    · intro p hp
      rw [hgrows p _ (hway p hp)]
      nofun
  · rintro ⟨file, hfile⟩
    cases hgoes.self.symm.trans hfile
  · rw [CreateFuture.temporary, hdirectory]
    rfl
  · rw [hgoes.entry]
    exact hgrows _ _ hdir

omit hall in
/-- A name is taken, and the call tries the next. -/
theorem Merged.taken (h : calls.Merged fs history w) {future : CreateFuture}
    (hr : w.receives u = some (.task (.creating future))) {attempt : Nat}
    (hphase : future.phase = .reserving attempt)
    (htaken : w.fs.entry (future.candidate attempt) ≠ none) (hmore : attempt < maxCollisionAttempts)
    (hgoes : Goes w u (.task (.creating { future with phase := .reserving (attempt + 1) })) w.fs w') :
    calls.Merged fs history w' := by
  have hstands := h.stands u
  rw [hr] at hstands
  obtain ⟨hcall, hdirectory, hleaf, hwaits⟩ := hstands
  rw [hphase] at hwaits
  obtain ⟨hnew, _, hbefore, hdir, hway⟩ := hwaits
  refine h.stay hgoes (not_succeeded_of_creating hr) (fun p hp => hp.goes hgoes ?_)
    ⟨hcall, hdirectory, hleaf, hnew, hmore, fun j hj => ?_, hdir, hway⟩
  · intro next current heq hcurrent
    cases heq
    cases hcurrent
  · rcases Nat.lt_succ_iff_lt_or_eq.mp hj with hlt | rfl
    · exact hbefore j hlt
    · rw [← candidate_eq hdirectory hleaf]
      exact htaken

omit hall in
/-- The temporary is opened, and the call has succeeded. -/
theorem Merged.opened (h : calls.Merged fs history w) {future : CreateFuture}
    (hr : w.receives u = some (.task (.creating future))) {finalPath tempPath : PathBuf}
    (hphase : future.phase = .openingTemp finalPath tempPath) (hfree : w.fs.entry tempPath = none)
    {file : AtomicPendingFile}
    (hgoes : Goes w u (.task (.pending file)) (w.fs.newFile tempPath) w') :
    calls.Merged fs history w' := by
  have hstands := h.stands u
  rw [hr] at hstands
  obtain ⟨hcall, hdirectory, hleaf, hwaits⟩ := hstands
  rw [hphase] at hwaits
  obtain ⟨hmem, rfl, _⟩ := hwaits
  -- a new file replaces nothing
  have hgrows : ∀ p e, w.fs.entry p = some e →
      (w.fs.newFile (calls.temporary u)).entry p = some e := by
    intro p e he
    rw [FileSystem.entry_newFile, if_neg, he]
    rintro rfl
    cases hfree.symm.trans he
  refine h.advance hgoes (not_succeeded_of_creating hr) hgrows (fun p hp => hp.goes hgoes ?_)
    h.serial (fun x hx => hx) (fun v _ => Iff.rfl) (fun p hnone hsome => ?_)
    (fun x hx hold => absurd hx hold) (fun _ => ?_) hmem
  · intro next current heq
    simp at heq
  · have hp : p = calls.temporary u := by
      by_contra hne
      rw [FileSystem.entry_newFile, if_neg hne] at hsome
      exact hsome hnone
    obtain ⟨x, hx, rfl⟩ := List.mem_map.mp hmem
    exact .inr ⟨x, hx, .inr ⟨hp, file, hgoes.self⟩⟩
  · rw [FileSystem.entry_newFile, if_pos rfl]
    nofun

/-- No component is anything but a directory. -/
theorem Merged.not_rejected (h : calls.Merged fs history w) {future : CreateFuture}
    (hr : w.receives u = some (.task (.creating future))) {current : PathBuf} {rest : List String}
    (hphase : future.phase = .inspecting current rest) {e : FsEntry}
    (hentry : w.fs.entry current = some e) : e = .directory := by
  have hstands := h.stands u
  rw [hr] at hstands
  obtain ⟨hcall, hdirectory, hleaf, hwaits⟩ := hstands
  rw [hphase] at hwaits
  obtain ⟨hnew, pre, name, rfl, hchain, hdirs⟩ := hwaits
  have hdir := (h.directory hall hcall hnew (enters_component hchain) (by simp [hentry])).1
  exact Option.some.inj (hentry.symm.trans hdir)

/-- A call of the device only fails where two of the calls make the same directory. -/
theorem Merged.shareMissing (h : calls.Merged fs history w) {future : CreateFuture}
    (hr : w.receives u = some (.task (.creating future))) {e : FsError}
    (hfails : (w.fs.run future.call).1 = .error e)
    (hmissing : ∀ current rest, future.phase = .inspecting current rest → e ≠ .notFound)
    (htaken : ∀ attempt, future.phase = .reserving attempt → e = .alreadyExists →
      maxCollisionAttempts ≤ attempt) :
    ∃ v, v < calls.count ∧ u ≠ v ∧ calls.ShareMissing fs u v := by
  have hstands := h.stands u
  rw [hr] at hstands
  obtain ⟨hcall, hdirectory, hleaf, hwaits⟩ := hstands
  cases hphase : future.phase with
  | inspecting current rest =>
    rw [CreateFuture.call, hphase] at hfails
    simp only [FileSystem.run] at hfails
    split at hfails
    · cases hfails
      exact absurd rfl (hmissing current rest hphase)
    · simp at hfails
  | makingDirectory current rest =>
    rw [hphase] at hwaits
    obtain ⟨hnew, ⟨pre, name, rfl, hchain, hdirs⟩, hnone⟩ := hwaits
    have hparent : w.fs.entry (calls.saveDir.join pre) = some .directory := by
      cases hpre : pre with
      | nil =>
        rw [PathBuf.join_nil]
        apply h.kept
        apply base_directory hall hcall
        right
        rw [hchain, hpre]
        simpa [hpre] using hnone
      | cons first others =>
        apply hdirs
        exact ⟨pre, by simp [hpre], List.prefix_refl _, by rw [hpre]⟩
    have hsome : w.fs.entry (calls.saveDir.join (pre ++ [name])) ≠ none := by
      intro hfree
      have hhas : w.fs.hasParent (calls.saveDir.join (pre ++ [name])) = true := by
        have hparent' : ParentPath.parent (calls.saveDir.join (pre ++ [name])) =
            calls.saveDir.join pre :=
          PathBuf.parent_join_snoc _ _ _
        simp [FileSystem.hasParent, hparent', hparent]
      rw [CreateFuture.call, hphase] at hfails
      simp [FileSystem.run, hfree, hhas] at hfails
    obtain ⟨v, hpassed⟩ := (h.directory hall hcall hnew (enters_component hchain) hsome).2 hnone
    refine ⟨v, h.lt hpassed.2.1, ?_, _, enters_component hchain, hpassed.1, hnone⟩
    rintro rfl
    exact Nat.lt_irrefl _ (hpassed.2.2 _ _ hr (by rw [CreateFuture.component, hphase]))
  | reserving attempt =>
    exfalso
    rw [hphase] at hwaits
    obtain ⟨hnew, hle, hbefore, hdir, _⟩ := hwaits
    have hhas : w.fs.hasParent (future.candidate attempt) = true := by
      have hparent : ParentPath.parent (future.candidate attempt) =
          calls.saveDir.join (calls.chain u) := by
        rw [candidate_eq hdirectory hleaf]
        exact parent_join_singleton _ _
      simp [FileSystem.hasParent, hparent, hdir]
    rw [CreateFuture.call, hphase] at hfails
    simp only [FileSystem.run, hhas] at hfails
    split at hfails
    · rename_i hsome
      cases hfails
      -- every attempt was taken, but one of them is free
      have hlast := htaken attempt hphase rfl
      rw [candidate_eq hdirectory hleaf] at hsome
      obtain ⟨k, hfits⟩ := h.serial.exists_fits hall hcall hnew
      have hfree := h.candidate_free hall hcall hnew hfits
      rcases Nat.lt_or_ge k attempt with hlt | hge
      · exact hbefore k hlt hfree
      · have hk : k = attempt := by
          have := hfits.le
          omega
        rw [← hk, hfree] at hsome
        simp at hsome
    · simp at hfails
  | openingTemp finalPath tempPath =>
    exfalso
    rw [hphase] at hwaits
    obtain ⟨_, rfl, hdir⟩ := hwaits
    have hfree := h.temporary_free hall hcall (not_succeeded_of_creating hr)
    have hhas : w.fs.hasParent (calls.temporary u) = true := by
      have hparent : ParentPath.parent (calls.temporary u) = calls.saveDir.join (calls.chain u) :=
        parent_join_singleton _ _
      simp [FileSystem.hasParent, hparent, hdir]
    rw [CreateFuture.call, hphase] at hfails
    simp [FileSystem.run, hfree, hhas] at hfails

/-- While no two calls need the same missing directory, an interleaving stays a serial history. -/
theorem Merged.step (h : calls.Merged fs history w) (hcall : u < calls.count)
    (hapart : ∀ v, v < calls.count → u ≠ v → ¬calls.ShareMissing fs u v)
    (hstep : calls.CallStep w u w') : ∃ history', calls.Merged fs history' w' := by
  cases hstep with
  | begun hr hcreate => exact ⟨history, h.begun hall hcall hr hcreate ⟨rfl, rfl⟩⟩
  | refused hr hcreate =>
    obtain ⟨_, hcreate', _⟩ := create_eq_ok_of_call hall hcall
    cases hcreate.symm.trans hcreate'
  | @resumed future hr =>
    -- the step is named and its parts made variables, so that one lemma a case closes it
    have hcases := createStep_of_resume w.fs none (calls.uuid u) future
    have hgoes : Goes w u (future.resume (w.fs.answer none future.call).1 (calls.uuid u)).receive
        (w.fs.answer none future.call).2 ((w.runCall u none future.call).2.setReceive u
          (future.resume (w.fs.answer none future.call).1 (calls.uuid u)).receive) := ⟨rfl, rfl⟩
    generalize (w.runCall u none future.call).2.setReceive u
      (future.resume (w.fs.answer none future.call).1 (calls.uuid u)).receive = w' at hgoes ⊢
    generalize future.resume (w.fs.answer none future.call).1 (calls.uuid u) = next at hcases hgoes
    generalize w.fs.answer none future.call = answer at hcases hgoes
    obtain ⟨reply, fs'⟩ := answer
    dsimp only at hcases hgoes
    cases hcases with
    | entered hphase _ hdir => exact ⟨history, h.entered hall hr hphase hdir hgoes⟩
    | rejected hphase _ hentry hdir => exact absurd (h.not_rejected hall hr hphase hentry) hdir
    | missing hphase hnone => exact ⟨history, h.missing hr hphase (hnone rfl) hgoes⟩
    | made hphase _ hfree _ => exact ⟨history, h.made hall hr hphase hfree hgoes⟩
    | reserved hphase _ hfree _ => exact ⟨_, h.reserved hall hr hphase hfree hgoes⟩
    | taken hphase htaken hmore => exact ⟨history, h.taken hr hphase (htaken rfl) hmore hgoes⟩
    | opened hphase _ hfree => exact ⟨history, h.opened hr hphase hfree hgoes⟩
    | failed hfails hmissing htaken =>
      -- only a directory that both calls miss can fail one
      obtain ⟨v, hv, huv, hshare⟩ := h.shareMissing hall hr (hfails rfl) hmissing htaken
      exact absurd hshare (hapart v hv huv)

end

/-! ## Every interleaving -/

/-- Calls that share no missing directory do not fail. -/
theorem Interleaving.merged {as : List SinkAction} (h : calls.Interleaving fs as w)
    (hall : calls.SucceedInEveryOrder fs)
    (hapart : ∀ u v, u < calls.count → v < calls.count → u ≠ v → ¬calls.ShareMissing fs u v) :
    ∃ history, calls.Merged fs history w := by
  refine (h.induction (P := fun _ w => ∃ history, calls.Merged fs history w) ⟨[], merged_start fs⟩ ?_).2
  intro _ _ _ u _ _ hmerged hcall hstep
  obtain ⟨history, hmerged⟩ := hmerged
  exact hmerged.step hall hcall (hapart u · hcall) hstep

/-- In an interleaving of calls that succeed in every order, no call fails. -/
theorem Merged.not_failed (h : calls.Merged fs history w) : ¬Failed w u := by
  rintro ⟨e, he⟩
  have hstands := h.stands u
  rw [he] at hstands
  exact hstands

/-- Creates that succeed in every order, interleaved: no interleaving goes on for ever, and all
    succeed in every interleaving exactly when no two of them need a directory that is missing at
    the start. -/
theorem creates_succeed_iff (hall : calls.SucceedInEveryOrder fs) :
    (∃ bound, ∀ as w, calls.Interleaving fs as w → as.length ≤ bound) ∧
      (calls.SucceedInEveryInterleaving fs ↔
        ∀ u v, u < calls.count → v < calls.count → u ≠ v → ¬calls.ShareMissing fs u v) := by
  refine ⟨⟨_, fun as w h => h.length_le⟩, ?_, ?_⟩
  · intro hsucceed u v hu hv huv hshare
    obtain ⟨as, w, x, h, hfailed⟩ := exists_failed_of_shareMissing hall hu hv huv hshare
    exact not_succeed_of_failed h hfailed hsucceed
  · intro hapart as w h hends u hu
    obtain ⟨history, hmerged⟩ := h.merged hall hapart
    rcases h.returned hends hu with hsucceeded | hfailed
    · exact hsucceeded
    · exact absurd hfailed hmerged.not_failed

/-- Two calls have two orders. -/
theorem succeedInEveryOrder_of_two (hcount : calls.count = 2) (h : (calls.inOrder [0, 1] fs).isSome)
    (h' : (calls.inOrder [1, 0] fs).isSome) : calls.SucceedInEveryOrder fs := by
  intro order hperm
  rw [hcount] at hperm
  have hrange : List.range 2 = [0, 1] := rfl
  rw [hrange] at hperm
  match order, hperm.length_eq with
  | [a, b], _ =>
    have ha : a = 0 ∨ a = 1 := by simpa using hperm.subset List.mem_cons_self
    have hb : b = 0 ∨
        b = 1 := by simpa using hperm.subset (List.mem_cons_of_mem _ List.mem_cons_self)
    have hne : a ≠ b := by simpa using hperm.nodup_iff.mpr (by decide)
    rcases ha with rfl | rfl <;> rcases hb with rfl | rfl
    · exact absurd rfl hne
    · exact h
    · exact h'
    · exact absurd rfl hne

end CreateCalls

namespace Scenario

/-- Two uploads into an empty save directory. -/
def twoUploads (first second : String) : CreateCalls where
  saveDir := ⟨[]⟩
  count := 2
  fileName u := if u = 0 then first else second
  uuid u := if u = 0 then "0" else "1"
  hyphenated u c hc := by
    right; left
    split at hc
    · have hc : c ∈ ['0'] := hc
      rw [List.mem_singleton.mp hc]
      rfl
    · have hc : c ∈ ['1'] := hc
      rw [List.mem_singleton.mp hc]
      rfl

/-- Both find that the folder is missing, and then both make it. -/
def bothMakeFolder : List SinkAction :=
  [.create 0 "holiday/a", .create 1 "holiday/b", .call 0 none "0", .call 1 none "1",
    .call 0 none "0", .call 1 none "1"]

end Scenario

namespace CreateCalls

/-- Two uploads of one new folder: they succeed in either order, but the second of two
    `create_dir` calls is told that the folder exists. -/
theorem not_succeed_same_folder :
    (Scenario.twoUploads "holiday/a" "holiday/b").SucceedInEveryOrder Scenario.emptyRoot ∧
      ¬(Scenario.twoUploads "holiday/a" "holiday/b").SucceedInEveryInterleaving
        Scenario.emptyRoot := by
  constructor
  · exact succeedInEveryOrder_of_two rfl (by decide) (by decide)
  · have hfails : (fileWorldSystem.exec (SinkWorld.start ⟨[]⟩ Scenario.emptyRoot)
        Scenario.bothMakeFolder).any (fun w => (w.receives 1).any fun r =>
          r.error = some (.failed "File exists (os error 17)")) = true := by decide
    obtain ⟨w, hw, herror⟩ := (Option.any_eq_true _ _).mp hfails
    have hacts : ∀ a ∈ Scenario.bothMakeFolder,
        (Scenario.twoUploads "holiday/a" "holiday/b").Acts a := by
      simp [Scenario.bothMakeFolder, Acts, Scenario.twoUploads]
    have hrun : (Scenario.twoUploads "holiday/a" "holiday/b").Interleaving Scenario.emptyRoot
        Scenario.bothMakeFolder w := ⟨hacts, hw⟩
    apply not_succeed_of_failed hrun (u := 1)
    obtain ⟨r, hr, herror⟩ := (Option.any_eq_true _ _).mp herror
    obtain ⟨_, ⟨_, rfl⟩ | ⟨_, hpending⟩ | hfailed⟩ := hrun.under.receives 1 r hr
    · contradiction
    · cases hr.symm.trans hpending
      cases herror
    · exact hfailed

/-- Two uploads of different new folders. -/
theorem creates_succeed_two_folders :
    (Scenario.twoUploads "a/x" "b/x").SucceedInEveryOrder Scenario.emptyRoot ∧
      (Scenario.twoUploads "a/x" "b/x").SucceedInEveryInterleaving Scenario.emptyRoot := by
  have hall : (Scenario.twoUploads "a/x" "b/x").SucceedInEveryOrder Scenario.emptyRoot :=
    succeedInEveryOrder_of_two rfl (by decide) (by decide)
  refine ⟨hall, (creates_succeed_iff hall).2.mpr ?_⟩
  have hchain : (Scenario.twoUploads "a/x" "b/x").chain 0 = ["a"] := by decide
  have hchain' : (Scenario.twoUploads "a/x" "b/x").chain 1 = ["b"] := by decide
  -- each call enters its own folder and no other
  have hfirst : ∀ (u : Nat) p, u < 2 → (Scenario.twoUploads "a/x" "b/x").Enters u p →
      p = ⟨if u = 0 then ["a"] else ["b"]⟩ := by
    rintro u p hu ⟨pre, hlen, hpre, hp⟩
    have hcases : u = 0 ∨ u = 1 := by omega
    rcases hcases with rfl | rfl
    · rw [hchain] at hpre
      rw [hp, hpre.eq_of_length_le hlen]
      rfl
    · rw [hchain'] at hpre
      rw [hp, hpre.eq_of_length_le hlen]
      rfl
  rintro (u : Nat) (v : Nat) hu hv huv ⟨p, hp, hp', _⟩
  have heq := (hfirst u p hu hp).symm.trans (hfirst v p hv hp')
  have hu : u < 2 := hu
  have hv : v < 2 := hv
  have hcases : (u = 0 ∧ v = 1) ∨ (u = 1 ∧ v = 0) := by omega
  rcases hcases with ⟨rfl, rfl⟩ | ⟨rfl, rfl⟩ <;> simp at heq

end CreateCalls

end LocalSend
