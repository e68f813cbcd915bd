import LocalSend.Core.SinkWorld
import LocalSend.Spec.SinkErrors
import Mathlib.Data.List.Nodup
import Mathlib.Data.List.Perm.Subperm

/-!
# Creates one after another

A finite set of `create` calls below one save directory, each run to its end before the next
begins. A `create` that succeeds has made the directories of its name that were missing, taken
the first candidate that was free, and put its temporary beside it; so what is on the disk after
some of them is told by the order they ran in and the candidate each of them took.

## Key results

- `alone_spec`: what a `create` finds and leaves when it succeeds alone
- `exists_fits`: when every order succeeds, a `create` can follow any serial history
-/

namespace LocalSend

/-- `create` calls below one save directory, numbered below `count`. `uuid u` is what
    `Uuid::new_v4` draws for call `u`, in its hyphenated form. -/
structure CreateCalls where
  saveDir : PathBuf
  count : Nat
  fileName : ReceiveId → String
  uuid : ReceiveId → String
  hyphenated : ∀ u, ∀ c ∈ (uuid u).toList, c = '-' ∨ c.isDigit ∨ ('a' ≤ c ∧ c ≤ 'f')

namespace CreateCalls

/-- Run creates one after another; `none` when one of them does not succeed. -/
def inOrder (calls : CreateCalls) :
    List ReceiveId → FileSystem PathBuf → Option (FileSystem PathBuf)
  | [], fs => some fs
  | u :: rest, fs =>
    let run := AtomicFileSink.createAlone (calls.uuid u) (fun _ => none) fs calls.saveDir
      (calls.fileName u)
    if run.result.createdPath.isSome then calls.inOrder rest run.fs else none

/-- The calls all succeed when they are run one after another, in every order. -/
def SucceedInEveryOrder (calls : CreateCalls) (fs : FileSystem PathBuf) : Prop :=
  ∀ order : List ReceiveId, order.Perm (List.range calls.count) → (calls.inOrder order fs).isSome

end CreateCalls

/-! ## One create that succeeds -/

/-- The name `reserve_free_name` tries at an attempt. -/
def nameAt (directory : PathBuf) (leaf : String) (attempt : Nat) : PathBuf :=
  directory.join [if attempt = 0 then leaf else collisionLeaf leaf attempt]

/-- One of the directories `chain` leads through below `saveDir`, past the first `done`. -/
def OnChain (saveDir : PathBuf) (chain : List String) (done : Nat) (p : PathBuf) : Prop :=
  ∃ pre, done < pre.length ∧ pre <+: chain ∧ p = saveDir.join pre

/-- A `create` that was past `done` components, and past the attempts before `first`, has gone
    on from `fs` to `fs'` and taken attempt `k`. -/
structure Created (saveDir : PathBuf) (chain : List String) (leaf uuid : String) (done first : Nat)
    (fs fs' : FileSystem PathBuf) (k : Nat) : Prop where
  base : chain.length ≤ done ∨ fs.entry (saveDir.join (chain.take (done + 1))) = none →
    fs.entry (saveDir.join (chain.take done)) = some .directory
  way : ∀ p, OnChain saveDir chain done p → fs.entry p = none ∨ fs.entry p = some .directory
  le : k ≤ maxCollisionAttempts
  taken : ∀ j, first ≤ j → j < k → fs.entry (nameAt (saveDir.join chain) leaf j) ≠ none
  free : fs.entry (nameAt (saveDir.join chain) leaf k) = none
  freeTemp : fs.entry ((saveDir.join chain).join [".localsend-" ++ uuid ++ ".part"]) = none
  apart : (saveDir.join chain).join [".localsend-" ++ uuid ++ ".part"] ≠
    nameAt (saveDir.join chain) leaf k
  entry : ∀ p, fs'.entry p = fs.entry p ∨
    (fs.entry p = none ∧ ((OnChain saveDir chain done p ∧ fs'.entry p = some .directory) ∨
      ((p = nameAt (saveDir.join chain) leaf k ∨
        p = (saveDir.join chain).join [".localsend-" ++ uuid ++ ".part"]) ∧
        ∃ i, fs'.entry p = some (.file i))))
  made : ∀ p, OnChain saveDir chain done p → fs'.entry p = some .directory
  reserved : ∃ i, fs'.entry (nameAt (saveDir.join chain) leaf k) = some (.file i)
  opened : ∃ i, fs'.entry ((saveDir.join chain).join [".localsend-" ++ uuid ++ ".part"]) =
    some (.file i)

section

variable {saveDir : PathBuf} {chain : List String} {leaf uuid : String} {done first k : Nat}
  {fs fs₁ fs' : FileSystem PathBuf}

/-- A file's parent is the directory it was named in. -/
theorem parent_join_singleton (p : PathBuf) (name : String) : (p.join [name]).parent = p := by
  simp [PathBuf.parent, PathBuf.join]

/-- What is in the directory of a receive is not on the way there. -/
theorem not_onChain_join (name : String) :
    ¬OnChain saveDir chain done ((saveDir.join chain).join [name]) := by
  rintro ⟨pre, _, hpre, heq⟩
  have hlen := congrArg (fun p => p.components.length) heq
  have hle := hpre.length_le
  simp only [PathBuf.join, List.length_append, List.length_singleton] at hlen
  omega

/-- The directories still to be made, after one step down. -/
theorem onChain_succ {pre : List String} {name : String} {rest : List String}
    (hchain : chain = pre ++ name :: rest) {p : PathBuf} :
    OnChain saveDir chain pre.length p ↔
      p = saveDir.join (pre ++ [name]) ∨ OnChain saveDir chain (pre.length + 1) p := by
  have hpre : pre ++ [name] <+: chain := ⟨rest, by simp [hchain]⟩
  constructor
  · rintro ⟨pre', hlen, hpre', rfl⟩
    by_cases hlen' : pre'.length = pre.length + 1
    · left
      congr 1
      apply (List.prefix_of_prefix_length_le hpre' hpre (by simp [hlen'])).eq_of_length
      simp [hlen']
    · exact .inr ⟨pre', by omega, hpre', rfl⟩
  · rintro (rfl | ⟨pre', hlen, hpre', rfl⟩)
    · exact ⟨pre ++ [name], by simp, hpre, rfl⟩
    · exact ⟨pre', by omega, hpre', rfl⟩

/-- What is made of a chain is its beginning. -/
theorem take_length {pre rest : List String} {name : String}
    (hchain : chain = pre ++ name :: rest) :
    chain.take pre.length = pre := by
  simp [hchain]

/-- One step down makes one more of the chain. -/
theorem take_succ {pre rest : List String} {name : String} (hchain : chain = pre ++ name :: rest) :
    chain.take (pre.length + 1) = pre ++ [name] := by
  have hsplit : chain = (pre ++ [name]) ++ rest := by simp [hchain]
  have hlen : pre.length + 1 = (pre ++ [name]).length := by simp
  rw [hlen, hsplit, List.take_left]

/-- A directory that is there already was entered. -/
theorem Created.entered {pre rest : List String} {name : String}
    (hchain : chain = pre ++ name :: rest)
    (hdir : fs.entry (saveDir.join (pre ++ [name])) = some .directory)
    (h : Created saveDir chain leaf uuid (pre.length + 1) first fs fs' k) :
    Created saveDir chain leaf uuid pre.length first fs fs' k where
  -- the directory was there before, so the chain had not ended
  base := by
    rintro (hlen | hnone)
    · simp only [hchain, List.length_append, List.length_cons] at hlen
      omega
    · rw [take_succ hchain] at hnone
      cases hnone.symm.trans hdir
  -- the one that was entered is a directory already
  way p hp := by
    rcases (onChain_succ hchain).mp hp with rfl | hp
    · exact .inr hdir
    · exact h.way p hp
  le := h.le
  taken := h.taken
  free := h.free
  freeTemp := h.freeTemp
  apart := h.apart
  entry p := by
    rcases h.entry p with hsame | ⟨hnone, hnew⟩
    · exact .inl hsame
    · refine .inr ⟨hnone, ?_⟩
      rcases hnew with ⟨hp, hdir⟩ | hfile
      · exact .inl ⟨(onChain_succ hchain).mpr (.inr hp), hdir⟩
      · exact .inr hfile
  -- what is a directory stays one
  made p hp := by
    rcases (onChain_succ hchain).mp hp with rfl | hp
    · rcases h.entry (saveDir.join (pre ++ [name])) with hsame | ⟨hnone, _⟩
      · rw [hsame, hdir]
      · cases hnone.symm.trans hdir
    · exact h.made p hp
  reserved := h.reserved
  opened := h.opened

/-- A directory that was missing was made. -/
theorem Created.madeDirectory {pre rest : List String} {name : String}
    (hchain : chain = pre ++ name :: rest) (hfree : fs.entry (saveDir.join (pre ++ [name])) = none)
    (hparent : fs.entry (saveDir.join pre) = some .directory)
    (h : Created saveDir chain leaf uuid (pre.length + 1) first
      (fs.setEntry (saveDir.join (pre ++ [name])) (some .directory) nofun) fs' k) :
    Created saveDir chain leaf uuid pre.length first fs fs' k := by
  have hpath : OnChain saveDir chain pre.length (saveDir.join (pre ++ [name])) :=
    (onChain_succ hchain).mpr (.inl rfl)
  -- what is named in the target directory is none of the chain
  have hne : ∀ name', (saveDir.join chain).join [name'] ≠ saveDir.join (pre ++ [name]) :=
    fun name' heq => not_onChain_join name' (heq ▸ hpath)
  have hlater : ∀ p, OnChain saveDir chain (pre.length + 1) p →
      p ≠ saveDir.join (pre ++ [name]) := by
    rintro _ ⟨pre', hlen, _, rfl⟩ heq
    have := congrArg List.length (PathBuf.join_inj heq)
    simp only [List.length_append, List.length_singleton] at this
    omega
  -- nothing removes the directory that was made
  have hmade : fs'.entry (saveDir.join (pre ++ [name])) = some .directory := by
    rcases h.entry (saveDir.join (pre ++ [name])) with hsame | ⟨hnone, _⟩
    · rw [hsame, FileSystem.entry_setEntry, if_pos rfl]
    · rw [FileSystem.entry_setEntry, if_pos rfl] at hnone
      simp at hnone
  have hname : ∀ name', (fs.setEntry (saveDir.join (pre ++ [name])) (some .directory) nofun).entry
      ((saveDir.join chain).join [name']) = fs.entry ((saveDir.join chain).join [name']) := by
    intro name'
    rw [FileSystem.entry_setEntry, if_neg (hne name')]
  -- the fields in their order, each read before the directory was made
  refine ⟨fun _ => ?_, fun p hp => ?_, h.le, fun j hj hjk => ?_, ?_, ?_, h.apart, fun p => ?_,
    fun p hp => ?_, h.reserved, h.opened⟩
  · rwa [take_length hchain]
  · rcases (onChain_succ hchain).mp hp with rfl | hp
    · exact .inl hfree
    · have hway := h.way p hp
      rwa [FileSystem.entry_setEntry, if_neg (hlater p hp)] at hway
  · have htaken := h.taken j hj hjk
    rwa [nameAt, hname] at htaken
  · have hfree := h.free
    rwa [nameAt, hname] at hfree
  · have hfree := h.freeTemp
    rwa [hname] at hfree
  -- the directory itself is the one entry that is new
  · by_cases hp : p = saveDir.join (pre ++ [name])
    · subst hp
      exact .inr ⟨hfree, .inl ⟨hpath, hmade⟩⟩
    · have hentry := h.entry p
      rw [FileSystem.entry_setEntry, if_neg hp] at hentry
      rcases hentry with hsame | ⟨hnone, hnew⟩
      · exact .inl hsame
      · refine .inr ⟨hnone, ?_⟩
        rcases hnew with ⟨hp, hdir⟩ | hfile
        · exact .inl ⟨(onChain_succ hchain).mpr (.inr hp), hdir⟩
        · exact .inr hfile
  · rcases (onChain_succ hchain).mp hp with rfl | hp
    · exact hmade
    · exact h.made p hp

/-- No component is left on the way. -/
theorem not_onChain_of_le (hdone : chain.length ≤ done) (p : PathBuf) :
    ¬OnChain saveDir chain done p := by
  rintro ⟨pre, hlen, hpre, _⟩
  have := hpre.length_le
  omega

/-- What a `create` still has to do, and has done when it succeeds. -/
def Comes (saveDir : PathBuf) (chain : List String) (leaf uuid : String)
    (fs fs' : FileSystem PathBuf) :
    CreatePhase → Prop
  | .inspecting current rest | .makingDirectory current rest =>
    ∀ pre name, current = saveDir.join (pre ++ [name]) → chain = pre ++ name :: rest →
      ∃ k, Created saveDir chain leaf uuid pre.length 0 fs fs' k
  | .reserving first => ∃ k, first ≤ k ∧ Created saveDir chain leaf uuid chain.length first fs fs' k
  | .openingTemp _ tempPath => fs.entry tempPath = none ∧ fs' = fs.newFile tempPath

/-- The walk goes on with the next component, or reserves. -/
theorem walkOn_eq {future : CreateFuture} {pre rest : List String} {name : String}
    (hplain : ".." ∉ chain) (hchain : chain = pre ++ name :: rest) :
    ∃ phase, future.walkOn (saveDir.join (pre ++ [name])) rest =
        .awaits (.creating ⟨future.directory, future.leaf, phase⟩) ∧
      ((rest = [] ∧ phase = .reserving 0) ∨ ∃ name' rest', rest = name' :: rest' ∧
        phase = .inspecting (saveDir.join (pre ++ [name] ++ [name'])) rest') := by
  cases rest with
  | nil => exact ⟨.reserving 0, rfl, .inl ⟨rfl, rfl⟩⟩
  | cons name' rest' =>
    have hname : name' ≠ ".." := by
      rintro rfl
      exact hplain (by simp [hchain])
    refine ⟨_, ?_, .inr ⟨name', rest', rfl, rfl⟩⟩
    simp [CreateFuture.walkOn, CreateFuture.walk, hname, PathBuf.join]

/-- The two files of a receive, made one after the other. -/
theorem created_of_reserved (hle : first ≤ maxCollisionAttempts)
    (hdir : fs.entry (saveDir.join chain) = some .directory)
    (hfree : fs.entry (nameAt (saveDir.join chain) leaf first) = none)
    (hfreeTemp : (fs.newFile (nameAt (saveDir.join chain) leaf first)).entry
      ((saveDir.join chain).join [".localsend-" ++ uuid ++ ".part"]) = none) :
    Created saveDir chain leaf uuid chain.length first fs
      ((fs.newFile (nameAt (saveDir.join chain) leaf first)).newFile
        ((saveDir.join chain).join [".localsend-" ++ uuid ++ ".part"])) first := by
  have hway := @not_onChain_of_le saveDir chain chain.length (Nat.le_refl _)
  -- the two files are apart, since both have been opened
  have hapart : (saveDir.join chain).join [".localsend-" ++ uuid ++ ".part"] ≠
      nameAt (saveDir.join chain) leaf first := by
    intro heq
    rw [heq, FileSystem.entry_newFile, if_pos rfl] at hfreeTemp
    simp at hfreeTemp
  rw [FileSystem.entry_newFile, if_neg hapart] at hfreeTemp
  refine ⟨fun _ => by rwa [List.take_length], fun p hp => absurd hp (hway p), hle,
    fun j hj hj' => absurd hj (by omega), hfree, hfreeTemp,
    hapart, fun p => ?_, fun p hp => absurd hp (hway p), ⟨fs.next, ?_⟩, ⟨fs.next + 1, ?_⟩⟩
  -- the two files are the only new entries
  · simp only [FileSystem.entry_newFile]
    by_cases htemp : p = (saveDir.join chain).join [".localsend-" ++ uuid ++ ".part"]
    · refine .inr ⟨htemp ▸ hfreeTemp, .inr ⟨.inr htemp, _, if_pos htemp⟩⟩
    · by_cases hp : p = nameAt (saveDir.join chain) leaf first
      · refine .inr ⟨hp ▸ hfree, .inr ⟨.inl hp, fs.next, ?_⟩⟩
        rw [if_neg htemp, if_pos hp]
      · rw [if_neg htemp, if_neg hp]
        exact .inl rfl
  · rw [FileSystem.entry_newFile, if_neg hapart.symm, FileSystem.entry_newFile, if_pos rfl]
  · rw [FileSystem.entry_newFile, if_pos rfl]
    rfl

/-- A `create` alone that succeeds has done what it had to. -/
theorem comes_of_run (uuid : String) (hplain : ".." ∉ chain) (n : Nat) (fs : FileSystem PathBuf)
    (phase : CreatePhase) (hbound : ∀ attempt, phase = .reserving attempt →
      attempt ≤ maxCollisionAttempts)
    (hok : ((SinkTask.creating ⟨saveDir.join chain, leaf, phase⟩).runFrom uuid (fun _ => none) n
      fs).result.createdPath.isSome) :
    Comes saveDir chain leaf uuid fs
      ((SinkTask.creating ⟨saveDir.join chain, leaf, phase⟩).runFrom uuid (fun _ => none) n fs).fs
      phase := by
  -- by induction on the calls that the future has left
  induction hb : (SinkTask.creating ⟨saveDir.join chain, leaf, phase⟩).budget using Nat.strongRecOn
    generalizing n fs phase with
  | ind b ih =>
    have hstep := createStep_of_resume fs none uuid ⟨saveDir.join chain, leaf, phase⟩
    have hrun := @SinkTask.runFrom_eq uuid (fun _ => none) n fs
      (.creating ⟨saveDir.join chain, leaf, phase⟩) _ rfl _ rfl
    -- every call that goes on leaves fewer of them
    have hlt : ∀ phase', CreateFuture.resume ⟨saveDir.join chain, leaf, phase⟩ (fs.answer none
        (CreateFuture.call ⟨saveDir.join chain, leaf, phase⟩)).1 uuid =
          .awaits (.creating ⟨saveDir.join chain, leaf, phase'⟩) →
        (SinkTask.creating ⟨saveDir.join chain, leaf, phase'⟩).budget < b := by
      intro phase' heq
      have hnext : (SinkTask.creating ⟨saveDir.join chain, leaf, phase⟩).resume (fs.answer none
          (CreateFuture.call ⟨saveDir.join chain, leaf, phase⟩)).1 uuid =
            some (.awaits (.creating ⟨saveDir.join chain, leaf, phase'⟩)) := congrArg some heq
      rw [← hb]
      exact (SinkTask.budget_lt hnext).1
    rw [hrun] at hok ⊢
    generalize hr : fs.answer none (CreateFuture.call ⟨saveDir.join chain, leaf, phase⟩) = r
      at hstep hlt hok ⊢
    generalize CreateFuture.resume ⟨saveDir.join chain, leaf, phase⟩ r.1 uuid = next
      at hstep hlt hok ⊢
    obtain ⟨reply, fs₁⟩ := r
    dsimp only at hstep hok ⊢
    -- what the future does in its next phase, once it has got there
    have hgo : ∀ phase', next = .awaits (.creating ⟨saveDir.join chain, leaf, phase'⟩) →
        (∀ attempt, phase' = .reserving attempt → attempt ≤ maxCollisionAttempts) →
        Comes saveDir chain leaf uuid fs₁
          (SinkTask.goOn uuid (fun _ => none) n fs₁
            (.creating ⟨saveDir.join chain, leaf, phase⟩) reply next).fs phase' := by
      intro phase' heq hbound'
      subst heq
      exact ih _ (hlt phase' rfl) (n + 1) fs₁ phase' hbound' hok rfl
    -- a component has been entered: what comes of the rest of the walk
    have hwalk : ∀ {pre rest name}, chain = pre ++ name :: rest →
        next = CreateFuture.walkOn ⟨saveDir.join chain, leaf, phase⟩
          (saveDir.join (pre ++ [name])) rest →
        ∃ k, Created saveDir chain leaf uuid (pre.length + 1) 0 fs₁
          (SinkTask.goOn uuid (fun _ => none) n fs₁
            (.creating ⟨saveDir.join chain, leaf, phase⟩) reply next).fs k := by
      intro pre rest name hchain heq
      obtain ⟨phase', hwalk, hphase'⟩ := @walkOn_eq saveDir chain
        ⟨saveDir.join chain, leaf, phase⟩ pre rest name hplain hchain
      have hcomes := hgo phase' (heq.trans hwalk)
      rcases hphase' with ⟨rfl, rfl⟩ | ⟨name', rest', rfl, rfl⟩
      · obtain ⟨k, _, hcreated⟩ := hcomes fun attempt h => by cases h; exact Nat.zero_le _
        have hlen : chain.length = pre.length + 1 := by simp [hchain]
        exact ⟨k, hlen ▸ hcreated⟩
      · have hcreated := hcomes (by simp) (pre ++ [name]) name' rfl (by simp [hchain])
        rwa [List.length_append, List.length_singleton] at hcreated
    -- the cases of one call, from the phase that makes it
    cases hstep with
    | entered hphase _ hdir =>
      cases hphase
      rintro pre name rfl hchain
      obtain ⟨k, hcreated⟩ := hwalk hchain rfl
      exact ⟨k, hcreated.entered hchain hdir⟩
    | made hphase _ hfree hparent =>
      cases hphase
      rintro pre name rfl hchain
      obtain ⟨k, hcreated⟩ := hwalk hchain rfl
      rw [PathBuf.parent_join_snoc] at hparent
      exact ⟨k, hcreated.madeDirectory hchain hfree hparent⟩
    -- nothing is there yet: the directory is made by the next call
    | missing hphase =>
      cases hphase
      exact hgo (.makingDirectory _ _) rfl (by simp)
    | reserved hphase _ hfree hparent =>
      cases hphase
      rw [CreateFuture.candidate, parent_join_singleton] at hparent
      obtain ⟨hfreeTemp, hfs'⟩ := hgo _ rfl (by simp)
      rw [hfs']
      exact ⟨_, Nat.le_refl _, created_of_reserved (hbound _ rfl) hparent hfree hfreeTemp⟩
    -- the next attempt starts where this one was taken
    | taken hphase htaken hmore =>
      cases hphase
      obtain ⟨k, hle, hcreated⟩ := hgo _ rfl fun attempt h => by cases h; exact hmore
      refine ⟨k, Nat.le_of_succ_le hle, hcreated.base, hcreated.way, hcreated.le,
        fun j hj hjk => ?_, hcreated.free,
        hcreated.freeTemp, hcreated.apart, hcreated.entry, hcreated.made, hcreated.reserved,
        hcreated.opened⟩
      rcases Nat.eq_or_lt_of_le hj with rfl | hlt
      · exact htaken rfl
      · exact hcreated.taken j hlt hjk
    | opened hphase _ hfree =>
      cases hphase
      exact ⟨hfree, rfl⟩
    -- these end the future without a file
    | rejected | failed => contradiction

end

/-- A remote name that is accepted has no `..` in it. -/
theorem relativeOf_plain {cs : List Component} (hcs : ∀ c ∈ cs, c ≠ .normal "..")
    {relative : List String} (h : relativeOf cs = some relative) : ".." ∉ relative := by
  induction cs generalizing relative with
  | nil =>
    cases h
    exact List.not_mem_nil
  | cons c cs ih =>
    have hcs' : ∀ c ∈ cs, c ≠ .normal ".." := fun c' hc' => hcs c' (List.mem_cons_of_mem _ hc')
    cases c with
    | normal part =>
      obtain ⟨rest, hrest, rfl⟩ := Option.map_eq_some_iff.mp h
      have hpart : part ≠ ".." := fun heq => hcs _ List.mem_cons_self (by rw [heq])
      simpa [Ne.symm hpart] using ih hcs' hrest
    | curDir => exact ih hcs' h
    | parentDir | rootDir => contradiction

/-- The directories of an accepted name never go up. -/
theorem parentChain_plain {fileName : String} {chain : List String}
    (h : parentChain fileName = some chain) : ".." ∉ chain := by
  obtain ⟨relative, hrelative, rfl⟩ := Option.map_eq_some_iff.mp h
  have hcomponents : ∀ c ∈ components fileName, c ≠ .normal ".." := by
    intro c hc
    rcases List.mem_append.mp hc with hc | hc
    · split at hc <;> simp_all
    · obtain ⟨segment, _, hsegment⟩ := List.mem_filterMap.mp hc
      rintro rfl
      unfold Component.ofSegment at hsegment
      split at hsegment
      · simp at hsegment
      · split at hsegment
        · simp at hsegment
        · cases hsegment
          contradiction
  exact fun hmem => relativeOf_plain hcomponents hrelative (List.dropLast_subset _ hmem)

/-- What a `create` finds and leaves when it succeeds alone. -/
theorem alone_spec {uuid : String} {fs : FileSystem PathBuf} {saveDir : PathBuf} {fileName : String}
    (hok : (AtomicFileSink.createAlone uuid (fun _ => none) fs saveDir
      fileName).result.createdPath.isSome) :
    ∃ future chain k, AtomicFileSink.create saveDir fileName = .ok future ∧
      parentChain fileName = some chain ∧
      Created saveDir chain future.leaf uuid 0 0 fs
        (AtomicFileSink.createAlone uuid (fun _ => none) fs saveDir fileName).fs k := by
  unfold AtomicFileSink.createAlone at hok ⊢
  cases hcreate : AtomicFileSink.create saveDir fileName with
  | error e => simp [hcreate, SinkStep.createdPath] at hok
  | ok future =>
    simp only [hcreate] at hok ⊢
    obtain ⟨chain, hchain, hdirectory, _, hwalk⟩ := AtomicFileSink.create_eq_ok hcreate
    have hplain := parentChain_plain hchain
    obtain ⟨directory, leaf, phase⟩ := future
    cases hdirectory
    -- a name without directories starts at its reservation
    cases chain with
    | nil =>
      cases hwalk
      obtain ⟨k, _, hcreated⟩ := comes_of_run uuid hplain 0 fs _
        (fun _ h => by cases h; exact Nat.zero_le _) hok
      exact ⟨_, [], k, rfl, hchain, hcreated⟩
    | cons name rest =>
      have hname : name ≠ ".." := fun heq => hplain (by simp [heq])
      simp only [CreateFuture.walkOn, CreateFuture.walk, hname, if_false] at hwalk
      cases hwalk
      have hcomes := comes_of_run uuid hplain 0 fs _ (by intro _ h; cases h) hok
      obtain ⟨k, hcreated⟩ := hcomes [] name rfl rfl
      exact ⟨_, name :: rest, k, rfl, hchain, hcreated⟩

/-! ## Creates in some order -/

namespace CreateCalls

variable (calls : CreateCalls)

/-- The directories the name of a call leads through. -/
def chain (u : ReceiveId) : List String := (parentChain (calls.fileName u)).getD []

def leaf (u : ReceiveId) : String :=
  match AtomicFileSink.create calls.saveDir (calls.fileName u) with
  | .ok future => future.leaf
  | .error _ => ""

def candidate (u : ReceiveId) (attempt : Nat) : PathBuf :=
  nameAt (calls.saveDir.join (calls.chain u)) (calls.leaf u) attempt

def temporary (u : ReceiveId) : PathBuf :=
  (calls.saveDir.join (calls.chain u)).join [".localsend-" ++ calls.uuid u ++ ".part"]

/-- A directory that call `u` enters or makes. -/
def Enters (u : ReceiveId) (p : PathBuf) : Prop := OnChain calls.saveDir (calls.chain u) 0 p

/-- After the calls of a history, each with the attempt that was free for it, there is something
    at `p`. -/
def TakenIn (fs : FileSystem PathBuf) (history : List (ReceiveId × Nat)) (p : PathBuf) : Prop :=
  fs.entry p ≠ none ∨ ∃ x ∈ history,
    calls.Enters x.1 p ∨ p = calls.candidate x.1 x.2 ∨ p = calls.temporary x.1

/-- There is something at `p` that is no directory. -/
def FileIn (fs : FileSystem PathBuf) (history : List (ReceiveId × Nat)) (p : PathBuf) : Prop :=
  (∃ e, fs.entry p = some e ∧ e ≠ .directory) ∨
    ∃ x ∈ history, p = calls.candidate x.1 x.2 ∨ p = calls.temporary x.1

/-- After a history, call `u` takes attempt `k`. -/
structure Fits (fs : FileSystem PathBuf) (history : List (ReceiveId × Nat)) (u : ReceiveId) (k : Nat) :
    Prop where
  way : ∀ p, calls.Enters u p → ¬calls.FileIn fs history p
  le : k ≤ maxCollisionAttempts
  taken : ∀ j, j < k → calls.TakenIn fs history (calls.candidate u j)
  free : ¬calls.TakenIn fs history (calls.candidate u k)
  freeTemp : ¬calls.TakenIn fs history (calls.temporary u)
  apart : calls.temporary u ≠ calls.candidate u k

/-- A history in which every call takes the first attempt that is free for it. -/
inductive Serial (fs : FileSystem PathBuf) : List (ReceiveId × Nat) → Prop
  | nil : Serial fs []
  | snoc {history u k} (before : Serial fs history) (hcall : u < calls.count)
    (hnew : u ∉ history.map Prod.fst) (hfits : calls.Fits fs history u k) :
    Serial fs (history ++ [(u, k)])

/-- A file system that is as a history tells. -/
def Describes (fs : FileSystem PathBuf) (history : List (ReceiveId × Nat))
    (fs' : FileSystem PathBuf) : Prop :=
  (∀ p, fs'.entry p ≠ none ↔ calls.TakenIn fs history p) ∧
    ∀ p, (∃ e, fs'.entry p = some e ∧ e ≠ .directory) ↔ calls.FileIn fs history p

variable {calls} {fs fs' fs'' : FileSystem PathBuf} {history : List (ReceiveId × Nat)}
    {u v : ReceiveId}
  {k : Nat}

/-- Two orders one after the other. -/
theorem inOrder_append (order rest : List ReceiveId) (fs : FileSystem PathBuf) :
    calls.inOrder (order ++ rest) fs = (calls.inOrder order fs).bind (calls.inOrder rest) := by
  induction order generalizing fs with
  | nil => rfl
  | cons u order ih =>
    simp only [List.cons_append, inOrder]
    split
    · exact ih _
    · rfl

/-- What succeeds in every order succeeds for any of the calls in any order. -/
theorem inOrder_isSome (hall : calls.SucceedInEveryOrder fs) {order : List ReceiveId}
    (hnodup : order.Nodup) (hcalls : ∀ u ∈ order, u < calls.count) :
    (calls.inOrder order fs).isSome := by
  have hsubset : order ⊆ List.range calls.count := fun u hu => List.mem_range.mpr (hcalls u hu)
  obtain ⟨order', hperm, hsub⟩ := List.subperm_of_subset hnodup hsubset
  obtain ⟨rest, hrest⟩ := hsub.exists_perm_append
  have hwhole := hall (order ++ rest) ((hperm.symm.append_right rest).trans hrest.symm)
  rw [inOrder_append] at hwhole
  cases h : calls.inOrder order fs with
  | none => simp [h] at hwhole
  | some fs' => rfl

/-- What a successful call has found and left. -/
theorem created_of_inOrder {rest : List ReceiveId} (h : (calls.inOrder (u :: rest) fs).isSome) :
    ∃ k fs', Created calls.saveDir (calls.chain u) (calls.leaf u) (calls.uuid u) 0 0 fs fs' k ∧
      calls.inOrder [u] fs = some fs' := by
  simp only [inOrder] at h ⊢
  split at h
  · rename_i hok
    obtain ⟨future, chain, k, hcreate, hchain, hcreated⟩ := alone_spec hok
    refine ⟨k, _, ?_, if_pos hok⟩
    have hchain' : calls.chain u = chain := by rw [CreateCalls.chain, hchain, Option.getD_some]
    have hleaf : calls.leaf u = future.leaf := by rw [CreateCalls.leaf, hcreate]
    rw [hchain', hleaf]
    exact hcreated
  · simp at h

/-- A call that finds what a history tells fits after it. -/
theorem fits_of_created (hdescribes : calls.Describes fs history fs')
    (hcreated : Created calls.saveDir (calls.chain u) (calls.leaf u) (calls.uuid u) 0 0 fs' fs'' k) :
    calls.Fits fs history u k where
  way p hp hfile := by
    obtain ⟨e, he, hdir⟩ := (hdescribes.2 p).mpr hfile
    rcases hcreated.way p hp with hnone | hentry
    · cases he.symm.trans hnone
    · exact hdir (Option.some.inj (he.symm.trans hentry))
  le := hcreated.le
  taken j hj := (hdescribes.1 _).mp (hcreated.taken j (Nat.zero_le _) hj)
  free htaken := (hdescribes.1 _).mpr htaken hcreated.free
  freeTemp htaken := (hdescribes.1 _).mpr htaken hcreated.freeTemp
  apart := hcreated.apart

/-- What a call leaves is told by the history with it at its end. -/
theorem describes_of_created (hdescribes : calls.Describes fs history fs')
    (hcreated : Created calls.saveDir (calls.chain u) (calls.leaf u) (calls.uuid u) 0 0 fs' fs'' k) :
    calls.Describes fs (history ++ [(u, k)]) fs'' := by
  -- the history is one call longer
  have hmem : ∀ P : ReceiveId × Nat → Prop, (∃ x ∈ history ++ [(u, k)], P x) ↔
      (∃ x ∈ history, P x) ∨ P (u, k) := by
    intro P
    constructor
    · rintro ⟨x, hx, hP⟩
      rcases List.mem_append.mp hx with hx | hx
      · exact .inl ⟨x, hx, hP⟩
      · rw [List.mem_singleton.mp hx] at hP
        exact .inr hP
    · rintro (⟨x, hx, hP⟩ | hP)
      · exact ⟨x, List.mem_append_left _ hx, hP⟩
      · exact ⟨_, List.mem_append_right _ (List.mem_singleton_self _), hP⟩
  constructor
  · intro p
    have hsplit : calls.TakenIn fs (history ++ [(u, k)]) p ↔ calls.TakenIn fs history p ∨
        (calls.Enters u p ∨ p = calls.candidate u k ∨ p = calls.temporary u) := by
      simp only [TakenIn, hmem, or_assoc]
    rw [hsplit, ← hdescribes.1]
    -- what is there was there before, or the call has added it
    constructor
    · intro hp
      rcases hcreated.entry p with hsame | ⟨_, ⟨hway, _⟩ | ⟨hname, _⟩⟩
      · exact .inl (hsame ▸ hp)
      · exact .inr (.inl hway)
      · exact .inr (.inr hname)
    -- and everything that is said to be there is
    · rintro (hp | hway | rfl | rfl)
      · rcases hcreated.entry p with hsame | ⟨hnone, _⟩
        · rwa [hsame]
        · exact absurd hnone hp
      · rw [hcreated.made p hway]
        nofun
      · obtain ⟨i, hi⟩ := hcreated.reserved
        exact fun hnone => (by cases hi.symm.trans hnone)
      · obtain ⟨i, hi⟩ := hcreated.opened
        exact fun hnone => (by cases hi.symm.trans hnone)
  · intro p
    have hsplit : calls.FileIn fs (history ++ [(u, k)]) p ↔ calls.FileIn fs history p ∨
        (p = calls.candidate u k ∨ p = calls.temporary u) := by
      simp only [FileIn, hmem, or_assoc]
    rw [hsplit, ← hdescribes.2]
    -- a file that is not a directory is one of the two names, or was there before
    constructor
    · rintro ⟨e, he, hdir⟩
      rcases hcreated.entry p with hsame | ⟨_, ⟨_, hmade⟩ | ⟨hname, _⟩⟩
      · exact .inl ⟨e, hsame ▸ he, hdir⟩
      · exact absurd (Option.some.inj (he.symm.trans hmade)) hdir
      · exact .inr hname
    · rintro (⟨e, he, hdir⟩ | rfl | rfl)
      · rcases hcreated.entry p with hsame | ⟨hnone, _⟩
        · exact ⟨e, hsame ▸ he, hdir⟩
        · cases he.symm.trans hnone
      · obtain ⟨i, hi⟩ := hcreated.reserved
        exact ⟨_, hi, by simp⟩
      · obtain ⟨i, hi⟩ := hcreated.opened
        exact ⟨_, hi, by simp⟩

/-- There is one first free attempt. -/
theorem Fits.unique {k' : Nat} (h : calls.Fits fs history u k) (h' : calls.Fits fs history u k') :
    k = k' := by
  rcases Nat.lt_trichotomy k k' with hlt | heq | hlt
  · exact absurd (h'.taken k hlt) h.free
  · exact heq
  · exact absurd (h.taken k' hlt) h'.free

/-- A history tells each call once, and only the calls there are. -/
theorem Serial.calls_lt (h : calls.Serial fs history) :
    (history.map Prod.fst).Nodup ∧ ∀ u ∈ history.map Prod.fst, u < calls.count := by
  induction h with
  | nil => exact ⟨List.nodup_nil, by simp⟩
  | @snoc history u k _ hcall hnew _ ih =>
    rw [List.map_append]
    refine ⟨List.nodup_append.mpr ⟨ih.1, List.nodup_singleton _, ?_⟩, fun v hv => ?_⟩
    · rintro v hv _ hv' rfl
      have heq : v = u := List.mem_singleton.mp hv'
      exact hnew (heq ▸ hv)
    · rcases List.mem_append.mp hv with hv | hv
      · exact ih.2 v hv
      · rw [List.map_singleton, List.mem_singleton] at hv
        exact hv ▸ hcall

/-- A call that has not run can run next. -/
theorem Serial.next (hall : calls.SucceedInEveryOrder fs) (h : calls.Serial fs history)
    (hrun : calls.inOrder (history.map Prod.fst) fs = some fs') (hcall : u < calls.count)
    (hnew : u ∉ history.map Prod.fst) : ∃ k fs'',
      Created calls.saveDir (calls.chain u) (calls.leaf u) (calls.uuid u) 0 0 fs' fs'' k ∧
        calls.inOrder (history.map Prod.fst ++ [u]) fs = some fs'' := by
  obtain ⟨hnodup, hlt⟩ := h.calls_lt
  have hsome : (calls.inOrder (history.map Prod.fst ++ [u]) fs).isSome := by
    refine inOrder_isSome hall (List.nodup_append.mpr ⟨hnodup, List.nodup_singleton _, ?_⟩) ?_
    · rintro v hv _ hv' rfl
      exact hnew (List.mem_singleton.mp hv' ▸ hv)
    · intro v hv
      rcases List.mem_append.mp hv with hv | hv
      · exact hlt v hv
      · rw [List.mem_singleton.mp hv]
        exact hcall
  rw [inOrder_append, hrun, Option.bind_some] at hsome ⊢
  exact created_of_inOrder hsome

/-- A serial history is what comes of running its calls in their order. -/
theorem Serial.run (hall : calls.SucceedInEveryOrder fs) (h : calls.Serial fs history) :
    ∃ fs', calls.inOrder (history.map Prod.fst) fs = some fs' ∧ calls.Describes fs history fs' := by
  induction h with
  | nil =>
    refine ⟨fs, rfl, fun p => ?_, fun p => ?_⟩
    · simp [TakenIn]
    · simp [FileIn]
  | snoc before hcall hnew hfits ih =>
    obtain ⟨fs', hrun, hdescribes⟩ := ih
    obtain ⟨k, fs'', hcreated, hrun'⟩ := before.next hall hrun hcall hnew
    cases hfits.unique (fits_of_created hdescribes hcreated)
    refine ⟨fs'', ?_, describes_of_created hdescribes hcreated⟩
    rw [List.map_append]
    exact hrun'

/-- When every order succeeds, a call can follow any serial history of others. -/
theorem Serial.exists_fits (hall : calls.SucceedInEveryOrder fs) (h : calls.Serial fs history)
    (hcall : u < calls.count) (hnew : u ∉ history.map Prod.fst) :
    ∃ k, calls.Fits fs history u k := by
  obtain ⟨fs', hrun, hdescribes⟩ := h.run hall
  obtain ⟨k, _, hcreated, _⟩ := h.next hall hrun hcall hnew
  exact ⟨k, fits_of_created hdescribes hcreated⟩

/-! ## What the calls have to do with each other -/

section

variable (hall : calls.SucceedInEveryOrder fs)

include hall

/-- The first of the calls finds a place for what it makes. -/
theorem base_directory (hcall : u < calls.count)
    (h : calls.chain u = [] ∨ fs.entry (calls.saveDir.join ((calls.chain u).take 1)) = none) :
    fs.entry calls.saveDir = some .directory := by
  obtain ⟨k, _, hcreated, _⟩ := Serial.nil.next hall rfl hcall List.not_mem_nil
  have hbase := hcreated.base (h.imp (fun hnil => by simp [hnil]) id)
  rwa [List.take_zero, PathBuf.join_nil] at hbase

/-- Every call gives a future: its name is accepted. -/
theorem create_eq_ok_of_call (hcall : u < calls.count) :
    ∃ future, AtomicFileSink.create calls.saveDir (calls.fileName u) = .ok future ∧
      future.leaf = calls.leaf u ∧ parentChain (calls.fileName u) = some (calls.chain u) := by
  have hsome := inOrder_isSome hall (List.nodup_singleton u) (by simpa using hcall)
  simp only [inOrder] at hsome
  split at hsome
  · rename_i hok
    obtain ⟨future, chain, _, hcreate, hchain, _⟩ := alone_spec hok
    exact ⟨future, hcreate, by rw [CreateCalls.leaf, hcreate],
      by rw [CreateCalls.chain, hchain, Option.getD_some]⟩
  · simp at hsome

omit hall in
/-- A joined name tells its directory and its last component. -/
theorem join_singleton_inj {p q : PathBuf} {a b : String} (h : p.join [a] = q.join [b]) :
    p = q ∧ a = b := by
  obtain ⟨components⟩ := p
  obtain ⟨components'⟩ := q
  have happend : components ++ [a] = components' ++ [b] := congrArg PathBuf.components h
  obtain ⟨rfl, hlast⟩ := List.append_inj' happend rfl
  exact ⟨rfl, (List.cons.inj hlast).1⟩

omit hall in
/-- No temporary has a collision name. -/
theorem temporary_ne_collisionLeaf (leaf : String) (attempt : Nat) :
    ".localsend-" ++ calls.uuid u ++ ".part" ≠ collisionLeaf leaf attempt := by
  intro heq
  have hmem : '(' ∈ (".localsend-" ++ calls.uuid u ++ ".part").toList := by
    rw [heq]
    simp [collisionLeaf]
  have huuid : '(' ∈ (calls.uuid u).toList := by simpa using hmem
  have hchar := calls.hyphenated u '(' huuid
  revert hchar
  decide

/-- No call takes the name of a temporary. -/
theorem candidate_ne_temporary (hu : u < calls.count) (hv : v < calls.count) (k : Nat) :
    calls.candidate u k ≠ calls.temporary v := by
  intro heq
  cases k with
  | succ k =>
    obtain ⟨_, hname⟩ := join_singleton_inj heq
    exact temporary_ne_collisionLeaf _ _ hname.symm
  | zero =>
    -- alone, `u` takes its first candidate, after which `v` has no place for its temporary
    obtain ⟨k', hfits⟩ := Serial.nil.exists_fits hall hu List.not_mem_nil
    obtain ⟨_, hfits'⟩ := Serial.nil.exists_fits hall hv List.not_mem_nil
    have hk' : k' = 0 := by
      by_contra hne
      have htaken := hfits.taken 0 (by omega)
      rw [heq] at htaken
      exact hfits'.freeTemp htaken
    subst hk'
    by_cases huv : u = v
    · subst huv
      exact hfits.apart heq.symm
    · have hserial : calls.Serial fs ([] ++ [(u, 0)]) := .snoc .nil hu List.not_mem_nil hfits
      obtain ⟨_, hafter⟩ := hserial.exists_fits hall hv (by simpa using Ne.symm huv)
      exact hafter.freeTemp (.inr ⟨(u, 0), by simp, .inr (.inl heq.symm)⟩)

/-- Every call has a temporary of its own, that no other call needs as a directory. -/
theorem temporary_apart (hu : u < calls.count) (hv : v < calls.count) (huv : u ≠ v) :
    calls.temporary u ≠ calls.temporary v ∧ ¬calls.Enters v (calls.temporary u) := by
  obtain ⟨k, hfits⟩ := Serial.nil.exists_fits hall hu List.not_mem_nil
  have hserial : calls.Serial fs ([] ++ [(u, k)]) := .snoc .nil hu List.not_mem_nil hfits
  obtain ⟨_, hafter⟩ := hserial.exists_fits hall hv (by simpa using Ne.symm huv)
  constructor
  · intro heq
    exact hafter.freeTemp (.inr ⟨(u, k), by simp, .inr (.inr heq.symm)⟩)
  · intro henters
    exact hafter.way _ henters (.inr ⟨(u, k), by simp, .inr rfl⟩)

/-- What a call takes after a history is needed by no other call as a directory. -/
theorem Fits.candidate_not_enters (hserial : calls.Serial fs history)
    (hfits : calls.Fits fs history u k) (hu : u < calls.count) (hnew : u ∉ history.map Prod.fst)
    (hv : v < calls.count) (hnew' : v ∉ history.map Prod.fst) (huv : u ≠ v) :
    ¬calls.Enters v (calls.candidate u k) := by
  intro henters
  obtain ⟨_, hafter⟩ := (hserial.snoc hu hnew hfits).exists_fits hall hv (by
    rw [List.map_append, List.mem_append]
    rintro (hmem | hmem)
    · exact hnew' hmem
    · exact huv (List.mem_singleton.mp hmem).symm)
  exact hafter.way _ henters (.inr ⟨(u, k), by simp, .inl rfl⟩)

end

end CreateCalls

end LocalSend
