import LocalSend.Spec.CreateSteps
import LocalSend.Spec.ReceiveSteps

/-!
# A save directory in a tree

Seen from a save directory that leads to the real directory `root`, a tree is a file system in
which every entry is where its path says, as long as the paths that are used lead through real
directories. The receives over the tree then take the steps of the receives over that file
system.

## Key results

- `locate_join`: a path through real directories is where its names say
- `answer_seenFrom`: a call on such paths is answered alike by the tree and by its view
- `step_map`: receives whose calls are answered alike take the same steps
-/

namespace LocalSend

/-- What a tree looks like below a save directory that leads to `root`. -/
def seenFrom (saveDir : PathBuf) (root : Location) (t : FileTree) : FileSystem PathBuf where
  entry p := (p.stripPrefix saveDir).bind fun relative =>
    (t.node (root ++ relative)).map TreeNode.entry
  content := t.content
  next := t.next
  used p i h := by
    obtain ⟨relative, _, h⟩ := Option.bind_eq_some_iff.mp h
    obtain ⟨n, hn, hi⟩ := Option.map_eq_some_iff.mp h
    cases n with
    | file j =>
      cases hi
      exact t.used _ _ hn
    | directory | symlink => exact nomatch hi

/-- A real directory below the save directory. -/
def RealDirectory (fs : FileSystem PathBuf) (saveDir p : PathBuf) : Prop :=
  ∃ relative, ".." ∉ relative ∧ p = saveDir.join relative ∧ fs.entry p = some .directory

/-- A path to something in a real directory below the save directory. -/
def InPlace (fs : FileSystem PathBuf) (saveDir p : PathBuf) : Prop :=
  ∃ directory name, RealDirectory fs saveDir directory ∧ name ≠ ".." ∧ p = directory.join [name]

/-- A call all of whose paths are in place. -/
def CallInPlace (fs : FileSystem PathBuf) (saveDir : PathBuf) : FsCall PathBuf → Prop
  | .symlinkMetadata p | .createDir p | .openNew p | .removeFile p => InPlace fs saveDir p
  | .rename p q => InPlace fs saveDir p ∧ InPlace fs saveDir q
  | .openDirectory p => RealDirectory fs saveDir p
  | .sync _ | .syncDirectory _ => True

variable {t t' : FileTree} {saveDir p : PathBuf} {root : Location}

theorem entry_seenFrom (relative : List String) :
    (seenFrom saveDir root t).entry (saveDir.join relative) =
      (t.node (root ++ relative)).map TreeNode.entry := by
  simp only [seenFrom, PathBuf.stripPrefix_eq_some.mpr rfl, Option.bind_some]

/-- A real directory is seen as one. -/
theorem node_of_seen_directory {relative : List String}
    (h : (seenFrom saveDir root t).entry (saveDir.join relative) = some .directory) :
    t.node (root ++ relative) = some .directory := by
  rw [entry_seenFrom] at h
  obtain ⟨n, hn, hentry⟩ := Option.map_eq_some_iff.mp h
  cases n with
  | directory => exact hn
  | file | symlink => simp at hentry

/-- A path through real directories leads where its names say. -/
theorem resolve_join (hroot : t.resolve saveDir.components = .ok root) {relative : List String}
    (hplain : ".." ∉ relative) (hdir : t.node (root ++ relative) = some .directory) :
    t.resolve (saveDir.join relative).components = .ok (root ++ relative) := by
  have happend := t.walk_append FileTree.maxLinks t.base saveDir.components relative
  rw [show t.walk FileTree.maxLinks t.base saveDir.components = .ok root from hroot] at happend
  exact happend.trans (FileTree.walk_names _ hplain hdir)

theorem locate_join (hroot : t.resolve saveDir.components = .ok root) {relative : List String}
    {name : String} (hplain : ".." ∉ relative) (hname : name ≠ "..")
    (hdir : t.node (root ++ relative) = some .directory) :
    t.locate (saveDir.join (relative ++ [name])).components =
      .ok (root ++ (relative ++ [name])) := by
  have hcomponents : (saveDir.join (relative ++ [name])).components =
      (saveDir.join relative).components ++ [name] := by simp [PathBuf.join]
  rw [hcomponents, FileTree.locate]
  simp only [List.getLast?_concat, if_neg hname, List.dropLast_concat,
    resolve_join hroot hplain hdir, Except.map, List.append_assoc]

/-- Where a path that is in place leads, and what its directory and itself are seen as. -/
theorem InPlace.locate (hroot : t.resolve saveDir.components = .ok root)
    (h : InPlace (seenFrom saveDir root t) saveDir p) :
    ∃ relative, relative ≠ [] ∧ p = saveDir.join relative ∧
      t.locate p.components = .ok (root ++ relative) ∧
      t.node (root ++ relative).dropLast = some .directory ∧
      (seenFrom saveDir root t).hasParent p = true := by
  obtain ⟨_, name, ⟨relative, hplain, rfl, hdir⟩, hname, rfl⟩ := h
  have hjoin : (saveDir.join relative).join [name] = saveDir.join (relative ++ [name]) := by
    simp [PathBuf.join]
  have hnode := node_of_seen_directory hdir
  rw [hjoin]
  refine ⟨relative ++ [name], by simp, rfl, locate_join hroot hplain hname hnode, ?_, ?_⟩
  · rw [← List.append_assoc, List.dropLast_concat]
    exact hnode
  · have hparent : ParentPath.parent (saveDir.join (relative ++ [name])) =
        saveDir.join relative := by
      simp [ParentPath.parent, PathBuf.parent, PathBuf.join, ← List.append_assoc]
    simp [FileSystem.hasParent, hparent, hdir]

/-- One node changed is one entry changed. -/
theorem entry_seenFrom_update {relative : List String} {n : Option TreeNode}
    (hnode : ∀ l, t'.node l = if l = root ++ relative then n else t.node l) (q : PathBuf) :
    (seenFrom saveDir root t').entry q =
      if q = saveDir.join relative then n.map TreeNode.entry
      else (seenFrom saveDir root t).entry q := by
  by_cases hq : ∃ relative', q = saveDir.join relative'
  · obtain ⟨relative', rfl⟩ := hq
    rw [entry_seenFrom, entry_seenFrom, hnode]
    by_cases heq : relative' = relative
    · simp [heq]
    · simp [heq, PathBuf.join]
  · have hnone : q.stripPrefix saveDir = none :=
      Option.eq_none_iff_forall_ne_some.mpr fun r hr => hq ⟨r, PathBuf.stripPrefix_eq_some.mp hr⟩
    rw [if_neg fun heq => hq ⟨relative, heq⟩]
    simp [seenFrom, hnone]

theorem seenFrom_setNode {relative : List String} (n : Option TreeNode) {hused hparent hleaf}
    {e : Option FsEntry} (he : e = n.map TreeNode.entry) {hentry} :
    seenFrom saveDir root (t.setNode (root ++ relative) n hused hparent hleaf) =
      (seenFrom saveDir root t).setEntry (saveDir.join relative) e hentry := by
  refine FileSystem.eq_of_fields (funext fun q => ?_) rfl rfl
  rw [FileSystem.entry_setEntry, he]
  exact entry_seenFrom_update (fun l => FileTree.node_setNode ..) q

theorem seenFrom_newFile {relative : List String} {hparent hfree} :
    seenFrom saveDir root (t.newFile (root ++ relative) hparent hfree) =
      (seenFrom saveDir root t).newFile (saveDir.join relative) := by
  refine FileSystem.eq_of_fields (funext fun q => ?_) rfl rfl
  rw [FileSystem.entry_newFile]
  exact entry_seenFrom_update (fun l => FileTree.node_newFile ..) q

/-- A call on paths that are in place is answered alike, and does the same. -/
theorem answer_seenFrom (hroot : t.resolve saveDir.components = .ok root) (fault : Option FsError)
    {c : FsCall PathBuf} (hc : CallInPlace (seenFrom saveDir root t) saveDir c) :
    Disk.answer (seenFrom saveDir root t) fault c =
      ((Disk.answer t fault c).1, seenFrom saveDir root (Disk.answer t fault c).2) := by
  -- a call that fails by a fault reads nothing
  cases fault with
  | some e => rfl
  | none =>
  show (seenFrom saveDir root t).run c = ((t.run (c.map PathBuf.components)).1,
    seenFrom saveDir root (t.run (c.map PathBuf.components)).2)
  cases c with
  | sync | syncDirectory => rfl
  -- a directory that is seen is a directory of the tree
  | openDirectory p =>
    obtain ⟨relative, hplain, rfl, hdir⟩ := hc
    have hresolve := resolve_join hroot hplain (node_of_seen_directory hdir)
    simp [FileSystem.run, hdir, FsCall.map, FileTree.run, hresolve, FileTree.atPath]
  | symlinkMetadata p =>
    obtain ⟨relative, _, rfl, hlocate, _⟩ := InPlace.locate hroot hc
    simp only [FileSystem.run, FsCall.map, FileTree.run, hlocate, FileTree.atPath, entry_seenFrom]
    cases t.node (root ++ relative) <;> rfl
  -- the parent is seen, so only the name itself decides
  | createDir p =>
    obtain ⟨relative, _, rfl, hlocate, hparent, hseen⟩ := InPlace.locate hroot hc
    simp only [FileSystem.run, FsCall.map, FileTree.run, hlocate, FileTree.atPath, entry_seenFrom,
      hseen, hparent, ne_eq, not_true_eq_false, dite_false, Bool.not_true, Bool.false_eq_true, if_false]
    by_cases hfree : t.node (root ++ relative) = none
    · simp only [hfree, Option.map_none, Option.isSome_none, Bool.false_eq_true, if_false,
        not_true_eq_false, dite_false, Prod.mk.injEq, true_and]
      exact (seenFrom_setNode (some .directory) rfl).symm
    · simp [hfree, Option.isSome_iff_ne_none]
  | openNew p =>
    obtain ⟨relative, _, rfl, hlocate, hparent, hseen⟩ := InPlace.locate hroot hc
    simp only [FileSystem.run, FsCall.map, FileTree.run, hlocate, FileTree.atPath, entry_seenFrom,
      hseen, hparent, ne_eq, not_true_eq_false, dite_false, Bool.not_true, Bool.false_eq_true, if_false]
    by_cases hfree : t.node (root ++ relative) = none
    · simp [hfree, seenFrom_newFile]
      rfl
    · simp [hfree, Option.isSome_iff_ne_none]
  -- the name is resolved to its place, and by what is there
  | removeFile p =>
    obtain ⟨relative, _, rfl, hlocate, _⟩ := InPlace.locate hroot hc
    have hentry := @entry_seenFrom t saveDir root relative
    simp only [FsCall.map, FileSystem.run]
    cases hn : t.node (root ++ relative) with
    | none =>
      rw [hn] at hentry
      rw [FileTree.run_removeFile_none hlocate hn]
      split <;> simp_all
    | some n =>
      rw [hn] at hentry
      by_cases hdir : n = .directory
      · rw [FileTree.run_removeFile_directory hlocate (hdir ▸ hn)]
        split <;> simp_all
      · rw [FileTree.run_removeFile hlocate hn hdir]
        have hseen : n.entry ≠ .directory := by simpa using hdir
        split
        · simp_all
        · rename_i he
          exact absurd (Option.some.inj (hentry.symm.trans he)) hseen
        · simp only [Prod.mk.injEq, true_and]
          exact (seenFrom_setNode none rfl).symm
  -- as for the removal, with a place to go to
  | rename p q =>
    obtain ⟨relative, _, rfl, hlocate, _⟩ := InPlace.locate hroot hc.1
    obtain ⟨relative', _, rfl, hlocate', hparent', hseen'⟩ := InPlace.locate hroot hc.2
    have hentry := @entry_seenFrom t saveDir root relative
    have hentry' := @entry_seenFrom t saveDir root relative'
    simp only [FsCall.map, FileSystem.run]
    cases hn : t.node (root ++ relative) with
    | none =>
      rw [hn] at hentry
      rw [FileTree.run_rename_none hlocate hn]
      split <;> simp_all
    | some n =>
      rw [hn] at hentry
      by_cases hdir : n = .directory
      · rw [FileTree.run_rename_directory hlocate (hdir ▸ hn)]
        split <;> simp_all
      · rw [FileTree.run_rename hlocate hn hdir hlocate' hparent']
        have hseen : n.entry ≠ .directory := by simpa using hdir
        split
        · simp_all
        · rename_i he
          exact absurd (Option.some.inj (hentry.symm.trans he)) hseen
        · rename_i e _ he
          obtain rfl : n.entry = e := Option.some.inj (hentry.symm.trans he)
          -- two names below the save directory are one where their places are
          have hsame : (saveDir.join relative = saveDir.join relative') ↔
              root ++ relative = root ++ relative' := by simp [PathBuf.join]
          have hleaf : (seenFrom saveDir root t).entry (saveDir.join relative') = some .directory ↔
              t.node (root ++ relative') = some .directory := by
            rw [hentry']
            cases t.node (root ++ relative') <;> simp
          simp only [hseen', hleaf, hsame, Bool.not_true, Bool.false_eq_true, if_false]
          split
          · rfl
          split
          · rfl
          · refine congrArg (Prod.mk _) (FileSystem.eq_of_fields (funext fun x => ?_) rfl rfl)
            rw [entry_seenFrom_update (fun l => FileTree.node_setNode ..) x,
              entry_seenFrom_update (fun l => FileTree.node_setNode ..) x]
            simp only [FileSystem.entry_setEntry]
            rfl

/-! ## Receives over a view -/

namespace SinkWorld

variable {σ τ : Type} [Disk σ] [Disk τ] {f : σ → τ} {w : SinkWorld σ}

omit [Disk σ] [Disk τ] in
/-- The same receives, with the disk seen as something else. -/
def map (f : σ → τ) (w : SinkWorld σ) : SinkWorld τ where
  saveDir := w.saveDir
  fs := f w.fs
  receives := w.receives
  writes := w.writes
  failed := w.failed
  owner := w.owner
  accepted := w.accepted

/-- A call that is answered alike has the same effect on the receives. -/
theorem runCall_map {u : ReceiveId} {fault : Option FsError} {c : FsCall PathBuf}
    (h : Disk.answer (f w.fs) fault c = ((Disk.answer w.fs fault c).1,
      f (Disk.answer w.fs fault c).2)) :
    (w.map f).runCall u fault c = ((w.runCall u fault c).1, (w.runCall u fault c).2.map f) := by
  have hfs : (w.map f).fs = f w.fs := rfl
  simp only [runCall, hfs, h]
  rfl

/-- Receives whose calls are answered alike take the same steps. -/
theorem step_map
    (hanswer : ∀ u r c fault, w.receives u = some r → r.call = some c →
      Disk.answer (f w.fs) fault c = ((Disk.answer w.fs fault c).1, f (Disk.answer w.fs fault c).2))
    (happend : ∀ i bytes, Disk.append (f w.fs) i bytes = f (Disk.append w.fs i bytes))
    (a : SinkAction) : (w.map f).step a = (w.step a).map (map f) := by
  have hreceives : (w.map f).receives = w.receives := rfl
  have hwrites : (w.map f).writes = w.writes := rfl
  have hfailed : (w.map f).failed = w.failed := rfl
  cases a with
  | create u fileName =>
    simp only [step, hreceives]
    split
    · rfl
    · have hdir : (w.map f).saveDir = w.saveDir := rfl
      rw [hdir]
      split <;> rfl
  -- the call under way gets the same answer in both
  | call u fault uuid =>
    simp only [step, hreceives]
    split
    · rename_i s hr
      cases hc : s.call with
      | none => rfl
      | some c =>
        have hcall := @runCall_map σ τ _ _ f w u fault c (hanswer u _ c fault hr hc)
        simp only [Option.bind_some]
        have hcalled : (w.map f).answerCall u s fault c =
            (w.answerCall u s fault c).map fun r => (r.1, r.2.map f) := by
          unfold answerCall
          -- a sink that waits for a write, and one that does not
          split
          · rw [hwrites, hfailed]
            split
            · rfl
            · split
              · rfl
              · simp only [hcall, Option.map_some]
          · simp only [hcall, Option.map_some]
        rw [hcalled]
        cases w.answerCall u s fault c with
        | none => rfl
        | some r =>
          simp only [Option.map_some, Option.bind_some]
          cases s.resume r.1 uuid <;> rfl
    · rfl
  | write u chunk =>
    simp only [step, hreceives, hwrites, hfailed]
    split
    · split
      · rfl
      · rename_i file _ _
        cases file.temp <;> rfl
    · rfl
  | writeCall u n fault =>
    simp only [step, hwrites]
    cases w.writes u with
    | none => rfl
    | some x =>
      have hfs : (w.map f).fs = f w.fs := rfl
      simp only [Option.map_some, runWrite, hfs, happend, hwrites, hfailed]
      rfl
  | commit u =>
    simp only [step, hreceives]
    split
    · rename_i file _
      cases file.commit <;> rfl
    · rfl
  | abort u =>
    simp only [step, hreceives]
    split <;> rfl
  | drop u =>
    simp only [step, hreceives]
    split
    · split <;> rfl
    · rfl
  -- the removal of a temporary is a call as well
  | removal u fault =>
    simp only [step, hreceives]
    split
    · rename_i hr
      rw [runCall_map (hanswer u _ _ fault hr rfl)]
      rfl
    · rename_i hr
      rw [runCall_map (hanswer u _ _ fault hr rfl)]
      rfl
    · rfl
  | detachedCall u fault =>
    simp only [step, hreceives]
    split
    · rename_i s hr
      cases hc : s.call with
      | none => rfl
      | some c =>
        simp only [Option.map_some]
        rw [runCall_map (hanswer u _ c fault hr hc)]
        rfl
    · rfl

end SinkWorld

end LocalSend
