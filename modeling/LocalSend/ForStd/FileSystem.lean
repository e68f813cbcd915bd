import Mathlib.Logic.Function.Basic

/-!
# A file system, one call at a time

A file system maps paths to directory entries. An entry that names a regular file names
an inode, so that a file keeps its identity when it is renamed. Each `Call` is atomic
and answers with a `Reply` or an error; symlinks are told apart but never followed.

## Key results

- `attempt_cases`: what a call can do, error included
- `Effect.entry_of_notMem`: a call changes no entry but those it names
- `content_run`: a call writes to no file
-/

/-- Paths with a parent directory each. -/
class ParentPath (κ : Type*) where
  parent : κ → κ

/-- What a path names. -/
inductive FsEntry where
  | directory
  | file (inode : Nat)
  | symlink
deriving DecidableEq, Repr

inductive FsError where
  | notFound
  | alreadyExists
  | notADirectory
  | isADirectory
  /-- The device, a quota, a permission: nothing the entries tell. -/
  | other
deriving DecidableEq, Repr

/-- The text of an error, as the operating system gives it. -/
def FsError.text : FsError → String
  | .notFound => "No such file or directory (os error 2)"
  | .alreadyExists => "File exists (os error 17)"
  | .notADirectory => "Not a directory (os error 20)"
  | .isADirectory => "Is a directory (os error 21)"
  | .other => "Input/output error (os error 5)"

/-- The calls. `sync` waits for the bytes of an open file, `syncDirectory` for the entries
    of an open directory. -/
inductive FsCall (κ : Type*) where
  | symlinkMetadata (p : κ)
  | createDir (p : κ)
  /-- Open for writing, creating the file, and fail if there is an entry. -/
  | openNew (p : κ)
  | rename (p q : κ)
  | removeFile (p : κ)
  | sync (inode : Nat)
  | openDirectory (p : κ)
  | syncDirectory (p : κ)
deriving DecidableEq

inductive FsReply where
  | metadata (entry : FsEntry)
  | opened (inode : Nat)
  | done
deriving DecidableEq

/-- A file system. Inodes from `next` on have never been used. -/
structure FileSystem (κ : Type*) where
  entry : κ → Option FsEntry
  content : Nat → List UInt8
  next : Nat
  used : ∀ p i, entry p = some (.file i) → i < next

/-- The entries a call may take away or put something else in the place of. -/
def FsCall.replaces {κ : Type*} : FsCall κ → List κ
  | .rename p q => [p, q]
  | .removeFile p => [p]
  | .symlinkMetadata _ | .createDir _ | .openNew _ | .sync _ | .openDirectory _
  | .syncDirectory _ => []

/-- The entry a call may add where there was none. -/
def FsCall.adds {κ : Type*} : FsCall κ → List κ
  | .createDir p | .openNew p => [p]
  | .symlinkMetadata _ | .rename .. | .removeFile _ | .sync _ | .openDirectory _
  | .syncDirectory _ => []

/-- The same call on other paths. -/
def FsCall.map {κ κ' : Type*} (f : κ → κ') : FsCall κ → FsCall κ'
  | .symlinkMetadata p => .symlinkMetadata (f p)
  | .createDir p => .createDir (f p)
  | .openNew p => .openNew (f p)
  | .rename p q => .rename (f p) (f q)
  | .removeFile p => .removeFile (f p)
  | .sync inode => .sync inode
  | .openDirectory p => .openDirectory (f p)
  | .syncDirectory p => .syncDirectory (f p)

namespace FileSystem

variable {κ : Type*} [DecidableEq κ]

omit [DecidableEq κ] in
theorem eq_of_fields {fs fs' : FileSystem κ} (hentry : fs.entry = fs'.entry)
    (hcontent : fs.content = fs'.content) (hnext : fs.next = fs'.next) : fs = fs' := by
  obtain ⟨entry, content, next, used⟩ := fs
  obtain ⟨entry', content', next', used'⟩ := fs'
  cases hentry
  cases hcontent
  cases hnext
  rfl

/-- Put a directory, or an entry another path had, at `p`. -/
def setEntry (fs : FileSystem κ) (p : κ) (e : Option FsEntry)
    (he : ∀ i, e = some (.file i) → i < fs.next) : FileSystem κ where
  entry := Function.update fs.entry p e
  content := fs.content
  next := fs.next
  used q i h := by
    rw [Function.update_apply] at h
    split at h
    · exact he i h
    · exact fs.used q i h

/-- A new empty file at `p`. -/
def newFile (fs : FileSystem κ) (p : κ) : FileSystem κ where
  entry := Function.update fs.entry p (some (.file fs.next))
  content := Function.update fs.content fs.next []
  next := fs.next + 1
  used q i h := by
    rw [Function.update_apply] at h
    split at h
    · cases h
      exact Nat.lt_succ_self _
    · exact Nat.lt_succ_of_lt (fs.used q i h)

/-- Append to the file an open handle refers to, whatever names it by now. -/
def append (fs : FileSystem κ) (inode : Nat) (bytes : List UInt8) : FileSystem κ :=
  { fs with content := Function.update fs.content inode (fs.content inode ++ bytes) }

@[simp] theorem entry_setEntry (fs : FileSystem κ) (p : κ) (e : Option FsEntry)
    (he : ∀ i, e = some (.file i) → i < fs.next) (q : κ) :
    (fs.setEntry p e he).entry q = if q = p then e else fs.entry q := by
  simp only [setEntry, Function.update_apply]

@[simp] theorem entry_newFile (fs : FileSystem κ) (p q : κ) :
    (fs.newFile p).entry q = if q = p then some (.file fs.next) else fs.entry q := by
  simp only [newFile, Function.update_apply]

/-- What a call can do: its answer, and the file system it leaves. -/
inductive Effect (fs : FileSystem κ) : FsCall κ → Except FsError FsReply → FileSystem κ → Prop
  | failed {c e} : Effect fs c (.error e) fs
  | looked {c r} (harmless : c.replaces = [] ∧ c.adds = []) (hr : ∀ i, r ≠ .opened i) :
    Effect fs c (.ok r) fs
  | madeDir {p} (free : fs.entry p = none) :
    Effect fs (.createDir p) (.ok .done) (fs.setEntry p (some .directory) nofun)
  | opened {p} (free : fs.entry p = none) :
    Effect fs (.openNew p) (.ok (.opened fs.next)) (fs.newFile p)
  | moved {p q e fs'} (here : fs.entry p = some e)
    (entry : ∀ x, fs'.entry x = if x = p ∧ p ≠ q then none else if x = q then some e else fs.entry x)
    (next : fs'.next = fs.next) : Effect fs (.rename p q) (.ok .done) fs'
  | removed {p e} (here : fs.entry p = some e) :
    Effect fs (.removeFile p) (.ok .done) (fs.setEntry p none nofun)

/-- A call changes no entry but those it names. -/
theorem Effect.entry_of_notMem {fs fs' : FileSystem κ} {c : FsCall κ} {r : Except FsError FsReply}
    (h : fs.Effect c r fs') {p : κ} (hreplaces : p ∉ c.replaces) (hadds : p ∉ c.adds) :
    fs'.entry p = fs.entry p := by
  cases h with
  | failed | looked => rfl
  | @madeDir q =>
    have hne : p ≠ q := fun h => hadds (by simp [FsCall.adds, h])
    rw [entry_setEntry, if_neg hne]
  | @opened q =>
    have hne : p ≠ q := fun h => hadds (by simp [FsCall.adds, h])
    rw [entry_newFile, if_neg hne]
  | @moved q q' _ _ _ entry =>
    have hne : p ≠ q := fun h => hreplaces (by simp [FsCall.replaces, h])
    have hne' : p ≠ q' := fun h => hreplaces (by simp [FsCall.replaces, h])
    rw [entry, if_neg fun h => hne h.1, if_neg hne']
  | @removed q =>
    have hne : p ≠ q := fun h => hreplaces (by simp [FsCall.replaces, h])
    rw [entry_setEntry, if_neg hne]

/-- No inode is given back. -/
theorem Effect.next_le {fs fs' : FileSystem κ} {r : Except FsError FsReply} {c : FsCall κ}
    (h : fs.Effect c r fs') : fs.next ≤ fs'.next := by
  cases h with
  | failed | looked | madeDir | removed => exact Nat.le_refl _
  | opened => exact Nat.le_succ _
  | moved here entry next => exact next ▸ Nat.le_refl _

/-- A call that opens something has opened a new file. -/
theorem Effect.opened_eq {fs fs' : FileSystem κ} {c : FsCall κ} {i : Nat}
    (h : fs.Effect c (.ok (.opened i)) fs') : i = fs.next ∧ fs'.next = fs.next + 1 := by
  cases h with
  | looked harmless hr => exact absurd rfl (hr i)
  | opened => exact ⟨rfl, rfl⟩

/-- An entry stays where it is, unless the call names it to replace it. -/
theorem Effect.entry_kept {fs fs' : FileSystem κ} {r : Except FsError FsReply} {c : FsCall κ}
    (h : fs.Effect c r fs') {p : κ} {e : FsEntry} (hp : fs.entry p = some e) (hc : p ∉ c.replaces) :
    fs'.entry p = some e := by
  by_cases hadds : p ∈ c.adds
  · -- what it names to add it finds taken
    cases h with
    | failed | looked => exact hp
    | madeDir free | opened free =>
      rw [List.mem_singleton.mp hadds, free] at hp
      simp at hp
    | moved | removed => contradiction
  · rw [h.entry_of_notMem hc hadds, hp]

variable [ParentPath κ]

/-- The directory a path is in exists. -/
def hasParent (fs : FileSystem κ) (p : κ) : Bool :=
  fs.entry (ParentPath.parent p) = some .directory

/-- Run one call. -/
def run (fs : FileSystem κ) : FsCall κ → Except FsError FsReply × FileSystem κ
  | .symlinkMetadata p =>
    match fs.entry p with
    | none => (.error .notFound, fs)
    | some e => (.ok (.metadata e), fs)
  | .createDir p =>
    if (fs.entry p).isSome then (.error .alreadyExists, fs)
    else if !fs.hasParent p then (.error .notFound, fs)
    else (.ok .done, fs.setEntry p (some .directory) nofun)
  | .openNew p =>
    if (fs.entry p).isSome then (.error .alreadyExists, fs)
    else if !fs.hasParent p then (.error .notFound, fs)
    else (.ok (.opened fs.next), fs.newFile p)
  | .rename p q =>
    match he : fs.entry p with
    | none => (.error .notFound, fs)
    | some .directory => (.error .isADirectory, fs)
    | some e =>
      if !fs.hasParent q then (.error .notFound, fs)
      else if fs.entry q = some .directory then (.error .isADirectory, fs)
      else if p = q then (.ok .done, fs)
      else
        let moved := fs.setEntry q (some e) fun i h => fs.used p i (he.trans h)
        (.ok .done, moved.setEntry p none nofun)
  | .removeFile p =>
    match fs.entry p with
    | none => (.error .notFound, fs)
    | some .directory => (.error .isADirectory, fs)
    | some _ => (.ok .done, fs.setEntry p none nofun)
  | .sync _ | .syncDirectory _ => (.ok .done, fs)
  | .openDirectory p =>
    match fs.entry p with
    | none => (.error .notFound, fs)
    | some .directory => (.ok .done, fs)
    | some _ => (.error .notADirectory, fs)

/-- Run one call on a device that may fail it. -/
def attempt (fs : FileSystem κ) (fault : Bool) (c : FsCall κ) :
    Except FsError FsReply × FileSystem κ :=
  if fault then (.error .other, fs) else fs.run c

/-- Every call, failed or not, does one of these. -/
theorem attempt_cases (fs : FileSystem κ) (fault : Bool) (c : FsCall κ) :
    fs.Effect c (fs.attempt fault c).1 (fs.attempt fault c).2 := by
  unfold attempt
  split
  · exact .failed
  cases c with
  | symlinkMetadata p | openDirectory p =>
    simp only [run]
    split
    · exact .failed
    · exact .looked ⟨rfl, rfl⟩ (by simp)
    all_goals exact .failed
  | createDir p =>
    -- the name and its parent decide
    simp only [run]
    split
    · exact .failed
    rename_i free
    split
    · exact .failed
    · exact .madeDir (Option.not_isSome_iff_eq_none.mp free)
  | openNew p =>
    simp only [run]
    split
    · exact .failed
    rename_i free
    split
    · exact .failed
    · exact .opened (Option.not_isSome_iff_eq_none.mp free)
  | rename p q =>
    -- what is moved, then the parent and the place it goes to
    simp only [run]
    split
    · exact .failed
    · exact .failed
    rename_i e _ here
    split
    · exact .failed
    split
    · exact .failed
    split
    · -- the name it already has
      rename_i heq
      subst heq
      refine .moved here (fun x => ?_) rfl
      rw [if_neg fun h => h.2 rfl]
      split
      · rename_i hx
        rw [hx, here]
      · rfl
    · rename_i hne
      refine .moved here (fun x => ?_) rfl
      rw [entry_setEntry, entry_setEntry]
      simp only [ne_eq, hne, not_false_eq_true, and_true]
  | removeFile p =>
    simp only [run]
    split
    · exact .failed
    · exact .failed
    · exact .removed (by assumption)
  | sync i | syncDirectory p => exact .looked ⟨rfl, rfl⟩ (by simp)

/-- No call writes to a file that is there. -/
theorem content_run (fs : FileSystem κ) (c : FsCall κ) {i : Nat} (h : i < fs.next) :
    (fs.run c).2.content i = fs.content i := by
  -- a new file has the next number, which is none of those that are there
  have hnew : ∀ p, (fs.newFile p).content i = fs.content i := fun p =>
    Function.update_of_ne (Nat.ne_of_lt h) _ _
  cases c with
  | symlinkMetadata p | openDirectory p | removeFile p =>
    simp only [run]
    split <;> rfl
  | createDir p =>
    simp only [run]
    split
    · rfl
    · split <;> rfl
  | openNew p =>
    simp only [run]
    split
    · rfl
    · split
      · rfl
      · exact hnew p
  | rename p q =>
    simp only [run]
    split
    · rfl
    · rfl
    · split
      · rfl
      · split
        · rfl
        · split <;> rfl
  | sync | syncDirectory => rfl

end FileSystem
