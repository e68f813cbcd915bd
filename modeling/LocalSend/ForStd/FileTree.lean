import LocalSend.ForStd.FileSystem
import Mathlib.Data.List.Induction

/-!
# A file system with symlinks

A tree of directories, files and symlinks, and the calls of a file system on it. A path is
walked one component after another from the directory it starts at: a symlink on the way is
followed to wherever it leads, `..` goes to the parent of the directory reached. The last
component of a path is not followed, so that a symlink there is seen as what it is; an
exclusive create refuses it, a rename or a removal is of the link itself.

## Key results

- `walk_append`: a path is walked component by component
- `walk_names`: names that lead through real directories lead to themselves
- `walk_kept`: directories and symlinks that stay keep every walk as it was
- `run_node_cases`: a call changes no node but where its path is
-/

/-- Where a node is: the names from the root to it. -/
abbrev Location := List String

/-- What a symlink holds: a path from the root, or from the directory the link is in. -/
structure Link where
  absolute : Bool
  target : List String
deriving DecidableEq

inductive TreeNode where
  | directory
  | file (inode : Nat)
  | symlink (link : Link)
deriving DecidableEq

/-- A node as its metadata show it. -/
def TreeNode.entry : TreeNode → FsEntry
  | .directory => .directory
  | .file inode => .file inode
  | .symlink _ => .symlink

/-- Only a directory appears as one. -/
@[simp] theorem TreeNode.entry_eq_directory (n : TreeNode) :
    n.entry = .directory ↔ n = .directory := by
  cases n <;> simp [entry]

/-- A tree in which every node is in a directory. Paths start at `base`: the root, or a working
    directory. -/
structure FileTree where
  node : Location → Option TreeNode
  content : Nat → List UInt8
  next : Nat
  base : Location
  used : ∀ l i, node l = some (.file i) → i < next
  root : node [] = some .directory
  rooted : ∀ l name, node (l ++ [name]) ≠ none → node l = some .directory

namespace FileTree

/-! ## Walking a path -/

/-- Walk to a directory, when `follow` tells where a symlink leads. -/
def walkWith (t : FileTree) (follow : Location → Link → Except FsError Location) :
    Location → List String → Except FsError Location
  | here, [] => .ok here
  | here, name :: rest =>
    if name = ".." then walkWith t follow here.dropLast rest
    else
      match t.node (here ++ [name]) with
      | none => .error .notFound
      | some .directory => walkWith t follow (here ++ [name]) rest
      | some (.file _) => .error .notADirectory
      | some (.symlink link) => follow here link >>= fun there => walkWith t follow there rest

/-- Walk to a directory, through symlinks nested at most `depth` deep. -/
def walk (t : FileTree) : Nat → Location → List String → Except FsError Location
  | 0 => t.walkWith fun _ _ => .error .other
  | depth + 1 => t.walkWith fun here link =>
    t.walk depth (if link.absolute then [] else here) link.target

/-- How deep symlinks may be nested before the system takes them for a loop. -/
def maxLinks : Nat := 40

/-- The directory a path leads to, its last component followed like the others. -/
def resolve (t : FileTree) (p : List String) : Except FsError Location :=
  t.walk maxLinks t.base p

/-- Where the last component of a path is. -/
def locate (t : FileTree) (p : List String) : Except FsError Location :=
  match p.getLast? with
  | none => .ok t.base
  | some name =>
    if name = ".." then t.resolve p else (t.resolve p.dropLast).map fun l => l ++ [name]

variable {t t' : FileTree} {follow : Location → Link → Except FsError Location}

/-- A path is walked in two parts. -/
theorem walkWith_append (here : Location) (p q : List String) :
    t.walkWith follow here (p ++ q) =
      t.walkWith follow here p >>= fun there => t.walkWith follow there q := by
  induction p generalizing here with
  | nil => rfl
  | cons name rest ih =>
    simp only [List.cons_append, walkWith]
    split
    · exact ih _
    · cases t.node (here ++ [name]) with
      | none => rfl
      | some n =>
        cases n with
        | directory => exact ih _
        | file i => rfl
        | symlink link =>
          show (follow here link >>= fun there => t.walkWith follow there (rest ++ q)) =
            (follow here link >>= fun there => t.walkWith follow there rest) >>= _
          cases follow here link with
          | error e => rfl
          | ok there => exact ih there

/-- A path is walked component by component. -/
theorem walk_append (depth : Nat) (here : Location) (p q : List String) :
    t.walk depth here (p ++ q) = t.walk depth here p >>= fun there => t.walk depth there q := by
  cases depth <;> exact walkWith_append here p q

/-- Whatever is above a node is a directory. -/
theorem directory_of_append {l : Location} (rest : List String) (hrest : rest ≠ [])
    (h : t.node (l ++ rest) ≠ none) : t.node l = some .directory := by
  induction rest using List.reverseRecOn with
  | nil => exact absurd rfl hrest
  | append_singleton rest name ih =>
    rw [← List.append_assoc] at h
    have habove := t.rooted _ _ h
    by_cases hnil : rest = []
    · rwa [hnil, List.append_nil] at habove
    · exact ih hnil (by rw [habove]; nofun)

/-- Names that lead through real directories lead to themselves. -/
theorem walk_names (depth : Nat) {here : Location} {names : List String} (hplain : ".." ∉ names)
    (h : t.node (here ++ names) = some .directory) :
    t.walk depth here names = .ok (here ++ names) := by
  have hwith : ∀ follow, t.walkWith follow here names = .ok (here ++ names) := by
    intro follow
    induction names generalizing here with
    | nil => simp [walkWith]
    | cons name rest ih =>
      have hsplit : here ++ name :: rest = (here ++ [name]) ++ rest := by simp
      have hdir : t.node (here ++ [name]) = some .directory := by
        by_cases hrest : rest = []
        · rw [hsplit, hrest, List.append_nil] at h
          exact h
        · refine directory_of_append rest hrest ?_
          rw [← hsplit, h]
          nofun
      have hname : name ≠ ".." := fun heq => hplain (by simp [heq])
      rw [walkWith, if_neg hname, hdir, hsplit]
      exact ih (fun hmem => hplain (List.mem_cons_of_mem _ hmem)) (hsplit ▸ h)
  cases depth <;> exact hwith _

/-- Every directory and every symlink is still there. -/
def Kept (t t' : FileTree) : Prop :=
  ∀ l n, t.node l = some n → (∀ i, n ≠ .file i) → t'.node l = some n

/-- A walk ends where it did in a tree that keeps what was there. -/
theorem walkWith_kept {follow' : Location → Link → Except FsError Location} (hkept : t.Kept t')
    (hfollow : ∀ here link there, follow here link = .ok there → follow' here link = .ok there)
    {here there : Location} {p : List String} (h : t.walkWith follow here p = .ok there) :
    t'.walkWith follow' here p = .ok there := by
  induction p generalizing here with
  | nil => exact h
  | cons name rest ih =>
    simp only [walkWith] at h ⊢
    split at h
    · -- up: to a location, whatever is there
      rename_i hdots
      rw [if_pos hdots]
      exact ih h
    · rename_i hdots
      rw [if_neg hdots]
      split at h
      · simp at h
      · rename_i hdir
        rw [hkept _ _ hdir (by simp)]
        exact ih h
      · simp at h
      · -- a symlink of the old tree is one of the new, and leads to the same place there
        rename_i link hlink
        rw [hkept _ _ hlink (by simp)]
        cases hgo : follow here link with
        | error e =>
          rw [hgo] at h
          cases h
        | ok l =>
          rw [hgo] at h
          simp only [hfollow _ _ _ hgo]
          exact ih h

/-- Directories and symlinks that stay keep every walk as it was. -/
theorem walk_kept (hkept : t.Kept t') {depth : Nat} {here there : Location} {p : List String}
    (h : t.walk depth here p = .ok there) : t'.walk depth here p = .ok there := by
  induction depth generalizing here p there with
  | zero => exact walkWith_kept hkept (by intro _ _ _ hloop; cases hloop) h
  | succ depth ih => exact walkWith_kept hkept (fun _ _ _ hfollow => ih hfollow) h

/-- A node that is not a directory is in one. -/
theorem parent_of_node (t : FileTree) {l : Location} {n : TreeNode} (h : t.node l = some n)
    (hn : n ≠ .directory) : t.node l.dropLast = some .directory := by
  have hne : l ≠ [] := by
    intro heq
    rw [heq, t.root] at h
    exact hn (Option.some.inj h).symm
  refine t.rooted l.dropLast (l.getLast hne) ?_
  rw [List.dropLast_concat_getLast hne, h]
  nofun

/-! ## The calls -/

/-- Put a node, or nothing, where there is no directory. -/
def setNode (t : FileTree) (l : Location) (n : Option TreeNode)
    (hused : ∀ i, n = some (.file i) → i < t.next)
    (hparent : t.node l.dropLast = some .directory) (hleaf : t.node l ≠ some .directory) :
    FileTree where
  node := Function.update t.node l n
  content := t.content
  next := t.next
  base := t.base
  used l' i h := by
    rw [Function.update_apply] at h
    split at h
    · exact hused i h
    · exact t.used l' i h
  root := by
    rw [Function.update_of_ne fun h : [] = l => hleaf (h ▸ t.root)]
    exact t.root
  rooted l' name h := by
    by_cases hl : l' ++ [name] = l
    · -- the node itself: its directory is another node
      have hl' : l' = l.dropLast := by simp [← hl]
      have hne : l' ≠ l := fun heq => by simp [heq] at hl
      rw [Function.update_of_ne hne, hl', hparent]
    · rw [Function.update_of_ne hl] at h
      have hdir := t.rooted _ _ h
      have hl' : l' ≠ l := fun heq => hleaf (heq ▸ hdir)
      rw [Function.update_of_ne hl', hdir]

/-- A new empty file. -/
def newFile (t : FileTree) (l : Location) (hparent : t.node l.dropLast = some .directory)
    (hfree : t.node l ≠ some .directory) : FileTree :=
  { t with next := t.next + 1, used := fun l' i h => Nat.lt_succ_of_lt (t.used l' i h),
           content := Function.update t.content t.next [] : FileTree }.setNode l
    (some (.file t.next)) (fun i h => by cases h; exact Nat.lt_succ_self _) hparent hfree

/-- Append to the file an open handle refers to. -/
def append (t : FileTree) (inode : Nat) (bytes : List UInt8) : FileTree :=
  { t with content := Function.update t.content inode (t.content inode ++ bytes) }

/-- Do something where a path leads, or say why it leads nowhere. -/
def atPath (t : FileTree) (place : Except FsError Location)
    (go : Location → Except FsError FsReply × FileTree) : Except FsError FsReply × FileTree :=
  match place with
  | .error e => (.error e, t)
  | .ok l => go l

/-- Run one call. -/
def run (t : FileTree) : FsCall (List String) → Except FsError FsReply × FileTree
  | .symlinkMetadata p => t.atPath (t.locate p) fun l =>
    match t.node l with
    | none => (.error .notFound, t)
    | some n => (.ok (.metadata n.entry), t)
  | .createDir p => t.atPath (t.locate p) fun l =>
    if hfree : t.node l ≠ none then (.error .alreadyExists, t)
    else if hparent : t.node l.dropLast ≠ some .directory then (.error .notFound, t)
    else (.ok .done, t.setNode l (some .directory) nofun (not_not.mp hparent)
      (by rw [not_not.mp hfree]; nofun))
  | .openNew p => t.atPath (t.locate p) fun l =>
    if hfree : t.node l ≠ none then (.error .alreadyExists, t)
    else if hparent : t.node l.dropLast ≠ some .directory then (.error .notFound, t)
    else (.ok (.opened t.next), t.newFile l (not_not.mp hparent)
      (by rw [not_not.mp hfree]; nofun))
  | .rename p q => t.atPath (t.locate p) fun l =>
    match hn : t.node l with
    | none => (.error .notFound, t)
    | some n =>
      if hdir : n = .directory then (.error .isADirectory, t)
      else t.atPath (t.locate q) fun l' =>
        if hparent : t.node l'.dropLast ≠ some .directory then (.error .notFound, t)
        else if hleaf : t.node l' = some .directory then (.error .isADirectory, t)
        else if hsame : l = l' then (.ok .done, t)
        else
          let moved := t.setNode l' (some n) (fun i h => t.used l i (hn.trans h))
            (not_not.mp hparent) hleaf
          have hmoved : moved.node l = some n := (Function.update_of_ne hsame _ _).trans hn
          (.ok .done, moved.setNode l none nofun (moved.parent_of_node hmoved hdir)
            (by rw [hmoved]; exact fun heq => hdir (Option.some.inj heq)))
  | .removeFile p => t.atPath (t.locate p) fun l =>
    match hn : t.node l with
    | none => (.error .notFound, t)
    | some n =>
      if hdir : n = .directory then (.error .isADirectory, t)
      else
        (.ok .done, t.setNode l none nofun (t.parent_of_node hn hdir)
          (by rw [hn]; exact fun heq => hdir (Option.some.inj heq)))
  | .sync _ | .syncDirectory _ => (.ok .done, t)
  | .openDirectory p => t.atPath (t.resolve p) fun _ => (.ok .done, t)

/-- Run one call, or fail it with an error of the device's choice. -/
def answer (t : FileTree) (fault : Option FsError) (c : FsCall (List String)) :
    Except FsError FsReply × FileTree :=
  match fault with
  | some e => (.error e, t)
  | none => t.run c

/-- Setting a node changes no other. -/
@[simp] theorem node_setNode (t : FileTree) (l : Location) (n : Option TreeNode)
    (hused hparent hleaf) (l' : Location) :
    (t.setNode l n hused hparent hleaf).node l' = if l' = l then n else t.node l' := by
  simp only [setNode, Function.update_apply]

/-- A new file is the only new node. -/
@[simp] theorem node_newFile (t : FileTree) (l : Location) (hparent hfree) (l' : Location) :
    (t.newFile l hparent hfree).node l' = if l' = l then some (.file t.next) else t.node l' := by
  simp only [newFile, node_setNode]

/-- There is nothing to remove where nothing is. -/
theorem run_removeFile_none {p : List String} {l : Location} (hl : t.locate p = .ok l)
    (hn : t.node l = none) : t.run (.removeFile p) = (.error .notFound, t) := by
  simp only [run, hl, atPath]
  split <;> simp_all

/-- A directory is not removed as a file. -/
theorem run_removeFile_directory {p : List String} {l : Location} (hl : t.locate p = .ok l)
    (hn : t.node l = some .directory) : t.run (.removeFile p) = (.error .isADirectory, t) := by
  simp only [run, hl, atPath]
  split <;> simp_all

/-- A removal of what is no directory. -/
theorem run_removeFile {p : List String} {l : Location} {n : TreeNode} (hl : t.locate p = .ok l)
    (hn : t.node l = some n) (hdir : n ≠ .directory) :
    t.run (.removeFile p) = (.ok .done, t.setNode l none (by simp) (t.parent_of_node hn hdir)
      (by simp [hn, hdir])) := by
  simp only [run, hl, atPath]
  split
  · simp_all
  · rename_i m hm
    cases hn.symm.trans hm
    exact dif_neg hdir

/-- There is nothing to rename where nothing is. -/
theorem run_rename_none {p q : List String} {l : Location} (hl : t.locate p = .ok l)
    (hn : t.node l = none) : t.run (.rename p q) = (.error .notFound, t) := by
  simp only [run, hl, atPath]
  split <;> simp_all

/-- A directory is not renamed as a file. -/
theorem run_rename_directory {p q : List String} {l : Location} (hl : t.locate p = .ok l)
    (hn : t.node l = some .directory) : t.run (.rename p q) = (.error .isADirectory, t) := by
  simp only [run, hl, atPath]
  split <;> simp_all

/-- A rename of what is no directory, to a place in a directory. -/
theorem run_rename {p q : List String} {l l' : Location} {n : TreeNode} (hl : t.locate p = .ok l)
    (hn : t.node l = some n) (hdir : n ≠ .directory) (hl' : t.locate q = .ok l')
    (hparent : t.node l'.dropLast = some .directory) :
    t.run (.rename p q) =
      if hleaf : t.node l' = some .directory then (.error .isADirectory, t)
      else if hsame : l = l' then (.ok .done, t)
      else
        have hmoved : (t.setNode l' (some n) (fun i h => t.used l i (hn.trans h)) hparent hleaf).node l =
          some n := (Function.update_of_ne hsame _ _).trans hn
        (.ok .done,
          (t.setNode l' (some n) (fun i h => t.used l i (hn.trans h)) hparent hleaf).setNode l none
            (by simp) (parent_of_node _ hmoved hdir)
            (by rw [hmoved]; exact fun heq => hdir (Option.some.inj heq))) := by
  simp only [run, hl, hl', atPath]
  split
  · simp_all
  · rename_i m hm
    cases hn.symm.trans hm
    simp only [hdir, hparent]
    rfl

/-- A call changes no node but where a path of it leads, and replaces none but where it names
    one to replace. -/
theorem run_node_cases (t : FileTree) (c : FsCall (List String)) (l : Location) :
    (t.run c).2.node l = t.node l ∨
      (t.node l = none ∧ ∃ p ∈ c.adds, t.locate p = .ok l) ∨
      ∃ p ∈ c.replaces, t.locate p = .ok l := by
  -- a call that changes a node has located its path
  have hplace : ∀ (place : Except FsError Location) go, (t.atPath place go).2.node l ≠ t.node l →
      ∃ l', place = .ok l' ∧ (go l').2.node l ≠ t.node l := by
    intro place go hne
    cases place with
    | error e => exact absurd rfl hne
    | ok l' => exact ⟨l', rfl, hne⟩
  by_cases hne : (t.run c).2.node l = t.node l
  · exact .inl hne
  right
  cases c with
  | symlinkMetadata p =>
    obtain ⟨l', _, hne⟩ := hplace _ _ hne
    exfalso
    apply hne
    split <;> rfl
  | sync | syncDirectory => exact absurd rfl hne
  | openDirectory p =>
    obtain ⟨l', _, hne⟩ := hplace _ _ hne
    exact absurd rfl hne
  -- a new node comes where nothing was
  | createDir p =>
    obtain ⟨l', hl', hne⟩ := hplace _ _ hne
    split at hne
    · exact absurd rfl hne
    rename_i hfree
    split at hne
    · exact absurd rfl hne
    by_cases hl : l = l'
    · subst hl
      exact .inl ⟨not_not.mp hfree, p, by simp [FsCall.adds], hl'⟩
    · exact absurd (by rw [node_setNode, if_neg hl]) hne
  | openNew p =>
    obtain ⟨l', hl', hne⟩ := hplace _ _ hne
    split at hne
    · exact absurd rfl hne
    rename_i hfree
    split at hne
    · exact absurd rfl hne
    by_cases hl : l = l'
    · subst hl
      exact .inl ⟨not_not.mp hfree, p, by simp [FsCall.adds], hl'⟩
    · exact absurd (by rw [node_newFile, if_neg hl]) hne
  -- the source goes away and the destination is replaced
  | rename p q =>
    right
    obtain ⟨lp, hlp, hne⟩ := hplace _ _ hne
    split at hne
    · exact absurd rfl hne
    split at hne
    · exact absurd rfl hne
    obtain ⟨lq, hlq, hne⟩ := hplace _ _ hne
    split at hne
    · exact absurd rfl hne
    split at hne
    · exact absurd rfl hne
    split at hne
    · exact absurd rfl hne
    by_cases hl : l = lp
    · exact ⟨p, by simp [FsCall.replaces], hl ▸ hlp⟩
    by_cases hl' : l = lq
    · exact ⟨q, by simp [FsCall.replaces], hl' ▸ hlq⟩
    · exact absurd (by rw [node_setNode, if_neg hl, node_setNode, if_neg hl']) hne
  | removeFile p =>
    right
    obtain ⟨l', hl', hne⟩ := hplace _ _ hne
    split at hne
    · exact absurd rfl hne
    split at hne
    · exact absurd rfl hne
    by_cases hl : l = l'
    · exact ⟨p, by simp [FsCall.replaces], hl ▸ hl'⟩
    · exact absurd (by rw [node_setNode, if_neg hl]) hne

/-- A call keeps a node, adds one at a path that it adds, or replaces one at a path that it
    replaces. -/
theorem answer_node_cases (t : FileTree) (fault : Option FsError) (c : FsCall (List String))
    (l : Location) : (t.answer fault c).2.node l = t.node l ∨
      (t.node l = none ∧ ∃ p ∈ c.adds, t.locate p = .ok l) ∨
      ∃ p ∈ c.replaces, t.locate p = .ok l := by
  cases fault with
  | some e => exact .inl rfl
  | none => exact t.run_node_cases c l

/-- Paths go on starting where they did. -/
theorem base_answer (t : FileTree) (fault : Option FsError) (c : FsCall (List String)) :
    (t.answer fault c).2.base = t.base := by
  -- the call works below a location, or not at all
  have hplace : ∀ (place : Except FsError Location) go, (∀ l, (go l).2.base = t.base) →
      (t.atPath place go).2.base = t.base := by
    intro place go hgo
    cases place with
    | error e => rfl
    | ok l => exact hgo l
  cases fault with
  | some e => rfl
  | none =>
    cases c with
    | sync | syncDirectory => rfl
    | openDirectory p => exact hplace _ _ fun l => rfl
    | symlinkMetadata p =>
      refine hplace _ _ fun l => ?_
      split <;> rfl
    | createDir p | openNew p =>
      refine hplace _ _ fun l => ?_
      split
      · rfl
      · split <;> rfl
    | removeFile p =>
      refine hplace _ _ fun l => ?_
      split
      · rfl
      · split <;> rfl
    | rename p q =>
      refine hplace _ _ fun l => ?_
      split
      · rfl
      split
      · rfl
      refine hplace _ _ fun l' => ?_
      split
      · rfl
      split
      · rfl
      split <;> rfl

end FileTree
