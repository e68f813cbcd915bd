import LocalSend.ForStd.IpText
import LocalSend.Protocol.Types

/-!
# The target of a send

How the `send` command reads its target (`src/cli/commands/send.rs`). Texts are lists of
characters.

## Key results

- `splitHostPort_bracketed`, `splitHostPort_colon`, `splitHostPort_whole`: what the target is split
  into, by its form
-/

namespace LocalSend

open IpText

/-! ## Splitting strings -/

/-- `str::split_once`. -/
def splitOnce (c : Char) : List Char → Option (List Char × List Char)
  | [] => none
  | d :: s => if d = c then some ([], s) else (splitOnce c s).map fun p => (d :: p.1, p.2)

/-- `str::rsplit_once`. -/
def rsplitOnce (c : Char) : List Char → Option (List Char × List Char)
  | [] => none
  | d :: s =>
    match rsplitOnce c s with
    | some p => some (d :: p.1, p.2)
    | none => if d = c then some ([], s) else none

/-- `str::strip_prefix`, of one character. -/
def stripPrefix (c : Char) : List Char → Option (List Char)
  | [] => none
  | d :: s => if d = c then some s else none

theorem splitOnce_eq_none_iff {c : Char} {s : List Char} : splitOnce c s = none ↔ c ∉ s := by
  induction s with
  | nil => simp [splitOnce]
  | cons d s ih =>
    unfold splitOnce
    split
    · simp [*]
    · rename_i hne
      simp [ih, Ne.symm hne]

theorem splitOnce_append {c : Char} {s : List Char} (h : c ∉ s) (t : List Char) :
    splitOnce c (s ++ c :: t) = some (s, t) := by
  induction s with
  | nil => simp [splitOnce]
  | cons d s ih =>
    simp only [List.mem_cons, not_or] at h
    rw [List.cons_append, splitOnce, if_neg (Ne.symm h.1), ih h.2]
    rfl

theorem rsplitOnce_eq_none_iff {c : Char} {s : List Char} : rsplitOnce c s = none ↔ c ∉ s := by
  induction s with
  | nil => simp [rsplitOnce]
  | cons d s ih =>
    unfold rsplitOnce
    split
    · rename_i p hsome
      have hmem : ¬c ∉ s := fun hnot => (by cases hsome.symm.trans (ih.mpr hnot))
      simp [not_not.mp hmem]
    · rename_i hnone
      split
      · simp [*]
      · rename_i hne
        simp [ih.mp hnone, Ne.symm hne]

theorem rsplitOnce_append (s : List Char) {c : Char} {t : List Char} (h : c ∉ t) :
    rsplitOnce c (s ++ c :: t) = some (s, t) := by
  induction s with
  | nil =>
    rw [List.nil_append, rsplitOnce, rsplitOnce_eq_none_iff.mpr h]
    exact if_pos rfl
  | cons d s ih => rw [List.cons_append, rsplitOnce, ih]

/-- What `rsplit_once` splits. -/
theorem exists_last_of_mem {c : Char} {s : List Char} (h : c ∈ s) :
    ∃ t u, s = t ++ c :: u ∧ c ∉ u := by
  obtain ⟨t, u, hsplit, hnot⟩ := List.eq_append_cons_of_mem (List.mem_reverse.mpr h)
  refine ⟨u.reverse, t.reverse, ?_, fun hmem => hnot (List.mem_reverse.mp hmem)⟩
  rw [← List.reverse_reverse s, hsplit, List.reverse_append, List.reverse_cons, List.append_assoc]
  rfl

/-! ## Targets -/

/-- `DEFAULT_HTTP_PORT`. -/
def defaultHttpPort : UInt16 := 53317

def splitHostPort (target : List Char) : List Char × Option UInt16 :=
  match stripPrefix '[' target with
  -- Bracketed IPv6: [host] or [host]:port
  | some rest =>
    match splitOnce ']' rest with
    | some (host, tail) => (host, (stripPrefix ':' tail).bind parseU16)
    | none => (target, none)
  | none =>
    match rsplitOnce ':' target with
    | some (host, port) =>
      if ':' ∈ host then (target, none)
      else if port = [] then (host, none)
      else
        match parseU16 port with
        | some p => (host, some p)
        | none => (target, none)
    | none => (target, none)

/-- The host and the port that `resolve_target` goes on with. -/
def targetAddress (target : List Char) : List Char × UInt16 :=
  let (host, explicitPort) := splitHostPort target
  (host, explicitPort.getD defaultHttpPort)

/-- A host in brackets. -/
theorem splitHostPort_bracketed {host : List Char} (h : ']' ∉ host) (tail : List Char) :
    splitHostPort ('[' :: host ++ ']' :: tail) = (host, (stripPrefix ':' tail).bind parseU16) := by
  unfold splitHostPort
  rw [List.cons_append, stripPrefix, if_pos rfl]
  dsimp only
  rw [splitOnce_append h]

theorem stripPrefix_of_not_mem {c : Char} {s : List Char} (h : c ∉ s) (t : List Char)
    (ht : t.head? ≠ some c) :
    stripPrefix c (s ++ t) = none := by
  cases s with
  | cons d s =>
    rw [List.cons_append, stripPrefix, if_neg]
    intro heq
    exact h (heq ▸ List.mem_cons_self)
  | nil =>
    cases t with
    | nil => rfl
    | cons d t =>
      rw [List.nil_append, stripPrefix, if_neg]
      intro heq
      exact ht (heq ▸ rfl)

/-- A host without brackets, and one colon. -/
theorem splitHostPort_colon {host port : List Char}
    (hstart : stripPrefix '[' (host ++ ':' :: port) = none) (hhost : ':' ∉ host)
      (hport : ':' ∉ port) :
    splitHostPort (host ++ ':' :: port) =
      if port = [] then (host, none)
      else
        match parseU16 port with
        | some p => (host, some p)
        | none => (host ++ ':' :: port, none) := by
  unfold splitHostPort
  rw [hstart, rsplitOnce_append host hport]
  dsimp only
  rw [if_neg hhost]

/-- No brackets, and no colon or several. -/
theorem splitHostPort_whole {target : List Char} (hstart : stripPrefix '[' target = none)
    (hcount : target.count ':' ≠ 1) : splitHostPort target = (target, none) := by
  unfold splitHostPort
  rw [hstart]
  dsimp only
  by_cases hmem : ':' ∈ target
  · obtain ⟨host, port, rfl, hport⟩ := exists_last_of_mem hmem
    rw [List.count_append, List.count_cons_self, List.count_eq_zero.mpr hport] at hcount
    have hhost : ':' ∈ host := List.count_pos_iff.mp (by omega)
    rw [rsplitOnce_append host hport]
    exact if_pos hhost
  · rw [rsplitOnce_eq_none_iff.mpr hmem]

/-- A bracket that is not closed. -/
theorem splitHostPort_unclosed {rest : List Char} (h : ']' ∉ rest) :
    splitHostPort ('[' :: rest) = ('[' :: rest, none) := by
  unfold splitHostPort
  rw [stripPrefix, if_pos rfl]
  dsimp only
  rw [splitOnce_eq_none_iff.mpr h]

example : splitHostPort "[::1]:53317".toList = ("::1".toList, some 53317) := by decide +kernel

end LocalSend
