import Mathlib.Algebra.Order.Ring.Nat

/-!
# UTF-8 texts by byte offsets

A text is its characters; an offset counts bytes. An offset is a boundary where a character starts,
and where the text ends, and a text is split and sliced at boundaries only: elsewhere there is no
result, where the code that is modelled would panic.

## Key results

- `isCharBoundary_iff`: the boundaries are the lengths of the prefixes
- `floorCharBoundary_spec`: the search downwards for a boundary finds the longest prefix
- `rfindChar_cases`: where a character is found last
-/

namespace Utf8Text

/-- The length in bytes. -/
def byteLen (cs : List Char) : Nat := (cs.map Char.utf8Size).sum

@[simp] theorem byteLen_nil : byteLen [] = 0 := rfl

@[simp] theorem byteLen_cons (c : Char) (cs : List Char) :
    byteLen (c :: cs) = c.utf8Size + byteLen cs := by
  simp [byteLen]

@[simp] theorem byteLen_append (cs ds : List Char) :
    byteLen (cs ++ ds) = byteLen cs + byteLen ds := by
  simp [byteLen]

/-- The length of a string is that of its characters. -/
theorem byteLen_toList (s : String) : byteLen s.toList = s.utf8ByteSize := by
  have hlist : ∀ cs : List Char, byteLen cs = (String.ofList cs).utf8ByteSize := by
    intro cs
    induction cs with
    | nil => rfl
    | cons c cs ih =>
      have hsplit : String.ofList (c :: cs) = String.singleton c ++ String.ofList cs := by
        rw [← String.toList_inj]
        simp
      rw [hsplit, String.utf8ByteSize_append, String.utf8ByteSize_singleton, byteLen_cons, ih]
  rw [hlist, String.ofList_toList]

/-- Of two prefixes of a text, the one that is no longer is a prefix of the other. -/
theorem prefix_of_byteLen_le {cs p q : List Char} (hp : p <+: cs) (hq : q <+: cs)
    (h : byteLen p ≤ byteLen q) : p <+: q := by
  by_cases hlen : p.length ≤ q.length
  · exact List.prefix_of_prefix_length_le hp hq hlen
  · have hqp : q <+: p := List.prefix_of_prefix_length_le hq hp (by omega)
    obtain ⟨t, rfl⟩ := hqp
    cases t with
    | nil => exact ⟨[], by simp⟩
    | cons c t =>
      have hc := c.utf8Size_pos
      rw [byteLen_append, byteLen_cons] at h
      omega

/-! ## Boundaries -/

/-- `str::is_char_boundary`. -/
def isCharBoundary : List Char → Nat → Bool
  | [], i => i = 0
  | c :: cs, i => i = 0 || (c.utf8Size ≤ i && isCharBoundary cs (i - c.utf8Size))

/-- The text before a boundary and the text from it on: `str::split_at`. -/
def splitAt? : List Char → Nat → Option (List Char × List Char)
  | cs, 0 => some ([], cs)
  | [], _ + 1 => none
  | c :: cs, i + 1 =>
    if c.utf8Size ≤ i + 1 then
      (splitAt? cs (i + 1 - c.utf8Size)).map fun (before, after) => (c :: before, after)
    else none

/-- The boundaries are the lengths of the prefixes. -/
theorem isCharBoundary_iff {cs : List Char} {i : Nat} :
    isCharBoundary cs i = true ↔ ∃ p, p <+: cs ∧ byteLen p = i := by
  induction cs generalizing i with
  | nil =>
    simp only [isCharBoundary, decide_eq_true_eq, List.prefix_nil, exists_eq_left, byteLen_nil]
    omega
  | cons c cs ih =>
    simp only [isCharBoundary, Bool.or_eq_true, Bool.and_eq_true, decide_eq_true_eq, ih]
    constructor
    · intro h
      cases h with
      | inl hzero => exact ⟨[], List.nil_prefix, hzero.symm⟩
      | inr hlater =>
        obtain ⟨hle, p, hp, hlen⟩ := hlater
        refine ⟨c :: p, List.cons_prefix_cons.mpr ⟨rfl, hp⟩, ?_⟩
        rw [byteLen_cons]
        omega
    · intro h
      obtain ⟨p, hp, hlen⟩ := h
      cases p with
      | nil => exact .inl hlen.symm
      | cons d p =>
        obtain ⟨rfl, hrest⟩ := List.cons_prefix_cons.mp hp
        rw [byteLen_cons] at hlen
        exact .inr ⟨by omega, p, hrest, by omega⟩

/-- A text is split after each of its prefixes. -/
theorem splitAt?_append (before after : List Char) :
    splitAt? (before ++ after) (byteLen before) = some (before, after) := by
  induction before with
  | nil =>
    rw [List.nil_append, byteLen_nil]
    cases after <;> rfl
  | cons c before ih =>
    obtain ⟨n, hn⟩ : ∃ n, byteLen (c :: before) = n + 1 := by
      have hc := c.utf8Size_pos
      rw [byteLen_cons]
      exact ⟨c.utf8Size + byteLen before - 1, by omega⟩
    rw [hn, List.cons_append, splitAt?, ← hn, byteLen_cons, if_pos (by omega),
      Nat.add_sub_cancel_left, ih]
    rfl

/-! ## The longest prefix that fits -/

/-- The search downwards from an offset for a boundary. -/
def floorCharBoundary (cs : List Char) : Nat → Nat
  | 0 => 0
  | i + 1 => if isCharBoundary cs (i + 1) then i + 1 else floorCharBoundary cs i

/-- A prefix of at most `n` bytes that every other one is a prefix of. -/
structure LongestPrefix (cs : List Char) (n : Nat) (p : List Char) : Prop where
  isPrefix : p <+: cs
  fits : byteLen p ≤ n
  longest : ∀ q, q <+: cs → byteLen q ≤ n → q <+: p

theorem LongestPrefix.self {cs : List Char} {n : Nat} (h : byteLen cs ≤ n) :
    LongestPrefix cs n cs :=
  ⟨List.prefix_refl cs, h, fun _ hq _ => hq⟩

theorem LongestPrefix.unique {cs p q : List Char} {n : Nat} (hp : LongestPrefix cs n p)
    (hq : LongestPrefix cs n q) : p = q :=
  (hq.longest p hp.isPrefix hp.fits).eq_of_length_le
    (hp.longest q hq.isPrefix hq.fits).length_le

/-- What the search finds is the end of the longest prefix that fits. -/
theorem floorCharBoundary_spec (cs : List Char) (n : Nat) :
    ∃ p, LongestPrefix cs n p ∧ byteLen p = floorCharBoundary cs n := by
  induction n with
  | zero =>
    refine ⟨[], ⟨List.nil_prefix, Nat.le_refl 0, fun q _ hlen => ?_⟩, rfl⟩
    cases q with
    | nil => exact List.prefix_refl []
    | cons c q =>
      have hc := c.utf8Size_pos
      rw [byteLen_cons] at hlen
      omega
  | succ n ih =>
    unfold floorCharBoundary
    split
    · rename_i hboundary
      obtain ⟨p, hp, hlen⟩ := isCharBoundary_iff.mp hboundary
      refine ⟨p, ⟨hp, by omega, fun q hq hfits => ?_⟩, hlen⟩
      exact prefix_of_byteLen_le hq hp (by omega)
    · rename_i hboundary
      -- no prefix is `n + 1` bytes long, so those that fit have at most `n`
      obtain ⟨p, hp, hlen⟩ := ih
      have hfits := hp.fits
      refine ⟨p, ⟨hp.isPrefix, by omega, fun q hq hle => ?_⟩, hlen⟩
      have hne : byteLen q ≠ n + 1 := fun heq => hboundary (isCharBoundary_iff.mpr ⟨q, hq, heq⟩)
      exact hp.longest q hq (by omega)

/-! ## Finding a character -/

/-- `str::rfind` of a character: the offset of the last one. -/
def rfindChar (d : Char) : List Char → Option Nat
  | [] => none
  | c :: cs =>
    match rfindChar d cs with
    | some i => some (c.utf8Size + i)
    | none => if c = d then some 0 else none

/-- A character is found before a text without it, or it is not there. -/
theorem rfindChar_cases (d : Char) (cs : List Char) :
    (rfindChar d cs = none ∧ d ∉ cs) ∨
      ∃ before after, cs = before ++ d :: after ∧ d ∉ after ∧
        rfindChar d cs = some (byteLen before) := by
  induction cs with
  | nil => exact .inl ⟨rfl, List.not_mem_nil⟩
  | cons c cs ih =>
    cases ih with
    | inl hnone =>
      obtain ⟨hfind, hmem⟩ := hnone
      by_cases hc : c = d
      · subst hc
        exact .inr ⟨[], cs, rfl, hmem, by simp [rfindChar, hfind]⟩
      · refine .inl ⟨by simp [rfindChar, hfind, hc], ?_⟩
        simp [hmem, Ne.symm hc]
    | inr hsome =>
      obtain ⟨before, after, heq, hmem, hfind⟩ := hsome
      exact .inr ⟨c :: before, after, by rw [heq, List.cons_append],
        hmem, by simp [rfindChar, hfind]⟩

end Utf8Text
