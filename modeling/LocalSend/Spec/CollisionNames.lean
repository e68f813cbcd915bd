import LocalSend.Core.Sink
import LocalSend.ForStd.IpText
import LocalSend.ForStd.Utf8Text
import Mathlib.Data.List.TakeWhile

/-!
# The names that collisions get

`collision_leaf` (`src/core/sink.rs`) works on byte offsets: it looks for the last dot, subtracts
from the limit of a component, and cuts the stem off at a boundary between characters. Here every
one of these steps may fail, and it is shown that none of them does, and what name comes out.

## Key results

- `collisionLeafAt_eq`: no step fails, and the offsets make the name of `collisionLeaf`
- `collision_name`: the name is well formed
-/

namespace LocalSend

open Utf8Text

/-! ## By byte offsets -/

/-- `truncate_utf8`; `none` where a character would be cut. -/
def truncateUtf8At (value : List Char) (maxBytes : Nat) : Option (List Char) :=
  if byteLen value ≤ maxBytes then some value
  else (splitAt? value (floorCharBoundary value maxBytes)).map Prod.fst

/-- A subtraction of `usize`. -/
def checkedSub (a b : Nat) : Option Nat := if b ≤ a then some (a - b) else none

/-- `collision_leaf`; `none` where it would underflow or cut a character. -/
def collisionLeafAt (original : String) (attempt : Nat) : Option String :=
  let suffix := (" (" ++ toString attempt ++ ")").toList
  let split := (rfindChar '.' original.toList).filter fun index => 0 < index
  let parts :=
    match split with
    | some index => splitAt? original.toList index
    | none => some (original.toList, [])
  parts.bind fun (stem, extension) =>
    let (stem, extension) :=
      if byteLen extension + byteLen suffix ≥ maxComponentBytes then (original.toList, [])
      else (stem, extension)
    (checkedSub maxComponentBytes (byteLen suffix)).bind fun rest =>
      (checkedSub rest (byteLen extension)).bind fun budget =>
        (truncateUtf8At stem budget).map fun stem => String.ofList (stem ++ suffix ++ extension)

/-! ## What the name is made of -/

/-- The stem and the extension of a name: from its last dot that is not at the start. -/
inductive SplitsExtension : List Char → List Char → List Char → Prop
  | dot {stem extension : List Char} : stem ≠ [] → '.' ∉ extension →
    SplitsExtension (stem ++ '.' :: extension) stem ('.' :: extension)
  | whole {name : List Char} : '.' ∉ name.tail → SplitsExtension name name []

/-- The name of an attempt: the longest prefix of the stem that fits, the suffix, and the
    extension; or the whole name for the stem, where the extension would leave no room for one. -/
inductive CollisionName (original : List Char) (attempt : Nat) (name : List Char) : Prop
  | keeps {stem extension kept : List Char} : SplitsExtension original stem extension →
    byteLen extension + byteLen (" (" ++ toString attempt ++ ")").toList < maxComponentBytes →
    LongestPrefix stem
      (maxComponentBytes - byteLen (" (" ++ toString attempt ++ ")").toList - byteLen extension) kept →
    name = kept ++ (" (" ++ toString attempt ++ ")").toList ++ extension →
    CollisionName original attempt name
  | discards {stem extension kept : List Char} : SplitsExtension original stem extension →
    maxComponentBytes ≤ byteLen extension + byteLen (" (" ++ toString attempt ++ ")").toList →
    LongestPrefix original
      (maxComponentBytes - byteLen (" (" ++ toString attempt ++ ")").toList) kept →
    name = kept ++ (" (" ++ toString attempt ++ ")").toList →
    CollisionName original attempt name

/-! ## Truncating -/

theorem longestPrefix_truncateUtf8 (cs : List Char) (n : Nat) :
    LongestPrefix cs n (truncateUtf8 cs n) := by
  induction cs generalizing n with
  | nil => exact LongestPrefix.self (Nat.zero_le n)
  | cons c cs ih =>
    unfold truncateUtf8
    split
    · rename_i hc
      have hrest := ih (n - c.utf8Size)
      have hfits := hrest.fits
      refine ⟨List.cons_prefix_cons.mpr ⟨rfl, hrest.isPrefix⟩, ?_, fun q hq hlen => ?_⟩
      · rw [byteLen_cons]
        omega
      · cases q with
        | nil => exact List.nil_prefix
        | cons d q =>
          obtain ⟨rfl, htail⟩ := List.cons_prefix_cons.mp hq
          rw [byteLen_cons] at hlen
          exact List.cons_prefix_cons.mpr ⟨rfl, hrest.longest q htail (by omega)⟩
    · rename_i hc
      -- the first character does not fit, so nothing but the empty prefix does
      refine ⟨List.nil_prefix, Nat.zero_le n, fun q hq hlen => ?_⟩
      cases q with
      | nil => exact List.prefix_refl []
      | cons d q =>
        obtain ⟨rfl, _⟩ := List.cons_prefix_cons.mp hq
        rw [byteLen_cons] at hlen
        omega

/-- The search for a boundary cuts no character. -/
theorem truncateUtf8At_eq (cs : List Char) (n : Nat) :
    truncateUtf8At cs n = some (truncateUtf8 cs n) := by
  unfold truncateUtf8At
  split
  · rename_i hfits
    exact congrArg some ((LongestPrefix.self hfits).unique (longestPrefix_truncateUtf8 cs n))
  · -- the boundary that is found is where the longest prefix ends
    obtain ⟨p, hp, hlen⟩ := floorCharBoundary_spec cs n
    obtain ⟨rest, hrest⟩ := hp.isPrefix
    have hsplit := splitAt?_append p rest
    rw [hrest, hlen] at hsplit
    rw [hsplit, Option.map_some, hp.unique (longestPrefix_truncateUtf8 cs n)]

/-! ## Splitting -/

theorem splitExtension_eq_splitAt (before after : List Char) (h : '.' ∉ after) (hne : before ≠ []) :
    splitExtension (before ++ '.' :: after) = (before, '.' :: after) := by
  have htake : ((before ++ '.' :: after).reverse.takeWhile fun c => c ≠ '.') = after.reverse := by
    rw [List.reverse_append, List.reverse_cons, List.append_assoc, List.singleton_append,
      List.takeWhile_append_of_pos]
    · exact List.append_nil _
    · intro c hc
      have hmem := List.mem_reverse.mp hc
      exact decide_eq_true fun heq => h (heq ▸ hmem)
  have hpos := List.length_pos_iff.mpr hne
  -- the scan from the end stops at the last dot
  have hindex : (before ++ '.' :: after).length - after.length - 1 = before.length := by
    rw [List.length_append, List.length_cons]
    omega
  unfold splitExtension
  rw [htake, List.length_reverse]
  dsimp only
  rw [hindex, if_neg, List.splitAt_eq, List.take_left, List.drop_left]
  rw [List.length_append, List.length_cons]
  omega

theorem splitExtension_eq_whole {cs : List Char} (h : '.' ∉ cs.tail) :
    splitExtension cs = (cs, []) := by
  unfold splitExtension
  dsimp only
  rw [if_pos]
  by_cases hdot : '.' ∈ cs
  · -- a dot at the front only: it belongs to the stem
    right
    cases cs with
    | nil => cases hdot
    | cons c cs =>
      have hc : c = '.' := by
        cases List.mem_cons.mp hdot with
        | inl heq => exact heq.symm
        | inr hmem => exact absurd hmem h
      subst hc
      have htake : (('.' :: cs).reverse.takeWhile fun c => c ≠ '.') = cs.reverse := by
        rw [List.reverse_cons, List.takeWhile_append_of_pos]
        · exact List.append_nil _
        · intro d hd
          have hmem := List.mem_reverse.mp hd
          exact decide_eq_true fun heq => h (heq ▸ hmem)
      rw [htake, List.length_reverse, List.length_cons]
      omega
  · left
    have htake : (cs.reverse.takeWhile fun c => c ≠ '.') = cs.reverse := by
      apply List.takeWhile_eq_self_iff.mpr
      intro c hc
      have hmem := List.mem_reverse.mp hc
      exact decide_eq_true fun heq => hdot (heq ▸ hmem)
    rw [htake, List.length_reverse]

/-- Looking for the last dot finds the split, wherever the dots are. -/
theorem split_cases (cs : List Char) :
    ∃ stem extension, SplitsExtension cs stem extension ∧ splitExtension cs = (stem, extension) ∧
      (match (rfindChar '.' cs).filter fun index => 0 < index with
        | some index => splitAt? cs index
        | none => some (cs, [])) = some (stem, extension) := by
  cases rfindChar_cases '.' cs with
  | inl hnone =>
    obtain ⟨hfind, hmem⟩ := hnone
    have htail : '.' ∉ cs.tail := fun h => hmem (List.mem_of_mem_tail h)
    exact ⟨cs, [], .whole htail, splitExtension_eq_whole htail, by rw [hfind]; rfl⟩
  | inr hsome =>
    obtain ⟨before, after, rfl, hmem, hfind⟩ := hsome
    cases before with
    -- a name that starts with its last dot has no extension
    | nil =>
      have htail : '.' ∉ ('.' :: after).tail := hmem
      exact ⟨_, [], .whole htail, splitExtension_eq_whole htail, by rw [hfind]; rfl⟩
    | cons c before =>
      have hne : c :: before ≠ [] := List.cons_ne_nil c before
      refine ⟨c :: before, '.' :: after, .dot hne hmem, splitExtension_eq_splitAt _ _ hmem hne, ?_⟩
      have hpos : 0 < byteLen (c :: before) := by
        have hc := c.utf8Size_pos
        rw [byteLen_cons]
        omega
      rw [hfind, Option.filter_some, if_pos (decide_eq_true hpos)]
      exact splitAt?_append (c :: before) ('.' :: after)

/-! ## The suffix -/

theorem toList_suffix (attempt : Nat) :
    (" (" ++ toString attempt ++ ")").toList = [' ', '('] ++ IpText.decimal attempt ++ [')'] := by
  have hdigits : (toString attempt).toList = IpText.decimal attempt := Nat.toList_repr
  rw [String.toList_append, String.toList_append, hdigits]
  rfl

/-- Decimal digits are one byte each. -/
theorem byteLen_decimal (n : Nat) : byteLen (IpText.decimal n) = (IpText.decimal n).length := by
  have hsize : ∀ cs : List Char, (∀ c ∈ cs, c.isDigit = true) → byteLen cs = cs.length := by
    intro cs hcs
    induction cs with
    | nil => rfl
    | cons c cs ih =>
      have hc : c.utf8Size = 1 := by
        have hdigit := hcs c List.mem_cons_self
        simp only [Char.isDigit, Bool.and_eq_true, decide_eq_true_eq] at hdigit
        apply Char.utf8Size_eq_one_iff.mpr
        exact UInt32.le_trans hdigit.2 (by decide)
      rw [byteLen_cons, hc, ih fun d hd => hcs d (List.mem_cons_of_mem c hd), List.length_cons]
      omega
  exact hsize _ fun c hc => IpText.isDigit_of_mem_decimal hc

/-- A suffix that is tried has at most seven bytes. -/
theorem byteLen_suffix_le {attempt : Nat} (h : attempt ≤ maxCollisionAttempts) :
    byteLen (" (" ++ toString attempt ++ ")").toList ≤ 7 := by
  have hlength : (IpText.decimal attempt).length ≤ 4 := by
    unfold IpText.decimal
    rw [Nat.length_toDigits_le_iff (by decide) (by decide)]
    unfold maxCollisionAttempts at h
    omega
  rw [toList_suffix, byteLen_append, byteLen_append, byteLen_decimal]
  have hfront : byteLen [' ', '('] = 2 := rfl
  have hback : byteLen [')'] = 1 := rfl
  omega

/-- No step of `collision_leaf` fails. -/
theorem collisionLeafAt_eq (original : String) {attempt : Nat}
    (h : attempt ≤ maxCollisionAttempts) :
    collisionLeafAt original attempt = some (collisionLeaf original attempt) := by
  have hsuffix := byteLen_suffix_le h
  obtain ⟨stem, extension, _, hsplit, hparts⟩ := split_cases original.toList
  unfold collisionLeafAt collisionLeaf
  dsimp only
  rw [hparts, Option.bind_some]
  simp only [hsplit]
  have hmax : maxComponentBytes = 255 := rfl
  have hsub : ∀ {a b}, b ≤ a → checkedSub a b = some (a - b) := fun hle => if_pos hle
  split
  · -- the extension leaves no room for the suffix, and is discarded
    dsimp only
    rw [hsub (by omega), Option.bind_some, byteLen_nil, hsub (Nat.zero_le _), Option.bind_some,
      truncateUtf8At_eq]
    rfl
  · dsimp only
    rw [hsub (by omega), Option.bind_some, hsub (by omega), Option.bind_some, truncateUtf8At_eq]
    rfl

theorem collisionName_collisionLeaf (original : String) (attempt : Nat) :
    CollisionName original.toList attempt (collisionLeaf original attempt).toList := by
  obtain ⟨stem, extension, hname, hsplit, _⟩ := split_cases original.toList
  unfold collisionLeaf
  dsimp only
  simp only [hsplit, String.toList_ofList]
  split
  · rename_i hlong
    refine .discards hname hlong (longestPrefix_truncateUtf8 ..) ?_
    simp
  · rename_i hshort
    exact .keeps hname (by omega) (longestPrefix_truncateUtf8 ..) rfl

/-! ## What it comes to -/

theorem SplitsExtension.append_eq {name stem extension : List Char}
    (h : SplitsExtension name stem extension) :
    name = stem ++ extension := by
  cases h with
  | dot => rfl
  | whole => exact (List.append_nil name).symm

/-- The name is made of the original, the suffix, and nothing else. -/
theorem CollisionName.parts {original : List Char} {attempt : Nat} {name : List Char}
    (h : CollisionName original attempt name) :
    ∃ kept extension, name = kept ++ (" (" ++ toString attempt ++ ")").toList ++ extension ∧
      (∀ c ∈ kept ++ extension, c ∈ original) ∧
      (byteLen (" (" ++ toString attempt ++ ")").toList ≤ maxComponentBytes →
        byteLen name ≤ maxComponentBytes) := by
  cases h with
  | @keeps stem extension kept hsplit hroom hkept heq =>
    refine ⟨kept, extension, heq, fun c hc => ?_, fun _ => ?_⟩
    · rw [hsplit.append_eq, List.mem_append]
      exact (List.mem_append.mp hc).imp_left fun hmem => hkept.isPrefix.subset hmem
    · have hfits := hkept.fits
      rw [heq, byteLen_append, byteLen_append]
      omega
  | @discards stem extension kept hsplit hroom hkept heq =>
    refine ⟨kept, [], by rw [heq, List.append_nil], fun c hc => ?_, fun _ => ?_⟩
    · rw [List.append_nil] at hc
      exact hkept.isPrefix.subset hc
    · have hfits := hkept.fits
      rw [heq, byteLen_append]
      omega

/-- The suffix has a blank in it, and no slash. -/
theorem suffix_chars (attempt : Nat) :
    ' ' ∈ (" (" ++ toString attempt ++ ")").toList ∧
      '/' ∉ (" (" ++ toString attempt ++ ")").toList := by
  have hdigit : '/' ∉ IpText.decimal attempt := by
    intro h
    cases IpText.isDigit_of_mem_decimal h
  rw [toList_suffix]
  constructor
  · simp
  · simp [hdigit]

/-- A name for a collision is made without an underflow or a cut character, fits into a component,
    is a plain name, and is what the attempt makes of the original. -/
theorem collision_name (original : String) (attempt : Nat) (hslash : '/' ∉ original.toList)
    (hattempt : attempt ≤ maxCollisionAttempts) :
    ∃ name, collisionLeafAt original attempt = some name ∧ name = collisionLeaf original attempt ∧
      CollisionName original.toList attempt name.toList ∧ name.utf8ByteSize ≤ maxComponentBytes ∧
      '/' ∉ name.toList ∧ name ≠ "." ∧ name ≠ ".." := by
  have hname := collisionName_collisionLeaf original attempt
  have hsuffix := byteLen_suffix_le hattempt
  have hmax : maxComponentBytes = 255 := rfl
  obtain ⟨kept, extension, heq, hmem, hfits⟩ := hname.parts
  obtain ⟨hspace, hnone⟩ := suffix_chars attempt
  -- the blank of the suffix tells the name from the names of directories
  have hblank : ' ' ∈ (collisionLeaf original attempt).toList := by
    rw [heq]
    exact List.mem_append_left _ (List.mem_append_right _ hspace)
  refine ⟨_, collisionLeafAt_eq original hattempt, rfl, hname, ?_, ?_, ?_, ?_⟩
  · rw [← byteLen_toList]
    exact hfits (by omega)
  · intro hin
    rw [heq, List.append_assoc, List.mem_append, List.mem_append] at hin
    cases hin with
    | inl hkept => exact hslash (hmem _ (List.mem_append_left _ hkept))
    | inr hrest =>
      cases hrest with
      | inl hsuf => exact hnone hsuf
      | inr hext => exact hslash (hmem _ (List.mem_append_right _ hext))
  · intro hdot
    rw [hdot] at hblank
    exact absurd hblank (by decide)
  · intro hdots
    rw [hdots] at hblank
    exact absurd hblank (by decide)

/-- The names of the tests. -/
theorem collision_name_report :
    ∃ name, collisionLeafAt "report.txt" 2 = some name ∧ name = collisionLeaf "report.txt" 2 ∧
      CollisionName "report.txt".toList 2 name.toList ∧ name.utf8ByteSize ≤ maxComponentBytes ∧
      '/' ∉ name.toList ∧ name ≠ "." ∧ name ≠ ".." :=
  collision_name "report.txt" 2 (by decide) (by decide)

example : collisionLeafAt "archive.tar.gz" 1 = some "archive.tar (1).gz" := by decide +kernel

example : collisionLeafAt ".bashrc" 1 = some ".bashrc (1)" := by decide +kernel

end LocalSend
