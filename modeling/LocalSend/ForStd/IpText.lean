import Mathlib.Algebra.Order.Ring.Nat

/-!
# Addresses as text

How Rust's standard library displays numbers and IP addresses, and how it reads a `u16`. Texts
are lists of characters.

## Key results

- `ofDigitChars_decimal`: a displayed number reads back
- `ipv4Text_chars`, `ipv6Text_chars`: the characters of an address
- `two_le_count_ipv6Text`: an IPv6 address has two colons at least
-/

namespace IpText

/-! ## Numbers -/

/-- `Display` of an unsigned integer. -/
def decimal (n : Nat) : List Char := Nat.toDigits 10 n

/-- `u16::from_str`: decimal digits, with an optional plus sign. -/
def parseU16 (s : List Char) : Option UInt16 :=
  let digits := match s with
    | '+' :: digits => digits
    | digits => digits
  if digits ≠ [] ∧ digits.all Char.isDigit ∧ Nat.ofDigitChars 10 digits 0 < 2 ^ 16 then
    some (UInt16.ofNat (Nat.ofDigitChars 10 digits 0))
  else none

/-! ## Addresses -/

/-- The `i`-th octet of an IPv4 address. -/
def octet (a : BitVec 32) (i : Nat) : Nat := a.toNat / 256 ^ (3 - i) % 256

/-- `Display` of an `Ipv4Addr`. -/
def ipv4Text (a : BitVec 32) : List Char :=
  decimal (octet a 0) ++ '.' :: decimal (octet a 1) ++ '.' :: decimal (octet a 2) ++
    '.' :: decimal (octet a 3)

/-- `Ipv6Addr::segments`. -/
def segments (a : BitVec 128) : List Nat :=
  (List.range 8).map fun i => a.toNat / 65536 ^ (7 - i) % 65536

/-- `Ipv6Addr::to_ipv4_mapped`. -/
def ipv4Mapped (a : BitVec 128) : Option (BitVec 32) :=
  if a.toNat / 2 ^ 32 = 0xFFFF then some (BitVec.ofNat 32 a.toNat) else none

/-- Segments in hexadecimal, with colons between them. -/
def hexText : List Nat → List Char
  | [] => []
  | [segment] => Nat.toDigits 16 segment
  | segment :: segments => Nat.toDigits 16 segment ++ ':' :: hexText segments

/-- The length of the run of zeros that a list starts with. -/
def zeroRun (segments : List Nat) : Nat := (segments.takeWhile (· = 0)).length

/-- The start and the length of the first of the longest runs of zeros. -/
def longestZeroRun (segments : List Nat) : Nat × Nat :=
  (List.range segments.length).foldl
    (fun best i => if best.2 < zeroRun (segments.drop i) then (i, zeroRun (segments.drop i)) else best)
    (0, 0)

/-- `Display` of an `Ipv6Addr`. -/
def ipv6Text (a : BitVec 128) : List Char :=
  match ipv4Mapped a with
  | some b => [':', ':', 'f', 'f', 'f', 'f', ':'] ++ ipv4Text b
  | none =>
    let (start, length) := longestZeroRun (segments a)
    if 1 < length then
      hexText ((segments a).take start) ++ ':' :: ':' ::
        hexText ((segments a).drop (start + length))
    else hexText (segments a)

/-! ## Characters -/

/-- Numbers are written in digits. -/
theorem isDigit_of_mem_decimal {n : Nat} {c : Char} (h : c ∈ decimal n) : c.isDigit = true :=
  Nat.isDigit_of_mem_toDigits (by decide) (by decide) h

/-- A displayed number reads back. -/
theorem ofDigitChars_decimal (n : Nat) : Nat.ofDigitChars 10 (decimal n) 0 = n :=
  Nat.ofDigitChars_ten_toDigits

/-- No number is written with nothing. -/
theorem decimal_ne_nil (n : Nat) : decimal n ≠ [] := Nat.toDigits_ne_nil

/-- A port is read back as it is written. -/
theorem parseU16_decimal (p : UInt16) : parseU16 (decimal p.toNat) = some p := by
  obtain ⟨c, cs, hcons⟩ := List.exists_cons_of_ne_nil (decimal_ne_nil p.toNat)
  have hplus : c ≠ '+' := by
    intro heq
    have hdigit := isDigit_of_mem_decimal (n := p.toNat) (c := c) (hcons ▸ List.mem_cons_self)
    rw [heq] at hdigit
    simp at hdigit
  have hall : (decimal p.toNat).all Char.isDigit = true :=
    List.all_eq_true.mpr fun c hc => isDigit_of_mem_decimal hc
  have hlt : p.toNat < 2 ^ 16 := p.toNat_lt
  have hdigits : (match decimal p.toNat with
      | '+' :: digits => digits
      | digits => digits) = decimal p.toNat := by
    rw [hcons]
    split
    · rename_i heq
      exact absurd (List.cons.inj heq).1 hplus
    · rfl
  unfold parseU16
  rw [hdigits]
  dsimp only
  rw [if_pos ⟨decimal_ne_nil _, hall, by rw [ofDigitChars_decimal]; exact hlt⟩,
    ofDigitChars_decimal, UInt16.ofNat_toNat]

/-- An IPv4 address is written in digits and dots. -/
theorem ipv4Text_chars {a : BitVec 32} {c : Char} (h : c ∈ ipv4Text a) :
    c.isDigit = true ∨ c = '.' := by
  simp only [ipv4Text, List.mem_append, List.mem_cons] at h
  rcases h with ((h | rfl | h) | rfl | h) | rfl | h
  all_goals first | exact .inr rfl | exact .inl (isDigit_of_mem_decimal h)

/-- The lowercase hexadecimal digits. -/
def isHex (c : Char) : Bool := c.isDigit || ('a' ≤ c && c ≤ 'f')

/-- Segments are written in hexadecimal digits. -/
theorem isHex_of_mem_toDigits {n : Nat} {c : Char} (h : c ∈ Nat.toDigits 16 n) :
    isHex c = true := by
  have hdigit : ∀ k < 16, isHex (Nat.digitChar k) = true := by decide
  induction n using Nat.strongRecOn with
  | ind n ih =>
    rw [Nat.toDigits_eq_if (by decide)] at h
    split at h
    · rename_i hlt
      rw [List.mem_singleton.mp h]
      exact hdigit n hlt
    · rcases List.mem_append.mp h with h | h
      · exact ih (n / 16) (by omega) h
      · rw [List.mem_singleton.mp h]
        exact hdigit (n % 16) (by omega)

/-- A segment, a colon, and the rest. -/
theorem hexText_cons (segment next : Nat) (l : List Nat) :
    hexText (segment :: next :: l) = Nat.toDigits 16 segment ++ ':' :: hexText (next :: l) := rfl

/-- Segments are written in hexadecimal digits and colons. -/
theorem hexText_chars {l : List Nat} {c : Char} (h : c ∈ hexText l) : isHex c = true ∨ c = ':' := by
  induction l with
  | nil => cases h
  | cons segment l ih =>
    cases l with
    | nil => exact .inl (isHex_of_mem_toDigits h)
    | cons next l =>
      rw [hexText_cons, List.mem_append, List.mem_cons] at h
      rcases h with h | rfl | h
      · exact .inl (isHex_of_mem_toDigits h)
      · exact .inr rfl
      · exact ih h

/-- An IPv6 address is written in hexadecimal digits, colons and dots. -/
theorem ipv6Text_chars {a : BitVec 128} {c : Char} (h : c ∈ ipv6Text a) :
    isHex c = true ∨ c = ':' ∨ c = '.' := by
  -- the segments, and the colons between them
  have hhex : ∀ {l}, c ∈ hexText l → isHex c = true ∨ c = ':' ∨ c = '.' := by
    intro l hl
    rcases hexText_chars hl with hl | hl
    · exact .inl hl
    · exact .inr (.inl hl)
  unfold ipv6Text at h
  split at h
  · -- an IPv4 address in its IPv6 form ends in dotted decimals
    rename_i b _
    rcases List.mem_append.mp h with h | h
    · simp only [List.mem_cons, List.not_mem_nil, or_false] at h
      rcases h with rfl | rfl | rfl | rfl | rfl | rfl | rfl <;> simp [isHex]
    · rcases ipv4Text_chars h with h | h
      · exact .inl (by rw [isHex, h]; rfl)
      · exact .inr (.inr h)
  · dsimp only at h
    split at h
    · simp only [List.mem_append, List.mem_cons] at h
      rcases h with h | h | h | h
      · exact hhex h
      · exact .inr (.inl h)
      · exact .inr (.inl h)
      · exact hhex h
    · exact hhex h

/-- There is a colon between any two segments. -/
theorem count_hexText (l : List Nat) : l.length ≤ (hexText l).count ':' + 1 := by
  induction l with
  | nil => exact Nat.zero_le _
  | cons segment l ih =>
    cases l with
    | nil => exact Nat.le_add_left _ _
    | cons next l =>
      rw [hexText_cons, List.count_append, List.count_cons_self, List.length_cons]
      omega

/-- An IPv6 address has two colons at least. -/
theorem two_le_count_ipv6Text (a : BitVec 128) : 2 ≤ (ipv6Text a).count ':' := by
  unfold ipv6Text
  split
  · rw [List.count_append]
    exact Nat.le_add_right_of_le (by decide)
  · dsimp only
    split
    · rw [List.count_append, List.count_cons_self, List.count_cons_self]
      omega
    · -- nothing is compressed: eight segments
      have hcount := count_hexText (segments a)
      have hlength : (segments a).length = 8 := rfl
      omega

example : ipv6Text 1 = [':', ':', '1'] := by decide

example : ipv6Text 0x20010db8000000000001000000000001 =
    ['2', '0', '0', '1', ':', 'd', 'b', '8', ':', ':', '1', ':', '0', ':', '0', ':', '1'] := by
      decide

end IpText
