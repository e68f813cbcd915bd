import Mathlib.Data.List.DropRight

/-!
# Queries of URLs, and the forms in them

The URL Standard's treatment of the query of an `http` or `https` URL, and its parser for
`application/x-www-form-urlencoded`. Texts are lists of characters and what goes over the wire is
lists of bytes. A URL parser only percent-encodes what may not stand in a query; the characters
that mean something in a form (`&`, `=`, `+`, `%`) it leaves as they are.

## Key results

- `formParse_encodeQuery`: the two together, as a function of the text of the query
- `asciiCount_readText_le`: decoding never makes more ASCII characters, and fewer of an escape
- `readText_of_not_hasEscape`: a text without escapes is read as it stands
-/

namespace FormUrlEncoded

/-! ## UTF-8 -/

/-- The UTF-8 encoding of a text. -/
def utf8 (s : List Char) : List UInt8 := s.flatMap String.utf8EncodeChar

def isContinuation (b : UInt8) : Bool := 0x80 ≤ b && b ≤ 0xBF

/-- Whether `c` may follow the first byte `b` of a sequence. -/
def isSecond (b c : UInt8) : Bool :=
  if b = 0xE0 then 0xA0 ≤ c && c ≤ 0xBF
  else if b = 0xED then 0x80 ≤ c && c ≤ 0x9F
  else if b = 0xF0 then 0x90 ≤ c && c ≤ 0xBF
  else if b = 0xF4 then 0x80 ≤ c && c ≤ 0x8F
  else 0xC2 ≤ b && b ≤ 0xF3 && isContinuation c

/-- How many of the bytes one replacement character stands for, where no character can be read:
    the longest start of a sequence. -/
def illFormedLength : List UInt8 → Nat
  | b :: c :: d :: _ => if isSecond b c then (if 0xF0 ≤ b && isContinuation d then 3 else 2) else 1
  | [b, c] => if isSecond b c then 2 else 1
  | _ => 1

/-- `String::from_utf8_lossy`, with at most `fuel` characters. -/
def utf8LossyAux : Nat → List UInt8 → List Char
  | 0, _ => []
  | _, [] => []
  | fuel + 1, bs =>
    match bs.toByteArray.utf8DecodeChar? 0 with
    | some c => c :: utf8LossyAux fuel (bs.drop c.utf8Size)
    | none => '\uFFFD' :: utf8LossyAux fuel (bs.drop (illFormedLength bs))

/-- `String::from_utf8_lossy`. Every character takes a byte at least. -/
def utf8Lossy (bs : List UInt8) : List Char := utf8LossyAux bs.length bs

/-! ## Percent-encoding -/

/-- The special-query percent-encode set. -/
def inQuerySet (c : Char) : Bool :=
  c.toNat ≤ 0x20 || 0x7E < c.toNat || c = '"' || c = '#' || c = '<' || c = '>' || c = '\''

def hexUpper (n : Nat) : UInt8 := if n < 10 then UInt8.ofNat (0x30 + n) else UInt8.ofNat (0x37 + n)

def percentEncodeByte (b : UInt8) : List UInt8 :=
  [0x25, hexUpper (b.toNat / 16), hexUpper (b.toNat % 16)]

def encodeChar (c : Char) : List UInt8 :=
  if inQuerySet c then (String.utf8EncodeChar c).flatMap percentEncodeByte
  else String.utf8EncodeChar c

/-- What a URL parser makes of the text of a query. -/
def encodeQuery (s : List Char) : List UInt8 := s.flatMap encodeChar

def hexValue (n : Nat) : Option Nat :=
  if 0x30 ≤ n ∧ n ≤ 0x39 then some (n - 0x30)
  else if 0x41 ≤ n ∧ n ≤ 0x46 then some (n - 0x37)
  else if 0x61 ≤ n ∧ n ≤ 0x66 then some (n - 0x57)
  else none

def percentDecode : List UInt8 → List UInt8
  | [] => []
  | [b] => [b]
  | [b, c] => [b, c]
  | b :: c :: d :: rest =>
    if b = 0x25 then
      match hexValue c.toNat, hexValue d.toNat with
      | some x, some y => UInt8.ofNat (16 * x + y) :: percentDecode rest
      | _, _ => b :: percentDecode (c :: d :: rest)
    else b :: percentDecode (c :: d :: rest)

/-! ## Forms -/

/-- A `+` in a form is a space. -/
def plusByte (b : UInt8) : UInt8 := if b = 0x2B then 0x20 else b

/-- A name or a value of a form. -/
def decodeComponent (bs : List UInt8) : List Char := utf8Lossy (percentDecode (bs.map plusByte))

/-- The `application/x-www-form-urlencoded` parser. -/
def formParse (bs : List UInt8) : List (List Char × List Char) :=
  ((bs.splitOn 0x26).filter fun s => !s.isEmpty).map fun s =>
    (decodeComponent (s.takeWhile (· ≠ 0x3D)), decodeComponent ((s.dropWhile (· ≠ 0x3D)).drop 1))

/-! ## The query of a URL -/

/-- C0 control or space, which a URL parser drops at both ends. -/
def isC0OrSpace (c : Char) : Bool := c.toNat ≤ 0x20

/-- ASCII tab or newline, which a URL parser drops everywhere. -/
def isTabOrNewline (c : Char) : Bool := c = '\t' || c = '\n' || c = '\r'

def trimEnd (s : List Char) : List Char := s.rdropWhile isC0OrSpace

/-- A URL as its parser reads it, up to the fragment. -/
def beforeFragment (url : List Char) : List Char :=
  ((trimEnd (url.dropWhile isC0OrSpace)).filter fun c => !isTabOrNewline c).takeWhile (· ≠ '#')

/-- The query of a URL. -/
def queryOf (url : List Char) : Option (List UInt8) :=
  match (beforeFragment url).dropWhile (· ≠ '?') with
  | [] => none
  | _ :: text => some (encodeQuery text)

example : queryOf "http://h/p?pin=a b#c".toList = some (utf8 "pin=a%20b".toList) := by
  decide +kernel

example : formParse (utf8 "pin=a+b%20%FF&x".toList) =
    [("pin".toList, "a b \uFFFD".toList), ("x".toList, [])] := by decide +kernel

/-! ## What a form parser reads of the text of a query -/

/-- The escapes and pluses of a text, resolved. -/
def unescape : List Char → List UInt8
  | [] => []
  | [c] => (String.utf8EncodeChar c).map plusByte
  | [c, d] => (String.utf8EncodeChar c).map plusByte ++ (String.utf8EncodeChar d).map plusByte
  | c :: d :: e :: rest =>
    if c = '%' then
      match hexValue d.toNat, hexValue e.toNat with
      | some x, some y => UInt8.ofNat (16 * x + y) :: unescape rest
      | _, _ => 0x25 :: unescape (d :: e :: rest)
    else (String.utf8EncodeChar c).map plusByte ++ unescape (d :: e :: rest)

/-- What the parser reads where the text `s` stands. -/
def readText (s : List Char) : List Char := utf8Lossy (unescape s)

/-- Whether the text has an escape: a `%` and two hexadecimal digits. -/
def hasEscape : List Char → Bool
  | c :: d :: e :: rest =>
    (c = '%' && (hexValue d.toNat).isSome && (hexValue e.toNat).isSome) ||
      hasEscape (d :: e :: rest)
  | _ => false

/-! ### Bytes of a character -/

/-- A character of ASCII is one byte. -/
theorem utf8EncodeChar_of_ascii {c : Char} (h : c.toNat < 128) :
    String.utf8EncodeChar c = [UInt8.ofNat c.toNat] := by
  have hle : c.val.toNat ≤ 0x7F := by
    show c.toNat ≤ 0x7F
    omega
  simp only [String.utf8EncodeChar, hle, if_true]
  rfl

/-- The bytes of the other characters are not ASCII. -/
theorem utf8EncodeChar_of_not_ascii {c : Char} (h : ¬c.toNat < 128) :
    ∀ b ∈ String.utf8EncodeChar c, 128 ≤ b.toNat := by
  have hlow : ¬c.val.toNat ≤ 0x7F := by
    show ¬c.toNat ≤ 0x7F
    omega
  intro b hb
  simp only [String.utf8EncodeChar, hlow, if_false] at hb
  split at hb
  · simp only [List.mem_cons, List.not_mem_nil, or_false] at hb
    rcases hb with rfl | rfl <;> simp only [UInt8.toNat_ofNat'] <;> omega
  · split at hb
    · simp only [List.mem_cons, List.not_mem_nil, or_false] at hb
      rcases hb with rfl | rfl | rfl <;> simp only [UInt8.toNat_ofNat'] <;> omega
    · simp only [List.mem_cons, List.not_mem_nil, or_false] at hb
      rcases hb with rfl | rfl | rfl | rfl <;> simp only [UInt8.toNat_ofNat'] <;> omega

/-- Its byte is its number. -/
theorem toNat_ofNat_of_ascii {c : Char} (h : c.toNat < 128) :
    (UInt8.ofNat c.toNat).toNat = c.toNat := by
  rw [UInt8.toNat_ofNat']
  omega

/-- A byte that is ASCII is only in the encoding of its own character. -/
theorem mem_utf8EncodeChar_iff {c d : Char} (hd : d.toNat < 128) :
    UInt8.ofNat d.toNat ∈ String.utf8EncodeChar c ↔ c = d := by
  have hbyte := toNat_ofNat_of_ascii hd
  constructor
  · intro hmem
    by_cases hc : c.toNat < 128
    · rw [utf8EncodeChar_of_ascii hc, List.mem_singleton] at hmem
      have heq := congrArg UInt8.toNat hmem
      rw [hbyte, toNat_ofNat_of_ascii hc] at heq
      apply Char.ext
      apply UInt32.toNat_inj.mp
      exact heq.symm
    · have hge := utf8EncodeChar_of_not_ascii hc _ hmem
      omega
  · intro heq
    subst heq
    rw [utf8EncodeChar_of_ascii hd]
    exact List.mem_singleton_self _

/-- A character has a byte at least. -/
theorem utf8EncodeChar_ne_nil (c : Char) : String.utf8EncodeChar c ≠ [] := by
  intro h
  have hlength := String.length_utf8EncodeChar c
  have hpos := c.utf8Size_pos
  rw [h] at hlength
  simp only [List.length_nil] at hlength
  omega

/-! ### Percent-encoding and its inverse -/

/-- A hexadecimal digit is read back. -/
theorem hexValue_hexUpper : ∀ {n : Nat}, n < 16 → hexValue (hexUpper n).toNat = some n := by
  decide

/-- The hexadecimal digits of an escape are no separators. -/
theorem hexUpper_range {n : Nat} (h : n < 16) :
    (0x30 ≤ (hexUpper n).toNat ∧ (hexUpper n).toNat ≤ 0x39) ∨
      (0x41 ≤ (hexUpper n).toNat ∧ (hexUpper n).toNat ≤ 0x46) := by
  unfold hexUpper
  split <;> rw [UInt8.toNat_ofNat'] <;> omega

/-- An escape of a byte is decoded to it. -/
theorem percentDecode_percentEncodeByte (b : UInt8) (rest : List UInt8) :
    percentDecode (percentEncodeByte b ++ rest) = b :: percentDecode rest := by
  have hlt := b.toNat_lt
  have hhigh : hexValue (hexUpper (b.toNat / 16)).toNat = some (b.toNat / 16) :=
    hexValue_hexUpper (by omega)
  have hlow : hexValue (hexUpper (b.toNat % 16)).toNat = some (b.toNat % 16) :=
    hexValue_hexUpper (by omega)
  have hbyte : UInt8.ofNat (16 * (b.toNat / 16) + b.toNat % 16) = b := by
    rw [Nat.div_add_mod]
    exact UInt8.ofNat_toNat
  simp only [percentEncodeByte, List.cons_append, List.nil_append, percentDecode, if_true, hhigh, hlow,
    hbyte]

/-- Only the plus sign is replaced. -/
theorem plusByte_of_ne {b : UInt8} (h : b.toNat ≠ 0x2B) : plusByte b = b := by
  unfold plusByte
  rw [if_neg]
  intro heq
  rw [heq] at h
  exact h rfl

/-- An escape has no pluses. -/
theorem map_plusByte_percentEncodeByte (b : UInt8) :
    (percentEncodeByte b).map plusByte = percentEncodeByte b := by
  have hlt := b.toNat_lt
  have hhigh := hexUpper_range (n := b.toNat / 16) (by omega)
  have hlow := hexUpper_range (n := b.toNat % 16) (by omega)
  simp only [percentEncodeByte, List.map_cons, List.map_nil]
  rw [plusByte_of_ne (b := 0x25) (by decide), plusByte_of_ne (by omega), plusByte_of_ne (by omega)]

/-- The escapes of some bytes are decoded to them, before what follows. -/
theorem percentDecode_escapes (bs rest : List UInt8) :
    percentDecode ((bs.flatMap percentEncodeByte).map plusByte ++ rest) =
      bs ++ percentDecode rest := by
  induction bs with
  | nil => rfl
  | cons b bs ih =>
    rw [List.flatMap_cons, List.map_append, map_plusByte_percentEncodeByte, List.append_assoc,
      percentDecode_percentEncodeByte, ih, List.cons_append]

/-- A byte that is no `%` is itself. -/
theorem percentDecode_cons {b : UInt8} (h : b ≠ 0x25) (rest : List UInt8) :
    percentDecode (b :: rest) = b :: percentDecode rest := by
  match rest with
  | [] => rfl
  | [_] => rfl
  | _ :: _ :: _ => simp only [percentDecode, if_neg h]

/-- A `%` without two digits after it is itself. -/
theorem percentDecode_percent {rest : List UInt8}
    (h : ∀ c d tail, rest = c :: d :: tail → hexValue c.toNat = none ∨ hexValue d.toNat = none) :
    percentDecode (0x25 :: rest) = 0x25 :: percentDecode rest := by
  match rest, h with
  | [], _ => rfl
  | [_], _ => rfl
  | c :: d :: tail, h =>
    rcases h c d tail rfl with hc | hd
    · simp only [percentDecode, if_true, hc]
    · simp only [percentDecode, if_true, hd]
      cases hexValue c.toNat <;> rfl

/-! ### The two together -/

/-- A character that stays as it is in a query is a single byte. -/
theorem encodeChar_of_plain {c : Char} (h : inQuerySet c = false) :
    c.toNat < 128 ∧ encodeChar c = [UInt8.ofNat c.toNat] := by
  have hlt : c.toNat < 128 := by
    simp only [inQuerySet, Bool.or_eq_false_iff, decide_eq_false_iff_not] at h
    omega
  refine ⟨hlt, ?_⟩
  rw [encodeChar, h, utf8EncodeChar_of_ascii hlt]
  rfl

/-- A character is written as something. -/
theorem encodeChar_ne_nil (c : Char) : encodeChar c ≠ [] := by
  obtain ⟨b, bs, hbytes⟩ := List.exists_cons_of_ne_nil (utf8EncodeChar_ne_nil c)
  unfold encodeChar
  rw [hbytes]
  split
  · simp [percentEncodeByte]
  · simp

/-- What starts the encoding of a character that is no hexadecimal digit is none either. -/
theorem hexValue_head {c : Char} {s : List Char} (h : hexValue c.toNat = none) {b : UInt8}
    {bs : List UInt8} (hbytes : (encodeQuery (c :: s)).map plusByte = b :: bs) :
    hexValue b.toNat = none := by
  have hplus : ∀ b : UInt8, hexValue b.toNat = none → hexValue (plusByte b).toNat = none := by
    intro b hb
    unfold plusByte
    split
    · rfl
    · exact hb
  -- the first byte is the character itself, or the `%` of its escape
  rw [encodeQuery, List.flatMap_cons, List.map_append] at hbytes
  cases hset : inQuerySet c with
  | false =>
    obtain ⟨hlt, heq⟩ := encodeChar_of_plain hset
    rw [heq] at hbytes
    cases hbytes
    apply hplus
    rw [toNat_ofNat_of_ascii hlt]
    exact h
  | true =>
    obtain ⟨b', bs', hutf8⟩ := List.exists_cons_of_ne_nil (utf8EncodeChar_ne_nil c)
    rw [encodeChar, hset, hutf8] at hbytes
    cases hbytes
    rfl

/-- A hexadecimal digit stays as it is. -/
theorem inQuerySet_of_hexValue {c : Char} {x : Nat} (h : hexValue c.toNat = some x) :
    inQuerySet c = false := by
  have hne : ∀ d : Char, hexValue d.toNat = none → c ≠ d := by
    intro d hd heq
    subst heq
    cases h.symm.trans hd
  have hrange : 0x30 ≤ c.toNat ∧ c.toNat ≤ 0x66 := by
    unfold hexValue at h
    split at h
    · omega
    · split at h
      · omega
      · split at h
        · omega
        · simp at h
  simp only [inQuerySet, Bool.or_eq_false_iff, decide_eq_false_iff_not]
  refine ⟨⟨⟨⟨⟨⟨?_, ?_⟩, hne _ (by decide)⟩, hne _ (by decide)⟩, hne _ (by decide)⟩,
    hne _ (by decide)⟩, hne _ (by decide)⟩
  · omega
  · omega

/-- A character that starts no escape is read as itself, a plus as a space. -/
theorem percentDecode_encodeChar {c : Char} (h : c ≠ '%') (rest : List UInt8) :
    percentDecode ((encodeChar c).map plusByte ++ rest) =
      (String.utf8EncodeChar c).map plusByte ++ percentDecode rest := by
  cases hset : inQuerySet c with
  | true =>
    -- a character that is escaped is not a plus, and no other has the byte of one
    have hplus : (String.utf8EncodeChar c).map plusByte = String.utf8EncodeChar c := by
      rw [List.map_congr_left (g := id), List.map_id]
      intro b hb
      apply plusByte_of_ne
      intro heq
      have hbyte : UInt8.ofNat '+'.toNat ∈ String.utf8EncodeChar c := by
        have hb' : b = UInt8.ofNat '+'.toNat := UInt8.toNat_inj.mp heq
        rw [← hb']
        exact hb
      have hc := (mem_utf8EncodeChar_iff (by decide)).mp hbyte
      subst hc
      cases hset
    rw [encodeChar, hset, if_pos rfl, percentDecode_escapes, hplus]
  | false =>
    obtain ⟨hlt, heq⟩ := encodeChar_of_plain hset
    rw [heq, utf8EncodeChar_of_ascii hlt]
    -- a character that is left as it is gives one byte, which is not that of `%`
    have hne : plusByte (UInt8.ofNat c.toNat) ≠ 0x25 := by
      unfold plusByte
      split
      · decide
      · intro hbyte
        have hnat := congrArg UInt8.toNat hbyte
        rw [toNat_ofNat_of_ascii hlt] at hnat
        apply h
        apply Char.ext
        apply UInt32.toNat_inj.mp
        exact hnat
    exact percentDecode_cons hne rest

/-- A `%` that starts no escape in the text starts none in its query. -/
theorem percentDecode_percent_encodeQuery {s : List Char}
    (h : ∀ d e rest, s = d :: e :: rest → hexValue d.toNat = none ∨ hexValue e.toNat = none) :
    percentDecode (0x25 :: (encodeQuery s).map plusByte) =
      0x25 :: percentDecode ((encodeQuery s).map plusByte) := by
  apply percentDecode_percent
  intro b b' tail hbytes
  match s, h with
  | [], _ => cases hbytes
  | d :: s, h =>
    cases hd : hexValue d.toNat with
    | none => exact .inl (hexValue_head hd hbytes)
    | some x =>
      -- the digit is one byte, and what follows it starts with the second one
      right
      have hset := inQuerySet_of_hexValue hd
      rw [encodeQuery, List.flatMap_cons, List.map_append, (encodeChar_of_plain hset).2] at hbytes
      have htail : (encodeQuery s).map plusByte = b' :: tail := (List.cons.inj hbytes).2
      match s, h with
      | [], _ => cases htail
      | e :: rest, h =>
        have he := (h d e rest rfl).resolve_left fun hnone => (by cases hd.symm.trans hnone)
        exact hexValue_head he htail

/-- Of two characters that are no escape, one is no hexadecimal digit. -/
theorem digits_of_none {d e : Char}
    (h : ∀ x y, hexValue d.toNat = some x → hexValue e.toNat = some y → False) :
    hexValue d.toNat = none ∨ hexValue e.toNat = none := by
  cases hx : hexValue d.toNat with
  | none => exact .inl rfl
  | some x =>
    cases hy : hexValue e.toNat with
    | none => exact .inr rfl
    | some y => exact (h x y hx hy).elim

/-- A `%` without two digits after it. -/
theorem unescape_percent {d e : Char} (rest : List Char)
    (h : ∀ x y, hexValue d.toNat = some x → hexValue e.toNat = some y → False) :
    unescape ('%' :: d :: e :: rest) = 0x25 :: unescape (d :: e :: rest) ∧
      hasEscape ('%' :: d :: e :: rest) = hasEscape (d :: e :: rest) := by
  rcases digits_of_none h with hd | he
  · simp only [unescape, if_true, hd]
    simp [hasEscape, hd]
  · constructor
    · simp only [unescape, if_true, he]
      cases hexValue d.toNat <;> rfl
    · simp [hasEscape, he]

/-- Decoding the query of a text resolves the escapes and pluses of the text. -/
theorem percentDecode_encodeQuery (s : List Char) :
    percentDecode ((encodeQuery s).map plusByte) = unescape s := by
  -- the encoding goes character by character
  have hcons : ∀ c s, encodeQuery (c :: s) = encodeChar c ++ encodeQuery s :=
    fun _ _ => List.flatMap_cons
  have hpercent : ∀ s, (encodeQuery ('%' :: s)).map plusByte =
      0x25 :: (encodeQuery s).map plusByte := by
    intro s
    rw [hcons, List.map_append]
    rfl
  -- by the escapes of the text, as the decoder meets them
  induction s using unescape.induct with
  | case1 => rfl
  | case2 c =>
    by_cases hc : c = '%'
    · subst hc
      decide
    · rw [hcons, List.map_append, percentDecode_encodeChar hc]
      exact List.append_nil _
  | case3 c d =>
    have hd : percentDecode ((encodeQuery [d]).map plusByte) =
        (String.utf8EncodeChar d).map plusByte := by
      by_cases hd : d = '%'
      · subst hd
        decide
      · rw [hcons, List.map_append, percentDecode_encodeChar hd]
        exact List.append_nil _
    by_cases hc : c = '%'
    · subst hc
      rw [hpercent, percentDecode_percent_encodeQuery fun _ _ _ heq => by simp at heq, hd]
      rfl
    · rw [hcons, List.map_append, percentDecode_encodeChar hc, hd, unescape]
  -- both digits are left as they are, so the decoder finds the escape of the text
  | case4 d e rest x y hx hy ih =>
    obtain ⟨hd, hdigit⟩ := encodeChar_of_plain (inQuerySet_of_hexValue hx)
    obtain ⟨he, hdigit'⟩ := encodeChar_of_plain (inQuerySet_of_hexValue hy)
    have hplus : ∀ {c : Char} {n : Nat}, c.toNat < 128 → hexValue c.toNat = some n →
        plusByte (UInt8.ofNat c.toNat) = UInt8.ofNat c.toNat := by
      intro c n hlt hn
      apply plusByte_of_ne
      rw [toNat_ofNat_of_ascii hlt]
      intro heq
      rw [heq] at hn
      cases hn
    rw [hpercent, hcons, hcons, hdigit, hdigit']
    simp only [List.cons_append, List.nil_append, List.map_cons, hplus hd hx, hplus he hy]
    simp only [percentDecode, unescape, if_true, toNat_ofNat_of_ascii hd, toNat_ofNat_of_ascii he, hx,
      hy, ih]
  -- a `%` is not escaped either: what must be excluded is an escape that encoding has made
  | case5 d e rest hnone ih =>
    rw [hpercent, percentDecode_percent_encodeQuery, ih, (unescape_percent rest hnone).1]
    intro d' e' rest' heq
    cases heq
    exact digits_of_none hnone
  | case6 c d e rest hc ih =>
    rw [hcons, List.map_append, percentDecode_encodeChar hc, ih, unescape, if_neg hc]

/-- Splitting after a piece without separators. -/
theorem splitOn_append {α : Type*} [BEq α] [LawfulBEq α] {a : α} {xs : List α} (h : a ∉ xs)
    (ys : List α) : (xs ++ ys).splitOn a = (ys.splitOn a).modifyHead (xs ++ ·) := by
  induction xs with
  | nil =>
    rw [List.nil_append]
    cases ys.splitOn a <;> rfl
  | cons x xs ih =>
    have hx : (x == a) = false := beq_eq_false_iff_ne.mpr fun heq => h (heq ▸ List.mem_cons_self)
    have hxs : a ∉ xs := fun hmem => h (List.mem_cons_of_mem _ hmem)
    rw [List.cons_append, List.splitOn_cons_eq_if_modifyHead, hx, ih hxs]
    cases ys.splitOn a <;> rfl

/-- A separator of forms stands in a query where it stands in its text. -/
theorem mem_encodeChar_iff {c d : Char} (hd : inQuerySet d = false)
    (hdigits : ∀ b, UInt8.ofNat d.toNat ∉ percentEncodeByte b) :
    UInt8.ofNat d.toNat ∈ encodeChar c ↔ c = d := by
  obtain ⟨hlt, hplain⟩ := encodeChar_of_plain hd
  constructor
  · intro hmem
    cases hset : inQuerySet c with
    | true =>
      rw [encodeChar, hset, if_pos rfl] at hmem
      obtain ⟨b, _, hb⟩ := List.mem_flatMap.mp hmem
      exact absurd hb (hdigits b)
    | false =>
      rw [encodeChar, hset] at hmem
      exact (mem_utf8EncodeChar_iff hlt).mp hmem
  · intro heq
    subst heq
    rw [hplain]
    exact List.mem_singleton_self _

/-- No escape has a delimiter in it. -/
theorem not_mem_percentEncodeByte {n : UInt8} (h : n = 0x26 ∨ n = 0x3D) (b : UInt8) :
    n ∉ percentEncodeByte b := by
  have hlt := b.toNat_lt
  have hhigh := hexUpper_range (n := b.toNat / 16) (by omega)
  have hlow := hexUpper_range (n := b.toNat % 16) (by omega)
  simp only [percentEncodeByte, List.mem_cons, List.not_mem_nil, or_false, not_or]
  refine ⟨?_, ?_, ?_⟩
  · rcases h with rfl | rfl <;> decide
  · rintro rfl
    rcases h with h | h <;> rw [h] at hhigh <;> exact absurd hhigh (by decide)
  · rintro rfl
    rcases h with h | h <;> rw [h] at hlow <;> exact absurd hlow (by decide)

/-- Only an ampersand is written with one. -/
theorem amp_mem_encodeChar_iff {c : Char} : 0x26 ∈ encodeChar c ↔ c = '&' :=
  mem_encodeChar_iff (d := '&') (by decide) (not_mem_percentEncodeByte (.inl rfl))

/-- Only an equals sign is written with one. -/
theorem eq_mem_encodeChar_iff {c : Char} : 0x3D ∈ encodeChar c ↔ c = '=' :=
  mem_encodeChar_iff (d := '=') (by decide) (not_mem_percentEncodeByte (.inr rfl))

/-- A query splits where its text does. -/
theorem splitOn_encodeQuery (s : List Char) :
    (encodeQuery s).splitOn 0x26 = (s.splitOn '&').map encodeQuery := by
  induction s with
  | nil => rfl
  | cons c s ih =>
    have hcons : encodeQuery (c :: s) = encodeChar c ++ encodeQuery s := List.flatMap_cons
    rw [hcons, List.splitOn_cons_eq_if_modifyHead]
    by_cases hc : c = '&'
    · subst hc
      have hamp : encodeChar '&' ++ encodeQuery s = 0x26 :: encodeQuery s := rfl
      rw [hamp, List.splitOn_cons_eq_if_modifyHead, ih]
      rfl
    · have hne : (c == '&') = false := beq_eq_false_iff_ne.mpr hc
      rw [splitOn_append fun hmem => hc (amp_mem_encodeChar_iff.mp hmem), ih, hne]
      cases s.splitOn '&' <;> rfl

/-- The name and the value of a pair split where those of its text do. -/
theorem takeWhile_encodeQuery (s : List Char) :
    (encodeQuery s).takeWhile (· ≠ 0x3D) = encodeQuery (s.takeWhile (· ≠ '=')) ∧
      ((encodeQuery s).dropWhile (· ≠ 0x3D)).drop 1 =
        encodeQuery ((s.dropWhile (· ≠ '=')).drop 1) := by
  induction s with
  | nil => exact ⟨rfl, rfl⟩
  | cons c s ih =>
    have hcons : ∀ s, encodeQuery (c :: s) = encodeChar c ++ encodeQuery s := fun _ =>
        List.flatMap_cons
    by_cases hc : c = '='
    · subst hc
      exact ⟨rfl, rfl⟩
    · have hall : ∀ b ∈ encodeChar c, decide (b ≠ 0x3D) = true := by
        intro b hb
        apply decide_eq_true
        rintro rfl
        exact hc (eq_mem_encodeChar_iff.mp hb)
      rw [hcons, List.takeWhile_append_of_pos hall, List.dropWhile_append_of_pos hall,
        List.takeWhile_cons_of_pos (by simp [hc]), List.dropWhile_cons_of_pos (by simp [hc]), hcons,
        ih.1, ih.2]
      exact ⟨rfl, rfl⟩

/-- A form in the text of a query. -/
def formOfText (s : List Char) : List (List Char × List Char) :=
  ((s.splitOn '&').filter fun s => !s.isEmpty).map fun s =>
    (readText (s.takeWhile (· ≠ '=')), readText ((s.dropWhile (· ≠ '=')).drop 1))

/-- What a form parser reads of a query, as a function of its text. -/
theorem formParse_encodeQuery (s : List Char) : formParse (encodeQuery s) = formOfText s := by
  -- a part is empty where its encoding is
  have hempty : ∀ s : List Char, (encodeQuery s).isEmpty = s.isEmpty := by
    intro s
    cases s with
    | nil => rfl
    | cons c s =>
      obtain ⟨b, bs, heq⟩ := List.exists_cons_of_ne_nil (encodeChar_ne_nil c)
      rw [encodeQuery, List.flatMap_cons, heq]
      rfl
  have hread : ∀ s : List Char, decodeComponent (encodeQuery s) = readText s := by
    intro s
    rw [decodeComponent, percentDecode_encodeQuery, readText]
  unfold formParse formOfText
  rw [splitOn_encodeQuery, List.filter_map, List.map_map]
  -- the empty parts are dropped on either side
  have hfilter : (fun s : List UInt8 => !s.isEmpty) ∘ encodeQuery = fun s => !s.isEmpty := by
    funext s
    exact congrArg not (hempty s)
  rw [hfilter]
  apply List.map_congr_left
  intro s _
  obtain ⟨hname, hvalue⟩ := takeWhile_encodeQuery s
  show (decodeComponent ((encodeQuery s).takeWhile _),
      decodeComponent (((encodeQuery s).dropWhile _).drop 1)) = _
  rw [hname, hvalue, hread, hread]

/-! ## Decoding makes no ASCII characters -/

def asciiCount (s : List Char) : Nat := s.countP fun c => c.toNat < 128

def asciiBytes (bs : List UInt8) : Nat := bs.countP fun b => b.toNat < 128

/-- The ASCII bytes of two lists. -/
theorem asciiBytes_append (bs cs : List UInt8) :
    asciiBytes (bs ++ cs) = asciiBytes bs + asciiBytes cs := List.countP_append

/-- The ASCII bytes of a character are itself or none. -/
theorem asciiBytes_utf8EncodeChar (c : Char) :
    asciiBytes (String.utf8EncodeChar c) = if c.toNat < 128 then 1 else 0 := by
  unfold asciiBytes
  split
  · rename_i h
    rw [utf8EncodeChar_of_ascii h]
    simp [toNat_ofNat_of_ascii h, h]
  · rename_i h
    rw [List.countP_eq_zero]
    intro b hb
    have hge := utf8EncodeChar_of_not_ascii h b hb
    rw [decide_eq_true_eq]
    omega

/-- Replacing plus signs keeps the ASCII bytes. -/
theorem asciiBytes_map_plusByte (bs : List UInt8) :
    asciiBytes (bs.map plusByte) = asciiBytes bs := by
  unfold asciiBytes
  rw [List.countP_map]
  apply List.countP_congr
  intro b _
  unfold plusByte
  by_cases h : b = 0x2B
  · subst h
    decide
  · simp [h]

/-- A text that can be decoded starts with the bytes of its first character. -/
theorem eq_append_of_utf8DecodeChar? {bs : List UInt8} {c : Char}
    (h : bs.toByteArray.utf8DecodeChar? 0 = some c) :
    bs = String.utf8EncodeChar c ++ bs.drop c.utf8Size := by
  have hbytes := congrArg (fun b : ByteArray => b.data.toList)
      (ByteArray.eq_of_utf8DecodeChar?_eq_some h)
  simp only [List.data_toByteArray, ByteArray.data_append, ByteArray.data_extract,
    Array.toList_append,
    Array.toList_extract, List.extract_eq_take_drop, List.size_toByteArray] at hbytes
  rw [List.take_of_length_le (List.length_drop ..).le] at hbytes
  exact hbytes

/-- Decoding UTF-8 makes no ASCII characters. -/
theorem asciiCount_utf8LossyAux_le (fuel : Nat) (bs : List UInt8) :
    asciiCount (utf8LossyAux fuel bs) ≤ asciiBytes bs := by
  induction fuel generalizing bs with
  | zero => exact Nat.zero_le _
  | succ fuel ih =>
    cases bs with
    | nil => exact Nat.zero_le _
    | cons b bs =>
      unfold utf8LossyAux
      split
      · -- a character takes the bytes of its own encoding
        rename_i c hc
        have hrest := ih ((b :: bs).drop c.utf8Size)
        have hsplit := congrArg asciiBytes (eq_append_of_utf8DecodeChar? hc)
        rw [asciiBytes_append, asciiBytes_utf8EncodeChar] at hsplit
        rw [hsplit]
        unfold asciiCount at hrest ⊢
        rw [List.countP_cons]
        simp only [decide_eq_true_eq]
        omega
      · -- the replacement character is not ASCII
        have hrest := ih ((b :: bs).drop (illFormedLength (b :: bs)))
        have hdrop : asciiBytes ((b :: bs).drop (illFormedLength (b :: bs))) ≤
            asciiBytes (b :: bs) :=
          (List.drop_sublist _ _).countP_le
        unfold asciiCount at hrest ⊢
        rw [List.countP_cons_of_neg (by decide)]
        omega

/-- Resolving escapes makes no ASCII characters, and takes three for one. -/
theorem asciiBytes_unescape_le (s : List Char) :
    asciiBytes (unescape s) ≤ asciiCount s ∧
      (hasEscape s = true → asciiBytes (unescape s) < asciiCount s) := by
  -- one character adds at most one byte below 128
  have hchar : ∀ c bs, asciiBytes ((String.utf8EncodeChar c).map plusByte ++ bs) =
      (if c.toNat < 128 then 1 else 0) + asciiBytes bs := by
    intro c bs
    rw [asciiBytes_append, asciiBytes_map_plusByte, asciiBytes_utf8EncodeChar]
  have hcount : ∀ c s, asciiCount (c :: s) = (if c.toNat < 128 then 1 else 0) + asciiCount s := by
    intro c s
    unfold asciiCount
    rw [List.countP_cons, Nat.add_comm]
    simp only [decide_eq_true_eq]
  have hbyte : ∀ b bs, asciiBytes (b :: bs) ≤ 1 + asciiBytes bs := by
    intro b bs
    unfold asciiBytes
    rw [List.countP_cons]
    split <;> omega
  induction s using unescape.induct with
  | case1 => exact ⟨Nat.le_refl _, (by rintro ⟨⟩)⟩
  | case2 c =>
    have heq := hchar c []
    rw [List.append_nil] at heq
    rw [unescape, heq, hcount]
    exact ⟨Nat.le_refl _, (by rintro ⟨⟩)⟩
  | case3 c d =>
    have heq := hchar d []
    rw [List.append_nil] at heq
    rw [unescape, hchar, heq, hcount, hcount]
    exact ⟨Nat.le_refl _, (by rintro ⟨⟩)⟩
  -- three ASCII characters for at most one ASCII byte
  | case4 d e rest x y hx hy ih =>
    have hd := (encodeChar_of_plain (inQuerySet_of_hexValue hx)).1
    have he := (encodeChar_of_plain (inQuerySet_of_hexValue hy)).1
    have hread : unescape ('%' :: d :: e :: rest) = UInt8.ofNat (16 * x + y) :: unescape rest := by
      simp only [unescape, if_true, hx, hy]
    have hle := hbyte (UInt8.ofNat (16 * x + y)) (unescape rest)
    rw [hread, hcount, hcount, hcount, if_pos hd, if_pos he, if_pos (by decide)]
    omega
  -- the `%` is kept, and is no escape
  | case5 d e rest hnone ih =>
    obtain ⟨hread, hescape⟩ := unescape_percent rest hnone
    have hle := hbyte 0x25 (unescape (d :: e :: rest))
    rw [hread, hescape, hcount '%', if_pos (by decide)]
    refine ⟨by omega, fun h => ?_⟩
    have hlt := ih.2 h
    omega
  | case6 c d e rest hc ih =>
    have hescape : hasEscape (c :: d :: e :: rest) = hasEscape (d :: e :: rest) := by
      simp [hasEscape, hc]
    rw [unescape, if_neg hc, hchar, hescape, hcount c]
    refine ⟨by omega, fun h => ?_⟩
    have hlt := ih.2 h
    omega

/-- Reading a text makes no ASCII characters, and fewer where it has an escape. -/
theorem asciiCount_readText_le (s : List Char) :
    asciiCount (readText s) ≤ asciiCount s ∧
      (hasEscape s = true → asciiCount (readText s) < asciiCount s) := by
  have hlossy := asciiCount_utf8LossyAux_le (unescape s).length (unescape s)
  have hread : asciiCount (readText s) ≤ asciiBytes (unescape s) := hlossy
  obtain ⟨hle, hlt⟩ := asciiBytes_unescape_le s
  refine ⟨by omega, fun h => ?_⟩
  have := hlt h
  omega

/-! ## Texts without escapes -/

/-- The decoder takes a character from the front, or replaces what is none. -/
theorem utf8LossyAux_cons (fuel : Nat) (b : UInt8) (bs : List UInt8) :
    utf8LossyAux (fuel + 1) (b :: bs) =
      match (b :: bs).toByteArray.utf8DecodeChar? 0 with
      | some c => c :: utf8LossyAux fuel ((b :: bs).drop c.utf8Size)
      | none => '\uFFFD' :: utf8LossyAux fuel ((b :: bs).drop (illFormedLength (b :: bs))) := rfl

/-- More fuel than there are bytes makes no difference. -/
theorem utf8LossyAux_eq {fuel : Nat} {bs : List UInt8} (h : bs.length ≤ fuel) :
    utf8LossyAux fuel bs = utf8Lossy bs := by
  -- the bytes that a step takes are at least one, so both amounts of fuel last
  have hmore : ∀ n fuel, ∀ bs : List UInt8, bs.length ≤ n → n ≤ fuel →
      utf8LossyAux fuel bs = utf8LossyAux n bs := by
    intro n
    induction n with
    | zero =>
      intro fuel bs hn _
      obtain rfl : bs = [] := List.eq_nil_of_length_eq_zero (by omega)
      cases fuel <;> rfl
    | succ n ih =>
      intro fuel bs hn hfuel
      obtain ⟨fuel, rfl⟩ : ∃ m, fuel = m + 1 := ⟨fuel - 1, by omega⟩
      cases bs with
      | nil => rfl
      | cons b bs =>
        have hdrop : ∀ k, 0 < k → ((b :: bs).drop k).length ≤ n := by
          intro k hk
          rw [List.length_drop]
          omega
        have hill : ∀ bs, 0 < illFormedLength bs := by
          intro bs
          unfold illFormedLength
          repeat' split
          all_goals decide
        rw [utf8LossyAux_cons, utf8LossyAux_cons]
        split
        · rename_i c _
          rw [ih fuel _ (hdrop c.utf8Size c.utf8Size_pos) (by omega)]
        · rw [ih fuel _ (hdrop _ (hill _)) (by omega)]
  exact hmore bs.length fuel bs (Nat.le_refl _) h

/-- It takes the character that was written in front. -/
theorem utf8Lossy_append (c : Char) (bs : List UInt8) :
    utf8Lossy (String.utf8EncodeChar c ++ bs) = c :: utf8Lossy bs := by
  have hdecode : (String.utf8EncodeChar c ++ bs).toByteArray.utf8DecodeChar? 0 = some c := by
    rw [List.toByteArray_append]
    exact ByteArray.utf8DecodeChar?_utf8EncodeChar_append
  have hdrop : (String.utf8EncodeChar c ++ bs).drop c.utf8Size = bs := by
    rw [← String.length_utf8EncodeChar c]
    exact List.drop_left
  obtain ⟨b, tail, hcons⟩ := List.exists_cons_of_ne_nil (utf8EncodeChar_ne_nil c)
  rw [hcons, List.cons_append] at hdecode hdrop ⊢
  rw [← utf8LossyAux_eq (Nat.le_succ (b :: (tail ++ bs)).length), utf8LossyAux_cons, hdecode]
  show c :: utf8LossyAux _ ((b :: (tail ++ bs)).drop c.utf8Size) = c :: utf8Lossy bs
  rw [hdrop, utf8LossyAux_eq]
  rw [List.length_cons, List.length_append]
  omega

/-- What was encoded is decoded. -/
theorem utf8Lossy_utf8 (s : List Char) : utf8Lossy (utf8 s) = s := by
  induction s with
  | nil => rfl
  | cons c s ih =>
    have hcons : utf8 (c :: s) = String.utf8EncodeChar c ++ utf8 s := List.flatMap_cons
    rw [hcons, utf8Lossy_append, ih]

/-- A `+` in the text of a form is a space. -/
def plusChar (c : Char) : Char := if c = '+' then ' ' else c

/-- Plus signs are replaced in bytes as in characters. -/
theorem map_plusByte_utf8EncodeChar (c : Char) :
    (String.utf8EncodeChar c).map plusByte = String.utf8EncodeChar (plusChar c) := by
  unfold plusChar
  split
  · rename_i h
    subst h
    decide
  · rename_i h
    rw [List.map_congr_left (g := id), List.map_id]
    intro b hb
    apply plusByte_of_ne
    intro heq
    have hb' : b = UInt8.ofNat '+'.toNat := UInt8.toNat_inj.mp heq
    rw [hb'] at hb
    exact h ((mem_utf8EncodeChar_iff (by decide)).mp hb)

/-- A text without escapes is read as it stands, but for the pluses. -/
theorem readText_of_not_hasEscape {s : List Char} (h : hasEscape s = false) :
    readText s = s.map plusChar := by
  -- the bytes are those of the text, so that decoding them gives it back
  have hutf8 : unescape s = utf8 (s.map plusChar) := by
    induction s using unescape.induct with
    | case1 => rfl
    | case2 c =>
      rw [unescape, map_plusByte_utf8EncodeChar]
      exact (List.append_nil _).symm
    | case3 c d =>
      rw [unescape, map_plusByte_utf8EncodeChar, map_plusByte_utf8EncodeChar]
      exact congrArg _ (List.append_nil _).symm
    | case4 d e rest x y hx hy ih =>
      simp [hasEscape, hx, hy] at h
    | case5 d e rest hnone ih =>
      obtain ⟨hread, hsame⟩ := unescape_percent rest hnone
      rw [hread, ih (hsame ▸ h)]
      rfl
    | case6 c d e rest hc ih =>
      have hrest : hasEscape (d :: e :: rest) = false := by
        rw [hasEscape, Bool.or_eq_false_iff] at h
        exact h.2
      rw [unescape, if_neg hc, ih hrest, map_plusByte_utf8EncodeChar]
      rfl
  rw [readText, hutf8, utf8Lossy_utf8]

end FormUrlEncoded
