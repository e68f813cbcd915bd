import LocalSend.ForStd.QueryText
import LocalSend.ForStd.IpText

/-!
# Parsing URLs

What a program relies on of a parser of `http` and `https` URLs that follows the URL Standard: how
it reads the authority and the query. The parser itself is a parameter, and so is its host parser.

## Key results

- `hostPort_of_digits`: a host and a port with one colon between them
- `hostPort_of_colons`: an authority with two colons and no brackets is not one
- `UrlParser.reference_standard`: a parser that follows the standard
-/

namespace Url

open FormUrlEncoded IpText

inductive Scheme where
  | http
  | https
deriving DecidableEq, Repr

def Scheme.text : Scheme → List Char
  | .http => ['h', 't', 't', 'p']
  | .https => ['h', 't', 't', 'p', 's']

def Scheme.defaultPort : Scheme → Nat
  | .http => 80
  | .https => 443

inductive Host where
  | ipv4 (a : BitVec 32)
  | ipv6 (a : BitVec 128)
  | domain (name : List Char)
deriving DecidableEq, Repr

/-- The parts of a URL that matter here; `port` is that of the scheme where none is given. -/
structure ParsedUrl where
  host : Host
  port : Nat
  query : Option (List UInt8)
deriving DecidableEq, Repr

/-- The text of a URL. -/
def urlText (scheme : Scheme) (rest : List Char) : List Char :=
  scheme.text ++ [':', '/', '/'] ++ rest

/-! ## Authorities -/

/-- The text of the host, and of the port where there is one: they are split at the first colon
    that is not in brackets. -/
def splitHost (inBrackets : Bool) : List Char → List Char × Option (List Char)
  | [] => ([], none)
  | c :: cs =>
    if c = ':' ∧ inBrackets = false then ([], some cs)
    else
      let r := splitHost (if c = '[' then true else if c = ']' then false else inBrackets) cs
      (c :: r.1, r.2)

/-- A port: nothing, which is the default, or a decimal number. -/
def parsePort (default : Nat) (s : List Char) : Option Nat :=
  if s = [] then some default
  else if s.all Char.isDigit ∧ Nat.ofDigitChars 10 s 0 < 2 ^ 16 then some (Nat.ofDigitChars 10 s 0)
  else none

/-- The host and the port of an authority. -/
def hostPort (parseHost : List Char → Option Host) (scheme : Scheme) (authority : List Char) :
    Option (Host × Nat) :=
  match splitHost false authority with
  | ([], _) => none
  | (host, port) => do
    let host ← parseHost host
    let port ← match port with
      | none => some scheme.defaultPort
      | some text => parsePort scheme.defaultPort text
    some (host, port)

/-- An authority without anything that a parser drops, or that ends it or sets off a user name. -/
def PlainAuthority (authority : List Char) : Prop :=
  authority ≠ [] ∧ ∀ c ∈ authority, isC0OrSpace c = false ∧
    c ≠ '/' ∧ c ≠ '\\' ∧ c ≠ '?' ∧ c ≠ '#' ∧ c ≠ '@'

/-! ## Parsers -/

/-- A URL parser and its host parser. -/
structure UrlParser where
  parseHost : List Char → Option Host
  parse : List Char → Option ParsedUrl

/-- The rules of the URL Standard for what is left of them here: a dotted-decimal host is that IPv4
    address, an authority is read as `hostPort` says, and a query as `queryOf` says. -/
structure UrlParser.Standard (url : UrlParser) : Prop where
  ipv4 : ∀ a, url.parseHost (ipv4Text a) = some (.ipv4 a)
  authority : ∀ scheme authority path, PlainAuthority authority →
    (url.parse (urlText scheme (authority ++ '/' :: path))).map (fun u => (u.host, u.port)) =
      hostPort url.parseHost scheme authority
  query : ∀ scheme rest u, url.parse (urlText scheme rest) = some u →
    u.query = queryOf (urlText scheme rest)

/-- A host in dotted decimals. -/
def parseDotted (s : List Char) : Option (BitVec 32) :=
  match (s.splitOn '.').map fun part => Nat.ofDigitChars 10 part 0 with
  | [a, b, c, d] =>
    let address := BitVec.ofNat 32 (((a * 256 + b) * 256 + c) * 256 + d)
    if ipv4Text address = s then some address else none
  | _ => none

/-- The rest of a URL, and its scheme. -/
def splitScheme (s : List Char) : Option (Scheme × List Char) :=
  if [':', '/', '/'].isPrefixOf (s.drop 4) then some (.http, s.drop 7)
  else if [':', '/', '/'].isPrefixOf (s.drop 5) then some (.https, s.drop 8)
  else none

/-- A host in dotted decimals, or any other name. -/
def referenceHost (s : List Char) : Option Host :=
  match parseDotted s with
  | some a => some (.ipv4 a)
  | none => some (.domain s)

/-- A parser that follows these rules. -/
def UrlParser.reference : UrlParser where
  parseHost := referenceHost
  parse s :=
    (splitScheme s).bind fun (scheme, rest) =>
      (hostPort referenceHost scheme (rest.takeWhile fun c => c ≠ '/' && c ≠ '?')).map
        fun (host, port) => ⟨host, port, queryOf s⟩

/-! ## A host and a port -/

/-- A host without colons and brackets. -/
theorem splitHost_append {host : List Char} (hcolon : ':' ∉ host)
    (hbracket : '[' ∉ host ∧ ']' ∉ host) (rest : List Char) :
    splitHost false (host ++ ':' :: rest) = (host, some rest) := by
  induction host with
  | nil => rfl
  | cons c host ih =>
    simp only [List.mem_cons, not_or] at hcolon hbracket
    rw [List.cons_append, splitHost, if_neg fun h => hcolon.1 h.1.symm,
      if_neg (Ne.symm hbracket.1.1), if_neg (Ne.symm hbracket.2.1),
      ih hcolon.2 ⟨hbracket.1.2, hbracket.2.2⟩]

theorem parsePort_decimal (default : Nat) (p : UInt16) :
    parsePort default (decimal p.toNat) = some p.toNat := by
  have hall : (decimal p.toNat).all Char.isDigit = true :=
    List.all_eq_true.mpr fun c hc => isDigit_of_mem_decimal hc
  have hlt : p.toNat < 2 ^ 16 := p.toNat_lt
  unfold parsePort
  rw [if_neg (decimal_ne_nil _), ofDigitChars_decimal, if_pos ⟨hall, hlt⟩]

/-- A host and a port with one colon between them. -/
theorem hostPort_of_digits {parseHost : List Char → Option Host} {scheme : Scheme}
    {host : List Char} (hne : host ≠ []) (hcolon : ':' ∉ host) (hbracket : '[' ∉ host ∧ ']' ∉ host)
    (p : UInt16) :
    hostPort parseHost scheme (host ++ ':' :: decimal p.toNat) =
      (parseHost host).map fun host => (host, p.toNat) := by
  unfold hostPort
  rw [splitHost_append hcolon hbracket]
  obtain ⟨c, cs, rfl⟩ := List.exists_cons_of_ne_nil hne
  dsimp only
  rw [parsePort_decimal]
  cases parseHost (c :: cs) <;> rfl

/-- With two colons and no brackets, what follows the first colon is no port. -/
theorem hostPort_of_colons {parseHost : List Char → Option Host} {scheme : Scheme}
    {authority : List Char} (hcount : 2 ≤ authority.count ':')
    (hbracket : '[' ∉ authority ∧ ']' ∉ authority) :
    hostPort parseHost scheme authority = none := by
  -- the host ends at the first colon, and the second is in what follows
  have hmem : ':' ∈ authority := List.count_pos_iff.mp (by omega)
  obtain ⟨host, rest, rfl, hhost⟩ := List.eq_append_cons_of_mem hmem
  have hnone : host.count ':' = 0 := List.count_eq_zero.mpr hhost
  rw [List.count_append, List.count_cons_self, hnone] at hcount
  have hrest : ':' ∈ rest := List.count_pos_iff.mp (by omega)
  -- a port has no colon in it
  have hport : ∀ default, parsePort default rest = none := by
    intro default
    unfold parsePort
    rw [if_neg (List.ne_nil_of_mem hrest), if_neg]
    rintro ⟨hall, _⟩
    cases List.all_eq_true.mp hall ':' hrest
  have hhostbracket : '[' ∉ host ∧ ']' ∉ host := by
    simp only [List.mem_append, not_or] at hbracket
    exact ⟨hbracket.1.1, hbracket.2.1⟩
  unfold hostPort
  rw [splitHost_append hhost hhostbracket]
  cases host with
  | nil => rfl
  | cons c host =>
    dsimp only
    rw [hport]
    cases parseHost (c :: host) <;> rfl

/-! ## A parser that follows the standard -/

theorem parseDotted_ipv4Text (a : BitVec 32) : parseDotted (ipv4Text a) = some a := by
  have hdot : ∀ n, '.' ∉ decimal n := by
    intro n hmem
    cases isDigit_of_mem_decimal hmem
  have hsplit : (ipv4Text a).splitOn '.' =
      [decimal (octet a 0), decimal (octet a 1), decimal (octet a 2), decimal (octet a 3)] := by
    -- the dots are the first ones, since the decimals have none
    have hassoc : ipv4Text a = decimal (octet a 0) ++ '.' :: (decimal (octet a 1) ++
        '.' :: (decimal (octet a 2) ++ '.' :: decimal (octet a 3))) := by
      simp [ipv4Text]
    rw [hassoc, List.splitOn_append_cons_of_beq _ _ (by rfl),
      List.splitOn_append_cons_of_beq _ _ (by rfl),
      List.splitOn_append_cons_of_beq _ _ (by rfl), List.splitOn_eq_singleton (hdot _),
      List.splitOn_eq_singleton (hdot _), List.splitOn_eq_singleton (hdot _),
      List.splitOn_eq_singleton (hdot _)]
    rfl
  -- four octets in base 256
  have haddress : BitVec.ofNat 32
      (((octet a 0 * 256 + octet a 1) * 256 + octet a 2) * 256 + octet a 3) = a := by
    have hlt := a.isLt
    apply BitVec.eq_of_toNat_eq
    rw [BitVec.toNat_ofNat]
    simp only [octet]
    omega
  unfold parseDotted
  rw [hsplit]
  simp only [List.map_cons, List.map_nil, ofDigitChars_decimal]
  rw [haddress, if_pos rfl]

theorem splitScheme_urlText (scheme : Scheme) (rest : List Char) :
    splitScheme (urlText scheme rest) = some (scheme, rest) := by
  cases scheme <;> rfl

theorem UrlParser.reference_standard : UrlParser.reference.Standard where
  ipv4 a := by
    show referenceHost (ipv4Text a) = _
    rw [referenceHost, parseDotted_ipv4Text]
  authority scheme authority path hplain := by
    have htake : (authority ++ '/' :: path).takeWhile (fun c => c ≠ '/' && c ≠ '?') =
        authority := by
      rw [List.takeWhile_append_of_pos]
      · exact List.append_nil _
      · intro c hc
        have hplain := (hplain.2 c hc).2
        simp [hplain.1, hplain.2.2.1]
    show ((splitScheme (urlText scheme (authority ++ '/' :: path))).bind _).map _ =
      hostPort referenceHost scheme authority
    rw [splitScheme_urlText, Option.bind_some]
    dsimp only
    rw [htake, Option.map_map]
    cases hostPort referenceHost scheme authority <;> rfl
  query scheme rest u hu := by
    simp only [UrlParser.reference, splitScheme_urlText, Option.bind_some,
      Option.map_eq_some_iff] at hu
    obtain ⟨_, _, rfl⟩ := hu
    rfl

end Url
