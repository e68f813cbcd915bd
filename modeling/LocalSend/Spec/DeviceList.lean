import LocalSend.ForStd.FirstWins
import LocalSend.Tui.App

/-!
# The device list over all sightings

An entry is never changed or given up, so the list has the first sighting of every fingerprint and
of every address. A peer that moves, or that comes back under another fingerprint, stays listed as
it was seen first.

## Key results

- `devices_first_seen`: what the list is after any sightings, and when a sighting is listed
-/

namespace LocalSend

open FirstWins

/-! ## Addresses and clashes -/

/-- Two sightings with one address. -/
def SameAddress (d e : DeviceInfo) : Prop := d.ip = e.ip ∧ d.port = e.port

/-- What keeps a sighting out of the list. -/
def clashes (d e : DeviceInfo) : Bool :=
  d.fingerprint = e.fingerprint || (d.ip = e.ip && d.port = e.port)

/-- Two devices clash by fingerprint or by address. -/
theorem clashes_eq_true {d e : DeviceInfo} :
    clashes d e = true ↔ d.fingerprint = e.fingerprint ∨ SameAddress d e := by
  simp only [clashes, SameAddress, Bool.or_eq_true, Bool.and_eq_true, decide_eq_true_eq]

/-- Two devices go together if neither is the same. -/
theorem clashes_eq_false {d e : DeviceInfo} :
    clashes d e = false ↔ d.fingerprint ≠ e.fingerprint ∧ ¬SameAddress d e := by
  rw [← Bool.not_eq_true, clashes_eq_true, not_or]

/-- It does not matter which of the two came first. -/
theorem clashes_comm (d e : DeviceInfo) : clashes d e = clashes e d := by
  unfold clashes
  simp only [eq_comm]

/-- The entry of a device: its fingerprint, at its address. -/
def Listed (devices : List DeviceInfo) (d : DeviceInfo) : Prop :=
  ∃ e ∈ devices, e.fingerprint = d.fingerprint ∧ SameAddress e d

/-- The list after some sightings. -/
def remembered (own : String) (sightings : List DeviceInfo) : List DeviceInfo :=
  sightings.foldl (fun devices d => (rememberDevice devices own d).2) []

/-! ## One sighting -/

/-- The own device is not remembered. -/
theorem rememberDevice_own {own : String} {d : DeviceInfo} (devices : List DeviceInfo)
    (h : d.fingerprint = own) : rememberDevice devices own d = (false, devices) := if_pos h

/-- Any other device is remembered unless it clashes. -/
theorem rememberDevice_other {own : String} {d : DeviceInfo} (devices : List DeviceInfo)
    (h : d.fingerprint ≠ own) : (rememberDevice devices own d).2 = keep clashes devices d := by
  unfold rememberDevice keep clashes
  rw [if_neg h]
  split <;> rfl

/-- The sightings that are not our own, each kept unless it clashes. -/
theorem remembered_eq (own : String) (sightings : List DeviceInfo) :
    remembered own sightings =
      keepFirst clashes [] (sightings.filter fun d => d.fingerprint ≠ own) := by
  have hfold : ∀ devices,
      sightings.foldl (fun devices d => (rememberDevice devices own d).2) devices =
      keepFirst clashes devices (sightings.filter fun d => d.fingerprint ≠ own) := by
    induction sightings with
    | nil => exact fun _ => rfl
    | cons d sightings ih =>
      intro devices
      rw [List.foldl_cons, ih]
      by_cases hown : d.fingerprint = own
      · rw [rememberDevice_own devices hown, List.filter_cons_of_neg (by simp [hown])]
      · rw [rememberDevice_other devices hown, List.filter_cons_of_pos (by simp [hown]),
          keepFirst_cons]
  exact hfold []

/-- One more sighting is remembered after the others. -/
theorem remembered_concat (own : String) (sightings : List DeviceInfo) (d : DeviceInfo) :
    remembered own (sightings ++ [d]) = (rememberDevice (remembered own sightings) own d).2 := by
  rw [remembered, List.foldl_append, List.foldl_cons, List.foldl_nil, ← remembered]

/-! ## All sightings -/

/-- Every entry is a sighting of another device. -/
theorem mem_remembered {own : String} {sightings : List DeviceInfo} {e : DeviceInfo}
    (h : e ∈ remembered own sightings) : e ∈ sightings ∧ e.fingerprint ≠ own := by
  rw [remembered_eq] at h
  cases mem_keepFirst h with
  | inl hnil => cases hnil
  | inr hsighted =>
    have hfilter := List.mem_filter.mp hsighted
    exact ⟨hfilter.1, of_decide_eq_true hfilter.2⟩

/-- No two remembered devices share a fingerprint or an address. -/
theorem remembered_pairwise (own : String) (sightings : List DeviceInfo) :
    (remembered own sightings).Pairwise fun d e => d.fingerprint ≠ e.fingerprint ∧
      ¬SameAddress d e := by
  rw [remembered_eq]
  have hnil : ([] : List DeviceInfo).Pairwise fun d e => clashes d e = false := List.Pairwise.nil
  exact (keepFirst_pairwise _ hnil).imp fun hclash => clashes_eq_false.mp hclash

/-- Entries stay. -/
theorem prefix_remembered (own : String) (sightings more : List DeviceInfo) :
    remembered own sightings <+: remembered own (sightings ++ more) := by
  rw [remembered_eq, remembered_eq, List.filter_append, keepFirst_append]
  exact prefix_keepFirst ..

/-- Two entries with one fingerprint or with one address are one. -/
theorem remembered_unique {own : String} {sightings : List DeviceInfo} {d e : DeviceInfo}
    (hd : d ∈ remembered own sightings) (he : e ∈ remembered own sightings)
    (h : d.fingerprint = e.fingerprint ∨ SameAddress d e) : d = e := by
  rw [remembered_eq] at hd he
  exact keepFirst_unique clashes_comm hd he (clashes_eq_true.mpr h)

/-- A sighting is in the list, or what it clashes with. -/
theorem exists_entry {own : String} {sightings : List DeviceInfo} {d : DeviceInfo}
    (hd : d ∈ sightings) (hown : d.fingerprint ≠ own) :
    ∃ e ∈ remembered own sightings, e.fingerprint = d.fingerprint ∨ SameAddress e d := by
  have hother : d ∈ sightings.filter fun d => d.fingerprint ≠ own :=
    List.mem_filter.mpr ⟨hd, decide_eq_true hown⟩
  obtain ⟨e, he, hcase⟩ : ∃ e ∈ remembered own sightings, e = d ∨ clashes e d = true := by
    rw [remembered_eq]
    exact exists_mem_keepFirst [] hother
  cases hcase with
  | inl heq => exact ⟨e, he, .inl (by rw [heq])⟩
  | inr hclash => exact ⟨e, he, clashes_eq_true.mp hclash⟩

/-! ## Freshness -/

/-- A sighting is listed if it was before, or if it is the first of its fingerprint and address. -/
theorem listed_iff {own : String} (sightings : List DeviceInfo) {d : DeviceInfo}
    (hown : d.fingerprint ≠ own) :
    Listed (remembered own (sightings ++ [d])) d ↔
      Listed (remembered own sightings) d ∨
        ∀ e ∈ remembered own sightings, e.fingerprint ≠ d.fingerprint ∧ ¬SameAddress e d := by
  rw [remembered_concat, rememberDevice_other _ hown]
  cases keep_cases clashes (remembered own sightings) d with
  | inl hkeep =>
    obtain ⟨y, hy, hclash, heq⟩ := hkeep
    rw [heq]
    constructor
    · exact .inl
    · intro h
      cases h with
      | inl hlisted => exact hlisted
      | inr hnone => exact absurd hclash (Bool.not_eq_true _ ▸ clashes_eq_false.mpr (hnone y hy))
  | inr hkeep =>
    rw [hkeep.2]
    constructor
    · intro _
      exact .inr fun e he => clashes_eq_false.mp (hkeep.1 e he)
    · intro _
      exact ⟨d, List.mem_append_right _ (List.mem_singleton_self d), rfl, rfl, rfl⟩

/-- The fingerprints and the addresses of the other devices determine each other. -/
def OneToOne (own : String) (sightings : List DeviceInfo) : Prop :=
  ∀ d ∈ sightings, ∀ e ∈ sightings, d.fingerprint ≠ own → e.fingerprint ≠ own →
    (d.fingerprint = e.fingerprint ↔ SameAddress d e)

/-- Every sighting is listed when it is folded in. -/
def AlwaysListed (own : String) (sightings : List DeviceInfo) : Prop :=
  ∀ before d, before ++ [d] <+: sightings → d.fingerprint ≠ own →
    Listed (remembered own (before ++ [d])) d

/-- With one fingerprint to an address and one address to a fingerprint every sighting is listed. -/
theorem alwaysListed_of_oneToOne {own : String} {sightings : List DeviceInfo}
    (h : OneToOne own sightings) : AlwaysListed own sightings := by
  intro before d hstarts hown
  have hd : d ∈ before ++ [d] := List.mem_append_right _ (List.mem_singleton_self d)
  obtain ⟨e, he, hcase⟩ := exists_entry hd hown
  have hsighted := mem_remembered he
  have hiff := h e (hstarts.subset hsighted.1) d (hstarts.subset hd) hsighted.2 hown
  cases hcase with
  | inl hfp => exact ⟨e, he, hfp, hiff.mp hfp⟩
  | inr haddr => exact ⟨e, he, hiff.mpr haddr, haddr⟩

/-- Of two sightings that are both listed, the entries are one. -/
theorem listed_agree {own : String} {sightings : List DeviceInfo} {d e : DeviceInfo}
    (hd : Listed (remembered own sightings) d) (he : Listed (remembered own sightings) e) :
    d.fingerprint = e.fingerprint ↔ SameAddress d e := by
  obtain ⟨x, hx, hxfp, hxaddr⟩ := hd
  obtain ⟨y, hy, hyfp, hyaddr⟩ := he
  constructor
  · intro hfp
    have hxy : x = y := remembered_unique hx hy (.inl (by rw [hxfp, hyfp, hfp]))
    rw [hxy] at hxaddr
    exact ⟨hxaddr.1.symm.trans hyaddr.1, hxaddr.2.symm.trans hyaddr.2⟩
  · intro haddr
    have hxy : x = y := remembered_unique hx hy
      (.inr ⟨hxaddr.1.trans (haddr.1.trans hyaddr.1.symm),
        hxaddr.2.trans (haddr.2.trans hyaddr.2.symm)⟩)
    rw [← hxfp, ← hyfp, hxy]

/-- And only then: the first clash is a sighting that is not listed. -/
theorem oneToOne_of_alwaysListed {own : String} {sightings : List DeviceInfo}
    (h : AlwaysListed own sightings) : OneToOne own sightings := by
  -- an entry outlives the sightings that follow it
  have hlisted : ∀ d ∈ sightings, d.fingerprint ≠ own → Listed (remembered own sightings) d := by
    intro d hd hown
    obtain ⟨before, after, heq⟩ := List.append_of_mem hd
    have hsplit : sightings = before ++ [d] ++ after := by
      rw [heq, List.append_assoc, List.singleton_append]
    obtain ⟨e, he, hsame⟩ := h before d ⟨after, hsplit.symm⟩ hown
    rw [hsplit]
    exact ⟨e, (prefix_remembered own (before ++ [d]) after).subset he, hsame⟩
  intro d hd e he hdown heown
  exact listed_agree (hlisted d hd hdown) (hlisted e he heown)

/-- The list after any sightings: what is in it, when a sighting is listed, and when all of them
    are. -/
theorem devices_first_seen (own : String) (sightings : List DeviceInfo) :
    (∀ e ∈ remembered own sightings, e ∈ sightings ∧ e.fingerprint ≠ own) ∧
      ((remembered own sightings).Pairwise fun d e => d.fingerprint ≠ e.fingerprint ∧
        ¬SameAddress d e) ∧
      (∀ d : DeviceInfo, remembered own sightings <+: remembered own (sightings ++ [d]) ∧
        (d.fingerprint ≠ own →
          (∃ e ∈ remembered own (sightings ++ [d]), e.fingerprint = d.fingerprint ∨
            SameAddress e d) ∧
          (Listed (remembered own (sightings ++ [d])) d ↔
            Listed (remembered own sightings) d ∨
              ∀ e ∈ remembered own sightings, e.fingerprint ≠ d.fingerprint ∧ ¬SameAddress e d))) ∧
      (AlwaysListed own sightings ↔ OneToOne own sightings) := by
  refine ⟨fun e he => mem_remembered he, remembered_pairwise own sightings, ?_,
    oneToOne_of_alwaysListed, alwaysListed_of_oneToOne⟩
  intro d
  have hd : d ∈ sightings ++ [d] := List.mem_append_right _ (List.mem_singleton_self d)
  exact ⟨prefix_remembered own sightings [d],
    fun hown => ⟨exists_entry hd hown, listed_iff sightings hown⟩⟩

/-! ## A peer that moves -/

/-- A peer at an address. -/
def sightedAt (ip : String) : DeviceInfo where
  deviceAlias := "peer"
  version := "2.1"
  deviceModel := none
  deviceType := none
  fingerprint := "peer-fp"
  port := 53317
  protocol := .https
  download := false
  ip := some ip

/-- A peer that was seen at one address, and then at another, is listed at the first one only. -/
theorem moved_peer_not_listed :
    ¬Listed (remembered "self-fp" [sightedAt "192.168.6.172", sightedAt "192.168.6.173"])
      (sightedAt "192.168.6.173") := by
  have hlist : remembered "self-fp" [sightedAt "192.168.6.172", sightedAt "192.168.6.173"] =
      [sightedAt "192.168.6.172"] := by decide
  rw [hlist]
  intro h
  obtain ⟨e, he, -, haddr, -⟩ := h
  rw [List.mem_singleton.mp he] at haddr
  exact absurd haddr (by decide)

end LocalSend
