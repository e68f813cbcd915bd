import LocalSend.ForStd.FirstWins
import LocalSend.Discovery.Interfaces

/-!
# Which interfaces are chosen

Container bridges are dropped before unusable addresses are, and what is left after the first filter
decides whether it was worth it. So an interface without a usable address can be all that is left.

## Key results

- `mem_selectInterfaceAddresses`: what one selection holds
- `candidates_eq`: the two phases of a choice without names
- `candidate_selection_iff`: when the choice is as it should be
-/

namespace LocalSend

open FirstWins

/-! ## One selection -/

/-- Sorting what was collected keeps its addresses. -/
theorem mem_collectSorted {l : List Ipv4Addr} {a : Ipv4Addr} : a ∈ collectSorted l ↔ a ∈ l := by
  rw [collectSorted, List.mem_insertionSort, List.mem_dedup]

/-- What was collected is a set. -/
theorem collectSorted_nodup (l : List Ipv4Addr) : (collectSorted l).Nodup :=
  (List.perm_insertionSort _ _).nodup_iff.mpr (List.nodup_dedup l)

/-- A sorted list in which nothing comes twice. -/
theorem collectSorted_pairwise (l : List Ipv4Addr) : (collectSorted l).Pairwise (· < ·) := by
  have hle : (collectSorted l).Pairwise fun a b => a ≤ b := List.pairwise_insertionSort _ _
  refine (hle.and (collectSorted_nodup l)).imp ?_
  intro a b h
  obtain ⟨hab, hne⟩ := h
  bv_omega

variable {addresses : List InterfaceAddress} {names : Option (List String)}
    {primary : Option Ipv4Addr}

/-- A selected address is a usable one of a named interface in the subnet of the primary address. -/
theorem mem_selectInterfaceAddresses {a : Ipv4Addr} :
    a ∈ selectInterfaceAddresses addresses names primary ↔
      ∃ e ∈ addresses, (∀ ns, names = some ns → e.name ∈ ns) ∧ isUsable e.address = true ∧
        (∀ p, primary = some p → sameSubnet e.address p e.netmask = true) ∧ e.address = a := by
  rw [selectInterfaceAddresses, mem_collectSorted]
  simp only [List.mem_map, List.mem_filter, Option.all_eq_true, List.contains_iff_mem]
  constructor
  · intro h
    obtain ⟨e, ⟨⟨⟨he, hname⟩, husable⟩, hsubnet⟩, ha⟩ := h
    exact ⟨e, he, hname, husable, hsubnet, ha⟩
  · intro h
    obtain ⟨e, he, hname, husable, hsubnet, ha⟩ := h
    exact ⟨e, ⟨⟨⟨he, hname⟩, husable⟩, hsubnet⟩, ha⟩

/-- No address is selected twice. -/
theorem selectInterfaceAddresses_nodup (addresses : List InterfaceAddress)
    (names : Option (List String)) (primary : Option Ipv4Addr) :
    (selectInterfaceAddresses addresses names primary).Nodup :=
  collectSorted_nodup _

/-- The selected addresses are in ascending order. -/
theorem selectInterfaceAddresses_pairwise (addresses : List InterfaceAddress)
    (names : Option (List String)) (primary : Option Ipv4Addr) :
    (selectInterfaceAddresses addresses names primary).Pairwise (· < ·) :=
  collectSorted_pairwise _

/-! ## The two phases -/

/-- Two addresses that are one. -/
def equalAddress (a b : Ipv4Addr) : Bool := a = b

/-- Elements that do not clash with each other are appended, but for those that clash already. -/
theorem keepFirst_equalAddress {xs : List Ipv4Addr} (hxs : xs.Nodup) (kept : List Ipv4Addr) :
    keepFirst equalAddress kept xs = kept ++ xs.filter fun a => !kept.contains a := by
  induction xs generalizing kept with
  | nil => rw [keepFirst_nil, List.filter_nil, List.append_nil]
  | cons x xs ih =>
    obtain ⟨hx, hxs⟩ := List.nodup_cons.mp hxs
    rw [keepFirst_cons]
    by_cases hmem : x ∈ kept
    · rw [keep_of_clash hmem (decide_eq_true rfl), ih hxs,
        List.filter_cons_of_neg (by simp only [List.contains_iff_mem.mpr hmem, Bool.not_true,
          Bool.false_eq_true, not_false_eq_true])]
    · have hnew : ∀ y ∈ kept, equalAddress y x = false := by
        intro y hy
        rw [equalAddress, decide_eq_false_iff_not]
        intro heq
        exact hmem (heq ▸ hy)
      -- the elements are distinct, so none of those to come clashes with the new one
      have hrest : xs.filter (fun a => !(kept ++ [x]).contains a) =
          xs.filter fun a => !kept.contains a := by
        apply List.filter_congr
        intro a ha
        have hax : a ≠ x := fun heq => hx (heq ▸ ha)
        simp only [List.contains_eq_mem, List.mem_append, List.mem_singleton, hax, or_false]
      rw [keep_of_not_clash hnew, ih hxs, hrest, List.append_assoc, List.filter_cons_of_pos
        (by simp only [List.contains_eq_mem, hmem, decide_false, Bool.not_false])]
      rfl

/-- The addresses in the subnet of the primary address, then the others. -/
theorem candidates_eq (addresses : List InterfaceAddress) (primary : Option Ipv4Addr) :
    selectMulticastCandidateAddresses addresses none primary =
      selectInterfaceAddresses (withoutContainerBridges addresses primary) none primary ++
        (selectInterfaceAddresses (withoutContainerBridges addresses primary) none none).filter fun a =>
          !(selectInterfaceAddresses (withoutContainerBridges addresses primary) none
            primary).contains a := by
  rw [← keepFirst_equalAddress (selectInterfaceAddresses_nodup ..)]
  unfold selectMulticastCandidateAddresses keepFirst keep equalAddress
  simp only [Option.isSome_none, Bool.false_eq_true, if_false, List.contains_eq_any_beq]
  congr 1
  funext candidates a
  simp only [beq_eq_decide, eq_comm]

/-- The filter drops bridges, unless they are all there is. -/
theorem mem_withoutContainerBridges {e : InterfaceAddress} :
    e ∈ withoutContainerBridges addresses primary ↔ e ∈ addresses ∧
      (survivesBridgeFilter primary e = true ∨ ∀ x ∈ addresses,
        survivesBridgeFilter primary x = false) := by
  unfold withoutContainerBridges
  dsimp only
  split
  · rename_i hempty
    have hnone : ∀ x ∈ addresses, survivesBridgeFilter primary x = false := by
      intro x hx
      exact Bool.eq_false_of_not_eq_true
        (List.filter_eq_nil_iff.mp (List.isEmpty_iff.mp hempty) x hx)
    exact ⟨fun he => ⟨he, .inr hnone⟩, And.left⟩
  · rename_i hkept
    rw [List.mem_filter]
    constructor
    · intro he
      exact ⟨he.1, .inl he.2⟩
    · intro he
      obtain ⟨hmem, hsurvives | hnone⟩ := he
      · exact ⟨hmem, hsurvives⟩
      · -- then the filter would have left nothing
        refine absurd (List.isEmpty_iff.mpr (List.filter_eq_nil_iff.mpr ?_)) hkept
        intro x hx hsurvives
        rw [hnone x hx] at hsurvives
        cases hsurvives

/-- Without names a candidate is a usable address of an interface that is kept. -/
theorem mem_candidates {a : Ipv4Addr} :
    a ∈ selectMulticastCandidateAddresses addresses none primary ↔
      ∃ e ∈ withoutContainerBridges addresses primary, isUsable e.address = true ∧
        e.address = a := by
  rw [candidates_eq, List.mem_append, List.mem_filter, mem_selectInterfaceAddresses,
    mem_selectInterfaceAddresses]
  constructor
  · intro h
    obtain ⟨e, he, -, husable, -, ha⟩ | ⟨⟨e, he, -, husable, -, ha⟩, -⟩ := h
    · exact ⟨e, he, husable, ha⟩
    · exact ⟨e, he, husable, ha⟩
  · intro h
    obtain ⟨e, he, husable, ha⟩ := h
    -- what is not in the first phase is in the second
    by_cases hfirst : a ∈ selectInterfaceAddresses (withoutContainerBridges addresses primary)
      none primary
    · exact .inl (mem_selectInterfaceAddresses.mp hfirst)
    · refine .inr ⟨⟨e, he, fun _ hns => (Option.some_ne_none _ hns.symm).elim, husable,
        fun _ hp => (Option.some_ne_none _ hp.symm).elim, ha⟩, ?_⟩
      rw [Bool.not_eq_true', List.contains_eq_mem, decide_eq_false_iff_not]
      exact hfirst

/-! ## What is asked of a choice -/

/-- An address that some interface puts into the subnet of the primary address. -/
def InPrimarySubnet (addresses : List InterfaceAddress) (primary : Option Ipv4Addr)
    (a : Ipv4Addr) : Prop :=
  ∃ p, primary = some p ∧ ∃ e ∈ addresses, e.address = a ∧ sameSubnet e.address p e.netmask = true

/-- The usable addresses of the named interfaces, sorted and distinct. -/
structure NamedSelection (addresses : List InterfaceAddress) (names : List String)
    (selected : List Ipv4Addr) : Prop where
  sorted : selected.Pairwise (· < ·)
  exact : ∀ a, a ∈ selected ↔ ∃ e ∈ addresses, e.name ∈ names ∧ isUsable e.address = true ∧ e.address = a

/-- Usable addresses, the subnet of the primary address first, and enough of them. -/
structure CandidateSelection (addresses : List InterfaceAddress) (primary : Option Ipv4Addr)
    (selected : List Ipv4Addr) : Prop where
  distinct : selected.Nodup
  usable : ∀ a ∈ selected, isUsable a = true ∧ ∃ e ∈ addresses, e.address = a
  subnetFirst : selected.Pairwise fun a b =>
    InPrimarySubnet addresses primary b → InPrimarySubnet addresses primary a
  primary : ∀ p, primary = some p → isUsable p = true → (∃ e ∈ addresses, e.address = p) → p ∈ selected
  interfaces : ∀ e ∈ addresses, isContainerBridge e.name = false → isUsable e.address = true →
    e.address ∈ selected
  nonempty : (∃ e ∈ addresses, isUsable e.address = true) → selected ≠ []

/-- An entry that survives the filter is usable, if some entry survives it and some is usable. -/
def UsableSurvives (addresses : List InterfaceAddress) (primary : Option Ipv4Addr) : Prop :=
  (∃ e ∈ addresses, isUsable e.address = true) →
    (∃ e ∈ addresses, survivesBridgeFilter primary e = true) →
    ∃ e ∈ addresses, survivesBridgeFilter primary e = true ∧ isUsable e.address = true

/-- An address is in the subnet of the primary address by an entry that survives, unless nothing
    smaller that survives is outside of the subnet. -/
def SubnetSurvives (addresses : List InterfaceAddress) (primary : Option Ipv4Addr) : Prop :=
  ∀ x ∈ addresses, ∀ y ∈ addresses, survivesBridgeFilter primary x = true →
    survivesBridgeFilter primary y = true → isUsable x.address = true → isUsable y.address = true →
    InPrimarySubnet addresses primary x.address → ¬InPrimarySubnet addresses primary y.address →
    y.address < x.address →
    InPrimarySubnet (addresses.filter (survivesBridgeFilter primary)) primary x.address

/-! ## Choices by name -/

/-- With names the candidates are those of the named interfaces, in ascending order. -/
theorem named_selection (addresses : List InterfaceAddress) (names : List String)
    (primary : Option Ipv4Addr) :
    NamedSelection addresses names
      (selectMulticastCandidateAddresses addresses (some names) primary) := by
  have heq : selectMulticastCandidateAddresses addresses (some names) primary =
      selectInterfaceAddresses addresses (some names) none := rfl
  rw [heq]
  constructor
  · exact selectInterfaceAddresses_pairwise ..
  · intro a
    rw [mem_selectInterfaceAddresses]
    constructor
    · intro h
      obtain ⟨e, he, hname, husable, -, ha⟩ := h
      exact ⟨e, he, hname names rfl, husable, ha⟩
    · intro h
      obtain ⟨e, he, hname, husable, ha⟩ := h
      exact ⟨e, he, fun ns hns => Option.some.inj hns ▸ hname, husable,
        fun _ hp => (Option.some_ne_none _ hp.symm).elim, ha⟩

/-! ## Choices without names -/

/-- No candidate is listed twice. -/
theorem candidates_nodup (addresses : List InterfaceAddress) (primary : Option Ipv4Addr) :
    (selectMulticastCandidateAddresses addresses none primary).Nodup := by
  rw [candidates_eq]
  refine List.nodup_append.mpr ⟨selectInterfaceAddresses_nodup ..,
    (selectInterfaceAddresses_nodup ..).filter _, ?_⟩
  intro a ha b hb heq
  have hfirst := (List.mem_filter.mp hb).2
  rw [Bool.not_eq_true', List.contains_eq_mem, decide_eq_false_iff_not] at hfirst
  exact hfirst (heq ▸ ha)

/-- The usable primary address of an interface is a candidate. -/
theorem primary_mem_candidates {p : Ipv4Addr} (hprimary : primary = some p)
    (husable : isUsable p = true) (hinput : ∃ e ∈ addresses, e.address = p) :
    p ∈ selectMulticastCandidateAddresses addresses none primary := by
  obtain ⟨e, he, hep⟩ := hinput
  refine mem_candidates.mpr ⟨e, mem_withoutContainerBridges.mpr ⟨he, .inl ?_⟩, hep ▸ husable, hep⟩
  rw [survivesBridgeFilter, hep, hprimary, decide_eq_true rfl, Bool.true_or]

/-- A usable address of an interface that is no container bridge is a candidate. -/
theorem interface_mem_candidates {e : InterfaceAddress} (he : e ∈ addresses)
    (hname : isContainerBridge e.name = false) (husable : isUsable e.address = true) :
    e.address ∈ selectMulticastCandidateAddresses addresses none primary := by
  refine mem_candidates.mpr ⟨e, mem_withoutContainerBridges.mpr ⟨he, .inl ?_⟩, husable, rfl⟩
  rw [survivesBridgeFilter, hname, Bool.not_false, Bool.or_true]

/-- The candidates are never emptied if and only if a usable address survives the bridges'
    filter. -/
theorem candidates_nonempty_iff : ((∃ e ∈ addresses, isUsable e.address = true) →
    selectMulticastCandidateAddresses addresses none primary ≠ []) ↔
      UsableSurvives addresses primary := by
  constructor
  · intro hnonempty husable hsurvives
    obtain ⟨a, ha⟩ := List.exists_mem_of_ne_nil _ (hnonempty husable)
    obtain ⟨e, he, huse, -⟩ := mem_candidates.mp ha
    obtain ⟨hmem, hkept | hnone⟩ := mem_withoutContainerBridges.mp he
    · exact ⟨e, hmem, hkept, huse⟩
    · obtain ⟨x, hx, hxs⟩ := hsurvives
      rw [hnone x hx] at hxs
      cases hxs
  · intro hcond husable hnil
    -- an entry that the filter keeps, and that is usable
    have hkept : ∃ e ∈ withoutContainerBridges addresses primary, isUsable e.address = true := by
      by_cases hsurvives : ∃ e ∈ addresses, survivesBridgeFilter primary e = true
      · obtain ⟨e, he, hes, heu⟩ := hcond husable hsurvives
        exact ⟨e, mem_withoutContainerBridges.mpr ⟨he, .inl hes⟩, heu⟩
      · obtain ⟨e, he, heu⟩ := husable
        refine ⟨e, mem_withoutContainerBridges.mpr ⟨he, .inr ?_⟩, heu⟩
        intro x hx
        exact Bool.eq_false_of_not_eq_true fun hxs => hsurvives ⟨x, hx, hxs⟩
    obtain ⟨e, he, heu⟩ := hkept
    have hmem := mem_candidates.mpr ⟨e, he, heu, rfl⟩
    rw [hnil] at hmem
    cases hmem

/-! ## The order of a choice -/

/-- In a sorted list, what stands before what is what is smaller. -/
theorem pairwise_iff_of_sorted {l : List Ipv4Addr} {R : Ipv4Addr → Ipv4Addr → Prop}
    (hl : l.Pairwise (· < ·)) : l.Pairwise R ↔ ∀ a ∈ l, ∀ b ∈ l, a < b → R a b := by
  constructor
  · intro hR a ha b hb hab
    -- made symmetric, so that it does not matter which comes first
    have hinst : Std.Symm fun x y : Ipv4Addr => (x < y → R x y) ∧ (y < x → R y x) :=
      ⟨fun x y hxy => ⟨hxy.2, hxy.1⟩⟩
    have hsymm : l.Pairwise fun x y => (x < y → R x y) ∧ (y < x → R y x) := by
      refine (hl.and hR).imp ?_
      intro x y hxy
      exact ⟨fun _ => hxy.2, fun hyx => absurd hxy.1 (by bv_omega)⟩
    exact (hsymm.forall ha hb (by bv_omega)).1 hab
  · intro h
    exact hl.imp_of_mem fun ha hb hab => h _ ha _ hb hab

/-- What comes in the second phase. -/
theorem mem_second_phase {a : Ipv4Addr} :
    (a ∈ (selectInterfaceAddresses (withoutContainerBridges addresses primary) none none).filter fun a =>
      !(selectInterfaceAddresses (withoutContainerBridges addresses primary) none primary).contains a) ↔
      (∃ e ∈ withoutContainerBridges addresses primary, isUsable e.address = true ∧ e.address = a) ∧
        a ∉ selectInterfaceAddresses (withoutContainerBridges addresses primary) none primary := by
  rw [List.mem_filter, mem_selectInterfaceAddresses, Bool.not_eq_true', List.contains_eq_mem,
    decide_eq_false_iff_not]
  refine and_congr_left' ⟨?_, ?_⟩
  · intro h
    obtain ⟨e, he, -, husable, -, ha⟩ := h
    exact ⟨e, he, husable, ha⟩
  · intro h
    obtain ⟨e, he, husable, ha⟩ := h
    exact ⟨e, he, fun _ hns => (Option.some_ne_none _ hns.symm).elim, husable,
      fun _ hp => (Option.some_ne_none _ hp.symm).elim, ha⟩

/-- What comes in the first phase, where there is a primary address. -/
theorem mem_first_phase {p a : Ipv4Addr} (hp : primary = some p) :
    a ∈ selectInterfaceAddresses (withoutContainerBridges addresses primary) none primary ↔
      isUsable a = true ∧
        InPrimarySubnet (withoutContainerBridges addresses primary) primary a := by
  rw [mem_selectInterfaceAddresses]
  constructor
  · intro h
    obtain ⟨e, he, -, husable, hsubnet, ha⟩ := h
    exact ⟨ha ▸ husable, p, hp, e, he, ha, hsubnet p hp⟩
  · intro h
    obtain ⟨husable, q, hq, e, he, ha, hsubnet⟩ := h
    refine ⟨e, he, fun _ hns => (Option.some_ne_none _ hns.symm).elim, ha ▸ husable, ?_, ha⟩
    intro r hr
    rw [Option.some.inj (hr.symm.trans hq)]
    exact hsubnet

/-- More interfaces only put more addresses into the primary subnet. -/
theorem InPrimarySubnet.mono {es es' : List InterfaceAddress} {a : Ipv4Addr}
    (h : InPrimarySubnet es primary a) (hsub : ∀ e ∈ es, e ∈ es') :
    InPrimarySubnet es' primary a := by
  obtain ⟨p, hp, e, he, ha, hsubnet⟩ := h
  exact ⟨p, hp, e, hsub e he, ha, hsubnet⟩

/-- Where some entry survives the filter, what is kept is what survives. -/
theorem withoutContainerBridges_of_survivor {x : InterfaceAddress} (hx : x ∈ addresses)
    (hs : survivesBridgeFilter primary x = true) :
    withoutContainerBridges addresses primary =
      addresses.filter (survivesBridgeFilter primary) := by
  unfold withoutContainerBridges
  dsimp only
  rw [if_neg]
  intro hempty
  exact List.filter_eq_nil_iff.mp (List.isEmpty_iff.mp hempty) x hx hs

/-- The primary subnet comes first if and only if its masks survive the bridges' filter. -/
theorem candidates_subnetFirst_iff :
    ((selectMulticastCandidateAddresses addresses none primary).Pairwise fun a b =>
      InPrimarySubnet addresses primary b → InPrimarySubnet addresses primary a) ↔
      SubnetSurvives addresses primary := by
  have hkept : ∀ e ∈ withoutContainerBridges addresses primary, e ∈ addresses :=
    fun e he => (mem_withoutContainerBridges.mp he).1
  rw [candidates_eq, List.pairwise_append]
  constructor
  · intro h x hx y hy hxs hys hxu hyu hin hout hlt
    have hsecond := (pairwise_iff_of_sorted ((selectInterfaceAddresses_pairwise ..).filter _)).mp h.2.1
    obtain ⟨p, hp, -⟩ := id hin
    rw [← withoutContainerBridges_of_survivor hx hxs]
    by_contra hdropped
    -- neither address is in the first phase, so they are in the wrong order in the second one
    refine hout (hsecond _ (mem_second_phase.mpr ⟨⟨y, ?_, hyu, rfl⟩, ?_⟩) _
      (mem_second_phase.mpr ⟨⟨x, ?_, hxu, rfl⟩, ?_⟩) hlt hin)
    · exact mem_withoutContainerBridges.mpr ⟨hy, .inl hys⟩
    · intro hfirst
      exact hout (((mem_first_phase hp).mp hfirst).2.mono hkept)
    · exact mem_withoutContainerBridges.mpr ⟨hx, .inl hxs⟩
    · intro hfirst
      exact hdropped ((mem_first_phase hp).mp hfirst).2
  · intro h
    have hfirst : ∀ a b, a ∈ selectInterfaceAddresses (withoutContainerBridges addresses primary)
        none primary →
        InPrimarySubnet addresses primary b → InPrimarySubnet addresses primary a := by
      intro a b ha hb
      obtain ⟨p, hp, -⟩ := hb
      exact ((mem_first_phase hp).mp ha).2.mono hkept
    refine ⟨?_, ?_, fun a ha b _ hb => hfirst a b ha hb⟩
    · exact (selectInterfaceAddresses_pairwise ..).imp_of_mem fun ha _ _ hb => hfirst _ _ ha hb
    · refine ((selectInterfaceAddresses_pairwise ..).filter _).imp_of_mem ?_
      intro a b ha hb hlt hin
      obtain ⟨⟨y, hy, hyu, hya⟩, -⟩ := mem_second_phase.mp ha
      obtain ⟨⟨x, hx, hxu, hxb⟩, hlate⟩ := mem_second_phase.mp hb
      obtain ⟨p, hp, -⟩ := id hin
      have hdropped : ¬InPrimarySubnet (withoutContainerBridges addresses primary) primary b :=
        fun hb => hlate ((mem_first_phase hp).mpr ⟨hxb ▸ hxu, hb⟩)
      by_contra hout
      obtain ⟨hxmem, hxs | hnone⟩ := mem_withoutContainerBridges.mp hx
      · obtain ⟨hymem, hys | hnone⟩ := mem_withoutContainerBridges.mp hy
        · rw [withoutContainerBridges_of_survivor hxmem hxs] at hdropped
          subst hya hxb
          exact hdropped (h x hxmem y hymem hxs hys hxu hyu hin hout hlt)
        · rw [hnone x hxmem] at hxs
          cases hxs
      · -- nothing was dropped
        exact hdropped (hin.mono fun e he => mem_withoutContainerBridges.mpr ⟨he, .inr hnone⟩)

/-- A choice by name is as it should be. Without names it is so if the two filters leave a usable
    address, and the entries that put an address into the subnet of the primary one. -/
theorem candidate_selection_iff (addresses : List InterfaceAddress) (primary : Option Ipv4Addr) :
    (∀ names, NamedSelection addresses names
      (selectMulticastCandidateAddresses addresses (some names) primary)) ∧
      (CandidateSelection addresses primary
        (selectMulticastCandidateAddresses addresses none primary) ↔
        UsableSurvives addresses primary ∧ SubnetSurvives addresses primary) := by
  refine ⟨fun names => named_selection addresses names primary, ?_, ?_⟩
  · intro h
    exact ⟨candidates_nonempty_iff.mp h.nonempty, candidates_subnetFirst_iff.mp h.subnetFirst⟩
  · intro h
    constructor
    · exact candidates_nodup addresses primary
    · intro a ha
      obtain ⟨e, he, husable, hea⟩ := mem_candidates.mp ha
      exact ⟨hea ▸ husable, e, (mem_withoutContainerBridges.mp he).1, hea⟩
    · exact candidates_subnetFirst_iff.mpr h.2
    · exact fun p hp husable hinput => primary_mem_candidates hp husable hinput
    · exact fun e he hname husable => interface_mem_candidates he hname husable
    · exact candidates_nonempty_iff.mpr h.1

/-! ## An interface without an address -/

/-- A bridge, and an interface that has no address yet. -/
def bridgeAndUnconfigured : List InterfaceAddress :=
  [⟨"docker0", 0x0A000001, 0xFFFFFF00⟩, ⟨"eth0", 0, 0⟩]

/-- The bridge has a usable address, and nothing is chosen. -/
theorem unconfigured_hides_bridge :
    ¬CandidateSelection bridgeAndUnconfigured none
      (selectMulticastCandidateAddresses bridgeAndUnconfigured none none) := by
  have hchoice : selectMulticastCandidateAddresses bridgeAndUnconfigured none none = [] := by decide
  intro h
  refine h.nonempty ⟨⟨"docker0", 0x0A000001, 0xFFFFFF00⟩, List.mem_cons_self .., ?_⟩ hchoice
  decide

end LocalSend
