import Mathlib.Data.List.Nodup
import Mathlib.Data.Option.Basic

/-!
# Finite maps as association lists without repeated keys

The model of a hash map: the entries in some order, with the proof that no key
occurs twice carried as a field. Lookups do not depend on the order, so every
lemma is stated through `get?`.

## Key results

- `get?_eq_some_iff`: a lookup finds exactly the entries
- `get?_mapVal`, `get?_modify`, `get?_filter`, `get?_insert`, `get?_erase`: one lookup
  equation for each operation
- `any_eq_true_iff`: a search over the values as a statement about lookups
- `size_erase_of_contains`, `size_insert`: what the operations do to the size
-/

/-- A finite map: a list of entries whose keys are pairwise distinct. -/
structure AssocMap (κ ν : Type*) where
  entries : List (κ × ν)
  nodup : (entries.map Prod.fst).Nodup
deriving DecidableEq

namespace AssocMap

variable {κ ν ν' : Type*}

/-- The map without entries. -/
def empty : AssocMap κ ν := ⟨[], List.nodup_nil⟩

/-- The map with the one entry `k ↦ v`. -/
def singleton (k : κ) (v : ν) : AssocMap κ ν := ⟨[(k, v)], by simp⟩

/-- The keys, in the order of the entries. -/
def keys (m : AssocMap κ ν) : List κ := m.entries.map Prod.fst

/-- The values, in the order of the entries. -/
def values (m : AssocMap κ ν) : List ν := m.entries.map Prod.snd

/-- The number of entries. -/
def size (m : AssocMap κ ν) : Nat := m.entries.length

/-- Whether there is no entry. -/
def isEmpty (m : AssocMap κ ν) : Bool := m.entries.isEmpty

/-- Whether some entry satisfies `p`. -/
def any (m : AssocMap κ ν) (p : κ → ν → Bool) : Bool := m.entries.any fun e => p e.1 e.2

/-- Replace every value, knowing its key. -/
def mapVal (m : AssocMap κ ν) (f : κ → ν → ν') : AssocMap κ ν' :=
  ⟨m.entries.map fun e => (e.1, f e.1 e.2), by
    have := m.nodup
    rwa [List.map_map]⟩

/-- Keep the entries that satisfy `p`. -/
def filter (m : AssocMap κ ν) (p : κ → ν → Bool) : AssocMap κ ν :=
  ⟨m.entries.filter fun e => p e.1 e.2, m.nodup.sublist (List.filter_sublist.map _)⟩

/-- The keys stay when the values change. -/
@[simp] theorem keys_mapVal (m : AssocMap κ ν) (f : κ → ν → ν') : (m.mapVal f).keys = m.keys := by
  simp [keys, mapVal]

variable [DecidableEq κ]

/-- The value stored under `k`. -/
def get? (m : AssocMap κ ν) (k : κ) : Option ν :=
  (m.entries.find? fun e => e.1 = k).map Prod.snd

/-- Whether `k` is a key. -/
def contains (m : AssocMap κ ν) (k : κ) : Bool := (m.get? k).isSome

/-- Apply `f` to the value under `k`, if there is one. -/
def modify (m : AssocMap κ ν) (k : κ) (f : ν → ν) : AssocMap κ ν :=
  m.mapVal fun j v => if j = k then f v else v

/-- Drop the entry of `k`. -/
def erase (m : AssocMap κ ν) (k : κ) : AssocMap κ ν := m.filter fun j _ => j ≠ k

/-- Store `v` under `k`, replacing what was there. -/
def insert (m : AssocMap κ ν) (k : κ) (v : ν) : AssocMap κ ν :=
  ⟨(m.erase k).entries ++ [(k, v)], by
    rw [List.map_append, List.nodup_append]
    refine ⟨(m.erase k).nodup, by simp, ?_⟩
    simp [erase, filter]⟩

/-! ## Lookup -/

/-- A lookup finds exactly the entries. -/
theorem get?_eq_some_iff {m : AssocMap κ ν} {k : κ} {v : ν} :
    m.get? k = some v ↔ (k, v) ∈ m.entries := by
  obtain ⟨entries, nodup⟩ := m
  simp only [get?]
  induction entries with
  | nil => simp
  | cons e es ih =>
    obtain ⟨k', v'⟩ := e
    simp only [List.map_cons, List.nodup_cons] at nodup
    by_cases hk : k' = k
    · subst hk
      -- the head is the entry of `k'`, and no later entry has its key
      have hnot : (k', v) ∉ es := fun hmem => nodup.1 (List.mem_map_of_mem (f := Prod.fst) hmem)
      simp [hnot, eq_comm]
    · have hne : ¬k = k' := fun h => hk h.symm
      simp [hk, hne, ih nodup.2]

/-- A key is one that a lookup finds. -/
theorem mem_keys_iff {m : AssocMap κ ν} {k : κ} : k ∈ m.keys ↔ ∃ v, m.get? k = some v := by
  simp [keys, get?_eq_some_iff]

/-- A map contains what a lookup finds. -/
theorem contains_iff {m : AssocMap κ ν} {k : κ} : m.contains k = true ↔ ∃ v, m.get? k = some v := by
  simp only [contains, Option.isSome_iff_exists]

/-- A map contains its keys. -/
theorem contains_iff_mem_keys {m : AssocMap κ ν} {k : κ} : m.contains k = true ↔ k ∈ m.keys := by
  rw [contains_iff, mem_keys_iff]

/-- A search over the values, as a statement about lookups. -/
theorem any_eq_true_iff {m : AssocMap κ ν} {p : κ → ν → Bool} :
    m.any p = true ↔ ∃ k v, m.get? k = some v ∧ p k v = true := by
  simp only [any, List.any_eq_true, Prod.exists, get?_eq_some_iff]

/-- A lookup after all values have changed. -/
@[simp] theorem get?_mapVal (m : AssocMap κ ν) (f : κ → ν → ν') (k : κ) :
    (m.mapVal f).get? k = (m.get? k).map (f k) := by
  simp only [get?, mapVal, List.find?_map, Option.map_map, Function.comp_def]
  cases hfind : m.entries.find? fun e => e.1 = k with
  | none => rfl
  | some e =>
    have hk : e.1 = k := by simpa using List.find?_some hfind
    simp [hk]

/-- A lookup after some entries were filtered out. -/
@[simp] theorem get?_filter (m : AssocMap κ ν) (p : κ → ν → Bool) (k : κ) :
    (m.filter p).get? k = (m.get? k).filter (p k) := by
  refine Option.ext fun v => ?_
  rw [get?_eq_some_iff, Option.filter_eq_some_iff, get?_eq_some_iff]
  simp [filter]

/-- A lookup after one value has changed. -/
theorem get?_modify (m : AssocMap κ ν) (k j : κ) (f : ν → ν) :
    (m.modify k f).get? j = if j = k then (m.get? j).map f else m.get? j := by
  rw [modify, get?_mapVal]
  by_cases h : j = k <;> simp [h]

/-- A lookup of the value that has changed. -/
@[simp] theorem get?_modify_self (m : AssocMap κ ν) (k : κ) (f : ν → ν) :
    (m.modify k f).get? k = (m.get? k).map f := by
  rw [get?_modify, if_pos rfl]

/-- A lookup of another value. -/
@[simp] theorem get?_modify_of_ne (m : AssocMap κ ν) {k j : κ} (h : j ≠ k) (f : ν → ν) :
    (m.modify k f).get? j = m.get? j := by
  rw [get?_modify, if_neg h]

/-- A lookup after a key was erased. -/
theorem get?_erase (m : AssocMap κ ν) (k j : κ) :
    (m.erase k).get? j = if j = k then none else m.get? j := by
  rw [erase, get?_filter]
  by_cases h : j = k
  · simp [h]
  · cases m.get? j <;> simp [h]

/-- A lookup after an entry was inserted. -/
theorem get?_insert (m : AssocMap κ ν) (k j : κ) (v : ν) :
    (m.insert k v).get? j = if j = k then some v else m.get? j := by
  refine Option.ext fun u => ?_
  rw [get?_eq_some_iff]
  simp only [insert, List.mem_append, List.mem_singleton, Prod.mk.injEq, ← get?_eq_some_iff]
  by_cases h : j = k
  · simp [h, get?_erase, eq_comm]
  · simp [h, get?_erase]

/-! ## Sizes -/

omit [DecidableEq κ] in
/-- A map does not grow by filtering. -/
theorem size_filter_le (m : AssocMap κ ν) (p : κ → ν → Bool) : (m.filter p).size ≤ m.size :=
  List.length_filter_le ..

omit [DecidableEq κ] in
/-- A filter that drops nothing changes nothing. -/
theorem filter_eq_self_of_size {m : AssocMap κ ν} {p : κ → ν → Bool}
    (h : m.size ≤ (m.filter p).size) :
    m.filter p = m := by
  obtain ⟨entries, nodup⟩ := m
  have hsublist : (entries.filter fun e => p e.1 e.2).Sublist entries := List.filter_sublist
  simp only [filter, mk.injEq]
  exact hsublist.eq_of_length_le h

/-- Dropping the entry of a key makes the map smaller by one. -/
theorem size_erase_of_contains {m : AssocMap κ ν} {k : κ} (h : m.contains k = true) :
    (m.erase k).size + 1 = m.size := by
  obtain ⟨entries, nodup⟩ := m
  rw [contains_iff_mem_keys] at h
  simp only [keys, erase, filter, size] at h ⊢
  induction entries with
  | nil => simp at h
  | cons e es ih =>
    simp only [List.map_cons, List.nodup_cons] at nodup
    by_cases hk : e.1 = k
    · -- the head goes, and nothing after it has its key
      have hrest : es.filter (fun e => decide (e.1 ≠ k)) = es := by
        apply List.filter_eq_self.mpr
        intro e' he'
        simp only [ne_eq, decide_not, Bool.not_eq_true', decide_eq_false_iff_not]
        rintro rfl
        exact nodup.1 (hk ▸ List.mem_map_of_mem he')
      rw [List.filter_cons_of_neg (by simp [hk]), hrest]
      rfl
    · have hmem : k ∈ es.map Prod.fst := by simpa [Ne.symm hk] using h
      rw [List.filter_cons_of_pos (by simp [hk]), List.length_cons, List.length_cons,
        ih nodup.2 hmem]

/-- There is no entry to drop. -/
theorem erase_of_not_contains {m : AssocMap κ ν} {k : κ} (h : m.contains k = false) :
    m.erase k = m := by
  apply filter_eq_self_of_size
  apply Nat.le_of_eq
  apply congrArg List.length
  symm
  apply List.filter_eq_self.mpr
  intro e he
  simp only [ne_eq, decide_not, Bool.not_eq_true', decide_eq_false_iff_not]
  rintro rfl
  have hmem : m.contains e.1 = true := contains_iff_mem_keys.mpr (List.mem_map_of_mem he)
  simp [h] at hmem

/-- A map grows by an entry under a new key. -/
theorem size_insert (m : AssocMap κ ν) (k : κ) (v : ν) :
    (m.insert k v).size = if m.contains k then m.size else m.size + 1 := by
  have happend : (m.insert k v).size = (m.erase k).size + 1 := by
    simp [insert, size]
  rw [happend]
  split
  · exact size_erase_of_contains (by assumption)
  · rename_i h
    rw [erase_of_not_contains (Bool.not_eq_true _ ▸ h)]

/-- Maps with the same keys are of one size. -/
theorem size_congr {m : AssocMap κ ν} {m' : AssocMap κ ν'} (h : ∀ k, m.contains k = m'.contains k) :
    m.size = m'.size := by
  have hkeys : m.keys.Perm m'.keys := by
    apply (List.perm_ext_iff_of_nodup m.nodup m'.nodup).mpr
    intro k
    show k ∈ m.keys ↔ k ∈ m'.keys
    rw [← contains_iff_mem_keys, ← contains_iff_mem_keys, h]
  have hlength := hkeys.length_eq
  rwa [keys, keys, List.length_map, List.length_map] at hlength

/-- A map does not contain what a lookup does not find. -/
theorem contains_eq_false_iff {m : AssocMap κ ν} {k : κ} :
    m.contains k = false ↔ m.get? k = none := by
  simp [contains]

end AssocMap
