import Mathlib.Data.List.AList

/-!
# Tables and their indices

A hash map is an association list without repeated keys (`AList`), whose order
of entries nothing below depends on. A table of numbered rows can be kept
beside an **index** that finds a row's number by one of its fields; `Indexes`
says that the two agree, in one equivalence, and the rules are what an update of
both preserves: a new row under a new number and a new field, and a row taken
out of both.
-/

/-- A hash map. -/
abbrev HashMap (κ ν : Type) := AList fun _ : κ => ν

namespace HashMap

variable {κ ν : Type} [DecidableEq κ]

/-- The values, in no particular order. -/
def values (map : HashMap κ ν) : List ν := map.entries.map Sigma.snd

/-- Behind an insert a key has its new value, and the others theirs. -/
theorem lookup_insert_iff {map : HashMap κ ν} {k k' : κ} {v v' : ν} :
    (map.insert k v).lookup k' = some v' ↔
      k' = k ∧ v' = v ∨ k' ≠ k ∧ map.lookup k' = some v' := by
  by_cases h : k' = k
  · subst h
    simp [eq_comm]
  · rw [AList.lookup_insert_ne h]
    simp [h]

/-- Behind an erasure all other keys have theirs. -/
theorem lookup_erase_iff {map : HashMap κ ν} {k k' : κ} {v' : ν} :
    (map.erase k).lookup k' = some v' ↔ k' ≠ k ∧ map.lookup k' = some v' := by
  by_cases h : k' = k
  · subst h
    simp
  · rw [AList.lookup_erase_ne h]
    simp [h]

/-- A value is one that is looked up. -/
theorem mem_values_iff {map : HashMap κ ν} {v : ν} :
    v ∈ map.values ↔ ∃ k, map.lookup k = some v := by
  unfold values
  rw [List.mem_map]
  constructor
  · rintro ⟨⟨k, v'⟩, hMem, rfl⟩
    exact ⟨k, AList.mem_lookup_iff.mpr hMem⟩
  · rintro ⟨k, hk⟩
    exact ⟨⟨k, v⟩, AList.mem_lookup_iff.mp hk, rfl⟩

/-- A key is in the map when something is looked up for it. -/
theorem mem_iff_exists_lookup {map : HashMap κ ν} {k : κ} :
    k ∈ map ↔ ∃ v, map.lookup k = some v := by
  rw [← AList.lookup_isSome, Option.isSome_iff_exists]

/-- Erasing a key leaves one key less. -/
theorem length_keys_erase {map : HashMap κ ν} {k : κ} {v : ν} (h : map.lookup k = some v) :
    (map.erase k).keys.length + 1 = map.keys.length := by
  have hMem : k ∈ map.keys := AList.mem_keys.mp (mem_iff_exists_lookup.mpr ⟨v, h⟩)
  have hPos := List.length_pos_of_mem hMem
  rw [AList.keys_erase, List.length_erase_of_mem hMem]
  omega

/-- Of entries no two of which satisfy `p`, at most one does. -/
theorem countP_le_one {α : Type} {p : α → Bool} {l : List α}
    (h : l.Pairwise fun a b => ¬ (p a = true ∧ p b = true)) : l.countP p ≤ 1 := by
  induction l with
  | nil => simp
  | cons a l ih =>
    obtain ⟨hHead, hTail⟩ := List.pairwise_cons.mp h
    by_cases ha : p a = true
    · have hNone : l.countP p = 0 := by
        rw [List.countP_eq_zero]
        intro b hb hPb
        exact hHead b hb ⟨ha, hPb⟩
      rw [List.countP_cons_of_pos ha, hNone]
    · rw [List.countP_cons_of_neg ha]
      exact ih hTail

/-- A property that determines the key holds of one value at most. -/
theorem countP_values_le_one {map : HashMap κ ν} {p : ν → Bool}
    (h : ∀ k k' v v', map.lookup k = some v → map.lookup k' = some v' → p v = true →
      p v' = true → k = k') : map.values.countP p ≤ 1 := by
  unfold values
  rw [List.countP_map]
  refine countP_le_one ((List.nodupKeys_iff_pairwise.mp map.nodupKeys).imp_of_mem ?_)
  intro a b ha hb hNe hBoth
  exact hNe (h _ _ _ _ (AList.mem_lookup_iff.mpr ha) (AList.mem_lookup_iff.mpr hb) hBoth.1 hBoth.2)

end HashMap

/-! ## An index beside a table -/

section Indexes

variable {κ ι ν : Type} [DecidableEq κ] [DecidableEq ι]

/-- The index finds a row by its key, finds no other row, and finds every row. -/
def Indexes (index : HashMap κ ι) (key : ν → κ) (table : HashMap ι ν) : Prop :=
  ∀ k i, index.lookup k = some i ↔ ∃ row, table.lookup i = some row ∧ key row = k

namespace Indexes

variable {index : HashMap κ ι} {key : ν → κ} {table : HashMap ι ν}

/-- Nothing indexes nothing. -/
theorem empty : Indexes (∅ : HashMap κ ι) key (∅ : HashMap ι ν) := by
  intro k i
  simp

/-- Two rows with one key are one row. -/
theorem row_unique (h : Indexes index key table) {i j : ι} {row row' : ν}
    (hi : table.lookup i = some row) (hj : table.lookup j = some row') (hKey : key row = key row') :
    i = j := by
  have hFound := (h (key row) i).mpr ⟨row, hi, rfl⟩
  have hFound' := (h (key row) j).mpr ⟨row', hj, hKey.symm⟩
  rw [hFound] at hFound'
  exact Option.some.inj hFound'

/-- A row with a new key, under a new number. -/
theorem insert (h : Indexes index key table) {i : ι} {row : ν} (hNumber : table.lookup i = none)
    (hKey : index.lookup (key row) = none) :
    Indexes (index.insert (key row) i) key (table.insert i row) := by
  intro k j
  rw [HashMap.lookup_insert_iff]
  simp only [HashMap.lookup_insert_iff]
  constructor
  · rintro (⟨rfl, rfl⟩ | ⟨hNe, hFound⟩)
    · exact ⟨row, Or.inl ⟨rfl, rfl⟩, rfl⟩
    · obtain ⟨row', hRow', rfl⟩ := (h k j).mp hFound
      refine ⟨row', Or.inr ⟨?_, hRow'⟩, rfl⟩
      rintro rfl
      rw [hNumber] at hRow'
      cases hRow'
  · rintro ⟨row', ⟨rfl, rfl⟩ | ⟨hNe, hRow'⟩, rfl⟩
    · exact Or.inl ⟨rfl, rfl⟩
    · have hFound := (h (key row') j).mpr ⟨row', hRow', rfl⟩
      refine Or.inr ⟨?_, hFound⟩
      intro hEq
      rw [hEq, hKey] at hFound
      cases hFound

/-- A row taken out of the table, and its key out of the index. -/
theorem erase (h : Indexes index key table) {i : ι} {row : ν} (hRow : table.lookup i = some row) :
    Indexes (index.erase (key row)) key (table.erase i) := by
  intro k j
  rw [HashMap.lookup_erase_iff]
  simp only [HashMap.lookup_erase_iff]
  constructor
  · rintro ⟨hNe, hFound⟩
    obtain ⟨row', hRow', rfl⟩ := (h k j).mp hFound
    refine ⟨row', ⟨?_, hRow'⟩, rfl⟩
    rintro rfl
    rw [hRow] at hRow'
    cases hRow'
    exact hNe rfl
  · rintro ⟨row', ⟨hNe, hRow'⟩, rfl⟩
    refine ⟨?_, (h _ _).mpr ⟨row', hRow', rfl⟩⟩
    intro hEq
    exact hNe (h.row_unique hRow' hRow hEq)

end Indexes

end Indexes
