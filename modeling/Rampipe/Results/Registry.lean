import Rampipe.Lib.Loop
import Rampipe.Model.Registry

/-!
# Rampipe — the registry keeps its tables together

`by_path` indexes `resident` by path, `last_accessed` has the same ids, and an
id is the number of the mapping it was given to (`SwapRegistry.WellFormed`). A
handle is good for as long as its id is resident and stands for the mapping it
points to (`SwapRegistry.Holds`). Every operation keeps the first, and the
second for every handle that is alive: eviction counts references, and under
the first invariant the count is that of the handles for the id.

* `SwapRegistry.load_cases`  — hit, failure, new mapping.
* `SwapRegistry.evict_ok_iff` — when eviction succeeds.
* `registry_safe`            — the tables and the handles after any history.
-/

namespace Rampipe

namespace SwapRegistry

/-- The tables agree, and ids number the mappings made. -/
structure WellFormed (registry : SwapRegistry) : Prop where
  indexed : Indexes registry.state.byPath Resident.path registry.state.resident
  accessed : ∀ id, id ∈ registry.state.lastAccessed ↔ id ∈ registry.state.resident
  counted : registry.cells.length = registry.state.nextId
  numbered : ∀ id inner, registry.state.resident.lookup id = some inner →
    inner.address = id.number ∧ id.number < registry.state.nextId

/-- The handle's id is resident, and stands for the handle's mapping. -/
def Holds (registry : SwapRegistry) (handle : ModelHandle) : Prop :=
  registry.state.resident.lookup handle.id = some handle.inner

/-- A new registry is in order. -/
theorem wellFormed_new : WellFormed new where
  indexed := Indexes.empty
  accessed := by
    intro id
    simp [new]
  counted := rfl
  numbered := by
    intro id inner h
    cases h

variable {registry : SwapRegistry}

/-! ## What a load does -/

/-- A load never panics on one that is. -/
theorem load_isSome (h : registry.WellFormed) (path : Path) (residency : Residency)
    (mapping : Mapping) : ∃ result, registry.load path residency mapping = some result := by
  unfold load
  split
  · rename_i id hId
    obtain ⟨inner, hInner, -⟩ := (h.indexed path id).mp hId
    rw [hInner]
    exact ⟨_, rfl⟩
  · split
    · exact ⟨_, rfl⟩
    · split_ifs <;> exact ⟨_, rfl⟩

/-- A hit hands out the mapping there is; a miss fails and leaves everything as it
was, or makes a new mapping. -/
theorem load_cases {path : Path} {residency : Residency} {mapping : Mapping}
    {result : Except LoadError ModelHandle} {registry' : SwapRegistry}
    (h : registry.load path residency mapping = some (result, registry')) :
    (∃ id inner, registry.state.byPath.lookup path = some id ∧
      registry.state.resident.lookup id = some inner ∧ result = .ok { id, inner } ∧
        registry' = registry.touch id mapping.now) ∨
    (registry.state.byPath.lookup path = none ∧ (∃ error, result = .error error) ∧
      registry' = registry) ∨
    (registry.state.byPath.lookup path = none ∧ ∃ inner, inner.path = path ∧
      inner.address = registry.cells.length ∧
        result = .ok { id := ⟨registry.state.nextId⟩, inner } ∧
          registry' = registry.insert inner mapping.now) := by
  unfold load at h
  split at h
  · -- a hit; an id without its mapping would be a panic
    rename_i id hId
    split at h
    · cases h
    · rename_i inner hInner
      cases h
      exact Or.inl ⟨id, inner, hId, hInner, rfl, rfl⟩
  · -- a miss: the file does not open, is too short, is no GGUF file, or is mapped
    rename_i hMiss
    split at h
    · cases h
      exact Or.inr (Or.inl ⟨hMiss, ⟨_, rfl⟩, rfl⟩)
    · split_ifs at h
      · cases h
        exact Or.inr (Or.inl ⟨hMiss, ⟨_, rfl⟩, rfl⟩)
      · cases h
        exact Or.inr (Or.inl ⟨hMiss, ⟨_, rfl⟩, rfl⟩)
      · cases h
        exact Or.inr (Or.inr ⟨hMiss, _, rfl, rfl, rfl, rfl⟩)

/-! ## What the updates keep -/

/-- Touching a model keeps the registry in order. -/
theorem WellFormed.touch (h : registry.WellFormed) {id : ModelId}
    (hId : id ∈ registry.state.resident) (now : Instant) : (registry.touch id now).WellFormed where
  indexed := h.indexed
  accessed := by
    intro id'
    show id' ∈ registry.state.lastAccessed.insert id now ↔ id' ∈ registry.state.resident
    rw [AList.mem_insert, h.accessed]
    constructor
    · rintro (rfl | hMem)
      · exact hId
      · exact hMem
    · exact Or.inr
  counted := h.counted
  numbered := h.numbered

/-- No id that was not given out yet is resident. -/
theorem WellFormed.fresh (h : registry.WellFormed) :
    registry.state.resident.lookup ⟨registry.state.nextId⟩ = none := by
  rw [Option.eq_none_iff_forall_not_mem]
  intro inner hInner
  exact Nat.lt_irrefl _ (h.numbered _ _ hInner).2

/-- So does taking a new one in. -/
theorem WellFormed.insert (h : registry.WellFormed) {inner : Resident}
    (hPath : registry.state.byPath.lookup inner.path = none)
    (hAddress : inner.address = registry.cells.length) (now : Instant) :
    (registry.insert inner now).WellFormed where
  indexed := h.indexed.insert h.fresh hPath
  accessed := by
    intro id
    show id ∈ registry.state.lastAccessed.insert _ now ↔ id ∈ registry.state.resident.insert _ inner
    rw [AList.mem_insert, AList.mem_insert, h.accessed]
  counted := by
    show (registry.cells ++ [none]).length = registry.state.nextId + 1
    rw [List.length_append, h.counted]
    rfl
  numbered := by
    intro id inner' hInner'
    show inner'.address = id.number ∧ id.number < registry.state.nextId + 1
    rcases HashMap.lookup_insert_iff.mp hInner' with ⟨rfl, rfl⟩ | ⟨-, hold⟩
    · exact ⟨hAddress.trans h.counted, Nat.lt_succ_self _⟩
    · obtain ⟨hAddress', hLt⟩ := h.numbered id inner' hold
      exact ⟨hAddress', Nat.lt_succ_of_lt hLt⟩

/-- And so does letting one go. -/
theorem WellFormed.remove (h : registry.WellFormed) {id : ModelId} {inner : Resident}
    (hId : registry.state.resident.lookup id = some inner) :
    (registry.remove id inner.path).WellFormed where
  indexed := h.indexed.erase hId
  accessed := by
    intro id'
    show id' ∈ registry.state.lastAccessed.erase id ↔ id' ∈ registry.state.resident.erase id
    rw [AList.mem_erase, AList.mem_erase, h.accessed]
  counted := h.counted
  numbered := by
    intro id' inner' hInner'
    exact h.numbered id' inner' (HashMap.lookup_erase_iff.mp hInner').2

/-- So does recording what it takes up on the device. -/
theorem WellFormed.recordDeviceBytes (h : registry.WellFormed) (id : ModelId) (bytes : Nat) :
    (registry.recordDeviceBytes id bytes).WellFormed := by
  unfold SwapRegistry.recordDeviceBytes
  split
  · exact h
  · refine ⟨h.indexed, h.accessed, ?_, h.numbered⟩
    show (registry.cells.set _ _).length = registry.state.nextId
    rw [List.length_set, h.counted]

/-- That changes nothing about what is resident. -/
theorem resident_recordDeviceBytes (id : ModelId) (bytes : Nat) :
    (registry.recordDeviceBytes id bytes).state = registry.state := by
  unfold SwapRegistry.recordDeviceBytes
  split <;> rfl

/-- A handle holds when another model comes. -/
theorem Holds.insert {handle : ModelHandle} (hHolds : registry.Holds handle)
    (h : registry.WellFormed) (inner : Resident) (now : Instant) :
    (registry.insert inner now).Holds handle := by
  refine HashMap.lookup_insert_iff.mpr (Or.inr ⟨?_, hHolds⟩)
  intro hEq
  have hFresh := h.fresh
  rw [← hEq, hHolds] at hFresh
  cases hFresh

/-- It holds when another model goes. -/
theorem Holds.remove {handle : ModelHandle} (hHolds : registry.Holds handle) {id : ModelId}
    (hNe : handle.id ≠ id) (path : Path) : (registry.remove id path).Holds handle :=
  HashMap.lookup_erase_iff.mpr ⟨hNe, hHolds⟩

/-- And it holds whatever is recorded. -/
theorem Holds.recordDeviceBytes {handle : ModelHandle} (hHolds : registry.Holds handle)
    (id : ModelId) (bytes : Nat) : (registry.recordDeviceBytes id bytes).Holds handle := by
  unfold Holds
  rw [resident_recordDeviceBytes]
  exact hHolds

/-- A successful load keeps the tables together, every good handle good, and hands
out a good one, for the path it was asked for. -/
theorem load_ok (h : registry.WellFormed) {path : Path} {residency : Residency} {mapping : Mapping}
    {handle : ModelHandle} {registry' : SwapRegistry}
    (hLoad : registry.load path residency mapping = some (.ok handle, registry')) :
    registry'.WellFormed ∧ registry'.Holds handle ∧ handle.inner.path = path ∧
      ∀ other, registry.Holds other → registry'.Holds other := by
  rcases load_cases hLoad with ⟨id, inner, hId, hInner, hResult, rfl⟩ | ⟨-, ⟨_, hResult⟩, -⟩ |
    ⟨hMiss, inner, rfl, hAddress, hResult, rfl⟩
  · cases hResult
    obtain ⟨row, hRow, hPath⟩ := (h.indexed path id).mp hId
    rw [hInner] at hRow
    cases hRow
    refine ⟨h.touch (HashMap.mem_iff_exists_lookup.mpr ⟨inner, hInner⟩) _, hInner, hPath, ?_⟩
    intro other hOther
    exact hOther
  · cases hResult
  · cases hResult
    refine ⟨h.insert hMiss hAddress _, AList.lookup_insert _, rfl, ?_⟩
    intro other hOther
    exact hOther.insert h inner _

/-- A load that fails changes nothing. -/
theorem load_error {path : Path} {residency : Residency} {mapping : Mapping} {error : LoadError}
    {registry' : SwapRegistry}
    (hLoad : registry.load path residency mapping = some (.error error, registry')) :
    registry' = registry := by
  rcases load_cases hLoad with ⟨id, inner, -, -, hResult, -⟩ | ⟨-, -, rfl⟩ |
    ⟨-, inner, -, -, hResult, -⟩
  · cases hResult
  · rfl
  · cases hResult

/-- A load makes one mapping at most. -/
theorem load_nextId {path : Path} {residency : Residency} {mapping : Mapping}
    {result : Except LoadError ModelHandle} {registry' : SwapRegistry}
    (hLoad : registry.load path residency mapping = some (result, registry')) :
    registry.state.nextId ≤ registry'.state.nextId ∧
      registry'.state.nextId ≤ registry.state.nextId + 1 := by
  rcases load_cases hLoad with ⟨_, _, -, -, -, rfl⟩ | ⟨-, -, rfl⟩ | ⟨-, _, -, -, -, rfl⟩
  · exact ⟨Nat.le_refl _, Nat.le_succ _⟩
  · exact ⟨Nat.le_refl _, Nat.le_succ _⟩
  · exact ⟨Nat.le_succ _, Nat.le_refl _⟩

/-! ## Reference counts -/

/-- The table holds one reference to each mapping. -/
theorem WellFormed.table_count (h : registry.WellFormed) {id : ModelId} {inner : Resident}
    (hId : registry.state.resident.lookup id = some inner) :
    registry.state.resident.values.countP (fun other => other.address == inner.address) = 1 := by
  refine Nat.le_antisymm (HashMap.countP_values_le_one ?_) (List.countP_pos_iff.mpr ?_)
  · intro k k' v v' hk hk' hv hv'
    have hAddress : v.address = v'.address := by
      rw [eq_of_beq hv, eq_of_beq hv']
    rw [(h.numbered k v hk).1, (h.numbered k' v' hk').1] at hAddress
    exact congrArg ModelId.mk hAddress
  · exact ⟨inner, HashMap.mem_values_iff.mpr ⟨id, hId⟩, by simp⟩

/-- Good handles for one mapping are handles for one id. -/
theorem WellFormed.address_eq_iff (h : registry.WellFormed) {id : ModelId} {inner : Resident}
    (hId : registry.state.resident.lookup id = some inner) {handle : ModelHandle}
    (hHolds : registry.Holds handle) : handle.inner.address = inner.address ↔ handle.id = id := by
  rw [(h.numbered id inner hId).1, (h.numbered _ _ hHolds).1]
  constructor
  · intro hNumber
    exact congrArg ModelId.mk hNumber
  · rintro rfl
    rfl

/-! ## Device memory -/

/-- A measurement is read through every handle for the model. -/
theorem deviceBytes_recordDeviceBytes (h : registry.WellFormed) {handle : ModelHandle}
    (hHolds : registry.Holds handle) (bytes : Nat) :
    (registry.recordDeviceBytes handle.id bytes).deviceBytes handle.inner = some bytes := by
  have hLt : handle.inner.address < registry.cells.length := by
    rw [h.counted, (h.numbered _ _ hHolds).1]
    exact (h.numbered _ _ hHolds).2
  unfold Holds at hHolds
  unfold SwapRegistry.recordDeviceBytes
  rw [hHolds]
  show ((registry.cells.set _ (some bytes))[handle.inner.address]?).join = some bytes
  rw [List.getElem?_set_self hLt]
  rfl

/-- ... and through no handle for another. -/
theorem deviceBytes_recordDeviceBytes_of_ne (h : registry.WellFormed) {handle : ModelHandle}
    (hHolds : registry.Holds handle) {id : ModelId} (hNe : handle.id ≠ id) (bytes : Nat) :
    (registry.recordDeviceBytes id bytes).deviceBytes handle.inner =
      registry.deviceBytes handle.inner := by
  unfold SwapRegistry.recordDeviceBytes
  split
  · rfl
  · rename_i inner hId
    have hApart : inner.address ≠ handle.inner.address := by
      intro hEq
      exact hNe ((h.address_eq_iff hId hHolds).mp hEq.symm)
    show ((registry.cells.set _ (some bytes))[handle.inner.address]?).join = _
    rw [List.getElem?_set_ne hApart]
    rfl

/-! ## Eviction -/

/-- Eviction succeeds exactly for what is resident and has no handle alive. -/
theorem evict_ok_iff (h : registry.WellFormed) {handles : List ModelHandle}
    (hHolds : ∀ handle ∈ handles, registry.Holds handle) (id : ModelId) :
    (registry.evict handles id).1 = .ok () ↔
      id ∈ registry.state.resident ∧ ∀ handle ∈ handles, handle.id ≠ id := by
  unfold evict
  split
  · rename_i hId
    rw [AList.lookup_eq_none] at hId
    simp [hId]
  · rename_i inner hId
    have hMem : id ∈ registry.state.resident := HashMap.mem_iff_exists_lookup.mpr ⟨inner, hId⟩
    -- what is counted beside the table's reference are the handles for the id
    have hCount : registry.strongCount handles inner - 1 =
        handles.countP fun handle => handle.inner.address == inner.address := by
      unfold strongCount
      rw [h.table_count hId, Nat.add_sub_cancel_left]
    have hNone : registry.strongCount handles inner - 1 = 0 ↔
        ∀ handle ∈ handles, handle.id ≠ id := by
      rw [hCount, List.countP_eq_zero]
      refine forall₂_congr ?_
      intro handle hHandle
      rw [beq_iff_eq, h.address_eq_iff hId (hHolds handle hHandle)]
    show (ite _ _ _ : Except EvictError Unit × SwapRegistry).1 = .ok () ↔ _
    split_ifs with hPos
    · have hNe : ¬ ∀ handle ∈ handles, handle.id ≠ id := by
        rw [← hNone]
        exact Nat.pos_iff_ne_zero.mp hPos
      simp [hNe]
    · have hZero := hNone.mp (Nat.eq_zero_of_not_pos hPos)
      exact ⟨fun _ => ⟨hMem, hZero⟩, fun _ => rfl⟩

/-- What eviction does to the registry: nothing, or it takes the mapping out. -/
theorem evict_cases (registry : SwapRegistry) (handles : List ModelHandle) (id : ModelId) :
    ((registry.evict handles id).1 ≠ .ok () ∧ (registry.evict handles id).2 = registry) ∨
      ∃ inner, registry.state.resident.lookup id = some inner ∧
        registry.evict handles id = (.ok (), registry.remove id inner.path) := by
  unfold evict
  split
  · exact Or.inl ⟨by simp, rfl⟩
  · rename_i inner hId
    show (ite _ _ _ : Except EvictError Unit × SwapRegistry).1 ≠ .ok () ∧ _ ∨ _
    split_ifs with hPos
    · exact Or.inl ⟨by simp, by simp [hPos]⟩
    · exact Or.inr ⟨inner, hId, by simp [hPos]⟩

/-- Eviction makes no mapping and puts none back. -/
theorem evict_table (registry : SwapRegistry) (handles : List ModelHandle) (id : ModelId) :
    (registry.evict handles id).2.state.nextId = registry.state.nextId ∧
      ∀ id' inner, (registry.evict handles id).2.state.resident.lookup id' = some inner →
        registry.state.resident.lookup id' = some inner := by
  rcases registry.evict_cases handles id with ⟨-, hSame⟩ | ⟨removed, -, hEvict⟩
  · rw [hSame]
    exact ⟨rfl, fun _ _ hInner => hInner⟩
  · rw [hEvict]
    exact ⟨rfl, fun _ _ hInner => (HashMap.lookup_erase_iff.mp hInner).2⟩

/-- Eviction, refused or not, keeps the tables together and every handle good. -/
theorem evict_keeps (h : registry.WellFormed) {handles : List ModelHandle}
    (hHolds : ∀ handle ∈ handles, registry.Holds handle) (id : ModelId) :
    (registry.evict handles id).2.WellFormed ∧
      ∀ handle ∈ handles, (registry.evict handles id).2.Holds handle := by
  rcases registry.evict_cases handles id with ⟨-, hSame⟩ | ⟨inner, hId, hEvict⟩
  · rw [hSame]
    exact ⟨h, hHolds⟩
  · have hApart := ((evict_ok_iff h hHolds id).mp (by rw [hEvict])).2
    rw [hEvict]
    refine ⟨h.remove hId, ?_⟩
    intro handle hHandle
    exact (hHolds handle hHandle).remove (hApart handle hHandle) _

end SwapRegistry

/-! ## Histories -/

namespace RegistryHistory

/-- The tables agree, every live handle is good, and no id was given to two
mappings, dead ones included. -/
structure Safe (h : RegistryHistory) : Prop where
  wellFormed : h.registry.WellFormed
  holds : ∀ handle ∈ h.handles, h.registry.Holds handle
  numbered : ∀ handle ∈ h.given, handle.id.number < h.registry.state.nextId
  same : ∀ handle ∈ h.given, ∀ handle' ∈ h.given, handle.id = handle'.id →
    handle.inner = handle'.inner
  resident : ∀ handle ∈ h.given, ∀ inner,
    h.registry.state.resident.lookup handle.id = some inner → handle.inner = inner

/-- Nothing was given at the start. -/
theorem safe_start : Safe start where
  wellFormed := SwapRegistry.wellFormed_new
  holds := by simp [start]
  numbered := by simp [start]
  same := by simp [start]
  resident := by simp [start]

variable {h : RegistryHistory}

/-- Operations that neither make a mapping nor put one back keep the ids apart. -/
theorem Safe.of_resident (hSafe : h.Safe) {registry : SwapRegistry} {handles : List ModelHandle}
    (hWellFormed : registry.WellFormed) (hHolds : ∀ handle ∈ handles, registry.Holds handle)
    (hNext : registry.state.nextId = h.registry.state.nextId)
    (hResident : ∀ id inner, registry.state.resident.lookup id = some inner →
      h.registry.state.resident.lookup id = some inner) :
    Safe { registry, handles, given := h.given } where
  wellFormed := hWellFormed
  holds := hHolds
  numbered := by
    intro handle hHandle
    show handle.id.number < registry.state.nextId
    rw [hNext]
    exact hSafe.numbered handle hHandle
  same := hSafe.same
  resident := by
    intro handle hHandle inner hInner
    exact hSafe.resident handle hHandle inner (hResident _ _ hInner)

/-- A load gives a handle that holds. -/
theorem Safe.load (hSafe : h.Safe) {path : Path} {residency : Residency} {mapping : Mapping}
    {handle : ModelHandle} {registry : SwapRegistry}
    (hLoad : h.registry.load path residency mapping = some (.ok handle, registry)) :
    Safe { registry, handles := handle :: h.handles, given := handle :: h.given } := by
  obtain ⟨hWellFormed, hGood, -, hKeep⟩ := SwapRegistry.load_ok hSafe.wellFormed hLoad
  -- an id given out before stands for the mapping it was given to
  have hold : ∀ other ∈ h.given, ∀ inner,
      registry.state.resident.lookup other.id = some inner → other.inner = inner := by
    intro other hOther inner hInner
    rcases SwapRegistry.load_cases hLoad with ⟨id, _, -, -, -, rfl⟩ | ⟨-, -, rfl⟩ |
      ⟨-, fresh, -, -, -, rfl⟩
    · exact hSafe.resident other hOther inner hInner
    · exact hSafe.resident other hOther inner hInner
    · rcases HashMap.lookup_insert_iff.mp hInner with ⟨hId, -⟩ | ⟨-, hInner⟩
      · have hLt := hSafe.numbered other hOther
        rw [hId] at hLt
        exact absurd hLt (Nat.lt_irrefl _)
      · exact hSafe.resident other hOther inner hInner
  have hNext := (SwapRegistry.load_nextId hLoad).1
  refine ⟨hWellFormed, ?_, ?_, ?_, ?_⟩
  · intro other hOther
    rcases List.mem_cons.mp hOther with rfl | hOther
    · exact hGood
    · exact hKeep other (hSafe.holds other hOther)
  · intro other hOther
    rcases List.mem_cons.mp hOther with rfl | hOther
    · exact (hWellFormed.numbered _ _ hGood).2
    · exact Nat.lt_of_lt_of_le (hSafe.numbered other hOther) hNext
  · intro other hOther other' hOther' hId
    rcases List.mem_cons.mp hOther with rfl | hBefore <;>
      rcases List.mem_cons.mp hOther' with rfl | hBefore'
    · rfl
    · exact (hold other' hBefore' _ (hId ▸ hGood)).symm
    · exact hold other hBefore _ (hId ▸ hGood)
    · exact hSafe.same other hBefore other' hBefore' hId
  · intro other hOther inner hInner
    rcases List.mem_cons.mp hOther with rfl | hOther
    · have hGood' : registry.state.resident.lookup other.id = some other.inner := hGood
      rw [hGood'] at hInner
      exact Option.some.inj hInner
    · exact hold other hOther inner hInner

/-- No operation panics, and all of them keep the registry safe. -/
theorem Safe.step (hSafe : h.Safe) (op : RegistryOp) :
    ∃ h', h.step op = some h' ∧ h'.Safe := by
  match op with
  | .load path residency mapping =>
    obtain ⟨⟨result, registry⟩, hLoad⟩ :=
      SwapRegistry.load_isSome hSafe.wellFormed path residency mapping
    match result, hLoad with
    | .ok handle, hLoad => exact ⟨_, by rw [RegistryHistory.step, hLoad]; rfl, hSafe.load hLoad⟩
    | .error _, hLoad =>
      refine ⟨_, by rw [RegistryHistory.step, hLoad]; rfl, ?_⟩
      rw [SwapRegistry.load_error hLoad]
      exact hSafe
  | .clone handle =>
    -- a handle more, for a mapping that has one
    refine ⟨_, rfl, hSafe.of_resident hSafe.wellFormed ?_ rfl fun _ _ => id⟩
    intro other hOther
    rcases List.mem_append.mp hOther with hClone | hOther
    · exact hSafe.holds other (List.mem_of_getElem? (Option.mem_toList.mp hClone))
    · exact hSafe.holds other hOther
  | .drop handle =>
    refine ⟨_, rfl, hSafe.of_resident hSafe.wellFormed ?_ rfl fun _ _ => id⟩
    intro other hOther
    exact hSafe.holds other (List.mem_of_mem_eraseIdx hOther)
  | .evict id =>
    obtain ⟨hWellFormed, hHolds⟩ := SwapRegistry.evict_keeps hSafe.wellFormed hSafe.holds id
    obtain ⟨hNext, hResident⟩ := h.registry.evict_table h.handles id
    exact ⟨_, rfl, hSafe.of_resident hWellFormed hHolds hNext hResident⟩
  | .recordDeviceBytes id bytes =>
    refine ⟨_, rfl, hSafe.of_resident (hSafe.wellFormed.recordDeviceBytes id bytes) ?_ ?_ ?_⟩
    · intro handle hHandle
      exact (hSafe.holds handle hHandle).recordDeviceBytes id bytes
    · rw [SwapRegistry.resident_recordDeviceBytes]
    · intro id' inner' hInner'
      rwa [SwapRegistry.resident_recordDeviceBytes] at hInner'

/-- Every history goes through, to a safe registry. -/
theorem run_safe (ops : List RegistryOp) : ∃ h, run ops = some h ∧ h.Safe :=
  foldlM_total Safe (fun _ op hSafe => hSafe.step op) ops safe_start

/-- An operation makes one mapping at most. -/
theorem nextId_step {h' : RegistryHistory} {op : RegistryOp} (hStep : h.step op = some h') :
    h'.registry.state.nextId ≤ h.registry.state.nextId + 1 := by
  match op, hStep with
  | .load path residency mapping, hStep =>
    obtain ⟨⟨result, registry⟩, hLoad, hResult⟩ := Option.map_eq_some_iff.mp hStep
    have hNext := (SwapRegistry.load_nextId hLoad).2
    match result, hResult with
    | .ok handle, hResult =>
      cases hResult
      exact hNext
    | .error _, hResult =>
      cases hResult
      exact hNext
  | .clone _, hStep =>
    cases hStep
    exact Nat.le_succ _
  | .drop _, hStep =>
    cases hStep
    exact Nat.le_succ _
  | .evict id, hStep =>
    cases hStep
    show (h.registry.evict h.handles id).2.state.nextId ≤ _
    rw [(h.registry.evict_table h.handles id).1]
    exact Nat.le_succ _
  | .recordDeviceBytes id bytes, hStep =>
    cases hStep
    show (h.registry.recordDeviceBytes id bytes).state.nextId ≤ _
    rw [SwapRegistry.resident_recordDeviceBytes]
    exact Nat.le_succ _

/-- `next_id` stays below the number of operations: a `u64` holds it for any history
shorter than 2^64. -/
theorem nextId_le {ops : List RegistryOp} {h' : RegistryHistory}
    (hRun : ops.foldlM step h = some h') :
    h'.registry.state.nextId ≤ h.registry.state.nextId + ops.length := by
  induction ops generalizing h with
  | nil =>
    cases hRun
    exact Nat.le_refl _
  | cons op ops ih =>
    rw [List.foldlM_cons] at hRun
    obtain ⟨h1, hFirst, hRest⟩ := Option.bind_eq_some_iff.mp hRun
    have hOne := nextId_step hFirst
    have hMore := ih hRest
    rw [List.length_cons]
    omega

end RegistryHistory

open RegistryHistory in
/-- **Registry safety over every history.** No history panics. After it, `by_path`
finds exactly the resident mappings by their paths and `last_accessed` has the
resident ids; no id was ever given to two mappings; every live handle's id is
resident and stands for the mapping the handle holds; eviction succeeds exactly
for what is resident without a live handle; and an operation that fails changes
nothing. -/
theorem registry_safe (ops : List RegistryOp) :
    ∃ h, run ops = some h ∧
      ((∀ path id, h.registry.state.byPath.lookup path = some id ↔
          ∃ inner, h.registry.state.resident.lookup id = some inner ∧ inner.path = path) ∧
        (∀ id, id ∈ h.registry.state.lastAccessed ↔ id ∈ h.registry.state.resident) ∧
        ∀ path residency mapping, h.registry.load path residency mapping ≠ none) ∧
      (∀ handle ∈ h.given, ∀ handle' ∈ h.given,
        handle.id = handle'.id → handle.inner = handle'.inner) ∧
      (∀ handle ∈ h.handles,
        h.registry.state.resident.lookup handle.id = some handle.inner) ∧
      (∀ id, (h.registry.evict h.handles id).1 = .ok () ↔
        id ∈ h.registry.state.resident ∧ ∀ handle ∈ h.handles, handle.id ≠ id) ∧
      (∀ path residency mapping error registry,
        h.registry.load path residency mapping = some (.error error, registry) →
          registry = h.registry) ∧
      ∀ id, (h.registry.evict h.handles id).1 ≠ .ok () →
        (h.registry.evict h.handles id).2 = h.registry := by
  obtain ⟨h, hRun, hSafe⟩ := run_safe ops
  refine ⟨h, hRun, ⟨hSafe.wellFormed.indexed, hSafe.wellFormed.accessed, ?_⟩, hSafe.same,
    hSafe.holds, SwapRegistry.evict_ok_iff hSafe.wellFormed hSafe.holds, ?_, ?_⟩
  · intro path residency mapping
    obtain ⟨result, hLoad⟩ := SwapRegistry.load_isSome hSafe.wellFormed path residency mapping
    rw [hLoad]
    exact Option.some_ne_none result
  · intro path residency mapping error registry hLoad
    exact SwapRegistry.load_error hLoad
  · intro id hRefused
    rcases h.registry.evict_cases h.handles id with ⟨-, hSame⟩ | ⟨inner, -, hEvict⟩
    · exact hSame
    · exact absurd (by rw [hEvict]) hRefused

end Rampipe
