import Rampipe.Model.Daemon
import Rampipe.Results.Registry

/-!
# Rampipe — the order of eviction

`resident_ids_by_lru` sorts a table of times that loads, hits and evictions each keep
up. Over a history whose clock goes on, a resident id stands there with the time of
the latest load that gave it out, so that the order is that of those loads.

* `residentIdsByLru_perm`    — the ids are those of the table, each once.
* `residentIdsByLru_isLru`   — it is one of the orders the daemon allows for.
* `Recent`                   — the table after a history.
* `residentIdsByLru_ordered` — the order, in terms of the history.
-/

namespace Rampipe

namespace SwapRegistry

/-- The ids by least recent use are those that were accessed. -/
theorem residentIdsByLru_perm (registry : SwapRegistry) :
    registry.residentIdsByLru.Perm registry.state.lastAccessed.keys := by
  unfold residentIdsByLru
  exact (List.perm_insertionSort _ _).map Sigma.fst

/-- Each of them once. -/
theorem residentIdsByLru_nodup (registry : SwapRegistry) : registry.residentIdsByLru.Nodup :=
  registry.residentIdsByLru_perm.nodup_iff.mpr registry.state.lastAccessed.keys_nodup

/-- Every id is in the table with its time, and the times ascend. -/
theorem residentIdsByLru_ascending (registry : SwapRegistry) :
    registry.residentIdsByLru.Pairwise fun a b => ∃ s t,
      registry.state.lastAccessed.lookup a = some s ∧
        registry.state.lastAccessed.lookup b = some t ∧ s ≤ t := by
  unfold residentIdsByLru
  rw [List.pairwise_map]
  refine (List.pairwise_insertionSort _ _).imp_of_mem ?_
  intro a b ha hb hOrder
  refine ⟨a.2, b.2, ?_, ?_, hOrder⟩
  · exact AList.mem_lookup_iff.mpr ((List.mem_insertionSort _).mp ha)
  · exact AList.mem_lookup_iff.mpr ((List.mem_insertionSort _).mp hb)

/-- They are in the order that the loops ask for. -/
theorem residentIdsByLru_isLru (registry : SwapRegistry) :
    registry.IsLru registry.residentIdsByLru := by
  refine ⟨registry.residentIdsByLru_perm, registry.residentIdsByLru_ascending.imp ?_⟩
  rintro a b ⟨s, t, hs, ht, hOrder⟩
  rw [hs, ht]
  exact hOrder

end SwapRegistry

/-! ## Histories -/

/-- The clock an operation reads. -/
def RegistryOp.now? : RegistryOp → Option Instant
  | .load _ _ mapping => some mapping.now
  | _ => none

namespace RegistryHistory

/-- The operation is a load that gives out `id`. -/
def Loads (h : RegistryHistory) (op : RegistryOp) (id : ModelId) : Prop :=
  ∃ path residency mapping handle registry, op = .load path residency mapping ∧
    h.registry.load path residency mapping = some (.ok handle, registry) ∧ handle.id = id

/-- Operation `i` of the history is a load that gives out `id`. -/
def LoadedAt (ops : List RegistryOp) (i : Nat) (id : ModelId) : Prop :=
  ∃ h op, run (ops.take i) = some h ∧ ops[i]? = some op ∧ h.Loads op id

/-- ... and the last one that does. -/
def LatestLoad (ops : List RegistryOp) (id : ModelId) (i : Nat) : Prop :=
  LoadedAt ops i id ∧ ∀ j, LoadedAt ops j id → j ≤ i

/-- One operation gives out one id. -/
theorem LoadedAt.unique {ops : List RegistryOp} {i : Nat} {id id' : ModelId}
    (h : LoadedAt ops i id) (h' : LoadedAt ops i id') : id = id' := by
  obtain ⟨before, op, hRun, hOp, path, residency, mapping, handle, registry, rfl, hLoad, rfl⟩ := h
  obtain ⟨before', op', hRun', hOp', _, _, _, handle', registry', rfl, hLoad', rfl⟩ := h'
  rw [hRun] at hRun'
  cases hRun'
  rw [hOp] at hOp'
  cases hOp'
  rw [hLoad] at hLoad'
  cases hLoad'
  rfl

/-! ### One more operation -/

variable {ops : List RegistryOp} {op : RegistryOp} {h h' : RegistryHistory} {id : ModelId}

/-- A run of one operation more is that operation behind it. -/
theorem run_snoc : run (ops ++ [op]) = (run ops).bind (·.step op) := by
  unfold run
  rw [List.foldlM_append]
  refine congrArg _ (funext fun t => ?_)
  rw [List.foldlM_cons]
  rcases t.step op with _ | t' <;> rfl

/-- A model was loaded before, or just now. -/
theorem loadedAt_snoc (hRun : run ops = some h) (i : Nat) :
    LoadedAt (ops ++ [op]) i id ↔ LoadedAt ops i id ∨ i = ops.length ∧ h.Loads op id := by
  rcases Nat.lt_trichotomy i ops.length with hi | rfl | hi
  · -- an earlier one is what it was
    have hTake : (ops ++ [op]).take i = ops.take i := List.take_append_of_le_length (Nat.le_of_lt hi)
    have hAt : (ops ++ [op])[i]? = ops[i]? := List.getElem?_append_left hi
    unfold LoadedAt
    rw [hTake, hAt]
    exact ⟨.inl, fun hCases => hCases.resolve_right fun hLast => absurd hLast.1 (Nat.ne_of_lt hi)⟩
  · have hTake : (ops ++ [op]).take ops.length = ops := List.take_left
    have hNone : ¬ LoadedAt ops ops.length id := by
      rintro ⟨_, _, -, hOp, -⟩
      rw [List.getElem?_eq_none (Nat.le_refl _)] at hOp
      cases hOp
    constructor
    · rintro ⟨before, op', hBefore, hOp, hLoads⟩
      rw [hTake, hRun] at hBefore
      cases hBefore
      rw [List.getElem?_concat_length] at hOp
      cases hOp
      exact .inr ⟨rfl, hLoads⟩
    · rintro (hOld | ⟨-, hLoads⟩)
      · exact absurd hOld hNone
      · exact ⟨h, op, by rw [hTake, hRun], List.getElem?_concat_length, hLoads⟩
  · -- and there is none further on
    have hNone : ∀ ops' : List RegistryOp, ops'.length ≤ i → ¬ LoadedAt ops' i id := by
      rintro ops' hLength ⟨_, _, -, hOp, -⟩
      rw [List.getElem?_eq_none hLength] at hOp
      cases hOp
    refine iff_of_false (hNone _ ?_) ?_
    · rw [List.length_append, List.length_singleton]
      exact hi
    · rintro (hOld | ⟨rfl, -⟩)
      · exact hNone ops (Nat.le_of_lt hi) hOld
      · exact Nat.lt_irrefl _ hi

/-- The operation that comes last is the latest. -/
theorem latestLoad_last (hRun : run ops = some h) (hLoads : h.Loads op id) :
    LatestLoad (ops ++ [op]) id ops.length := by
  refine ⟨(loadedAt_snoc hRun _).mpr (.inr ⟨rfl, hLoads⟩), ?_⟩
  intro j hj
  rcases (loadedAt_snoc hRun j).mp hj with ⟨_, _, -, hOp, -⟩ | ⟨rfl, -⟩
  · exact Nat.le_of_lt (List.getElem?_eq_some_iff.mp hOp).1
  · exact Nat.le_refl _

/-- An operation that gives out something else leaves the latest load of this id. -/
theorem LatestLoad.snoc {i : Nat} (hLatest : LatestLoad ops id i) (hRun : run ops = some h)
    (hOther : ¬ h.Loads op id) : LatestLoad (ops ++ [op]) id i := by
  refine ⟨(loadedAt_snoc hRun i).mpr (.inl hLatest.1), ?_⟩
  intro j hj
  rcases (loadedAt_snoc hRun j).mp hj with hOld | ⟨-, hLoads⟩
  · exact hLatest.2 j hOld
  · exact absurd hLoads hOther

/-- What was done before is done still. -/
theorem LatestLoad.getElem?_snoc {i : Nat} (hLatest : LatestLoad ops id i) :
    (ops ++ [op])[i]? = ops[i]? := by
  obtain ⟨_, _, -, hOp, -⟩ := hLatest.1
  exact List.getElem?_append_left (List.getElem?_eq_some_iff.mp hOp).1

/-! ### The table of times -/

/-- Every id in the table stands there with the time of its latest load. -/
def Recent (ops : List RegistryOp) (registry : SwapRegistry) : Prop :=
  ∀ id t, registry.state.lastAccessed.lookup id = some t →
    ∃ i, LatestLoad ops id i ∧ ops[i]?.bind RegistryOp.now? = some t

/-- An operation that gives nothing out, and enters nothing. -/
theorem Recent.snoc (hRecent : Recent ops h.registry) (hRun : run ops = some h)
    (hOther : ∀ id, ¬ h.Loads op id) {registry : SwapRegistry}
    (hTable : ∀ id t, registry.state.lastAccessed.lookup id = some t →
      h.registry.state.lastAccessed.lookup id = some t) : Recent (ops ++ [op]) registry := by
  intro id t ht
  obtain ⟨i, hLatest, hNow⟩ := hRecent id t (hTable id t ht)
  refine ⟨i, hLatest.snoc hRun (hOther id), ?_⟩
  rwa [hLatest.getElem?_snoc]

/-- A load that gives `id` out, and enters it with its time. -/
theorem Recent.snoc_load (hRecent : Recent ops h.registry) (hRun : run ops = some h)
    {path : Path} {residency : Residency} {mapping : Mapping} {handle : ModelHandle}
    {registry : SwapRegistry}
    (hLoad : h.registry.load path residency mapping = some (.ok handle, registry))
    (hTable : registry.state.lastAccessed =
      h.registry.state.lastAccessed.insert handle.id mapping.now) :
    Recent (ops ++ [.load path residency mapping]) registry := by
  have hLoads : h.Loads (.load path residency mapping) handle.id :=
    ⟨path, residency, mapping, handle, registry, rfl, hLoad, rfl⟩
  intro id t ht
  rw [hTable] at ht
  rcases HashMap.lookup_insert_iff.mp ht with ⟨rfl, rfl⟩ | ⟨hNe, hOld⟩
  · refine ⟨ops.length, latestLoad_last hRun hLoads, ?_⟩
    rw [List.getElem?_concat_length]
    rfl
  · obtain ⟨i, hLatest, hNow⟩ := hRecent id t hOld
    refine ⟨i, hLatest.snoc hRun ?_, ?_⟩
    · -- the load gives out one handle, and it is for another model
      rintro ⟨_, _, _, other, _, hSame, hOther, rfl⟩
      cases hSame
      rw [hLoad] at hOther
      cases hOther
      exact hNe rfl
    · rwa [hLatest.getElem?_snoc]

/-- Every operation keeps the clock's readings recent. -/
theorem Recent.step (hRecent : Recent ops h.registry) (hRun : run ops = some h)
    (hStep : h.step op = some h') : Recent (ops ++ [op]) h'.registry := by
  have hNoLoad : (∀ path residency mapping, op ≠ .load path residency mapping) →
      ∀ id, ¬ h.Loads op id := by
    rintro hNot id ⟨path, residency, mapping, _, _, rfl, -, -⟩
    exact hNot path residency mapping rfl
  match op with
  | .load path residency mapping =>
    obtain ⟨⟨result, registry⟩, hLoad, hResult⟩ := Option.map_eq_some_iff.mp hStep
    match result with
    | .ok handle =>
      -- a cache hit touches the entry, a fresh load makes one
      cases hResult
      refine hRecent.snoc_load hRun hLoad ?_
      rcases SwapRegistry.load_cases hLoad with ⟨_, _, -, -, hHandle, rfl⟩ |
        ⟨-, ⟨_, hHandle⟩, -⟩ | ⟨-, _, -, -, hHandle, rfl⟩
      · cases hHandle
        rfl
      · cases hHandle
      · cases hHandle
        rfl
    | .error error =>
      -- a failed load returns before it touches anything
      cases hResult
      rw [SwapRegistry.load_error hLoad]
      refine hRecent.snoc hRun ?_ fun _ _ ht => ht
      rintro id ⟨_, _, _, _, _, hSame, hOther, -⟩
      cases hSame
      rw [hLoad] at hOther
      cases hOther
  | .clone _ =>
    cases hStep
    exact hRecent.snoc hRun (hNoLoad (by simp)) fun _ _ ht => ht
  | .drop _ =>
    cases hStep
    exact hRecent.snoc hRun (hNoLoad (by simp)) fun _ _ ht => ht
  | .evict id =>
    cases hStep
    refine hRecent.snoc hRun (hNoLoad (by simp)) ?_
    intro id' t ht
    dsimp only at ht
    rcases h.registry.evict_cases h.handles id with ⟨-, hSame⟩ | ⟨inner, -, hEvict⟩
    · -- refused
      rwa [hSame] at ht
    · -- the entry goes with the model, and the others stay
      rw [hEvict] at ht
      exact (HashMap.lookup_erase_iff.mp ht).2
  | .recordDeviceBytes id bytes =>
    cases hStep
    refine hRecent.snoc hRun (hNoLoad (by simp)) ?_
    intro id' t ht
    dsimp only at ht
    rwa [SwapRegistry.resident_recordDeviceBytes] at ht

/-- After any history. -/
theorem run_recent (hRun : run ops = some h) : Recent ops h.registry := by
  induction ops using List.reverseRecOn generalizing h with
  | nil =>
    cases hRun
    intro id t ht
    cases ht
  | append_singleton ops op ih =>
    rw [run_snoc] at hRun
    obtain ⟨before, hBefore, hStep⟩ := Option.bind_eq_some_iff.mp hRun
    exact (ih hBefore).step hBefore hStep

/-! ### The clock -/

/-- A later load reads a later time. -/
theorem now_lt_of_lt (hClock : (ops.filterMap RegistryOp.now?).Pairwise (· < ·)) {i j : Nat}
    {s t : Instant} (hi : ops[i]?.bind RegistryOp.now? = some s)
    (hj : ops[j]?.bind RegistryOp.now? = some t) (hOrder : i < j) : s < t := by
  obtain ⟨op, hOp, hNow⟩ := Option.bind_eq_some_iff.mp hi
  obtain ⟨op', hOp', hNow'⟩ := Option.bind_eq_some_iff.mp hj
  obtain ⟨hLeft, rfl⟩ := List.getElem?_eq_some_iff.mp hOp
  obtain ⟨hRight, rfl⟩ := List.getElem?_eq_some_iff.mp hOp'
  rw [List.pairwise_filterMap] at hClock
  exact List.pairwise_iff_getElem.mp hClock i j hLeft hRight hOrder s hNow t hNow'

/-- There is one latest load of a model. -/
theorem LatestLoad.unique {i j : Nat} (hi : LatestLoad ops id i) (hj : LatestLoad ops id j) :
    i = j :=
  Nat.le_antisymm (hj.2 i hi.1) (hi.2 j hj.1)

/-- **Least recently used first.** After any history whose clock goes on, the ids are the
resident ones, each once, in the order of the latest loads that gave them out. -/
theorem residentIdsByLru_ordered (ops : List RegistryOp)
    (hClock : (ops.filterMap RegistryOp.now?).Pairwise (· < ·)) :
    ∃ h, run ops = some h ∧ h.registry.residentIdsByLru.Nodup ∧
      (∀ id, id ∈ h.registry.residentIdsByLru ↔ h.registry.isResident id) ∧
      (∀ id ∈ h.registry.residentIdsByLru, ∃ i, LatestLoad ops id i) ∧
      h.registry.residentIdsByLru.Pairwise fun a b =>
        ∀ i j, LatestLoad ops a i → LatestLoad ops b j → i < j := by
  obtain ⟨h, hRun, hSafe⟩ := run_safe ops
  have hRecent := run_recent hRun
  have hMem : ∀ id, id ∈ h.registry.residentIdsByLru ↔ id ∈ h.registry.state.lastAccessed :=
    fun id => h.registry.residentIdsByLru_perm.mem_iff
  refine ⟨h, hRun, h.registry.residentIdsByLru_nodup, ?_, ?_, ?_⟩
  · intro id
    rw [hMem, hSafe.wellFormed.accessed]
    unfold SwapRegistry.isResident
    rw [decide_eq_true_iff]
  · intro id hId
    obtain ⟨t, ht⟩ := HashMap.mem_iff_exists_lookup.mp ((hMem id).mp hId)
    obtain ⟨i, hLatest, -⟩ := hRecent id t ht
    exact ⟨i, hLatest⟩
  · refine (h.registry.residentIdsByLru_ascending.and h.registry.residentIdsByLru_nodup).imp ?_
    rintro a b ⟨⟨s, t, hs, ht, hOrder⟩, hNe⟩ i j hi hj
    -- the times in the table are those of these loads
    obtain ⟨i', hi', hNow⟩ := hRecent a s hs
    obtain ⟨j', hj', hNow'⟩ := hRecent b t ht
    rw [hi'.unique hi] at hNow
    rw [hj'.unique hj] at hNow'
    rcases Nat.lt_trichotomy i j with hBefore | rfl | hBehind
    · exact hBefore
    · exact absurd (hi.1.unique hj.1) hNe
    · exact absurd (now_lt_of_lt hClock hNow' hNow hBehind) (Nat.not_lt.mpr hOrder)

/-- A load of the file at `path`, at the time `now`. -/
def loadAt (path : String) (now : Instant) : RegistryOp :=
  .load path.toList .lazy { file := some GGUF_MAGIC, prefaultLatency := 0, now }

/-- Two models, of which the first is handed out again, and one that is given back. -/
def reloaded : List RegistryOp :=
  [loadAt "coder.gguf" 1, loadAt "writer.gguf" 2, loadAt "painter.gguf" 3, .drop 0, .evict ⟨2⟩,
    loadAt "coder.gguf" 4]

/-- A model that is loaded again comes last. -/
theorem reloaded_ordered :
    ∃ h, run reloaded = some h ∧ h.registry.residentIdsByLru.Nodup ∧
      (∀ id, id ∈ h.registry.residentIdsByLru ↔ h.registry.isResident id) ∧
      (∀ id ∈ h.registry.residentIdsByLru, ∃ i, LatestLoad reloaded id i) ∧
      h.registry.residentIdsByLru.Pairwise fun a b =>
        ∀ i j, LatestLoad reloaded a i → LatestLoad reloaded b j → i < j :=
  residentIdsByLru_ordered reloaded (by decide)

end RegistryHistory

end Rampipe
