import Rampipe.Lib.Table
import Rampipe.Model.Text
import Mathlib.Data.List.Sort

/-!
# Rampipe — the residency registry

`lib.rs`: `SwapRegistry`, which maps model files and refuses to unmap one while
a handle for it is alive.

An `Arc<Resident>` is modelled by the value it points to, with the `address` of
its allocation as a field, so that two equal values are one allocation. The
`device_bytes` cell inside it is the only part that changes; the cells are kept
beside the tables, by address. How many references there are outside the
registry is not its own state: `evict` is given the handles that are alive.
`next_id` is a `u64` that only counts up, one for each mapping made
(`RegistryHistory.nextId_le`), and is a natural number here.

Times of day and latencies are natural numbers, and the budget is the comparison
`used as f64 <= budget_fraction * available as f64`, whatever it decides.
-/

namespace Rampipe

/-- A path. Keys of a `PathBuf` compare by their components, for which `=` stands here. -/
abbrev Path := Text

/-- What `Instant::now()` reads. -/
abbrev Instant := Nat

/-- How a mapping is brought into memory. -/
inductive Residency
  | lazy
  | prefault
  | advise
  deriving DecidableEq

structure ModelId where
  number : Nat
  deriving DecidableEq

structure SwapMetrics where
  prefaultLatency : Option Nat
  mappedBytes : Nat
  deriving DecidableEq

/-- A mapped file, and which allocation holds it. -/
structure Resident where
  address : Nat
  path : Path
  mmap : List UInt8
  metrics : SwapMetrics
  deriving DecidableEq

/-- A live reference to a mapped model. -/
structure ModelHandle where
  id : ModelId
  inner : Resident
  deriving DecidableEq

inductive LoadError
  | io
  | empty
  | badMagic (found : List UInt8)
  deriving DecidableEq

inductive EvictError
  | unknownId (id : ModelId)
  | handleOutstanding (outstanding : Nat)
  deriving DecidableEq

structure RegistryState where
  nextId : Nat
  resident : HashMap ModelId Resident
  byPath : HashMap Path ModelId
  lastAccessed : HashMap ModelId Instant

/-- A registry, with the `device_bytes` cells of the mappings it has made. -/
structure SwapRegistry where
  state : RegistryState
  cells : List (Option Nat)

/-- What a load meets outside: the file's bytes, if it opens and maps, how long
bringing it in takes, and the time. -/
structure Mapping where
  file : Option (List UInt8)
  prefaultLatency : Nat
  now : Instant

/-- `b"GGUF"`. -/
def GGUF_MAGIC : List UInt8 := [71, 71, 85, 70]

namespace SwapRegistry

def new : SwapRegistry where
  state := { nextId := 0, resident := ∅, byPath := ∅, lastAccessed := ∅ }
  cells := []

/-! ## Loading -/

/-- A cache hit: the model was handed out again. -/
def touch (registry : SwapRegistry) (id : ModelId) (now : Instant) : SwapRegistry :=
  { registry with
    state := { registry.state with lastAccessed := registry.state.lastAccessed.insert id now } }

/-- A new mapping, under the next id. -/
def insert (registry : SwapRegistry) (inner : Resident) (now : Instant) : SwapRegistry where
  state :=
    { nextId := registry.state.nextId + 1
      resident := registry.state.resident.insert ⟨registry.state.nextId⟩ inner
      byPath := registry.state.byPath.insert inner.path ⟨registry.state.nextId⟩
      lastAccessed := registry.state.lastAccessed.insert ⟨registry.state.nextId⟩ now }
  cells := registry.cells ++ [none]

/-- Maps `path` and validates it, or hands out the mapping there is; `none` is the
panic of `expect("by_path/resident desync")`. -/
def load (registry : SwapRegistry) (path : Path) (residency : Residency) (mapping : Mapping) :
    Option (Except LoadError ModelHandle × SwapRegistry) :=
  match registry.state.byPath.lookup path with
  | some id =>
    match registry.state.resident.lookup id with
    | none => none
    | some inner => some (.ok { id, inner }, registry.touch id mapping.now)
  | none =>
    match mapping.file with
    | none => some (.error .io, registry)
    | some mmap =>
      if mmap.length < 4 then some (.error .empty, registry)
      else if mmap.take 4 ≠ GGUF_MAGIC then some (.error (.badMagic (mmap.take 4)), registry)
      else
        let prefaultLatency :=
          match residency with
          | .lazy => none
          | .prefault => some mapping.prefaultLatency
          | .advise => some mapping.prefaultLatency
        let inner : Resident :=
          { address := registry.cells.length
            path, mmap
            metrics := { prefaultLatency, mappedBytes := mmap.length } }
        some (.ok { id := ⟨registry.state.nextId⟩, inner }, registry.insert inner mapping.now)

/-! ## Evicting -/

/-- `Arc::strong_count`: the table's references and those of the live handles. -/
def strongCount (registry : SwapRegistry) (handles : List ModelHandle) (inner : Resident) : Nat :=
  registry.state.resident.values.countP (fun other => other.address == inner.address) +
    handles.countP (fun handle => handle.inner.address == inner.address)

def remove (registry : SwapRegistry) (id : ModelId) (path : Path) : SwapRegistry :=
  { registry with
    state :=
      { registry.state with
        resident := registry.state.resident.erase id
        byPath := registry.state.byPath.erase path
        lastAccessed := registry.state.lastAccessed.erase id } }

/-- Frees the mapping of `id`, unless a handle for it is alive. -/
def evict (registry : SwapRegistry) (handles : List ModelHandle) (id : ModelId) :
    Except EvictError Unit × SwapRegistry :=
  match registry.state.resident.lookup id with
  | none => (.error (.unknownId id), registry)
  | some inner =>
    -- one reference is the table's own
    let outstanding := registry.strongCount handles inner - 1
    if outstanding > 0 then (.error (.handleOutstanding outstanding), registry)
    else (.ok (), registry.remove id inner.path)

/-! ## What is resident -/

def isResident (registry : SwapRegistry) (id : ModelId) : Bool :=
  decide (id ∈ registry.state.resident)

def residentCount (registry : SwapRegistry) : Nat := registry.state.resident.keys.length

def mappedBytes (registry : SwapRegistry) : Nat :=
  registry.state.resident.values.foldl (fun total inner => total + inner.mmap.length) 0

/-- Every id that was handed out, the one handed out longest ago first. -/
def residentIdsByLru (registry : SwapRegistry) : List ModelId :=
  (registry.state.lastAccessed.entries.insertionSort fun a b => a.2 ≤ b.2).map Sigma.fst

/-- Whether `newSizeBytes` more stays within the budget; `none` when the free
memory cannot be measured. -/
def fitsWithinBudget (registry : SwapRegistry) (systemFreeBytes : Option Nat)
    (withinBudget : Nat → Nat → Bool) (newSizeBytes : Nat) : Option Bool :=
  systemFreeBytes.map fun free =>
    withinBudget (registry.mappedBytes + newSizeBytes) (free + registry.mappedBytes)

/-! ## Device memory -/

/-- The cell a resident's `device_bytes` is in. -/
def deviceBytes (registry : SwapRegistry) (inner : Resident) : Option Nat :=
  (registry.cells[inner.address]?).join

/-- Records a resident model's device memory; nothing happens to any other. -/
def recordDeviceBytes (registry : SwapRegistry) (id : ModelId) (bytes : Nat) : SwapRegistry :=
  match registry.state.resident.lookup id with
  | none => registry
  | some inner => { registry with cells := registry.cells.set inner.address (some bytes) }

def deviceResidentBytes (registry : SwapRegistry) : Nat :=
  (registry.state.resident.values.filterMap registry.deviceBytes).foldl (fun total bytes =>
    total + bytes) 0

def fitsWithinDeviceBudget (registry : SwapRegistry) (newDeviceBytes freeDeviceBytes : Nat)
    (withinBudget : Nat → Nat → Bool) : Bool :=
  withinBudget (registry.deviceResidentBytes + newDeviceBytes)
    (freeDeviceBytes + registry.deviceResidentBytes)

end SwapRegistry

/-! ## Histories -/

/-- What a program does with one registry and the handles it was given. -/
inductive RegistryOp
  | load (path : Path) (residency : Residency) (mapping : Mapping)
  | clone (handle : Nat)
  | drop (handle : Nat)
  | evict (id : ModelId)
  | recordDeviceBytes (id : ModelId) (bytes : Nat)

/-- A registry, the handles that are alive, and every handle it ever gave out. -/
structure RegistryHistory where
  registry : SwapRegistry
  handles : List ModelHandle
  given : List ModelHandle

namespace RegistryHistory

def start : RegistryHistory := { registry := .new, handles := [], given := [] }

/-- One operation; `none` when it panics. Handles go by their place among those
that are alive. -/
def step (h : RegistryHistory) : RegistryOp → Option RegistryHistory
  | .load path residency mapping =>
    (h.registry.load path residency mapping).map fun (result, registry) =>
      match result with
      | .ok handle => { registry, handles := handle :: h.handles, given := handle :: h.given }
      | .error _ => { h with registry }
  | .clone handle => some { h with handles := (h.handles[handle]?).toList ++ h.handles }
  | .drop handle => some { h with handles := h.handles.eraseIdx handle }
  | .evict id => some { h with registry := (h.registry.evict h.handles id).2 }
  | .recordDeviceBytes id bytes =>
    some { h with registry := h.registry.recordDeviceBytes id bytes }

def run (ops : List RegistryOp) : Option RegistryHistory := ops.foldlM step start

end RegistryHistory

end Rampipe
