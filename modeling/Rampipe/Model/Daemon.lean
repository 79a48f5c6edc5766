import Rampipe.Model.Registry

/-!
# Rampipe — the daemon's shared state

`bin/rampiped.rs`: the models that are loaded, the loops that evict some of them,
and the threads that use them, one for each connection.

All of `ensure_loaded` runs under the state lock, but the threads that hold a
conversation run beside it: they open it, save it and drop it without the lock.
So `ensure_loaded` is a program of steps (`SharedState.ensureLoaded`) between
which any other thread may act, and each step is given what it meets outside:
files, memory readings, whether llama.cpp fits and loads the model.

An `Arc<LlamaSession>` is modelled like an `Arc<Resident>`, by its value with the
`address` of its allocation, and the reference counts are counted: over the sessions' map,
over the threads, and, for the handles, over the sessions that are alive, the
open conversations and the load under way.
-/

namespace Rampipe

/-- An `Arc<LlamaSession>`: its allocation, and the handle the session holds. -/
structure SessionArc where
  address : Nat
  handle : ModelHandle
  deriving DecidableEq

def SessionArc.id (session : SessionArc) : ModelId := session.handle.id

structure ModelStats where
  requestsServed : Nat
  tokensGenerated : Nat
  lastUsedUnixSecs : Nat
  deriving DecidableEq

/-- One model of a `StatusResponse`. -/
structure ModelStatus where
  path : Path
  requestsServed : Nat
  tokensGenerated : Nat
  lastUsedUnixSecs : Nat
  deriving DecidableEq

structure SharedState where
  registry : SwapRegistry
  sessions : HashMap Path SessionArc
  withinBudget : Nat → Nat → Bool
  requestsServed : Nat
  requestsFailed : Nat
  totalTokensGenerated : Nat
  modelStats : HashMap Path ModelStats

/-- One of the two loops that make room: for a file of this size, or for a context
on the model that is kept. -/
inductive RoomLoop
  | makeRoomFor (newSizeBytes : Nat)
  | makeDeviceRoomBesides
  deriving DecidableEq

/-- Where `ensure_loaded` is. -/
inductive Point
  | checking
  | making (loop : RoomLoop)
  | picked (loop : RoomLoop) (evictId : ModelId) (evictPath : Path)
  | removed (loop : RoomLoop) (evictId : ModelId)
  | opening
  | mapped (handle : ModelHandle)
  | fitted (handle : ModelHandle)
  | loaded
  | failed
  deriving DecidableEq

/-- What the memory probes read. -/
structure Probes where
  systemFreeBytes : Option Nat
  gpuMemoryBytes : Option (Nat × Nat)

/-- What a step of `ensure_loaded` meets outside. -/
inductive Input
  | check (fileSize : Nat) (mapping : Mapping)
  | probe (probes : Probes) (lruIds : List ModelId)
  | remove
  | evict
  | load (mapping : Mapping)
  | resolveParams (ok : Bool)
  | loadModel (ok : Bool) (gpuFreeBefore gpuFreeAfter : Option Nat)

/-- The references that are held, and where the next allocation goes. -/
structure Held where
  handles : List ModelHandle
  strongCount : SessionArc → Nat
  nextAddress : Nat

/-- An order `resident_ids_by_lru` may return: ids that were accessed at one time
come in any order. -/
def SwapRegistry.IsLru (registry : SwapRegistry) (ids : List ModelId) : Prop :=
  ids.Perm registry.state.lastAccessed.keys ∧
    ids.Pairwise fun a b => (registry.state.lastAccessed.lookup a).getD 0 ≤
      (registry.state.lastAccessed.lookup b).getD 0

instance (registry : SwapRegistry) (ids : List ModelId) : Decidable (registry.IsLru ids) :=
  inferInstanceAs (Decidable (_ ∧ _))

namespace SharedState

def new (withinBudget : Nat → Nat → Bool) : SharedState where
  registry := .new
  sessions := ∅
  withinBudget := withinBudget
  requestsServed := 0
  requestsFailed := 0
  totalTokensGenerated := 0
  modelStats := ∅

/-! ## Making room -/

/-- The path of the session with this id. -/
def pathForId (state : SharedState) (id : ModelId) : Option Path :=
  (state.sessions.entries.find? fun entry => entry.2.id == id).map Sigma.fst

/-- The first session in the order that nothing else holds and the loop accepts. -/
def evictable (state : SharedState) (strongCount : SessionArc → Nat)
    (accepts : Path → SessionArc → Bool) (lruIds : List ModelId) : Option (ModelId × Path) :=
  lruIds.findSome? fun id => do
    let evictPath ← state.pathForId id
    let session ← state.sessions.lookup evictPath
    if strongCount session ≠ 1 then none
    if !accepts evictPath session then none
    some (id, evictPath)

/-- The model's recorded device memory. -/
def deviceBytes (state : SharedState) (session : SessionArc) : Option Nat :=
  state.registry.deviceBytes session.handle.inner

/-- One turn of `make_room_for`: what it evicts, or nothing when it returns. -/
def makeRoomFor (state : SharedState) (strongCount : SessionArc → Nat) (newSizeBytes : Nat)
    (probes : Probes) (lruIds : List ModelId) : Option (ModelId × Path) :=
  let hostFits :=
    match state.registry.fitsWithinBudget probes.systemFreeBytes state.withinBudget
      newSizeBytes with
    | none => true
    | some fits => fits
  let deviceFits :=
    match probes.gpuMemoryBytes with
    | some (free, _) =>
      state.registry.fitsWithinDeviceBudget newSizeBytes free state.withinBudget
    | none => true
  if hostFits && deviceFits then none
  else
    -- a model without device memory does not help when only that is short
    state.evictable strongCount
      (fun _ session => !(hostFits && !deviceFits && (state.deviceBytes session).isNone)) lruIds

/-- One turn of `make_device_room_besides`. -/
def makeDeviceRoomBesides (state : SharedState) (strongCount : SessionArc → Nat) (keep : Path)
    (probes : Probes) (lruIds : List ModelId) : Option (ModelId × Path) :=
  match probes.gpuMemoryBytes with
  | none => none
  | some (free, _) =>
    if state.registry.fitsWithinDeviceBudget 0 free state.withinBudget then none
    else
      state.evictable strongCount
        (fun path session => path != keep && (state.deviceBytes session).isSome) lruIds

/-- `sessions.remove` and `model_stats.remove`. -/
def forget (state : SharedState) (path : Path) : SharedState :=
  { state with
    sessions := state.sessions.erase path
    modelStats := state.modelStats.erase path }

/-! ## Ensuring that a model is loaded -/

/-- The end of `load_with_gpu_layers`, and what `ensure_loaded` does with it. -/
def insertSession (state : SharedState) (path : Path) (session : SessionArc)
    (gpuFreeBefore gpuFreeAfter : Option Nat) : SharedState :=
  let registry :=
    match gpuFreeBefore, gpuFreeAfter with
    | some freeBefore, some freeAfter =>
      state.registry.recordDeviceBytes session.id (freeBefore - freeAfter)
    | _, _ => state.registry
  { state with registry, sessions := state.sessions.insert path session }

/-- `ensure_loaded(path)`, a step at a time, with `make_room_for`,
`make_device_room_besides` and `LlamaSession::load` in it. A handle that is not
in the point reached was dropped. -/
def ensureLoaded (state : SharedState) (held : Held) (path : Path) :
    Point → Input → Option (SharedState × Point)
  | .checking, .check fileSize mapping =>
    if path ∈ state.sessions then
      -- a hit is touched, and its handle dropped at once
      (state.registry.load path .lazy mapping).map fun (result, registry) =>
        match result with
        | .ok _ => ({ state with registry }, .making .makeDeviceRoomBesides)
        | .error _ => ({ state with registry }, .failed)
    else some (state, .making (.makeRoomFor fileSize))
  | .making (.makeRoomFor newSizeBytes), .probe probes lruIds =>
    if ¬ state.registry.IsLru lruIds then none
    else
      match state.makeRoomFor held.strongCount newSizeBytes probes lruIds with
      | some (evictId, evictPath) =>
        some (state, .picked (.makeRoomFor newSizeBytes) evictId evictPath)
      | none => some (state, .opening)
  | .making .makeDeviceRoomBesides, .probe probes lruIds =>
    if ¬ state.registry.IsLru lruIds then none
    else
      match state.makeDeviceRoomBesides held.strongCount path probes lruIds with
      | some (evictId, evictPath) =>
        some (state, .picked .makeDeviceRoomBesides evictId evictPath)
      | none => some (state, .loaded)
  | .picked loop evictId evictPath, .remove =>
    some (state.forget evictPath, .removed loop evictId)
  | .removed loop evictId, .evict =>
    match state.registry.evict held.handles evictId with
    | (.ok (), registry) => some ({ state with registry }, .making loop)
    | (.error _, registry) => some ({ state with registry }, .failed)
  | .opening, .load mapping =>
    (state.registry.load path .lazy mapping).map fun (result, registry) =>
      match result with
      | .ok handle => ({ state with registry }, .mapped handle)
      | .error _ => ({ state with registry }, .failed)
  | .mapped handle, .resolveParams ok => some (state, if ok then .fitted handle else .failed)
  | .fitted handle, .loadModel ok gpuFreeBefore gpuFreeAfter =>
    if ok then
      let session : SessionArc := { address := held.nextAddress, handle }
      some (state.insertSession path session gpuFreeBefore gpuFreeAfter, .loaded)
    else some (state, .failed)
  | _, _ => none

/-! ## Outcomes -/

/-- Counts a request, for the daemon and for its model. -/
def recordOutcome (state : SharedState) (path : Path) (tokensGenerated : Option Nat)
    (now : Nat) : SharedState :=
  match tokensGenerated with
  | some tokens =>
    let stats := (state.modelStats.lookup path).getD
      { requestsServed := 0, tokensGenerated := 0, lastUsedUnixSecs := 0 }
    { state with
      requestsServed := state.requestsServed + 1
      totalTokensGenerated := state.totalTokensGenerated + tokens
      modelStats := state.modelStats.insert path
        { requestsServed := stats.requestsServed + 1
          tokensGenerated := stats.tokensGenerated + tokens
          lastUsedUnixSecs := now } }
  | none => { state with requestsFailed := state.requestsFailed + 1 }

/-! ## Status -/

/-- What `handle_status` says about its models; one without counters has zeros. -/
def modelStatuses (state : SharedState) : List ModelStatus :=
  state.sessions.keys.map fun path =>
    let stats := state.modelStats.lookup path
    { path
      requestsServed := (stats.map ModelStats.requestsServed).getD 0
      tokensGenerated := (stats.map ModelStats.tokensGenerated).getD 0
      lastUsedUnixSecs := (stats.map ModelStats.lastUsedUnixSecs).getD 0 }

end SharedState

/-! ## Connections -/

/-- The requests that begin with `ensure_loaded`. -/
inductive Request
  | generate
  | embed
  | openConversation
  deriving DecidableEq

/-- Where a connection's thread is, with the locals it holds. An answered request is
recorded under the lock in a section of its own. -/
inductive Connection
  | accepted
  | recording (path : Path) (tokensGenerated : Option Nat)
  | opening (path : Path) (session : SessionArc)
  | conversing (path : Path) (session : SessionArc) (conversation : ModelHandle)
  | recordingTurn (path : Path) (session : SessionArc) (conversation : ModelHandle)
    (tokensGenerated : Option Nat)
  | closing (session : SessionArc)
  | closed
  deriving DecidableEq

namespace Connection

/-- The thread's own `Arc<LlamaSession>`. -/
def session? : Connection → Option SessionArc
  | .opening _ session => some session
  | .conversing _ session _ => some session
  | .recordingTurn _ session _ _ => some session
  | .closing session => some session
  | _ => none

/-- The handle inside the thread's `Conversation`. -/
def conversation? : Connection → Option ModelHandle
  | .conversing _ _ conversation => some conversation
  | .recordingTurn _ _ conversation _ => some conversation
  | _ => none

end Connection

/-- What the lock's holder is doing. -/
inductive Critical
  | ensuring (request : Request) (path : Path) (point : Point)
  | turn
  deriving DecidableEq

/-- The handle of a load under way. -/
def Critical.handle? : Critical → Option ModelHandle
  | .ensuring _ _ (.mapped handle) => some handle
  | .ensuring _ _ (.fitted handle) => some handle
  | _ => none

/-! ## The daemon and its threads -/

structure World where
  state : SharedState
  lock : Option (Nat × Critical)
  connections : List Connection
  nextAddress : Nat

/-- A step of one thread, by its place among the connections, or of the lock's
holder. -/
inductive World.Event
  | accept
  | lock (thread : Nat) (request : Request) (path : Path)
  | ensure (input : Input)
  | release (tokensGenerated : Option Nat)
  | record (thread : Nat) (now : Nat)
  | openConversation (thread : Nat) (ok : Bool)
  | turn (thread : Nat)
  | snapshot (thread : Nat) (ok : Bool)
  | disconnect (thread : Nat)
  | drop (thread : Nat)

namespace World

def start (withinBudget : Nat → Nat → Bool) : World where
  state := .new withinBudget
  lock := none
  connections := []
  nextAddress := 0

/-! ### References -/

/-- The sessions that anything still holds. -/
def liveSessions (w : World) : List SessionArc :=
  (w.state.sessions.values ++ w.connections.filterMap Connection.session?).dedup

/-- Every `ModelHandle` that is alive. -/
def handles (w : World) : List ModelHandle :=
  w.liveSessions.map SessionArc.handle ++
    (w.connections.filterMap Connection.conversation? ++
      (w.lock.bind fun holder => holder.2.handle?).toList)

/-- `Arc::strong_count` of a session: the map's reference and the threads'. -/
def sessionCount (w : World) (session : SessionArc) : Nat :=
  w.state.sessions.values.countP (fun other => other.address == session.address) +
    (w.connections.filterMap Connection.session?).countP
      (fun other => other.address == session.address)

def held (w : World) : Held where
  handles := w.handles
  strongCount := w.sessionCount
  nextAddress := w.nextAddress

/-! ### Steps -/

def setConnection (w : World) (thread : Nat) (connection : Connection) : World :=
  { w with connections := w.connections.set thread connection }

/-- The rest of a section that began with `ensure_loaded`, and the unlock. A model
that was loaded is looked up again, which `expect` takes for granted. -/
def finish (w : World) (thread : Nat) (request : Request) (path : Path) (ok : Bool)
    (tokensGenerated : Option Nat) : Option World :=
  let w := { w with lock := none }
  match request with
  | .generate =>
    some (w.setConnection thread (.recording path (if ok then tokensGenerated else none)))
  | .embed => some (w.setConnection thread .closed)
  | .openConversation =>
    if ok then
      (w.state.sessions.lookup path).map fun session =>
        w.setConnection thread (.opening path session)
    else some (w.setConnection thread .closed)

/-- One step; `none` when it is not possible. -/
def step (w : World) : Event → Option World
  | .accept => some { w with connections := w.connections ++ [.accepted] }
  | .lock thread request path =>
    match w.lock, w.connections[thread]? with
    | none, some .accepted =>
      some { w with lock := some (thread, .ensuring request path .checking) }
    | _, _ => none
  | .ensure input =>
    match w.lock with
    | some (thread, .ensuring request path point) =>
      (w.state.ensureLoaded w.held path point input).map fun (state, point) =>
        { w with
          state
          lock := some (thread, .ensuring request path point)
          nextAddress := w.nextAddress + 1 }
    | _ => none
  | .release tokensGenerated =>
    match w.lock with
    | some (thread, .ensuring request path .loaded) =>
      w.finish thread request path true tokensGenerated
    | some (thread, .ensuring request path .failed) =>
      w.finish thread request path false tokensGenerated
    -- what is done under the lock returns here: a turn whose reply is parsed without end
    -- never takes this step, and keeps the lock
    | some (thread, .turn) =>
      match w.connections[thread]? with
      | some (.conversing path session conversation) =>
        some ({ w with lock := none }.setConnection thread
          (.recordingTurn path session conversation tokensGenerated))
      | _ => none
    | _ => none
  | .record thread now =>
    match w.lock, w.connections[thread]? with
    | none, some (.recording path tokensGenerated) =>
      some ({ w with state := w.state.recordOutcome path tokensGenerated now }.setConnection
        thread .closed)
    | none, some (.recordingTurn path session conversation tokensGenerated) =>
      some ({ w with state := w.state.recordOutcome path tokensGenerated now }.setConnection
        thread (.conversing path session conversation))
    | _, _ => none
  | .openConversation thread ok =>
    match w.connections[thread]? with
    | some (.opening path session) =>
      -- the conversation clones the session's handle
      some (w.setConnection thread
        (if ok then .conversing path session session.handle else .closing session))
    | _ => none
  | .turn thread =>
    match w.lock, w.connections[thread]? with
    | none, some (.conversing _ _ _) => some { w with lock := some (thread, .turn) }
    | _, _ => none
  | .snapshot thread ok =>
    match w.lock.map Prod.fst == some thread, w.connections[thread]? with
    | false, some (.conversing path session conversation) =>
      -- saved, the conversation is dropped before the reply
      some (w.setConnection thread
        (if ok then .closing session else .conversing path session conversation))
    | _, _ => none
  | .disconnect thread =>
    match w.lock.map Prod.fst == some thread, w.connections[thread]? with
    | false, some .accepted => some (w.setConnection thread .closed)
    -- the conversation is dropped before the session it borrows from
    | false, some (.conversing _ session _) => some (w.setConnection thread (.closing session))
    | _, _ => none
  | .drop thread =>
    match w.connections[thread]? with
    | some (.closing _) => some (w.setConnection thread .closed)
    | _ => none

def run (withinBudget : Nat → Nat → Bool) (events : List Event) : Option World :=
  events.foldlM step (start withinBudget)

end World

end Rampipe
