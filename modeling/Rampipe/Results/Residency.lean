import Rampipe.Lib.Loop
import Rampipe.Model.Daemon
import Rampipe.Results.Registry
import Mathlib.Data.List.Dedup

/-!
# Rampipe — sessions, mappings and the threads between them

What one step of the daemon can do, and the invariant that all of them keep: a
session in the map holds a good handle, for the path it is under; a session a
thread holds is in the map; and the handle in a conversation is that of the
session its thread holds (`Consistent`). Beside it stands what is known where
`ensure_loaded` is (`At`). That a session is held by nothing but the map is
checked in one step and used in the next ones: no other thread can come by a
session that only the map holds, because a thread clones it under the lock.

* `EnsureStep`, `ensureLoaded_cases` — the steps of `ensure_loaded`.
* `World.Step`, `World.step_cases`     — the steps of the threads.
* `World.reached_consistent`         — the invariant, in every state reached.
* `World.Consistent.holds`           — every live handle is good.
-/

namespace Rampipe

/-! ## The steps of `ensure_loaded` -/

/-- What a step of `ensure_loaded(path)` can do. -/
inductive EnsureStep (state : SharedState) (held : Held) (path : Path) :
    Point → Input → SharedState → Point → Prop
  | hit {fileSize : Nat} {mapping : Mapping} {handle : ModelHandle} {registry : SwapRegistry} :
      path ∈ state.sessions →
      state.registry.load path .lazy mapping = some (.ok handle, registry) →
      EnsureStep state held path .checking (.check fileSize mapping)
        { state with registry } (.making .makeDeviceRoomBesides)
  | hitFailed {fileSize : Nat} {mapping : Mapping} {error : LoadError} {registry : SwapRegistry} :
      path ∈ state.sessions →
      state.registry.load path .lazy mapping = some (.error error, registry) →
      EnsureStep state held path .checking (.check fileSize mapping) { state with registry } .failed
  | miss {fileSize : Nat} {mapping : Mapping} :
      path ∉ state.sessions →
      EnsureStep state held path .checking (.check fileSize mapping) state
        (.making (.makeRoomFor fileSize))
  | pick {loop : RoomLoop} {probes : Probes} {lruIds : List ModelId} {session : SessionArc}
      {evictPath : Path} :
      state.sessions.lookup evictPath = some session →
      held.strongCount session = 1 →
      (loop = .makeDeviceRoomBesides → evictPath ≠ path) →
      EnsureStep state held path (.making loop) (.probe probes lruIds) state
        (.picked loop session.id evictPath)
  | roomMade {newSizeBytes : Nat} {probes : Probes} {lruIds : List ModelId} :
      EnsureStep state held path (.making (.makeRoomFor newSizeBytes)) (.probe probes lruIds) state
        .opening
  | deviceRoomMade {probes : Probes} {lruIds : List ModelId} :
      EnsureStep state held path (.making .makeDeviceRoomBesides) (.probe probes lruIds) state
        .loaded
  | remove {loop : RoomLoop} {evictId : ModelId} {evictPath : Path} :
      EnsureStep state held path (.picked loop evictId evictPath) .remove (state.forget evictPath)
        (.removed loop evictId)
  | evict {loop : RoomLoop} {evictId : ModelId} {registry : SwapRegistry} :
      state.registry.evict held.handles evictId = (.ok (), registry) →
      EnsureStep state held path (.removed loop evictId) .evict { state with registry }
        (.making loop)
  | evictFailed {loop : RoomLoop} {evictId : ModelId} {error : EvictError}
      {registry : SwapRegistry} :
      state.registry.evict held.handles evictId = (.error error, registry) →
      EnsureStep state held path (.removed loop evictId) .evict { state with registry } .failed
  | map {mapping : Mapping} {handle : ModelHandle} {registry : SwapRegistry} :
      state.registry.load path .lazy mapping = some (.ok handle, registry) →
      EnsureStep state held path .opening (.load mapping) { state with registry } (.mapped handle)
  | mapFailed {mapping : Mapping} {error : LoadError} {registry : SwapRegistry} :
      state.registry.load path .lazy mapping = some (.error error, registry) →
      EnsureStep state held path .opening (.load mapping) { state with registry } .failed
  | resolve {handle : ModelHandle} :
      EnsureStep state held path (.mapped handle) (.resolveParams true) state (.fitted handle)
  | resolveFailed {handle : ModelHandle} :
      EnsureStep state held path (.mapped handle) (.resolveParams false) state .failed
  | insert {handle : ModelHandle} {gpuFreeBefore gpuFreeAfter : Option Nat} :
      EnsureStep state held path (.fitted handle) (.loadModel true gpuFreeBefore gpuFreeAfter)
        (state.insertSession path { address := held.nextAddress, handle } gpuFreeBefore
          gpuFreeAfter) .loaded
  | loadFailed {handle : ModelHandle} {gpuFreeBefore gpuFreeAfter : Option Nat} :
      EnsureStep state held path (.fitted handle) (.loadModel false gpuFreeBefore gpuFreeAfter)
        state .failed

namespace SharedState

variable {state : SharedState}

/-- What the search for something to evict finds. -/
theorem evictable_eq_some {strongCount : SessionArc → Nat} {accepts : Path → SessionArc → Bool}
    {lruIds : List ModelId} {evictId : ModelId} {evictPath : Path}
    (h : state.evictable strongCount accepts lruIds = some (evictId, evictPath)) :
    ∃ session, state.sessions.lookup evictPath = some session ∧ session.id = evictId ∧
      strongCount session = 1 ∧ accepts evictPath session = true := by
  obtain ⟨before, id, after, -, hFound, -⟩ := List.findSome?_eq_some_iff.mp h
  simp only [Option.bind_eq_bind, Option.bind_none, Option.ite_none_left_eq_some,
    Option.bind_eq_some_iff, Option.some.injEq, Prod.mk.injEq, not_not, Bool.not_eq_true',
    Bool.not_eq_false] at hFound
  obtain ⟨path, hPath, session, hSession, hCount, hAccepts, rfl, rfl⟩ := hFound
  refine ⟨session, hSession, ?_, hCount, hAccepts⟩
  -- the entry with this id is the one under its path
  obtain ⟨⟨path', session'⟩, hEntry, rfl⟩ := Option.map_eq_some_iff.mp hPath
  have hId := List.find?_some hEntry
  have hLookup : state.sessions.lookup path' = some session' :=
    AList.mem_lookup_iff.mpr (List.mem_of_find?_eq_some hEntry)
  rw [hLookup] at hSession
  cases hSession
  exact eq_of_beq hId

theorem ensureLoaded_cases {held : Held} {path : Path} {point point' : Point} {input : Input}
    {state' : SharedState}
    (h : state.ensureLoaded held path point input = some (state', point')) :
    EnsureStep state held path point input state' point' := by
  unfold ensureLoaded at h
  split at h
  · -- the look-up
    split_ifs at h with hMem
    · obtain ⟨⟨result, registry⟩, hLoad, hResult⟩ := Option.map_eq_some_iff.mp h
      match result, hResult with
      | .ok handle, hResult =>
        cases hResult
        exact .hit hMem hLoad
      | .error error, hResult =>
        cases hResult
        exact .hitFailed hMem hLoad
    · cases h
      exact .miss hMem
  · -- `make_room_for`, at the head of its loop
    split_ifs at h with hLru
    split at h
    · rename_i evictId evictPath hFound
      cases h
      unfold makeRoomFor at hFound
      dsimp only at hFound
      split_ifs at hFound
      obtain ⟨session, hSession, rfl, hCount, -⟩ := evictable_eq_some hFound
      exact .pick hSession hCount (by simp)
    · cases h
      exact .roomMade
  · -- `make_device_room_besides`, at the head of its loop
    split_ifs at h with hLru
    split at h
    · rename_i evictId evictPath hFound
      cases h
      unfold makeDeviceRoomBesides at hFound
      split at hFound
      · cases hFound
      · split_ifs at hFound
        obtain ⟨session, hSession, rfl, hCount, hAccepts⟩ := evictable_eq_some hFound
        refine .pick hSession hCount ?_
        intro _
        rw [Bool.and_eq_true] at hAccepts
        simpa using hAccepts.1
    · cases h
      exact .deviceRoomMade
  · cases h
    exact .remove
  · -- the eviction behind it
    split at h
    · cases h
      exact .evict (by assumption)
    · cases h
      exact .evictFailed (by assumption)
  · -- `LlamaSession::load`, from the mapping on
    obtain ⟨⟨result, registry⟩, hLoad, hResult⟩ := Option.map_eq_some_iff.mp h
    match result, hResult with
    | .ok handle, hResult =>
      cases hResult
      exact .map hLoad
    | .error error, hResult =>
      cases hResult
      exact .mapFailed hLoad
  · rename_i handle ok
    cases h
    match ok with
    | true => exact .resolve
    | false => exact .resolveFailed
  · rename_i handle ok gpuFreeBefore gpuFreeAfter
    match ok with
    | true =>
      cases h
      exact .insert
    | false =>
      cases h
      exact .loadFailed
  · cases h

end SharedState

/-! ## The steps of the threads -/

namespace World

/-- What a step of the daemon can do. -/
inductive Step (w : World) : Event → World → Prop
  | accept : Step w .accept { w with connections := w.connections ++ [.accepted] }
  | lock {thread : Nat} {request : Request} {path : Path} :
      w.lock = none →
      w.connections[thread]? = some .accepted →
      Step w (.lock thread request path)
        { w with lock := some (thread, .ensuring request path .checking) }
  | ensure {thread : Nat} {request : Request} {path : Path} {point point' : Point} {input : Input}
      {state : SharedState} :
      w.lock = some (thread, .ensuring request path point) →
      EnsureStep w.state w.held path point input state point' →
      Step w (.ensure input)
        { w with
          state
          lock := some (thread, .ensuring request path point')
          nextAddress := w.nextAddress + 1 }
  | generated {thread : Nat} {path : Path} {tokensGenerated : Option Nat} :
      w.lock = some (thread, .ensuring .generate path .loaded) →
      Step w (.release tokensGenerated)
        ({ w with lock := none }.setConnection thread (.recording path tokensGenerated))
  | generateFailed {thread : Nat} {path : Path} {tokensGenerated : Option Nat} :
      w.lock = some (thread, .ensuring .generate path .failed) →
      Step w (.release tokensGenerated)
        ({ w with lock := none }.setConnection thread (.recording path none))
  | cloned {thread : Nat} {path : Path} {session : SessionArc} {tokensGenerated : Option Nat} :
      w.lock = some (thread, .ensuring .openConversation path .loaded) →
      w.state.sessions.lookup path = some session →
      Step w (.release tokensGenerated)
        ({ w with lock := none }.setConnection thread (.opening path session))
  | dismissed {thread : Nat} {request : Request} {path : Path} {point : Point}
      {tokensGenerated : Option Nat} :
      w.lock = some (thread, .ensuring request path point) →
      point = .loaded ∧ request = .embed ∨ point = .failed ∧ request ≠ .generate →
      Step w (.release tokensGenerated) ({ w with lock := none }.setConnection thread .closed)
  | turnDone {thread : Nat} {path : Path} {session : SessionArc} {conversation : ModelHandle}
      {tokensGenerated : Option Nat} :
      w.lock = some (thread, .turn) →
      w.connections[thread]? = some (.conversing path session conversation) →
      Step w (.release tokensGenerated)
        ({ w with lock := none }.setConnection thread
          (.recordingTurn path session conversation tokensGenerated))
  | record {thread now : Nat} {path : Path} {tokensGenerated : Option Nat} :
      w.lock = none →
      w.connections[thread]? = some (.recording path tokensGenerated) →
      Step w (.record thread now)
        ({ w with state := w.state.recordOutcome path tokensGenerated now }.setConnection thread
          .closed)
  | recordTurn {thread now : Nat} {path : Path} {session : SessionArc} {conversation : ModelHandle}
      {tokensGenerated : Option Nat} :
      w.lock = none →
      w.connections[thread]? =
        some (.recordingTurn path session conversation tokensGenerated) →
      Step w (.record thread now)
        ({ w with state := w.state.recordOutcome path tokensGenerated now }.setConnection thread
          (.conversing path session conversation))
  | openConversation {thread : Nat} {path : Path} {session : SessionArc} :
      w.connections[thread]? = some (.opening path session) →
      Step w (.openConversation thread true)
        (w.setConnection thread (.conversing path session session.handle))
  | turn {thread : Nat} {path : Path} {session : SessionArc} {conversation : ModelHandle} :
      w.lock = none →
      w.connections[thread]? = some (.conversing path session conversation) →
      Step w (.turn thread) { w with lock := some (thread, .turn) }
  | snapshotFailed {thread : Nat} {path : Path} {session : SessionArc}
      {conversation : ModelHandle} :
      w.connections[thread]? = some (.conversing path session conversation) →
      Step w (.snapshot thread false)
        (w.setConnection thread (.conversing path session conversation))
  | close {thread : Nat} {event : Event} {connection : Connection} {session : SessionArc} :
      w.connections[thread]? = some connection →
      connection.session? = some session →
      Step w event (w.setConnection thread (.closing session))
  | leave {thread : Nat} {event : Event} {connection : Connection} :
      w.connections[thread]? = some connection →
      connection.conversation? = none →
      Step w event (w.setConnection thread .closed)

theorem finish_cases {w w' : World} {thread : Nat} {request : Request} {path : Path} {ok : Bool}
    {tokensGenerated : Option Nat}
    (hLock : w.lock =
      some (thread, .ensuring request path (if ok then .loaded else .failed)))
    (h : w.finish thread request path ok tokensGenerated = some w') :
    Step w (.release tokensGenerated) w' := by
  unfold World.finish at h
  dsimp only at h
  match request, ok, hLock, h with
  | .generate, true, hLock, h =>
    cases h
    exact .generated hLock
  | .generate, false, hLock, h =>
    cases h
    exact .generateFailed hLock
  | .embed, true, hLock, h =>
    cases h
    exact .dismissed hLock (Or.inl ⟨rfl, rfl⟩)
  | .embed, false, hLock, h =>
    cases h
    exact .dismissed hLock (Or.inr ⟨rfl, by simp⟩)
  | .openConversation, true, hLock, h =>
    obtain ⟨session, hSession, rfl⟩ := Option.map_eq_some_iff.mp h
    exact .cloned hLock hSession
  | .openConversation, false, hLock, h =>
    cases h
    exact .dismissed hLock (Or.inr ⟨rfl, by simp⟩)

theorem step_cases {w w' : World} {event : Event} (h : w.step event = some w') :
    Step w event w' := by
  unfold World.step at h
  split at h
  · cases h
    exact .accept
  · -- a request takes the lock
    split at h
    · rename_i hLock hConnection
      cases h
      exact .lock hLock hConnection
    · cases h
  · -- a step of the thread that is in `ensure_loaded`
    split at h
    · rename_i hLock
      obtain ⟨⟨state, point'⟩, hEnsure, rfl⟩ := Option.map_eq_some_iff.mp h
      exact .ensure hLock (SharedState.ensureLoaded_cases hEnsure)
    · cases h
  · -- the lock is let go of, behind `ensure_loaded` or behind a turn
    split at h
    · rename_i hLock
      exact finish_cases hLock h
    · rename_i hLock
      exact finish_cases hLock h
    · rename_i hLock
      split at h
      · rename_i hConnection
        cases h
        exact .turnDone hLock hConnection
      · cases h
    · cases h
  · -- `record_outcome`, which takes the lock anew
    split at h
    · rename_i hLock hConnection
      cases h
      exact .record hLock hConnection
    · rename_i hLock hConnection
      cases h
      exact .recordTurn hLock hConnection
    · cases h
  · -- a context for the conversation, or none
    rename_i thread ok
    split at h
    · rename_i path session hConnection
      match ok, h with
      | true, h =>
        cases h
        exact .openConversation hConnection
      | false, h =>
        cases h
        exact .close hConnection rfl
    · cases h
  · split at h
    · rename_i hLock hConnection
      cases h
      exact .turn hLock hConnection
    · cases h
  · -- a snapshot ends the conversation when it succeeds
    rename_i thread ok
    split at h
    · rename_i path session conversation _ hConnection
      match ok, h with
      | true, h =>
        cases h
        exact .close hConnection rfl
      | false, h =>
        cases h
        exact .snapshotFailed hConnection
    · cases h
  · split at h
    · rename_i hConnection
      cases h
      exact .leave hConnection rfl
    · rename_i hConnection
      cases h
      exact .close hConnection rfl
    · cases h
  · split at h
    · rename_i hConnection
      cases h
      exact .leave hConnection rfl
    · cases h

end World

/-! ## The invariant -/

/-- The sessions' map, the registry and the threads go together. -/
structure Consistent (state : SharedState) (connections : List Connection) : Prop where
  wellFormed : state.registry.WellFormed
  sessions : ∀ path session, state.sessions.lookup path = some session →
    state.registry.Holds session.handle ∧ session.handle.inner.path = path
  mapped : ∀ connection ∈ connections, ∀ session, connection.session? = some session →
    state.sessions.lookup session.handle.inner.path = some session
  borrowed : ∀ connection ∈ connections, ∀ conversation,
    connection.conversation? = some conversation →
      ∃ session, connection.session? = some session ∧ session.handle = conversation

/-- The session under this path is held by the map alone. -/
def Unused (state : SharedState) (connections : List Connection) (evictId : ModelId)
    (evictPath : Path) : Prop :=
  ∃ session, state.sessions.lookup evictPath = some session ∧ session.id = evictId ∧
    ∀ connection ∈ connections, connection.session? ≠ some session

/-- The mapping is resident, and no session is left that holds it. -/
def Orphaned (state : SharedState) (evictId : ModelId) : Prop :=
  evictId ∈ state.registry.state.resident ∧
    ∀ path session, state.sessions.lookup path = some session → session.id ≠ evictId

/-- A loop makes room for a model that is not loaded, or besides one that is. -/
def Serves (state : SharedState) (path : Path) : RoomLoop → Prop
  | .makeRoomFor _ => path ∉ state.sessions
  | .makeDeviceRoomBesides => path ∈ state.sessions

/-- What is known where `ensure_loaded(path)` is. -/
def At (state : SharedState) (connections : List Connection) (path : Path) : Point → Prop
  | .checking => True
  | .making loop => Serves state path loop
  | .picked loop evictId evictPath =>
    Serves state path loop ∧ (loop = .makeDeviceRoomBesides → evictPath ≠ path) ∧
      Unused state connections evictId evictPath
  | .removed loop evictId => Serves state path loop ∧ Orphaned state evictId
  | .opening => path ∉ state.sessions
  | .mapped handle =>
    path ∉ state.sessions ∧ state.registry.Holds handle ∧ handle.inner.path = path
  | .fitted handle =>
    path ∉ state.sessions ∧ state.registry.Holds handle ∧ handle.inner.path = path
  | .loaded => path ∈ state.sessions
  | .failed => True

namespace Consistent

variable {state : SharedState} {connections : List Connection}

/-- A registry that keeps every good handle good changes nothing for the sessions. -/
theorem of_registry (h : Consistent state connections) {registry : SwapRegistry}
    (hWellFormed : registry.WellFormed)
    (hKeep : ∀ path session, state.sessions.lookup path = some session →
      registry.Holds session.handle) :
    Consistent { state with registry } connections where
  wellFormed := hWellFormed
  sessions := by
    intro path session hSession
    exact ⟨hKeep path session hSession, (h.sessions path session hSession).2⟩
  mapped := h.mapped
  borrowed := h.borrowed

/-- The sessions' ids tell them apart. -/
theorem path_eq_of_id (h : Consistent state connections) {path path' : Path}
    {session session' : SessionArc} (hSession : state.sessions.lookup path = some session)
    (hSession' : state.sessions.lookup path' = some session') (hId : session.id = session'.id) :
    path = path' := by
  obtain ⟨hHolds, rfl⟩ := h.sessions path session hSession
  obtain ⟨hHolds', rfl⟩ := h.sessions path' session' hSession'
  have hInner : some session.handle.inner = some session'.handle.inner := by
    rw [← hHolds, ← hHolds']
    exact congrArg (fun id => state.registry.state.resident.lookup id) hId
  exact congrArg Resident.path (Option.some.inj hInner)

/-- Removing a session that only the map holds leaves no thread without its own, and
the mapping without a session. -/
theorem forget (h : Consistent state connections) {evictId : ModelId} {evictPath : Path}
    (hUnused : Unused state connections evictId evictPath) :
    Consistent (state.forget evictPath) connections ∧
      Orphaned (state.forget evictPath) evictId := by
  obtain ⟨session, hSession, rfl, hFree⟩ := hUnused
  refine ⟨⟨h.wellFormed, ?_, ?_, h.borrowed⟩, ?_, ?_⟩
  · intro path other hOther
    exact h.sessions path other (HashMap.lookup_erase_iff.mp hOther).2
  · intro connection hConnection other hOther
    have hMapped := h.mapped connection hConnection other hOther
    refine HashMap.lookup_erase_iff.mpr ⟨?_, hMapped⟩
    intro hEq
    rw [hEq, hSession] at hMapped
    cases hMapped
    exact hFree connection hConnection hOther
  · exact HashMap.mem_iff_exists_lookup.mpr ⟨_, (h.sessions evictPath session hSession).1⟩
  · intro path other hOther hId
    obtain ⟨hNe, hOther⟩ := HashMap.lookup_erase_iff.mp hOther
    exact hNe (h.path_eq_of_id hOther hSession hId)

theorem insertSession (h : Consistent state connections) {path : Path} (hPath : path ∉ state.sessions)
    {session : SessionArc} (hHolds : state.registry.Holds session.handle)
    (hFor : session.handle.inner.path = path) (gpuFreeBefore gpuFreeAfter : Option Nat) :
    Consistent (state.insertSession path session gpuFreeBefore gpuFreeAfter) connections := by
  -- recording the measurement changes no table
  obtain ⟨hWellFormed, hKeep⟩ :
      (state.insertSession path session gpuFreeBefore gpuFreeAfter).registry.WellFormed ∧
        ∀ handle, state.registry.Holds handle →
          (state.insertSession path session gpuFreeBefore gpuFreeAfter).registry.Holds handle := by
    unfold SharedState.insertSession
    dsimp only
    split
    · exact ⟨h.wellFormed.recordDeviceBytes _ _, fun handle hHandle => hHandle.recordDeviceBytes _ _⟩
    · exact ⟨h.wellFormed, fun handle hHandle => hHandle⟩
  refine ⟨hWellFormed, ?_, ?_, h.borrowed⟩
  · intro path' other hOther
    rcases HashMap.lookup_insert_iff.mp hOther with ⟨rfl, rfl⟩ | ⟨-, hOther⟩
    · exact ⟨hKeep _ hHolds, hFor⟩
    · obtain ⟨hGood, hAt⟩ := h.sessions path' other hOther
      exact ⟨hKeep _ hGood, hAt⟩
  · intro connection hConnection other hOther
    have hMapped := h.mapped connection hConnection other hOther
    refine HashMap.lookup_insert_iff.mpr (Or.inr ⟨?_, hMapped⟩)
    rintro rfl
    exact hPath (HashMap.mem_iff_exists_lookup.mpr ⟨other, hMapped⟩)

/-- One step of `ensure_loaded` keeps the invariant and what is known where it is.
In particular the eviction it attempts succeeds. -/
theorem ensureStep (h : Consistent state connections) {held : Held} {path : Path}
    {point point' : Point} {input : Input} {state' : SharedState}
    (hAt : At state connections path point)
    (hCount : ∀ session, held.strongCount session = 1 →
      (∃ path, state.sessions.lookup path = some session) →
        ∀ connection ∈ connections, connection.session? ≠ some session)
    (hEvict : ∀ loop evictId, point = .removed loop evictId →
      (state.registry.evict held.handles evictId).1 = .ok ())
    (hStep : EnsureStep state held path point input state' point') :
    Consistent state' connections ∧ At state' connections path point' := by
  cases hStep with
  | hit hMem hLoad =>
    obtain ⟨hWellFormed, -, -, hKeep⟩ := SwapRegistry.load_ok h.wellFormed hLoad
    refine ⟨h.of_registry hWellFormed ?_, hMem⟩
    intro path session hSession
    exact hKeep _ (h.sessions path session hSession).1
  | hitFailed hMem hLoad =>
    rw [SwapRegistry.load_error hLoad]
    exact ⟨h, trivial⟩
  | miss hMem => exact ⟨h, hMem⟩
  | pick hSession hCount1 hKeep =>
    exact ⟨h, hAt, hKeep, _, hSession, rfl, hCount _ hCount1 ⟨_, hSession⟩⟩
  | roomMade => exact ⟨h, hAt⟩
  | deviceRoomMade => exact ⟨h, hAt⟩
  | @remove loop evictId evictPath =>
    -- the session's handle goes with it, and no thread has another
    obtain ⟨hServes, hApart, hUnused⟩ := hAt
    obtain ⟨hConsistent, hOrphaned⟩ := h.forget hUnused
    refine ⟨hConsistent, ?_, hOrphaned⟩
    match loop, hServes, hApart with
    | .makeRoomFor _, hServes, _ =>
      intro hMem
      exact hServes (AList.mem_erase.mp hMem).2
    | .makeDeviceRoomBesides, hServes, hApart =>
      exact AList.mem_erase.mpr ⟨(hApart rfl).symm, hServes⟩
  | @evict loop evictId registry hOk =>
    obtain ⟨hServes, -, hOrphaned⟩ := hAt
    rcases state.registry.evict_cases held.handles evictId with ⟨hNe, -⟩ | ⟨inner, hId, hEq⟩
    · exact absurd (by rw [hOk]) hNe
    · rw [hOk] at hEq
      cases hEq
      refine ⟨h.of_registry (h.wellFormed.remove hId) ?_, ?_⟩
      · intro path session hSession
        exact (h.sessions path session hSession).1.remove (hOrphaned path session hSession) _
      · match loop, hServes with
        | .makeRoomFor _, hServes => exact hServes
        | .makeDeviceRoomBesides, hServes => exact hServes
  | @evictFailed loop evictId error registry hError =>
    have hOk := hEvict loop evictId rfl
    rw [hError] at hOk
    cases hOk
  | map hLoad =>
    obtain ⟨hWellFormed, hHolds, hFor, hKeep⟩ := SwapRegistry.load_ok h.wellFormed hLoad
    refine ⟨h.of_registry hWellFormed ?_, hAt, hHolds, hFor⟩
    intro path session hSession
    exact hKeep _ (h.sessions path session hSession).1
  | mapFailed hLoad =>
    rw [SwapRegistry.load_error hLoad]
    exact ⟨h, trivial⟩
  | resolve => exact ⟨h, hAt⟩
  | resolveFailed => exact ⟨h, trivial⟩
  | insert =>
    -- the handle in hand becomes the session's
    obtain ⟨hPath, hHolds, hFor⟩ := hAt
    refine ⟨h.insertSession hPath hHolds hFor _ _, ?_⟩
    exact (AList.mem_insert _).mpr (Or.inl rfl)
  | loadFailed => exact ⟨h, trivial⟩

/-- Threads that come and go, keep the session they have and let go of it, and
conversations opened from a session at hand. -/
theorem of_connections (h : Consistent state connections) {connections' : List Connection}
    (hSession : ∀ connection ∈ connections', ∀ session, connection.session? = some session →
      ∃ connection ∈ connections, connection.session? = some session)
    (hBorrowed : ∀ connection ∈ connections', ∀ conversation,
      connection.conversation? = some conversation →
        ∃ session, connection.session? = some session ∧ session.handle = conversation) :
    Consistent state connections' where
  wellFormed := h.wellFormed
  sessions := h.sessions
  mapped := by
    intro connection hConnection session hOwn
    obtain ⟨before, hBefore, hOwn⟩ := hSession connection hConnection session hOwn
    exact h.mapped before hBefore session hOwn
  borrowed := hBorrowed

end Consistent

/-- Neither the invariant nor what is known depends on the statistics. -/
theorem Consistent.congr {state state' : SharedState} {connections : List Connection}
    (h : Consistent state connections) (hRegistry : state'.registry = state.registry)
    (hSessions : state'.sessions = state.sessions) : Consistent state' connections where
  wellFormed := by
    rw [hRegistry]
    exact h.wellFormed
  sessions := by
    rw [hRegistry, hSessions]
    exact h.sessions
  mapped := by
    rw [hSessions]
    exact h.mapped
  borrowed := h.borrowed

/-- Fewer sessions held by threads, and the same is known. -/
theorem At.of_connections {state : SharedState} {connections connections' : List Connection}
    {path : Path} {point : Point} (h : At state connections path point)
    (hSession : ∀ connection ∈ connections', ∀ session, connection.session? = some session →
      ∃ connection ∈ connections, connection.session? = some session) :
    At state connections' path point := by
  match point, h with
  | .checking, _ => trivial
  | .making _, h => exact h
  | .picked _ _ _, ⟨hServes, hApart, session, hLookup, hId, hFree⟩ =>
    refine ⟨hServes, hApart, session, hLookup, hId, ?_⟩
    intro connection hConnection hOwn
    obtain ⟨before, hBefore, hOwn⟩ := hSession connection hConnection session hOwn
    exact hFree before hBefore hOwn
  | .removed _ _, h => exact h
  | .opening, h => exact h
  | .mapped _, h => exact h
  | .fitted _, h => exact h
  | .loaded, h => exact h
  | .failed, _ => trivial

/-! ## Every state reached -/

namespace World

/-- The invariant of the daemon and its threads. -/
structure Consistent (w : World) : Prop extends Rampipe.Consistent w.state w.connections where
  point : ∀ thread request path point, w.lock = some (thread, .ensuring request path point) →
    At w.state w.connections path point

variable {w w' : World}

theorem mem_liveSessions_iff {session : SessionArc} : session ∈ w.liveSessions ↔
    (∃ path, w.state.sessions.lookup path = some session) ∨
      ∃ connection ∈ w.connections, connection.session? = some session := by
  unfold liveSessions
  rw [List.mem_dedup, List.mem_append, HashMap.mem_values_iff, List.mem_filterMap]

/-- Every live handle is that of a session in the map, or of the load under way. -/
theorem Consistent.handle_cases (h : w.Consistent) {handle : ModelHandle}
    (hHandle : handle ∈ w.handles) :
    (∃ path session, w.state.sessions.lookup path = some session ∧ session.handle = handle) ∨
      ∃ holder, w.lock = some holder ∧ holder.2.handle? = some handle := by
  unfold handles at hHandle
  rcases List.mem_append.mp hHandle with hSession | hHandle
  · obtain ⟨session, hLive, rfl⟩ := List.mem_map.mp hSession
    rcases mem_liveSessions_iff.mp hLive with ⟨path, hPath⟩ | ⟨connection, hConnection, hOwn⟩
    · exact Or.inl ⟨path, session, hPath, rfl⟩
    · exact Or.inl ⟨_, session, h.mapped connection hConnection session hOwn, rfl⟩
  · rcases List.mem_append.mp hHandle with hConversation | hLock
    · obtain ⟨connection, hConnection, hOwn⟩ := List.mem_filterMap.mp hConversation
      obtain ⟨session, hSession, rfl⟩ := h.borrowed connection hConnection handle hOwn
      exact Or.inl ⟨_, session, h.mapped connection hConnection session hSession, rfl⟩
    · obtain ⟨holder, hHolder, hOwn⟩ := Option.bind_eq_some_iff.mp (Option.mem_toList.mp hLock)
      exact Or.inr ⟨holder, hHolder, hOwn⟩

/-- The load under way holds a good handle too. -/
theorem Consistent.holder_holds (h : w.Consistent) {holder : Nat × Critical}
    (hHolder : w.lock = some holder) {handle : ModelHandle}
    (hOwn : holder.2.handle? = some handle) : w.state.registry.Holds handle := by
  match holder, hHolder, hOwn with
  | (thread, .ensuring request path (.mapped _)), hHolder, hOwn =>
    cases hOwn
    exact (h.point _ _ _ _ hHolder).2.1
  | (thread, .ensuring request path (.fitted _)), hHolder, hOwn =>
    cases hOwn
    exact (h.point _ _ _ _ hHolder).2.1

/-- Every live handle's id is resident, and stands for the handle's mapping. -/
theorem Consistent.holds (h : w.Consistent) {handle : ModelHandle} (hHandle : handle ∈ w.handles) :
    w.state.registry.Holds handle := by
  rcases h.handle_cases hHandle with ⟨path, session, hSession, rfl⟩ | ⟨holder, hHolder, hOwn⟩
  · exact (h.sessions path session hSession).1
  · exact h.holder_holds hHolder hOwn

/-- Where a session was removed, the eviction that follows succeeds. -/
theorem Consistent.evict_ok (h : w.Consistent) {thread : Nat} {request : Request} {path : Path}
    {loop : RoomLoop} {evictId : ModelId}
    (hLock : w.lock = some (thread, .ensuring request path (.removed loop evictId))) :
    (w.state.registry.evict w.handles evictId).1 = .ok () := by
  obtain ⟨-, hResident, hNone⟩ := h.point _ _ _ _ hLock
  refine (SwapRegistry.evict_ok_iff h.wellFormed (fun _ => h.holds) evictId).mpr ⟨hResident, ?_⟩
  intro handle hHandle
  rcases h.handle_cases hHandle with ⟨path', session, hSession, rfl⟩ | ⟨holder, hHolder, hOwn⟩
  · exact hNone path' session hSession
  · -- there is no load under way
    rw [hLock] at hHolder
    cases hHolder
    cases hOwn

/-- A session counted once is held by no thread. -/
theorem not_held_of_sessionCount {session : SessionArc} (hCount : w.sessionCount session = 1)
    (hMap : ∃ path, w.state.sessions.lookup path = some session) :
    ∀ connection ∈ w.connections, connection.session? ≠ some session := by
  intro connection hConnection hOwn
  unfold sessionCount at hCount
  have hTable : 0 < w.state.sessions.values.countP fun other => other.address == session.address :=
    List.countP_pos_iff.mpr ⟨session, HashMap.mem_values_iff.mpr hMap, by simp⟩
  have hThread : 0 < (w.connections.filterMap Connection.session?).countP
      fun other => other.address == session.address :=
    List.countP_pos_iff.mpr ⟨session, List.mem_filterMap.mpr ⟨connection, hConnection, hOwn⟩,
      by simp⟩
  omega

theorem consistent_start (withinBudget : Nat → Nat → Bool) : (start withinBudget).Consistent where
  wellFormed := SwapRegistry.wellFormed_new
  sessions := by
    intro path session h
    cases h
  mapped := by simp [start]
  borrowed := by simp [start]
  point := by
    intro thread request path point h
    cases h

/-! ### Steps -/

/-- A thread that keeps the session it has, or lets go of it. -/
theorem Consistent.setConnection (h : w.Consistent) (thread : Nat) {connection : Connection}
    (hSession : ∀ session, connection.session? = some session →
      ∃ before ∈ w.connections, before.session? = some session)
    (hBorrowed : ∀ conversation, connection.conversation? = some conversation →
      ∃ session, connection.session? = some session ∧ session.handle = conversation) :
    (w.setConnection thread connection).Consistent := by
  have hSessions : ∀ other ∈ w.connections.set thread connection, ∀ session,
      other.session? = some session →
        ∃ before ∈ w.connections, before.session? = some session := by
    intro other hOther session hOwn
    rcases List.mem_or_eq_of_mem_set hOther with hOther | rfl
    · exact ⟨other, hOther, hOwn⟩
    · exact hSession session hOwn
  refine ⟨h.toConsistent.of_connections hSessions ?_, ?_⟩
  · intro other hOther conversation hOwn
    rcases List.mem_or_eq_of_mem_set hOther with hOther | rfl
    · exact h.borrowed other hOther conversation hOwn
    · exact hBorrowed conversation hOwn
  · intro holder request path point hLock
    exact (h.point holder request path point hLock).of_connections hSessions

/-- The lock is given back, or taken for a section that has not begun. -/
theorem Consistent.of_lock (h : w.Consistent) {lock : Option (Nat × Critical)}
    (hLock : ∀ thread request path point, lock = some (thread, .ensuring request path point) →
      point = .checking) : ({ w with lock } : World).Consistent := by
  refine ⟨h.toConsistent, ?_⟩
  intro thread request path point hEq
  rw [hLock thread request path point hEq]
  trivial

theorem Consistent.recordOutcome (h : w.Consistent) (path : Path) (tokensGenerated : Option Nat)
    (now : Nat) (hFree : w.lock = none) :
    ({ w with state := w.state.recordOutcome path tokensGenerated now } : World).Consistent := by
  refine ⟨h.toConsistent.congr ?_ ?_, ?_⟩
  · show (w.state.recordOutcome path tokensGenerated now).registry = w.state.registry
    unfold SharedState.recordOutcome
    split <;> rfl
  · show (w.state.recordOutcome path tokensGenerated now).sessions = w.state.sessions
    unfold SharedState.recordOutcome
    split <;> rfl
  · intro thread request path' point hLock
    rw [hFree] at hLock
    cases hLock

theorem Consistent.ensure (h : w.Consistent) {thread : Nat} {request : Request} {path : Path}
    {point point' : Point} {input : Input} {state : SharedState}
    (hLock : w.lock = some (thread, .ensuring request path point))
    (hStep : EnsureStep w.state w.held path point input state point') :
    ({ w with
      state
      lock := some (thread, .ensuring request path point')
      nextAddress := w.nextAddress + 1 } : World).Consistent := by
  have hEvict : ∀ loop evictId, point = .removed loop evictId →
      (w.state.registry.evict w.held.handles evictId).1 = .ok () := by
    rintro loop evictId rfl
    exact h.evict_ok hLock
  obtain ⟨hConsistent, hAt⟩ := h.toConsistent.ensureStep (h.point _ _ _ _ hLock)
    (fun session hCount hMap => not_held_of_sessionCount hCount hMap) hEvict hStep
  refine ⟨hConsistent, ?_⟩
  intro thread' request' path' point'' hEq
  cases hEq
  exact hAt

theorem Consistent.accept (h : w.Consistent) :
    ({ w with connections := w.connections ++ [.accepted] } : World).Consistent := by
  have hSessions : ∀ other ∈ w.connections ++ [.accepted], ∀ session,
      other.session? = some session →
        ∃ before ∈ w.connections, before.session? = some session := by
    intro other hOther session hOwn
    rcases List.mem_append.mp hOther with hOther | hNew
    · exact ⟨other, hOther, hOwn⟩
    · rw [List.mem_singleton.mp hNew] at hOwn
      cases hOwn
  refine ⟨h.toConsistent.of_connections hSessions ?_, ?_⟩
  · intro other hOther conversation hOwn
    rcases List.mem_append.mp hOther with hOther | hNew
    · exact h.borrowed other hOther conversation hOwn
    · rw [List.mem_singleton.mp hNew] at hOwn
      cases hOwn
  · intro thread request path point hLock
    exact (h.point thread request path point hLock).of_connections hSessions

/-- A session that is cloned under the lock is the map's, and nothing else is
known there. -/
theorem Consistent.cloned (h : w.Consistent) {thread : Nat} {path : Path} {session : SessionArc}
    (hSession : w.state.sessions.lookup path = some session) :
    (({ w with lock := none } : World).setConnection thread (.opening path session)).Consistent := by
  have hFor := (h.sessions path session hSession).2
  refine ⟨⟨h.wellFormed, h.sessions, ?_, ?_⟩, ?_⟩
  · intro other hOther session' hOwn
    rcases List.mem_or_eq_of_mem_set hOther with hOther | rfl
    · exact h.mapped other hOther session' hOwn
    · cases hOwn
      rw [hFor]
      exact hSession
  · intro other hOther conversation hOwn
    rcases List.mem_or_eq_of_mem_set hOther with hOther | rfl
    · exact h.borrowed other hOther conversation hOwn
    · cases hOwn
  · intro thread' request' path' point hEq
    cases hEq

/-- A thread that holds nothing. -/
theorem Consistent.empty (h : w.Consistent) (thread : Nat) {connection : Connection}
    (hSession : connection.session? = none) (hConversation : connection.conversation? = none) :
    (w.setConnection thread connection).Consistent := by
  refine h.setConnection thread ?_ ?_
  · intro session hOwn
    rw [hSession] at hOwn
    cases hOwn
  · intro conversation hOwn
    rw [hConversation] at hOwn
    cases hOwn

/-- A thread that holds what it held. -/
theorem Consistent.same (h : w.Consistent) {thread : Nat} {before connection : Connection}
    (hBefore : w.connections[thread]? = some before)
    (hSession : connection.session? = before.session?)
    (hConversation : connection.conversation? = before.conversation?) :
    (w.setConnection thread connection).Consistent := by
  have hMem := List.mem_of_getElem? hBefore
  refine h.setConnection thread ?_ ?_
  · intro session hOwn
    exact ⟨before, hMem, by rw [← hSession, hOwn]⟩
  · intro conversation hOwn
    rw [hSession]
    exact h.borrowed before hMem conversation (by rw [← hConversation, hOwn])

/-- Every step keeps the invariant. -/
theorem Consistent.step (h : w.Consistent) {event : Event} (hStep : Step w event w') :
    w'.Consistent := by
  have hFree : ({ w with lock := none } : World).Consistent := h.of_lock (by simp)
  cases hStep with
  | accept => exact h.accept
  | lock _ _ =>
    refine h.of_lock ?_
    intro thread request path point hEq
    cases hEq
    rfl
  | ensure hLock hEnsure => exact h.ensure hLock hEnsure
  | generated _ => exact hFree.empty _ rfl rfl
  | generateFailed _ => exact hFree.empty _ rfl rfl
  | cloned _ hSession => exact h.cloned hSession
  | dismissed _ _ => exact hFree.empty _ rfl rfl
  | turnDone _ hConnection => exact hFree.same hConnection rfl rfl
  | record hLock _ => exact (h.recordOutcome _ _ _ hLock).empty _ rfl rfl
  | recordTurn hLock hConnection => exact (h.recordOutcome _ _ _ hLock).same hConnection rfl rfl
  | openConversation hConnection =>
    refine h.setConnection _ ?_ ?_
    · intro session hOwn
      exact ⟨_, List.mem_of_getElem? hConnection, hOwn⟩
    · intro conversation hOwn
      cases hOwn
      exact ⟨_, rfl, rfl⟩
  | turn _ _ =>
    refine h.of_lock ?_
    intro thread request path point hEq
    cases hEq
  | snapshotFailed hConnection => exact h.same hConnection rfl rfl
  | close hConnection hSession =>
    -- the conversation goes, and the session's clone stays for now
    refine h.setConnection _ ?_ (by simp [Connection.conversation?])
    intro session hOwn
    cases hOwn
    exact ⟨_, List.mem_of_getElem? hConnection, hSession⟩
  | leave _ _ => exact h.empty _ rfl rfl

/-- Every state reached is consistent, in any interleaving of the threads. -/
theorem reached_consistent {withinBudget : Nat → Nat → Bool} {events : List Event}
    (hRun : run withinBudget events = some w) : w.Consistent :=
  foldlM_invariant World.Consistent (consistent_start withinBudget)
    (fun _ _ _ _ h hStep => h.step (step_cases hStep)) hRun

end World

end Rampipe
