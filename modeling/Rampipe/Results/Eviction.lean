import Rampipe.Results.Residency

/-!
# Rampipe — what eviction reaches, and what it spares

Two properties of the daemon that its comments rely on, in every interleaving of
its threads.

* `eviction_spares_conversations` — a session that is removed to make room has no
  conversation, the eviction of its mapping succeeds, and the model of an open
  conversation stays mapped.
* `resident_iff_session` — between requests the mappings are those of the
  sessions, so that eviction can reach all of them, as long as no load fails
  after its file was mapped. Such a load drops its handle and leaves the mapping
  in the registry, with no session to find it by (`Consistent.unowned`).
-/

namespace Rampipe

open World

/-! ## Eviction and conversations -/

/-- **Eviction never touches a model in use and never stops half-way.** Where a
session is about to be removed, no thread holds it and no conversation is on its
mapping; where it was removed, `registry.evict` succeeds and the loop goes on; and
in every state the mapping of an open conversation is resident. -/
theorem eviction_spares_conversations (withinBudget : Nat → Nat → Bool) (events : List World.Event)
    (w : World) (hRun : run withinBudget events = some w) :
    (∀ thread request path loop evictId evictPath,
      w.lock = some (thread, .ensuring request path (.picked loop evictId evictPath)) →
        ∀ connection ∈ w.connections,
          (∀ session, connection.session? = some session → session.id ≠ evictId) ∧
            ∀ conversation, connection.conversation? = some conversation →
              conversation.id ≠ evictId) ∧
    (∀ thread request path loop evictId,
      w.lock = some (thread, .ensuring request path (.removed loop evictId)) →
        (w.state.registry.evict w.handles evictId).1 = .ok () ∧
          ∃ w', w.step (.ensure .evict) = some w' ∧
            w'.lock = some (thread, .ensuring request path (.making loop))) ∧
    ∀ connection ∈ w.connections, ∀ conversation, connection.conversation? = some conversation →
      w.state.registry.state.resident.lookup conversation.id = some conversation.inner := by
  have h := reached_consistent hRun
  refine ⟨?_, ?_, ?_⟩
  · intro thread request path loop evictId evictPath hLock connection hConnection
    obtain ⟨-, -, session, hSession, rfl, hFree⟩ := h.point _ _ _ _ hLock
    -- a thread's session is in the map too, and the ids there tell them apart
    have hApart : ∀ other, connection.session? = some other → other.id ≠ session.id := by
      intro other hOwn hId
      have hMapped := h.mapped connection hConnection other hOwn
      have hPath := h.path_eq_of_id hMapped hSession hId
      rw [hPath, hSession] at hMapped
      cases hMapped
      exact hFree connection hConnection hOwn
    refine ⟨hApart, ?_⟩
    intro conversation hOwn
    obtain ⟨other, hOther, rfl⟩ := h.borrowed connection hConnection conversation hOwn
    exact hApart other hOther
  · intro thread request path loop evictId hLock
    have hOk := h.evict_ok hLock
    refine ⟨hOk, ?_⟩
    rcases w.state.registry.evict_cases w.handles evictId with ⟨hNe, -⟩ | ⟨inner, -, hEvict⟩
    · exact absurd hOk hNe
    · unfold World.step
      rw [hLock]
      simp only [SharedState.ensureLoaded, World.held, hEvict, Option.map_some]
      exact ⟨_, rfl, rfl⟩
  · intro connection hConnection conversation hOwn
    obtain ⟨session, hSession, rfl⟩ := h.borrowed connection hConnection conversation hOwn
    exact (h.sessions _ session (h.mapped connection hConnection session hSession)).1

/-- A model file with nothing behind its magic. -/
def tinyFile : Mapping := { file := some GGUF_MAGIC, prefaultLatency := 0, now := 1 }

/-- A request that loads a model: no room is needed, and nothing fails. -/
def loads (thread : Nat) (request : Request) (path : String) (lruIds : List ModelId) :
    List World.Event :=
  [.lock thread request path.toList, .ensure (.check 4 tinyFile),
    .ensure (.probe { systemFreeBytes := none, gpuMemoryBytes := none } lruIds),
    .ensure (.load tinyFile), .ensure (.resolveParams true), .ensure (.loadModel true none none),
    .release none]

/-- Three threads: one holds a conversation, one has had its answer, and the third
needs room for another model. -/
def pressed : List World.Event :=
  [.accept, .accept, .accept] ++ (loads 0 .openConversation "coder.gguf" [] ++
    (.openConversation 0 true :: (loads 1 .generate "writer.gguf" [⟨0⟩] ++
      [.lock 2 .generate "painter.gguf".toList, .ensure (.check 4 tinyFile),
        .ensure (.probe { systemFreeBytes := some 0, gpuMemoryBytes := none } [⟨0⟩, ⟨1⟩])])))

/-- The model with the conversation is passed over, and the other one is picked. -/
theorem pressed_spares_conversation :
    ∃ w, run (fun used available => decide (used ≤ available)) pressed = some w ∧
      w.lock = some (2, .ensuring .generate "painter.gguf".toList
        (.picked (.makeRoomFor 4) ⟨1⟩ "writer.gguf".toList)) ∧
      ∀ connection ∈ w.connections, ∀ conversation, connection.conversation? = some conversation →
        conversation.id ≠ ⟨1⟩ := by
  have hRun : (run (fun used available => decide (used ≤ available)) pressed).map World.lock =
      some (some (2, .ensuring .generate "painter.gguf".toList
        (.picked (.makeRoomFor 4) ⟨1⟩ "writer.gguf".toList))) := by
    decide
  obtain ⟨w, hw, hLock⟩ := Option.map_eq_some_iff.mp hRun
  refine ⟨w, hw, hLock, ?_⟩
  intro connection hConnection
  exact ((eviction_spares_conversations _ pressed w hw).1 _ _ _ _ _ _ hLock connection
    hConnection).2

/-! ## Mappings and sessions -/

/-- The step does not fail a load whose file is mapped. -/
def Input.KeepsMapping : Input → Prop
  | .resolveParams ok => ok = true
  | .loadModel ok _ _ => ok = true
  | _ => True

def World.Event.KeepsMapping : Event → Prop
  | .ensure input => input.KeepsMapping
  | _ => True

/-- Where `ensure_loaded` has a mapping in hand that no session holds: between the
removal of a session and the eviction, and between the mapping and the session. -/
def Point.Carries : Point → ModelId → Prop
  | .removed _ evictId, id => evictId = id
  | .mapped handle, id => handle.id = id
  | .fitted handle, id => handle.id = id
  | _, _ => False

/-- Every mapping is a session's, or in hand. -/
def Accounted (state : SharedState) (carried : ModelId → Prop) : Prop :=
  ∀ id ∈ state.registry.state.resident,
    (∃ path session, state.sessions.lookup path = some session ∧ session.id = id) ∨ carried id

/-- The mapping of a load under way is resident, and no session holds it: if the load
fails now, none ever finds it. -/
theorem Consistent.unowned {state : SharedState} {connections : List Connection}
    (h : Consistent state connections) {path : Path} {handle : ModelHandle}
    (hAt : At state connections path (.mapped handle)) :
    handle.id ∈ state.registry.state.resident ∧
      ∀ path' session, state.sessions.lookup path' = some session → session.id ≠ handle.id := by
  obtain ⟨hPath, hHolds, hFor⟩ := hAt
  refine ⟨HashMap.mem_iff_exists_lookup.mpr ⟨_, hHolds⟩, ?_⟩
  intro path' session hSession hId
  obtain ⟨hGood, hAt'⟩ := h.sessions path' session hSession
  have hInner : some session.handle.inner = some handle.inner := by
    rw [← hGood, ← hHolds]
    exact congrArg (fun id => state.registry.state.resident.lookup id) hId
  have hSame : path' = path := by
    rw [← hAt', ← hFor, Option.some.inj hInner]
  rw [hSame] at hSession
  exact hPath (HashMap.mem_iff_exists_lookup.mpr ⟨session, hSession⟩)

/-- A load adds nothing to the table but the mapping it hands out. -/
theorem SwapRegistry.load_resident {registry registry' : SwapRegistry} {path : Path}
    {residency : Residency} {mapping : Mapping} {handle : ModelHandle}
    (hLoad : registry.load path residency mapping = some (.ok handle, registry')) {id : ModelId}
    (hId : id ∈ registry'.state.resident) : id ∈ registry.state.resident ∨ id = handle.id := by
  rcases load_cases hLoad with ⟨id', inner, -, -, -, rfl⟩ | ⟨-, -, rfl⟩ |
    ⟨-, inner, -, -, hResult, rfl⟩
  · exact Or.inl hId
  · exact Or.inl hId
  · cases hResult
    rcases (AList.mem_insert _).mp hId with rfl | hId
    · exact Or.inr rfl
    · exact Or.inl hId

namespace Accounted

variable {state : SharedState} {connections : List Connection} {carried : ModelId → Prop}

/-- A load adds what it hands out, and nothing else. -/
theorem load (h : Accounted state carried) {path : Path} {mapping : Mapping}
    {handle : ModelHandle} {registry : SwapRegistry}
    (hLoad : state.registry.load path .lazy mapping = some (.ok handle, registry)) :
    Accounted { state with registry } fun id => carried id ∨ handle.id = id := by
  intro id hId
  rcases SwapRegistry.load_resident hLoad hId with hId | rfl
  · rcases h id hId with hSession | hCarried
    · exact Or.inl hSession
    · exact Or.inr (Or.inl hCarried)
  · exact Or.inr (Or.inr rfl)

/-- The load of a path that has a session hands out that session's mapping. -/
theorem load_hit (hConsistent : Consistent state connections) {path : Path}
    (hMem : path ∈ state.sessions) {mapping : Mapping} {handle : ModelHandle}
    {registry : SwapRegistry}
    (hLoad : state.registry.load path .lazy mapping = some (.ok handle, registry)) :
    ∃ session, state.sessions.lookup path = some session ∧ session.id = handle.id := by
  obtain ⟨session, hSession⟩ := HashMap.mem_iff_exists_lookup.mp hMem
  obtain ⟨hGood, hFor⟩ := hConsistent.sessions path session hSession
  obtain ⟨hWellFormed, hHolds, hPath, hKeep⟩ := SwapRegistry.load_ok hConsistent.wellFormed hLoad
  refine ⟨session, hSession, ?_⟩
  exact hWellFormed.indexed.row_unique (hKeep _ hGood) hHolds (hFor.trans hPath.symm)

/-- A session that is removed leaves its mapping in hand. -/
theorem forget (h : Accounted state fun _ => False) {evictId : ModelId} {evictPath : Path}
    (hUnused : Unused state connections evictId evictPath) :
    Accounted (state.forget evictPath) (evictId = ·) := by
  obtain ⟨evicted, hEvicted, hEvictId, -⟩ := hUnused
  intro id hId
  rcases h id hId with ⟨path, session, hSession, rfl⟩ | hCarried
  · by_cases hEq : path = evictPath
    · rw [hEq, hEvicted] at hSession
      cases hSession
      exact Or.inr hEvictId.symm
    · exact Or.inl ⟨path, session, HashMap.lookup_erase_iff.mpr ⟨hEq, hSession⟩, rfl⟩
  · exact hCarried.elim

/-- The mapping in hand is the one that eviction takes out. -/
theorem evict {evictId : ModelId} (h : Accounted state (evictId = ·))
    {handles : List ModelHandle} {registry : SwapRegistry}
    (hOk : state.registry.evict handles evictId = (.ok (), registry)) :
    Accounted { state with registry } fun _ => False := by
  rcases state.registry.evict_cases handles evictId with ⟨hNe, -⟩ | ⟨inner, -, hEq⟩
  · exact absurd (by rw [hOk]) hNe
  · rw [hOk] at hEq
    cases hEq
    intro id hId
    obtain ⟨hNe, hId⟩ := AList.mem_erase.mp hId
    rcases h id hId with hSession | hCarried
    · exact Or.inl hSession
    · exact absurd hCarried.symm hNe

/-- The mapping in hand is the new session's. -/
theorem insertSession {path : Path} (hPath : path ∉ state.sessions) {session : SessionArc}
    (h : Accounted state (session.id = ·)) (gpuFreeBefore gpuFreeAfter : Option Nat) :
    Accounted (state.insertSession path session gpuFreeBefore gpuFreeAfter) fun _ => False := by
  intro id hId
  have hResident : id ∈ state.registry.state.resident := by
    unfold SharedState.insertSession at hId
    dsimp only at hId
    split at hId
    · rwa [SwapRegistry.resident_recordDeviceBytes] at hId
    · exact hId
  left
  rcases h id hResident with ⟨path', other, hOther, rfl⟩ | rfl
  · refine ⟨path', other, HashMap.lookup_insert_iff.mpr (Or.inr ⟨?_, hOther⟩), rfl⟩
    rintro rfl
    exact hPath (HashMap.mem_iff_exists_lookup.mpr ⟨other, hOther⟩)
  · exact ⟨path, session, AList.lookup_insert _, rfl⟩

/-- Every step of `ensure_loaded` that fails no mapped load keeps the account. -/
theorem ensureStep {state' : SharedState} {held : Held} {path : Path} {point point' : Point}
    {input : Input} (h : Accounted state point.Carries) (hConsistent : Consistent state connections)
    (hAt : At state connections path point) (hKeeps : input.KeepsMapping)
    (hEvict : ∀ loop evictId, point = .removed loop evictId →
      (state.registry.evict held.handles evictId).1 = .ok ())
    (hStep : EnsureStep state held path point input state' point') :
    Accounted state' point'.Carries := by
  cases hStep with
  | hit hMem hLoad =>
    -- what is mapped already has its session
    intro id hId
    rcases h.load hLoad id hId with hSession | hCarried | rfl
    · exact Or.inl hSession
    · exact hCarried.elim
    · obtain ⟨session, hSession, hId⟩ := load_hit hConsistent hMem hLoad
      exact Or.inl ⟨path, session, hSession, hId⟩
  | hitFailed _ hLoad =>
    rw [SwapRegistry.load_error hLoad]
    exact h
  | miss _ => exact h
  | pick _ _ _ => exact h
  | roomMade => exact h
  | deviceRoomMade => exact h
  | remove => exact forget h hAt.2.2
  | evict hOk => exact evict h hOk
  | @evictFailed loop evictId error registry hError =>
    have hOk := hEvict loop evictId rfl
    rw [hError] at hOk
    cases hOk
  | map hLoad =>
    -- the new mapping is in hand until the session is inserted
    intro id hId
    rcases h.load hLoad id hId with hSession | hCarried | rfl
    · exact Or.inl hSession
    · exact hCarried.elim
    · exact Or.inr rfl
  | mapFailed hLoad =>
    rw [SwapRegistry.load_error hLoad]
    exact h
  | resolve => exact h
  -- the handle is dropped and the mapping stays: the steps that are excluded
  | resolveFailed => cases hKeeps
  | @insert handle _ _ =>
    have hInHand : Accounted state (SessionArc.id ⟨held.nextAddress, handle⟩ = ·) := h
    exact insertSession hAt.1 hInHand _ _
  | loadFailed => cases hKeeps

end Accounted

/-! ### Every state reached -/

namespace World

/-- What the lock's holder has in hand. -/
def Carried (w : World) (id : ModelId) : Prop :=
  ∃ thread request path point,
    w.lock = some (thread, .ensuring request path point) ∧ point.Carries id

variable {w w' : World}

theorem not_carried_of_point {thread : Nat} {request : Request} {path : Path} {point : Point}
    (hLock : w.lock = some (thread, .ensuring request path point))
    (hPoint : ∀ id, ¬ point.Carries id) : ∀ id, ¬ w.Carried id := by
  rintro id ⟨_, _, _, _, hEq, hCarries⟩
  rw [hLock] at hEq
  cases hEq
  exact hPoint id hCarries

theorem not_carried_of_free (hLock : w.lock = none) : ∀ id, ¬ w.Carried id := by
  rintro id ⟨_, _, _, _, hEq, -⟩
  rw [hLock] at hEq
  cases hEq

theorem not_carried_of_turn {thread : Nat} (hLock : w.lock = some (thread, .turn)) :
    ∀ id, ¬ w.Carried id := by
  rintro id ⟨_, _, _, _, hEq, -⟩
  rw [hLock] at hEq
  cases hEq

/-- With nothing in hand, every mapping is a session's, and stays one's. -/
theorem accounted_of_not_carried (h : Accounted w.state w.Carried)
    (hNone : ∀ id, ¬ w.Carried id) (hState : w'.state = w.state) :
    Accounted w'.state w'.Carried := by
  rw [hState]
  intro id hId
  rcases h id hId with hSession | hCarried
  · exact Or.inl hSession
  · exact absurd hCarried (hNone id)

theorem accounted_record {carried : ModelId → Prop} (h : Accounted w.state carried) (path : Path)
    (tokensGenerated : Option Nat) (now : Nat) :
    Accounted (w.state.recordOutcome path tokensGenerated now) carried := by
  unfold SharedState.recordOutcome
  split
  · exact h
  · exact h

theorem accounted_ensure (h : w.Consistent) (hAccounted : Accounted w.state w.Carried)
    {thread : Nat} {request : Request} {path : Path} {point point' : Point} {input : Input}
    {state : SharedState} (hLock : w.lock = some (thread, .ensuring request path point))
    (hKeeps : input.KeepsMapping)
    (hStep : EnsureStep w.state w.held path point input state point') :
    Accounted state point'.Carries := by
  have hPoint : Accounted w.state point.Carries := by
    intro id hId
    rcases hAccounted id hId with hSession | ⟨_, _, _, _, hEq, hCarries⟩
    · exact Or.inl hSession
    · rw [hLock] at hEq
      cases hEq
      exact Or.inr hCarries
  refine hPoint.ensureStep h.toConsistent (h.point _ _ _ _ hLock) hKeeps ?_ hStep
  rintro loop evictId rfl
  exact h.evict_ok hLock

/-- Every step that fails no mapped load keeps the account. -/
theorem accounted_step (h : w.Consistent) (hAccounted : Accounted w.state w.Carried)
    {event : World.Event} (hKeeps : event.KeepsMapping) (hStep : Step w event w') :
    Accounted w'.state w'.Carried := by
  cases hStep with
  | accept => exact hAccounted
  | lock hLock _ => exact accounted_of_not_carried hAccounted (not_carried_of_free hLock) rfl
  | ensure hLock hEnsure =>
    intro id hId
    rcases accounted_ensure h hAccounted hLock hKeeps hEnsure id hId with hSession | hCarries
    · exact Or.inl hSession
    · exact Or.inr ⟨_, _, _, _, rfl, hCarries⟩
  | generated hLock =>
    exact accounted_of_not_carried hAccounted (not_carried_of_point hLock fun _ => not_false) rfl
  | generateFailed hLock =>
    exact accounted_of_not_carried hAccounted (not_carried_of_point hLock fun _ => not_false) rfl
  | cloned hLock _ =>
    exact accounted_of_not_carried hAccounted (not_carried_of_point hLock fun _ => not_false) rfl
  | dismissed hLock hPoint =>
    refine accounted_of_not_carried hAccounted (not_carried_of_point hLock ?_) rfl
    rcases hPoint with ⟨rfl, -⟩ | ⟨rfl, -⟩
    · exact fun _ => not_false
    · exact fun _ => not_false
  | turnDone hLock _ => exact accounted_of_not_carried hAccounted (not_carried_of_turn hLock) rfl
  | record _ _ => exact accounted_record hAccounted _ _ _
  | recordTurn _ _ => exact accounted_record hAccounted _ _ _
  | openConversation _ => exact hAccounted
  | turn hLock _ => exact accounted_of_not_carried hAccounted (not_carried_of_free hLock) rfl
  | snapshotFailed _ => exact hAccounted
  | close _ _ => exact hAccounted
  | leave _ _ => exact hAccounted

theorem reached_accounted {withinBudget : Nat → Nat → Bool} {events : List World.Event}
    (hKeeps : ∀ event ∈ events, event.KeepsMapping) (hRun : run withinBudget events = some w) :
    Accounted w.state w.Carried := by
  have hBoth : w.Consistent ∧ Accounted w.state w.Carried := by
    refine foldlM_invariant (fun w => w.Consistent ∧ Accounted w.state w.Carried) ?_ ?_ hRun
    · refine ⟨consistent_start withinBudget, ?_⟩
      intro id hId
      cases hId
    · intro t event t' hEvent ht hNext
      have hStep := step_cases hNext
      exact ⟨ht.1.step hStep, accounted_step ht.1 ht.2 (hKeeps event hEvent) hStep⟩
  exact hBoth.2

end World

/-- **Every mapping can be reached.** In every run in which no load fails after its
file was mapped, whatever else fails, the ids resident between requests are those
of the sessions, and `path_for_id` finds each of them. -/
theorem resident_iff_session (withinBudget : Nat → Nat → Bool) (events : List World.Event) (w : World)
    (hKeeps : ∀ event ∈ events, event.KeepsMapping) (hRun : run withinBudget events = some w)
    (hFree : w.lock = none) :
    (∀ id, id ∈ w.state.registry.state.resident ↔
      ∃ path session, w.state.sessions.lookup path = some session ∧ session.id = id) ∧
    ∀ id ∈ w.state.registry.state.resident, ∃ path, w.state.pathForId id = some path := by
  have h := reached_consistent hRun
  have hOwned : ∀ id ∈ w.state.registry.state.resident,
      ∃ path session, w.state.sessions.lookup path = some session ∧ session.id = id := by
    intro id hId
    rcases reached_accounted hKeeps hRun id hId with hSession | hCarried
    · exact hSession
    · exact absurd hCarried (not_carried_of_free hFree id)
  refine ⟨?_, ?_⟩
  · intro id
    refine ⟨hOwned id, ?_⟩
    rintro ⟨path, session, hSession, rfl⟩
    exact HashMap.mem_iff_exists_lookup.mpr ⟨_, (h.sessions path session hSession).1⟩
  · intro id hId
    obtain ⟨path, session, hSession, hId'⟩ := hOwned id hId
    have hSome : (w.state.sessions.entries.find? fun entry => entry.2.id == id).isSome := by
      rw [List.find?_isSome]
      exact ⟨⟨path, session⟩, AList.mem_lookup_iff.mp hSession, by simpa using hId'⟩
    obtain ⟨entry, hEntry⟩ := Option.isSome_iff_exists.mp hSome
    exact ⟨entry.1, by rw [SharedState.pathForId, hEntry]; rfl⟩

/-- Two models are loaded, one after the other. -/
theorem loaded_resident_iff_session :
    ∃ w, run (fun _ _ => true) ([.accept, .accept] ++ (loads 0 .generate "coder.gguf" [] ++
        loads 1 .embed "writer.gguf" [⟨0⟩])) = some w ∧
      ((∀ id, id ∈ w.state.registry.state.resident ↔
        ∃ path session, w.state.sessions.lookup path = some session ∧ session.id = id) ∧
      ∀ id ∈ w.state.registry.state.resident, ∃ path, w.state.pathForId id = some path) := by
  have hRun : (run (fun _ _ => true) ([.accept, .accept] ++ (loads 0 .generate "coder.gguf" [] ++
      loads 1 .embed "writer.gguf" [⟨0⟩]))).map World.lock = some none := by
    decide
  obtain ⟨w, hw, hLock⟩ := Option.map_eq_some_iff.mp hRun
  refine ⟨w, hw, resident_iff_session _ _ w ?_ hw hLock⟩
  simp [loads, World.Event.KeepsMapping, Input.KeepsMapping]

/-- The file is mapped, and llama.cpp does not load it. -/
def failedLoad : List World.Event :=
  [.accept, .lock 0 .generate "coder.gguf".toList, .ensure (.check 4 tinyFile),
    .ensure (.probe { systemFreeBytes := none, gpuMemoryBytes := none } []),
    .ensure (.load tinyFile), .ensure (.resolveParams true), .ensure (.loadModel false none none),
    .release none, .record 0 0]

/-- The request is over, its file stays mapped, and no session leads to it. -/
theorem failedLoad_leaks :
    ∃ w, run (fun _ _ => true) failedLoad = some w ∧ w.lock = none ∧
      (⟨0⟩ : ModelId) ∈ w.state.registry.state.resident ∧ w.state.registry.mappedBytes = 4 ∧
      w.state.pathForId ⟨0⟩ = none ∧
      ¬ ∃ path session, w.state.sessions.lookup path = some session ∧ session.id = ⟨0⟩ := by
  have hRun : (run (fun _ _ => true) failedLoad).map (fun w =>
      (w.lock.isNone, w.state.registry.state.resident.keys, w.state.sessions.keys)) =
        some (true, [⟨0⟩], []) := by
    decide
  have hBytes : (run (fun _ _ => true) failedLoad).map (fun w =>
      (w.state.registry.mappedBytes, w.state.pathForId ⟨0⟩)) = some (4, none) := by
    decide
  obtain ⟨w, hw, hAll⟩ := Option.map_eq_some_iff.mp hRun
  rw [hw, Option.map_some, Option.some.injEq] at hBytes
  simp only [Prod.mk.injEq, Option.isNone_iff_eq_none] at hAll hBytes
  obtain ⟨hFree, hResident, hSessions⟩ := hAll
  refine ⟨w, hw, hFree, ?_, hBytes.1, hBytes.2, ?_⟩
  · rw [AList.mem_keys, hResident]
    exact List.mem_singleton.mpr rfl
  · rintro ⟨path, session, hSession, -⟩
    have hMem : path ∈ w.state.sessions.keys := HashMap.mem_iff_exists_lookup.mpr ⟨session, hSession⟩
    rw [hSessions] at hMem
    cases hMem

end Rampipe
