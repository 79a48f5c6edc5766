import Rampipe.Results.Eviction
import Rampipe.Results.Recency

/-!
# Rampipe — making room

`make_room_for` and `make_device_room_besides` evict one model after another, with the
memory measured anew before each and other threads running beside them. What holds from
any state of the daemon where one of the loops is entered, whatever the probes read:

* `LeastRecentlyUsed`     — what is picked, and at which moment.
* `World.RoomStep`        — what a step of the loop does: pick, remove, evict, or return.
* `World.LoopRun.counted` — each turn costs a session.
* `makes_room`            — the loop evicts no more models than there are sessions, and
  returns when its checks pass or nothing is left that it may evict.
-/

namespace Rampipe

/-! ## Allocations -/

namespace World

/-- No two sessions of the map are one allocation, and the next one is free. -/
structure Addressed (w : World) : Prop where
  below : ∀ path session, w.state.sessions.lookup path = some session →
    session.address < w.nextAddress
  apart : ∀ path path' session session', w.state.sessions.lookup path = some session →
    w.state.sessions.lookup path' = some session' → session.address = session'.address →
      path = path'

variable {w w' : World}

/-- Fewer sessions, or the same. -/
theorem Addressed.of_sessions (h : w.Addressed)
    (hOld : ∀ path session, w'.state.sessions.lookup path = some session →
      w.state.sessions.lookup path = some session)
    (hNext : w.nextAddress ≤ w'.nextAddress) : w'.Addressed where
  below path session hSession := Nat.lt_of_lt_of_le (h.below path session (hOld path session hSession)) hNext
  apart path path' session session' hSession hSession' :=
    h.apart path path' session session' (hOld path session hSession) (hOld path' session' hSession')

end World

/-- `ensure_loaded` puts one session into the map, in the next allocation. -/
theorem EnsureStep.sessions {state state' : SharedState} {held : Held} {path : Path}
    {point point' : Point} {input : Input} (h : EnsureStep state held path point input state' point')
    {path' : Path} {session : SessionArc} (hSession : state'.sessions.lookup path' = some session) :
    state.sessions.lookup path' = some session ∨ path' = path ∧ session.address = held.nextAddress := by
  cases h with
  | remove => exact .inl (HashMap.lookup_erase_iff.mp hSession).2
  | insert =>
    rcases HashMap.lookup_insert_iff.mp hSession with ⟨hPath, rfl⟩ | ⟨-, hOld⟩
    · exact .inr ⟨hPath, rfl⟩
    · exact .inl hOld
  | hit _ _ | hitFailed _ _ | miss _ | pick _ _ _ | roomMade | deviceRoomMade | evict _ | evictFailed _ | map _
  | mapFailed _ | resolve | resolveFailed | loadFailed => exact .inl hSession

namespace SharedState

/-- Recording an outcome leaves the sessions alone. -/
theorem recordOutcome_sessions (state : SharedState) (path : Path) (tokensGenerated : Option Nat)
    (now : Nat) : (state.recordOutcome path tokensGenerated now).sessions = state.sessions := by
  unfold recordOutcome
  split <;> rfl

end SharedState

namespace World

variable {w w' : World}

/-- No step gives two sessions one address. -/
theorem Addressed.step (h : w.Addressed) {event : Event} (hStep : Step w event w') : w'.Addressed := by
  cases hStep with
  | ensure _ hEnsure =>
    -- the one step that may allocate
    refine ⟨?_, ?_⟩
    · intro path session hSession
      rcases hEnsure.sessions hSession with hOld | ⟨-, hNew⟩
      · exact Nat.lt_succ_of_lt (h.below path session hOld)
      · rw [hNew]
        exact Nat.lt_succ_self _
    · intro path path' session session' hSession hSession' hSame
      rcases hEnsure.sessions hSession with hOld | ⟨hPath, hNew⟩
      · rcases hEnsure.sessions hSession' with hOld' | ⟨-, hNew'⟩
        · exact h.apart path path' session session' hOld hOld' hSame
        · have hBelow := h.below path session hOld
          rw [hSame, hNew'] at hBelow
          exact absurd hBelow (Nat.lt_irrefl _)
      · rcases hEnsure.sessions hSession' with hOld' | ⟨hPath', -⟩
        · have hBelow := h.below path' session' hOld'
          rw [← hSame, hNew] at hBelow
          exact absurd hBelow (Nat.lt_irrefl _)
        · rw [hPath, hPath']
  | record _ _ | recordTurn _ _ =>
    refine h.of_sessions (fun path session hSession => ?_) (Nat.le_refl _)
    show w.state.sessions.lookup path = some session
    rw [← SharedState.recordOutcome_sessions]
    exact hSession
  | accept | lock _ _ | generated _ | generateFailed _ | cloned _ _ | dismissed _ _ | turnDone _ _
  | openConversation _ | turn _ _ | snapshotFailed _ | close _ _ | leave _ _ =>
    exact h.of_sessions (fun _ _ hSession => hSession) (Nat.le_refl _)

/-- So in every state reached an address is one session's. -/
theorem reached_addressed {withinBudget : Nat → Nat → Bool} {events : List Event}
    (hRun : run withinBudget events = some w) : w.Addressed := by
  refine foldlM_invariant World.Addressed ⟨?_, ?_⟩ (fun _ _ _ _ h hStep => h.step (step_cases hStep)) hRun
  · intro path session hSession
    cases hSession
  · intro path path' session session' hSession
    cases hSession

/-- A thread has a clone of this session: it opens, has or had a conversation with it. -/
def InUse (w : World) (session : SessionArc) : Prop :=
  ∃ connection ∈ w.connections, connection.session? = some session

/-- The reference count tells whether a session is in use. -/
theorem sessionCount_eq_one_iff (h : w.Consistent) (hAddressed : w.Addressed) {path : Path}
    {session : SessionArc} (hSession : w.state.sessions.lookup path = some session) :
    w.sessionCount session = 1 ↔ ¬ w.InUse session := by
  constructor
  · rintro hCount ⟨connection, hConnection, hOwn⟩
    exact not_held_of_sessionCount hCount ⟨path, hSession⟩ connection hConnection hOwn
  · intro hFree
    have hTable : w.state.sessions.values.countP (fun other => other.address == session.address) = 1 := by
      refine Nat.le_antisymm (HashMap.countP_values_le_one ?_) (List.countP_pos_iff.mpr ?_)
      · intro path1 path2 session1 session2 h1 h2 hSame1 hSame2
        refine hAddressed.apart path1 path2 session1 session2 h1 h2 ?_
        rw [eq_of_beq hSame1, eq_of_beq hSame2]
      · exact ⟨session, HashMap.mem_values_iff.mpr ⟨path, hSession⟩, by simp⟩
    have hThreads : (w.connections.filterMap Connection.session?).countP
        (fun other => other.address == session.address) = 0 := by
      rw [List.countP_eq_zero]
      intro other hOther hSame
      obtain ⟨connection, hConnection, hOwn⟩ := List.mem_filterMap.mp hOther
      -- a thread's session is in the map as well, where allocations tell sessions apart
      have hMapped := h.mapped connection hConnection other hOwn
      have hPath := hAddressed.apart _ _ other session hMapped hSession (eq_of_beq hSame)
      rw [hPath, hSession] at hMapped
      cases hMapped
      exact hFree ⟨connection, hConnection, hOwn⟩
    unfold sessionCount
    rw [hTable, hThreads]

end World

/-! ## What a loop picks -/

namespace SharedState

def hostFits (state : SharedState) (newSizeBytes : Nat) (probes : Probes) : Bool :=
  match state.registry.fitsWithinBudget probes.systemFreeBytes state.withinBudget newSizeBytes with
  | none => true
  | some fits => fits

def deviceFits (state : SharedState) (newDeviceBytes : Nat) (probes : Probes) : Bool :=
  match probes.gpuMemoryBytes with
  | some (free, _) => state.registry.fitsWithinDeviceBudget newDeviceBytes free state.withinBudget
  | none => true

end SharedState

namespace RoomLoop

/-- The checks on which a loop returns. -/
def fits (loop : RoomLoop) (state : SharedState) (probes : Probes) : Bool :=
  match loop with
  | .makeRoomFor newSizeBytes =>
    state.hostFits newSizeBytes probes && state.deviceFits newSizeBytes probes
  | .makeDeviceRoomBesides => state.deviceFits 0 probes

/-- Giving this session up is of use to the loop: it has device memory where only that is
short, and it is not the one that is kept. -/
def Helps (loop : RoomLoop) (state : SharedState) (keep : Path) (probes : Probes)
    (evictPath : Path) (session : SessionArc) : Prop :=
  match loop with
  | .makeRoomFor newSizeBytes =>
    state.hostFits newSizeBytes probes = true → state.deviceFits newSizeBytes probes = false →
      (state.deviceBytes session).isSome
  | .makeDeviceRoomBesides => evictPath ≠ keep ∧ (state.deviceBytes session).isSome

/-- The loop's filter, as the code has it. -/
def accepts (loop : RoomLoop) (state : SharedState) (keep : Path) (probes : Probes)
    (evictPath : Path) (session : SessionArc) : Bool :=
  match loop with
  | .makeRoomFor newSizeBytes =>
    !(state.hostFits newSizeBytes probes && !state.deviceFits newSizeBytes probes &&
      (state.deviceBytes session).isNone)
  | .makeDeviceRoomBesides => evictPath != keep && (state.deviceBytes session).isSome

/-- The loop accepts a model whose eviction helps it. -/
theorem accepts_iff {loop : RoomLoop} {state : SharedState} {keep : Path} {probes : Probes}
    {evictPath : Path} {session : SessionArc} :
    loop.accepts state keep probes evictPath session = true ↔
      loop.Helps state keep probes evictPath session := by
  unfold accepts Helps
  match loop with
  | .makeRoomFor newSizeBytes =>
    dsimp only
    rcases state.hostFits newSizeBytes probes with _ | _ <;>
      rcases state.deviceFits newSizeBytes probes with _ | _ <;>
        rcases state.deviceBytes session with _ | _ <;> simp
  | .makeDeviceRoomBesides => simp

/-- One turn of the loop: what it evicts, or nothing when it returns. -/
def search (loop : RoomLoop) (state : SharedState) (strongCount : SessionArc → Nat) (keep : Path)
    (probes : Probes) (lruIds : List ModelId) : Option (ModelId × Path) :=
  match loop with
  | .makeRoomFor newSizeBytes => state.makeRoomFor strongCount newSizeBytes probes lruIds
  | .makeDeviceRoomBesides => state.makeDeviceRoomBesides strongCount keep probes lruIds

/-- A loop that has room looks for nothing, and otherwise for what may be evicted. -/
theorem search_eq (loop : RoomLoop) (state : SharedState) (strongCount : SessionArc → Nat)
    (keep : Path) (probes : Probes) (lruIds : List ModelId) :
    loop.search state strongCount keep probes lruIds =
      if loop.fits state probes then none
      else state.evictable strongCount (loop.accepts state keep probes) lruIds := by
  match loop with
  | .makeRoomFor newSizeBytes => rfl
  | .makeDeviceRoomBesides =>
    show state.makeDeviceRoomBesides strongCount keep probes lruIds = _
    unfold SharedState.makeDeviceRoomBesides fits SharedState.deviceFits
    dsimp only
    rcases probes.gpuMemoryBytes with _ | ⟨free, total⟩
    · rfl
    · rfl

/-- Where `ensure_loaded` goes on when the loop has returned `Ok`. -/
def returned : RoomLoop → Point
  | .makeRoomFor _ => .opening
  | .makeDeviceRoomBesides => .loaded

end RoomLoop

namespace SharedState

variable {state : SharedState}

/-- What the search makes of one id. -/
def offer (state : SharedState) (strongCount : SessionArc → Nat)
    (accepts : Path → SessionArc → Bool) (id : ModelId) : Option (ModelId × Path) := do
  let evictPath ← state.pathForId id
  let session ← state.sessions.lookup evictPath
  if strongCount session ≠ 1 then none
  if !accepts evictPath session then none
  some (id, evictPath)

/-- What may be evicted is the first of the ids that is offered. -/
theorem evictable_eq (strongCount : SessionArc → Nat) (accepts : Path → SessionArc → Bool)
    (lruIds : List ModelId) :
    state.evictable strongCount accepts lruIds = lruIds.findSome? (state.offer strongCount accepts) :=
  rfl

/-- A session is found by its id. -/
theorem pathForId_eq {connections : List Connection} (h : Consistent state connections)
    {path : Path} {session : SessionArc} (hSession : state.sessions.lookup path = some session) :
    state.pathForId session.id = some path := by
  unfold pathForId
  have hFound : (state.sessions.entries.find? fun entry => entry.2.id == session.id).isSome := by
    rw [List.find?_isSome]
    exact ⟨⟨path, session⟩, AList.mem_lookup_iff.mp hSession, by simp⟩
  obtain ⟨⟨path', session'⟩, hEntry⟩ := Option.isSome_iff_exists.mp hFound
  have hSession' : state.sessions.lookup path' = some session' :=
    AList.mem_lookup_iff.mpr (List.mem_of_find?_eq_some hEntry)
  have hId := List.find?_some hEntry
  rw [hEntry]
  exact congrArg some (h.path_eq_of_id hSession' hSession (eq_of_beq hId))

/-- An id is offered as itself. -/
theorem offer_id {strongCount : SessionArc → Nat} {accepts : Path → SessionArc → Bool}
    {id evictId : ModelId} {evictPath : Path}
    (h : state.offer strongCount accepts id = some (evictId, evictPath)) : id = evictId := by
  unfold offer at h
  simp only [Option.bind_eq_bind, Option.bind_none, Option.ite_none_left_eq_some,
    Option.bind_eq_some_iff, Option.some.injEq, Prod.mk.injEq] at h
  obtain ⟨-, -, -, -, -, -, hId, -⟩ := h
  exact hId

/-- A session that nothing else holds and the loop accepts is offered. -/
theorem offer_eq {connections : List Connection} (h : Consistent state connections)
    {strongCount : SessionArc → Nat} {accepts : Path → SessionArc → Bool} {path : Path}
    {session : SessionArc} (hSession : state.sessions.lookup path = some session)
    (hCount : strongCount session = 1) (hAccepts : accepts path session = true) :
    state.offer strongCount accepts session.id = some (session.id, path) := by
  unfold offer
  rw [pathForId_eq h hSession]
  simp [hSession, hCount, hAccepts]

end SharedState

namespace World

/-- The loop may evict this session. -/
def Eligible (w : World) (loop : RoomLoop) (keep : Path) (probes : Probes) (evictPath : Path)
    (session : SessionArc) : Prop :=
  w.state.sessions.lookup evictPath = some session ∧ ¬ w.InUse session ∧
    loop.Helps w.state keep probes evictPath session

/-- When the model was last handed out. -/
def lastUse (w : World) (id : ModelId) : Instant :=
  (w.state.registry.state.lastAccessed.lookup id).getD 0

/-- Room is short, and of the sessions the loop may evict this one was used longest ago. -/
structure LeastRecentlyUsed (w : World) (loop : RoomLoop) (keep : Path) (probes : Probes)
    (evictPath : Path) (session : SessionArc) : Prop where
  short : loop.fits w.state probes = false
  eligible : w.Eligible loop keep probes evictPath session
  oldest : ∀ path' session', w.Eligible loop keep probes path' session' →
    w.lastUse session.id ≤ w.lastUse session'.id

variable {w w' : World}

/-- A model that nobody uses and that helps is offered. -/
theorem Eligible.offered (h : w.Consistent) (hAddressed : w.Addressed) {loop : RoomLoop}
    {keep : Path} {probes : Probes} {path : Path} {session : SessionArc}
    (hEligible : w.Eligible loop keep probes path session) :
    w.state.offer w.sessionCount (loop.accepts w.state keep probes) session.id =
      some (session.id, path) :=
  SharedState.offer_eq h.toConsistent hEligible.1
    ((sessionCount_eq_one_iff h hAddressed hEligible.1).mpr hEligible.2.1)
    (RoomLoop.accepts_iff.mpr hEligible.2.2)

/-- Every session's id is among those the search goes through. -/
theorem Consistent.mem_lruIds (h : w.Consistent) {lruIds : List ModelId}
    (hLru : w.state.registry.IsLru lruIds) {path : Path} {session : SessionArc}
    (hSession : w.state.sessions.lookup path = some session) : session.id ∈ lruIds := by
  have hHolds := (h.sessions path session hSession).1
  rw [hLru.1.mem_iff]
  exact (h.wellFormed.accessed session.id).mpr (HashMap.mem_iff_exists_lookup.mpr ⟨_, hHolds⟩)

/-- What a turn of the loop picks was used longest ago among all it may evict. -/
theorem search_some (h : w.Consistent) (hAddressed : w.Addressed) {loop : RoomLoop} {keep : Path}
    {probes : Probes} {lruIds : List ModelId} (hLru : w.state.registry.IsLru lruIds)
    {evictId : ModelId} {evictPath : Path}
    (hFound : loop.search w.state w.sessionCount keep probes lruIds = some (evictId, evictPath)) :
    ∃ session, session.id = evictId ∧ w.LeastRecentlyUsed loop keep probes evictPath session := by
  rw [loop.search_eq] at hFound
  obtain ⟨hShort, hFound⟩ := Option.ite_none_left_eq_some.mp hFound
  obtain ⟨session, hSession, hId, hCount, hAccepts⟩ := SharedState.evictable_eq_some hFound
  refine ⟨session, hId, by simpa using hShort, ⟨hSession, ?_, RoomLoop.accepts_iff.mp hAccepts⟩, ?_⟩
  · exact (sessionCount_eq_one_iff h hAddressed hSession).mp hCount
  · intro path' session' hEligible
    have hOffered := hEligible.offered h hAddressed
    have hMem := h.mem_lruIds hLru hEligible.1
    rw [SharedState.evictable_eq] at hFound
    obtain ⟨before, id, behind, rfl, hHere, hBefore⟩ := List.findSome?_eq_some_iff.mp hFound
    have hHead := SharedState.offer_id hHere
    -- the others are behind it, and the order goes by the last use
    rcases List.mem_append.mp hMem with hMem | hMem
    · rw [hBefore _ hMem] at hOffered
      cases hOffered
    · rcases List.mem_cons.mp hMem with hSame | hMem
      · rw [hId, ← hHead, hSame]
      · have hOrder := (List.pairwise_cons.mp (List.pairwise_append.mp hLru.2).2.1).1 _ hMem
        rw [hId, ← hHead]
        exact hOrder

/-- Where nothing is picked the checks pass, or there is nothing the loop may evict. -/
theorem search_none (h : w.Consistent) (hAddressed : w.Addressed) {loop : RoomLoop} {keep : Path}
    {probes : Probes} {lruIds : List ModelId} (hLru : w.state.registry.IsLru lruIds)
    (hNone : loop.search w.state w.sessionCount keep probes lruIds = none) :
    loop.fits w.state probes = true ∨
      ∀ path session, ¬ w.Eligible loop keep probes path session := by
  rw [loop.search_eq] at hNone
  by_cases hFits : loop.fits w.state probes = true
  · exact .inl hFits
  · rw [if_neg hFits, SharedState.evictable_eq, List.findSome?_eq_none_iff] at hNone
    refine .inr ?_
    intro path session hEligible
    have hOffered := hEligible.offered h hAddressed
    rw [hNone _ (h.mem_lruIds hLru hEligible.1)] at hOffered
    cases hOffered

end World

/-! ## A step of a loop -/

namespace SharedState

/-- One turn of a loop, with what the probes read. -/
theorem ensureLoaded_making (state : SharedState) (held : Held) (path : Path) (loop : RoomLoop)
    (probes : Probes) (lruIds : List ModelId) :
    state.ensureLoaded held path (.making loop) (.probe probes lruIds) =
      if ¬ state.registry.IsLru lruIds then none
      else
        match loop.search state held.strongCount path probes lruIds with
        | some (evictId, evictPath) => some (state, .picked loop evictId evictPath)
        | none => some (state, loop.returned) := by
  match loop with
  | .makeRoomFor _ => rfl
  | .makeDeviceRoomBesides => rfl

end SharedState

/-- `ensure_loaded` is in the loop. -/
def Point.Inside (loop : RoomLoop) : Point → Prop
  | .making loop' => loop' = loop
  | .picked loop' _ _ => loop' = loop
  | .removed loop' _ => loop' = loop
  | _ => False

/-- How far it is in a turn of the loop. -/
def Point.stage : Point → Nat
  | .picked _ _ _ => 1
  | .removed _ _ => 2
  | _ => 0

namespace World

/-- What a step of the loop does. The eviction succeeds, and the loop returns only when its
checks pass or there is nothing it may evict. -/
inductive RoomStep (w : World) (loop : RoomLoop) (keep : Path) :
    Point → Input → SharedState → Point → Prop
  | pick {probes : Probes} {lruIds : List ModelId} {evictPath : Path} {session : SessionArc} :
      w.LeastRecentlyUsed loop keep probes evictPath session →
      RoomStep w loop keep (.making loop) (.probe probes lruIds) w.state
        (.picked loop session.id evictPath)
  | remove {evictPath : Path} {session : SessionArc} :
      w.state.sessions.lookup evictPath = some session →
      ¬ w.InUse session →
      RoomStep w loop keep (.picked loop session.id evictPath) .remove (w.state.forget evictPath)
        (.removed loop session.id)
  | evict {evictId : ModelId} {registry : SwapRegistry} :
      w.state.registry.evict w.handles evictId = (.ok (), registry) →
      RoomStep w loop keep (.removed loop evictId) .evict { w.state with registry } (.making loop)
  | return {probes : Probes} {lruIds : List ModelId} :
      loop.fits w.state probes = true ∨
        (∀ evictPath session, ¬ w.Eligible loop keep probes evictPath session) →
      RoomStep w loop keep (.making loop) (.probe probes lruIds) w.state loop.returned

variable {w w' : World} {thread : Nat} {request : Request} {path : Path} {loop : RoomLoop}
  {point : Point}

/-- A step of `ensure_loaded` is its holder's. -/
theorem step_ensure (hLock : w.lock = some (thread, .ensuring request path point))
    (input : Input) : w.step (.ensure input) =
      (w.state.ensureLoaded w.held path point input).map fun (state, point) =>
        { w with
          state
          lock := some (thread, .ensuring request path point)
          nextAddress := w.nextAddress + 1 } := by
  unfold World.step
  rw [hLock]

/-- What one step of the loop does. -/
theorem roomStep (h : w.Consistent) (hAddressed : w.Addressed)
    (hLock : w.lock = some (thread, .ensuring request path point)) (hInside : point.Inside loop)
    {input : Input} (hStep : w.step (.ensure input) = some w') :
    ∃ point', w'.lock = some (thread, .ensuring request path point') ∧
      w.RoomStep loop path point input w'.state point' := by
  rw [step_ensure hLock] at hStep
  obtain ⟨⟨state, point'⟩, hEnsure, rfl⟩ := Option.map_eq_some_iff.mp hStep
  refine ⟨point', rfl, ?_⟩
  match point, hInside with
  | .making _, rfl =>
    match input with
    | .probe probes lruIds =>
      -- the head of the loop: measure, and search the ids from the oldest on
      rw [SharedState.ensureLoaded_making] at hEnsure
      split_ifs at hEnsure with hLru
      rcases hFound : loop.search w.state w.sessionCount path probes lruIds with _ | ⟨evictId, evictPath⟩
      · rw [show w.held.strongCount = w.sessionCount from rfl, hFound] at hEnsure
        cases hEnsure
        exact .return (search_none h hAddressed hLru hFound)
      · rw [show w.held.strongCount = w.sessionCount from rfl, hFound] at hEnsure
        cases hEnsure
        obtain ⟨session, rfl, hOldest⟩ := search_some h hAddressed hLru hFound
        exact .pick hOldest
    | .check _ _ | .remove | .evict | .load _ | .resolveParams _ | .loadModel _ _ _ =>
      match loop with
      | .makeRoomFor _ => cases hEnsure
      | .makeDeviceRoomBesides => cases hEnsure
  | .picked _ evictId evictPath, rfl =>
    -- between the search and here nobody can have cloned the session: the lock is held
    obtain ⟨-, -, session, hSession, rfl, hFree⟩ := h.point _ _ _ _ hLock
    match input with
    | .remove =>
      cases hEnsure
      exact .remove hSession fun ⟨connection, hConnection, hOwn⟩ => hFree connection hConnection hOwn
    | .check _ _ | .probe _ _ | .evict | .load _ | .resolveParams _ | .loadModel _ _ _ => cases hEnsure
  | .removed _ evictId, rfl =>
    -- the session is gone, and with it the last handle
    have hOk := h.evict_ok hLock
    match input with
    | .evict =>
      unfold SharedState.ensureLoaded at hEnsure
      dsimp only at hEnsure
      split at hEnsure
      · rename_i hEvict
        cases hEnsure
        exact .evict hEvict
      · rename_i hEvict
        rw [show w.handles = w.held.handles from rfl, hEvict] at hOk
        cases hOk
    | .check _ _ | .probe _ _ | .remove | .load _ | .resolveParams _ | .loadModel _ _ _ => cases hEnsure

/-- The loop goes on, or it has returned. -/
theorem RoomStep.inside_or_returned {keep : Path} {input : Input} {state : SharedState}
    {point' : Point} (h : w.RoomStep loop keep point input state point') :
    point'.Inside loop ∨ point' = loop.returned := by
  cases h with
  | pick _ | remove _ _ | evict _ => exact .inl rfl
  | «return» _ => exact .inr rfl

/-- A loop never waits for anything: whatever the probes read, there is a step. -/
theorem room_goes_on (h : w.Consistent) (hLock : w.lock = some (thread, .ensuring request path point))
    (hInside : point.Inside loop) (probes : Probes) :
    ∃ input w', w.step (.ensure input) = some w' ∧
      ((∃ lruIds, input = .probe probes lruIds) ∨ input = .remove ∨ input = .evict) := by
  match point, hInside with
  | .making _, rfl =>
    refine ⟨.probe probes w.state.registry.residentIdsByLru, ?_⟩
    rw [step_ensure hLock, SharedState.ensureLoaded_making,
      if_neg (not_not.mpr w.state.registry.residentIdsByLru_isLru)]
    rcases loop.search w.state w.held.strongCount path probes w.state.registry.residentIdsByLru with
      _ | ⟨evictId, evictPath⟩
    · exact ⟨_, rfl, .inl ⟨_, rfl⟩⟩
    · exact ⟨_, rfl, .inl ⟨_, rfl⟩⟩
  | .picked _ evictId evictPath, rfl =>
    refine ⟨.remove, ?_⟩
    rw [step_ensure hLock]
    exact ⟨_, rfl, .inr (.inl rfl)⟩
  | .removed _ evictId, rfl =>
    refine ⟨.evict, ?_⟩
    rw [step_ensure hLock]
    rcases w.state.registry.evict_cases w.handles evictId with ⟨hNe, -⟩ | ⟨inner, -, hEvict⟩
    · exact absurd (h.evict_ok hLock) hNe
    · simp only [SharedState.ensureLoaded, World.held, hEvict, Option.map_some]
      exact ⟨_, rfl, .inr (.inr trivial)⟩

/-- The other threads leave the state and the lock alone for as long as the loop goes on. -/
theorem others_step (hLock : w.lock = some (thread, .ensuring request path point))
    (hInside : point.Inside loop) {event : Event} (hStep : Step w event w')
    (hOther : ∀ input, event ≠ .ensure input) : w'.state = w.state ∧ w'.lock = w.lock := by
  cases hStep with
  | ensure _ _ => exact absurd rfl (hOther _)
  | accept | openConversation _ | snapshotFailed _ | close _ _ | leave _ _ => exact ⟨rfl, rfl⟩
  | lock hFree _ | record hFree _ | recordTurn hFree _ | turn hFree _ =>
    -- these take the lock
    rw [hLock] at hFree
    cases hFree
  | generated hHere | generateFailed hHere | cloned hHere _ =>
    -- these hold it, behind `ensure_loaded`
    rw [hLock] at hHere
    cases hHere
    cases hInside
  | turnDone hHere _ =>
    rw [hLock] at hHere
    cases hHere
  | dismissed hHere hPoint =>
    rw [hLock] at hHere
    cases hHere
    rcases hPoint with ⟨rfl, -⟩ | ⟨rfl, -⟩
    · cases hInside
    · cases hInside

/-! ## A run of a loop -/

/-- The steps of all threads from where a loop is entered, while it goes on. -/
inductive LoopRun (thread : Nat) (request : Request) (path : Path) (loop : RoomLoop) (w : World) :
    List Event → World → Prop
  | entered : w.lock = some (thread, .ensuring request path (.making loop)) →
      LoopRun thread request path loop w [] w
  | next {events : List Event} {w1 w2 : World} {event : Event} {point : Point} :
      LoopRun thread request path loop w events w1 →
      w1.step event = some w2 →
      w2.lock = some (thread, .ensuring request path point) →
      point.Inside loop →
      LoopRun thread request path loop w (events ++ [event]) w2

end World

def World.Event.isEnsure : Event → Bool
  | .ensure _ => true
  | _ => false

def World.Event.isEvict : Event → Bool
  | .ensure .evict => true
  | _ => false

namespace World

variable {w w' : World} {thread : Nat} {request : Request} {path : Path} {loop : RoomLoop}
  {point : Point}

/-- In the course of the run the probes read something on which this session was the one
to evict. -/
def Picked (thread : Nat) (request : Request) (path : Path) (loop : RoomLoop) (w : World)
    (events : List Event) (evictPath : Path) (session : SessionArc) : Prop :=
  ∃ before probes lruIds w1, LoopRun thread request path loop w before w1 ∧
    before ++ [.ensure (.probe probes lruIds)] <+: events ∧
      w1.LeastRecentlyUsed loop path probes evictPath session

/-- What was picked stays picked. -/
theorem Picked.mono {events : List Event} {evictPath : Path} {session : SessionArc}
    (h : Picked thread request path loop w events evictPath session) (event : Event) :
    Picked thread request path loop w (events ++ [event]) evictPath session := by
  obtain ⟨before, probes, lruIds, w1, hRun, hPrefix, hOldest⟩ := h
  exact ⟨before, probes, lruIds, w1, hRun, hPrefix.trans (List.prefix_append _ _), hOldest⟩

/-- The run so far: every turn of the loop took three steps and cost a session, and what
is gone was picked. -/
structure Account (thread : Nat) (request : Request) (path : Path) (loop : RoomLoop) (w : World)
    (events : List Event) (w' : World) (point : Point) : Prop where
  steps : events.countP Event.isEnsure = 3 * events.countP Event.isEvict + point.stage
  sessions : events.countP Event.isEvict + w'.state.sessions.keys.length + point.stage / 2 =
    w.state.sessions.keys.length
  kept : ∀ evictPath session, w'.state.sessions.lookup evictPath = some session →
    w.state.sessions.lookup evictPath = some session
  gone : ∀ evictPath session, w.state.sessions.lookup evictPath = some session →
    w'.state.sessions.lookup evictPath ≠ some session →
      Picked thread request path loop w events evictPath session
  picked : ∀ evictId evictPath, point = .picked loop evictId evictPath →
    ∃ session, session.id = evictId ∧ w'.state.sessions.lookup evictPath = some session ∧
      Picked thread request path loop w events evictPath session
  removed : ∀ evictId, point = .removed loop evictId →
    ∃ evictPath session, session.id = evictId ∧
      w.state.sessions.lookup evictPath = some session ∧
        w'.state.sessions.lookup evictPath ≠ some session
  unmapped : ∀ id, id ∈ w.state.registry.state.resident → id ∉ w'.state.registry.state.resident →
    ∃ evictPath session, session.id = id ∧ w.state.sessions.lookup evictPath = some session ∧
      w'.state.sessions.lookup evictPath ≠ some session

/-- A step that leaves the state where it is, and is not the eviction. -/
theorem Account.same {events : List Event} {event : Event} {w1 w2 : World} {point point' : Point}
    (h : Account thread request path loop w events w1 point) (hState : w2.state = w1.state)
    (hEvict : event.isEvict = false)
    (hStage : point'.stage = point.stage + if event.isEnsure then 1 else 0)
    (hHalf : point'.stage / 2 = point.stage / 2)
    (hPicked : ∀ evictId evictPath, point' = .picked loop evictId evictPath →
      ∃ session, session.id = evictId ∧ w2.state.sessions.lookup evictPath = some session ∧
        Picked thread request path loop w (events ++ [event]) evictPath session)
    (hRemoved : ∀ evictId, point' = .removed loop evictId → point = .removed loop evictId) :
    Account thread request path loop w (events ++ [event]) w2 point' := by
  have hSteps := h.steps
  have hSessions := h.sessions
  refine ⟨?_, ?_, ?_, ?_, hPicked, ?_, ?_⟩
  · simp only [List.countP_append, List.countP_singleton, hEvict, hStage]
    rcases event.isEnsure with _ | _ <;> simp <;> omega
  · simp only [List.countP_append, List.countP_singleton, hEvict, hHalf, hState]
    simpa using hSessions
  · rw [hState]
    exact h.kept
  · rw [hState]
    intro evictPath session hSession hGone
    exact (h.gone evictPath session hSession hGone).mono event
  · rw [hState]
    intro evictId hPoint
    exact h.removed evictId (hRemoved evictId hPoint)
  · rw [hState]
    exact h.unmapped

/-- The picked session leaves the map. -/
theorem Account.remove {events : List Event} {w1 w2 : World} {evictPath : Path}
    {session : SessionArc}
    (h : Account thread request path loop w events w1 (.picked loop session.id evictPath))
    (hSession : w1.state.sessions.lookup evictPath = some session)
    (hState : w2.state = w1.state.forget evictPath) :
    Account thread request path loop w (events ++ [.ensure .remove]) w2
      (.removed loop session.id) := by
  have hSteps := h.steps
  have hSessions := h.sessions
  refine ⟨?_, ?_, ?_, ?_, ?_, ?_, ?_⟩
  · simp only [List.countP_append, List.countP_singleton, Point.stage] at hSteps ⊢
    simp only [Event.isEnsure, Event.isEvict, if_true, if_false, Bool.false_eq_true]
    omega
  · -- one session fewer, for the eviction that is to come
    have hLength : w2.state.sessions.keys.length + 1 = w1.state.sessions.keys.length := by
      rw [hState]
      exact HashMap.length_keys_erase hSession
    simp only [List.countP_append, List.countP_singleton, Point.stage] at hSessions ⊢
    simp only [Event.isEvict, if_false, Bool.false_eq_true]
    omega
  · rw [hState]
    intro path' other hOther
    exact h.kept path' other (HashMap.lookup_erase_iff.mp hOther).2
  · rw [hState]
    intro path' other hOther hGone
    by_cases hPath : path' = evictPath
    · -- it is the one that was picked
      subst hPath
      obtain ⟨picked, -, hPicked, hWhen⟩ := h.picked _ _ rfl
      have hSame := h.kept _ _ hPicked
      rw [hOther] at hSame
      cases hSame
      exact hWhen.mono _
    · refine (h.gone path' other hOther ?_).mono _
      intro hHere
      exact hGone (HashMap.lookup_erase_iff.mpr ⟨hPath, hHere⟩)
  · intro evictId evictPath' hPoint
    cases hPoint
  · -- its mapping waits to be unmapped
    intro evictId hPoint
    cases hPoint
    refine ⟨evictPath, session, rfl, h.kept _ _ hSession, ?_⟩
    rw [hState]
    intro hHere
    exact (HashMap.lookup_erase_iff.mp hHere).1 rfl
  · -- those unmapped before had left the map before
    rw [hState]
    intro id hId hUnmapped
    obtain ⟨path', other, hOther, hMapped, hGone⟩ := h.unmapped id hId hUnmapped
    refine ⟨path', other, hOther, hMapped, ?_⟩
    intro hHere
    exact hGone (HashMap.lookup_erase_iff.mp hHere).2

/-- Its mapping is unmapped, and the loop goes round again. -/
theorem Account.evict {events : List Event} {w1 w2 : World} {evictId : ModelId}
    {registry : SwapRegistry}
    (h : Account thread request path loop w events w1 (.removed loop evictId))
    (hEvict : w1.state.registry.evict w1.handles evictId = (.ok (), registry))
    (hState : w2.state = { w1.state with registry }) :
    Account thread request path loop w (events ++ [.ensure .evict]) w2 (.making loop) := by
  have hSteps := h.steps
  have hSessions := h.sessions
  refine ⟨?_, ?_, ?_, ?_, ?_, ?_, ?_⟩
  · simp only [List.countP_append, List.countP_singleton, Point.stage] at hSteps ⊢
    simp only [Event.isEnsure, Event.isEvict, if_true]
    omega
  · simp only [List.countP_append, List.countP_singleton, Point.stage, hState] at hSessions ⊢
    simp only [Event.isEvict, if_true]
    omega
  · rw [hState]
    exact h.kept
  · rw [hState]
    intro path' other hOther hGone
    exact (h.gone path' other hOther hGone).mono _
  · intro evictId evictPath hPoint
    cases hPoint
  · intro evictId hPoint
    cases hPoint
  · rw [hState]
    intro id hId hUnmapped
    by_cases hHere : id ∈ w1.state.registry.state.resident
    · -- eviction takes out one mapping
      have hSame : id = evictId := by
        rcases w1.state.registry.evict_cases w1.handles evictId with ⟨hNe, -⟩ | ⟨inner, -, hRemoved⟩
        · rw [hEvict] at hNe
          exact absurd rfl hNe
        · rw [hEvict] at hRemoved
          cases hRemoved
          by_contra hNe
          exact hUnmapped (AList.mem_erase.mpr ⟨hNe, hHere⟩)
      obtain ⟨evictPath, session, hSession, hMapped, hGone⟩ := h.removed _ rfl
      exact ⟨evictPath, session, hSession.trans hSame.symm, hMapped, hGone⟩
    · exact h.unmapped id hId hHere

/-- What a run of a loop keeps, with the daemon's invariants. -/
theorem LoopRun.account (h : w.Consistent) (hAddressed : w.Addressed) {events : List Event}
    (hRun : LoopRun thread request path loop w events w') :
    w'.Consistent ∧ w'.Addressed ∧ ∃ point, w'.lock = some (thread, .ensuring request path point) ∧
      point.Inside loop ∧ Account thread request path loop w events w' point := by
  -- on the run; the daemon's invariants go along, for they say that an eviction succeeds
  induction hRun with
  | entered hLock =>
    refine ⟨h, hAddressed, .making loop, hLock, rfl, ⟨rfl, ?_, fun _ _ => id, ?_, ?_, ?_, ?_⟩⟩
    · simp [Point.stage]
    · intro evictPath session hSession hGone
      exact absurd hSession hGone
    · intro evictId evictPath hPoint
      cases hPoint
    · intro evictId hPoint
      cases hPoint
    · intro id hId hUnmapped
      exact absurd hId hUnmapped
  | @next events w1 w2 event point' hBefore hStep hLock' hInside' ih =>
    obtain ⟨hConsistent, hAddressed1, point, hLock, hInside, hAccount⟩ := ih
    have hCases := step_cases hStep
    refine ⟨hConsistent.step hCases, hAddressed1.step hCases, point', hLock', hInside', ?_⟩
    by_cases hEnsure : ∃ input, event = .ensure input
    · obtain ⟨input, rfl⟩ := hEnsure
      obtain ⟨point'', hLock'', hRoom⟩ := roomStep hConsistent hAddressed1 hLock hInside hStep
      rw [hLock'] at hLock''
      cases hLock''
      generalize hNow : w2.state = state at hRoom
      cases hRoom with
      | @pick probes lruIds evictPath session hOldest =>
        refine hAccount.same hNow rfl rfl (by simp [Point.stage]) ?_ (by simp)
        intro evictId evictPath' hPoint
        cases hPoint
        refine ⟨session, rfl, by rw [hNow]; exact hOldest.eligible.1, ?_⟩
        exact ⟨events, probes, lruIds, w1, hBefore, List.prefix_rfl, hOldest⟩
      | remove hSession _ => exact hAccount.remove hSession hNow
      | evict hEvict => exact hAccount.evict hEvict hNow
      | «return» _ =>
        -- the run is one that goes on
        match loop, hInside' with
        | .makeRoomFor _, hInside' => cases hInside'
        | .makeDeviceRoomBesides, hInside' => cases hInside'
    · -- another thread's step
      obtain ⟨hState, hSame⟩ := others_step hLock hInside hCases fun input hInput => hEnsure ⟨input, hInput⟩
      rw [hSame, hLock] at hLock'
      cases hLock'
      have hNone : event.isEnsure = false ∧ event.isEvict = false := by
        match event with
        | .ensure input => exact absurd ⟨input, rfl⟩ hEnsure
        | .accept | .lock _ _ _ | .release _ | .record _ _ | .openConversation _ _ | .turn _
        | .snapshot _ _ | .disconnect _ | .drop _ => exact ⟨rfl, rfl⟩
      refine hAccount.same hState hNone.2 (by simp [hNone.1]) rfl ?_ fun _ hPoint => hPoint
      intro evictId evictPath hPoint
      obtain ⟨session, hId, hSession, hPicked⟩ := hAccount.picked evictId evictPath hPoint
      exact ⟨session, hId, by rw [hState]; exact hSession, hPicked.mono event⟩

/-- A run of the loop takes three steps for each session at most. -/
theorem LoopRun.steps_le (h : w.Consistent) (hAddressed : w.Addressed) {events : List Event}
    (hRun : LoopRun thread request path loop w events w') :
    events.countP Event.isEnsure ≤ 3 * w.state.sessions.keys.length := by
  obtain ⟨-, -, point, -, hInside, hAccount⟩ := hRun.account h hAddressed
  have hSteps := hAccount.steps
  have hSessions := hAccount.sessions
  match point, hInside with
  | .making _, rfl =>
    simp only [Point.stage] at hSteps hSessions
    omega
  | .removed _ _, rfl =>
    simp only [Point.stage] at hSteps hSessions
    omega
  | .picked _ evictId evictPath, rfl =>
    -- the picked session is still in the map
    obtain ⟨session, -, hSession, -⟩ := hAccount.picked evictId evictPath rfl
    have hLength := HashMap.length_keys_erase hSession
    simp only [Point.stage] at hSteps hSessions
    omega

end World

/-- What the probes read in a step. -/
def Input.reading : Input → Option Probes
  | .probe probes _ => some probes
  | _ => none

namespace World

variable {w w' : World} {thread : Nat} {request : Request} {path : Path} {loop : RoomLoop}
  {point : Point}

/-- Left to itself the loop returns, whatever the probes read one after the other. -/
def Returns (thread : Nat) (request : Request) (path : Path) (loop : RoomLoop) (w : World)
    (readings : Nat → Probes) : Prop :=
  ∃ (inputs : List Input) (w' : World), (inputs.map Event.ensure).foldlM World.step w = some w' ∧
    w'.lock = some (thread, .ensuring request path loop.returned) ∧
      ∃ n, inputs.filterMap Input.reading = (List.range n).map readings

/-- A step without a reading, and the rest. -/
theorem Returns.step {readings : Nat → Probes} {input : Input}
    (hStep : w.step (.ensure input) = some w') (hInput : input.reading = none)
    (h : Returns thread request path loop w' readings) :
    Returns thread request path loop w readings := by
  obtain ⟨inputs, w'', hRest, hLock, n, hReadings⟩ := h
  refine ⟨input :: inputs, w'', ?_, hLock, n, ?_⟩
  · rw [List.map_cons, List.foldlM_cons, hStep]
    exact hRest
  · rw [List.filterMap_cons, hInput]
    exact hReadings

/-- A step with the first reading, and the rest with the others. -/
theorem Returns.probe {readings : Nat → Probes} {lruIds : List ModelId}
    (hStep : w.step (.ensure (.probe (readings 0) lruIds)) = some w')
    (h : Returns thread request path loop w' (readings ∘ Nat.succ)) :
    Returns thread request path loop w readings := by
  obtain ⟨inputs, w'', hRest, hLock, n, hReadings⟩ := h
  refine ⟨.probe (readings 0) lruIds :: inputs, w'', ?_, hLock, n + 1, ?_⟩
  · rw [List.map_cons, List.foldlM_cons, hStep]
    exact hRest
  · rw [List.filterMap_cons, List.range_succ_eq_map, List.map_cons, List.map_map, ← hReadings]
    rfl

/-- It cannot go round for ever: the steps a run has left go down. -/
theorem LoopRun.returns (h : w.Consistent) (hAddressed : w.Addressed) (left : Nat)
    {events : List Event} (hRun : LoopRun thread request path loop w events w')
    (hLeft : 3 * w.state.sessions.keys.length < events.countP Event.isEnsure + left)
    (readings : Nat → Probes) : Returns thread request path loop w' readings := by
  -- on the steps that are left, of which a session yields three
  induction left generalizing events w' readings with
  | zero =>
    have hSteps := hRun.steps_le h hAddressed
    omega
  | succ left ih =>
    obtain ⟨hConsistent, hAddressed', point, hLock, hInside, -⟩ := hRun.account h hAddressed
    obtain ⟨input, w'', hStep, hInput⟩ := room_goes_on hConsistent hLock hInside (readings 0)
    obtain ⟨point', hLock', hRoom⟩ := roomStep hConsistent hAddressed' hLock hInside hStep
    have hRest : ∀ readings, Returns thread request path loop w'' readings := by
      intro readings
      rcases hRoom.inside_or_returned with hInside' | rfl
      · refine ih (hRun.next hStep hLock' hInside') ?_ readings
        rw [List.countP_append, List.countP_singleton]
        show _ < _ + 1 + left
        omega
      · exact ⟨[], w'', rfl, hLock', 0, rfl⟩
    rcases hInput with ⟨lruIds, rfl⟩ | rfl | rfl
    · exact (hRest _).probe hStep
    · exact (hRest _).step hStep rfl
    · exact (hRest _).step hStep rfl

/-- What making room is: the loop has evicted no more models than there were sessions, in
three steps each; what is gone, session and mapping, was picked as the least recently used
of what the loop may evict; whatever the probes read from here on, it returns; and a step
it takes is one of the loop's, or the return. -/
structure MakesRoom (thread : Nat) (request : Request) (path : Path) (loop : RoomLoop) (w : World)
    (events : List Event) (w' : World) : Prop where
  evictions : events.countP Event.isEvict ≤ w.state.sessions.keys.length
  steps : events.countP Event.isEnsure ≤ 3 * w.state.sessions.keys.length
  gone : ∀ evictPath session, w.state.sessions.lookup evictPath = some session →
    w'.state.sessions.lookup evictPath ≠ some session →
      Picked thread request path loop w events evictPath session
  unmapped : ∀ id, id ∈ w.state.registry.state.resident → id ∉ w'.state.registry.state.resident →
    ∃ evictPath session, session.id = id ∧ w.state.sessions.lookup evictPath = some session ∧
      w'.state.sessions.lookup evictPath ≠ some session
  returns : ∀ readings, Returns thread request path loop w' readings
  step : ∀ input w'', w'.step (.ensure input) = some w'' → ∃ point point',
    w'.lock = some (thread, .ensuring request path point) ∧
    w''.lock = some (thread, .ensuring request path point') ∧
      w'.RoomStep loop path point input w''.state point'

/-- **Making room.** In every state the daemon reaches where one of the loops is entered,
and however long it goes on, beside any steps of the other threads. -/
theorem makes_room (withinBudget : Nat → Nat → Bool) (reached : List Event) (w : World)
    (hReached : run withinBudget reached = some w) (thread : Nat) (request : Request) (path : Path)
    (loop : RoomLoop) (events : List Event) (w' : World)
    (hRun : LoopRun thread request path loop w events w') :
    MakesRoom thread request path loop w events w' := by
  obtain ⟨hConsistent, hAddressed, point, hLock, hInside, hAccount⟩ :=
    hRun.account (reached_consistent hReached) (reached_addressed hReached)
  have hSessions := hAccount.sessions
  have hStepsLe := hRun.steps_le (reached_consistent hReached) (reached_addressed hReached)
  refine ⟨by omega, hStepsLe, hAccount.gone, hAccount.unmapped, ?_, ?_⟩
  · exact hRun.returns (reached_consistent hReached) (reached_addressed hReached)
      (3 * w.state.sessions.keys.length + 1) (by omega)
  · intro input w'' hStep
    obtain ⟨point', hLock', hRoom⟩ := roomStep hConsistent hAddressed hLock hInside hStep
    exact ⟨point, point', hLock, hLock', hRoom⟩

/-- Three threads, the third of which needs room for another model. -/
def crowded : List Event :=
  [.accept, .accept, .accept] ++ (loads 0 .openConversation "coder.gguf" [] ++
    (.openConversation 0 true :: (loads 1 .generate "writer.gguf" [⟨0⟩] ++
      [.lock 2 .generate "painter.gguf".toList, .ensure (.check 4 tinyFile)])))

/-- The probes find no free memory. -/
def nothingFree : Event :=
  .ensure (.probe { systemFreeBytes := some 0, gpuMemoryBytes := none } [⟨0⟩, ⟨1⟩])

/-- The least recently used of the models that nobody holds goes, while the conversation's
thread fails to save itself. -/
def makingRoom : List Event := [nothingFree, .ensure .remove, .snapshot 0 false, .ensure .evict]

/-- The next reading finds no more memory, and the conversation's model is all there is. -/
def nothingLeft : Event :=
  .ensure (.probe { systemFreeBytes := some 0, gpuMemoryBytes := none } [⟨0⟩])

/-- Through the pick, the removal and the eviction to the return. -/
theorem crowded_makes_room :
    ∃ w w' w'', run (fun used available => decide (used ≤ available)) crowded = some w ∧
      makingRoom.foldlM World.step w = some w' ∧
        MakesRoom 2 .generate "painter.gguf".toList (.makeRoomFor 4) w makingRoom w' ∧
      w'.state.sessions.keys = ["coder.gguf".toList] ∧
      w'.step nothingLeft = some w'' ∧
        w''.lock = some (2, .ensuring .generate "painter.gguf".toList .opening) := by
  have hRun : ((run (fun used available => decide (used ≤ available)) crowded).bind fun w =>
      (w.step nothingFree).bind fun w1 => (w1.step (.ensure .remove)).bind fun w2 =>
        (w2.step (.snapshot 0 false)).bind fun w3 => (w3.step (.ensure .evict)).bind fun w' =>
          (w'.step nothingLeft).map fun w'' =>
            ([w.lock, w1.lock, w2.lock, w3.lock, w'.lock, w''.lock], w'.state.sessions.keys)) =
        some ([some (2, .ensuring .generate "painter.gguf".toList (.making (.makeRoomFor 4))),
          some (2, .ensuring .generate "painter.gguf".toList
            (.picked (.makeRoomFor 4) ⟨1⟩ "writer.gguf".toList)),
          some (2, .ensuring .generate "painter.gguf".toList (.removed (.makeRoomFor 4) ⟨1⟩)),
          some (2, .ensuring .generate "painter.gguf".toList (.removed (.makeRoomFor 4) ⟨1⟩)),
          some (2, .ensuring .generate "painter.gguf".toList (.making (.makeRoomFor 4))),
          some (2, .ensuring .generate "painter.gguf".toList .opening)],
          ["coder.gguf".toList]) := by
    decide
  obtain ⟨w, hReached, hRest⟩ := Option.bind_eq_some_iff.mp hRun
  obtain ⟨w1, hPick, hRest⟩ := Option.bind_eq_some_iff.mp hRest
  obtain ⟨w2, hRemove, hRest⟩ := Option.bind_eq_some_iff.mp hRest
  obtain ⟨w3, hSnapshot, hRest⟩ := Option.bind_eq_some_iff.mp hRest
  obtain ⟨w', hEvict, hRest⟩ := Option.bind_eq_some_iff.mp hRest
  obtain ⟨w'', hReturn, hAll⟩ := Option.map_eq_some_iff.mp hRest
  simp only [Prod.mk.injEq, List.cons.injEq, and_true] at hAll
  obtain ⟨⟨hLock, hLock1, hLock2, hLock3, hLock', hLock''⟩, hKeys⟩ := hAll
  have hWhole : makingRoom.foldlM World.step w = some w' := by
    simp only [makingRoom, List.foldlM_cons, hPick, Option.bind_eq_bind, Option.bind_some, hRemove,
      hSnapshot, hEvict, List.foldlM_nil]
    rfl
  refine ⟨w, w', w'', hReached, hWhole, ?_, hKeys, hReturn, hLock''⟩
  exact makes_room _ crowded w hReached 2 .generate "painter.gguf".toList (.makeRoomFor 4)
    makingRoom w' (((((LoopRun.entered hLock).next hPick hLock1 rfl).next hRemove hLock2 rfl).next
      hSnapshot hLock3 rfl).next hEvict hLock' rfl)

end World

end Rampipe
