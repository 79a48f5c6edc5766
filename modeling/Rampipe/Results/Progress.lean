import Mathlib.Algebra.GroupWithZero.Nat
import Rampipe.Results.MakingRoom

/-!
# Rampipe — the daemon goes on

All threads share one lock, and `ensure_loaded` runs loops under it, with `expect`s in
them that take the maps for consistent. None of it stands still: in every state reached,
whatever files, probes and llama.cpp answer, the thread that holds the lock in there has a
next step, and it has only so many before it is done; and behind any run there is a way to
the end of every connection, where no reference to a model is left over.

Both are about the sections that begin with `ensure_loaded`. A turn holds the lock too, and
parses the reply under it, which need not come to an end.

* `World.Seated`      — the thread that holds the lock is where the lock says.
* `World.holder_step` — its next step is possible, whatever it meets.
* `World.held_step`   — its steps are counted down in `stepsLeft`, which no other thread's step is.
* `lock_given_back`   — both, over every run.
* `daemon_drains`     — the way to the end of every connection.
-/

namespace Rampipe

open World

/-! ## The thread that holds the lock -/

/-- What a thread may meet outside, at any of its steps. -/
structure Outside where
  fileSize : Nat
  mapping : Mapping
  probes : Probes
  resolves : Bool
  loads : Bool
  gpuFreeBefore : Option Nat
  gpuFreeAfter : Option Nat
  tokensGenerated : Option Nat

namespace World

/-- The next step of the thread that holds the lock. -/
def holderEvent (w : World) (outside : Outside) : Critical → Event
  | .ensuring _ _ .checking => .ensure (.check outside.fileSize outside.mapping)
  | .ensuring _ _ (.making _) =>
    .ensure (.probe outside.probes w.state.registry.residentIdsByLru)
  | .ensuring _ _ (.picked _ _ _) => .ensure .remove
  | .ensuring _ _ (.removed _ _) => .ensure .evict
  | .ensuring _ _ .opening => .ensure (.load outside.mapping)
  | .ensuring _ _ (.mapped _) => .ensure (.resolveParams outside.resolves)
  | .ensuring _ _ (.fitted _) =>
    .ensure (.loadModel outside.loads outside.gpuFreeBefore outside.gpuFreeAfter)
  | .ensuring _ _ .loaded => .release outside.tokensGenerated
  | .ensuring _ _ .failed => .release outside.tokensGenerated
  | .turn => .release outside.tokensGenerated

/-- The thread that holds the lock is where the section belongs: a request's connection is
new, and a turn's has a conversation. -/
def Seats : Critical → Connection → Prop
  | .ensuring _ _ _, connection => connection = .accepted
  | .turn, connection => ∃ path session conversation,
    connection = .conversing path session conversation

def Seated (w : World) : Prop :=
  ∀ thread critical, w.lock = some (thread, critical) →
    ∃ connection, w.connections[thread]? = some connection ∧ Seats critical connection

variable {w w' : World}

theorem seated_of_free (hFree : w.lock = none) : w.Seated := by
  intro thread critical hHeld
  rw [hFree] at hHeld
  cases hHeld

/-- The holder's connection is left alone where other threads change theirs. -/
theorem Seated.setConnection (h : w.Seated) {thread : Nat}
    (hOther : ∀ holder critical, w.lock = some (holder, critical) → thread ≠ holder)
    (connection : Connection) : (w.setConnection thread connection).Seated := by
  intro holder critical hHeld
  obtain ⟨seat, hConnection, hSeats⟩ := h holder critical hHeld
  refine ⟨seat, ?_, hSeats⟩
  rw [World.setConnection, List.getElem?_set_ne (hOther holder critical hHeld)]
  exact hConnection

/-- A thread that is elsewhere does not hold the lock. -/
theorem Seated.ne_holder (h : w.Seated) {thread : Nat} {connection : Connection}
    (hConnection : w.connections[thread]? = some connection)
    (hElsewhere : ∀ critical, ¬ Seats critical connection) (holder : Nat) (critical : Critical)
    (hHeld : w.lock = some (holder, critical)) : thread ≠ holder := by
  rintro rfl
  obtain ⟨seat, hSeat, hSeats⟩ := h thread critical hHeld
  rw [hConnection] at hSeat
  cases hSeat
  exact hElsewhere critical hSeats

/-- Nor does one that the lock's guard lets through. -/
theorem ne_holder_of_guard {thread : Nat} (hGuard : (w.lock.map Prod.fst == some thread) = false)
    (holder : Nat) (critical : Critical) (hHeld : w.lock = some (holder, critical)) :
    thread ≠ holder := by
  rintro rfl
  rw [hHeld] at hGuard
  simp at hGuard

/-- How a connection moves on by itself, outside the lock. -/
inductive MovesOn : Connection → Connection → Prop
  | opened (path : Path) (session : SessionArc) :
      MovesOn (.opening path session) (.conversing path session session.handle)
  | notOpened (path : Path) (session : SessionArc) :
      MovesOn (.opening path session) (.closing session)
  | kept (path : Path) (session : SessionArc) (conversation : ModelHandle) :
      MovesOn (.conversing path session conversation) (.conversing path session conversation)
  | ended (path : Path) (session : SessionArc) (conversation : ModelHandle) :
      MovesOn (.conversing path session conversation) (.closing session)
  | left : MovesOn .accepted .closed
  | dropped (session : SessionArc) : MovesOn (.closing session) .closed

/-- The step is one of those. -/
def Event.movesOn : Event → Bool
  | .openConversation _ _ | .snapshot _ _ | .disconnect _ | .drop _ => true
  | _ => false

/-- Only its own connection is changed by it, and its thread does not hold the lock. -/
theorem movesOn_step (h : w.Seated) {event : Event} (hStep : w.step event = some w')
    (hMoves : event.movesOn = true) :
    ∃ thread before connection, w.connections[thread]? = some before ∧ MovesOn before connection ∧
      (∀ holder critical, w.lock = some (holder, critical) → thread ≠ holder) ∧
      w' = w.setConnection thread connection := by
  cases event with
  | openConversation thread ok =>
    -- its seat is not one that a holder of the lock has
    dsimp only [World.step] at hStep
    split at hStep
    · rename_i path session hConnection
      cases hStep
      refine ⟨thread, _, _, hConnection, ?_,
        h.ne_holder hConnection (by rintro (_ | _) <;> simp [Seats]), rfl⟩
      cases ok with
      | true => exact .opened path session
      | false => exact .notOpened path session
    · cases hStep
  | snapshot thread ok =>
    -- the step's own guard says that the lock is another's, or free
    dsimp only [World.step] at hStep
    split at hStep
    · rename_i path session conversation hGuard hConnection
      cases hStep
      refine ⟨thread, _, _, hConnection, ?_, ne_holder_of_guard hGuard, rfl⟩
      cases ok with
      | true => exact .ended path session conversation
      | false => exact .kept path session conversation
    · cases hStep
  | disconnect thread =>
    dsimp only [World.step] at hStep
    split at hStep
    · rename_i hGuard hConnection
      cases hStep
      exact ⟨thread, _, _, hConnection, .left, ne_holder_of_guard hGuard, rfl⟩
    · rename_i path session conversation hGuard hConnection
      cases hStep
      exact ⟨thread, _, _, hConnection, .ended path session conversation,
        ne_holder_of_guard hGuard, rfl⟩
    · cases hStep
  | drop thread =>
    dsimp only [World.step] at hStep
    split at hStep
    · rename_i session hConnection
      cases hStep
      exact ⟨thread, _, _, hConnection, .dropped session,
        h.ne_holder hConnection (by rintro (_ | _) <;> simp [Seats]), rfl⟩
    · cases hStep
  | accept | lock _ _ _ | ensure _ | release _ | record _ _ | turn _ => cases hMoves

/-- An unlock leaves the lock free. -/
theorem release_frees {tokensGenerated : Option Nat}
    (hStep : w.step (.release tokensGenerated) = some w') : w'.lock = none := by
  have hFinish : ∀ {thread : Nat} {request : Request} {path : Path} {ok : Bool},
      w.finish thread request path ok tokensGenerated = some w' → w'.lock = none := by
    intro thread request path ok hFinish
    unfold World.finish at hFinish
    dsimp only at hFinish
    cases request with
    | generate | embed =>
      cases hFinish
      rfl
    | openConversation =>
      cases ok with
      | true =>
        obtain ⟨session, -, rfl⟩ := Option.map_eq_some_iff.mp hFinish
        rfl
      | false =>
        cases hFinish
        rfl
  unfold World.step at hStep
  dsimp only at hStep
  split at hStep
  · exact hFinish hStep
  · exact hFinish hStep
  · split at hStep <;> cases hStep
    rfl
  · cases hStep

theorem Seated.step (h : w.Seated) {event : Event} (hStep : w.step event = some w') : w'.Seated := by
  cases event with
  | accept =>
    -- the new connection is behind the holder's
    cases hStep
    intro thread critical hHeld
    obtain ⟨seat, hConnection, hSeats⟩ := h thread critical hHeld
    have hThread := (List.getElem?_eq_some_iff.mp hConnection).1
    refine ⟨seat, ?_, hSeats⟩
    rw [List.getElem?_append_left hThread]
    exact hConnection
  | lock thread request path =>
    dsimp only [World.step] at hStep
    split at hStep
    · rename_i hFree hConnection
      cases hStep
      intro thread critical hHeld
      cases hHeld
      exact ⟨_, hConnection, rfl⟩
    · cases hStep
  | ensure input =>
    dsimp only [World.step] at hStep
    split at hStep
    · rename_i hLock
      obtain ⟨⟨state, point⟩, -, rfl⟩ := Option.map_eq_some_iff.mp hStep
      intro thread critical hHeld
      cases hHeld
      -- a section that goes on is still that of a request
      obtain ⟨seat, hConnection, hSeats⟩ := h _ _ hLock
      exact ⟨seat, hConnection, hSeats⟩
    · cases hStep
  | release tokensGenerated => exact seated_of_free (release_frees hStep)
  | record thread now =>
    -- an outcome is recorded in one go, while nobody holds the lock
    dsimp only [World.step] at hStep
    split at hStep
    · rename_i hFree hConnection
      cases hStep
      exact seated_of_free hFree
    · rename_i hFree hConnection
      cases hStep
      exact seated_of_free hFree
    · cases hStep
  | turn thread =>
    dsimp only [World.step] at hStep
    split at hStep
    · rename_i path session conversation hFree hConnection
      cases hStep
      intro thread critical hHeld
      cases hHeld
      exact ⟨_, hConnection, path, session, conversation, rfl⟩
    · cases hStep
  | openConversation _ _ | snapshot _ _ | disconnect _ | drop _ =>
    obtain ⟨thread, before, connection, -, -, hOther, rfl⟩ := movesOn_step h hStep rfl
    exact h.setConnection hOther connection

theorem reached_seated {withinBudget : Nat → Nat → Bool} {events : List Event}
    (hRun : run withinBudget events = some w) : w.Seated :=
  foldlM_invariant World.Seated (seated_of_free rfl) (fun _ _ _ _ h => h.step) hRun

/-- Whatever it meets, the thread that holds the lock has a next step. -/
theorem holder_step (h : w.Consistent) (hSeated : w.Seated) {thread : Nat} {critical : Critical}
    (hLock : w.lock = some (thread, critical)) (outside : Outside) :
    ∃ w', w.step (w.holderEvent outside critical) = some w' := by
  have hLoad : ∀ path, ∃ result, w.state.registry.load path .lazy outside.mapping = some result :=
    fun path => SwapRegistry.load_isSome h.wellFormed path .lazy outside.mapping
  cases critical with
  | turn =>
    -- the turn is that of its own conversation, which nobody takes from it
    obtain ⟨_, hConnection, path, session, conversation, rfl⟩ := hSeated thread _ hLock
    simp only [holderEvent, World.step, hLock, hConnection]
    exact ⟨_, rfl⟩
  | ensuring request path point =>
    have hAt := h.point _ _ _ _ hLock
    cases point with
    | checking =>
      obtain ⟨⟨result, registry⟩, hResult⟩ := hLoad path
      rw [holderEvent, step_ensure hLock]
      unfold SharedState.ensureLoaded
      dsimp only
      split_ifs with hMem
      · rw [hResult]
        exact ⟨_, rfl⟩
      · exact ⟨_, rfl⟩
    | making loop =>
      -- the ids are given by least recent use, as the loop asks for
      rw [holderEvent, step_ensure hLock, SharedState.ensureLoaded_making,
        if_neg (not_not.mpr w.state.registry.residentIdsByLru_isLru)]
      split
      · exact ⟨_, rfl⟩
      · exact ⟨_, rfl⟩
    | picked loop evictId evictPath =>
      rw [holderEvent, step_ensure hLock]
      exact ⟨_, rfl⟩
    | removed loop evictId =>
      rw [holderEvent, step_ensure hLock]
      unfold SharedState.ensureLoaded
      dsimp only
      split
      · exact ⟨_, rfl⟩
      · exact ⟨_, rfl⟩
    | opening =>
      obtain ⟨⟨result, registry⟩, hResult⟩ := hLoad path
      rw [holderEvent, step_ensure hLock]
      unfold SharedState.ensureLoaded
      dsimp only
      rw [hResult]
      exact ⟨_, rfl⟩
    | mapped handle =>
      rw [holderEvent, step_ensure hLock]
      exact ⟨_, rfl⟩
    | fitted handle =>
      rw [holderEvent, step_ensure hLock]
      unfold SharedState.ensureLoaded
      dsimp only
      split
      · exact ⟨_, rfl⟩
      · exact ⟨_, rfl⟩
    | loaded =>
      -- the model is in the map, as `expect` takes for granted
      obtain ⟨session, hSession⟩ := HashMap.mem_iff_exists_lookup.mp hAt
      simp only [holderEvent, World.step, hLock, World.finish]
      cases request with
      | generate | embed => exact ⟨_, rfl⟩
      | openConversation =>
        simp only [hSession, if_true, Option.map_some]
        exact ⟨_, rfl⟩
    | failed =>
      simp only [holderEvent, World.step, hLock, World.finish]
      cases request with
      | generate | embed | openConversation => exact ⟨_, rfl⟩

end World

/-! ## How long it holds the lock -/

/-- How many steps of `ensure_loaded` are left at most, with this many sessions in the map:
three for each that may be evicted, and those of a load. -/
def Point.stepsLeft (sessions : Nat) : Point → Nat
  | .checking => 3 * sessions + 5
  | .making _ => 3 * sessions + 4
  | .picked _ _ _ => 3 * sessions + 3
  | .removed _ _ => 3 * sessions + 5
  | .opening => 3
  | .mapped _ => 2
  | .fitted _ => 1
  | .loaded => 0
  | .failed => 0

/-- Every step of `ensure_loaded` is one less of those that are left. -/
theorem EnsureStep.stepsLeft_lt {state state' : SharedState} {connections : List Connection}
    {held : Held} {path : Path} {point point' : Point} {input : Input}
    (hAt : At state connections path point)
    (h : EnsureStep state held path point input state' point') :
    point'.stepsLeft state'.sessions.keys.length < point.stepsLeft state.sessions.keys.length := by
  cases h with
  | remove =>
    -- the session that goes makes up for the way round the loop
    obtain ⟨-, -, session, hSession, -⟩ := hAt
    have hLength := HashMap.length_keys_erase hSession
    simp only [Point.stepsLeft, SharedState.forget]
    omega
  | hit _ _ | hitFailed _ _ | miss _ | pick _ _ _ | roomMade | deviceRoomMade | evict _
  | evictFailed _ | map _ | mapFailed _ | resolve | resolveFailed | insert | loadFailed =>
    simp only [Point.stepsLeft]
    omega

namespace World

variable {w w' : World}

/-- How many steps are left before the lock is given back. -/
def stepsLeft (w : World) : Nat :=
  match w.lock with
  | some (_, .ensuring _ _ point) => point.stepsLeft w.state.sessions.keys.length
  | _ => 0

/-- A step of `ensure_loaded` is taken by the thread that holds the lock, and counted. -/
theorem ensure_held (h : w.Consistent) {input : Input} (hStep : w.step (.ensure input) = some w')
    {thread : Nat} {request : Request} {path : Path} {point : Point}
    (hLock : w.lock = some (thread, .ensuring request path point)) :
    (∃ point', w'.lock = some (thread, .ensuring request path point')) ∧
      w'.stepsLeft < w.stepsLeft := by
  rw [step_ensure hLock] at hStep
  obtain ⟨⟨state, point'⟩, hEnsure, rfl⟩ := Option.map_eq_some_iff.mp hStep
  refine ⟨⟨_, rfl⟩, ?_⟩
  have hLess := (SharedState.ensureLoaded_cases hEnsure).stepsLeft_lt (h.point _ _ _ _ hLock)
  simp only [stepsLeft, hLock]
  exact hLess

/-- While a thread holds the lock, no other thread's step touches it or the models. -/
theorem others_held {event : Event} (hStep : Step w event w') {thread : Nat} {critical : Critical}
    (hLock : w.lock = some (thread, critical)) (hEnsure : event.isEnsure = false) :
    (∃ tokensGenerated, event = .release tokensGenerated) ∨
    w'.state = w.state ∧ w'.lock = w.lock := by
  cases hStep with
  | ensure _ _ => cases hEnsure
  | generated _ | generateFailed _ | cloned _ _ | dismissed _ _ | turnDone _ _ => exact .inl ⟨_, rfl⟩
  | accept | openConversation _ | snapshotFailed _ | close _ _ | leave _ _ => exact .inr ⟨rfl, rfl⟩
  | lock hFree _ | record hFree _ | recordTurn hFree _ | turn hFree _ =>
    -- these take the lock
    rw [hLock] at hFree
    cases hFree

end World

/-- The step gives the lock back. -/
def World.Event.isRelease : World.Event → Bool
  | .release _ => true
  | _ => false

namespace World

variable {w w' : World}

/-- A step that does not give the lock back leaves it with its holder, and is counted if it
is the holder's. -/
theorem held_step (h : w.Consistent) {event : Event} (hStep : w.step event = some w')
    {thread : Nat} {request : Request} {path : Path} {point : Point}
    (hLock : w.lock = some (thread, .ensuring request path point))
    (hHeld : event.isRelease = false) :
    (∃ point', w'.lock = some (thread, .ensuring request path point')) ∧
      (if event.isEnsure then 1 else 0) + w'.stepsLeft ≤ w.stepsLeft := by
  cases hEnsure : event.isEnsure with
  | true =>
    cases event with
    | ensure input =>
      obtain ⟨hHolds, hLess⟩ := ensure_held h hStep hLock
      refine ⟨hHolds, ?_⟩
      rw [if_pos rfl]
      omega
    | accept | lock _ _ _ | release _ | record _ _ | openConversation _ _ | turn _ | snapshot _ _
    | disconnect _ | drop _ => cases hEnsure
  | false =>
    rcases others_held (step_cases hStep) hLock hEnsure with ⟨tokensGenerated, rfl⟩ | ⟨hState, hSame⟩
    · cases hHeld
    · have hLeft : w'.stepsLeft = w.stepsLeft := by simp only [stepsLeft, hState, hSame]
      refine ⟨⟨point, hSame.trans hLock⟩, ?_⟩
      rw [if_neg Bool.false_ne_true]
      omega

/-- Over any steps, until one gives it back. -/
theorem held_run (h : w.Consistent) (hSeated : w.Seated) {thread : Nat} {request : Request}
    {path : Path} {point : Point} (hLock : w.lock = some (thread, .ensuring request path point))
    {events : List Event} (hRun : events.foldlM World.step w = some w')
    (hHeld : ∀ event ∈ events, event.isRelease = false) :
    w'.Consistent ∧ w'.Seated ∧
      events.countP Event.isEnsure + w'.stepsLeft ≤ w.stepsLeft ∧
      ∃ point', w'.lock = some (thread, .ensuring request path point') := by
  -- on the steps that are taken; those of the holder are counted down
  induction events generalizing w point with
  | nil =>
    cases hRun
    exact ⟨h, hSeated, by simp, point, hLock⟩
  | cons event events ih =>
    rw [List.foldlM_cons] at hRun
    obtain ⟨w1, hStep, hRest⟩ := Option.bind_eq_some_iff.mp hRun
    obtain ⟨⟨point', hLock'⟩, hCounted⟩ := held_step h hStep hLock (hHeld _ List.mem_cons_self)
    obtain ⟨hConsistent, hSeated', hSteps, hHolds⟩ := ih (h.step (step_cases hStep))
      (hSeated.step hStep) hLock' hRest fun other hOther => hHeld other (List.mem_cons_of_mem _ hOther)
    refine ⟨hConsistent, hSeated', ?_, hHolds⟩
    rw [List.countP_cons]
    omega

end World

/-- **The lock is given back.** From any state reached in which a thread holds it in
`ensure_loaded`, and for as long as it is not given back, the same thread holds it for the
same model, beside any steps of the others; it takes no more steps of `ensure_loaded` than
`stepsLeft` says; and its next step is possible, whatever it meets outside. -/
theorem lock_given_back (withinBudget : Nat → Nat → Bool) (reached : List World.Event) (w : World)
    (hReached : run withinBudget reached = some w) (thread : Nat) (request : Request) (path : Path)
    (point : Point) (hLock : w.lock = some (thread, .ensuring request path point))
    (events : List World.Event) (w' : World) (hRun : events.foldlM World.step w = some w')
    (hHeld : ∀ event ∈ events, event.isRelease = false) :
    events.countP World.Event.isEnsure + w'.stepsLeft ≤ w.stepsLeft ∧
    ∃ point', w'.lock = some (thread, .ensuring request path point') ∧
      ∀ outside, ∃ w'', w'.step (w'.holderEvent outside (.ensuring request path point')) =
        some w'' := by
  obtain ⟨hConsistent, hSeated, hSteps, point', hLock'⟩ :=
    held_run (reached_consistent hReached) (reached_seated hReached) hLock hRun hHeld
  exact ⟨hSteps, point', hLock', holder_step hConsistent hSeated hLock'⟩

/-- A request for a third model, with the loop in the middle of an eviction. -/
theorem crowded_given_back :
    ∃ w w', run (fun used available => decide (used ≤ available)) crowded = some w ∧
      w.stepsLeft = 10 ∧ [nothingFree, .accept, .ensure .remove].foldlM World.step w = some w' ∧
      (2 + w'.stepsLeft ≤ 10 ∧
        ∃ point', w'.lock = some (2, .ensuring .generate "painter.gguf".toList point') ∧
          ∀ outside, ∃ w'', w'.step (w'.holderEvent outside
            (.ensuring .generate "painter.gguf".toList point')) = some w'') := by
  have hPicked : ((run (fun used available => decide (used ≤ available)) crowded).bind fun w =>
      ([nothingFree, .accept, .ensure .remove].foldlM World.step w).map fun w' =>
        (w.lock, w.stepsLeft)) =
        some (some (2, .ensuring .generate "painter.gguf".toList (.making (.makeRoomFor 4))), 10) := by
    decide
  obtain ⟨w, hw, hSteps⟩ := Option.bind_eq_some_iff.mp hPicked
  obtain ⟨w', hw', hBoth⟩ := Option.map_eq_some_iff.mp hSteps
  obtain ⟨hLock, hLeft⟩ := Prod.mk.inj hBoth
  refine ⟨w, w', hw, hLeft, hw', ?_⟩
  rw [← hLeft]
  exact lock_given_back _ crowded w hw 2 _ _ _ hLock [nothingFree, .accept, .ensure .remove] w' hw'
    (by simp [nothingFree, World.Event.isRelease])

/-! ## The end of every connection -/

namespace Connection

/-- How many steps a connection takes to its end at most, when its client goes away. -/
def stepsLeft : Connection → Nat
  | .accepted => 1
  | .recording _ _ => 1
  | .opening _ _ => 2
  | .conversing _ _ _ => 2
  | .recordingTurn _ _ _ _ => 3
  | .closing _ => 1
  | .closed => 0

end Connection

/-- The step brings new work: a connection, a request or a turn. -/
def World.Event.isWork : World.Event → Bool
  | .accept => true
  | .lock _ _ _ => true
  | .turn _ => true
  | _ => false

namespace World

variable {w w' : World}

/-- A connection that has not ended has a step towards its end. -/
theorem connection_step (hFree : w.lock = none) {thread : Nat} {connection : Connection}
    (hConnection : w.connections[thread]? = some connection) (hOpen : connection ≠ .closed) :
    ∃ (event : Event) (state : SharedState) (connection' : Connection), event.isWork = false ∧
      w.step event = some ({ w with state }.setConnection thread connection') ∧
      connection'.stepsLeft < connection.stepsLeft := by
  have hGuard : (w.lock.map Prod.fst == some thread) = false := by
    rw [hFree]
    rfl
  cases connection with
  | accepted =>
    refine ⟨.disconnect thread, w.state, .closed, rfl, ?_, Nat.zero_lt_one⟩
    simp only [World.step, hGuard, hConnection]
  | recording path tokensGenerated =>
    refine ⟨.record thread 0, w.state.recordOutcome path tokensGenerated 0, .closed, rfl, ?_,
      Nat.zero_lt_one⟩
    simp only [World.step, hFree, hConnection]
  | opening path session =>
    refine ⟨.openConversation thread false, w.state, .closing session, rfl, ?_, Nat.one_lt_two⟩
    simp only [World.step, hConnection]
    rfl
  | conversing path session conversation =>
    refine ⟨.disconnect thread, w.state, .closing session, rfl, ?_, Nat.one_lt_two⟩
    simp only [World.step, hGuard, hConnection]
  | recordingTurn path session conversation tokensGenerated =>
    refine ⟨.record thread 0, w.state.recordOutcome path tokensGenerated 0,
      .conversing path session conversation, rfl, ?_, Nat.lt_succ_self 2⟩
    simp only [World.step, hFree, hConnection]
  | closing session =>
    refine ⟨.drop thread, w.state, .closed, rfl, ?_, Nat.zero_lt_one⟩
    simp only [World.step, hConnection]
  | closed => exact absurd rfl hOpen

/-- One member made less makes the sum less. -/
theorem sum_set_lt {l : List Nat} {i m n : Nat} (hi : l[i]? = some m) (hn : n < m) :
    (l.set i n).sum < l.sum := by
  induction l generalizing i with
  | nil => cases hi
  | cons k l ih =>
    cases i with
    | zero =>
      cases hi
      simp only [List.set_cons_zero, List.sum_cons]
      omega
    | succ i =>
      have hLess := ih hi
      simp only [List.set_cons_succ, List.sum_cons]
      omega

/-- With the lock free, every connection can come to its end, one step after the other. -/
theorem connections_end (hFree : w.lock = none) :
    ∃ (events : List Event) (w' : World), (∀ event ∈ events, event.isWork = false) ∧
      events.foldlM World.step w = some w' ∧ w'.lock = none ∧
      ∀ connection ∈ w'.connections, connection = .closed := by
  -- on the steps the connections have left, all together
  generalize hLeft : (w.connections.map Connection.stepsLeft).sum = left
  induction left using Nat.strong_induction_on generalizing w with
  | _ left ih =>
    by_cases hAll : ∀ connection ∈ w.connections, connection = .closed
    · exact ⟨[], w, by simp, rfl, hFree, hAll⟩
    · simp only [not_forall] at hAll
      obtain ⟨connection, hMem, hOpen⟩ := hAll
      obtain ⟨thread, hConnection⟩ := List.getElem?_of_mem hMem
      obtain ⟨event, state, connection', hWork, hStep, hLess⟩ :=
        connection_step hFree hConnection hOpen
      have hSum : (((w.connections.set thread connection').map Connection.stepsLeft)).sum < left := by
        rw [← hLeft, List.map_set]
        refine sum_set_lt ?_ hLess
        rw [List.getElem?_map, hConnection]
        rfl
      obtain ⟨events, w', hNone, hRun, hRest⟩ :=
        ih _ hSum (w := { w with state }.setConnection thread connection') hFree rfl
      refine ⟨event :: events, w', ?_, ?_, hRest⟩
      · intro other hOther
        rcases List.mem_cons.mp hOther with rfl | hOther
        · exact hWork
        · exact hNone other hOther
      · rw [List.foldlM_cons, hStep]
        exact hRun

/-- No memory, no file and no device: every load fails. -/
def nothingWorks : Outside where
  fileSize := 0
  mapping := { file := none, prefaultLatency := 0, now := 0 }
  probes := { systemFreeBytes := some 0, gpuMemoryBytes := none }
  resolves := false
  loads := false
  gpuFreeBefore := none
  gpuFreeAfter := none
  tokensGenerated := none

/-- A section under way comes to its end, even when nothing it asks for works. -/
theorem section_ends (h : w.Consistent) (hSeated : w.Seated)
    (hTurn : ∀ thread, w.lock ≠ some (thread, .turn)) :
    ∃ (events : List Event) (w' : World), (∀ event ∈ events, event.isWork = false) ∧
      events.foldlM World.step w = some w' ∧ w'.lock = none := by
  -- on the steps of `ensure_loaded` that are left
  generalize hLeft : w.stepsLeft = left
  induction left using Nat.strong_induction_on generalizing w with
  | _ left ih =>
    cases hLock : w.lock with
    | none => exact ⟨[], w, by simp, rfl, hLock⟩
    | some holder =>
      obtain ⟨thread, critical⟩ := holder
      obtain ⟨w1, hStep⟩ := holder_step h hSeated hLock nothingWorks
      have hEvent : (∃ input, w.holderEvent nothingWorks critical = .ensure input) ∨
          ∃ tokensGenerated, w.holderEvent nothingWorks critical = .release tokensGenerated := by
        unfold holderEvent
        split <;> first | exact .inl ⟨_, rfl⟩ | exact .inr ⟨_, rfl⟩
      obtain ⟨request, path, point, rfl⟩ :
          ∃ request path point, critical = .ensuring request path point := by
        cases critical with
        | ensuring request path point => exact ⟨request, path, point, rfl⟩
        | turn => exact absurd hLock (hTurn thread)
      rcases hEvent with ⟨input, hInput⟩ | ⟨tokensGenerated, hRelease⟩
      · rw [hInput] at hStep
        obtain ⟨⟨point', hLock'⟩, hLess⟩ := ensure_held h hStep hLock
        have hTurn' : ∀ thread, w1.lock ≠ some (thread, .turn) := by
          intro thread hHeld
          rw [hLock'] at hHeld
          cases hHeld
        obtain ⟨events, w', hNone, hRun, hFree⟩ :=
          ih _ (hLeft ▸ hLess) (h.step (step_cases hStep)) (hSeated.step hStep) hTurn' rfl
        refine ⟨.ensure input :: events, w', ?_, ?_, hFree⟩
        · intro other hOther
          rcases List.mem_cons.mp hOther with rfl | hOther
          · rfl
          · exact hNone other hOther
        · rw [List.foldlM_cons, hStep]
          exact hRun
      · rw [hRelease] at hStep
        refine ⟨[.release tokensGenerated], w1, ?_, ?_, release_frees hStep⟩
        · intro other hOther
          rw [List.mem_singleton.mp hOther]
          rfl
        · rw [List.foldlM_cons, hStep]
          rfl

/-- With every connection at its end, a loaded model has no reference but the map's, and
its eviction succeeds. -/
theorem evictable_of_closed (h : w.Consistent) (hAddressed : w.Addressed) (hFree : w.lock = none)
    (hClosed : ∀ connection ∈ w.connections, connection = .closed) {path : Path}
    {session : SessionArc} (hSession : w.state.sessions.lookup path = some session) :
    w.sessionCount session = 1 ∧
      (w.state.registry.evict ({ w with state := w.state.forget path } : World).handles
        session.id).1 = .ok () := by
  have hUnheld : ∀ connection ∈ w.connections, ∀ other, connection.session? ≠ some other := by
    intro connection hConnection other hOwn
    rw [hClosed connection hConnection] at hOwn
    cases hOwn
  refine ⟨(sessionCount_eq_one_iff h hAddressed hSession).mpr ?_, ?_⟩
  · rintro ⟨connection, hConnection, hOwn⟩
    exact hUnheld connection hConnection session hOwn
  · -- the session's own handle goes with it, and there is no other
    have hUnused : Unused w.state w.connections session.id path :=
      ⟨session, hSession, rfl, fun connection hConnection => hUnheld connection hConnection session⟩
    obtain ⟨hForgotten, hResident, hNone⟩ := h.toConsistent.forget hUnused
    have hRest : ({ w with state := w.state.forget path } : World).Consistent := by
      refine ⟨hForgotten, ?_⟩
      intro thread request path point hLock
      rw [hFree] at hLock
      cases hLock
    refine (SwapRegistry.evict_ok_iff hForgotten.wellFormed (fun _ => hRest.holds) _).mpr
      ⟨hResident, ?_⟩
    intro handle hHandle
    rcases hRest.handle_cases hHandle with ⟨path', other, hOther, rfl⟩ | ⟨holder, hHolder, -⟩
    · exact hNone path' other hOther
    · rw [hFree] at hHolder
      cases hHolder

end World

/-- **Nothing is left over.** From every state reached in which no turn is under way, there
is a way to the end of all connections without any new work; and there each loaded model is
held by the map alone, and can be evicted. -/
theorem daemon_drains (withinBudget : Nat → Nat → Bool) (reached : List World.Event) (w : World)
    (hReached : run withinBudget reached = some w)
    (hTurn : ∀ thread, w.lock ≠ some (thread, .turn)) :
    ∃ (events : List World.Event) (w' : World), (∀ event ∈ events, event.isWork = false) ∧
      events.foldlM World.step w = some w' ∧ w'.lock = none ∧
      (∀ connection ∈ w'.connections, connection = .closed) ∧
      ∀ path session, w'.state.sessions.lookup path = some session →
        w'.sessionCount session = 1 ∧
          (w'.state.registry.evict ({ w' with state := w'.state.forget path } : World).handles
            session.id).1 = .ok () := by
  have h := reached_consistent hReached
  have hAddressed := reached_addressed hReached
  -- first the section under way, then one connection after the other
  obtain ⟨unlocking, w1, hNone, hRun, hFree⟩ := section_ends h (reached_seated hReached) hTurn
  obtain ⟨ending, w2, hNone', hRun', hFree', hClosed⟩ := connections_end hFree
  have hWhole : (unlocking ++ ending).foldlM World.step w = some w2 := by
    rw [List.foldlM_append, hRun]
    exact hRun'
  refine ⟨unlocking ++ ending, w2, ?_, hWhole, hFree', hClosed, ?_⟩
  · intro event hEvent
    rcases List.mem_append.mp hEvent with hEvent | hEvent
    · exact hNone event hEvent
    · exact hNone' event hEvent
  · obtain ⟨hConsistent, hAddressed'⟩ := foldlM_invariant (fun w => w.Consistent ∧ w.Addressed)
      ⟨h, hAddressed⟩ (fun _ _ _ _ h hStep => ⟨h.1.step (step_cases hStep), h.2.step (step_cases hStep)⟩)
      hWhole
    intro path session hSession
    exact evictable_of_closed hConsistent hAddressed' hFree' hClosed hSession

theorem crowded_drains :
    ∃ w, run (fun used available => decide (used ≤ available)) crowded = some w ∧
      w.connections.length = 3 ∧
      ∃ (events : List World.Event) (w' : World), (∀ event ∈ events, event.isWork = false) ∧
        events.foldlM World.step w = some w' ∧ w'.lock = none ∧
        (∀ connection ∈ w'.connections, connection = .closed) ∧
        ∀ path session, w'.state.sessions.lookup path = some session →
          w'.sessionCount session = 1 ∧
            (w'.state.registry.evict ({ w' with state := w'.state.forget path } : World).handles
              session.id).1 = .ok () := by
  have hThree : (run (fun used available => decide (used ≤ available)) crowded).map
      (fun w => (w.connections.length, w.lock)) =
        some (3, some (2, .ensuring .generate "painter.gguf".toList (.making (.makeRoomFor 4)))) := by
    decide
  obtain ⟨w, hw, hBoth⟩ := Option.map_eq_some_iff.mp hThree
  obtain ⟨hLength, hLock⟩ := Prod.mk.inj hBoth
  refine ⟨w, hw, hLength, daemon_drains _ crowded w hw ?_⟩
  intro thread hTurn
  rw [hLock] at hTurn
  cases hTurn

end Rampipe
