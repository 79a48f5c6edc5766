import Rampipe.Results.Eviction

/-!
# Rampipe — the statistics of a model and its residency

`model_stats` is documented to have the lifetime of `sessions`: an entry goes when
its model is evicted. A request's generation and the record of its outcome are
two sections under the lock, and between them any other thread may evict the model.
A turn keeps its model pinned; a request that stands alone does not.

* `reached_named`          — a thread's session is the one under the path it works on.
* `current_step`           — what one step does to the statistics.
* `statistics_current_iff` — they are those of the loaded models, in every state of a
  run, exactly when every outcome finds its model still loaded.
* `lateRecord_stale`       — a run in which one does not.
-/

namespace Rampipe

open World

/-! ## Sessions and paths -/

/-- The path a thread works on, with the session it holds for it. -/
def Connection.named? : Connection → Option (Path × SessionArc)
  | .opening path session => some (path, session)
  | .conversing path session _ => some (path, session)
  | .recordingTurn path session _ _ => some (path, session)
  | _ => none

/-- A connection that names a session holds it. -/
theorem Connection.session?_of_named? {connection : Connection} {path : Path} {session : SessionArc}
    (h : connection.named? = some (path, session)) : connection.session? = some session := by
  match connection, h with
  | .opening _ _, h =>
    cases h
    rfl
  | .conversing _ _ _, h =>
    cases h
    rfl
  | .recordingTurn _ _ _ _, h =>
    cases h
    rfl

/-- Every session a thread holds is for the path the thread works on. -/
def Named (connections : List Connection) : Prop :=
  ∀ connection ∈ connections, ∀ path session, connection.named? = some (path, session) →
    session.handle.inner.path = path

namespace World

variable {w w' : World}

/-- Names stay right when a connection changes to one that is. -/
theorem named_setConnection (h : Named w.connections) (thread : Nat) {connection : Connection}
    (hNamed : ∀ path session, connection.named? = some (path, session) →
      session.handle.inner.path = path) : Named (w.setConnection thread connection).connections := by
  intro other hOther path session hOwn
  rcases List.mem_or_eq_of_mem_set hOther with hOther | rfl
  · exact h other hOther path session hOwn
  · exact hNamed path session hOwn

/-- A thread that goes on with the session it has. -/
theorem named_same (h : Named w.connections) {thread : Nat} {before connection : Connection}
    (hBefore : w.connections[thread]? = some before) (hSame : connection.named? = before.named?) :
    Named (w.setConnection thread connection).connections := by
  refine named_setConnection h thread ?_
  intro path session hOwn
  exact h before (List.mem_of_getElem? hBefore) path session (by rw [← hSame, hOwn])

/-- Every step keeps the names right. -/
theorem named_step (hConsistent : w.Consistent) (h : Named w.connections) {event : World.Event}
    (hStep : Step w event w') : Named w'.connections := by
  have hFree : Named ({ w with lock := none } : World).connections := h
  cases hStep with
  | accept =>
    intro other hOther path session hOwn
    rcases List.mem_append.mp hOther with hOther | hNew
    · exact h other hOther path session hOwn
    · rw [List.mem_singleton.mp hNew] at hOwn
      cases hOwn
  | lock _ _ => exact h
  | ensure _ _ => exact h
  | generated _ => exact named_setConnection hFree _ (by simp [Connection.named?])
  | generateFailed _ => exact named_setConnection hFree _ (by simp [Connection.named?])
  | cloned _ hSession =>
    -- the session under a path is for that path
    refine named_setConnection hFree _ ?_
    intro path session hOwn
    cases hOwn
    exact (hConsistent.sessions _ _ hSession).2
  | dismissed _ _ => exact named_setConnection hFree _ (by simp [Connection.named?])
  | turnDone _ hConnection => exact named_same hFree hConnection rfl
  | record _ _ => exact named_setConnection h _ (by simp [Connection.named?])
  | recordTurn _ hConnection => exact named_same h hConnection rfl
  | openConversation hConnection => exact named_same h hConnection rfl
  | turn _ _ => exact h
  | snapshotFailed hConnection => exact named_same h hConnection rfl
  | close _ _ => exact named_setConnection h _ (by simp [Connection.named?])
  | leave _ _ => exact named_setConnection h _ (by simp [Connection.named?])

/-- The model a thread works on is loaded. -/
theorem Consistent.mem_sessions (h : w.Consistent) (hNamed : Named w.connections)
    {connection : Connection} (hConnection : connection ∈ w.connections) {path : Path}
    {session : SessionArc} (hOwn : connection.named? = some (path, session)) :
    path ∈ w.state.sessions := by
  have hMapped := h.mapped connection hConnection session (Connection.session?_of_named? hOwn)
  rw [hNamed connection hConnection path session hOwn] at hMapped
  exact HashMap.mem_iff_exists_lookup.mpr ⟨session, hMapped⟩

end World

/-! ## The statistics -/

/-- The counters are those of loaded models. -/
def SharedState.StatisticsCurrent (state : SharedState) : Prop :=
  ∀ path ∈ state.modelStats, path ∈ state.sessions

namespace SharedState

variable {state : SharedState}

/-- The statistics stay current when a model goes. -/
theorem StatisticsCurrent.forget (h : state.StatisticsCurrent) (evictPath : Path) :
    (state.forget evictPath).StatisticsCurrent := by
  intro path hPath
  obtain ⟨hNe, hPath⟩ := AList.mem_erase.mp hPath
  exact AList.mem_erase.mpr ⟨hNe, h path hPath⟩

/-- And when one comes. -/
theorem StatisticsCurrent.insertSession (h : state.StatisticsCurrent) (path : Path)
    (session : SessionArc) (gpuFreeBefore gpuFreeAfter : Option Nat) :
    (state.insertSession path session gpuFreeBefore gpuFreeAfter).StatisticsCurrent := by
  intro path' hPath'
  exact (AList.mem_insert _).mpr (Or.inr (h path' hPath'))

/-- And when an outcome is recorded whose model is loaded. -/
theorem StatisticsCurrent.recordOutcome (h : state.StatisticsCurrent) {path : Path}
    {tokensGenerated : Option Nat} (now : Nat)
    (hLoaded : tokensGenerated.isSome → path ∈ state.sessions) :
    (state.recordOutcome path tokensGenerated now).StatisticsCurrent := by
  match tokensGenerated with
  | none => exact h
  | some tokens =>
    intro path' hPath'
    rcases (AList.mem_insert _).mp hPath' with rfl | hPath'
    · exact hLoaded rfl
    · exact h path' hPath'

/-- One step of `ensure_loaded` never parts the counters from the sessions, and a
model it adds to them has none. -/
theorem StatisticsCurrent.ensureStep (h : state.StatisticsCurrent) {held : Held} {path : Path}
    {point point' : Point} {input : Input} {state' : SharedState}
    (hStep : EnsureStep state held path point input state' point') :
    state'.StatisticsCurrent ∧
      ∀ path', path' ∉ state.sessions → path' ∈ state'.sessions → path' ∉ state'.modelStats := by
  -- counters that stay as they are belong to models that were loaded before
  have hKept : state'.modelStats = state.modelStats →
      ∀ path', path' ∉ state.sessions → path' ∈ state'.sessions → path' ∉ state'.modelStats := by
    intro hEq path' hNew _ hStats
    rw [hEq] at hStats
    exact hNew (h path' hStats)
  cases hStep with
  | hit _ _ => exact ⟨h, hKept rfl⟩
  | hitFailed _ _ => exact ⟨h, hKept rfl⟩
  | miss _ => exact ⟨h, hKept rfl⟩
  | pick _ _ _ => exact ⟨h, hKept rfl⟩
  | roomMade => exact ⟨h, hKept rfl⟩
  | deviceRoomMade => exact ⟨h, hKept rfl⟩
  | @remove loop evictId evictPath =>
    refine ⟨h.forget evictPath, ?_⟩
    intro path' hNew hMem
    exact absurd (AList.mem_erase.mp hMem).2 hNew
  | evict _ => exact ⟨h, hKept rfl⟩
  | evictFailed _ => exact ⟨h, hKept rfl⟩
  | map _ => exact ⟨h, hKept rfl⟩
  | mapFailed _ => exact ⟨h, hKept rfl⟩
  | resolve => exact ⟨h, hKept rfl⟩
  | resolveFailed => exact ⟨h, hKept rfl⟩
  | insert => exact ⟨h.insertSession _ _ _ _, hKept rfl⟩
  | loadFailed => exact ⟨h, hKept rfl⟩

/-- A model without counters is reported with zeros. -/
theorem modelStatuses_eq_zero {path : Path} (hPath : path ∉ state.modelStats) {status : ModelStatus}
    (hStatus : status ∈ state.modelStatuses) (hFor : status.path = path) :
    status = { path, requestsServed := 0, tokensGenerated := 0, lastUsedUnixSecs := 0 } := by
  obtain ⟨path', -, rfl⟩ := List.mem_map.mp hStatus
  obtain rfl : path' = path := hFor
  have hNone : state.modelStats.lookup path' = none := AList.lookup_eq_none.mpr hPath
  simp [hNone]

end SharedState

/-! ## Every state reached -/

/-- Where the step records that a request of its own went well, the request's model is
still loaded. -/
def World.RecordsLoaded (w : World) : Event → Prop
  | .record thread _ => ∀ path tokens,
      w.connections[thread]? = some (.recording path (some tokens)) → path ∈ w.state.sessions
  | _ => True

namespace World

variable {w w' : World}

/-- What one step does to the statistics, when it does not record an outcome for a
model that has gone. -/
theorem current_step (hConsistent : w.Consistent) (hNamed : Named w.connections)
    (h : w.state.StatisticsCurrent) {event : World.Event} (hLoaded : w.RecordsLoaded event)
    (hStep : Step w event w') :
    w'.state.StatisticsCurrent ∧
      ∀ path, path ∉ w.state.sessions → path ∈ w'.state.sessions → path ∉ w'.state.modelStats := by
  have hSame : ∀ path, path ∉ w.state.sessions → path ∈ w.state.sessions →
      path ∉ w.state.modelStats := fun path hNew hMem => absurd hMem hNew
  -- an outcome changes no session
  have hRecord : ∀ path tokensGenerated now, (tokensGenerated.isSome → path ∈ w.state.sessions) →
      (w.state.recordOutcome path tokensGenerated now).StatisticsCurrent ∧
        ∀ path', path' ∉ w.state.sessions →
          path' ∈ (w.state.recordOutcome path tokensGenerated now).sessions →
            path' ∉ (w.state.recordOutcome path tokensGenerated now).modelStats := by
    intro path tokensGenerated now hMem
    refine ⟨h.recordOutcome now hMem, ?_⟩
    intro path' hNew hMem'
    match tokensGenerated, hMem' with
    | none, hMem' => exact absurd hMem' hNew
    | some _, hMem' => exact absurd hMem' hNew
  cases hStep with
  | accept => exact ⟨h, hSame⟩
  | lock _ _ => exact ⟨h, hSame⟩
  | ensure _ hEnsure => exact h.ensureStep hEnsure
  | generated _ => exact ⟨h, hSame⟩
  | generateFailed _ => exact ⟨h, hSame⟩
  | cloned _ _ => exact ⟨h, hSame⟩
  | dismissed _ _ => exact ⟨h, hSame⟩
  | turnDone _ _ => exact ⟨h, hSame⟩
  | @record thread now path tokensGenerated _ hConnection =>
    refine hRecord path tokensGenerated now ?_
    intro hSome
    obtain ⟨tokens, rfl⟩ := Option.isSome_iff_exists.mp hSome
    exact hLoaded path tokens hConnection
  | recordTurn _ hConnection =>
    -- the thread still holds its session, so the model was not evicted
    exact hRecord _ _ _ fun _ =>
      hConsistent.mem_sessions hNamed (List.mem_of_getElem? hConnection) rfl
  | openConversation _ => exact ⟨h, hSame⟩
  | turn _ _ => exact ⟨h, hSame⟩
  | snapshotFailed _ => exact ⟨h, hSame⟩
  | close _ _ => exact ⟨h, hSame⟩
  | leave _ _ => exact ⟨h, hSame⟩

/-- An outcome for a model that has gone leaves counters without a session. -/
theorem stale_of_record {thread now : Nat} {path : Path} {tokens : Nat}
    (hStep : w.step (.record thread now) = some w')
    (hConnection : w.connections[thread]? = some (.recording path (some tokens)))
    (hGone : path ∉ w.state.sessions) : ¬ w'.state.StatisticsCurrent := by
  intro hCurrent
  dsimp only [World.step] at hStep
  rw [hConnection] at hStep
  match hLock : w.lock with
  | none =>
    rw [hLock] at hStep
    cases hStep
    exact hGone (hCurrent path ((AList.mem_insert _).mpr (Or.inl rfl)))
  | some _ =>
    rw [hLock] at hStep
    cases hStep

/-- What holds beside the statistics in every state reached. -/
theorem reached_named {withinBudget : Nat → Nat → Bool} {events : List World.Event}
    (hRun : run withinBudget events = some w) : w.Consistent ∧ Named w.connections := by
  refine foldlM_invariant (fun w => w.Consistent ∧ Named w.connections) ?_ ?_ hRun
  · refine ⟨consistent_start withinBudget, ?_⟩
    intro connection hConnection
    cases hConnection
  · intro t event t' _ ht hNext
    have hStep := step_cases hNext
    exact ⟨ht.1.step hStep, named_step ht.1 ht.2 hStep⟩

/-- So they are current as long as outcomes are recorded in time. -/
theorem reached_current {withinBudget : Nat → Nat → Bool} {events : List World.Event}
    (hLoaded : ∀ before event after w₁, events = before ++ event :: after →
      run withinBudget before = some w₁ → w₁.RecordsLoaded event)
    (hRun : run withinBudget events = some w) : w.state.StatisticsCurrent := by
  have hAll : w.Consistent ∧ Named w.connections ∧ w.state.StatisticsCurrent := by
    refine foldlM_invariant_of_guard World.RecordsLoaded
      (fun w => w.Consistent ∧ Named w.connections ∧ w.state.StatisticsCurrent) ?_ hLoaded ?_ hRun
    · refine ⟨consistent_start withinBudget, ?_, ?_⟩
      · intro connection hConnection
        cases hConnection
      · intro path hPath
        exact absurd hPath (AList.notMem_empty path)
    · intro t event t' ht hGuard hNext
      have hStep := step_cases hNext
      exact ⟨ht.1.step hStep, named_step ht.1 ht.2.1 hStep,
        (current_step ht.1 ht.2.1 ht.2.2 hGuard hStep).1⟩
  exact hAll.2.2

/-- The first part of a run that goes through goes through too. -/
theorem run_append {withinBudget : Nat → Nat → Bool} {before after : List World.Event} :
    run withinBudget (before ++ after) =
      (run withinBudget before).bind fun w => after.foldlM step w := by
  unfold run
  rw [List.foldlM_append]
  rfl

end World

namespace World

/-- In every state of the run the counters are those of the loaded models, and a model
that comes to be loaded is reported with zeros. -/
def CurrentThroughout (withinBudget : Nat → Nat → Bool) (events : List World.Event) : Prop :=
  (∀ before after w, events = before ++ after → run withinBudget before = some w →
    w.state.StatisticsCurrent) ∧
  ∀ before event after w w', events = before ++ event :: after →
    run withinBudget before = some w → w.step event = some w' →
      ∀ path, path ∉ w.state.sessions → path ∈ w'.state.sessions →
        ∀ status ∈ w'.state.modelStatuses, status.path = path →
          status = { path, requestsServed := 0, tokensGenerated := 0, lastUsedUnixSecs := 0 }

/-- Every request that went well is recorded while its model is still loaded. -/
def RecordedWhileLoaded (withinBudget : Nat → Nat → Bool) (events : List World.Event) : Prop :=
  ∀ before event after w, events = before ++ event :: after → run withinBudget before = some w →
    w.RecordsLoaded event

end World

/-- **Statistics and residency.** Along a run the statistics describe the current
residency of each model exactly when no model is evicted between a request's answer
and the record of its outcome. -/
theorem statistics_current_iff (withinBudget : Nat → Nat → Bool) (events : List World.Event)
    (w : World) (hRun : run withinBudget events = some w) :
    CurrentThroughout withinBudget events ↔ RecordedWhileLoaded withinBudget events := by
  constructor
  · rintro ⟨hCurrent, -⟩ before event after w₁ hEvents hBefore
    match event, hEvents with
    | .record thread now, hEvents =>
      intro path tokens hConnection
      by_contra hGone
      -- the step itself went through
      rw [hEvents, run_append, hBefore, Option.bind_some, List.foldlM_cons] at hRun
      obtain ⟨w₂, hStep, -⟩ := Option.bind_eq_some_iff.mp hRun
      refine stale_of_record hStep hConnection hGone
        (hCurrent (before ++ [.record thread now]) after w₂ (by simp [hEvents]) ?_)
      rw [run_append, hBefore]
      show List.foldlM World.step w₁ [.record thread now] = some w₂
      rw [List.foldlM_cons, hStep]
      rfl
    | .accept, _ => trivial
    | .lock _ _ _, _ => trivial
    | .ensure _, _ => trivial
    | .release _, _ => trivial
    | .openConversation _ _, _ => trivial
    | .turn _, _ => trivial
    | .snapshot _ _, _ => trivial
    | .disconnect _, _ => trivial
    | .drop _, _ => trivial
  · intro hLoaded
    have hEarlier : ∀ before after w₁, events = before ++ after →
        run withinBudget before = some w₁ → w₁.state.StatisticsCurrent := by
      intro before after w₁ hEvents hBefore
      refine reached_current ?_ hBefore
      intro start event rest w₀ hStart hRun₀
      exact hLoaded start event (rest ++ after) w₀ (by rw [hEvents, hStart]; simp) hRun₀
    refine ⟨hEarlier, ?_⟩
    intro before event after w₁ w₂ hEvents hBefore hStep path hNew hMem status hStatus hFor
    obtain ⟨hConsistent, hNamed⟩ := reached_named hBefore
    have hNone := (current_step hConsistent hNamed
      (hEarlier before (event :: after) w₁ hEvents hBefore)
      (hLoaded before event after w₁ hEvents hBefore) (step_cases hStep)).2 path hNew hMem
    exact SharedState.modelStatuses_eq_zero hNone hStatus hFor

/-- One thread's request is answered and recorded, another's conversation has a turn. Before
that turn is recorded, a third thread evicts the first one's model for another. -/
def promptRecord : List World.Event :=
  [.accept, .accept, .accept] ++ ((loads 0 .generate "coder.gguf" []).dropLast ++
    ([.release (some 3), .record 0 20] ++ (loads 1 .openConversation "writer.gguf" [⟨0⟩] ++
      [.openConversation 1 true, .turn 1, .release (some 5), .lock 2 .embed "painter.gguf".toList,
        .ensure (.check 4 tinyFile),
        .ensure (.probe { systemFreeBytes := some 0, gpuMemoryBytes := none } [⟨0⟩, ⟨1⟩]),
        .ensure .remove, .ensure .evict,
        .ensure (.probe { systemFreeBytes := some 0, gpuMemoryBytes := none } [⟨1⟩]),
        .ensure (.load tinyFile), .ensure (.resolveParams true),
        .ensure (.loadModel true none none), .release none, .record 1 30])))

set_option maxRecDepth 4096 in
/-- The counters of the model that stays are its own, and the new one begins with none. -/
theorem promptRecord_current_iff :
    ∃ w, run (fun used available => decide (used ≤ available)) promptRecord = some w ∧
      w.state.modelStatuses = [{
        path := "painter.gguf".toList, requestsServed := 0, tokensGenerated := 0
        lastUsedUnixSecs := 0 }, {
        path := "writer.gguf".toList, requestsServed := 1, tokensGenerated := 5
        lastUsedUnixSecs := 30 }] ∧
      (CurrentThroughout (fun used available => decide (used ≤ available)) promptRecord ↔
        RecordedWhileLoaded (fun used available => decide (used ≤ available)) promptRecord) := by
  have hRun : (run (fun used available => decide (used ≤ available)) promptRecord).map
      (fun w => w.state.modelStatuses) = some [{
        path := "painter.gguf".toList, requestsServed := 0, tokensGenerated := 0
        lastUsedUnixSecs := 0 }, {
        path := "writer.gguf".toList, requestsServed := 1, tokensGenerated := 5
        lastUsedUnixSecs := 30 }] := by
    decide
  obtain ⟨w, hw, hStatuses⟩ := Option.map_eq_some_iff.mp hRun
  exact ⟨w, hw, hStatuses, statistics_current_iff _ promptRecord w hw⟩

/-- A request is answered. Before its outcome is recorded, a request for another model
evicts its model. -/
def lateRecord : List World.Event :=
  [.accept, .accept, .accept] ++ ((loads 0 .generate "coder.gguf" []).dropLast ++
    [.release (some 3), .lock 1 .embed "writer.gguf".toList, .ensure (.check 4 tinyFile),
      .ensure (.probe { systemFreeBytes := some 0, gpuMemoryBytes := none } [⟨0⟩]),
      .ensure .remove, .ensure .evict,
      .ensure (.probe { systemFreeBytes := some 0, gpuMemoryBytes := none } []),
      .ensure (.load tinyFile), .ensure (.resolveParams true),
      .ensure (.loadModel true none none), .release none, .record 0 20])

/-- The counters outlive the model's stay, and the next one begins with them. -/
theorem lateRecord_stale :
    (∃ w, run (fun used available => decide (used ≤ available)) lateRecord = some w ∧
      "coder.gguf".toList ∈ w.state.modelStats ∧ "coder.gguf".toList ∉ w.state.sessions) ∧
    ∃ w, run (fun used available => decide (used ≤ available))
        (lateRecord ++ loads 2 .embed "coder.gguf" [⟨1⟩]) = some w ∧
      { path := "coder.gguf".toList, requestsServed := 1, tokensGenerated := 3
        lastUsedUnixSecs := 20 } ∈ w.state.modelStatuses := by
  have hLate : (run (fun used available => decide (used ≤ available)) lateRecord).map
      (fun w => (w.state.modelStats.keys, w.state.sessions.keys)) =
        some (["coder.gguf".toList], ["writer.gguf".toList]) := by
    decide
  have hAgain : (run (fun used available => decide (used ≤ available))
      (lateRecord ++ loads 2 .embed "coder.gguf" [⟨1⟩])).map (fun w => w.state.modelStatuses) =
        some [{
          path := "coder.gguf".toList, requestsServed := 1, tokensGenerated := 3
          lastUsedUnixSecs := 20 }, {
          path := "writer.gguf".toList, requestsServed := 0, tokensGenerated := 0
          lastUsedUnixSecs := 0 }] := by
    decide
  obtain ⟨w, hw, hKeys⟩ := Option.map_eq_some_iff.mp hLate
  obtain ⟨hStats, hSessions⟩ := Prod.mk.inj hKeys
  obtain ⟨w', hw', hStatuses⟩ := Option.map_eq_some_iff.mp hAgain
  refine ⟨⟨w, hw, ?_, ?_⟩, w', hw', ?_⟩
  · rw [AList.mem_keys, hStats]
    exact List.mem_singleton.mpr rfl
  · rw [AList.mem_keys, hSessions]
    decide
  · rw [hStatuses]
    exact List.mem_cons_self

end Rampipe
