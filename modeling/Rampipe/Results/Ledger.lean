import Rampipe.Results.Progress
import Rampipe.Results.Statistics

/-!
# Rampipe — the daemon's counters and its history

A request is answered in one section under the lock and recorded in another, and between
them every other thread may record outcomes of its own, or evict the model. The history of
a run says what was answered, what was recorded, and which models went; the counters that
`status` reports are what the history comes to.

* `World.entries`  — what one step adds to the history.
* `World.Booked`   — the counters, and the answers that wait to be recorded, are those of a
                     history.
* `Booked.step`    — which every step keeps.
* `history_booked` — over every run: no answer is lost or counted twice, the daemon's
                     counters are those of all that was recorded, and a model's are those of
                     what was recorded since it last went.
-/

namespace Rampipe

open World

/-! ## Histories -/

/-- The outcome of a request: its tokens, if it went well. -/
structure Answer where
  path : Path
  tokensGenerated : Option Nat
  deriving DecidableEq

inductive LedgerEntry
  | answered (answer : Answer)
  | recorded (answer : Answer) (now : Nat)
  | evicted (path : Path)

namespace LedgerEntry

def answer? : LedgerEntry → Option Answer
  | .answered answer => some answer
  | _ => none

def record? : LedgerEntry → Option Answer
  | .recorded answer _ => some answer
  | _ => none

/-- What an entry makes of a model's successes since it last went. -/
def residency (path : Path) (successes : List (Nat × Nat)) : LedgerEntry → List (Nat × Nat)
  | .recorded answer now =>
    match answer.tokensGenerated with
    | some tokens => if answer.path = path then successes ++ [(tokens, now)] else successes
    | none => successes
  | .evicted evictPath => if evictPath = path then [] else successes
  | .answered _ => successes

end LedgerEntry

def answers (history : List LedgerEntry) : List Answer := history.filterMap LedgerEntry.answer?

def records (history : List LedgerEntry) : List Answer := history.filterMap LedgerEntry.record?

/-- A model's successes since it last went: the tokens of each, and when it was recorded. -/
def successes (path : Path) (history : List LedgerEntry) : List (Nat × Nat) :=
  history.foldl (LedgerEntry.residency path) []

/-- The counters of a model with these successes. -/
def ModelStats.of (successes : List (Nat × Nat)) : Option ModelStats :=
  successes.getLast?.map fun last => {
    requestsServed := successes.length
    tokensGenerated := (successes.map Prod.fst).sum
    lastUsedUnixSecs := last.2 }

/-- The answer a connection's thread has yet to record. -/
def Connection.pending? : Connection → Option Answer
  | .recording path tokensGenerated => some { path, tokensGenerated }
  | .recordingTurn path _ _ tokensGenerated => some { path, tokensGenerated }
  | _ => none

structure Counters where
  requestsServed : Nat
  requestsFailed : Nat
  totalTokensGenerated : Nat
  modelStats : HashMap Path ModelStats

def SharedState.counters (state : SharedState) : Counters where
  requestsServed := state.requestsServed
  requestsFailed := state.requestsFailed
  totalTokensGenerated := state.totalTokensGenerated
  modelStats := state.modelStats

namespace World

/-- What a step adds to the history. -/
def entries (w : World) : Event → List LedgerEntry
  | .release tokensGenerated =>
    match w.lock with
    | some (_, .ensuring .generate path .loaded) => [.answered { path, tokensGenerated }]
    | some (_, .ensuring .generate path .failed) =>
      [.answered { path, tokensGenerated := none }]
    | some (thread, .turn) =>
      match w.connections[thread]? with
      | some (.conversing path _ _) => [.answered { path, tokensGenerated }]
      | _ => []
    | _ => []
  | .record thread now =>
    ((w.connections[thread]?.bind Connection.pending?).map fun answer =>
      .recorded answer now).toList
  | .ensure .remove =>
    match w.lock with
    | some (_, .ensuring _ _ (.picked _ _ evictPath)) => [.evicted evictPath]
    | _ => []
  | _ => []

/-- The history of the steps from a state on. -/
def history (w : World) : List Event → List LedgerEntry
  | [] => []
  | event :: events =>
    w.entries event ++
      match w.step event with
      | some w' => history w' events
      | none => []

/-- The answers whose record is still to come. -/
def pending (w : World) : List Answer := w.connections.filterMap Connection.pending?

end World

/-- The counters are those of a history. -/
structure Counters.Of (counters : Counters) (history : List LedgerEntry) : Prop where
  served : counters.requestsServed =
    ((records history).filterMap Answer.tokensGenerated).length
  failed : counters.requestsFailed = (records history).countP (·.tokensGenerated.isNone)
  tokens : counters.totalTokensGenerated = ((records history).filterMap Answer.tokensGenerated).sum
  models : ∀ path, counters.modelStats.lookup path = ModelStats.of (successes path history)

section

variable (history : List LedgerEntry) (answer : Answer) (path : Path) (now : Nat)

/-- An answer is one of the history's. -/
@[simp] theorem answers_answered :
    answers (history ++ [.answered answer]) = answers history ++ [answer] := List.filterMap_append

/-- A record is none. -/
@[simp] theorem answers_recorded :
    answers (history ++ [.recorded answer now]) = answers history := by
  rw [answers, List.filterMap_append]
  exact List.append_nil _

/-- Neither is an eviction. -/
@[simp] theorem answers_evicted : answers (history ++ [.evicted path]) = answers history := by
  rw [answers, List.filterMap_append]
  exact List.append_nil _

/-- Nothing is recorded by an answer. -/
@[simp] theorem records_answered :
    records (history ++ [.answered answer]) = records history := by
  rw [records, List.filterMap_append]
  exact List.append_nil _

/-- A record is. -/
@[simp] theorem records_recorded :
    records (history ++ [.recorded answer now]) = records history ++ [answer] := List.filterMap_append

/-- An eviction records nothing. -/
@[simp] theorem records_evicted : records (history ++ [.evicted path]) = records history := by
  rw [records, List.filterMap_append]
  exact List.append_nil _

end

/-- A model's successes are carried on entry by entry. -/
@[simp] theorem successes_snoc (path : Path) (history : List LedgerEntry) (entry : LedgerEntry) :
    successes path (history ++ [entry]) = entry.residency path (successes path history) :=
  List.foldl_append

/-- One more success, with the counters as `record_outcome` leaves them. -/
theorem ModelStats.of_snoc (successes : List (Nat × Nat)) (tokens now : Nat) :
    ModelStats.of (successes ++ [(tokens, now)]) = some {
      requestsServed := ((ModelStats.of successes).getD
        { requestsServed := 0, tokensGenerated := 0, lastUsedUnixSecs := 0 }).requestsServed + 1
      tokensGenerated := ((ModelStats.of successes).getD
        { requestsServed := 0, tokensGenerated := 0, lastUsedUnixSecs := 0 }).tokensGenerated + tokens
      lastUsedUnixSecs := now } := by
  rcases List.eq_nil_or_concat successes with rfl | ⟨before, last, rfl⟩
  · simp [ModelStats.of]
  · simp [ModelStats.of]
    omega

namespace Counters.Of

variable {state : SharedState} {history : List LedgerEntry}

/-- The counters do not see an answer. -/
theorem answered (h : state.counters.Of history) (answer : Answer) :
    state.counters.Of (history ++ [.answered answer]) where
  served := by rw [records_answered, h.served]
  failed := by rw [records_answered, h.failed]
  tokens := by rw [records_answered, h.tokens]
  models path := by
    rw [successes_snoc]
    exact h.models path

/-- An eviction takes the model's counters away. -/
theorem evicted (h : state.counters.Of history) (evictPath : Path) :
    (state.forget evictPath).counters.Of (history ++ [.evicted evictPath]) where
  served := by
    rw [records_evicted]
    exact h.served
  failed := by
    rw [records_evicted]
    exact h.failed
  tokens := by
    rw [records_evicted]
    exact h.tokens
  models path := by
    rw [successes_snoc]
    show (state.modelStats.erase evictPath).lookup path = _
    by_cases hPath : evictPath = path
    · subst hPath
      simp [LedgerEntry.residency, ModelStats.of]
    · rw [AList.lookup_erase_ne (Ne.symm hPath)]
      simp only [LedgerEntry.residency, if_neg hPath]
      exact h.models path

/-- A failure is counted among the failures, and for no model. -/
theorem failure (h : state.counters.Of history) (path : Path) (now : Nat) :
    (state.recordOutcome path none now).counters.Of
      (history ++ [.recorded { path, tokensGenerated := none } now]) where
  served := by
    rw [records_recorded, List.filterMap_append]
    exact h.served.trans (congrArg List.length (List.append_nil _).symm)
  failed := by
    rw [records_recorded, List.countP_append]
    exact congrArg (· + 1) h.failed
  tokens := by
    rw [records_recorded, List.filterMap_append]
    exact h.tokens.trans (congrArg List.sum (List.append_nil _).symm)
  models path' := by
    rw [successes_snoc]
    exact h.models path'

/-- A success is counted for its model. -/
theorem success (h : state.counters.Of history) (path : Path) (tokens now : Nat) :
    (state.recordOutcome path (some tokens) now).counters.Of
      (history ++ [.recorded { path, tokensGenerated := some tokens } now]) where
  served := by
    rw [records_recorded, List.filterMap_append, List.length_append]
    exact congrArg (· + 1) h.served
  failed := by
    rw [records_recorded, List.countP_append]
    exact h.failed
  tokens := by
    rw [records_recorded, List.filterMap_append, List.sum_append]
    exact congrArg (· + tokens) h.tokens
  models path' := by
    rw [successes_snoc]
    show (state.modelStats.insert path _).lookup path' = _
    by_cases hPath : path = path'
    · subst hPath
      have hStats : state.modelStats.lookup path = ModelStats.of (successes path history) :=
        h.models path
      rw [AList.lookup_insert, hStats]
      simp only [LedgerEntry.residency, if_true]
      exact (ModelStats.of_snoc _ tokens now).symm
    · rw [AList.lookup_insert_ne (Ne.symm hPath)]
      simp only [LedgerEntry.residency, if_neg hPath]
      exact h.models path'

/-- What is recorded is counted. -/
theorem recorded (h : state.counters.Of history) (path : Path) (tokensGenerated : Option Nat)
    (now : Nat) : (state.recordOutcome path tokensGenerated now).counters.Of
      (history ++ [.recorded { path, tokensGenerated } now]) := by
  cases tokensGenerated with
  | none => exact h.failure path now
  | some tokens => exact h.success path tokens now

end Counters.Of

namespace World

/-- The books agree with a history. -/
structure Booked (w : World) (history : List LedgerEntry) : Prop where
  balanced : (answers history).Perm (records history ++ w.pending)
  counters : w.state.counters.Of history

variable {w w' : World} {history : List LedgerEntry}

/-- Nothing is booked at the start. -/
theorem booked_start (withinBudget : Nat → Nat → Bool) : (start withinBudget).Booked [] where
  balanced := .nil
  counters := ⟨rfl, rfl, rfl, fun _ => rfl⟩

/-- A step that is not in the history leaves the counters and what is pending. -/
theorem Booked.same (h : w.Booked history) (hCounters : w'.state.counters = w.state.counters)
    (hPending : w'.pending.Perm w.pending) : w'.Booked history where
  balanced := h.balanced.trans (hPending.symm.append_left _)
  counters := hCounters ▸ h.counters

/-- An image of a list with one member replaced. -/
theorem filterMap_set_perm {α β : Type} (f : α → Option β) {l : List α} {i : Nat} {a : α}
    (hi : l[i]? = some a) (b : α) :
    ((f a).toList ++ (l.set i b).filterMap f).Perm ((f b).toList ++ l.filterMap f) := by
  induction l generalizing i with
  | nil => cases hi
  | cons c l ih =>
    have hCons : ∀ (c : α) (l : List α), (c :: l).filterMap f = (f c).toList ++ l.filterMap f := by
      intro c l
      rw [List.filterMap_cons]
      cases f c <;> rfl
    cases i with
    | zero =>
      cases hi
      rw [List.set_cons_zero, hCons, hCons, ← List.append_assoc, ← List.append_assoc]
      exact List.perm_append_comm.append_right _
    | succ i =>
      rw [List.set_cons_succ, hCons, hCons]
      calc (f a).toList ++ ((f c).toList ++ (l.set i b).filterMap f)
        List.Perm _ ((f c).toList ++ ((f a).toList ++ (l.set i b).filterMap f)) :=
          List.perm_append_comm_assoc _ _ _
        List.Perm _ ((f c).toList ++ ((f b).toList ++ l.filterMap f)) := (ih hi).append_left _
        List.Perm _ ((f b).toList ++ ((f c).toList ++ l.filterMap f)) :=
          List.perm_append_comm_assoc _ _ _

/-- What a changed connection has pending, in place of what it had. -/
theorem pending_setConnection {thread : Nat} {before : Connection}
    (hBefore : w.connections[thread]? = some before) (connection : Connection) :
    ((before.pending?).toList ++ (w.setConnection thread connection).pending).Perm
      ((connection.pending?).toList ++ w.pending) :=
  filterMap_set_perm Connection.pending? hBefore connection

/-- An answer is pending until it is recorded. -/
theorem Booked.answered (h : w.Booked history) {answer : Answer}
    (hCounters : w'.state.counters = w.state.counters)
    (hPending : w'.pending.Perm (answer :: w.pending)) :
    w'.Booked (history ++ [.answered answer]) where
  balanced := by
    rw [answers_answered, records_answered]
    calc answers history ++ [answer]
      List.Perm _ ((records history ++ w.pending) ++ [answer]) := h.balanced.append_right _
      List.Perm _ (records history ++ (answer :: w.pending)) := by
        rw [List.append_assoc]
        exact (List.perm_append_singleton _ _).append_left _
      List.Perm _ (records history ++ w'.pending) := hPending.symm.append_left _
  counters := hCounters ▸ h.counters.answered answer

/-- A record takes its answer off what is pending. -/
theorem Booked.recorded (h : w.Booked history) {path : Path} {tokensGenerated : Option Nat}
    {now : Nat} (hState : w'.state = w.state.recordOutcome path tokensGenerated now)
    (hPending : w.pending.Perm ({ path, tokensGenerated } :: w'.pending)) :
    w'.Booked (history ++ [.recorded { path, tokensGenerated } now]) where
  balanced := by
    rw [answers_recorded, records_recorded, List.append_assoc]
    exact h.balanced.trans (hPending.append_left _)
  counters := hState ▸ h.counters.recorded path tokensGenerated now

/-- The books stay right when a model goes. -/
theorem Booked.evicted (h : w.Booked history) {evictPath : Path}
    (hState : w'.state = w.state.forget evictPath) (hPending : w'.pending = w.pending) :
    w'.Booked (history ++ [.evicted evictPath]) where
  balanced := by
    rw [answers_evicted, records_evicted, hPending]
    exact h.balanced
  counters := hState ▸ h.counters.evicted evictPath

/-- A connection that had nothing pending, and has nothing. -/
theorem pending_quiet {thread : Nat} {before connection : Connection}
    (hBefore : w.connections[thread]? = some before) (hNone : before.pending? = none)
    (hNone' : connection.pending? = none) :
    (w.setConnection thread connection).pending.Perm w.pending := by
  have hPerm := pending_setConnection hBefore connection
  rw [hNone, hNone'] at hPerm
  exact hPerm

/-- A connection that moves on by itself has no answer to record. -/
theorem MovesOn.pending {before connection : Connection} (h : MovesOn before connection) :
    before.pending? = none ∧ connection.pending? = none := by
  cases h <;> exact ⟨rfl, rfl⟩

/-- A step of `ensure_loaded` keeps the books, and enters what it evicts. -/
theorem Booked.ensure (h : w.Booked history) {input : Input}
    (hStep : w.step (.ensure input) = some w') :
    w'.Booked (history ++ w.entries (.ensure input)) := by
  dsimp only [World.step] at hStep
  split at hStep
  · rename_i thread request path point hLock
    obtain ⟨⟨state, point'⟩, hEnsure, rfl⟩ := Option.map_eq_some_iff.mp hStep
    have hOther : w.entries (.ensure input) = [] → state.counters = w.state.counters →
        World.Booked { w with
          state
          lock := some (thread, .ensuring request path point')
          nextAddress := w.nextAddress + 1 } (history ++ w.entries (.ensure input)) := by
      intro hEntries hCounters
      rw [hEntries, List.append_nil]
      exact h.same hCounters .rfl
    cases SharedState.ensureLoaded_cases hEnsure with
    | remove =>
      simp only [entries, hLock]
      exact h.evicted rfl rfl
    | hit _ _ | hitFailed _ _ | miss _ | pick _ _ _ | roomMade | deviceRoomMade | evict _
    | evictFailed _ | map _ | mapFailed _ | resolve | resolveFailed | insert | loadFailed =>
      exact hOther rfl rfl
  · cases hStep

/-- An unlock enters the answer of its section. -/
theorem Booked.release (h : w.Booked history) (hSeated : w.Seated) {tokensGenerated : Option Nat}
    (hStep : w.step (.release tokensGenerated) = some w') :
    w'.Booked (history ++ w.entries (.release tokensGenerated)) := by
  -- behind `ensure_loaded` the connection is a new one
  have hEnsured : ∀ {thread : Nat} {request : Request} {path : Path} {point : Point} {ok : Bool}
      {entered : List LedgerEntry}, w.lock = some (thread, .ensuring request path point) →
      w.finish thread request path ok tokensGenerated = some w' →
      (entered = if request = .generate then
        [.answered { path, tokensGenerated := if ok then tokensGenerated else none }] else []) →
      w'.Booked (history ++ entered) := by
    intro thread request path point ok entered hLock hFinish hEntered
    obtain ⟨_, hConnection, rfl⟩ := hSeated thread _ hLock
    unfold World.finish at hFinish
    subst hEntered
    cases request with
    | generate =>
      cases hFinish
      exact h.answered rfl (pending_setConnection hConnection
        (.recording path (if ok then tokensGenerated else none)))
    | embed =>
      cases hFinish
      rw [if_neg (by decide), List.append_nil]
      exact h.same rfl (pending_quiet hConnection rfl rfl)
    | openConversation =>
      rw [if_neg (by decide), List.append_nil]
      dsimp only at hFinish
      split at hFinish
      · obtain ⟨session, -, rfl⟩ := Option.map_eq_some_iff.mp hFinish
        exact h.same rfl (pending_quiet hConnection rfl rfl)
      · cases hFinish
        exact h.same rfl (pending_quiet hConnection rfl rfl)
  dsimp only [World.step] at hStep
  split at hStep
  · -- the model is loaded
    rename_i thread request path hLock
    refine hEnsured hLock hStep ?_
    cases request with
    | generate | embed | openConversation => simp only [entries, hLock]; rfl
  · -- it could not be loaded, which answers a generation too
    rename_i thread request path hLock
    refine hEnsured hLock hStep ?_
    cases request with
    | generate | embed | openConversation => simp only [entries, hLock]; rfl
  · -- a turn has run
    rename_i thread hLock
    split at hStep
    · rename_i path session conversation hConnection
      cases hStep
      simp only [entries, hLock, hConnection]
      exact h.answered rfl (pending_setConnection hConnection
        (.recordingTurn path session conversation tokensGenerated))
    · cases hStep
  · cases hStep

/-- Every step keeps the books. -/
theorem Booked.step (h : w.Booked history) (hSeated : w.Seated) {event : Event}
    (hStep : w.step event = some w') : w'.Booked (history ++ w.entries event) := by
  have hNothing : ∀ {event : Event}, w.entries event = [] → w'.Booked history →
      w'.Booked (history ++ w.entries event) := by
    intro event hEntries hBooked
    rw [hEntries, List.append_nil]
    exact hBooked
  cases event with
  | accept =>
    cases hStep
    refine hNothing rfl (h.same rfl ?_)
    rw [pending, List.filterMap_append]
    exact .of_eq (List.append_nil _)
  | lock thread request path =>
    refine hNothing rfl ?_
    dsimp only [World.step] at hStep
    split at hStep <;> cases hStep
    exact h.same rfl .rfl
  | ensure input => exact h.ensure hStep
  | release tokensGenerated => exact h.release hSeated hStep
  | record thread now =>
    dsimp only [World.step] at hStep
    split at hStep
    · rename_i path tokensGenerated hFree hConnection
      cases hStep
      have hPending := pending_setConnection hConnection .closed
      simp only [entries, hConnection]
      exact h.recorded rfl hPending.symm
    · rename_i path session conversation tokensGenerated hFree hConnection
      cases hStep
      have hPending := pending_setConnection hConnection (.conversing path session conversation)
      simp only [entries, hConnection]
      exact h.recorded rfl hPending.symm
    · cases hStep
  | turn thread =>
    refine hNothing rfl ?_
    dsimp only [World.step] at hStep
    split at hStep <;> cases hStep
    exact h.same rfl .rfl
  | openConversation _ _ | snapshot _ _ | disconnect _ | drop _ =>
    obtain ⟨thread, before, connection, hBefore, hMoves, -, rfl⟩ := movesOn_step hSeated hStep rfl
    obtain ⟨hNone, hNone'⟩ := hMoves.pending
    exact hNothing rfl (h.same rfl (pending_quiet hBefore hNone hNone'))

/-- What a run keeps, with the history of its steps. -/
theorem Booked.run (h : w.Booked history) (hSeated : w.Seated) {events : List Event}
    (hRun : events.foldlM World.step w = some w') : w'.Booked (history ++ w.history events) := by
  -- on the steps; what one adds goes behind the history so far
  induction events generalizing w history with
  | nil =>
    cases hRun
    rw [World.history, List.append_nil]
    exact h
  | cons event events ih =>
    rw [List.foldlM_cons] at hRun
    obtain ⟨w1, hStep, hRest⟩ := Option.bind_eq_some_iff.mp hRun
    rw [World.history, hStep, ← List.append_assoc]
    exact ih (h.step hSeated hStep) (hSeated.step hStep) hRest

end World

/-- What is reported of a model without counters is what an empty history comes to. -/
theorem ModelStats.of_reported (successes : List (Nat × Nat)) :
    ((ModelStats.of successes).map ModelStats.requestsServed).getD 0 = successes.length ∧
      ((ModelStats.of successes).map ModelStats.tokensGenerated).getD 0 =
        (successes.map Prod.fst).sum := by
  rcases List.eq_nil_or_concat successes with rfl | ⟨before, last, rfl⟩
  · exact ⟨rfl, rfl⟩
  · simp [ModelStats.of]

/-- An answer went well or it did not. -/
theorem length_of_outcomes (answers : List Answer) :
    (answers.filterMap Answer.tokensGenerated).length +
      answers.countP (·.tokensGenerated.isNone) = answers.length := by
  induction answers with
  | nil => rfl
  | cons answer answers ih =>
    obtain ⟨path, _ | tokens⟩ := answer
    · rw [List.filterMap_cons_none rfl, List.countP_cons_of_pos rfl, List.length_cons]
      omega
    · have hSome : ({ path, tokensGenerated := some tokens } : Answer).tokensGenerated =
          some tokens := rfl
      rw [List.filterMap_cons_some hSome, List.countP_cons_of_neg Bool.false_ne_true,
        List.length_cons, List.length_cons]
      omega

/-- **The daemon's books are its history.** After any run, in any interleaving: every answer
of a generation or a turn is recorded once or waits for its record, and none is lost; the
totals are those of all records; and `status` reports each loaded model once, with exactly
what was recorded of it since it was last evicted. -/
theorem history_booked (withinBudget : Nat → Nat → Bool) (events : List World.Event) (w : World)
    (hRun : run withinBudget events = some w) :
    w.Booked ((start withinBudget).history events) ∧
    w.state.requestsServed + w.state.requestsFailed + w.pending.length =
      (answers ((start withinBudget).history events)).length ∧
    (w.state.modelStatuses.map ModelStatus.path).Nodup ∧
    ∀ status ∈ w.state.modelStatuses,
      status.requestsServed =
        (successes status.path ((start withinBudget).history events)).length ∧
      status.tokensGenerated =
        ((successes status.path ((start withinBudget).history events)).map Prod.fst).sum := by
  have h : w.Booked ((start withinBudget).history events) :=
    (booked_start withinBudget).run (seated_of_free rfl) hRun
  refine ⟨h, ?_, ?_, ?_⟩
  · rw [h.balanced.length_eq, List.length_append, ← length_of_outcomes (records _),
      ← h.counters.served, ← h.counters.failed]
    rfl
  · -- `status` goes through the sessions, one for each path
    have hPaths : w.state.modelStatuses.map ModelStatus.path = w.state.sessions.keys := by
      rw [SharedState.modelStatuses, List.map_map]
      exact List.map_id _
    rw [hPaths]
    exact w.state.sessions.keys_nodup
  · intro status hStatus
    obtain ⟨path, -, rfl⟩ := List.mem_map.mp hStatus
    have hStats : w.state.modelStats.lookup path =
        ModelStats.of (successes path ((start withinBudget).history events)) := h.counters.models path
    dsimp only
    rw [hStats]
    exact ModelStats.of_reported _

/-- An answer whose model goes before it is recorded, in the books. -/
theorem lateRecord_booked :
    ∃ w, run (fun used available => decide (used ≤ available)) lateRecord = some w ∧
      (answers ((start fun used available => decide (used ≤ available)).history lateRecord)) =
        [{ path := "coder.gguf".toList, tokensGenerated := some 3 }] ∧
      w.state.requestsServed + w.state.requestsFailed + w.pending.length = 1 := by
  have hRun : (run (fun used available => decide (used ≤ available)) lateRecord).isSome = true := by
    decide
  have hAnswers : answers ((start fun used available => decide (used ≤ available)).history lateRecord) =
      [{ path := "coder.gguf".toList, tokensGenerated := some 3 }] := by
    decide
  obtain ⟨w, hw⟩ := Option.isSome_iff_exists.mp hRun
  refine ⟨w, hw, hAnswers, ?_⟩
  have hBooked := (history_booked _ lateRecord w hw).2.1
  rw [hAnswers] at hBooked
  exact hBooked

end Rampipe
