import Rampipe.Results.Spans

/-!
# Rampipe — what the room check promises

`ensure_room_for` must leave room for the turn that follows, give up no more
history than that takes, and lose nothing when it refuses. The loop of
`drop_oldest_turns_for` compares with `n_ctx` a sum from which every dropped
exchange has been subtracted twice — from `committed_pos` and again as `freed` —
so it can stop before there is room.

* `ensureRoomFor_makesRoom_iff` — it keeps the promise exactly when no run of
  oldest exchanges frees less than the excess, and twice as much more.
* `ensureRoomFor_refused`       — a refusal loses nothing under `Fail` or with
  fewer than two turns; otherwise it loses some number of oldest exchanges, and
  nothing but these (`Records.dropOldest`, `without`).
-/

namespace Rampipe

variable {L : Llama}

namespace Conversation

/-! ## What dropping exchanges frees -/

/-- Where evictions start: the first span, but never inside the opening. -/
def dropFloor (c : Conversation L) : Int :=
  (c.turns.head?.map c.evictionStart).getD c.protectedPrefix

/-- How many positions dropping the `j` oldest exchanges frees. -/
def freedBy (c : Conversation L) : Nat → Int
  | 0 => 0
  | j + 1 => (c.turns[2 * j + 1]?.map (·.endPos - c.dropFloor)).getD 0

/-- One exchange more frees up to where it ends. -/
theorem freedBy_succ {c : Conversation L} {j : Nat} {assistant : TurnBoundary}
    (h : c.turns[2 * j + 1]? = some assistant) :
    c.freedBy (j + 1) = assistant.endPos - c.dropFloor := by
  rw [freedBy, h]
  rfl

/-- How far a turn that needs `needed` positions overruns the context. -/
def excess (c : Conversation L) (needed : Int) : Int := c.committedPos + needed - c.nCtx

/-- When the check succeeds, the turn fits at positions below `n_ctx`, and one
exchange fewer would not have been enough. -/
def MakesRoom (c : Conversation L) (needed : Int) : Prop :=
  ∀ c', c.ensureRoomFor needed = (.ok (), c') →
    c'.committedPos + needed < c.nCtx ∧
    (∀ j, c'.turns.length + 2 * (j + 1) = c.turns.length →
      c.nCtx ≤ c.committedPos - c.freedBy j + needed) ∧
    ∀ i : Int, 0 ≤ i → i < needed → c'.committedPos + i < c.nCtx

/-- The request does not overflow, and no run of oldest exchanges, each with
something to free, frees at most the excess but more than half of it. -/
def RoomIsExact (c : Conversation L) (needed : Int) : Prop :=
  c.committedPos + needed ≤ i32Max ∧
  ¬ ∃ j, 2 * j ≤ c.turns.length ∧ (∀ i < j, c.freedBy i < c.freedBy (i + 1)) ∧
    c.freedBy j ≤ c.excess needed ∧ c.excess needed < 2 * c.freedBy j

/-- Dropping the `n` oldest exchanges of `c`, each one freeing something, leaves `c1`. -/
structure DroppedBy (needed : Int) (c c1 : Conversation L) (n : Nat) : Prop where
  length : 2 * n ≤ c.turns.length
  turns : c1.turns = (c.turns.drop (2 * n)).map (·.shift (c.freedBy n))
  committed : c1.committedPos = c.committedPos - c.freedBy n
  floor : ∀ user ∈ c1.turns.head?, c1.evictionStart user = c.dropFloor
  grows : ∀ i < n, c.freedBy i < c.freedBy (i + 1)
  full : ∀ i < n, c.nCtx ≤ i32 (i32 (c.committedPos - c.freedBy i + needed) - c.freedBy i)

/-- Turns that are not moved stay where they are. -/
theorem shift_zero (turns : List TurnBoundary) : turns.map (·.shift 0) = turns := by
  refine (List.map_congr_left fun turn _ => ?_).trans (List.map_id _)
  simp [TurnBoundary.shift]

/-- Moved twice is moved by the sum. -/
theorem shift_shift (turns : List TurnBoundary) (a b : Int) :
    (turns.map (·.shift a)).map (·.shift b) = turns.map (·.shift (a + b)) := by
  rw [List.map_map]
  refine List.map_congr_left fun turn _ => ?_
  simp only [Function.comp_apply, TurnBoundary.shift, sub_sub]

/-- The next exchange to go, seen from where the dropping began. -/
theorem DroppedBy.next {needed : Int} {c c1 : Conversation L} {n : Nat}
    (h : DroppedBy needed c c1 n) {user assistant : TurnBoundary} {rest : List TurnBoundary}
    (hTurns : c1.turns = user :: assistant :: rest) :
    2 * (n + 1) ≤ c.turns.length ∧
      rest = (c.turns.drop (2 * (n + 1))).map (·.shift (c.freedBy n)) ∧
      c.freedBy (n + 1) = c.freedBy n + (assistant.endPos - c1.evictionStart user) := by
  have hFloor : c1.evictionStart user = c.dropFloor := h.floor user (by simp [hTurns])
  have hDrop := h.turns
  rw [hTurns] at hDrop
  -- the same exchange as the list had it at first, `u` and `a`
  rcases hCut : c.turns.drop (2 * n) with _ | ⟨u, _ | ⟨a, tail⟩⟩
  · simp [hCut] at hDrop
  · simp [hCut] at hDrop
  · simp only [hCut, List.map_cons, List.cons.injEq] at hDrop
    obtain ⟨-, hAssistant, hRest⟩ := hDrop
    have hTail : c.turns.drop (2 * (n + 1)) = tail := by
      rw [show 2 * (n + 1) = 2 * n + 2 by omega, ← List.drop_drop, hCut]
      rfl
    have hAt : c.turns[2 * n + 1]? = some a := by
      rw [← List.getElem?_drop, hCut]
      rfl
    have hEnd : assistant.endPos = a.endPos - c.freedBy n := by
      rw [hAssistant]
      rfl
    have hLong := congrArg List.length hCut
    simp only [List.length_drop, List.length_cons] at hLong
    refine ⟨by omega, by rw [hTail, hRest], ?_⟩
    rw [freedBy_succ hAt, hEnd, hFloor]
    omega

/-- Every state of the drop loop has dropped some number of oldest exchanges. -/
theorem Trimmed.droppedBy {needed start : Int} {c c1 : Conversation L}
    (h : Trimmed needed c c1) (hBooks : c.Bookkeeping start) :
    ∃ n, DroppedBy needed c c1 n := by
  induction h with
  | here =>
    refine ⟨0, by omega, by simp [freedBy, shift_zero], by simp [freedBy], ?_, by omega, by omega⟩
    intro user hUser
    simp [dropFloor, Option.mem_def.mp hUser]
  | @evict c1 ctx user assistant rest hTrimmed hFull hTurns hOutside hCells ih =>
    obtain ⟨n, hDropped⟩ := ih
    obtain ⟨start1, hBooks1⟩ := hTrimmed.bookkeeping hBooks
    have hFloor : c1.evictionStart user = c.dropFloor := hDropped.floor user (by simp [hTurns])
    obtain ⟨hLength, hRest, hFreed⟩ := hDropped.next hTurns
    refine ⟨n + 1, hLength, ?_, ?_, ?_, ?_, ?_⟩
    · simp only [evicted, hRest, shift_shift, hFreed]
    · simp only [evicted, hDropped.committed, hFreed]
      omega
    · -- the turns left start where this exchange did, or behind the opening
      intro next hNext
      have hBooks2 := hBooks1.evicted hTurns hOutside ctx
      rcases hTurns2 : (c1.evicted ctx (c1.evictionStart user) assistant.endPos rest).turns with
        _ | ⟨next', turns'⟩
      · simp [hTurns2] at hNext
      · have hAdj := hBooks2.adjacent
        rw [hTurns2] at hAdj
        simp only [hTurns2, List.head?_cons, Option.mem_def, Option.some.injEq] at hNext
        subst hNext
        rw [evictionStart, hAdj.1, ← hFloor]
        exact max_eq_left (le_max_right _ _)
    · intro i hi
      rcases Nat.lt_succ_iff_lt_or_eq.mp hi with hLt | rfl
      · exact hDropped.grows i hLt
      · omega
    · intro i hi
      rcases Nat.lt_succ_iff_lt_or_eq.mp hi with hLt | rfl
      · exact hDropped.full i hLt
      · -- the loop counts as freed what the position has lost
        have hFreedHere : c.committedPos - c1.committedPos = c.freedBy i := by
          have := hDropped.committed
          omega
        rwa [roomSum, hFreedHere, hDropped.committed] at hFull

/-! ## When the check makes room -/

/-- Freed positions add up as long as every exchange frees something. -/
theorem freedBy_mono {c : Conversation L} {n : Nat}
    (hGrows : ∀ i < n, c.freedBy i < c.freedBy (i + 1)) {i j : Nat} (hIj : i ≤ j) (hj : j ≤ n) :
    c.freedBy i ≤ c.freedBy j := by
  induction j, hIj using Nat.le_induction with
  | base => exact le_refl _
  | succ j _ ih => exact (ih (by omega)).trans (hGrows j (by omega)).le

/-- Nothing is freed that was not there. -/
theorem DroppedBy.freed_nonneg {needed : Int} {c c1 : Conversation L} {n : Nat}
    (h : DroppedBy needed c c1 n) {i : Nat} (hi : i ≤ n) : 0 ≤ c.freedBy i :=
  freedBy_mono h.grows (Nat.zero_le i) hi

/-- Without overflow the loop compares the sum with every freed position taken
off twice. -/
theorem roomSum_eq {x needed freed : Int} (hCommitted : 0 ≤ x - freed) (hFreed : 0 ≤ freed)
    (hNeeded : -2147483648 ≤ needed) (hSum : x + needed ≤ i32Max)
    (hLow : 2 * freed ≤ x + needed + 2147483648) :
    i32 (i32 (x - freed + needed) - freed) = x + needed - 2 * freed := by
  rw [i32_eq_self (x := x - freed + needed) (by omega) (by omega),
    i32_eq_self (by omega) (by omega)]
  omega

/-- While the loop runs on, half of the excess has not been freed. -/
theorem DroppedBy.not_freed {needed : Int} {c c1 : Conversation L} {n : Nat}
    (h : DroppedBy needed c c1 n) (hLeft : 0 ≤ c1.committedPos)
    (hNeeded : 0 ≤ needed) (hSum : c.committedPos + needed ≤ i32Max) {i : Nat} (hi : i < n) :
    2 * c.freedBy i ≤ c.excess needed := by
  have hFull := h.full i hi
  have hLe := freedBy_mono h.grows hi.le le_rfl
  have hCommitted := h.committed
  have hMax : i32Max = 2147483647 := rfl
  rw [roomSum_eq (by omega) (h.freed_nonneg hi.le) (by omega) hSum (by omega)] at hFull
  rw [excess]
  omega

/-- Books that are right commit no negative position. -/
theorem Bookkeeping.committed_nonneg {c : Conversation L} {start : Int}
    (h : c.Bookkeeping start) : 0 ≤ c.committedPos := by
  rw [h.tokens]
  exact Int.natCast_nonneg _

/-- The sum compared after `n` drops. -/
theorem DroppedBy.roomSum {needed : Int} {c c1 : Conversation L} {n : Nat}
    (h : DroppedBy needed c c1 n) (hLeft : 0 ≤ c1.committedPos)
    (hNeeded : 0 ≤ needed) (hSum : c.committedPos + needed ≤ i32Max) :
    c1.roomSum needed (c.committedPos - c1.committedPos) =
      c.committedPos + needed - 2 * c.freedBy n := by
  have hCommitted := h.committed
  have hFreed : c.committedPos - c1.committedPos = c.freedBy n := by omega
  rw [Conversation.roomSum, hFreed, hCommitted]
  have hMax : i32Max = 2147483647 := rfl
  exact roomSum_eq (by omega) (h.freed_nonneg le_rfl) (by omega) hSum (by omega)

/-- While the loop runs on, it has not dropped the exchanges that free enough. -/
theorem DroppedBy.lt_of_full {needed : Int} {c c1 : Conversation L} {n j : Nat}
    (h : DroppedBy needed c c1 n) (hLeft : 0 ≤ c1.committedPos) (hNeeded : 0 ≤ needed)
    (hSum : c.committedPos + needed ≤ i32Max)
    (hFull : c.nCtx ≤ c1.roomSum needed (c.committedPos - c1.committedPos))
    (hTwice : c.excess needed < 2 * c.freedBy j) : n < j := by
  rw [h.roomSum hLeft hNeeded hSum] at hFull
  by_contra hLe
  have := freedBy_mono h.grows (not_lt.mp hLe) le_rfl
  rw [excess] at hTwice
  omega

/-- Past `i32::MAX` the sum is negative, and the check passes at once. -/
theorem MakesRoom.sum_le {c : Conversation L} {needed : Int} (h : c.MakesRoom needed)
    (hCommitted : 0 ≤ c.committedPos) (hSmall : c.committedPos ≤ i32Max) (hNeeded : 0 ≤ needed)
    (hNeededMax : needed ≤ i32Max) (hCtx : 0 < c.nCtx) (hCtxMax : c.nCtx ≤ i32Max) :
    c.committedPos + needed ≤ i32Max := by
  by_contra hOver
  have hPass : c.ensureRoomFor needed = (.ok (), c) := by
    rw [ensureRoomFor, if_pos]
    rw [i32_of_overflow (by omega) (by omega)]
    unfold i32Max at *
    omega
  have := (h c hPass).1
  omega

/-- The loop ends on a run of exchanges of `RoomIsExact` at the latest, short of room. -/
theorem MakesRoom.roomIsExact (hL : L.Lawful) {c : Conversation L} {start needed : Int}
    (h : c.MakesRoom needed) (hBooks : c.Bookkeeping start)
    (hComplete : expects .user c.turns = .user) (hPolicy : c.overflow = .dropOldestTurns)
    (hNeeded : 0 ≤ needed) (hSum : c.committedPos + needed ≤ i32Max) : c.RoomIsExact needed := by
  refine ⟨hSum, ?_⟩
  rintro ⟨j, hj, hGrows, hFits, hTwice⟩
  have hEven := (expects_user_iff c.turns).mp hComplete
  have hCase := ensureRoomFor_case hL hBooks needed
  generalize hResult : c.ensureRoomFor needed = result at hCase
  cases hCase with
  | @room c1 hTrimmed hOk =>
    -- the loop has dropped `j` exchanges at most, and these do not free enough
    obtain ⟨start1, hBooks1⟩ := hTrimmed.bookkeeping hBooks
    obtain ⟨n, hDropped⟩ := hTrimmed.droppedBy hBooks
    have hn : n ≤ j := by
      by_contra hLt
      have := hDropped.not_freed hBooks1.committed_nonneg hNeeded hSum (not_le.mp hLt)
      omega
    have hLe := freedBy_mono hGrows hn le_rfl
    have hPromise := (h _ hResult).1
    rw [hDropped.committed] at hPromise
    rw [excess] at hFits
    omega
  | full _ hFail =>
    rw [hPolicy] at hFail
    cases hFail
  | @tooFew c1 hTrimmed hFull hFew =>
    obtain ⟨start1, hBooks1⟩ := hTrimmed.bookkeeping hBooks
    obtain ⟨n, hDropped⟩ := hTrimmed.droppedBy hBooks
    have hn := hDropped.lt_of_full hBooks1.committed_nonneg hNeeded hSum hFull hTwice
    have hTurns := congrArg List.length hDropped.turns
    simp only [List.length_map, List.length_drop] at hTurns
    omega
  | @inside c1 user assistant rest hTrimmed hFull hTurns hInside =>
    -- an exchange inside the opening frees nothing, and the run grows there
    obtain ⟨start1, hBooks1⟩ := hTrimmed.bookkeeping hBooks
    obtain ⟨n, hDropped⟩ := hTrimmed.droppedBy hBooks
    have hn := hDropped.lt_of_full hBooks1.committed_nonneg hNeeded hSum hFull hTwice
    have hGrow := hGrows n hn
    obtain ⟨-, -, hFreed⟩ := hDropped.next hTurns
    omega

/-- Without such a run the loop stops as soon as there is room, and not before. -/
theorem RoomIsExact.makesRoom (hL : L.Lawful) {c : Conversation L} {start needed : Int}
    (h : c.RoomIsExact needed) (hBooks : c.Bookkeeping start) (hNeeded : 0 ≤ needed) :
    c.MakesRoom needed := by
  obtain ⟨hSum, hNone⟩ := h
  intro c' hOk
  have hCase := ensureRoomFor_case hL hBooks needed
  rw [hOk] at hCase
  cases hCase with
  | room hTrimmed hFits =>
    obtain ⟨start1, hBooks1⟩ := hTrimmed.bookkeeping hBooks
    obtain ⟨n, hDropped⟩ := hTrimmed.droppedBy hBooks
    have hCommitted1 := hDropped.committed
    rw [hDropped.roomSum hBooks1.committed_nonneg hNeeded hSum] at hFits
    have hEnough : c.excess needed < c.freedBy n := by
      by_contra hLe
      refine hNone ⟨n, hDropped.length, hDropped.grows, not_lt.mp hLe, ?_⟩
      rw [excess]
      omega
    rw [excess] at hEnough
    refine ⟨by omega, ?_, fun i hi0 hi => by omega⟩
    -- with one exchange fewer the loop was still running
    intro j hj
    have hTurns := congrArg List.length hDropped.turns
    simp only [List.length_map, List.length_drop] at hTurns
    have hJn : j < n := by
      have := hDropped.length
      omega
    have hHalf := hDropped.not_freed hBooks1.committed_nonneg hNeeded hSum hJn
    have hFreed := hDropped.freed_nonneg hJn.le
    rw [excess] at hHalf
    omega

/-- **The room check, exactly.** For a conversation whose books agree and whose
exchanges are complete, `ensure_room_for` keeps its promise if and only if the
request does not overflow an `i32` and the loop has no run of exchanges to stop
too early on. -/
theorem ensureRoomFor_makesRoom_iff (hL : L.Lawful) {c : Conversation L} {start needed : Int}
    (hBooks : c.Bookkeeping start) (hComplete : expects .user c.turns = .user)
    (hPolicy : c.overflow = .dropOldestTurns)
    (hNeeded : 0 ≤ needed) (hNeededMax : needed ≤ i32Max) (hCtx : 0 < c.nCtx)
    (hCtxMax : c.nCtx ≤ i32Max) :
    c.MakesRoom needed ↔ c.RoomIsExact needed := by
  constructor
  · intro hRoom
    have hSum := hRoom.sum_le hBooks.committed_nonneg hBooks.small hNeeded hNeededMax hCtx hCtxMax
    exact hRoom.roomIsExact hL hBooks hComplete hPolicy hNeeded hSum
  · intro hExact
    exact hExact.makesRoom hL hBooks hNeeded

/-- Three exchanges of thirty tokens each, in a context of a hundred. -/
def threeExchanges : Conversation (Llama.scripted Script.silent) where
  ctx := ⟨100, Cells.layout 0 (List.replicate 90 Script.bos)⟩
  handlePath := []
  template := ⟨[], [], []⟩
  committedPos := 90
  nCtx := 100
  turns := [⟨.user, 0, 10⟩, ⟨.assistant, 10, 30⟩, ⟨.user, 30, 40⟩, ⟨.assistant, 40, 60⟩,
    ⟨.user, 60, 70⟩, ⟨.assistant, 70, 90⟩]
  overflow := .dropOldestTurns
  tokens := List.replicate 90 Script.bos
  opening := []
  protectedPrefix := 0
  systemForFirstTurn := none
  toolFormat := none
  toolResultSpans := none
  capabilities := ⟨true, false, false⟩
  tools := []
  configuredToolFormat := none

/-- The books of the three exchanges are right. -/
theorem threeExchanges_bookkeeping : threeExchanges.Bookkeeping 0 where
  start_nonneg := le_rfl
  adjacent := ⟨rfl, by decide, rfl, by decide, rfl, by decide, rfl, by decide, rfl, by decide,
    rfl, by decide, rfl⟩
  tokens := rfl
  prefix_nonneg := le_rfl
  small := by decide

/-- Asked for fifty tokens, the loop stops after one exchange, thirty short of
what is missing: it goes on from position 60 and would need to end before 100. -/
theorem ensureRoomFor_stops_early :
    ¬ ∀ (L : Llama), L.Lawful → ∀ (c : Conversation L) (start needed : Int),
      c.Bookkeeping start → Alternates .user c.turns → expects .user c.turns = .user →
      c.overflow = .dropOldestTurns → 0 ≤ needed → needed ≤ i32Max → 0 < c.nCtx →
      c.nCtx ≤ i32Max → c.MakesRoom needed := by
  intro h
  have hRoom := h _ (Llama.scripted_lawful _) threeExchanges 0 50 threeExchanges_bookkeeping
    ⟨rfl, rfl, rfl, rfl, rfl, rfl, trivial⟩ rfl rfl (by decide) (by decide) (by decide) (by decide)
  have hFits := (hRoom (threeExchanges.ensureRoomFor 50).2 rfl).1
  have hEnds : (threeExchanges.ensureRoomFor 50).2.committedPos = 60 := rfl
  rw [hEnds] at hFits
  exact absurd hFits (by decide)

/-- Asked for twenty, one exchange is enough, and the check keeps its promise. -/
theorem threeExchanges_makesRoom :
    threeExchanges.RoomIsExact 20 ∧ threeExchanges.MakesRoom 20 := by
  have hExact : threeExchanges.RoomIsExact 20 := by
    refine ⟨by decide, ?_⟩
    rintro ⟨j, hj, -, hFits, hTwice⟩
    have hLe : j ≤ 3 := by
      have hLength : threeExchanges.turns.length = 6 := rfl
      omega
    -- no run of exchanges frees between half of the excess and all of it
    have hAll : ∀ j ≤ 3, ¬ (threeExchanges.freedBy j ≤ threeExchanges.excess 20 ∧
        threeExchanges.excess 20 < 2 * threeExchanges.freedBy j) := by decide
    exact hAll j hLe ⟨hFits, hTwice⟩
  exact ⟨hExact, (ensureRoomFor_makesRoom_iff (Llama.scripted_lawful _)
    threeExchanges_bookkeeping rfl rfl (by decide) (by decide) (by decide) (by decide)).mpr hExact⟩

/-! ## Refusals -/

/-- The two errors of the room check. -/
def Refusal (e : LlamaSessionError) : Prop :=
  e = .conversationTooLargeToTrim ∨ ∃ committedPos needed nCtx,
    e = .conversationContextFull committedPos needed nCtx

/-- What a conversation records of its history, in its four places. -/
structure Records where
  turns : List TurnBoundary
  tokens : List LlamaToken
  position : Int
  cells : List (Int × LlamaToken)
  deriving DecidableEq

def records (c : Conversation L) : Records where
  turns := c.turns
  tokens := c.tokens
  position := c.committedPos
  cells := L.cells c.ctx

/-- The records without the positions `[start, stop)`: what is behind them moves down. -/
def Records.cut (r : Records) (start stop : Int) : Records where
  turns := r.turns.map (·.shift (stop - start))
  tokens := cutTokens r.tokens start stop
  position := r.position - (stop - start)
  cells := Cells.shiftFrom stop (-(stop - start)) (Cells.removeRange start stop r.cells)

/-- The records without the oldest exchange, of which the first `keep` positions stay. -/
def Records.dropOldest (keep : Int) (r : Records) : Records :=
  match r.turns with
  | user :: assistant :: rest =>
    if max user.startPos keep < assistant.endPos then
      { r with turns := rest }.cut (max user.startPos keep) assistant.endPos
    else { r with turns := rest }
  | _ => r

/-- An exchange that reaches behind the first `keep` positions is cut from `start` on. -/
theorem Records.dropOldest_cut {keep start : Int} {r : Records} {user assistant : TurnBoundary}
    {rest : List TurnBoundary} (hTurns : r.turns = user :: assistant :: rest)
    (hStart : max user.startPos keep = start) (hOutside : start < assistant.endPos) :
    r.dropOldest keep = { r with turns := rest }.cut start assistant.endPos := by
  subst hStart
  unfold dropOldest
  rw [hTurns]
  exact if_pos hOutside

/-- Of any other exchange only the turns go. -/
theorem Records.dropOldest_kept {keep start : Int} {r : Records} {user assistant : TurnBoundary}
    {rest : List TurnBoundary} (hTurns : r.turns = user :: assistant :: rest)
    (hStart : max user.startPos keep = start) (hInside : assistant.endPos ≤ start) :
    r.dropOldest keep = { r with turns := rest } := by
  subst hStart
  unfold dropOldest
  rw [hTurns]
  exact if_neg (not_lt.mpr hInside)

/-- Two turns fewer are recorded behind it. -/
theorem Records.dropOldest_length (keep : Int) (r : Records) (h : 2 ≤ r.turns.length) :
    (r.dropOldest keep).turns.length + 2 = r.turns.length := by
  unfold dropOldest
  rcases hTurns : r.turns with _ | ⟨user, _ | ⟨assistant, rest⟩⟩
  · simp [hTurns] at h
  · simp [hTurns] at h
  · dsimp only
    split
    · simp [cut]
    · rfl

/-- A span of positions that are `i32`s is cut out of all four records. -/
theorem removeSpan_records (hL : L.Lawful) {c c' : Conversation L} {start stop : Int}
    (h0 : 0 ≤ start) (h1 : start ≤ stop) (h2 : stop ≤ i32Max)
    (h : c.removeSpan start stop = (.ok (), c')) : c'.records = c.records.cut start stop := by
  have hStart : asU32 start = start.toNat := asU32_eq h0 (by omega)
  have hStop : asU32 stop = stop.toNat := asU32_eq (by omega) h2
  obtain ⟨ctx1, ctx2, removed, tokens, hRm, hAdd, hDrain, rfl⟩ := removeSpan_ok h
  rw [hStart, hStop] at hRm
  rw [hStop] at hAdd
  obtain ⟨_, _, hRm', hCells1⟩ := hL.kvCacheSeqRm_ok c.ctx start.toNat stop.toNat (by omega)
    (by omega)
  obtain ⟨_, hAdd', hCells2⟩ := hL.kvCacheSeqAdd_ok ctx1 stop.toNat (-(stop - start)) (by omega)
  rw [hRm] at hRm'
  cases hRm'
  rw [hAdd] at hAdd'
  cases hAdd'
  have hTokens : tokens = cutTokens c.tokens start stop := by
    unfold drain at hDrain
    split at hDrain
    · rw [asUsize_eq h0 (by omega), asUsize_eq (by omega) h2] at hDrain
      exact (Option.some.inj hDrain).symm
    · cases hDrain
  have hStartNat : ((start.toNat : Nat) : Int) = start := Int.toNat_of_nonneg h0
  have hStopNat : ((stop.toNat : Nat) : Int) = stop := Int.toNat_of_nonneg (by omega)
  rw [hCells1, hStartNat, hStopNat] at hCells2
  simp only [records, Records.cut, hTokens, hCells2]

/-- `n` oldest exchanges of `c` are gone, and `c1` is what is left. -/
structure Dropped (c c1 : Conversation L) (n : Nat) : Prop where
  length : 2 * n ≤ c.turns.length
  records : c1.records = (Records.dropOldest c.protectedPrefix)^[n] c.records
  left : c1.turns.length + 2 * n = c.turns.length

/-- The spans' ends are `i32`s, as the fields that hold them are. -/
def EndsFit (c : Conversation L) : Prop := ∀ turn ∈ c.turns, turn.endPos ≤ i32Max

/-- The exchange behind `n` dropped ones, dropped as well. -/
theorem Dropped.next {c c1 c2 : Conversation L} {n : Nat} (h : Dropped c c1 n)
    (hMany : 2 ≤ c1.turns.length)
    (hRecords : c2.records = c1.records.dropOldest c.protectedPrefix) : Dropped c c2 (n + 1) := by
  have hLeft := h.left
  have hGone : c2.turns.length + 2 = c1.turns.length := by
    have hLength := Records.dropOldest_length c.protectedPrefix c1.records hMany
    rw [← hRecords] at hLength
    exact hLength
  refine ⟨by omega, ?_, by omega⟩
  rw [hRecords, h.records, ← Function.iterate_succ_apply' (Records.dropOldest c.protectedPrefix)]

/-- An eviction that goes through drops the oldest exchange. -/
theorem removeSpan_dropOldest (hL : L.Lawful) {c c' : Conversation L}
    {user assistant : TurnBoundary} {rest : List TurnBoundary} (hKeep : 0 ≤ c.protectedPrefix)
    (hFit : c.EndsFit) (hTurns : c.turns = user :: assistant :: rest)
    (hOutside : c.evictionStart user < assistant.endPos)
    (h : removeSpan { c with turns := rest } (c.evictionStart user) assistant.endPos =
      (.ok (), c')) :
    c'.records = c.records.dropOldest c.protectedPrefix ∧ c'.EndsFit ∧
      c'.protectedPrefix = c.protectedPrefix := by
  have hStart : 0 ≤ c.evictionStart user := hKeep.trans (le_max_right _ _)
  have hStop : assistant.endPos ≤ i32Max := hFit assistant (by simp [hTurns])
  have hRecords := removeSpan_records hL hStart hOutside.le hStop h
  obtain ⟨ctx1, ctx2, removed, tokens, -, -, -, rfl⟩ := removeSpan_ok h
  refine ⟨?_, ?_, rfl⟩
  · have hHere : c.records.turns = user :: assistant :: rest := hTurns
    rw [hRecords, Records.dropOldest_cut hHere rfl hOutside]
    rfl
  · intro turn hMem
    obtain ⟨before, hBefore, rfl⟩ := List.mem_map.mp hMem
    have hEnd := hFit before (by simp [hTurns, hBefore])
    rw [TurnBoundary.shift_endPos]
    omega

/-- Every state of the drop loop has dropped some number of oldest exchanges. -/
theorem visits_dropped (hL : L.Lawful) {c : Conversation L} {needed : Int}
    (hKeep : 0 ≤ c.protectedPrefix) (hFit : c.EndsFit) {s : Conversation L × Int}
    (h : Loop.Visits (dropTurn needed) (c, 0) s) :
    (∃ n, Dropped c s.1 n) ∧ s.1.EndsFit ∧ s.1.protectedPrefix = c.protectedPrefix := by
  refine h.induction (fun s => (∃ n, Dropped c s.1 n) ∧ s.1.EndsFit ∧
    s.1.protectedPrefix = c.protectedPrefix) ⟨⟨0, by omega, rfl, rfl⟩, hFit, rfl⟩ ?_
  rintro ⟨c1, freed⟩ s' ⟨⟨n, hDropped⟩, hFit1, hKeep1⟩ hTurn
  dsimp only at hDropped hFit1 hKeep1
  have hCase := dropTurn_case needed c1 freed
  rw [hTurn] at hCase
  cases hCase with
  | dropped hFull hTurns hOutside hRemove =>
    obtain ⟨hRecords, hFit2, hKeep2⟩ :=
      removeSpan_dropOldest hL (hKeep1 ▸ hKeep) hFit1 hTurns hOutside hRemove
    rw [hKeep1] at hRecords hKeep2
    exact ⟨⟨n + 1, hDropped.next (by simp [hTurns]) hRecords⟩, hFit2, hKeep2⟩

/-- With fewer than two turns the loop ends where it starts. -/
theorem visits_few {c : Conversation L} {needed : Int} (hFew : c.turns.length < 2)
    {s : Conversation L × Int} (h : Loop.Visits (dropTurn needed) (c, 0) s) : s = (c, 0) := by
  refine h.induction (fun s => s = (c, 0)) rfl ?_
  rintro t t' rfl hTurn
  have := dropTurn_again_length hTurn
  simp only at this
  omega

/-! ### In closed form -/

/-- How many positions the `n` oldest exchanges give up. -/
def cutBy (c : Conversation L) (n : Nat) : Int := max (c.freedBy n) 0

/-- The records of `c` without its `n` oldest exchanges: the tokens and the cells of one
span are gone, and what was behind it is right behind what is left in front. -/
def without (c : Conversation L) (n : Nat) : Records where
  turns := (c.turns.drop (2 * n)).map (·.shift (c.cutBy n))
  tokens := cutTokens c.tokens c.dropFloor (c.dropFloor + c.cutBy n)
  position := c.committedPos - c.cutBy n
  cells := Cells.layout 0 (cutTokens c.tokens c.dropFloor (c.dropFloor + c.cutBy n))

/-- The exchange behind `n` others starts, its evicted part, where the first one did. -/
theorem Bookkeeping.floor {c : Conversation L} {start : Int} (h : c.Bookkeeping start) {n : Nat}
    {user assistant : TurnBoundary} {rest : List TurnBoundary}
    (hCut : c.turns.drop (2 * n) = user :: assistant :: rest) :
    max (user.startPos - c.cutBy n) c.protectedPrefix = c.dropFloor ∧
      c.freedBy n ≤ max (assistant.endPos - c.dropFloor) 0 ∧
      assistant.endPos ≤ c.tokens.length ∧ 0 ≤ c.dropFloor := by
  have hLong := congrArg List.length hCut
  rw [List.length_drop, List.length_cons, List.length_cons] at hLong
  obtain ⟨m, hFrom, hAdj, hZero, hLast⟩ := h.adjacent.drop (2 * n) (by omega)
  rw [hCut] at hAdj
  obtain ⟨hUser, hLe, hAssistant, hLe', hRest⟩ := hAdj
  have hEnd := hRest.le
  have hFloor : c.dropFloor = max start c.protectedPrefix := by
    have hAll := h.adjacent
    rcases hTurns : c.turns with _ | ⟨first, others⟩
    · simp [hTurns] at hLong
    · rw [hTurns] at hAll
      rw [dropFloor, hTurns, List.head?_cons, Option.map_some, Option.getD_some, evictionStart,
        hAll.1]
  have hKeep := h.prefix_nonneg
  have hStart := h.start_nonneg
  have hTokens := h.tokens
  unfold cutBy
  rcases n with _ | n
  · have hHere := hZero rfl
    rw [freedBy]
    refine ⟨?_, ?_, by omega, by omega⟩
    · rw [hFloor, max_self]
      omega
    · omega
  · -- the exchange before this one ends where this one starts
    obtain ⟨before, hBefore⟩ : ∃ before, c.turns[2 * n + 1]? = some before :=
      ⟨_, List.getElem?_eq_getElem (by omega)⟩
    have hHere := hLast (2 * n + 1) before (by omega) hBefore
    rw [freedBy_succ hBefore, ← hHere]
    refine ⟨?_, by omega, by omega, by omega⟩
    rw [hFloor]
    omega

/-- Dropping one exchange after another, of a conversation whose books agree, cuts one
span out of everything. -/
theorem Bookkeeping.dropOldest_iterate {c : Conversation L} {start : Int}
    (h : c.Bookkeeping start) (hCells : L.cells c.ctx = Cells.layout 0 c.tokens) {n : Nat}
    (hn : 2 * n ≤ c.turns.length) :
    (Records.dropOldest c.protectedPrefix)^[n] c.records = c.without n := by
  induction n with
  | zero =>
    have hNone : cutTokens c.tokens c.dropFloor c.dropFloor = c.tokens := List.take_append_drop _ _
    simp only [Function.iterate_zero, id_eq, without, cutBy, freedBy, max_self, Nat.mul_zero,
      List.drop_zero, shift_zero, sub_zero, add_zero, hNone, records, hCells]
  | succ n ih =>
    rw [Function.iterate_succ_apply', ih (by omega)]
    -- the exchange that goes next
    rcases hCut : c.turns.drop (2 * n) with _ | ⟨user, _ | ⟨assistant, rest⟩⟩
    · have hLong := congrArg List.length hCut
      simp at hLong
      omega
    · have hLong := congrArg List.length hCut
      simp at hLong
      omega
    obtain ⟨hFloor, hBefore, hEnd, hNonneg⟩ := h.floor hCut
    have hRest : c.turns.drop (2 * (n + 1)) = rest := by
      rw [show 2 * (n + 1) = 2 * n + 2 by omega, ← List.drop_drop, hCut]
      rfl
    have hFreed : c.freedBy (n + 1) = assistant.endPos - c.dropFloor :=
      freedBy_succ (by rw [← List.getElem?_drop, hCut]; rfl)
    have hTurns : (c.without n).turns = user.shift (c.cutBy n) :: assistant.shift (c.cutBy n) ::
        rest.map (·.shift (c.cutBy n)) := by rw [without, hCut]; rfl
    by_cases hOutside : c.dropFloor < assistant.endPos - c.cutBy n
    · -- it has something behind the opening, and the cuts add up
      have hSum : c.cutBy (n + 1) = c.cutBy n + (assistant.endPos - c.cutBy n - c.dropFloor) := by
        unfold cutBy at hOutside ⊢
        omega
      have hNow : 0 ≤ c.cutBy n := le_max_right _ _
      have hBehind : c.dropFloor ≤ c.dropFloor + c.cutBy n := by omega
      have hTwice : cutTokens (cutTokens c.tokens c.dropFloor (c.dropFloor + c.cutBy n)) c.dropFloor
          (assistant.endPos - c.cutBy n) = _ :=
        cutTokens_cutTokens hNonneg hBehind (by omega) hOutside.le
      have hLength : ((cutTokens c.tokens c.dropFloor (c.dropFloor + c.cutBy n)).length : Int) = _ :=
        length_cutTokens hNonneg hBehind (by omega)
      have hLaid := cells_cutTokens hNonneg hOutside.le
        (show assistant.endPos - c.cutBy n ≤
          (cutTokens c.tokens c.dropFloor (c.dropFloor + c.cutBy n)).length by omega)
      have hStop : c.dropFloor + c.cutBy n + (assistant.endPos - c.cutBy n - c.dropFloor) =
          c.dropFloor + c.cutBy (n + 1) := by omega
      rw [hTwice, hStop] at hLaid
      rw [hStop] at hTwice
      have hPosition : c.committedPos - c.cutBy n - (assistant.endPos - c.cutBy n - c.dropFloor) =
          c.committedPos - c.cutBy (n + 1) := by omega
      rw [Records.dropOldest_cut hTurns hFloor hOutside]
      unfold Records.cut without
      dsimp only [TurnBoundary.shift_endPos]
      rw [shift_shift, hTwice, hLaid, hPosition, hRest, ← hSum]
    · -- it is inside the opening, and nothing more is cut
      have hSame : c.cutBy (n + 1) = c.cutBy n := by
        unfold cutBy at hOutside ⊢
        omega
      rw [Records.dropOldest_kept hTurns hFloor (not_lt.mp hOutside)]
      simp only [without, hRest, hSame]

/-- A failing eviction is not a refusal. -/
theorem removeSpan_err {c c' : Conversation L} {start stop : Int} {e : LlamaSessionError}
    (h : c.removeSpan start stop = (.err e, c')) : ¬ Refusal e := by
  -- the errors are those of the cache
  unfold removeSpan at h
  split at h
  · cases h
    rintro (hE | ⟨_, _, _, hE⟩) <;> cases hE
  · dsimp only at h
    split at h
    · cases h
      rintro (hE | ⟨_, _, _, hE⟩) <;> cases hE
    · split at h <;> cases h

/-- What is protected is a number of tokens. -/
theorem reachable_protected {c : Conversation L} (h : c.Reachable) : 0 ≤ c.protectedPrefix := by
  obtain ⟨c0, ⟨session, options, hOpen⟩, hRun⟩ := h
  obtain ⟨-, -, -, hPrefix, -⟩ := openConversation_ok hOpen
  refine hRun.induction (fun c => 0 ≤ c.protectedPrefix) hPrefix.ge ?_
  intro c event hKeep hReturns
  cases event with
  | request request => exact protectedPrefix_after hKeep request
  | hibernate session =>
    obtain ⟨snapshot, c', hSave, hReopen⟩ := hReturns
    obtain ⟨-, -, -, -, -, -, -, -, hPrefix, -⟩ := openConversationFromState_ok hReopen
    simp only [step, hSave, hReopen, hPrefix, le_refl]

/-- **A refusal, exactly.** When the room check refuses a turn, everything is as it was if
the policy is `Fail` or fewer than two turns were recorded. Otherwise one or more oldest
exchanges are gone, each of them cut out of the turns, the tokens, the position and the
cells, and nothing else is. Of a conversation whose books agree that is one span. -/
theorem ensureRoomFor_refused (hL : L.Lawful) {c c' : Conversation L} {needed : Int}
    {e : LlamaSessionError} (hReachable : c.Reachable) (hFit : c.EndsFit)
    (h : c.ensureRoomFor needed = (.err e, c')) (hRefusal : Refusal e) :
    (c.overflow = .fail ∨ c.turns.length < 2 → c' = c) ∧
      (¬ (c.overflow = .fail ∨ c.turns.length < 2) → ∃ n, 0 < n ∧ 2 * n ≤ c.turns.length ∧
        c'.records = (Records.dropOldest c.protectedPrefix)^[n] c.records ∧
        ∀ start, c.Bookkeeping start → L.cells c.ctx = Cells.layout 0 c.tokens →
          c'.records = c.without n) := by
  have hKeep := reachable_protected hReachable
  unfold ensureRoomFor at h
  split at h
  · cases h
  split at h
  · rename_i hPolicy
    cases h
    exact ⟨fun _ => rfl, fun hNot => absurd (.inl hPolicy) hNot⟩
  rename_i hPolicy
  obtain ⟨⟨c1, freed⟩, hVisits, hLeave⟩ := dropOldestTurnsFor_leaves c needed
  obtain ⟨⟨n, hDropped⟩, -, hKeep1⟩ := visits_dropped hL hKeep hFit hVisits
  have hFewStart : c.turns.length < 2 → c1 = c := fun hFew =>
    congrArg Prod.fst (visits_few hFew hVisits)
  -- what has been dropped, in both forms
  have hGone : ∀ {n : Nat} {c' : Conversation L}, 0 < n → Dropped c c' n →
      ∃ n, 0 < n ∧ 2 * n ≤ c.turns.length ∧
        c'.records = (Records.dropOldest c.protectedPrefix)^[n] c.records ∧
        ∀ start, c.Bookkeeping start → L.cells c.ctx = Cells.layout 0 c.tokens →
          c'.records = c.without n := by
    intro n c' hPositive hDropped
    exact ⟨n, hPositive, hDropped.length, hDropped.records, fun start hBooks hCells =>
      hDropped.records.trans (hBooks.dropOldest_iterate hCells hDropped.length)⟩
  have hCase := dropTurn_case needed c1 freed
  rw [h] at hLeave
  rw [hLeave] at hCase
  simp only [hPolicy, reduceCtorEq, false_or]
  cases hCase with
  | tooFew hFull hFew =>
    refine ⟨hFewStart, fun hMany => hGone ?_ hDropped⟩
    -- nothing dropped yet would mean that there were too few turns to begin with
    have hLeft := hDropped.left
    dsimp only at hLeft
    omega
  | @inside user assistant rest hFull hTurns hInside =>
    refine ⟨fun hFew => ?_, fun _ => hGone (Nat.succ_pos n) (hDropped.next (by simp [hTurns]) ?_)⟩
    · rw [hFewStart hFew] at hTurns
      simp only [hTurns, List.length_cons] at hFew
      omega
    · -- nothing of the exchange is behind the opening
      have hHere : c1.records.turns = user :: assistant :: rest := hTurns
      dsimp only at hKeep1
      rw [← hKeep1, Records.dropOldest_kept hHere rfl hInside]
      rfl
  | stuck hFull hTurns hOutside hRemove hStuck => exact absurd hRefusal (removeSpan_err hRemove)

/-- A conversation just opened, in a context of 64 tokens. -/
def fresh : Conversation (Llama.scripted Script.silent) :=
  (Script.session.openConversation _ (Script.options 64 none [])).get rfl

/-- The fresh conversation was opened. -/
theorem fresh_opened : fresh.Opened := ⟨_, _, Outcome.eq_ok_get _ _⟩

/-- The same after one exchange. -/
def greeted : Conversation (Llama.scripted Script.silent) := fresh.after (Script.say "hi" 4)

/-- It answers a greeting. -/
theorem greeted_returns : fresh.Returns (.request (Script.say "hi" 4)) :=
  .inl ⟨_, Outcome.eq_ok_get _ (by decide)⟩

/-- So the greeted one can be reached. -/
theorem greeted_reachable : greeted.Reachable := fresh_opened.reachable_after greeted_returns

/-- And after two. -/
def acquaintance : Conversation (Llama.scripted Script.silent) :=
  greeted.after (Script.say "ho" 4)

/-- That answers another message. -/
theorem acquaintance_returns : greeted.Returns (.request (Script.say "ho" 4)) :=
  .inl ⟨_, Outcome.eq_ok_get _ (by decide)⟩

/-- So the acquaintance can be reached too. -/
theorem acquaintance_reachable : acquaintance.Reachable := by
  obtain ⟨c0, hOpened, hRun⟩ := greeted_reachable
  exact ⟨c0, hOpened, .tail hRun acquaintance_returns⟩

set_option maxRecDepth 4096 in
/-- Two hundred tokens never fit, and asking for them empties the conversation: both exchanges
are gone from all of its records. -/
theorem acquaintance_refused : ∃ n, 0 < n ∧ 2 * n ≤ acquaintance.turns.length ∧
    (acquaintance.ensureRoomFor 200).2.records =
      (Records.dropOldest acquaintance.protectedPrefix)^[n] acquaintance.records := by
  have hErr : (acquaintance.ensureRoomFor 200).1 = .err .conversationTooLargeToTrim :=
    Outcome.eq_err_of_error (by decide)
  have hFit : acquaintance.EndsFit := by
    unfold EndsFit
    decide
  obtain ⟨n, hPositive, hLength, hRecords, -⟩ := (ensureRoomFor_refused
    (Llama.scripted_lawful _) acquaintance_reachable hFit (Prod.ext hErr rfl) (.inl rfl)).2
      (by decide)
  exact ⟨n, hPositive, hLength, hRecords⟩

/-- A turn refused with `ConversationTooLargeToTrim` has cost the exchange. -/
theorem ensureRoomFor_refusal_loses_turns :
    ¬ ∀ (L : Llama), L.Lawful → ∀ (c c' : Conversation L) (needed : Int) (e : LlamaSessionError),
      c.Reachable → c.ensureRoomFor needed = (.err e, c') → Refusal e →
      c'.turns = c.turns ∧ c'.tokens = c.tokens ∧ c'.committedPos = c.committedPos ∧
        L.cells c'.ctx = L.cells c.ctx := by
  intro h
  have hErr : (greeted.ensureRoomFor 90).1 = .err .conversationTooLargeToTrim :=
    Outcome.eq_err_of_error (by decide)
  have hSame := (h _ (Llama.scripted_lawful _) greeted _ 90 _ greeted_reachable
    (Prod.ext hErr rfl) (.inl rfl)).1
  have hLost : (greeted.ensureRoomFor 90).2.turns.length ≠ greeted.turns.length := by
    decide
  exact hLost (congrArg List.length hSame)

end Conversation

end Rampipe
