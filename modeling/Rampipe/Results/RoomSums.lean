import Mathlib.Data.Nat.Find
import Rampipe.Results.Failure

/-!
# Rampipe — the sums of the room check

`max_new_tokens` comes off the wire as any `i32`, and the room check adds it to the
length of the message and to the position before it compares. A large one wraps; a
negative one lets a message through that is longer than the context; and where the
drop loop stops too early it does so for the message as well as for the reply.

* `SumsFit`              — what one turn of the drop loop computes stays an `i32`.
* `visits_drops`         — the runs of oldest exchanges the loop reaches.
* `roomCheck_sound_iff`  — when no sum overflows and no message is let through that
  does not fit.
-/

namespace Rampipe

variable {L : Llama}

/-! ## What must not overflow -/

/-- The values of an `i32`. -/
def InI32 (x : Int) : Prop := -2147483648 ≤ x ∧ x ≤ i32Max

instance (x : Int) : Decidable (InI32 x) := by
  unfold InI32
  infer_instance

/-- A sum in range does not wrap. -/
theorem InI32.i32_eq {x : Int} (h : InI32 x) : i32 x = x := i32_eq_self h.1 h.2

namespace Conversation

/-- What one turn of the drop loop computes of `c`, with `freed` positions counted. -/
structure SumsFit (needed : Int) (c : Conversation L) (freed : Int) : Prop where
  total : InI32 (c.committedPos + needed)
  left : InI32 (c.committedPos + needed - freed)
  span : ∀ user assistant rest, c.turns = user :: assistant :: rest →
    c.nCtx ≤ c.committedPos + needed - freed → InI32 (assistant.endPos - c.evictionStart user)
  moved : ∀ user assistant rest, c.turns = user :: assistant :: rest →
    c.evictionStart user < assistant.endPos →
    let removed := assistant.endPos - c.evictionStart user
    InI32 (-removed) ∧ InI32 (freed + removed) ∧ InI32 (c.committedPos - removed) ∧
      ∀ turn ∈ rest, InI32 (turn.startPos - removed) ∧ InI32 (turn.endPos - removed)

/-- A run of oldest exchanges, each of them with something to free, that the policy
allows to drop. -/
structure MayDrop (c : Conversation L) (j : Nat) : Prop where
  length : 2 * j ≤ c.turns.length
  policy : 0 < j → c.overflow = .dropOldestTurns
  grows : ∀ i < j, c.freedBy i < c.freedBy (i + 1)

/-- Who may drop exchanges may drop fewer. -/
theorem MayDrop.mono {c : Conversation L} {i j : Nat} (h : c.MayDrop j) (hIj : i ≤ j) :
    c.MayDrop i where
  length := by
    have := h.length
    omega
  policy hi := h.policy (by omega)
  grows k hk := h.grows k (by omega)

/-- Anyone may drop none. -/
theorem MayDrop.zero (c : Conversation L) : c.MayDrop 0 :=
  ⟨by omega, by omega, by omega⟩

namespace PreparedTurn

/-- Every `i32` the room check computes is the exact result. -/
structure NoOverflow (turn : PreparedTurn L) : Prop where
  asked : InI32 (turn.tokens.length + turn.options.maxNewTokens)
  total : InI32 (turn.conversation.committedPos + turn.needed)
  loop : turn.conversation.overflow = .dropOldestTurns → ∀ c freed,
    Loop.Visits (dropTurn turn.needed) (turn.conversation, 0) (c, freed) →
      c.SumsFit turn.needed freed

/-- A turn that goes on has room for its message. -/
def MessageFits (turn : PreparedTurn L) : Prop :=
  ∀ c, turn.conversation.ensureRoomFor turn.needed = (.ok (), c) →
    c.committedPos + turn.tokens.length ≤ c.nCtx

/-- How many positions the caller asks for. -/
def asked (turn : PreparedTurn L) : Int := turn.tokens.length + turn.options.maxNewTokens

/-- Neither the message with its reply nor the whole sequence is longer than an `i32`
counts; a run of oldest exchanges that makes the check pass frees enough for the
message; and none that is dropped takes the sum below `i32::MIN`. -/
structure BudgetFits (turn : PreparedTurn L) : Prop where
  asked : turn.asked ≤ i32Max
  total : turn.conversation.committedPos + turn.asked ≤ i32Max
  stops : ∀ j, turn.conversation.MayDrop j →
    turn.conversation.excess turn.asked < 2 * turn.conversation.freedBy j →
    turn.conversation.excess turn.tokens.length ≤ turn.conversation.freedBy j
  low : ∀ j, turn.conversation.MayDrop j →
    (∀ i < j, 2 * turn.conversation.freedBy i ≤ turn.conversation.excess turn.asked) →
    2 * turn.conversation.freedBy j ≤ turn.conversation.committedPos + turn.asked + 2147483648

/-- What is needed is what was asked for, in range. -/
theorem needed_eq {turn : PreparedTurn L} (hTokens : (turn.tokens.length : Int) ≤ i32Max)
    (hAsked : InI32 turn.asked) : turn.needed = turn.asked := by
  unfold needed
  rw [i32_eq_self (by omega) hTokens]
  exact hAsked.i32_eq

end PreparedTurn

/-! ## The sums the loop compares -/

/-- The exchanges that were dropped had not freed half of the excess before the last
one went. -/
theorem DroppedBy.half {needed : Int} {c c1 : Conversation L} {n : Nat}
    (h : DroppedBy needed c c1 n) (hLeft : 0 ≤ c1.committedPos) (hNeeded : -2147483648 ≤ needed)
    (hSum : c.committedPos + needed ≤ i32Max)
    (hLow : ∀ j ≤ n, (∀ i < j, 2 * c.freedBy i ≤ c.excess needed) →
      2 * c.freedBy j ≤ c.committedPos + needed + 2147483648) :
    ∀ i < n, 2 * c.freedBy i ≤ c.excess needed := by
  intro i
  induction i using Nat.strong_induction_on with
  | h i ih =>
    intro hi
    have hFull := h.full i hi
    have hCommitted := h.committed
    have hLe := freedBy_mono h.grows hi.le le_rfl
    have hStep := hLow i hi.le fun k hk => ih k hk (by omega)
    rw [roomSum_eq (by omega) (h.freed_nonneg hi.le) hNeeded hSum hStep] at hFull
    rw [excess]
    omega

/-- A turn of the loop that finds no room drops an exchange with something to free. -/
theorem dropTurn_drops (hL : L.Lawful) {c : Conversation L} {start : Int} (needed freed : Int)
    (hBooks : c.Bookkeeping start) {user assistant : TurnBoundary} {rest : List TurnBoundary}
    (hTurns : c.turns = user :: assistant :: rest)
    (hOutside : c.evictionStart user < assistant.endPos)
    (hFull : c.nCtx ≤ i32 (i32 (c.committedPos + needed) - freed)) :
    ∃ c', dropTurn needed (c, freed) =
      .again (c', freed + (assistant.endPos - c.evictionStart user)) := by
  have hCase := dropTurn_case needed c freed
  generalize hTurn : dropTurn needed (c, freed) = turn at hCase
  cases hCase with
  | fits hFits => omega
  | tooFew _ hFew =>
    rw [hTurns] at hFew
    simp only [List.length_cons] at hFew
    omega
  | inside _ hTurns' hInside =>
    rw [hTurns] at hTurns'
    cases hTurns'
    omega
  | stuck _ hTurns' hOutside' hRemove hStuck =>
    -- `remove_span` does not fail here
    obtain ⟨ctx, hRemove', -⟩ := removeSpan_exchange hL hBooks hTurns' hOutside'
    rw [hRemove] at hRemove'
    cases hRemove'
    exact absurd rfl hStuck
  | dropped _ hTurns' _ _ =>
    rw [hTurns] at hTurns'
    cases hTurns'
    exact ⟨_, rfl⟩

/-- What the head of the loop sees after some number of drops. -/
theorem visits_droppedBy (hL : L.Lawful) {c c1 : Conversation L} {needed start freed : Int}
    (hBooks : c.Bookkeeping start)
    (h : Loop.Visits (dropTurn needed) (c, 0) (c1, freed)) :
    ∃ n, DroppedBy needed c c1 n ∧ freed = c.freedBy n ∧ c1.nCtx = c.nCtx ∧
      ∃ start1, c1.Bookkeeping start1 := by
  obtain ⟨hTrimmed, hFreed⟩ := visits_trimmed hL hBooks h
  obtain ⟨n, hDropped⟩ := hTrimmed.droppedBy hBooks
  have hCommitted := hDropped.committed
  dsimp only at hFreed hCommitted
  exact ⟨n, hDropped, by omega, hTrimmed.nCtx, hTrimmed.bookkeeping hBooks⟩

/-- The turns that are left say how many exchanges went. -/
theorem DroppedBy.unique {needed : Int} {c c1 : Conversation L} {n j : Nat}
    (h : DroppedBy needed c c1 n) (hLength : c1.turns.length + 2 * j = c.turns.length) : n = j := by
  have hTurns := congrArg List.length h.turns
  rw [List.length_map, List.length_drop] at hTurns
  have := h.length
  omega

/-- The loop reaches every run of exchanges before which there was no room. -/
theorem visits_drops (hL : L.Lawful) {c : Conversation L} {needed start : Int}
    (hBooks : c.Bookkeeping start)
    (hSums : ∀ c1 freed, Loop.Visits (dropTurn needed) (c, 0) (c1, freed) →
      c1.SumsFit needed freed) {j : Nat} (hDrop : c.MayDrop j)
    (hFull : ∀ i < j, 2 * c.freedBy i ≤ c.excess needed) :
    ∃ c1, Loop.Visits (dropTurn needed) (c, 0) (c1, c.freedBy j) ∧ DroppedBy needed c c1 j := by
  suffices h : ∃ c1, Loop.Visits (dropTurn needed) (c, 0) (c1, c.freedBy j) ∧
      c1.turns.length + 2 * j = c.turns.length by
    obtain ⟨c1, hVisits, hLength⟩ := h
    obtain ⟨n, hDropped, -⟩ := visits_droppedBy hL hBooks hVisits
    obtain rfl := hDropped.unique hLength
    exact ⟨c1, hVisits, hDropped⟩
  induction j with
  | zero => exact ⟨c, .here, by omega⟩
  | succ j ih =>
    obtain ⟨c1, hVisits, hLength⟩ := ih (hDrop.mono j.le_succ) fun i hi => hFull i (by omega)
    obtain ⟨n, hDropped, -, hCtx, start1, hBooks1⟩ := visits_droppedBy hL hBooks hVisits
    obtain rfl := hDropped.unique hLength
    have hLong := hDrop.length
    have hGrow := hDrop.grows n n.lt_succ_self
    rcases hTurns : c1.turns with _ | ⟨user, _ | ⟨assistant, rest⟩⟩
    · simp only [hTurns, List.length_nil] at hLength
      omega
    · simp only [hTurns, List.length_cons, List.length_nil] at hLength
      omega
    · obtain ⟨-, -, hFreed⟩ := hDropped.next hTurns
      -- the sum that is compared is exact, and there is no room yet
      have hHere := hSums c1 _ hVisits
      have hFullHere := hFull n n.lt_succ_self
      have hCommitted := hDropped.committed
      rw [excess] at hFullHere
      obtain ⟨c2, hAgain⟩ := dropTurn_drops hL needed (c.freedBy n) hBooks1 hTurns (by omega) (by
          rw [hHere.total.i32_eq, hHere.left.i32_eq]
          omega)
      rw [← hFreed] at hAgain
      refine ⟨c2, .next hVisits hAgain, ?_⟩
      have hShorter := dropTurn_again_length hAgain
      dsimp only at hShorter
      omega

/-! ## The check, exactly -/

/-- What a drop moves around stays in range, as long as the position covers it. -/
theorem Bookkeeping.sumsFit {c : Conversation L} {start needed freed : Int}
    (hBooks : c.Bookkeeping start) (hPrefix : c.protectedPrefix ≤ i32Max) (hFreed : 0 ≤ freed)
    (hAll : freed + c.committedPos ≤ i32Max) (hTotal : InI32 (c.committedPos + needed))
    (hLeft : InI32 (c.committedPos + needed - freed)) : c.SumsFit needed freed := by
  have hMax : i32Max = 2147483647 := rfl
  have hSmall := hBooks.small
  have hNonneg := hBooks.start_nonneg
  have hPrefixNonneg := hBooks.prefix_nonneg
  refine ⟨hTotal, hLeft, ?_, ?_⟩
  · intro user assistant rest hTurns _
    obtain ⟨hStart, hEnd, hRest, hCovered⟩ := hBooks.exchange hTurns
    have hLast := hRest.le
    constructor <;> omega
  · intro user assistant rest hTurns hOutside
    obtain ⟨hStart, hEnd, hRest, hCovered⟩ := hBooks.exchange hTurns
    have hLast := hRest.le
    refine ⟨⟨by omega, by omega⟩, ⟨by omega, by omega⟩, ⟨by omega, by omega⟩, ?_⟩
    intro turn hTurn
    obtain ⟨hFrom, hSpan, hTo⟩ := hRest.mem_bounds turn hTurn
    exact ⟨⟨by omega, by omega⟩, ⟨by omega, by omega⟩⟩

namespace PreparedTurn

variable {turn : PreparedTurn L} {start : Int}

/-- A budget that fits neither overflows nor lets a message through that has no room. -/
theorem BudgetFits.sound (hL : L.Lawful) (hBooks : turn.conversation.Bookkeeping start)
    (hPrefix : turn.conversation.protectedPrefix ≤ i32Max)
    (hTokens : (turn.tokens.length : Int) ≤ i32Max)
    (hWire : InI32 turn.options.maxNewTokens) (h : turn.BudgetFits) :
    turn.NoOverflow ∧ turn.MessageFits := by
  have hAsked : InI32 turn.asked := ⟨by have := hWire.1; unfold PreparedTurn.asked; omega, h.asked⟩
  have hNeeded := needed_eq hTokens hAsked
  have hNonneg := hBooks.committed_nonneg
  have hLow := hAsked.1
  have hTotal := h.total
  -- the sums at a head of the loop, behind some number of drops
  have hHead : ∀ {c1 : Conversation L} {n : Nat}, DroppedBy turn.asked turn.conversation c1 n →
      turn.conversation.MayDrop n → 0 ≤ c1.committedPos →
      0 ≤ turn.conversation.freedBy n ∧ InI32 (c1.committedPos + turn.asked) ∧
        InI32 (c1.committedPos + turn.asked - turn.conversation.freedBy n) := by
    intro c1 n hDropped hDrop hLeft
    have hHalf := hDropped.half hLeft hLow hTotal fun j hj => h.low j (hDrop.mono hj)
    have hSum := h.low n hDrop hHalf
    have hCommitted := hDropped.committed
    have hFreed := hDropped.freed_nonneg le_rfl
    exact ⟨hFreed, ⟨by omega, by omega⟩, ⟨by omega, by omega⟩⟩
  constructor
  · refine ⟨hAsked, ?_, ?_⟩
    · rw [hNeeded]
      exact ⟨by omega, hTotal⟩
    · -- a head of the loop lies behind a run of oldest exchanges
      intro hPolicy c1 freed hVisits
      rw [hNeeded] at hVisits ⊢
      obtain ⟨n, hDropped, rfl, -, start1, hBooks1⟩ := visits_droppedBy hL hBooks hVisits
      obtain ⟨hFreed, hSum, hLeft⟩ := hHead hDropped
        ⟨hDropped.length, fun _ => hPolicy, hDropped.grows⟩ hBooks1.committed_nonneg
      have hSmall := hBooks.small
      have hCommitted := hDropped.committed
      have hSame := (visits_trimmed hL hBooks hVisits).1.protectedPrefix
      dsimp only at hSame
      exact hBooks1.sumsFit (by omega) hFreed (by omega) hSum hLeft
  · intro c1 hOk
    rw [hNeeded] at hOk
    by_cases hPolicy : turn.conversation.overflow = .dropOldestTurns
    · have hCase := ensureRoomFor_case hL hBooks turn.asked
      rw [hOk] at hCase
      cases hCase with
      | room hTrimmed hFits =>
        obtain ⟨start1, hBooks1⟩ := hTrimmed.bookkeeping hBooks
        obtain ⟨n, hDropped⟩ := hTrimmed.droppedBy hBooks
        have hDrop : turn.conversation.MayDrop n :=
          ⟨hDropped.length, fun _ => hPolicy, hDropped.grows⟩
        obtain ⟨hFreed, hSum, hLeft⟩ := hHead hDropped hDrop hBooks1.committed_nonneg
        have hCommitted := hDropped.committed
        have hSame : turn.conversation.committedPos - c1.committedPos =
            turn.conversation.freedBy n := by omega
        rw [roomSum, hSame, hSum.i32_eq, hLeft.i32_eq] at hFits
        have hStops := h.stops n hDrop (by
          rw [excess]
          omega)
        rw [excess] at hStops
        rw [hTrimmed.nCtx]
        omega
    · -- nothing is dropped, so the check has passed at once
      unfold ensureRoomFor at hOk
      by_cases hFits : i32 (turn.conversation.committedPos + turn.asked) < turn.conversation.nCtx
      · rw [if_pos hFits] at hOk
        cases hOk
        rw [i32_eq_self (by omega) hTotal] at hFits
        have hStops := h.stops 0 (.zero _) (by
          rw [excess, freedBy]
          omega)
        rw [excess, freedBy] at hStops
        omega
      · rw [if_neg hFits] at hOk
        rcases hKind : turn.conversation.overflow with _ | _
        · rw [hKind] at hOk
          cases hOk
        · exact absurd hKind hPolicy

/-- The loop reaches the runs of `BudgetFits`, and its sums are exact there. -/
theorem NoOverflow.low (hL : L.Lawful) (hBooks : turn.conversation.Bookkeeping start)
    (hNeeded : turn.needed = turn.asked) (h : turn.NoOverflow) {j : Nat}
    (hDrop : turn.conversation.MayDrop j)
    (hFull : ∀ i < j, 2 * turn.conversation.freedBy i ≤ turn.conversation.excess turn.asked) :
    2 * turn.conversation.freedBy j ≤
      turn.conversation.committedPos + turn.asked + 2147483648 := by
  rcases Nat.eq_zero_or_pos j with rfl | hPos
  · have hTotal := h.total.1
    rw [hNeeded] at hTotal
    rw [freedBy]
    omega
  · obtain ⟨c1, hVisits, hDropped⟩ :=
      visits_drops hL hBooks (hNeeded ▸ h.loop (hDrop.policy hPos)) hDrop hFull
    rw [← hNeeded] at hVisits
    have hLeft := (h.loop (hDrop.policy hPos) c1 _ hVisits).left.1
    have hCommitted := hDropped.committed
    omega

/-- The first run that makes the check pass is where the loop leaves. -/
theorem NoOverflow.stops (hL : L.Lawful) (hBooks : turn.conversation.Bookkeeping start)
    (hNeeded : turn.needed = turn.asked) (h : turn.NoOverflow) (hFits : turn.MessageFits)
    {j : Nat} (hDrop : turn.conversation.MayDrop j)
    (hTwice : turn.conversation.excess turn.asked < 2 * turn.conversation.freedBy j) :
    turn.conversation.excess turn.tokens.length ≤ turn.conversation.freedBy j := by
  have hSome : ∃ i, turn.conversation.excess turn.asked < 2 * turn.conversation.freedBy i :=
    ⟨j, hTwice⟩
  -- the first of the runs that are long enough
  obtain ⟨i, hHere, hFirst⟩ : ∃ i,
      turn.conversation.excess turn.asked < 2 * turn.conversation.freedBy i ∧
        ∀ k < i, 2 * turn.conversation.freedBy k ≤ turn.conversation.excess turn.asked :=
    ⟨Nat.find hSome, Nat.find_spec hSome, fun k hk => not_lt.mp (Nat.find_min hSome hk)⟩
  have hIj : i ≤ j := by
    by_contra hLt
    have := hFirst j (not_le.mp hLt)
    omega
  have hDropHere := hDrop.mono hIj
  have hLe := freedBy_mono hDrop.grows hIj le_rfl
  have hTotal := h.total
  rw [hNeeded] at hTotal
  have hRoom : ∃ c1, turn.conversation.ensureRoomFor turn.needed = (.ok (), c1) ∧
      c1.nCtx = turn.conversation.nCtx ∧
      c1.committedPos = turn.conversation.committedPos - turn.conversation.freedBy i := by
    rcases Nat.eq_zero_or_pos i with rfl | hPos
    · -- the check before the loop passes
      refine ⟨turn.conversation, ?_, rfl, by rw [freedBy]; omega⟩
      rw [freedBy, excess] at hHere
      rw [hNeeded, ensureRoomFor, if_pos]
      rw [hTotal.i32_eq]
      omega
    · have hLoop := h.loop (hDropHere.policy hPos)
      obtain ⟨c1, hVisits, hDropped⟩ :=
        visits_drops hL hBooks (hNeeded ▸ hLoop) hDropHere hFirst
      rw [← hNeeded] at hVisits
      have hSums := hLoop c1 _ hVisits
      have hCtx := (visits_trimmed hL hBooks hVisits).1.nCtx
      have hCommitted := hDropped.committed
      dsimp only at hCtx
      refine ⟨c1, ensureRoomFor_of_visits (hDropHere.policy hPos) hVisits ?_, hCtx, hCommitted⟩
      rw [hSums.total.i32_eq, hSums.left.i32_eq, hNeeded]
      rw [excess] at hHere
      omega
  obtain ⟨c1, hOk, hCtx, hCommitted⟩ := hRoom
  have hPromise := hFits c1 hOk
  rw [excess]
  omega

end PreparedTurn

open PreparedTurn in
/-- **The sums of the room check.** For every message and every amount a caller may ask
for, no `i32` of the room check overflows and no message is let through that does not
fit, if and only if the amounts are as `BudgetFits` says. -/
theorem roomCheck_sound_iff (hL : L.Lawful) {c : Conversation L} {request : Request}
    {turn : PreparedTurn L} (hWell : c.WellFormed) (hPrefix : c.protectedPrefix ≤ i32Max)
    (hPrepare : c.prepare request = .ok turn)
    (hTokens : (turn.tokens.length : Int) ≤ i32Max) (hWire : InI32 turn.options.maxNewTokens) :
    turn.NoOverflow ∧ turn.MessageFits ↔ turn.BudgetFits := by
  obtain ⟨hTurnWell, -⟩ := hWell.prepared hPrepare
  obtain ⟨start, hBooks⟩ := hTurnWell.books
  have hTurnPrefix : turn.conversation.protectedPrefix ≤ i32Max := by
    cases prepare_ok hPrepare with
    | message _ _ hProtect =>
      rcases protectOpening_ok hProtect with rfl | ⟨-, -, openingTokens, -, hPre, rfl⟩
      · exact hPrefix
      · have hLength := hPre.length_le
        dsimp only at hTokens ⊢
        omega
    | results => exact hPrefix
  constructor
  · rintro ⟨hSums, hFits⟩
    have hNeeded := needed_eq hTokens hSums.asked
    refine ⟨hSums.asked.2, ?_, ?_, ?_⟩
    · rw [← hNeeded]
      exact hSums.total.2
    · exact fun j hDrop hTwice => hSums.stops hL hBooks hNeeded hFits hDrop hTwice
    · exact fun j hDrop hFull => hSums.low hL hBooks hNeeded hDrop hFull
  · exact fun h => h.sound hL hBooks hTurnPrefix hTokens hWire

/-- No run of exchanges frees more than there is. -/
theorem freedBy_le {c : Conversation L} {start : Int} (hBooks : c.Bookkeeping start) (j : Nat) :
    c.freedBy j ≤ c.committedPos := by
  have hNonneg := hBooks.committed_nonneg
  rcases j with _ | j
  · exact hNonneg
  · rcases hTurn : c.turns[2 * j + 1]? with _ | assistant
    · rw [freedBy, hTurn]
      exact hNonneg
    · rw [freedBy_succ hTurn]
      obtain ⟨-, -, hEnd⟩ := hBooks.adjacent.mem_bounds assistant (List.mem_of_getElem? hTurn)
      have hFloor : 0 ≤ c.dropFloor := by
        have hPrefix := hBooks.prefix_nonneg
        unfold dropFloor
        rcases c.turns.head? with _ | user
        · exact hPrefix
        · exact hPrefix.trans (le_max_right _ _)
      omega

/-- Where the position is inside the context, no drop takes a sum below `i32::MIN`. -/
theorem low_of_inside {c : Conversation L} {start asked : Int} (hBooks : c.Bookkeeping start)
    (hInside : c.committedPos ≤ c.nCtx) (hAsked : -2147483648 ≤ asked) {j : Nat}
    (hDrop : c.MayDrop j) (hFull : ∀ i < j, 2 * c.freedBy i ≤ c.excess asked) :
    2 * c.freedBy j ≤ c.committedPos + asked + 2147483648 := by
  have hNonneg := hBooks.committed_nonneg
  rcases j with _ | j
  · rw [freedBy]
    omega
  · have hLast := hFull j j.lt_succ_self
    have hFreed : 0 ≤ c.freedBy j :=
      freedBy_mono hDrop.grows (Nat.zero_le j) j.le_succ
    have hAll := freedBy_le hBooks (j + 1)
    have hSmall := hBooks.small
    have hMax : i32Max = 2147483647 := rfl
    rw [excess] at hLast
    omega

/-! ## Amounts off the wire -/

/-- The three exchanges are well-formed. -/
theorem threeExchanges_wellFormed : threeExchanges.WellFormed :=
  ⟨⟨0, threeExchanges_bookkeeping⟩, ⟨rfl, rfl, rfl, rfl, rfl, rfl, trivial⟩, rfl⟩

/-- A message of two characters, and an answer of at most `maxNewTokens` tokens. -/
def shortMessage (maxNewTokens : Int) : Request :=
  .send "hi".toList none ⟨maxNewTokens, .greedy {}, none, none⟩

/-- The message, ready to be sent to the three exchanges. -/
def shortTurn (maxNewTokens : Int) : PreparedTurn (Llama.scripted Script.silent) where
  conversation := threeExchanges
  formattedPrompt := "hi".toList
  tokens := "hi".toList.map Script.tokenOf
  assistantPrefill := none
  options := ⟨maxNewTokens, .greedy {}, none, none⟩

/-- The short message is prepared. -/
theorem prepare_shortMessage (maxNewTokens : Int) :
    threeExchanges.prepare (shortMessage maxNewTokens) = .ok (shortTurn maxNewTokens) := rfl

/-- Ten tokens of an answer take one of the exchanges, and every sum is exact. -/
theorem shortTurn_sound : (shortTurn 10).NoOverflow ∧ (shortTurn 10).MessageFits := by
  refine (roomCheck_sound_iff (Llama.scripted_lawful _) threeExchanges_wellFormed (by decide)
    (prepare_shortMessage 10) (by decide) (by decide)).mpr ⟨by decide, by decide, ?_, ?_⟩
  · -- the message alone is inside the context
    intro j hDrop _
    have hExcess : (shortTurn 10).conversation.excess (shortTurn 10).tokens.length ≤ 0 := by decide
    have hFreed : 0 ≤ (shortTurn 10).conversation.freedBy j :=
      freedBy_mono hDrop.grows (Nat.zero_le j) le_rfl
    exact hExcess.trans hFreed
  · exact fun j hDrop hFull =>
      low_of_inside threeExchanges_bookkeeping (by decide) (by decide) hDrop hFull

/-- With the largest amount the wire carries, the very first sum overflows. -/
theorem shortTurn_overflows :
    ¬ ∀ (L : Llama), L.Lawful → ∀ (c : Conversation L) (request : Request) (turn : PreparedTurn L),
      c.WellFormed → c.protectedPrefix ≤ i32Max → c.prepare request = .ok turn →
      (turn.tokens.length : Int) ≤ i32Max → InI32 turn.options.maxNewTokens →
        turn.NoOverflow ∧ turn.MessageFits := by
  intro h
  have hSums := (h _ (Llama.scripted_lawful _) threeExchanges (shortMessage i32Max)
    (shortTurn i32Max) threeExchanges_wellFormed (by decide) (prepare_shortMessage _) (by decide)
    ⟨by decide, by decide⟩).1
  exact absurd hSums.asked.2 (by decide)

end Conversation

end Rampipe
