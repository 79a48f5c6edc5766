import Rampipe.Model.Connection
import Rampipe.Results.Opening

/-!
# Rampipe — counting completed exchanges

`turn_count` is half the number of recorded turns, and a client of the daemon counts
the replies it got. Two things separate them: the room check takes turns off the list,
and a call whose reply fails leaves its message's turn there without one.

* `PreparedTurn.Fits`, `MustDrop` — what the room check will do, from the state before it.
* `counts_iff`                    — when one call moves both counts alike.
* `turnCount_eq_iff`              — when they agree in every state of a run.
* `chatty_undercounts`            — a run in which they do not.
-/

namespace Rampipe

namespace Conversation

variable {L : Llama}

/-! ## What the room check does to the turns -/

/-- `c'` is `c` with `k` exchanges fewer. -/
def FewerTurns (k : Nat) (c c' : Conversation L) : Prop :=
  c'.turns.length + 2 * k = c.turns.length

theorem removeSpan_length (c : Conversation L) (start stop : Int) :
    (c.removeSpan start stop).2.turns.length = c.turns.length := by
  unfold removeSpan
  dsimp only
  split
  · rfl
  split
  · rfl
  split
  · simp
  · simp

/-- Every turn of the loop that goes round again has taken two turns off, and so have
all of them together. -/
theorem visits_fewerTurns {needed : Int} {s s' : Conversation L × Int}
    (hVisits : Loop.Visits (dropTurn needed) s s') : ∃ k, FewerTurns k s.1 s'.1 := by
  refine hVisits.induction (fun t => ∃ k, FewerTurns k s.1 t.1) ⟨0, by simp [FewerTurns]⟩ ?_
  rintro t t' ⟨k, hk⟩ hAgain
  have hLength := dropTurn_again_length hAgain
  exact ⟨k + 1, by unfold FewerTurns at *; omega⟩

/-- Two states of the loop with as many turns are one. -/
theorem visits_eq_of_length {needed : Int} {s s' : Conversation L × Int}
    (hVisits : Loop.Visits (dropTurn needed) s s')
    (hLength : s'.1.turns.length = s.1.turns.length) : s' = s := by
  rcases hVisits.cases_head with rfl | ⟨t, hAgain, hRest⟩
  · rfl
  · have hShorter := dropTurn_again_length hAgain
    obtain ⟨k, hk⟩ := visits_fewerTurns hRest
    unfold FewerTurns at hk
    omega

/-- The turn that leaves the loop takes an exchange off only when it fails. -/
theorem leave_fewerTurns {needed : Int} {s : Conversation L × Int} {r : Step L Unit}
    (hLeave : dropTurn needed s = .leave r) :
    r = (.ok (), s.1) ∨
      r.1 ≠ .ok () ∧ ∃ k, FewerTurns k s.1 r.2 ∧ (2 ≤ s.1.turns.length → k = 1) := by
  have hCase := dropTurn_case needed s.1 s.2
  rw [hLeave] at hCase
  cases hCase with
  | fits _ => exact .inl rfl
  | tooFew _ hFew => exact .inr ⟨by simp, 0, rfl, by omega⟩
  | inside _ hTurns _ => exact .inr ⟨by simp, 1, by simp [FewerTurns, hTurns], fun _ => rfl⟩
  | @stuck user assistant rest o c' _ hTurns _ hRemove hStuck =>
    have hLength := removeSpan_length { s.1 with turns := rest } (s.1.evictionStart user)
      assistant.endPos
    rw [hRemove] at hLength
    dsimp only at hLength
    refine .inr ⟨hStuck, 1, ?_, fun _ => rfl⟩
    rw [FewerTurns, hLength, hTurns]
    simp

namespace PreparedTurn

/-- The turn and the longest reply it may get fit behind what is there. -/
def Fits (turn : PreparedTurn L) : Prop :=
  i32 (turn.conversation.committedPos + turn.needed) < turn.conversation.nCtx

instance (turn : PreparedTurn L) : Decidable turn.Fits :=
  inferInstanceAs (Decidable (_ < _))

/-- They do not fit, and the conversation has an exchange that its policy lets go. -/
structure MustDrop (turn : PreparedTurn L) : Prop where
  full : ¬ turn.Fits
  policy : turn.conversation.overflow = .dropOldestTurns
  pair : 2 ≤ turn.conversation.turns.length

/-- Without its oldest exchange the conversation is `c1`, and that is room enough. -/
def OneGoes (turn : PreparedTurn L) (c1 : Conversation L) : Prop :=
  ∃ user assistant rest, turn.conversation.turns = user :: assistant :: rest ∧
    turn.conversation.evictionStart user < assistant.endPos ∧
    Conversation.removeSpan { turn.conversation with turns := rest }
      (turn.conversation.evictionStart user) assistant.endPos = (.ok (), c1) ∧
    i32 (i32 (c1.committedPos + turn.needed) -
      (assistant.endPos - turn.conversation.evictionStart user)) < c1.nCtx

/-- On `c` the engine takes the message, and fails in the reply to it. -/
def ReplyFails (turn : PreparedTurn L) (c : Conversation L) : Prop :=
  ∃ batch c1 e c2, c.prefillUser turn.tokens = (.ok batch, c1) ∧
    c1.generateAssistant turn.options batch = (.err e, c2)

variable {turn : PreparedTurn L}

theorem Fits.ensureRoomFor (h : turn.Fits) :
    turn.conversation.ensureRoomFor turn.needed = (.ok (), turn.conversation) := by
  unfold Conversation.ensureRoomFor
  exact if_pos h

/-- Without room and without an exchange to drop the check refuses, and drops nothing. -/
theorem ensureRoomFor_refuses (hFits : ¬ turn.Fits) (hDrop : ¬ turn.MustDrop) :
    ∃ e, turn.conversation.ensureRoomFor turn.needed = (.err e, turn.conversation) := by
  have hFull : ¬ i32 (turn.conversation.committedPos + turn.needed) < turn.conversation.nCtx :=
    hFits
  unfold Conversation.ensureRoomFor
  rw [if_neg hFull]
  rcases hPolicy : turn.conversation.overflow with _ | _
  · exact ⟨_, rfl⟩
  -- the loop leaves in its first turn, for want of two turns
  have hFew : turn.conversation.turns.length < 2 := by
    by_contra hPair
    exact hDrop ⟨hFits, hPolicy, not_lt.mp hPair⟩
  have hNone : ∀ user assistant rest, turn.conversation.turns ≠ user :: assistant :: rest := by
    intro user assistant rest hTurns
    rw [hTurns, List.length_cons, List.length_cons] at hFew
    omega
  have hLeave : dropTurn turn.needed (turn.conversation, 0) =
      .leave (.err .conversationTooLargeToTrim, turn.conversation) := by
    have hCase := dropTurn_case turn.needed turn.conversation 0
    generalize dropTurn turn.needed (turn.conversation, 0) = result at hCase ⊢
    cases hCase with
    | fits hRoom => exact absurd (by rwa [i32_i32] at hRoom) hFits
    | tooFew _ _ => rfl
    | inside _ hTurns _ => exact absurd hTurns (hNone _ _ _)
    | stuck _ hTurns _ _ _ => exact absurd hTurns (hNone _ _ _)
    | dropped _ hTurns _ _ => exact absurd hTurns (hNone _ _ _)
  obtain ⟨s, hVisits, hLeft⟩ := dropOldestTurnsFor_leaves turn.conversation turn.needed
  rcases hVisits.cases_head with rfl | ⟨s', hAgain, -⟩
  · rw [hLeave] at hLeft
    exact ⟨_, (Loop.Turn.leave.inj hLeft).symm⟩
  · rw [hLeave] at hAgain
    cases hAgain

/-- The first turn of a loop that must drop. -/
theorem MustDrop.first (h : turn.MustDrop) {c1 : Conversation L} :
    dropTurn turn.needed (turn.conversation, 0) ≠ .leave (.ok (), c1) := by
  intro hLeave
  have hCase := dropTurn_case turn.needed turn.conversation 0
  rw [hLeave] at hCase
  cases hCase with
  | fits hRoom => exact h.full (by rwa [i32_i32] at hRoom)
  | stuck _ _ _ _ hStuck => exact hStuck rfl

/-- A check that must drop drops one exchange at least; when it drops just one and makes
room, that one is enough. -/
theorem MustDrop.ensureRoomFor (h : turn.MustDrop) :
    ∃ k, 1 ≤ k ∧
      FewerTurns k turn.conversation (turn.conversation.ensureRoomFor turn.needed).2 ∧
      ((turn.conversation.ensureRoomFor turn.needed).1 = .ok () → k = 1 →
        turn.OneGoes (turn.conversation.ensureRoomFor turn.needed).2) := by
  have hFull : ¬ i32 (turn.conversation.committedPos + turn.needed) < turn.conversation.nCtx :=
    h.full
  have hEnsure : turn.conversation.ensureRoomFor turn.needed =
      turn.conversation.dropOldestTurnsFor turn.needed := by
    unfold Conversation.ensureRoomFor
    rw [if_neg hFull, h.policy]
  rw [hEnsure]
  obtain ⟨s, hVisits, hLeave⟩ := dropOldestTurnsFor_leaves turn.conversation turn.needed
  generalize turn.conversation.dropOldestTurnsFor turn.needed = r at hLeave ⊢
  rcases hVisits.cases_head with rfl | ⟨s', hAgain, hRest⟩
  · -- the first turn leaves, which is a failure and costs the exchange
    rcases leave_fewerTurns hLeave with rfl | ⟨hFails, k, hk, hOne⟩
    · exact absurd hLeave h.first
    · exact ⟨k, by rw [hOne h.pair], hk, fun hOk => absurd hOk hFails⟩
  · -- the first turn drops the oldest exchange
    have hLength := dropTurn_again_length hAgain
    obtain ⟨k, hk⟩ := visits_fewerTurns hRest
    unfold FewerTurns at hk ⊢
    dsimp only at hLength
    rcases leave_fewerTurns hLeave with rfl | ⟨hFails, k', hk', -⟩
    · refine ⟨k + 1, by omega, by dsimp only; omega, fun _ hOne => ?_⟩
      -- and when no other goes, the loop leaves behind it
      obtain rfl : s = s' := visits_eq_of_length hRest (by omega)
      obtain ⟨c1, freed⟩ := s
      have hFirst := dropTurn_case turn.needed turn.conversation 0
      rw [hAgain] at hFirst
      cases hFirst with
      | @dropped user assistant rest _ _ hTurns hOutside hRemove =>
        refine ⟨user, assistant, rest, hTurns, hOutside, hRemove, ?_⟩
        have hLast := dropTurn_case turn.needed c1
          (0 + (assistant.endPos - turn.conversation.evictionStart user))
        rw [hLeave] at hLast
        generalize hSame : Loop.Turn.leave (Outcome.ok (), c1) = result at hLast
        cases hLast with
        | fits hRoom => rwa [Int.zero_add] at hRoom
        | tooFew _ _ => cases hSame
        | inside _ _ _ => cases hSame
        | stuck _ _ _ _ hStuck => cases hSame; exact absurd rfl hStuck
        | dropped _ _ _ _ => cases hSame
    · unfold FewerTurns at hk'
      exact ⟨k + 1 + k', by omega, by omega, fun hOk => absurd hOk hFails⟩

/-- The check drops the one exchange that is enough. -/
theorem OneGoes.ensureRoomFor {c1 : Conversation L} (hOne : turn.OneGoes c1)
    (h : turn.MustDrop) :
    turn.conversation.ensureRoomFor turn.needed = (.ok (), c1) ∧
      FewerTurns 1 turn.conversation c1 := by
  obtain ⟨user, assistant, rest, hTurns, hOutside, hRemove, hRoom⟩ := hOne
  have hFull : turn.conversation.nCtx ≤
      i32 (i32 (turn.conversation.committedPos + turn.needed) - 0) := by
    rw [i32_i32]
    exact not_lt.mp h.full
  have hAgain : dropTurn turn.needed (turn.conversation, 0) =
      .again (c1, assistant.endPos - turn.conversation.evictionStart user) := by
    have hStart : evictionStart { turn.conversation with turns := rest } user =
      turn.conversation.evictionStart user := rfl
    unfold dropTurn
    dsimp only
    rw [if_neg (not_lt.mpr hFull), hTurns]
    dsimp only
    rw [hStart, if_neg (by omega), hRemove]
    dsimp only
    rw [Int.zero_add]
  have hLength := dropTurn_again_length hAgain
  refine ⟨ensureRoomFor_of_visits h.policy (.next .here hAgain) hRoom, ?_⟩
  unfold FewerTurns
  dsimp only at hLength
  omega

end PreparedTurn

/-! ## What a call does to the number of turns -/

/-- A prefill records the user turn, or nothing. -/
theorem prefillUser_length {c c' : Conversation L} {tokens : List LlamaToken}
    {o : Outcome L.Batch} (h : c.prefillUser tokens = (o, c')) :
    c'.turns.length = c.turns.length + o.isOk.toNat := by
  rcases prefillUser_case c tokens with ⟨e, ctx, -, hCase⟩ | ⟨batch, pos, ctx, -, hCase⟩
  · rw [h] at hCase
    cases hCase
    rfl
  · rw [h] at hCase
    cases hCase
    simp [recordTurn, Outcome.isOk]

/-- A generation records the assistant turn, or nothing. -/
theorem generateAssistant_length {c c' : Conversation L} {options : TurnOptions} {batch : L.Batch}
    {o : Outcome (Text × List LlamaToken)} (h : c.generateAssistant options batch = (o, c')) :
    c'.turns.length = c.turns.length + o.isOk.toNat := by
  rcases generateAssistant_case c options batch with ⟨e, s, -, hCase⟩ | ⟨s, -, hCase⟩
  · rw [h] at hCase
    cases hCase
    rfl
  · rw [h] at hCase
    cases hCase
    simp [recordTurn, Outcome.isOk]

/-- The call returns `Ok`. -/
def served (c : Conversation L) (request : Request) : Bool := (c.call request).1.isOk

/-- What a turn that returns adds to the turns the room check left: the message and its
reply, the message alone when the reply fails, or nothing. -/
theorem run_length {turn : PreparedTurn L} {o : Outcome Unit} {c1 : Conversation L}
    (hRoom : turn.conversation.ensureRoomFor turn.needed = (o, c1))
    (hReturns : (∃ result, turn.run.1 = .ok result) ∨ ∃ e, turn.run.1 = .err e) :
    (o = .ok () ∧ turn.ReplyFails c1 ∧ turn.run.1.isOk = false ∧
        turn.run.2.turns.length = c1.turns.length + 1) ∨
      (¬ (o = .ok () ∧ turn.ReplyFails c1) ∧
        turn.run.2.turns.length = c1.turns.length + 2 * turn.run.1.isOk.toNat) := by
  have hCase := run_case turn
  generalize turn.run = result at hCase hReturns ⊢
  cases hCase with
  | refused hRefused =>
    rw [hRoom] at hRefused
    cases hRefused
    exact .inr ⟨by simp, rfl⟩
  | broken _ hBroken =>
    -- neither of the two returns
    rcases hBroken with ⟨-, rfl⟩ | ⟨-, rfl⟩
    · rcases hReturns with ⟨_, h⟩ | ⟨_, h⟩ <;> cases h
    · rcases hReturns with ⟨_, h⟩ | ⟨_, h⟩ <;> cases h
  | prefillFails hHere hPrefill =>
    -- the message is not recorded
    rw [hRoom] at hHere
    cases hHere
    have hLength := prefillUser_length hPrefill
    refine .inr ⟨?_, hLength⟩
    rintro ⟨-, batch, c2, e, c3, hOther, -⟩
    rw [hPrefill] at hOther
    cases hOther
  | generationFails hHere hPrefill hGenerate =>
    -- the message is, and no reply to it
    rw [hRoom] at hHere
    cases hHere
    have hLength := prefillUser_length hPrefill
    have hLength' := generateAssistant_length hGenerate
    simp only [Outcome.isOk, Bool.toNat_true, Bool.toNat_false] at hLength hLength'
    exact .inl ⟨rfl, ⟨_, _, _, _, hPrefill, hGenerate⟩, rfl, by dsimp only; omega⟩
  | @replied c1 c2 c3 batch text generated hHere hPrefill hGenerate =>
    rw [hRoom] at hHere
    cases hHere
    have hLength := prefillUser_length hPrefill
    have hLength' := generateAssistant_length hGenerate
    -- the reply was parsed, since the call came back
    have hReport : (c3.report turn.formattedPrompt turn.assistantPrefill text generated).isOk =
        true := by
      unfold report at hReturns ⊢
      dsimp only at hReturns ⊢
      split at hReturns
      · rcases hReturns with ⟨_, h⟩ | ⟨_, h⟩ <;> cases h
      · rfl
    refine .inr ⟨?_, ?_⟩
    · rintro ⟨-, batch', c2', e, c3', hOther, hFails⟩
      rw [hPrefill] at hOther
      cases hOther
      rw [hGenerate] at hFails
      cases hFails
    · rw [hReport]
      simp only [Outcome.isOk, Bool.toNat_true] at hLength hLength' ⊢
      omega

/-- The call moves both counts alike. Of a turn that fits, a reply may fail as long as no
message waits for its own already. A turn that must drop loses the exchanges it drops, and
what goes wrong makes up for it in one case: the one exchange that goes is made up for by
two messages without a reply, this one and one before it. -/
def Counts (c : Conversation L) (request : Request) : Prop :=
  ∀ turn, c.prepare request = .ok turn →
    (turn.Fits → ¬ (c.turns.length % 2 = 1 ∧ turn.ReplyFails turn.conversation)) ∧
    (turn.MustDrop → c.turns.length % 2 = 1 ∧ ∃ c1, turn.OneGoes c1 ∧ turn.ReplyFails c1)

/-- A turn that fits behind complete exchanges moves both counts alike, however it ends. -/
theorem Counts.of_fits {c : Conversation L} {request : Request}
    (hFits : ∀ turn, c.prepare request = .ok turn → turn.Fits)
    (hEven : c.turns.length % 2 = 0) : c.Counts request :=
  fun turn hPrepare => ⟨fun _ h => by omega, fun h => absurd (hFits turn hPrepare) h.full⟩

/-- **One call, exactly.** The count that `turn_count` gives moves as the client's does if
and only if the state before the call and the request say so. -/
theorem counts_iff (c : Conversation L) (request : Request)
    (hReturns : c.Returns (.request request)) :
    (c.after request).turnCount = c.turnCount + (c.served request).toNat ↔ c.Counts request := by
  have hCall : (∃ result, (c.call request).1 = .ok result) ∨ ∃ e, (c.call request).1 = .err e :=
    hReturns
  unfold after served turnCount Counts
  rw [call_eq] at hCall ⊢
  rcases hPrepare : c.prepare request with e | turn
  · simp [runPrepared, Outcome.isOk]
  rw [hPrepare] at hCall
  simp only [runPrepared, Except.ok.injEq, forall_eq'] at hCall ⊢
  have hTurns := congrArg List.length (prepare_frame hPrepare).1
  rcases hRoom : turn.conversation.ensureRoomFor turn.needed with ⟨o, c1⟩
  have hLength := run_length hRoom hCall
  by_cases hFits : turn.Fits
  · -- nothing goes, and only a message that waits for its reply can be counted for one
    rw [hFits.ensureRoomFor] at hRoom
    obtain ⟨rfl, rfl⟩ := Prod.mk.inj hRoom
    have hNot : ¬ turn.MustDrop := fun h => h.full hFits
    rcases hLength with ⟨-, hFails, hOk, hLength⟩ | ⟨hNone, hLength⟩
    · rw [hOk, hLength]
      simp only [hFits, hFails, hNot, Bool.toNat_false, true_implies, false_implies, and_true]
      omega
    · rw [hLength]
      have hReplies : ¬ turn.ReplyFails turn.conversation := fun h => hNone ⟨rfl, h⟩
      simp only [hFits, hReplies, hNot, and_false, not_false_eq_true, true_implies,
        false_implies, and_true, iff_true]
      omega
  by_cases hDrop : turn.MustDrop
  · -- one exchange goes at least, and a failed reply leaves one message more for it: the
    -- halves agree when just one goes and a message was waiting before
    obtain ⟨k, hk, hFewer, hOne⟩ := hDrop.ensureRoomFor
    rw [hRoom] at hFewer hOne
    unfold FewerTurns at hFewer
    simp only [hFits, hDrop, true_implies, false_implies, true_and]
    dsimp only at hFewer hOne
    rcases hLength with ⟨rfl, hFails, hOk, hLength⟩ | ⟨hNone, hLength⟩
    · rw [hOk, hLength, Bool.toNat_false]
      constructor
      · intro hSame
        exact ⟨by omega, c1, hOne rfl (by omega), hFails⟩
      · rintro ⟨hOdd, c1', hGoes, -⟩
        obtain ⟨hRoom', hFewer'⟩ := hGoes.ensureRoomFor hDrop
        rw [hRoom] at hRoom'
        obtain ⟨-, rfl⟩ := Prod.mk.inj hRoom'
        unfold FewerTurns at hFewer'
        omega
    · constructor
      · intro hSame
        omega
      · rintro ⟨-, c1', hGoes, hFails⟩
        have hRoom' := (hGoes.ensureRoomFor hDrop).1
        rw [hRoom] at hRoom'
        obtain ⟨hOk, rfl⟩ := Prod.mk.inj hRoom'
        exact absurd ⟨hOk, hFails⟩ hNone
  · -- the call is refused, and leaves every turn where it is
    obtain ⟨e, hRefused⟩ := PreparedTurn.ensureRoomFor_refuses hFits hDrop
    rw [hRoom] at hRefused
    obtain ⟨rfl, rfl⟩ := Prod.mk.inj hRefused
    simp only [hFits, hDrop, false_implies, and_self, iff_true]
    rcases hLength with ⟨hOk, -⟩ | ⟨-, hLength⟩
    · cases hOk
    · omega

/-! ## Runs of calls -/

/-- The conversation after these calls, one after another. -/
def afterAll (c : Conversation L) (requests : List Request) : Conversation L :=
  requests.foldl after c

/-- Each of these calls meets `P` on the conversation it is made on. -/
def Throughout (P : Conversation L → Request → Prop) : Conversation L → List Request → Prop
  | _, [] => True
  | c, request :: requests => P c request ∧ Throughout P (c.after request) requests

/-- Every one of them returns. -/
def AllReturn (c : Conversation L) (requests : List Request) : Prop :=
  Throughout (fun c request => c.Returns (.request request)) c requests

/-- How many of them return `Ok`. -/
def totalServed : Conversation L → List Request → Nat
  | _, [] => 0
  | c, request :: requests => (c.served request).toNat + totalServed (c.after request) requests

/-- **A run, exactly.** Where the count began at `turn_count`, the two agree in every
state of the run exactly when each of its calls moves them alike. -/
theorem turnCount_run_iff (c : Conversation L) (requests : List Request)
    (hReturns : c.AllReturn requests) (base : Nat) :
    (∀ n, (c.afterAll (requests.take n)).turnCount = base + totalServed c (requests.take n)) ↔
      c.turnCount = base ∧ Throughout Counts c requests := by
  -- what the first call counts goes to the base of the others
  induction requests generalizing c base with
  | nil => simp [afterAll, totalServed, Throughout]
  | cons request requests ih =>
    obtain ⟨hFirst, hRest⟩ := hReturns
    have hStep := counts_iff c request hFirst
    have hRun := ih (c.after request) hRest (base + (c.served request).toNat)
    constructor
    · -- the two agree in the first two states, so the first call moves them alike
      intro hAll
      have hStart : c.turnCount = base := hAll 0
      have hTail : ∀ n, ((c.after request).afterAll (requests.take n)).turnCount =
          base + (c.served request).toNat + totalServed (c.after request) (requests.take n) := by
        intro n
        rw [Nat.add_assoc]
        exact hAll (n + 1)
      obtain ⟨hNext, hCounts⟩ := hRun.mp hTail
      exact ⟨hStart, hStep.mp (by rw [hStart, hNext]), hCounts⟩
    · rintro ⟨hStart, hHere, hCounts⟩ n
      cases n with
      | zero => exact hStart
      | succ n =>
        have hNext := hRun.mpr ⟨by rw [hStep.mpr hHere, hStart], hCounts⟩ n
        rw [Nat.add_assoc] at hNext
        exact hNext

end Conversation

/-! ## The client's count -/

/-- What the daemon replies to a turn with this outcome, with an error's text; nothing
when the call does not come back. -/
def turnReply (display : LlamaSessionError → Text) :
    Outcome GenerationResult → Option ConversationResponse
  | .ok result => some (.turn result)
  | .err e => some (.err (display e))
  | .panicked => none
  | .hangs => none

/-- A client that makes these calls, of a daemon that holds the conversation. -/
def RampipedConversation.afterAll {L : Llama} (display : LlamaSessionError → Text)
    (client : RampipedConversation) (c : Conversation L) :
    List Conversation.Request → RampipedConversation
  | [] => client
  | request :: requests =>
    afterAll display (client.exchange (turnReply display (c.call request).1)).2 (c.after request)
      requests

namespace Conversation

variable {L : Llama}

/-- The client counts the calls that went well. -/
theorem client_turns (display : LlamaSessionError → Text) (client : RampipedConversation)
    (c : Conversation L) (requests : List Request) :
    (client.afterAll display c requests).turns =
      client.turns + totalServed c requests := by
  induction requests generalizing client c with
  | nil => rfl
  | cons request requests ih =>
    rw [RampipedConversation.afterAll, ih]
    simp only [totalServed]
    unfold served
    match (c.call request).1 with
    | .ok result =>
      simp only [turnReply, RampipedConversation.exchange, Outcome.isOk, Bool.toNat_true]
      omega
    | .err e => simp [turnReply, RampipedConversation.exchange, Outcome.isOk]
    | .panicked => simp [turnReply, RampipedConversation.exchange, Outcome.isOk]
    | .hangs => simp [turnReply, RampipedConversation.exchange, Outcome.isOk]

end Conversation

open Conversation in
/-- **Two counts of one thing.** After every call of a run that comes back, the client has
counted the calls that returned `Ok`. `turn_count` is the same number in every state of the
run exactly when the conversation began with less than an exchange on its list and every
call moves both counts alike: it makes the room check drop nothing and leaves at most one
message without a reply, or drops one exchange and leaves a second such message for it. -/
theorem turnCount_eq_iff {L : Llama} (c : Conversation L) (requests : List Conversation.Request)
    (hReturns : c.AllReturn requests) (display : LlamaSessionError → Text)
    (supportsToolCalls : Bool) :
    (∀ n, (RampipedConversation.afterAll display { supportsToolCalls, turns := 0 } c
        (requests.take n)).turns = totalServed c (requests.take n)) ∧
      ((∀ n, (c.afterAll (requests.take n)).turnCount = totalServed c (requests.take n)) ↔
        c.turns.length ≤ 1 ∧ Throughout Counts c requests) := by
  refine ⟨fun n => ?_, ?_⟩
  · rw [client_turns]
    exact Nat.zero_add _
  · have hRun := turnCount_run_iff c requests hReturns 0
    simp only [Nat.zero_add] at hRun
    rw [hRun]
    unfold turnCount
    constructor
    · rintro ⟨hStart, hCounts⟩
      exact ⟨by omega, hCounts⟩
    · rintro ⟨hStart, hCounts⟩
      exact ⟨by omega, hCounts⟩

/-! ## Two runs -/

open Conversation

/-- A model that ends its turns at once, until a cache of 42 tokens, onto which no decode
succeeds. -/
def Script.faltering : Script :=
  ⟨fun cells => if cells = 42 then Script.tokenOf 'a' else Script.eog, fun cells => cells = 42⟩

/-- A conversation with it, just opened. -/
def faltering : Conversation (Llama.scripted Script.faltering) :=
  (Script.session.openConversation _ (Script.options 64 none [])).get rfl

theorem fits_of_all {L : Llama} {c : Conversation L} {request : Conversation.Request}
    (h : (c.prepare request).toOption.all (fun turn => decide turn.Fits) = true)
    (turn : PreparedTurn L) (hPrepare : c.prepare request = .ok turn) : turn.Fits := by
  rw [hPrepare] at h
  exact of_decide_eq_true h

/-- One message answered, and one whose reply fails: one exchange by either count. -/
theorem faltering_counts :
    (faltering.afterAll [Script.say "hi" 4, Script.say "ho" 4]).turnCount =
        totalServed faltering [Script.say "hi" 4, Script.say "ho" 4] ∧
      totalServed faltering [Script.say "hi" 4, Script.say "ho" 4] = 1 := by
  have hReturns : faltering.AllReturn [Script.say "hi" 4, Script.say "ho" 4] :=
    ⟨.inl ⟨_, Outcome.eq_ok_get _ (by decide)⟩,
      .inr ⟨.decode "Decode Error 1: NoKvCacheSlot".toList, Outcome.eq_err_of_error (by decide)⟩,
      trivial⟩
  have hCounts : Throughout Counts faltering [Script.say "hi" 4, Script.say "ho" 4] :=
    ⟨Counts.of_fits (fits_of_all (by decide)) (by decide),
      Counts.of_fits (fits_of_all (by decide)) (by decide), trivial⟩
  exact ⟨(turnCount_eq_iff faltering _ hReturns (fun _ => []) false).2.mpr
    ⟨by decide, hCounts⟩ 2, by decide⟩

/-- Four messages of which each is answered, in a context that holds two: the client has
counted four exchanges. -/
theorem chatty_undercounts :
    fresh.overflow = .dropOldestTurns ∧
      (fresh.afterAll [Script.say "hi" 4, Script.say "ho" 4, Script.say "hi" 4,
        Script.say "ho" 4]).turnCount = 2 ∧
      (RampipedConversation.afterAll (fun _ => []) { supportsToolCalls := false, turns := 0 } fresh
        [Script.say "hi" 4, Script.say "ho" 4, Script.say "hi" 4,
          Script.say "ho" 4]).turns = 4 := by
  decide

end Rampipe
