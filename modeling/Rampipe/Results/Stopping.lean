import Rampipe.Results.Reply

/-!
# Rampipe — why a reply stops

A model that thinks before it answers does so in a `<think>`, which `max_new_tokens` does
not count and which no end of generation closes: a reply that is all thought and no answer
is what the loop is made to avoid. And a grammar's sampler must not be asked again behind a
reply that is complete, which would abort the process. What the loop makes of both, over a
whole reply:

* `visits_unfinished` — no token is drawn behind a text that is complete, or at its turn's end.
* `OpenedLast`        — the one way the budget leaves a `<think>` open: its last token opened it.
* `insideOpenThink_append` — a `<think>` the caller's prefill begins is nothing to the loop.
* `call_stops`        — both, for every reply a conversation returns.
-/

namespace Rampipe

variable {L : Llama}

/-! ## The loop -/

/-- The last of the tokens opened the `<think>` that what they say ends in. -/
def OpenedLast (L : Llama) (tokens : List LlamaToken) (said : Text) : Prop :=
  ∃ before token text piece decoder decoder', tokens = before ++ [token] ∧ said = text ++ piece ∧
    detokenise L (spoken L before) L.newDecoder = some (text, decoder) ∧
    L.tokenToPiece token decoder = .ok (piece, decoder') ∧
    GenState.insideOpenThink text = false

namespace GenState

/-- What has been spent was spent on tokens that say something, and inside a `<think>` that
an earlier token opened there is budget left. -/
structure Thinks (p : GenParams) (s : GenState L) : Prop where
  spent : s.budgetUsed ≤ (spoken L s.generated).length
  opened : insideOpenThink s.text = true → s.budgetUsed < p.maxNewTokens ∨
    OpenedLast L s.generated s.text

/-- Neither complete nor at the end of its turn. -/
def Unfinished (p : GenParams) (s : GenState L) : Prop :=
  isComplete p s.text = false ∧ turnCut p s.text = none

end GenState

/-- An end of generation says nothing. -/
theorem spoken_concat_eog {tokens : List LlamaToken} {token : LlamaToken}
    (hEog : L.isEogToken token = true) : spoken L (tokens ++ [token]) = spoken L tokens := by
  simp [spoken, hEog]

/-- Any other token is spoken. -/
theorem spoken_concat {tokens : List LlamaToken} {token : LlamaToken}
    (hEog : L.isEogToken token = false) :
    spoken L (tokens ++ [token]) = spoken L tokens ++ [token] := by
  simp [spoken, hEog]

/-- Going round again, a turn spends nothing on thought, and may be the one that begins it. -/
theorem genTurn_again_thinks {p : GenParams} {s s' : GenState L} {start : Int}
    (hTold : s.Told start) (h : s.Thinks p) (hTurn : genTurn p s = .again s') :
    s'.Thinks p := by
  have hCase := genTurn_case p s
  rw [hTurn] at hCase
  cases hCase with
  | eogFed hLimit hDraw hEog _ hFed =>
    obtain ⟨-, -, -, hText, hGenerated, hBudget⟩ := GenState.draw_ok hDraw
    simp only [GenState.AtLimit, not_or, not_le] at hLimit
    cases hFed
    -- the text is the same, and so is what was spent, which was not all
    refine ⟨?_, fun _ => .inl ?_⟩
    · dsimp only
      rw [hBudget, hGenerated, spoken_concat_eog hEog]
      exact h.spent
    · dsimp only
      rw [hBudget]
      exact hLimit.2
  | @pieceFed token s1 piece decoder _ hLimit hDraw hEog hPiece _ _ hFed =>
    obtain ⟨-, -, -, hText, hGenerated, hBudget⟩ := GenState.draw_ok hDraw
    simp only [GenState.AtLimit, not_or, not_le] at hLimit
    cases hFed
    unfold GenState.push
    refine ⟨?_, fun _ => ?_⟩
    · have hSpent := h.spent
      dsimp only
      rw [hBudget, hGenerated, spoken_concat hEog, List.length_append, List.length_singleton]
      split <;> omega
    · dsimp only
      rw [hText, hBudget, hGenerated]
      cases hInside : GenState.insideOpenThink s.text with
      -- thinking costs nothing
      | true => exact .inl hLimit.2
      | false => exact .inr ⟨_, _, _, _, _, _, rfl, rfl, hTold.text, hPiece, hInside⟩

/-- So every head of the loop thinks within its budget. -/
theorem visits_thinks {p : GenParams} {ctx : L.Ctx} {batch : L.Batch} {nCur : Int} {s : GenState L}
    (h : Loop.Visits (genTurn p) (.start p ctx batch nCur) s) : s.Thinks p := by
  induction h with
  | here => exact ⟨le_rfl, fun hInside => by cases hInside⟩
  | next hVisits hAgain ih => exact genTurn_again_thinks (visits_told hVisits) ih hAgain

/-- Every text another token is drawn behind is unfinished, but for the empty one at the
start, which nothing looks at. -/
theorem visits_unfinished {p : GenParams} {ctx : L.Ctx} {batch : L.Batch} {nCur : Int}
    {s : GenState L} (h : Loop.Visits (genTurn p) (.start p ctx batch nCur) s) :
    s.generated = [] ∧ s.text = [] ∨ s.Unfinished p := by
  induction h with
  | here => exact .inl ⟨rfl, rfl⟩
  | @next s s' hVisits hAgain ih =>
    have hCase := genTurn_case p s
    rw [hAgain] at hCase
    cases hCase with
    | eogFed _ hDraw _ hInside hFed =>
      obtain ⟨-, -, -, hText, -, -⟩ := GenState.draw_ok hDraw
      cases hFed
      refine .inr ?_
      rcases ih with ⟨-, hEmpty⟩ | hUnfinished
      · -- nothing is inside a `<think>` before the first piece
        rw [hEmpty] at hInside
        cases hInside
      · unfold GenState.Unfinished
        dsimp only
        rw [hText]
        exact hUnfinished
    | pieceFed _ hDraw _ _ hComplete hCut hFed =>
      obtain ⟨-, -, -, hText, -, -⟩ := GenState.draw_ok hDraw
      cases hFed
      refine .inr ?_
      unfold GenState.Unfinished GenState.push
      dsimp only
      rw [hText]
      exact ⟨hComplete, hCut⟩

/-! ## The reply -/

namespace Conversation

def Request.turnOptions : Request → TurnOptions
  | .send _ _ options => options
  | .toolResults _ options => options

/-- The options of a prepared turn are the request's. -/
theorem prepare_options {c : Conversation L} {request : Request} {turn : PreparedTurn L}
    (h : c.prepare request = .ok turn) : turn.options = request.turnOptions := by
  have hSend : ∀ {message : Text} {assistantPrefill : Option Text} {options : TurnOptions},
      c.prepareSend message assistantPrefill options = .ok turn → turn.options = options := by
    intro message assistantPrefill options h
    unfold prepareSend at h
    dsimp only at h
    split at h
    · cases h
    · split at h <;> cases h
      rfl
  cases request with
  | send message assistantPrefill options => exact hSend h
  | toolResults results options =>
    simp only [prepare] at h
    unfold prepareToolResults at h
    split at h
    · exact hSend h
    · dsimp only at h
      split at h <;> cases h
      rfl

/-- The loop runs with what was settled at the opening, whatever the call did before. -/
theorem genParams_of_setup {c c' : Conversation L} (h : c'.setup = c.setup)
    (options : TurnOptions) : c'.genParams options = c.genParams options := by
  unfold genParams
  rw [show c'.nCtx = c.nCtx from congrArg Setup.nCtx h,
    show c'.toolFormat = c.toolFormat from congrArg Setup.toolFormat h]

/-- The heads of the loop that generates the reply to `request`. -/
def Generates (c : Conversation L) (request : Request) (s : GenState L) : Prop :=
  ∃ turn c1 batch c2, c.prepare request = .ok turn ∧
    turn.conversation.ensureRoomFor turn.needed = (.ok (), c1) ∧
    c1.prefillUser turn.tokens = (.ok batch, c2) ∧
    Loop.Visits (genTurn (c2.genParams turn.options))
      (.start (c2.genParams turn.options) c2.ctx batch c2.committedPos) s

/-- Why a reply is left inside an open `<think>`: the prefill began the last one, which the
loop does not look at; or the context is full, the caller takes what was said for complete,
its turn was ended in what came behind, or its budget went on a last token that opened the
`<think>`. -/
inductive BreaksOff (p : GenParams) (c' : Conversation L) (assistantPrefill said : Text) : Prop
  | prefilled (hBegun : "<think>".toList <:+: assistantPrefill ∨
        ListSearch.Straddles "<think>".toList assistantPrefill said)
      (hUnsaid : ¬ "<think>".toList <:+: said)
  | full (hFull : p.nCtx ≤ c'.committedPos)
  | complete (hComplete : GenState.isComplete p said = true)
  | turnEnded {text : Text} {cut : Nat} (hCut : GenState.turnCut p text = some cut)
      (hSaid : said = text.take cut)
  | openedLast (hSpent : p.maxNewTokens ≤ (spoken L c'.lastSpan).length)
      (hOpened : OpenedLast L c'.lastSpan said)

/-- The loop runs with what the conversation had settled. -/
theorem prepared_genParams {c c1 c2 : Conversation L} {request : Request} {turn : PreparedTurn L}
    {batch : L.Batch} (hPrepare : c.prepare request = .ok turn)
    (hRoom : turn.conversation.ensureRoomFor turn.needed = (.ok (), c1))
    (hPrefill : c1.prefillUser turn.tokens = (.ok batch, c2)) :
    c2.genParams turn.options = c.genParams request.turnOptions := by
  have hSetup : c2.setup = c.setup :=
    (setup_prefillUser hPrefill).trans ((setup_ensureRoomFor hRoom).trans (setup_prepare hPrepare))
  rw [prepare_options hPrepare, genParams_of_setup hSetup]

/-- The span of the turn that was just recorded holds its tokens. -/
theorem lastSpan_recordTurn (c : Conversation L) (role : Role) (ctx : L.Ctx)
    {pos : Int} {tokens : List LlamaToken} (hPos : pos = c.committedPos + tokens.length) :
    (c.recordTurn role ctx pos tokens).lastSpan = tokens := by
  have hSize : (pos - c.committedPos).toNat = tokens.length := by omega
  simp only [lastSpan, recordTurn, List.getLast?_concat, hSize, List.length_append,
    Nat.add_sub_cancel, List.drop_left]

/-- Behind a prefill, a text is inside the `<think>` that it opens itself, or inside one that
the prefill began. -/
theorem insideOpenThink_append {assistantPrefill said : Text}
    (h : GenState.insideOpenThink (assistantPrefill ++ said) = true) :
    GenState.insideOpenThink said = true ∨
      ("<think>".toList <:+: assistantPrefill ∨
        ListSearch.Straddles "<think>".toList assistantPrefill said) ∧
      ¬ "<think>".toList <:+: said := by
  unfold GenState.insideOpenThink at h ⊢
  rw [Bool.and_eq_true, Bool.not_eq_true', ← Bool.not_eq_true, ListSearch.contains_iff,
    ListSearch.contains_iff] at h ⊢
  obtain ⟨hOpen, hUnclosed⟩ := h
  by_cases hSaid : "<think>".toList <:+: said
  · refine .inl ⟨hSaid, fun hClosed => hUnclosed (ListSearch.isInfix_append_iff.mpr ?_)⟩
    exact .inr (.inl hClosed)
  · refine .inr ⟨?_, hSaid⟩
    rcases ListSearch.isInfix_append_iff.mp hOpen with hPrefill | hOwn | hSeam
    · exact .inl hPrefill
    · exact absurd hOwn hSaid
    · exact .inr hSeam

/-- How a loop that ended well left its text inside a `<think>`. -/
theorem leave_breaksOff {p : GenParams} {ctx : L.Ctx} {batch : L.Batch} {c : Conversation L}
    {s : GenState L} (assistantPrefill : Text)
    (h : runGenerationLoop p ctx batch c.committedPos = (.ok (), s))
    (hInside : GenState.insideOpenThink s.text = true) :
    BreaksOff p (c.recordTurn .assistant s.ctx s.nCur s.generated) assistantPrefill s.text := by
  have hSpan := lastSpan_recordTurn c .assistant s.ctx (genLoop_said_iff h).1
  rw [runGenerationLoop_eq] at h
  obtain ⟨last, hLast, hLeave⟩ := genLoop_leaves p (.start p ctx batch c.committedPos)
  rw [h] at hLeave
  have hThinks := visits_thinks hLast
  have hCase := genTurn_case p last
  rw [hLeave] at hCase
  cases hCase with
  | limit hLimit =>
    rcases hLimit with hFull | hSpent
    · exact .full hFull
    · -- the budget is spent, so the `<think>` is new
      rcases hThinks.opened hInside with hLeft | hOpened
      · omega
      · refine .openedLast ?_ ?_
        · rw [hSpan]
          have hUsed := hThinks.spent
          omega
        · rw [hSpan]
          exact hOpened
  | endOfGeneration _ hDraw _ hClosed =>
    -- an end of generation is taken outside a `<think>` only
    obtain ⟨-, -, -, hText, -, -⟩ := GenState.draw_ok hDraw
    rw [hText, hClosed] at hInside
    cases hInside
  | complete _ hDraw _ _ hComplete =>
    obtain ⟨-, -, -, hText, -, -⟩ := GenState.draw_ok hDraw
    refine .complete ?_
    unfold GenState.push
    dsimp only
    rw [hText]
    exact hComplete
  | cut _ _ _ _ _ hCut => exact .turnEnded hCut rfl
  | eogFed _ _ _ _ hFed => cases hFed
  | pieceFed _ _ _ _ _ _ hFed => cases hFed

/-- **Why a reply stops.** No token of a reply is drawn behind a text that is complete or at
the end of its turn, and what is returned breaks off inside a `<think>` for five reasons
only. -/
theorem call_stops {c c' : Conversation L} {request : Request} {result : GenerationResult}
    {said : Text} (h : c.call request = (.ok result, c'))
    (hSaid : result.text = request.assistantPrefill.getD [] ++ said) :
    (∀ s, c.Generates request s →
      s.generated = [] ∧ s.text = [] ∨ s.Unfinished (c.genParams request.turnOptions)) ∧
    (GenState.insideOpenThink result.text = true →
      BreaksOff (c.genParams request.turnOptions) c' (request.assistantPrefill.getD []) said) := by
  obtain ⟨turn, c1, batch, c2, s, hPrepare, hRoom, hPrefill, hLoop, rfl, hText, -⟩ := call_reply h
  have hParams := prepared_genParams hPrepare hRoom hPrefill
  constructor
  · rintro s ⟨turn', c1', batch', c2', hPrepare', hRoom', hPrefill', hVisits⟩
    rw [← prepared_genParams hPrepare' hRoom' hPrefill']
    exact visits_unfinished hVisits
  · intro hInside
    have hSame : s.text = said := by
      rw [hText, prepare_assistantPrefill hPrepare] at hSaid
      exact List.append_cancel_left hSaid
    rw [hSaid] at hInside
    rcases insideOpenThink_append hInside with hOwn | ⟨hBegun, hUnsaid⟩
    · rw [← hSame] at hOwn ⊢
      rw [← hParams]
      exact leave_breaksOff _ hLoop hOwn
    · exact .prefilled hBegun hUnsaid

/-- A model that begins to think, from a cache of 21 tokens on. -/
def Script.thoughtful : Script :=
  ⟨fun cells => Script.tokenOf (("<think>".toList[cells - 21]?).getD 'a'), fun _ => false⟩

/-- A conversation with it, just opened. -/
def thoughtful : Conversation (Llama.scripted Script.thoughtful) :=
  (Script.session.openConversation _ (Script.options 64 none [])).get rfl

/-- The thoughtful model replies. -/
theorem thoughtful_replies : (thoughtful.call (Script.say "hi" 7)).1.isOk = true := by decide

/-- Given as many tokens as its `<think>` has, it gets no further. -/
theorem thoughtful_stops :
    BreaksOff (thoughtful.genParams (Script.turnOptions 7))
      (thoughtful.after (Script.say "hi" 7)) [] "<think>".toList :=
  (call_stops (call_of_isOk thoughtful_replies) (by decide)).2 (by decide)

end Conversation

end Rampipe
