import Rampipe.Results.Room

/-!
# Rampipe — the reply and its tokens

The caller gets the reply as text; the cache holds it as tokens. The two are kept
by the generation loop side by side, and two of its exits let them drift apart: a
piece that completes the grammar, or makes the turn end, is in the text before
its token would be decoded. An end-of-generation token fed back inside an open
`<think>` is counted, but is no part of the text.

* `genLoop_said_iff` — the loop's text is what its tokens say, and all of them
  count, exactly when no turn of it took one of these branches with an effect.
* `call_replyResident_iff` — so is the reply of a call.
-/

namespace Rampipe

variable {L : Llama}

/-! ## Detokenising -/

/-- The concatenated pieces of some tokens, and the decoder behind them. -/
def detokenise (L : Llama) : List LlamaToken → L.Decoder → Option (Text × L.Decoder)
  | [], decoder => some ([], decoder)
  | token :: tokens, decoder =>
    match L.tokenToPiece token decoder with
    | .error _ => none
    | .ok (piece, decoder) =>
      (detokenise L tokens decoder).map fun (text, decoder) => (piece ++ text, decoder)

/-- A token more says its piece more. -/
theorem detokenise_concat {tokens : List LlamaToken} {decoder decoder1 decoder2 : L.Decoder}
    {text piece : Text} {token : LlamaToken}
    (h : detokenise L tokens decoder = some (text, decoder1))
    (hPiece : L.tokenToPiece token decoder1 = .ok (piece, decoder2)) :
    detokenise L (tokens ++ [token]) decoder = some (text ++ piece, decoder2) := by
  -- the decoder is threaded through, so it is generalised with the text
  induction tokens generalizing decoder text with
  | nil =>
    cases h
    simp [detokenise, hPiece]
  | cons first tokens ih =>
    rw [detokenise] at h
    rw [List.cons_append, detokenise]
    cases hFirst : L.tokenToPiece first decoder with
    | error source =>
      rw [hFirst] at h
      cases h
    | ok read =>
      obtain ⟨firstPiece, decoder'⟩ := read
      rw [hFirst] at h
      dsimp only at h ⊢
      obtain ⟨⟨tail, last⟩, hTail, hEq⟩ := Option.map_eq_some_iff.mp h
      cases hEq
      rw [ih hTail]
      simp only [Option.map_some, List.append_assoc]

/-- The tokens of a span that are not end-of-generation tokens. -/
def spoken (L : Llama) (tokens : List LlamaToken) : List LlamaToken :=
  tokens.filter fun token => !L.isEogToken token

/-- No end-of-generation token among them. -/
def Counted (L : Llama) (tokens : List LlamaToken) : Prop :=
  tokens.length = (spoken L tokens).length

/-- Tokens count when each does. -/
theorem counted_append {tokens : List LlamaToken} {token : LlamaToken} :
    Counted L (tokens ++ [token]) ↔ Counted L tokens ∧ L.isEogToken token = false := by
  have hLe : (spoken L tokens).length ≤ tokens.length := List.length_filter_le _ _
  -- filtering never gains a token, so one lost stays lost
  unfold Counted spoken at *
  cases hEog : L.isEogToken token with
  | true =>
    simp only [List.filter_append, List.length_append, List.length_singleton, List.filter_cons, hEog,
      Bool.not_true, Bool.false_eq_true, if_false, List.filter_nil, List.length_nil, reduceCtorEq,
      and_false, iff_false]
    omega
  | false =>
    simp only [List.filter_append, List.length_append, List.length_singleton, List.filter_cons, hEog,
      Bool.not_false, if_true, List.filter_nil, and_true]
    omega

/-! ## The loop -/

namespace GenState

/-- The condition, for one turn of the loop: an end-of-generation token does not
come inside an open `<think>`, a piece that completes the grammar is empty, and
where the turn ends the text is cut back to what it was. -/
def clean (p : GenParams) (s : GenState L) : Bool :=
  if s.AtLimit p then true
  else
    match s.draw p with
    | .error _ => true
    | .ok (token, _) =>
      if L.isEogToken token then !insideOpenThink s.text
      else
        match L.tokenToPiece token s.decoder with
        | .error _ => true
        | .ok (piece, _) =>
          if isComplete p (s.text ++ piece) then piece = []
          else
            match turnCut p (s.text ++ piece) with
            | some cut => (s.text ++ piece).take cut = s.text
            | none => true

/-- While the loop runs, the text is what the tokens fed back say. -/
structure Told (start : Int) (s : GenState L) : Prop where
  nCur : s.nCur = start + s.generated.length
  text : detokenise L (spoken L s.generated) L.newDecoder = some (s.text, s.decoder)

end GenState

/-- What a turn that goes round again does to the account. -/
theorem genTurn_again_told {p : GenParams} {s s' : GenState L} {start : Int} (h : s.Told start)
    (hTurn : genTurn p s = .again s') :
    s'.Told start ∧ (Counted L s'.generated ↔ Counted L s.generated ∧ s.clean p = true) := by
  have hCase := genTurn_case p s
  rw [hTurn] at hCase
  cases hCase with
  | @eogFed token s1 _ hLimit hDraw hEog hInside hFed =>
    obtain ⟨-, hCur, hDecoder, hText, hGenerated, -⟩ := GenState.draw_ok hDraw
    cases hFed
    -- the token is fed back, but it says nothing and does not count
    have hSame : spoken L (s.generated ++ [token]) = spoken L s.generated := by
      simp only [spoken, List.filter_append, List.filter_cons, hEog, Bool.not_true,
        Bool.false_eq_true, if_false, List.filter_nil, List.append_nil]
    dsimp only
    rw [hGenerated, hCur]
    refine ⟨⟨?_, ?_⟩, ?_⟩
    · simp only [h.nCur, List.length_append, List.length_singleton]
      omega
    · simp only [hSame, hText, hDecoder]
      exact h.text
    · simp [counted_append, GenState.clean, hLimit, hDraw, hEog, hInside]
  | @pieceFed token s1 piece decoder _ hLimit hDraw hEog hPiece hComplete hCut hFed =>
    obtain ⟨-, hCur, -, hText, hGenerated, -⟩ := GenState.draw_ok hDraw
    cases hFed
    have hClean : s.clean p = true := by
      simp [GenState.clean, hLimit, hDraw, hEog, hPiece, hComplete, hCut]
    -- the token says its piece
    have hMore : spoken L (s.generated ++ [token]) = spoken L s.generated ++ [token] := by
      simp only [spoken, List.filter_append, List.filter_cons, hEog, Bool.not_false, if_true,
        List.filter_nil]
    refine ⟨⟨?_, ?_⟩, ?_⟩
    · simp only [GenState.push, hGenerated, hCur, h.nCur, List.length_append, List.length_singleton]
      omega
    · simp only [GenState.push, hGenerated, hText, hMore]
      exact detokenise_concat h.text hPiece
    · simp only [GenState.push, hGenerated, counted_append, hEog, hClean]

/-- What a turn that ends the loop well does to it. -/
theorem genTurn_leave_told {p : GenParams} {s s' : GenState L}
    (hTurn : genTurn p s = .leave (.ok (), s')) :
    s'.generated = s.generated ∧ s'.nCur = s.nCur ∧ (s'.text = s.text ↔ s.clean p = true) := by
  have hCase := genTurn_case p s
  rw [hTurn] at hCase
  cases hCase with
  -- at the limit, and at an end of generation, the text stays as it is
  | limit hLimit => simp [GenState.clean, hLimit]
  | endOfGeneration hLimit hDraw hEog hInside =>
    obtain ⟨-, hCur, -, hText, hGenerated, -⟩ := GenState.draw_ok hDraw
    simp [GenState.clean, hLimit, hDraw, hEog, hInside, hCur, hText, hGenerated]
  -- a completing piece joins the text and is not fed back
  | complete hLimit hDraw hEog hPiece hComplete =>
    obtain ⟨-, hCur, -, hText, hGenerated, -⟩ := GenState.draw_ok hDraw
    simp [GenState.push, GenState.clean, hLimit, hDraw, hEog, hPiece, hComplete, hCur, hText,
      hGenerated]
  -- where the turn is cut, the text may end before the piece or inside it
  | cut hLimit hDraw hEog hPiece hComplete hCut =>
    obtain ⟨-, hCur, -, hText, hGenerated, -⟩ := GenState.draw_ok hDraw
    simp [GenState.push, GenState.clean, hLimit, hDraw, hEog, hPiece, hComplete, hCut, hCur,
      hGenerated]
  | eogFed _ _ _ _ hFed => cases hFed
  | pieceFed _ _ _ _ _ _ hFed => cases hFed

/-- The text is what the tokens say, and every token counts. -/
structure GenState.Said (s : GenState L) : Prop where
  text : (detokenise L (spoken L s.generated) L.newDecoder).map Prod.fst = some s.text
  count : Counted L s.generated

/-- So every head of the loop has told what it generated. -/
theorem visits_told {p : GenParams} {ctx : L.Ctx} {batch : L.Batch} {nCur : Int} {s : GenState L}
    (h : Loop.Visits (genTurn p) (.start p ctx batch nCur) s) : s.Told nCur :=
  h.induction (fun s => s.Told nCur)
    ⟨by simp [GenState.start, GenState.initial], by simp [GenState.start, GenState.initial, spoken,
      detokenise]⟩
    fun _ _ ht hAgain => (genTurn_again_told ht hAgain).1

/-- **Generation, exactly.** A loop that ends well has said its text if and only
if every turn of it was clean. -/
theorem genLoop_said_iff {p : GenParams} {ctx : L.Ctx} {batch : L.Batch} {nCur : Int}
    {s : GenState L} (h : runGenerationLoop p ctx batch nCur = (.ok (), s)) :
    s.nCur = nCur + s.generated.length ∧
      (s.Said ↔ ∀ t, Loop.Visits (genTurn p) (.start p ctx batch nCur) t → t.clean p = true) := by
  rw [runGenerationLoop_eq] at h
  obtain ⟨last, hLast, hLeave⟩ := genLoop_leaves p (.start p ctx batch nCur)
  rw [h] at hLeave
  obtain ⟨hGenerated, hCur, hText⟩ := genTurn_leave_told hLeave
  have hTold := visits_told hLast
  refine ⟨by rw [hCur, hGenerated]; exact hTold.nCur, ?_⟩
  constructor
  · -- a turn visited is the last one, or one that went round again
    intro hSaid t ht
    rcases (ht.of_leave hLast hLeave).cases_head with rfl | ⟨t', hAgain, hBefore⟩
    · refine hText.mp ?_
      have hSame := hSaid.text
      rw [hGenerated, hTold.text] at hSame
      exact (Option.some.inj hSame).symm
    · -- every state between `t'` and the last one counted its tokens
      have hBack : Counted L t'.generated := by
        have hAll : ∀ u, Loop.Visits (genTurn p) t' u → Counted L u.generated →
            Counted L t'.generated := fun u hu => by
          induction hu with
          | here => exact id
          | @next u u' hVisits hNext ih =>
            have hu := visits_told (((ht.next hAgain).trans hVisits))
            exact fun hCounted => ih ((genTurn_again_told hu hNext).2.mp hCounted).1
        exact hAll last hBefore (hGenerated ▸ hSaid.count)
      exact ((genTurn_again_told (visits_told ht) hAgain).2.mp hBack).2
  · -- counted all along, by induction over the states visited
    intro hClean
    have hCounted : Counted L last.generated := by
      have hAll : ∀ u, Loop.Visits (genTurn p) (.start p ctx batch nCur) u →
          Counted L u.generated := fun u hu => by
        induction hu with
        | here => rfl
        | @next u u' hVisits hNext ih =>
          exact (genTurn_again_told (visits_told hVisits) hNext).2.mpr ⟨ih, hClean u hVisits⟩
      exact hAll last hLast
    refine ⟨?_, hGenerated ▸ hCounted⟩
    rw [hGenerated, hTold.text, hText.mpr (hClean last hLast)]
    rfl

/-! ## The call -/

namespace Conversation

def Request.assistantPrefill : Request → Option Text
  | .send _ assistantPrefill _ => assistantPrefill
  | .toolResults .. => none

/-- The prefill of a prepared turn is the request's. -/
theorem prepare_assistantPrefill {c : Conversation L} {request : Request} {turn : PreparedTurn L}
    (h : c.prepare request = .ok turn) : turn.assistantPrefill = request.assistantPrefill := by
  have hSend : ∀ {message : Text} {assistantPrefill : Option Text} {options : TurnOptions},
      c.prepareSend message assistantPrefill options = .ok turn →
        turn.assistantPrefill = assistantPrefill := by
    intro message assistantPrefill options h
    unfold prepareSend at h
    dsimp only at h
    split at h
    · cases h
    · split at h <;> cases h
      rfl
  cases request with
  | send message assistantPrefill options => exact hSend h
  | toolResults results options =>
    simp only [prepare] at h
    unfold prepareToolResults at h
    split at h
    · exact hSend h
    · dsimp only at h
      split at h <;> cases h
      rfl

/-- The tokens of the last turn's span. -/
def lastSpan (c : Conversation L) : List LlamaToken :=
  match c.turns.getLast? with
  | some turn => c.tokens.drop (c.tokens.length - (turn.endPos - turn.startPos).toNat)
  | none => []

/-- The new assistant turn's tokens, end-of-generation tokens aside, say what was
returned behind the prefill, and they are as many as were reported. -/
def ReplyResident (c : Conversation L) (request : Request) (result : GenerationResult) : Prop :=
  c.turns.getLast?.map (·.role) = some .assistant ∧
    (detokenise L (spoken L c.lastSpan) L.newDecoder).map
      (fun said => request.assistantPrefill.getD [] ++ said.1) = some result.text ∧
    result.tokensGenerated = (spoken L c.lastSpan).length

instance (c : Conversation L) (request : Request) (result : GenerationResult) :
    Decidable (c.ReplyResident request result) :=
  inferInstanceAs (Decidable (_ ∧ _ ∧ _))

/-- The condition: every turn of the call's generation loop is clean. -/
def DrawsCleanly (c : Conversation L) (request : Request) : Prop :=
  ∀ turn c1 batch c2, c.prepare request = .ok turn →
    turn.conversation.ensureRoomFor turn.needed = (.ok (), c1) →
    c1.prefillUser turn.tokens = (.ok batch, c2) →
    ∀ s, Loop.Visits (genTurn (c2.genParams turn.options))
      (.start (c2.genParams turn.options) c2.ctx batch c2.committedPos) s →
      s.clean (c2.genParams turn.options) = true

/-- The reply of a call is the generation loop's, behind the prefill. -/
theorem call_reply {c c' : Conversation L} {request : Request} {result : GenerationResult}
    (h : c.call request = (.ok result, c')) :
    ∃ turn c1 batch c2 s, c.prepare request = .ok turn ∧
      turn.conversation.ensureRoomFor turn.needed = (.ok (), c1) ∧
      c1.prefillUser turn.tokens = (.ok batch, c2) ∧
      runGenerationLoop (c2.genParams turn.options) c2.ctx batch c2.committedPos = (.ok (), s) ∧
      c' = c2.recordTurn .assistant s.ctx s.nCur s.generated ∧
      result.text = turn.assistantPrefill.getD [] ++ s.text ∧
      result.tokensGenerated = s.generated.length := by
  obtain ⟨turn, c1, batch, c2, text, generated, hPrepare, hRoom, hPrefill, hGenerate, hReport⟩ :=
    call_ok h
  rcases generateAssistant_case c2 turn.options batch with ⟨_, _, -, hEq⟩ | ⟨s, hLoop, hEq⟩
  · rw [hGenerate] at hEq
    cases hEq
  rw [hGenerate] at hEq
  cases hEq
  refine ⟨turn, c1, batch, c2, s, hPrepare, hRoom, hPrefill, hLoop, rfl, ?_⟩
  -- what is reported is the prefill and the text, whatever the prompt was
  unfold report at hReport
  dsimp only at hReport
  split at hReport
  · cases hReport
  · cases hReport
    exact ⟨rfl, rfl⟩

/-- **The reply, exactly.** The reply a caller receives is the one that is
resident if and only if every turn of the loop that generated it was clean. -/
theorem call_replyResident_iff {c c' : Conversation L} {request : Request}
    {result : GenerationResult} (h : c.call request = (.ok result, c')) :
    c'.ReplyResident request result ↔ c.DrawsCleanly request := by
  obtain ⟨turn, c1, batch, c2, s, hPrepare, hRoom, hPrefill, hLoop, rfl, hText, hCount⟩ :=
    call_reply h
  obtain ⟨hCur, hSaid⟩ := genLoop_said_iff hLoop
  -- the new turn's span is as long as what was generated, and ends the tokens
  have hSpan : (c2.recordTurn .assistant s.ctx s.nCur s.generated).lastSpan = s.generated := by
    have hSize : (s.nCur - c2.committedPos).toNat = s.generated.length := by omega
    simp only [lastSpan, recordTurn, List.getLast?_concat, hSize, List.length_append,
      Nat.add_sub_cancel, List.drop_left]
  have hRole : (c2.recordTurn .assistant s.ctx s.nCur s.generated).turns.getLast?.map (·.role) =
      some .assistant := by
    simp only [recordTurn, List.getLast?_concat, Option.map_some]
  -- the call determines its loop, so the condition is about one loop
  have hClean : c.DrawsCleanly request ↔ ∀ t, Loop.Visits (genTurn (c2.genParams turn.options))
      (.start (c2.genParams turn.options) c2.ctx batch c2.committedPos) t →
        t.clean (c2.genParams turn.options) = true := by
    constructor
    · exact fun hAll => hAll turn c1 batch c2 hPrepare hRoom hPrefill
    · intro hAll turn' c1' batch' c2' hPrepare' hRoom' hPrefill'
      rw [hPrepare] at hPrepare'
      cases hPrepare'
      rw [hRoom] at hRoom'
      cases hRoom'
      rw [hPrefill] at hPrefill'
      cases hPrefill'
      exact hAll
  rw [hClean, ← hSaid, ReplyResident, hSpan, hText, hCount, prepare_assistantPrefill hPrepare]
  constructor
  · rintro ⟨-, hReply, hLength⟩
    obtain ⟨⟨said, decoder⟩, hDetok, hEq⟩ := Option.map_eq_some_iff.mp hReply
    exact ⟨by rw [hDetok, ← List.append_cancel_left hEq]; rfl, hLength⟩
  · rintro ⟨hReply, hLength⟩
    obtain ⟨⟨said, decoder⟩, hDetok, hEq⟩ := Option.map_eq_some_iff.mp hReply
    refine ⟨hRole, ?_, hLength⟩
    rw [hDetok, ← hEq]
    rfl

/-- A model that says `ab` and ends its turn, from a cache of 21 tokens on. -/
def Script.brief : Script :=
  ⟨fun cells => if cells = 21 then Script.tokenOf 'a' else if cells = 22 then Script.tokenOf 'b'
    else Script.eog, fun _ => false⟩

/-- A conversation with it, just opened. -/
def brief : Conversation (Llama.scripted Script.brief) :=
  (Script.session.openConversation _ (Script.options 64 none [])).get rfl

theorem call_of_isOk {L : Llama} {c : Conversation L} {request : Request}
    (h : (c.call request).1.isOk = true) :
    c.call request = (.ok ((c.call request).1.get h), c.after request) :=
  Prod.ext (Outcome.eq_ok_get _ h) rfl

/-- The brief model replies. -/
theorem brief_replies : (brief.call (Script.say "hi" 4)).1.isOk = true := by decide

/-- No turn of its loop takes a branch that lets the two apart. -/
theorem brief_drawsCleanly : brief.DrawsCleanly (Script.say "hi" 4) :=
  (call_replyResident_iff (call_of_isOk brief_replies)).mp (by decide)

/-- A message whose reply a caller's own rule takes to be complete at `a`. -/
def untilComplete : Request :=
  .send "hi".toList none
    { Script.turnOptions 4 with grammarComplete := some fun text => text == ['a'] }

/-- It replies to a caller that stops it, too. -/
theorem untilComplete_replies : (brief.call untilComplete).1.isOk = true := by decide

/-- The reply is `a`, and no token of it was ever decoded. -/
theorem complete_reply_not_resident :
    ¬ ∀ (L : Llama), L.Lawful → ∀ (c c' : Conversation L) (request : Request)
      (result : GenerationResult), c.Reachable → c.call request = (.ok result, c') →
      c'.ReplyResident request result := by
  intro h
  have hNot : ¬ (brief.after untilComplete).ReplyResident untilComplete
      ((brief.call untilComplete).1.get untilComplete_replies) := by decide
  exact hNot (h _ (Llama.scripted_lawful _) brief _ _ _
    ⟨_, ⟨_, _, Outcome.eq_ok_get _ _⟩, .start⟩ (call_of_isOk untilComplete_replies))

end Conversation

end Rampipe
