import Rampipe.Results.Recording

/-!
# Rampipe — what the generation loop may spend

Thinking tokens are not bounded by `max_new_tokens`, a token may be drawn and never
decoded, and with a grammar the loop keeps a second list of tokens to replay. What
holds of every run, whatever the sampler draws:

* `metered_le`                  — tokens drawn outside a `<think>` stay within the budget.
* `heads_accepted`              — a rebuilt chain is replayed every token drawn before.
* `Logged`                      — the tokens that are returned are those that were decoded,
  at the positions from the start on.
* `runGenerationLoop_accounted` — all of it, for a whole run.
-/

namespace Rampipe

variable {L : Llama}

namespace GenState

/-- The token a head of the loop draws, if it gets that far. -/
def drawn (p : GenParams) (s : GenState L) : Option LlamaToken :=
  if s.AtLimit p then none
  else
    match s.draw p with
    | .ok (token, _) => some token
    | .error _ => none

/-- A head that draws a token which does not end the generation, with no `<think>` open. -/
def metered (p : GenParams) (s : GenState L) : Bool :=
  match s.drawn p with
  | some token => !L.isEogToken token && !insideOpenThink s.text
  | none => false

/-- What is drawn before the limit. -/
theorem drawn_eq {p : GenParams} {s s' : GenState L} {token : LlamaToken} (hLimit : ¬ s.AtLimit p)
    (hDraw : s.draw p = .ok (token, s')) : s.drawn p = some token := by
  unfold drawn
  rw [if_neg hLimit, hDraw]

/-- At the limit nothing is drawn. -/
theorem drawn_of_limit {p : GenParams} {s : GenState L} (hLimit : s.AtLimit p) :
    s.drawn p = none := by
  unfold drawn
  exact if_pos hLimit

/-- And nothing is metered. -/
theorem metered_of_limit {p : GenParams} {s : GenState L} (hLimit : s.AtLimit p) :
    s.metered p = false := by
  unfold metered
  rw [drawn_of_limit hLimit]

/-- What a rebuilt chain is replayed grows by the token it draws. -/
theorem draw_accepted {p : GenParams} {s s' : GenState L} {token : LlamaToken}
    (hSampler : s.sampler = none) (hDraw : s.draw p = .ok (token, s')) :
    s'.sampler = none ∧ s'.accepted = s.accepted ++ [token] := by
  unfold draw at hDraw
  rw [hSampler] at hDraw
  dsimp only at hDraw
  split at hDraw
  · cases hDraw
  · cases hDraw
    exact ⟨rfl, rfl⟩

end GenState

/-! ## The budget -/

/-- A turn that goes round again has spent what its draw is metered for. -/
theorem genTurn_again_budget {p : GenParams} {s s' : GenState L} (h : genTurn p s = .again s') :
    s'.budgetUsed = s.budgetUsed + if s.metered p then 1 else 0 := by
  have hCase := genTurn_case p s
  rw [h] at hCase
  cases hCase with
  | eogFed hLimit hDraw hEog _ hFed =>
    have hMetered : s.metered p = false := by
      unfold GenState.metered
      rw [GenState.drawn_eq hLimit hDraw]
      simp [hEog]
    obtain ⟨-, -, -, -, -, hBudget⟩ := GenState.draw_ok hDraw
    cases hFed
    rw [hMetered]
    simpa using hBudget
  | @pieceFed token s1 piece decoder _ hLimit hDraw hEog _ _ _ hFed =>
    have hMetered : s.metered p = !GenState.insideOpenThink s.text := by
      unfold GenState.metered
      rw [GenState.drawn_eq hLimit hDraw]
      simp [hEog]
    obtain ⟨-, -, -, hText, -, hBudget⟩ := GenState.draw_ok hDraw
    cases hFed
    rw [hMetered]
    show (s1.push piece decoder).budgetUsed = _
    unfold GenState.push
    dsimp only
    rw [hText, hBudget]
    rcases GenState.insideOpenThink s.text with _ | _ <;> simp

/-- **The budget.** Outside an open `<think>` no more tokens are drawn than are left. -/
theorem metered_le (p : GenParams) (fuel : Nat) (s : GenState L) :
    (((Loop.heads (genTurn p) fuel s).filter (·.metered p)).length : Int) ≤
      max 0 (p.maxNewTokens - s.budgetUsed) := by
  -- head by head; what the counter has spent is what the heads before were metered for
  induction fuel generalizing s with
  | zero => exact le_max_left _ _
  | succ fuel ih =>
    unfold Loop.heads
    rw [List.filter_cons]
    by_cases hMetered : s.metered p = true
    · -- a head that is metered was not at its limit
      have hSpare : s.budgetUsed < p.maxNewTokens := by
        by_contra hOut
        rw [GenState.metered_of_limit (.inr (not_lt.mp hOut))] at hMetered
        cases hMetered
      rw [if_pos hMetered]
      rcases hTurn : genTurn p s with s' | r
      · have hRest := ih s'
        have hSpent := genTurn_again_budget hTurn
        rw [if_pos hMetered] at hSpent
        simp only [List.length_cons]
        omega
      · simp only [List.filter_nil, List.length_cons, List.length_nil]
        omega
    · -- thinking, or a token that ends the generation: the counter stays
      rw [if_neg hMetered]
      rcases hTurn : genTurn p s with s' | r
      · have hRest := ih s'
        have hSpent := genTurn_again_budget hTurn
        rw [if_neg hMetered] at hSpent
        dsimp only
        omega
      · exact le_max_left _ _

/-! ## Replaying -/

/-- With a grammar the tokens drawn are remembered. -/
theorem genTurn_again_accepted {p : GenParams} {s s' : GenState L} (hSampler : s.sampler = none)
    (h : genTurn p s = .again s') :
    s'.sampler = none ∧ s'.accepted = s.accepted ++ (s.drawn p).toList := by
  have hCase := genTurn_case p s
  rw [h] at hCase
  cases hCase with
  | eogFed hLimit hDraw _ _ hFed =>
    have hAccepted := GenState.draw_accepted hSampler hDraw
    rw [GenState.drawn_eq hLimit hDraw]
    cases hFed
    exact hAccepted
  | pieceFed hLimit hDraw _ _ _ _ hFed =>
    have hAccepted := GenState.draw_accepted hSampler hDraw
    rw [GenState.drawn_eq hLimit hDraw]
    cases hFed
    exact hAccepted

/-- At every head of a run without a persistent sampler, what is replayed is what was
drawn so far. -/
theorem heads_accepted (p : GenParams) {fuel k : Nat} {s t : GenState L} (hSampler : s.sampler = none)
    (h : (Loop.heads (genTurn p) fuel s)[k]? = some t) :
    t.sampler = none ∧
      t.accepted = s.accepted ++ ((Loop.heads (genTurn p) fuel s).take k).filterMap (·.drawn p) := by
  induction fuel generalizing s k with
  | zero => cases h
  | succ fuel ih =>
    unfold Loop.heads at h ⊢
    rcases k with _ | k
    · cases h
      exact ⟨hSampler, (List.append_nil _).symm⟩
    · rw [List.getElem?_cons_succ] at h
      rcases hTurn : genTurn p s with s' | r
      · rw [hTurn] at h
        obtain ⟨hNone, hAccepted⟩ := genTurn_again_accepted hSampler hTurn
        obtain ⟨hHere, hReplayed⟩ := ih hNone h
        refine ⟨hHere, ?_⟩
        rw [hReplayed, hAccepted, List.take_succ_cons, List.filterMap_cons, List.append_assoc]
        rcases s.drawn p with _ | token <;> rfl
      · rw [hTurn] at h
        cases h

/-! ## What is decoded -/

/-- One batch for each token, from `start` on. -/
def singleBatches (start : Int) (tokens : List LlamaToken) : List (List BatchEntry) :=
  tokens.mapIdx fun i token => [⟨token, start + i, true⟩]

/-- One token more is one batch more. -/
theorem singleBatches_append (start : Int) (tokens : List LlamaToken) (token : LlamaToken) :
    singleBatches start (tokens ++ [token]) =
      singleBatches start tokens ++ [[⟨token, start + tokens.length, true⟩]] := by
  unfold singleBatches
  rw [List.mapIdx_append]
  simp

/-- The log of a run up to here: a batch for each token that was fed back. -/
structure Logged (p : GenParams) (start : Int) (s : GenState L.recording) : Prop where
  log : s.ctx.2 = singleBatches start s.generated
  nCur : s.nCur = start + s.generated.length
  inside : s.nCur ≤ p.nCtx

/-- Feeding a token back logs its batch, and only that. -/
theorem Fed.logged (hL : L.Lawful) {p : GenParams} {start : Int} {token : LlamaToken}
    {s s' : GenState L.recording} (h : Logged p start s) (hRoom : s.nCur < p.nCtx)
    (hFed : Fed token s (.again s')) : Logged p start s' := by
  cases hFed with
  | @done batch ctx hAdd hDecode =>
    have hEntries : L.entries batch = [⟨token, s.nCur, true⟩] := by
      rw [hL.entries_add hAdd, hL.entries_clear, List.nil_append]
    obtain ⟨-, hCtx⟩ := Prod.mk.inj hDecode
    refine ⟨?_, ?_, ?_⟩
    · dsimp only
      rw [← hCtx, singleBatches_append, ← h.log, ← h.nCur, ← hEntries]
    · have hCur := h.nCur
      simp only [List.length_append, List.length_singleton]
      omega
    · dsimp only
      omega

/-- Whatever leaves the cache, the position and the returned tokens alone keeps the log. -/
theorem Logged.same {p : GenParams} {start : Int} {s t : GenState L.recording}
    (h : Logged p start s) (hCtx : t.ctx = s.ctx) (hCur : t.nCur = s.nCur)
    (hGenerated : t.generated = s.generated) : Logged p start t :=
  ⟨by rw [hCtx, hGenerated, h.log], by rw [hCur, hGenerated, h.nCur], by rw [hCur]; exact h.inside⟩

/-- Drawing a token leaves all three alone. -/
theorem Logged.drawn {p : GenParams} {start : Int} {s s1 : GenState L.recording}
    {token : LlamaToken} (h : Logged p start s) (hDraw : s.draw p = .ok (token, s1)) :
    Logged p start s1 ∧ s1.nCur = s.nCur := by
  obtain ⟨hCtx, hCur, -, -, hGenerated, -⟩ := GenState.draw_ok hDraw
  exact ⟨h.same hCtx hCur hGenerated, hCur⟩

/-- So does its text. -/
theorem Logged.push {p : GenParams} {start : Int} {s : GenState L.recording} (h : Logged p start s)
    (piece : Text) (decoder : L.Decoder) :
    Logged p start (GenState.push (L := L.recording) piece decoder s) :=
  h.same rfl rfl rfl

/-- A turn that goes on logs its one batch. -/
theorem genTurn_logged (hL : L.Lawful) {p : GenParams} {start : Int} {s s' : GenState L.recording}
    (h : Logged p start s) (hTurn : genTurn p s = .again s') : Logged p start s' := by
  have hCase := genTurn_case p s
  rw [hTurn] at hCase
  have hRoom := (genTurn_again_nCur hTurn).1
  cases hCase with
  | eogFed _ hDraw _ _ hFed =>
    obtain ⟨hDrawn, hCur⟩ := h.drawn hDraw
    exact hFed.logged hL hDrawn (hCur ▸ hRoom)
  | @pieceFed token s1 piece decoder _ _ hDraw _ _ _ _ hFed =>
    obtain ⟨hDrawn, hCur⟩ := h.drawn hDraw
    exact hFed.logged hL (hDrawn.push piece decoder) (show s1.nCur < p.nCtx by omega)

/-- The log an exit leaves: a decode that failed is on it, and its token is not returned. -/
def LeftLogged (p : GenParams) (start : Int) (r : GenExit L.recording) : Prop :=
  Logged p start r.2 ∨
    r.1 ≠ .ok () ∧ start + r.2.generated.length < p.nCtx ∧
      ∃ token, r.2.ctx.2 = singleBatches start (r.2.generated ++ [token])

/-- A token that fails to be fed logs at most its batch. -/
theorem Fed.leave_logged (hL : L.Lawful) {p : GenParams} {start : Int} {token : LlamaToken}
    {s : GenState L.recording} {r : GenExit L.recording} (h : Logged p start s)
    (hRoom : s.nCur < p.nCtx) (hFed : Fed token s (.leave r)) :
    r.1 ≠ .ok () ∧ LeftLogged p start r := by
  cases hFed with
  | noRoom => exact ⟨by simp, .inl h⟩
  | @failed source batch ctx hAdd hDecode =>
    -- the batch went to `decode`, and its token is not pushed any more
    have hEntries : L.entries batch = [⟨token, s.nCur, true⟩] := by
      rw [hL.entries_add hAdd, hL.entries_clear, List.nil_append]
    obtain ⟨-, hCtx⟩ := Prod.mk.inj hDecode
    have hCur := h.nCur
    refine ⟨by simp, .inr ⟨by simp, ?_, token, ?_⟩⟩
    · dsimp only
      omega
    · dsimp only
      rw [← hCtx, singleBatches_append, ← h.log, ← h.nCur, ← hEntries]

/-- However the loop is left. -/
theorem genTurn_leave_logged (hL : L.Lawful) {p : GenParams} {start : Int}
    {s : GenState L.recording} {r : GenExit L.recording} (h : Logged p start s)
    (hTurn : genTurn p s = .leave r) :
    LeftLogged p start r ∧ (r.1 = .ok () → Logged p start r.2) := by
  -- where nothing was decoded, what held before the turn still does
  have hStay : ∀ {e : Except LlamaSessionError Unit} {t : GenState L.recording},
      Logged p start t → LeftLogged p start (e, t) ∧ ((e, t).1 = .ok () → Logged p start t) :=
    fun hLogged => ⟨.inl hLogged, fun _ => hLogged⟩
  have hRoom : ¬ s.AtLimit p → s.nCur < p.nCtx := fun hLimit => by
    simp only [GenState.AtLimit, not_or, not_le] at hLimit
    exact hLimit.1
  have hCase := genTurn_case p s
  rw [hTurn] at hCase
  cases hCase with
  | limit => exact hStay h
  | noDraw => exact hStay h
  | endOfGeneration _ hDraw => exact hStay (h.drawn hDraw).1
  | noPiece hDraw => exact hStay (h.drawn hDraw).1
  | complete _ hDraw => exact hStay ((h.drawn hDraw).1.push _ _)
  -- the cut shortens the text, not the tokens
  | cut _ hDraw => exact hStay ((h.drawn hDraw).1.same rfl rfl rfl)
  | eogFed hLimit hDraw _ _ hFed =>
    obtain ⟨hDrawn, hCur⟩ := h.drawn hDraw
    have hNext := hRoom hLimit
    obtain ⟨hError, hLeft⟩ := hFed.leave_logged hL hDrawn (by omega)
    exact ⟨hLeft, fun hOk => absurd hOk hError⟩
  | @pieceFed token s1 piece decoder _ hLimit hDraw _ _ _ _ hFed =>
    obtain ⟨hDrawn, hCur⟩ := h.drawn hDraw
    have hNext := hRoom hLimit
    obtain ⟨hError, hLeft⟩ := hFed.leave_logged hL (hDrawn.push piece decoder)
      (show s1.nCur < p.nCtx by omega)
    exact ⟨hLeft, fun hOk => absurd hOk hError⟩

/-! ## A whole run -/

/-- The heads of a run of the loop. -/
def genHeads (p : GenParams) (s : GenState L) : List (GenState L) :=
  Loop.heads (genTurn p) ((p.nCtx - s.nCur).toNat + 1) s

/-- A run whose decodes are recorded. -/
def recordedRun (p : GenParams) (ctx : L.Ctx) (batch : L.Batch) (start : Int) :
    GenExit L.recording :=
  runGenerationLoop (L := L.recording) p (ctx, []) batch start

/-- The variables it sets out with. -/
def recordedStart (p : GenParams) (ctx : L.Ctx) (batch : L.Batch) (start : Int) :
    GenState L.recording :=
  GenState.start (L := L.recording) p (ctx, []) batch start

/-- The account of a run: it ends; batch `i` of its log is one token, at position
`start + i` of the context; when it goes well, the tokens it returns are the logged ones
and the position is behind them; the draws the budget is for stay within it; and with a
grammar every token is drawn from a chain built afresh, on which all tokens drawn before
were replayed. -/
structure LoopAccount (p : GenParams) (ctx : L.Ctx) (batch : L.Batch) (start : Int) : Prop where
  ends : Loop.Ends (genTurn p) (recordedStart p ctx batch start)
  inOrder : ∀ (i : Nat) entries, (recordedRun p ctx batch start).2.ctx.2[i]? = some entries →
    start + i < p.nCtx ∧ ∃ token, entries = [⟨token, start + i, true⟩]
  returned : (recordedRun p ctx batch start).1 = .ok () →
    (recordedRun p ctx batch start).2.nCur ≤ p.nCtx ∧
    (recordedRun p ctx batch start).2.nCur =
      start + (recordedRun p ctx batch start).2.generated.length ∧
    (recordedRun p ctx batch start).2.ctx.2 =
      singleBatches start (recordedRun p ctx batch start).2.generated
  budget : (((genHeads p (recordedStart p ctx batch start)).filter (·.metered p)).length : Int) ≤
    max 0 p.maxNewTokens
  replayed : p.grammar.isSome → ∀ (k : Nat) t,
    (genHeads p (recordedStart p ctx batch start))[k]? = some t →
    ∀ chain, buildChain L p.sampling p.grammar = .ok chain → ∃ t', t.draw p = .ok
      ((L.sample ((((genHeads p (recordedStart p ctx batch start)).take k).filterMap
        (·.drawn p)).foldl L.accept chain) t.ctx.1 (L.nTokens t.batch - 1)).1, t')

/-- Each batch is one token, with logits, at its position. -/
theorem singleBatches_getElem? {start : Int} {tokens : List LlamaToken} {i : Nat}
    {entries : List BatchEntry} (h : (singleBatches start tokens)[i]? = some entries) :
    i < tokens.length ∧ ∃ token, entries = [⟨token, start + i, true⟩] := by
  unfold singleBatches at h
  rw [List.getElem?_mapIdx, Option.map_eq_some_iff] at h
  obtain ⟨token, hToken, rfl⟩ := h
  exact ⟨(List.getElem?_eq_some_iff.mp hToken).1, token, rfl⟩

/-- **The loop's accounting.** Whatever the sampler draws, wherever the run starts in the
context, and whatever ends it; a run that is not recorded is the same run. -/
theorem runGenerationLoop_accounted (hL : L.Lawful) (p : GenParams) (ctx : L.Ctx)
    (batch : L.Batch) (start : Int) (hStart : start ≤ p.nCtx) :
    LoopAccount p ctx batch start ∧
      runGenerationLoop p ctx batch start =
        ((recordedRun p ctx batch start).1, (recordedRun p ctx batch start).2.erase) := by
  have hFirst : Logged p start (recordedStart p ctx batch start) :=
    ⟨rfl, by simp [recordedStart, GenState.start, GenState.initial], hStart⟩
  obtain ⟨t, hVisits, hLeave⟩ := genLoop_leaves p (recordedStart p ctx batch start)
  have hRun : recordedRun p ctx batch start = genLoop p (recordedStart p ctx batch start) :=
    runGenerationLoop_eq (L := L.recording) p (ctx, []) batch start
  rw [← hRun] at hLeave
  have hLast : Logged p start t :=
    hVisits.induction (Logged p start) hFirst fun _ _ => genTurn_logged hL
  obtain ⟨hLeft, hOk⟩ := genTurn_leave_logged hL hLast hLeave
  refine ⟨⟨⟨_, genLoop_ends p _⟩, ?_, ?_, ?_, ?_⟩, recording_runGenerationLoop p ctx [] batch start⟩
  · intro i entries hEntries
    -- the log is that of the returned tokens, or has one batch more that failed
    rcases hLeft with hLogged | ⟨-, hRoom, token, hLog⟩
    · rw [hLogged.log] at hEntries
      obtain ⟨hi, hEntry⟩ := singleBatches_getElem? hEntries
      have hCur := hLogged.nCur
      have hInside := hLogged.inside
      exact ⟨by omega, hEntry⟩
    · rw [hLog] at hEntries
      obtain ⟨hi, hEntry⟩ := singleBatches_getElem? hEntries
      rw [List.length_append, List.length_singleton] at hi
      exact ⟨by omega, hEntry⟩
  · intro hResult
    have hLogged := hOk hResult
    exact ⟨hLogged.inside, hLogged.nCur, hLogged.log⟩
  · have hSpent := metered_le p ((p.nCtx - (recordedStart p ctx batch start).nCur).toNat + 1)
      (recordedStart p ctx batch start)
    have hUnspent : (recordedStart p ctx batch start).budgetUsed = 0 := rfl
    rwa [hUnspent, sub_zero] at hSpent
  · intro hGrammar k t hHead chain hChain
    have hSampler : (recordedStart p ctx batch start).sampler = none := by
      unfold recordedStart GenState.start
      obtain ⟨grammar, hSome⟩ := Option.isSome_iff_exists.mp hGrammar
      rw [hSome]
      rfl
    obtain ⟨hHere, hReplayed⟩ := heads_accepted p hSampler hHead
    rw [show (recordedStart p ctx batch start).accepted = [] from rfl, List.nil_append] at hReplayed
    unfold GenState.draw genHeads
    rw [hHere, recording_buildChain, hChain, ← hReplayed]
    exact ⟨_, rfl⟩

/-- A reply of at most two tokens, constrained by a grammar. -/
def briefReply : GenParams where
  nCtx := 64
  maxNewTokens := 2
  sampling := .greedy {}
  grammar := some "root ::= \"ok\"".toList
  grammarComplete := none
  turnEnd := none

/-- A model that says the same thing for ever, and ends neither on its own nor by the rules. -/
def chatty : Llama := Llama.scripted ⟨fun _ => Script.tokenOf 'x', fun _ => false⟩

/-- A model that never stops, in a context of 64 tokens. -/
theorem chatty_accounted :
    LoopAccount (L := chatty) briefReply (⟨64, []⟩ : ScriptedCtx) ([] : List BatchEntry) 0 ∧
      runGenerationLoop (L := chatty) briefReply (⟨64, []⟩ : ScriptedCtx) ([] : List BatchEntry) 0 =
        ((recordedRun (L := chatty) briefReply (⟨64, []⟩ : ScriptedCtx) ([] : List BatchEntry) 0).1,
          (recordedRun (L := chatty) briefReply (⟨64, []⟩ : ScriptedCtx)
            ([] : List BatchEntry) 0).2.erase) :=
  runGenerationLoop_accounted (Llama.scripted_lawful _) briefReply (⟨64, []⟩ : ScriptedCtx)
    ([] : List BatchEntry) 0 (by decide)

end Rampipe
