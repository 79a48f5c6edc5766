import Rampipe.Model.OneShot

/-!
# Rampipe — what a request that stands alone comes to

A one-shot generation and a conversation go different ways to the model: one renders its
prompt with the template, the other composes it from the spans it derived; one asks that
the prompt fits, the other that the reply fits too. Embedding reuses one context for a
whole batch, and may go through the batch twice.

* `generate_eq_firstTurn` — where the template renders a message the way the spans compose
  it, and both have room, a one-shot generation is the first turn of a conversation.
* `embed_iff_each`        — a batch is embedded exactly when each of its texts is, and to
  the same vectors.
-/

namespace Rampipe

open Text ToolFormat

variable {L : Llama}

/-! ## Generating -/

/-- How a call of a conversation would return. -/
def OneShotError.outcome {α : Type} : Except OneShotError α → Outcome α
  | .ok a => .ok a
  | .error (.session e) => .err e
  | .error _ => .panicked

/-- Without a system text and without tools a conversation opens with the template's own
opening, and looks for no calls. -/
theorem openConversation_plain {session : LlamaSession} {nCtx : Nat} {overflow : OverflowPolicy}
    {fallback : Option ToolFormat} {c : Conversation L}
    (h : session.openConversation L { nCtx, overflow, system := none, tools := []
                                      toolFormat := fallback } = .ok c) :
    (∃ thold, (thold = CONVERSATION_DEFRAG_THOLD ∨ thold = -1) ∧
      L.newContext { nCtx := some nCtx, defragThold := thold } = .ok c.ctx) ∧
      c.nCtx = i32 (L.nCtx c.ctx) ∧ c.turns = [] ∧ c.committedPos = 0 ∧
      c.opening = c.template.firstTurnOpen ∧ c.systemForFirstTurn = none ∧
      c.toolFormat = none ∧ c.toolResultSpans = none := by
  unfold LlamaSession.openConversation newContextReporting at h
  dsimp only at h
  split at h
  · cases h
  rename_i ctx hCtx
  have hNew : ∃ thold, (thold = CONVERSATION_DEFRAG_THOLD ∨ thold = -1) ∧
      L.newContext { nCtx := some nCtx, defragThold := thold } = .ok ctx := by
    split at hCtx
    · rename_i hNew
      cases hCtx
      by_cases hShift : LlamaSession.supportsKvCachePositionShift L = true
      · rw [if_pos hShift] at hNew
        exact ⟨_, .inl rfl, hNew⟩
      · rw [if_neg hShift] at hNew
        exact ⟨_, .inr rfl, hNew⟩
    · split at hCtx <;> cases hCtx
  split at h
  · cases h
  · cases h
  · cases h
  rename_i templateText template hTemplate
  cases h
  refine ⟨hNew, rfl, rfl, rfl, ?_, ?_, ?_, ?_⟩
  -- no tools are offered, and there is no system block to carry
  · simp [prepareTools]
  · simp [prepareTools]
  · simp [prepareTools]
  · simp [prepareTools]

namespace Conversation

/-- Room for a first turn is there when its tokens and the longest reply fit. -/
theorem ensureRoomFor_first {c : Conversation L} {tokens : List LlamaToken} {maxNewTokens : Int}
    (hPos : c.committedPos = 0) (hMax : 0 ≤ maxNewTokens) (hCtx : c.nCtx ≤ i32Max)
    (hRoom : tokens.length + maxNewTokens < c.nCtx) :
    c.ensureRoomFor (i32 (i32 tokens.length + maxNewTokens)) = (.ok (), c) := by
  have hLen := Int.natCast_nonneg tokens.length
  rw [i32Max] at hCtx
  have hSum : i32 (c.committedPos + i32 (i32 tokens.length + maxNewTokens)) < c.nCtx := by
    rw [hPos, Int.zero_add, i32_eq_self (x := (tokens.length : Int)) (by omega)
      (by rw [i32Max]; omega), i32_eq_self (x := tokens.length + maxNewTokens) (by omega)
      (by rw [i32Max]; omega), i32_eq_self (by omega) (by rw [i32Max]; omega)]
    exact hRoom
  rw [ensureRoomFor, if_pos hSum]

/-- A reply generated behind a prompt, once in a conversation without tools and once on
its own. -/
theorem run_eq_generateFrom (hL : L.Lawful) {turn : PreparedTurn L}
    (hCells : L.cells turn.conversation.ctx = []) (hPos : turn.conversation.committedPos = 0)
    (hCtx : turn.conversation.nCtx = i32 (L.nCtx turn.conversation.ctx))
    (hFormat : turn.conversation.toolFormat = none) (hMax : 0 ≤ turn.options.maxNewTokens)
    (hRoom : turn.tokens.length + turn.options.maxNewTokens < turn.conversation.nCtx) :
    turn.run.1 = OneShotError.outcome (generateFrom turn.conversation.ctx turn.formattedPrompt
      turn.tokens turn.assistantPrefill turn.options) := by
  obtain ⟨c, formattedPrompt, tokens, assistantPrefill, options⟩ := turn
  dsimp only at hCells hPos hCtx hFormat hMax hRoom ⊢
  have hLen := Int.natCast_nonneg tokens.length
  have hBound : c.nCtx ≤ i32Max := by
    rw [hCtx, i32, i32Max]
    omega
  have hTokens : i32 tokens.length = tokens.length :=
    i32_eq_self (by omega) (by rw [i32Max] at hBound ⊢; omega)
  -- both have room
  unfold PreparedTurn.run PreparedTurn.needed generateFrom
  dsimp only
  rw [ensureRoomFor_first hPos hMax hBound hRoom, Step.andThen_ok, ← hCtx, hTokens,
    if_neg (by omega)]
  unfold prefillUser
  rw [hPos]
  -- both decode the same prompt
  rcases hPrefill : decodeChunked L c.ctx (L.newBatch 512 1) tokens 0 with
    ⟨⟨_ | batch, pos⟩, ctx⟩
  · rfl
  dsimp only
  rw [Step.andThen_ok]
  obtain ⟨hLaid, hAt, hFits⟩ :=
    decodeChunked_ok hL (by rw [hCells, List.length_nil, Nat.cast_zero]) hPrefill
  -- and generate behind it with the same parameters
  unfold generateAssistant
  have hParams : (c.recordTurn .user ctx pos tokens).genParams options =
      oneShotParams c.nCtx options := by
    simp only [genParams, oneShotParams, recordTurn, hFormat, Option.map_none]
  rw [hParams]
  have hLoop := runGenerationLoop_laid hL (oneShotParams c.nCtx options)
    (hFits (by rw [Llama.Fits, hCells]; decide)) batch pos
  have hEnd : (c.recordTurn .user ctx pos tokens).ctx = ctx ∧
      (c.recordTurn .user ctx pos tokens).committedPos = pos := ⟨rfl, rfl⟩
  rw [hEnd.1, hEnd.2]
  rcases hRun : runGenerationLoop (oneShotParams c.nCtx options) ctx batch pos with ⟨_ | _, s⟩
  · rfl
  rw [hRun] at hLoop
  dsimp only
  rw [Step.andThen_ok]
  -- on success the position is right behind what was generated
  have hCur : s.nCur = 0 + tokens.length + s.generated.length := by
    rw [← hAt]
    exact hLoop.nCur.resolve_right fun hBad => hBad.1 rfl
  have hPositive : 0 < c.nCtx := by omega
  rw [i32Max] at hBound
  have hSize : asUsize c.nCtx = (max c.nCtx 0).toNat := by
    unfold asUsize
    omega
  unfold report readToolCalls
  simp only [recordTurn, hFormat, hCur, hSize, Option.map_none, Option.getD_none,
    OneShotError.outcome]
  rw [show (0 + (tokens.length : Int) + s.generated.length).toNat =
    tokens.length + s.generated.length from by omega]

/-- On the first turn all that is settled is how much of the cache the opening takes. -/
theorem protectOpening_first {c : Conversation L} {openingTokens : List LlamaToken}
    (hTurns : c.turns = []) (hOpening : L.strToToken c.opening .always = .ok openingTokens)
    (tokens : List LlamaToken) :
    ∃ taken, c.protectOpening tokens = .ok { c with protectedPrefix := taken } := by
  have hNext : c.nextOpening = (c.opening, .always) := by simp [nextOpening, hTurns]
  unfold protectOpening
  rw [hNext]
  dsimp only
  split
  · rw [hOpening]
    dsimp only
    split
    · exact ⟨_, rfl⟩
    · exact ⟨c.protectedPrefix, rfl⟩
  · exact ⟨c.protectedPrefix, rfl⟩

/-- The first message is tokenised with the opening it is rendered behind, or not at all. -/
theorem prepareSend_first {c : Conversation L} {prompt : Text} {assistantPrefill : Option Text}
    {options : TurnOptions} {openingTokens : List LlamaToken} (hTurns : c.turns = [])
    (hOpening : L.strToToken c.opening .always = .ok openingTokens) :
    (∃ source, L.strToToken (c.userText prompt assistantPrefill) .always = .error source ∧
      c.prepareSend prompt assistantPrefill options = .error (.tokenize source)) ∨
    ∃ tokens taken, L.strToToken (c.userText prompt assistantPrefill) .always = .ok tokens ∧
      c.prepareSend prompt assistantPrefill options = .ok ⟨{ c with protectedPrefix := taken },
        c.userText prompt assistantPrefill, tokens, assistantPrefill, options⟩ := by
  have hNext : c.nextOpening = (c.opening, .always) := by simp [nextOpening, hTurns]
  unfold prepareSend
  rw [hNext]
  dsimp only
  cases hTokens : L.strToToken (c.userText prompt assistantPrefill) .always with
  | error source => exact .inl ⟨source, rfl, rfl⟩
  | ok tokens =>
    obtain ⟨taken, hProtect⟩ := protectOpening_first hTurns hOpening tokens
    dsimp only
    rw [hProtect]
    exact .inr ⟨tokens, taken, rfl, rfl⟩

end Conversation

/-- A prompt the template renders needs no wrap. -/
theorem formattedPrompt_rendered (prompting : Prompting L) (chatWrap : Option ChatWrap)
    {prompt rendered : Text} (hRendered : renderPrompt L prompt = some rendered) :
    formattedPrompt prompting chatWrap prompt = .ok rendered := by
  obtain ⟨templateText, hTemplate, -⟩ := Option.bind_eq_some_iff.mp hRendered
  unfold formattedPrompt
  rw [prompting.found_of_text hTemplate, hRendered]

@[simp] theorem OneShotError.outcome_eq_ok {α : Type} {returned : Except OneShotError α} {a : α} :
    OneShotError.outcome returned = .ok a ↔ returned = .ok a := by
  rcases returned with (_ | _) | _ <;> simp [OneShotError.outcome]

@[simp] theorem OneShotError.outcome_eq_err {α : Type} {returned : Except OneShotError α}
    {e : LlamaSessionError} :
    OneShotError.outcome returned = .err e ↔ returned = .error (.session e) := by
  rcases returned with (_ | _) | _ <;> simp [OneShotError.outcome]

/-- **A one-shot generation is the first turn of a plain conversation**, where the template
renders one message as the conversation composes it and the context has room for the
longest reply: the two return the same result, or the same error. -/
theorem generate_eq_firstTurn (hL : L.Lawful) (prompting : Prompting L)
    (chatWrap : Option ChatWrap) {session : LlamaSession} {overflow : OverflowPolicy}
    {fallback : Option ToolFormat} {c : Conversation L}
    (hOpen : session.openConversation L { nCtx := ONE_SHOT_CTX, overflow, system := none, tools := []
                                          toolFormat := fallback } = .ok c)
    (hDefrag : L.newContext { nCtx := some ONE_SHOT_CTX, defragThold := CONVERSATION_DEFRAG_THOLD } =
      L.newContext { nCtx := some ONE_SHOT_CTX, defragThold := -1 })
    {prompt : Text} {assistantPrefill : Option Text} {options : Conversation.TurnOptions}
    (hRendered : renderPrompt L prompt =
      some (c.template.firstTurnOpen ++ prompt ++ c.template.generationOpen))
    {openingTokens : List LlamaToken}
    (hOpening : L.strToToken c.template.firstTurnOpen .always = .ok openingTokens)
    (hMax : 0 ≤ options.maxNewTokens)
    (hRoom : ∀ tokens, L.strToToken (c.userText prompt assistantPrefill) .always = .ok tokens →
      tokens.length + options.maxNewTokens < c.nCtx) :
    (∀ result, (c.send prompt assistantPrefill options).1 = .ok result ↔
      LlamaSession.generate prompting chatWrap prompt assistantPrefill options = .ok result) ∧
    ∀ e, (c.send prompt assistantPrefill options).1 = .err e ↔
      LlamaSession.generate prompting chatWrap prompt assistantPrefill options =
        .error (.session e) := by
  obtain ⟨⟨thold, hThold, hNew⟩, hCtx, hTurns, hPos, hFirst, hSystem, hFormat, -⟩ :=
    openConversation_plain hOpen
  suffices hSame : (c.send prompt assistantPrefill options).1 = OneShotError.outcome
      (LlamaSession.generate prompting chatWrap prompt assistantPrefill options) by
    rw [hSame]
    exact ⟨fun _ => OneShotError.outcome_eq_ok, fun _ => OneShotError.outcome_eq_err⟩
  -- both have the same context
  have hOneShot : newContextReporting L { nCtx := nonZeroU32 ONE_SHOT_CTX, defragThold := -1 }
      ONE_SHOT_CTX = .ok c.ctx := by
    have hPlain : L.newContext { nCtx := some ONE_SHOT_CTX, defragThold := -1 } = .ok c.ctx := by
      rcases hThold with rfl | rfl
      · rw [← hDefrag]
        exact hNew
      · exact hNew
    have hAsked : nonZeroU32 ONE_SHOT_CTX = some ONE_SHOT_CTX := by decide
    unfold newContextReporting
    rw [hAsked, hPlain]
  -- and the same text
  have hText : c.userText prompt assistantPrefill =
      c.template.firstTurnOpen ++ prompt ++ c.template.generationOpen ++
        assistantPrefill.getD [] := by
    simp [Conversation.userText, Conversation.nextOpening, Conversation.foldSystem, hTurns, hFirst,
      hSystem]
  unfold LlamaSession.generate Conversation.send
  rw [hOneShot, formattedPrompt_rendered prompting chatWrap hRendered]
  dsimp only
  rw [← hText]
  rcases c.prepareSend_first hTurns (hFirst ▸ hOpening) with
    ⟨source, hTokens, hPrepare⟩ | ⟨tokens, taken, hTokens, hPrepare⟩
  · rw [hTokens, hPrepare]
    rfl
  · rw [hTokens, hPrepare]
    have hCells : L.cells c.ctx = [] := hL.cells_newContext hNew
    exact Conversation.run_eq_generateFrom hL hCells hPos hCtx hFormat hMax (hRoom tokens hTokens)

/-- A backend whose template opens a reply when it is asked to. -/
def Llama.prompted : Llama :=
  { Llama.scripted Script.silent with
    renderJson templateText messages tools opens :=
      (Script.renderJson templateText messages tools opens).map (· ++
        if opens then "<assistant>".toList else []) }

theorem Llama.prompted_lawful : Llama.prompted.Lawful :=
  { Llama.scripted_lawful Script.silent with }

/-- Templates as llama.cpp renders them, on a model that never needs it to. -/
def prompting : Prompting Llama.prompted where
  chatTemplate := .found
  found_of_text _ := rfl
  newChatMessage _ := .ok ()
  applyChatTemplate _ := none

def plain : Conversation Llama.prompted :=
  (Script.session.openConversation _ (Script.options ONE_SHOT_CTX none [])).get rfl

theorem plain_generates :
    (∀ result, (plain.send "hi".toList (some "So".toList) (Script.turnOptions 4)).1 = .ok result ↔
      LlamaSession.generate prompting none "hi".toList (some "So".toList) (Script.turnOptions 4) =
        .ok result) ∧
    ∀ e, (plain.send "hi".toList (some "So".toList) (Script.turnOptions 4)).1 = .err e ↔
      LlamaSession.generate prompting none "hi".toList (some "So".toList) (Script.turnOptions 4) =
        .error (.session e) :=
  generate_eq_firstTurn Llama.prompted_lawful prompting none (Outcome.eq_ok_get _ rfl) rfl (by decide)
    rfl (by decide) fun tokens hTokens => by
      cases hTokens
      decide

/-! ## Embedding -/

namespace Embedder

variable {E : Embedder}

/-- What a context has become after some texts of a batch. -/
inductive Reaches (E : Embedder) (ctx : E.Ctx) : E.Ctx → Prop
  | start : Reaches E ctx ctx
  | decode {c : E.Ctx} (h : Reaches E ctx c) (entries : List BatchEntry) :
      Reaches E ctx (E.decode (E.clearKvCache c) entries).2

/-- What llama.cpp documents of contexts that extract embeddings. -/
structure Lawful (E : Embedder) : Prop where
  /-- A cleared cache is as good as a new one. -/
  forgets : ∀ {pooling ctx c}, E.newContext pooling = .ok ctx → E.Reaches ctx c → ∀ entries,
    (E.decode (E.clearKvCache c) entries).1 = (E.decode (E.clearKvCache ctx) entries).1 ∧
      E.embeddingsSeqIth (E.decode (E.clearKvCache c) entries).2 =
        E.embeddingsSeqIth (E.decode (E.clearKvCache ctx) entries).2
  /-- A context that pools nothing has no vector for any sequence. -/
  nonePoolType_any : ∀ {pooling ctx entries entries'}, E.newContext pooling = .ok ctx →
    (E.decode (E.clearKvCache ctx) entries).1 = .ok () →
    (E.decode (E.clearKvCache ctx) entries').1 = .ok () →
    E.embeddingsSeqIth (E.decode (E.clearKvCache ctx) entries).2 = .error .nonePoolType →
    E.embeddingsSeqIth (E.decode (E.clearKvCache ctx) entries').2 = .error .nonePoolType
  /-- Pooling comes after the decode. -/
  decode_pooling : ∀ {pooling pooling' ctx ctx'}, E.newContext pooling = .ok ctx →
    E.newContext pooling' = .ok ctx' → E.nCtx ctx = E.nCtx ctx' ∧
      ∀ entries, (E.decode (E.clearKvCache ctx) entries).1 =
        (E.decode (E.clearKvCache ctx') entries).1

/-- The vector of a text, as the first of its batch. -/
def vector (E : Embedder) (capacity : Nat) (normalize : Bool) (ctx : E.Ctx) (text : Text) :
    Except OneShotError (List E.Scalar) :=
  match E.embedText capacity normalize ctx text with
  | .error e => .error e
  | .ok (vector, _) => .ok vector

/-- A text's vector does not depend on the texts before it. -/
theorem embedText_forgets (hE : E.Lawful) {pooling : Option LlamaPoolingType} {ctx c : E.Ctx}
    (hNew : E.newContext pooling = .ok ctx) (hReaches : E.Reaches ctx c) (capacity : Nat)
    (normalize : Bool) (text : Text) :
    (∃ e, E.embedText capacity normalize c text = .error e ∧
      E.vector capacity normalize ctx text = .error e) ∨
    ∃ v c', E.embedText capacity normalize c text = .ok (v, c') ∧
      E.vector capacity normalize ctx text = .ok v ∧ E.Reaches ctx c' := by
  unfold vector embedText
  cases hTokens : E.strToToken text with
  | error source => exact .inl ⟨_, rfl, rfl⟩
  | ok tokens =>
    dsimp only
    have hDecoded := hReaches.decode (embedEntries (tokens.take capacity))
    obtain ⟨hOutcome, hVector⟩ := hE.forgets hNew hReaches (embedEntries (tokens.take capacity))
    -- the same decode, once behind other texts and once in a new context
    generalize E.decode (E.clearKvCache c) (embedEntries (tokens.take capacity)) = behind
      at hDecoded hOutcome hVector ⊢
    generalize E.decode (E.clearKvCache ctx) (embedEntries (tokens.take capacity)) = alone
      at hOutcome hVector ⊢
    obtain ⟨outcome, c'⟩ := behind
    obtain ⟨_, ctx'⟩ := alone
    dsimp only at hDecoded hOutcome hVector ⊢
    subst hOutcome
    cases outcome with
    | error source => exact .inl ⟨_, rfl, rfl⟩
    | ok _ =>
      dsimp only
      rw [hVector]
      cases E.embeddingsSeqIth ctx' with
      | error e => exact .inl ⟨_, rfl, rfl⟩
      | ok v => exact .inr ⟨_, _, rfl, rfl, hDecoded⟩

/-- A batch that goes through has each text's own vector; one that does not fails as one
of its texts does. -/
theorem embedTexts_each (hE : E.Lawful) {pooling : Option LlamaPoolingType} {ctx : E.Ctx}
    (hNew : E.newContext pooling = .ok ctx) (capacity : Nat) (normalize : Bool)
    (texts : List Text) {c : E.Ctx} (hReaches : E.Reaches ctx c) :
    (∃ vectors, E.embedTexts capacity normalize c texts = .ok vectors ∧
      List.Forall₂ (fun text v => E.vector capacity normalize ctx text = .ok v) texts vectors) ∨
    ∃ e, E.embedTexts capacity normalize c texts = .error e ∧
      ∃ text ∈ texts, E.vector capacity normalize ctx text = .error e := by
  -- on the texts; the batch stops at the first that fails
  induction texts generalizing c with
  | nil => exact .inl ⟨_, rfl, .nil⟩
  | cons text texts ih =>
    unfold embedTexts
    rcases embedText_forgets hE hNew hReaches capacity normalize text with
      ⟨e, hText, hVector⟩ | ⟨v, c', hText, hVector, hReaches'⟩
    · rw [hText]
      exact .inr ⟨e, rfl, text, List.mem_cons_self, hVector⟩
    · rw [hText]
      dsimp only
      rcases ih hReaches' with ⟨vectors, hTexts, hEach⟩ | ⟨e, hTexts, other, hMem, hOther⟩
      · rw [hTexts]
        exact .inl ⟨_, rfl, .cons hVector hEach⟩
      · rw [hTexts]
        exact .inr ⟨e, rfl, other, List.mem_cons_of_mem text hMem, hOther⟩

/-- The capacity of the batches of a context. -/
def capacity (E : Embedder) (ctx : E.Ctx) : Nat := max (min (E.nCtx ctx) EMBED_MAX_TOKENS) 1

/-- `embedTexts_each`, for the context that `embed_pooled` makes. -/
theorem embedPooled_each (hE : E.Lawful) (pooling : Pooling) {ctx : E.Ctx}
    (hNew : E.newContext pooling.toLlama = .ok ctx) (normalize : Bool) (texts : List Text) :
    (∃ vectors, E.embedPooled texts pooling normalize = .ok vectors ∧
      List.Forall₂ (fun text v => E.vector (E.capacity ctx) normalize ctx text = .ok v)
        texts vectors) ∨
    ∃ e, E.embedPooled texts pooling normalize = .error e ∧
      ∃ text ∈ texts, E.vector (E.capacity ctx) normalize ctx text = .error e := by
  unfold embedPooled
  rw [hNew]
  exact embedTexts_each hE hNew _ normalize texts .start

/-- A batch of one. -/
theorem embedPooled_one (hE : E.Lawful) (pooling : Pooling) {ctx : E.Ctx}
    (hNew : E.newContext pooling.toLlama = .ok ctx) (normalize : Bool) (text : Text) :
    (∃ v, E.vector (E.capacity ctx) normalize ctx text = .ok v ∧
      E.embedPooled [text] pooling normalize = .ok [v]) ∨
    ∃ e, E.vector (E.capacity ctx) normalize ctx text = .error e ∧
      E.embedPooled [text] pooling normalize = .error e := by
  rcases embedPooled_each hE pooling hNew normalize [text] with
    ⟨_, hPooled, hEach⟩ | ⟨e, hPooled, other, hMem, hOther⟩
  · obtain ⟨v, _, hVector, hNil, rfl⟩ := List.forall₂_cons_left_iff.mp hEach
    cases hNil
    exact .inl ⟨v, hVector, hPooled⟩
  · rw [List.mem_singleton.mp hMem] at hOther
    exact .inr ⟨e, hOther, hPooled⟩

/-- What succeeds with the images of a list, or fails where a member has none. -/
theorem ok_iff_forall₂ {α β ε : Type} {R : α → β → Prop} (hR : Relator.RightUnique R) {xs : List α}
    {whole : Except ε (List β)}
    (h : (∃ ys, whole = .ok ys ∧ List.Forall₂ R xs ys) ∨
      ∃ e, whole = .error e ∧ ∃ x ∈ xs, ∀ y, ¬ R x y) (ys : List β) :
    whole = .ok ys ↔ List.Forall₂ R xs ys := by
  rcases h with ⟨ys0, rfl, hEach⟩ | ⟨e, rfl, x, hMem, hNone⟩
  · constructor
    · rintro ⟨⟩
      exact hEach
    · intro h
      rw [hR.forall₂ hEach h]
  · constructor
    · rintro ⟨⟩
    · intro h
      obtain ⟨i, hi, rfl⟩ := List.getElem_of_mem hMem
      exact absurd (h.get hi (h.length_eq ▸ hi)) (hNone _)

/-- A batch that goes through gives each of its texts what it gets on its own. -/
theorem embedPooled_ok (hE : E.Lawful) {pooling : Pooling} {normalize : Bool} {texts : List Text}
    {vectors : List (List E.Scalar)} (h : E.embedPooled texts pooling normalize = .ok vectors) :
    List.Forall₂ (fun text v => E.embedPooled [text] pooling normalize = .ok [v])
      texts vectors := by
  cases hNew : E.newContext pooling.toLlama with
  | error e =>
    unfold embedPooled at h
    rw [hNew] at h
    cases h
  | ok ctx =>
    rcases embedPooled_each hE pooling hNew normalize texts with
      ⟨_, hPooled, hEach⟩ | ⟨e, hPooled, -⟩
    · cases h.symm.trans hPooled
      refine hEach.imp fun text v hVector => ?_
      rcases embedPooled_one hE pooling hNew normalize text with ⟨w, hSame, hOne⟩ | ⟨e, hFails, -⟩
      · cases hVector.symm.trans hSame
        exact hOne
      · cases hVector.symm.trans hFails
    · cases h.symm.trans hPooled

/-- One that fails does so as one of its texts does on its own. -/
theorem embedPooled_error (hE : E.Lawful) {pooling : Pooling} {normalize : Bool}
    {texts : List Text} (hTexts : texts ≠ []) {e : OneShotError}
    (h : E.embedPooled texts pooling normalize = .error e) :
    ∃ text ∈ texts, E.embedPooled [text] pooling normalize = .error e := by
  cases hNew : E.newContext pooling.toLlama with
  | error e' =>
    -- without a context any text fails, so the first does
    obtain ⟨text, rest, rfl⟩ := List.exists_cons_of_ne_nil hTexts
    unfold embedPooled at h ⊢
    rw [hNew] at h ⊢
    exact ⟨text, List.mem_cons_self, h⟩
  | ok ctx =>
    rcases embedPooled_each hE pooling hNew normalize texts with
      ⟨_, hPooled, -⟩ | ⟨e', hPooled, text, hMem, hText⟩
    · cases h.symm.trans hPooled
    · cases h.symm.trans hPooled
      rcases embedPooled_one hE pooling hNew normalize text with ⟨w, hSome, -⟩ | ⟨e', hFails, hOne⟩
      · cases hText.symm.trans hSome
      · cases hText.symm.trans hFails
        exact ⟨text, hMem, hOne⟩

/-- With its pooling settled, a batch goes through exactly when each of its texts does. -/
theorem embedPooled_iff (hE : E.Lawful) (pooling : Pooling) (normalize : Bool) {texts : List Text}
    (hTexts : texts ≠ []) (vectors : List (List E.Scalar)) :
    E.embedPooled texts pooling normalize = .ok vectors ↔
      List.Forall₂ (fun text v => E.embedPooled [text] pooling normalize = .ok [v])
        texts vectors := by
  refine ok_iff_forall₂ (fun text v w hv hw => by cases hv.symm.trans hw; rfl) ?_ vectors
  cases hPooled : E.embedPooled texts pooling normalize with
  | ok vectors => exact .inl ⟨vectors, rfl, embedPooled_ok hE hPooled⟩
  | error e =>
    obtain ⟨text, hMem, hText⟩ := embedPooled_error hE hTexts hPooled
    refine .inr ⟨e, rfl, text, hMem, fun v => ?_⟩
    rw [hText]
    exact nofun

/-! ### The second pass -/

/-- Only a model without pooling of its own is asked twice. -/
theorem embed_eq_embedPooled {texts : List Text} {pooling : Pooling} {normalize : Bool}
    (hTexts : texts ≠ [])
    (h : E.embedPooled texts pooling normalize ≠ .error (.embeddings .nonePoolType) ∨
      pooling.isModel = false) :
    E.embed texts pooling normalize = E.embedPooled texts pooling normalize := by
  unfold embed
  rw [if_neg (by simpa using hTexts)]
  split
  · rename_i hNone
    rcases h with h | h
    · exact absurd hNone h
    · rw [h]
      exact hNone.symm
  · rfl

theorem embed_eq_mean {texts : List Text} {normalize : Bool} (hTexts : texts ≠ [])
    (h : E.embedPooled texts .model normalize = .error (.embeddings .nonePoolType)) :
    E.embed texts .model normalize = E.embedPooled texts .mean normalize := by
  unfold embed
  rw [if_neg (by simpa using hTexts), h]
  rfl

/-- A text has no vector for want of pooling only when its decode went through. -/
theorem of_vector_nonePoolType {capacity : Nat} {normalize : Bool} {ctx : E.Ctx} {text : Text}
    (h : E.vector capacity normalize ctx text = .error (.embeddings .nonePoolType)) :
    ∃ entries, (E.decode (E.clearKvCache ctx) entries).1 = .ok () ∧
      E.embeddingsSeqIth (E.decode (E.clearKvCache ctx) entries).2 = .error .nonePoolType := by
  unfold vector embedText at h
  cases hTokens : E.strToToken text with
  | error source =>
    rw [hTokens] at h
    cases h
  | ok tokens =>
    rw [hTokens] at h
    dsimp only at h
    refine ⟨embedEntries (tokens.take capacity), ?_⟩
    rcases hDecode : E.decode (E.clearKvCache ctx) (embedEntries (tokens.take capacity)) with
      ⟨_ | _, c⟩
    · rw [hDecode] at h
      cases h
    rw [hDecode] at h
    dsimp only at h ⊢
    cases hVector : E.embeddingsSeqIth c with
    | error e =>
      rw [hVector] at h
      cases h
      exact ⟨rfl, rfl⟩
    | ok vector =>
      rw [hVector] at h
      cases h

/-- In a context that pools nothing, a text has no vector for that reason, or it has none
in any other context either. -/
theorem vector_nonePoolType (hE : E.Lawful) {pooling pooling' : Option LlamaPoolingType}
    {ctx ctx' : E.Ctx} (hNew : E.newContext pooling = .ok ctx)
    (hNew' : E.newContext pooling' = .ok ctx') {normalize : Bool} {text : Text}
    (h : E.vector (E.capacity ctx) normalize ctx text = .error (.embeddings .nonePoolType))
    (other : Text) :
    E.vector (E.capacity ctx) normalize ctx other = .error (.embeddings .nonePoolType) ∨
    ∃ e, E.vector (E.capacity ctx) normalize ctx other = .error (.session e) ∧
      E.vector (E.capacity ctx') normalize ctx' other = .error (.session e) := by
  obtain ⟨entries, hDecoded, hNone⟩ := of_vector_nonePoolType h
  obtain ⟨hSize, hSame⟩ := hE.decode_pooling hNew hNew'
  have hCapacity : E.capacity ctx' = E.capacity ctx := by rw [capacity, capacity, hSize]
  rw [hCapacity]
  unfold vector embedText
  cases hTokens : E.strToToken other with
  | error source => exact .inr ⟨.tokenize source, rfl, rfl⟩
  | ok tokens =>
    dsimp only
    have hNoneToo := @hE.nonePoolType_any _ _ _ (embedEntries (tokens.take (E.capacity ctx))) hNew
      hDecoded
    have hSame := hSame (embedEntries (tokens.take (E.capacity ctx)))
    generalize E.decode (E.clearKvCache ctx) (embedEntries (tokens.take (E.capacity ctx))) = here
      at hNoneToo hSame ⊢
    generalize E.decode (E.clearKvCache ctx') (embedEntries (tokens.take (E.capacity ctx))) = there
      at hSame ⊢
    obtain ⟨outcome, c⟩ := here
    obtain ⟨_, c'⟩ := there
    dsimp only at hNoneToo hSame ⊢
    subst hSame
    cases outcome with
    | error source => exact .inr ⟨.decode source, rfl, rfl⟩
    | ok _ =>
      dsimp only
      rw [hNoneToo rfl hNone]
      exact .inl rfl

/-- Where a model pools nothing, each text is pooled by the mean. -/
theorem embed_one_mean (hE : E.Lawful) {ctx : E.Ctx} {normalize : Bool} {text : Text}
    (hNew : E.newContext none = .ok ctx)
    (h : E.vector (E.capacity ctx) normalize ctx text = .error (.embeddings .nonePoolType))
    (other : Text) (v : List E.Scalar) :
    E.embed [other] .model normalize = .ok [v] ↔
      E.embedPooled [other] .mean normalize = .ok [v] := by
  have hOther : ([other] : List Text) ≠ [] := List.cons_ne_nil _ _
  -- the vector of the text in the model's own context is what its batch of one returns
  have hFirst : ∀ e, E.vector (E.capacity ctx) normalize ctx other = .error e →
      E.embedPooled [other] .model normalize = .error e := by
    intro e hVector
    rcases embedPooled_one hE .model hNew normalize other with
      ⟨w, hSome, -⟩ | ⟨e', hError, hPooled⟩
    · cases hVector.symm.trans hSome
    · cases hVector.symm.trans hError
      exact hPooled
  cases hMean : E.newContext (Pooling.toLlama .mean) with
  | error e =>
    -- no context pools by the mean, and the text fails either way
    have hFails : E.embedPooled [other] .mean normalize = .error (.session e) := by
      unfold embedPooled
      rw [hMean]
    rcases vector_nonePoolType hE hNew hNew h other with hNone | ⟨e', hVector, -⟩
    · rw [embed_eq_mean hOther (hFirst _ hNone)]
    · have hPooled := hFirst _ hVector
      rw [embed_eq_embedPooled hOther (.inl (by rw [hPooled]; exact nofun)), hPooled, hFails]
      simp
  | ok ctx' =>
    rcases vector_nonePoolType hE hNew hMean h other with hNone | ⟨e', hVector, hVector'⟩
    · rw [embed_eq_mean hOther (hFirst _ hNone)]
    · have hPooled := hFirst _ hVector
      rw [embed_eq_embedPooled hOther (.inl (by rw [hPooled]; exact nofun)), hPooled]
      rcases embedPooled_one hE .mean hMean normalize other with ⟨w, hSome, -⟩ | ⟨e, -, hFails⟩
      · cases hVector'.symm.trans hSome
      · rw [hFails]
        simp

/-- **A batch is embedded exactly when each of its texts is**, and to the same vectors,
also when the model declares no pooling and the batch is gone through twice. -/
theorem embed_iff_each (hE : E.Lawful) (texts : List Text) (pooling : Pooling) (normalize : Bool)
    (vectors : List (List E.Scalar)) :
    E.embed texts pooling normalize = .ok vectors ↔
      List.Forall₂ (fun text v => E.embed [text] pooling normalize = .ok [v]) texts vectors := by
  by_cases hTexts : texts = []
  · subst hTexts
    rw [List.forall₂_nil_left_iff]
    constructor
    · rintro ⟨⟩
      rfl
    · rintro rfl
      rfl
  by_cases hTwice : pooling = .model ∧
      E.embedPooled texts pooling normalize = .error (.embeddings .nonePoolType)
  · -- the second pass, over the batch and over each of its texts
    obtain ⟨rfl, hPooled⟩ := hTwice
    cases hNew : E.newContext none with
    | error e =>
      unfold embedPooled at hPooled
      rw [show Pooling.toLlama .model = none from rfl, hNew] at hPooled
      cases hPooled
    | ok ctx =>
      rcases embedPooled_each hE .model hNew normalize texts with
        ⟨_, hOk, -⟩ | ⟨e, hError, text, -, hText⟩
      · cases hPooled.symm.trans hOk
      cases hPooled.symm.trans hError
      rw [embed_eq_mean hTexts hPooled, embedPooled_iff hE .mean normalize hTexts]
      simp only [embed_one_mean hE hNew hText]
  · -- the first pass settles the batch
    have hSettled : ∀ batch : List Text, batch ≠ [] →
        E.embedPooled batch pooling normalize = E.embedPooled texts pooling normalize →
        E.embed batch pooling normalize = E.embedPooled batch pooling normalize := by
      intro batch hBatch hSame
      refine embed_eq_embedPooled hBatch ?_
      rw [hSame]
      rcases not_and_or.mp hTwice with hPooling | hPooled
      · exact .inr (by cases pooling <;> first | rfl | exact absurd rfl hPooling)
      · exact .inl hPooled
    rw [hSettled texts hTexts rfl]
    refine ok_iff_forall₂ (fun text v w hv hw => by cases hv.symm.trans hw; rfl) ?_ vectors
    cases hWhole : E.embedPooled texts pooling normalize with
    | ok vectors =>
      refine .inl ⟨vectors, rfl, (embedPooled_ok hE hWhole).imp fun text v hText => ?_⟩
      rw [embed_eq_embedPooled (List.cons_ne_nil text []) (.inl (by rw [hText]; exact nofun)), hText]
    | error e =>
      -- the batch fails as one of its texts does
      obtain ⟨text, hMem, hPooled⟩ := embedPooled_error hE hTexts hWhole
      refine .inr ⟨e, rfl, text, hMem, fun v => ?_⟩
      rw [hSettled [text] (List.cons_ne_nil text []) (hPooled.trans hWhole.symm), hPooled]
      exact nofun

/-- A model without a pooling of its own; a text's vector is the tokens in the cache. -/
def poolless : Embedder where
  Ctx := Option LlamaPoolingType × List LlamaToken
  Scalar := LlamaToken
  strToToken text := .ok (text.map Script.tokenOf)
  newContext pooling := .ok (pooling, [])
  nCtx _ := 64
  clearKvCache ctx := (ctx.1, [])
  decode ctx entries :=
    if entries.isEmpty then (.error "Decode Error -1: n_tokens == 0".toList, ctx)
    else (.ok (), (ctx.1, ctx.2 ++ entries.map BatchEntry.token))
  embeddingsSeqIth ctx :=
    match ctx.1 with
    | none => .error .nonePoolType
    | some _ => .ok ctx.2
  l2Normalize := id

theorem poolless_decode (ctx : poolless.Ctx) (entries : List BatchEntry) :
    (poolless.decode ctx entries).2.1 = ctx.1 := by
  unfold poolless
  dsimp only
  split <;> rfl

theorem poolless_lawful : poolless.Lawful where
  forgets {pooling ctx c} hNew hReaches entries := by
    -- a batch leaves the pooling as it is, and clearing leaves nothing else
    have hPooling : c.1 = ctx.1 := by
      clear hNew
      induction hReaches with
      | start => rfl
      | decode _ entries ih => exact (poolless_decode _ entries).trans ih
    have hSame : poolless.clearKvCache c = poolless.clearKvCache ctx := congrArg (·, []) hPooling
    rw [hSame]
    exact ⟨rfl, rfl⟩
  nonePoolType_any {pooling ctx entries entries'} _ _ _ hNone := by
    have hPooling := (poolless_decode (poolless.clearKvCache ctx) entries).trans
      (poolless_decode (poolless.clearKvCache ctx) entries').symm
    have hSame : ∀ c c' : poolless.Ctx, c.1 = c'.1 → poolless.embeddingsSeqIth c = .error .nonePoolType →
        poolless.embeddingsSeqIth c' = .error .nonePoolType := by
      rintro ⟨_ | pooling, tokens⟩ ⟨_, tokens'⟩ ⟨⟩ hNone
      · rfl
      · cases hNone
    exact hSame _ _ hPooling hNone
  decode_pooling {pooling pooling' ctx ctx'} _ _ := by
    refine ⟨rfl, fun entries => ?_⟩
    unfold poolless
    dsimp only
    split <;> rfl

theorem poolless_each :
    poolless.embed ["ab".toList, "c".toList] .model false =
        .ok [[Script.tokenOf 'a', Script.tokenOf 'b'], [Script.tokenOf 'c']] ↔
      List.Forall₂ (fun text v => poolless.embed [text] .model false = .ok [v])
        ["ab".toList, "c".toList] [[Script.tokenOf 'a', Script.tokenOf 'b'], [Script.tokenOf 'c']] :=
  embed_iff_each poolless_lawful _ .model false _

end Embedder

end Rampipe
