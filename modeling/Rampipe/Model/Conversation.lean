import Rampipe.Model.Generation

/-!
# Rampipe — a conversation

`Conversation` of `llama.rs`: the room check, the loop that drops the oldest
exchanges, and the two calls that take a turn. A call is a function from the
conversation to how it returned and the conversation it left behind, since the
source mutates `self` before every `?`.

The arithmetic that can overflow an `i32` is the one on the request
(`user_tokens.len() as i32 + max_new_tokens`) and on the sums the room checks
compare; it wraps, as it does in the release build. `debug_assert_eq!` is not
part of that build.
-/

namespace Rampipe

open Text

/-! ## Data -/

inductive Role
  | user
  | assistant
  deriving DecidableEq

/-- One completed turn's span in the cache, `[start_pos, end_pos)`. -/
structure TurnBoundary where
  role : Role
  startPos : Int
  endPos : Int
  deriving DecidableEq

namespace TurnBoundary

/-- Moves a span down by `removed` positions. -/
def shift (removed : Int) (turn : TurnBoundary) : TurnBoundary :=
  { turn with startPos := turn.startPos - removed, endPos := turn.endPos - removed }

/-- A turn that moves keeps its role. -/
@[simp] theorem shift_role (removed : Int) (turn : TurnBoundary) :
    (turn.shift removed).role = turn.role := rfl

/-- It begins as much earlier. -/
@[simp] theorem shift_startPos (removed : Int) (turn : TurnBoundary) :
    (turn.shift removed).startPos = turn.startPos - removed := rfl

/-- It ends as much earlier. -/
@[simp] theorem shift_endPos (removed : Int) (turn : TurnBoundary) :
    (turn.shift removed).endPos = turn.endPos - removed := rfl

end TurnBoundary

inductive OverflowPolicy
  | fail
  | dropOldestTurns
  deriving DecidableEq

/-- The fixed spans a conversation composes each turn's text from. -/
structure ConversationTemplate where
  firstTurnOpen : Text
  generationOpen : Text
  turnTransition : Text
  deriving DecidableEq

structure Conversation (L : Llama) where
  ctx : L.Ctx
  handlePath : Text
  template : ConversationTemplate
  committedPos : Int
  nCtx : Int
  turns : List TurnBoundary
  overflow : OverflowPolicy
  tokens : List LlamaToken
  opening : Text
  protectedPrefix : Int
  systemForFirstTurn : Option Text
  toolFormat : Option ToolFormat
  toolResultSpans : Option ToolResultSpans
  capabilities : ToolFormat.ChatCapabilities
  tools : List ToolSpec
  configuredToolFormat : Option ToolFormat

/-- What a turn reports, its wall-clock time aside. -/
structure GenerationResult where
  text : Text
  tokensGenerated : Nat
  committedTokens : Nat
  contextSize : Nat
  formattedPrompt : Text
  toolCalls : List ToolCall
  truncatedToolCall : Bool

/-- How a call returned. `panicked` is a `Vec::drain` out of range, `hangs` a
tool-call parser that does not return. -/
inductive Outcome (α : Type)
  | ok (value : α)
  | err (e : LlamaSessionError)
  | panicked
  | hangs

namespace Outcome

variable {α : Type}

def isOk : Outcome α → Bool
  | ok _ => true
  | _ => false

/-- The value of a success. -/
def get : (o : Outcome α) → o.isOk = true → α
  | ok value, _ => value

/-- An outcome that is `Ok` is its value. -/
theorem eq_ok_get (o : Outcome α) (h : o.isOk = true) : o = ok (o.get h) := by
  cases o with
  | ok value => rfl
  | _ => cases h

/-- The error of a failure. -/
def error : Outcome α → Option LlamaSessionError
  | err e => some e
  | _ => none

/-- One that is an error is that error. -/
theorem eq_err_of_error {o : Outcome α} {e : LlamaSessionError} (h : o.error = some e) :
    o = err e := by
  cases o with
  | err e' => exact congrArg err (Option.some.inj h)
  | _ => cases h

end Outcome

/-- A call's outcome and the conversation it left behind. -/
abbrev Step (L : Llama) (α : Type) := Outcome α × Conversation L

variable {L : Llama}

/-- Continues after a success; anything else returns from the call as it is. -/
def Step.andThen {α β : Type} (step : Step L α) (next : α → Conversation L → Step L β) : Step L β :=
  match step with
  | (.ok value, c) => next value c
  | (.err e, c) => (.err e, c)
  | (.panicked, c) => (.panicked, c)
  | (.hangs, c) => (.hangs, c)

/-- A step that went well goes on. -/
@[simp] theorem Step.andThen_ok {α β : Type} (value : α) (c : Conversation L)
    (next : α → Conversation L → Step L β) :
    Step.andThen (.ok value, c) next = next value c := rfl

/-- One that failed does not. -/
@[simp] theorem Step.andThen_err {α β : Type} (e : LlamaSessionError) (c : Conversation L)
    (next : α → Conversation L → Step L β) : Step.andThen (.err e, c) next = (.err e, c) := rfl

namespace Conversation

/-! ## Making room -/

/-- `x as u32`. -/
def asU32 (x : Int) : Nat := (x % 4294967296).toNat

/-- `x as usize`, on a 64-bit target. -/
def asUsize (x : Int) : Nat := (x % 18446744073709551616).toNat

/-- `Vec::drain(start..stop)`; `none` when it panics. -/
def drain {α : Type} (start stop : Nat) (xs : List α) : Option (List α) :=
  if start ≤ stop ∧ stop ≤ xs.length then some (xs.take start ++ xs.drop stop) else none

/-- Takes the span `[start, stop)` out of the cache, the turns, the position and
the tokens, in the source's order. -/
def removeSpan (c : Conversation L) (start stop : Int) : Step L Unit :=
  let removed := stop - start
  match L.kvCacheSeqRm c.ctx (asU32 start) (asU32 stop) with
  | .error source => (.err (.kvCache source), c)
  | .ok (_, ctx) =>
    -- the cells behind the span move down and close the gap
    match L.kvCacheSeqAdd ctx (asU32 stop) (-removed) with
    | .error source => (.err (.kvCache source), { c with ctx })
    | .ok ctx =>
      let c := { c with
        ctx
        turns := c.turns.map (·.shift removed)
        committedPos := c.committedPos - removed }
      -- the tokens come last; the turns and the position have moved by now
      match drain (asUsize start) (asUsize stop) c.tokens with
      | none => (.panicked, c)
      | some tokens => (.ok (), { c with tokens })

/-- Where the eviction of `user`'s exchange starts: never inside the opening. -/
def evictionStart (c : Conversation L) (user : TurnBoundary) : Int :=
  max user.startPos c.protectedPrefix

/-- One turn of the loop of `drop_oldest_turns_for`, over the conversation and
`freed`. -/
def dropTurn (needed : Int) (s : Conversation L × Int) :
    Loop.Turn (Conversation L × Int) (Step L Unit) :=
  let (c, freed) := s
  if i32 (i32 (c.committedPos + needed) - freed) < c.nCtx then .leave (.ok (), c)
  else
    match c.turns with
    | user :: assistant :: rest =>
      -- the pair is off the list before its span is looked at
      let c := { c with turns := rest }
      let start := c.evictionStart user
      let removed := assistant.endPos - start
      -- the whole pair is inside the protected prefix
      if removed ≤ 0 then .leave (.err .conversationTooLargeToTrim, c)
      else
        match c.removeSpan start assistant.endPos with
        | (.ok (), c) => .again (c, freed + removed)
        | (o, c) => .leave (o, c)
    | _ => .leave (.err .conversationTooLargeToTrim, c)

/-- The ways through one turn of the loop. -/
inductive DropCase (needed : Int) (c : Conversation L) (freed : Int) :
    Loop.Turn (Conversation L × Int) (Step L Unit) → Prop
  | fits (hFits : i32 (i32 (c.committedPos + needed) - freed) < c.nCtx) :
      DropCase needed c freed (.leave (.ok (), c))
  | tooFew (hFull : c.nCtx ≤ i32 (i32 (c.committedPos + needed) - freed))
      (hFew : c.turns.length < 2) :
      DropCase needed c freed (.leave (.err .conversationTooLargeToTrim, c))
  | inside {user assistant : TurnBoundary} {rest : List TurnBoundary}
      (hFull : c.nCtx ≤ i32 (i32 (c.committedPos + needed) - freed))
      (hTurns : c.turns = user :: assistant :: rest)
      (hInside : assistant.endPos ≤ c.evictionStart user) :
      DropCase needed c freed
        (.leave (.err .conversationTooLargeToTrim, { c with turns := rest }))
  | stuck {user assistant : TurnBoundary} {rest : List TurnBoundary} {o : Outcome Unit}
      {c' : Conversation L} (hFull : c.nCtx ≤ i32 (i32 (c.committedPos + needed) - freed))
      (hTurns : c.turns = user :: assistant :: rest)
      (hOutside : c.evictionStart user < assistant.endPos)
      (hRemove : removeSpan { c with turns := rest } (c.evictionStart user) assistant.endPos =
        (o, c'))
      (hStuck : o ≠ .ok ()) : DropCase needed c freed (.leave (o, c'))
  | dropped {user assistant : TurnBoundary} {rest : List TurnBoundary} {c' : Conversation L}
      (hFull : c.nCtx ≤ i32 (i32 (c.committedPos + needed) - freed))
      (hTurns : c.turns = user :: assistant :: rest)
      (hOutside : c.evictionStart user < assistant.endPos)
      (hRemove : removeSpan { c with turns := rest } (c.evictionStart user) assistant.endPos =
        (.ok (), c')) :
      DropCase needed c freed (.again (c', freed + (assistant.endPos - c.evictionStart user)))

/-- One turn of the drop loop does one of the things that `DropCase` lists. -/
theorem dropTurn_case (needed : Int) (c : Conversation L) (freed : Int) :
    DropCase needed c freed (dropTurn needed (c, freed)) := by
  unfold dropTurn
  dsimp only
  -- the room test
  by_cases hFits : i32 (i32 (c.committedPos + needed) - freed) < c.nCtx
  · rw [if_pos hFits]
    exact .fits hFits
  rw [if_neg hFits]
  have hFull := not_lt.mp hFits
  -- then two turns to drop
  rcases hTurns : c.turns with _ | ⟨user, _ | ⟨assistant, rest⟩⟩
  · exact .tooFew hFull (by simp [hTurns])
  · exact .tooFew hFull (by simp [hTurns])
  dsimp only
  have hStart : evictionStart { c with turns := rest } user = c.evictionStart user := rfl
  rw [hStart]
  -- then a pair that is not inside the protected prefix
  by_cases hInside : assistant.endPos - c.evictionStart user ≤ 0
  · rw [if_pos hInside]
    exact .inside hFull hTurns (by omega)
  rw [if_neg hInside]
  -- and last the removal itself, which goes round again only when it succeeds
  rcases hRemove : removeSpan { c with turns := rest } (c.evictionStart user) assistant.endPos
    with ⟨o, c'⟩
  cases o with
  | ok _ => exact .dropped hFull hTurns (by omega) hRemove
  | err e => exact .stuck hFull hTurns (by omega) hRemove (by simp)
  | panicked => exact .stuck hFull hTurns (by omega) hRemove (by simp)
  | hangs => exact .stuck hFull hTurns (by omega) hRemove (by simp)

/-- What a span's removal changes, when nothing fails. -/
theorem removeSpan_ok {c c' : Conversation L} {start stop : Int}
    (h : c.removeSpan start stop = (.ok (), c')) :
    ∃ ctx1 ctx2 removed tokens,
      L.kvCacheSeqRm c.ctx (asU32 start) (asU32 stop) = .ok (removed, ctx1) ∧
      L.kvCacheSeqAdd ctx1 (asU32 stop) (-(stop - start)) = .ok ctx2 ∧
      drain (asUsize start) (asUsize stop) c.tokens = some tokens ∧
      c' = { c with
        ctx := ctx2
        turns := c.turns.map (·.shift (stop - start))
        committedPos := c.committedPos - (stop - start)
        tokens } := by
  -- the two engine calls and the drain succeed one after another
  unfold removeSpan at h
  cases hRm : L.kvCacheSeqRm c.ctx (asU32 start) (asU32 stop) with
  | error source =>
    rw [hRm] at h
    cases h
  | ok removed =>
    obtain ⟨removed, ctx1⟩ := removed
    rw [hRm] at h
    dsimp only at h
    cases hAdd : L.kvCacheSeqAdd ctx1 (asU32 stop) (-(stop - start)) with
    | error source =>
      rw [hAdd] at h
      cases h
    | ok ctx2 =>
      rw [hAdd] at h
      dsimp only at h
      cases hDrain : drain (asUsize start) (asUsize stop) c.tokens with
      | none =>
        rw [hDrain] at h
        cases h
      | some tokens =>
        rw [hDrain] at h
        cases h
        exact ⟨ctx1, ctx2, removed, tokens, rfl, hAdd, rfl, rfl⟩

/-- Every turn of the loop that goes round again has taken two turns off the front. -/
theorem dropTurn_again_length {needed : Int} {s s' : Conversation L × Int}
    (h : dropTurn needed s = .again s') : s'.1.turns.length + 2 = s.1.turns.length := by
  obtain ⟨c, freed⟩ := s
  have hCase := dropTurn_case needed c freed
  rw [h] at hCase
  cases hCase with
  | dropped _ hTurns _ hRemove =>
    obtain ⟨ctx1, ctx2, removed, tokens, -, -, -, rfl⟩ := removeSpan_ok hRemove
    simp [hTurns]

/-- The loop drops a pair of turns each time, so it comes to its end. -/
theorem dropLoop_ends (c : Conversation L) (needed : Int) :
    (Loop.iterate (dropTurn needed) (c.turns.length + 1) (c, 0)).isSome :=
  Loop.iterate_isSome (fun s => s.1.turns.length)
    (fun s s' h => by have := dropTurn_again_length h; omega) (Nat.lt_succ_self _)

/-- Drops whole exchanges from the front, oldest first. -/
def dropOldestTurnsFor (c : Conversation L) (needed : Int) : Step L Unit :=
  (Loop.iterate (dropTurn needed) (c.turns.length + 1) (c, 0)).get (dropLoop_ends c needed)

def ensureRoomFor (c : Conversation L) (needed : Int) : Step L Unit :=
  if i32 (c.committedPos + needed) < c.nCtx then (.ok (), c)
  else
    match c.overflow with
    | .fail => (.err (.conversationContextFull c.committedPos needed c.nCtx), c)
    | .dropOldestTurns => c.dropOldestTurnsFor needed

/-! ## Taking a turn -/

/-- What a caller asks of one turn. -/
structure TurnOptions where
  maxNewTokens : Int
  sampling : Sampling
  grammar : Option Text
  grammarComplete : Option (Text → Bool)

def genParams (c : Conversation L) (options : TurnOptions) : GenParams where
  nCtx := c.nCtx
  maxNewTokens := options.maxNewTokens
  sampling := options.sampling
  grammar := options.grammar
  grammarComplete := options.grammarComplete
  turnEnd := c.toolFormat.map TurnEnd.of

/-- Records a turn that fills the cache up to `pos`. -/
def recordTurn (c : Conversation L) (role : Role) (ctx : L.Ctx) (pos : Int)
    (tokens : List LlamaToken) : Conversation L :=
  { c with
    ctx
    committedPos := pos
    turns := c.turns ++ [⟨role, c.committedPos, pos⟩]
    tokens := c.tokens ++ tokens }

/-- Prefills a user turn's tokens and records the turn. -/
def prefillUser (c : Conversation L) (tokens : List LlamaToken) : Step L L.Batch :=
  match decodeChunked L c.ctx (L.newBatch 512 1) tokens c.committedPos with
  | ((.error e, pos), ctx) => (.err e, { c with ctx, committedPos := pos })
  | ((.ok batch, pos), ctx) => (.ok batch, c.recordTurn .user ctx pos tokens)

/-- Generates the assistant turn and records it: its text and its tokens. -/
def generateAssistant (c : Conversation L) (options : TurnOptions) (batch : L.Batch) :
    Step L (Text × List LlamaToken) :=
  match runGenerationLoop (c.genParams options) c.ctx batch c.committedPos with
  -- what was fed back before the failure stays in the cache
  | (.error e, s) => (.err e, { c with ctx := s.ctx, committedPos := s.nCur })
  | (.ok (), s) =>
    (.ok (s.text, s.generated), c.recordTurn .assistant s.ctx s.nCur s.generated)

/-- `parse_tool_calls`, or no calls without a format; `none` when it hangs. -/
def readToolCalls (c : Conversation L) (text : Text) : Option (List ToolCall) :=
  match c.toolFormat with
  | some format => parseToolCalls L.fromStr text format
  | none => some []

/-- The result of a turn that went through. -/
def report (c : Conversation L) (formattedPrompt : Text) (assistantPrefill : Option Text)
    (text : Text) (generated : List LlamaToken) : Outcome GenerationResult :=
  let text := assistantPrefill.getD [] ++ text
  match c.readToolCalls text with
  | none => .hangs
  | some toolCalls => .ok {
      text
      tokensGenerated := generated.length
      committedTokens := c.committedPos.toNat
      contextSize := asUsize c.nCtx
      formattedPrompt
      toolCalls
      truncatedToolCall := (c.toolFormat.map (endsMidCall text)).getD false }

/-- What the next message is rendered behind, and whether with a BOS. -/
def nextOpening (c : Conversation L) : Text × AddBos :=
  if c.turns.isEmpty then (c.opening, .always) else (c.template.turnTransition, .never)

/-- Folds the system text into the very first message. -/
def foldSystem (c : Conversation L) (message : Text) : Text :=
  match c.systemForFirstTurn, c.turns.isEmpty with
  | some system, true => system ++ "\n\n".toList ++ message
  | _, _ => message

def userText (c : Conversation L) (message : Text) (assistantPrefill : Option Text) : Text :=
  c.nextOpening.1 ++ c.foldSystem message ++ c.template.generationOpen ++ assistantPrefill.getD []

/-- Establishes `protected_prefix` on the first turn. -/
def protectOpening (c : Conversation L) (userTokens : List LlamaToken) :
    Except LlamaSessionError (Conversation L) :=
  let (opening, addBos) := c.nextOpening
  if c.turns.isEmpty && !opening.isEmpty then
    match L.strToToken opening addBos with
    | .error source => .error (.tokenize source)
    | .ok openingTokens =>
      -- a tokeniser that merges across the boundary leaves nothing to protect
      if openingTokens.isPrefixOf userTokens then
        .ok { c with protectedPrefix := openingTokens.length }
      else .ok c
  else .ok c

/-- A turn whose text is rendered and tokenised. -/
structure PreparedTurn (L : Llama) where
  conversation : Conversation L
  formattedPrompt : Text
  tokens : List LlamaToken
  assistantPrefill : Option Text
  options : TurnOptions

/-- How many positions the turn is checked for. -/
def PreparedTurn.needed (turn : PreparedTurn L) : Int :=
  i32 (i32 turn.tokens.length + turn.options.maxNewTokens)

/-- What `send` and `send_tool_results` do once the turn's tokens are there. -/
def PreparedTurn.run (turn : PreparedTurn L) : Step L GenerationResult :=
  -- room first, for the turn and the longest reply it may get
  (turn.conversation.ensureRoomFor turn.needed).andThen fun _ c =>
    (c.prefillUser turn.tokens).andThen fun batch c =>
      (c.generateAssistant turn.options batch).andThen fun (text, generated) c =>
        (c.report turn.formattedPrompt turn.assistantPrefill text generated, c)

def prepareSend (c : Conversation L) (message : Text) (assistantPrefill : Option Text)
    (options : TurnOptions) : Except LlamaSessionError (PreparedTurn L) :=
  let userText := c.userText message assistantPrefill
  match L.strToToken userText c.nextOpening.2 with
  | .error source => .error (.tokenize source)
  | .ok userTokens =>
    match c.protectOpening userTokens with
    | .error e => .error e
    | .ok c => .ok ⟨c, userText, userTokens, assistantPrefill, options⟩

def prepareToolResults (c : Conversation L) (results : List Text) (options : TurnOptions) :
    Except LlamaSessionError (PreparedTurn L) :=
  match c.toolResultSpans with
  -- without result markers the results go out as a message
  | none => c.prepareSend (Text.join "\n".toList results) none options
  | some spans =>
    let textIn := spans.render results
    match L.strToToken textIn .never with
    | .error source => .error (.tokenize source)
    | .ok tokens => .ok ⟨c, textIn, tokens, none, options⟩

/-- Runs a turn that could be prepared; a preparation that fails changes nothing. -/
def runPrepared (c : Conversation L) :
    Except LlamaSessionError (PreparedTurn L) → Step L GenerationResult
  | .error e => (.err e, c)
  | .ok turn => turn.run

def send (c : Conversation L) (message : Text) (assistantPrefill : Option Text)
    (options : TurnOptions) : Step L GenerationResult :=
  c.runPrepared (c.prepareSend message assistantPrefill options)

def sendToolResults (c : Conversation L) (results : List Text) (options : TurnOptions) :
    Step L GenerationResult :=
  c.runPrepared (c.prepareToolResults results options)

/-- The two calls that take a turn. -/
inductive Request
  | send (message : Text) (assistantPrefill : Option Text) (options : TurnOptions)
  | toolResults (results : List Text) (options : TurnOptions)

def prepare (c : Conversation L) : Request → Except LlamaSessionError (PreparedTurn L)
  | .send message assistantPrefill options => c.prepareSend message assistantPrefill options
  | .toolResults results options => c.prepareToolResults results options

def call (c : Conversation L) : Request → Step L GenerationResult
  | .send message assistantPrefill options => c.send message assistantPrefill options
  | .toolResults results options => c.sendToolResults results options

/-- A call prepares its turn and runs it. -/
theorem call_eq (c : Conversation L) (request : Request) :
    c.call request = c.runPrepared (c.prepare request) := by
  cases request <;> rfl

/-- The conversation a call leaves behind. -/
def after (c : Conversation L) (request : Request) : Conversation L := (c.call request).2

/-- `supports_tool_calls()`. -/
def supportsToolCalls (c : Conversation L) : Bool := c.toolFormat.isSome

/-- `turn_count()`. -/
def turnCount (c : Conversation L) : Nat := c.turns.length / 2

/-- A tool-result turn in the template's own result markers. -/
def native (c : Conversation L) : Request → Bool
  | .send .. => false
  | .toolResults .. => c.toolResultSpans.isSome

/-! ## What a call does -/

/-- The ways through a turn once it is prepared. -/
inductive RunCase (turn : PreparedTurn L) : Step L GenerationResult → Prop
  | refused {e : LlamaSessionError} {c1 : Conversation L}
      (hRoom : turn.conversation.ensureRoomFor turn.needed = (.err e, c1)) :
      RunCase turn (.err e, c1)
  | broken {o : Outcome Unit} {o' : Outcome GenerationResult} {c1 : Conversation L}
      (hRoom : turn.conversation.ensureRoomFor turn.needed = (o, c1))
      (hBroken : o = .panicked ∧ o' = .panicked ∨ o = .hangs ∧ o' = .hangs) :
      RunCase turn (o', c1)
  | prefillFails {e : LlamaSessionError} {c1 c2 : Conversation L}
      (hRoom : turn.conversation.ensureRoomFor turn.needed = (.ok (), c1))
      (hPrefill : c1.prefillUser turn.tokens = (.err e, c2)) : RunCase turn (.err e, c2)
  | generationFails {e : LlamaSessionError} {c1 c2 c3 : Conversation L} {batch : L.Batch}
      (hRoom : turn.conversation.ensureRoomFor turn.needed = (.ok (), c1))
      (hPrefill : c1.prefillUser turn.tokens = (.ok batch, c2))
      (hGenerate : c2.generateAssistant turn.options batch = (.err e, c3)) :
      RunCase turn (.err e, c3)
  | replied {c1 c2 c3 : Conversation L} {batch : L.Batch} {text : Text}
      {generated : List LlamaToken}
      (hRoom : turn.conversation.ensureRoomFor turn.needed = (.ok (), c1))
      (hPrefill : c1.prefillUser turn.tokens = (.ok batch, c2))
      (hGenerate : c2.generateAssistant turn.options batch = (.ok (text, generated), c3)) :
      RunCase turn (c3.report turn.formattedPrompt turn.assistantPrefill text generated, c3)

/-- `decode_chunked` either fails or records the user turn. -/
theorem prefillUser_case (c : Conversation L) (tokens : List LlamaToken) :
    (∃ e ctx, decodeChunked L c.ctx (L.newBatch 512 1) tokens c.committedPos =
        ((.error e, c.committedPos), ctx) ∧
      c.prefillUser tokens = (.err e, { c with ctx })) ∨
    ∃ batch pos ctx,
      decodeChunked L c.ctx (L.newBatch 512 1) tokens c.committedPos = ((.ok batch, pos), ctx) ∧
      c.prefillUser tokens = (.ok batch, c.recordTurn .user ctx pos tokens) := by
  unfold prefillUser
  rcases hDecode : decodeChunked L c.ctx (L.newBatch 512 1) tokens c.committedPos with
    ⟨⟨_ | batch, pos⟩, ctx⟩
  · -- a prefill that fails has not moved the position
    cases decodeChunked_error hDecode
    exact .inl ⟨_, _, rfl, rfl⟩
  · exact .inr ⟨_, _, _, rfl, rfl⟩

/-- The generation loop either fails or records the assistant turn. -/
theorem generateAssistant_case (c : Conversation L) (options : TurnOptions) (batch : L.Batch) :
    (∃ e s, runGenerationLoop (c.genParams options) c.ctx batch c.committedPos = (.error e, s) ∧
      c.generateAssistant options batch =
        (.err e, { c with ctx := s.ctx, committedPos := s.nCur })) ∨
    ∃ s, runGenerationLoop (c.genParams options) c.ctx batch c.committedPos = (.ok (), s) ∧
      c.generateAssistant options batch =
        (.ok (s.text, s.generated), c.recordTurn .assistant s.ctx s.nCur s.generated) := by
  unfold generateAssistant
  rcases runGenerationLoop (c.genParams options) c.ctx batch c.committedPos with ⟨_ | _, s⟩
  · exact .inl ⟨_, _, rfl, rfl⟩
  · exact .inr ⟨_, rfl, rfl⟩

/-- A turn that is run does one of the things that `RunCase` lists. -/
theorem run_case (turn : PreparedTurn L) : RunCase turn turn.run := by
  unfold PreparedTurn.run
  -- room, then the prefill, then the reply: each step needs the one before it
  rcases hRoom : turn.conversation.ensureRoomFor turn.needed with ⟨o, c1⟩
  cases o with
  | err e => exact .refused hRoom
  | panicked => exact .broken hRoom (.inl ⟨rfl, rfl⟩)
  | hangs => exact .broken hRoom (.inr ⟨rfl, rfl⟩)
  | ok _ =>
    rw [Step.andThen_ok]
    rcases prefillUser_case c1 turn.tokens with
      ⟨e, ctx, -, hPrefill⟩ | ⟨batch, pos, ctx, -, hPrefill⟩
    · rw [hPrefill, Step.andThen_err]
      exact .prefillFails hRoom hPrefill
    rw [hPrefill, Step.andThen_ok]
    rcases generateAssistant_case (c1.recordTurn .user ctx pos turn.tokens) turn.options batch with
      ⟨e, s, -, hGenerate⟩ | ⟨s, -, hGenerate⟩
    · rw [hGenerate, Step.andThen_err]
      exact .generationFails hRoom hPrefill hGenerate
    · rw [hGenerate, Step.andThen_ok]
      exact .replied hRoom hPrefill hGenerate

/-- A call that returns `Ok` has been prepared, given room, prefilled and generated. -/
theorem call_ok {c c' : Conversation L} {request : Request} {result : GenerationResult}
    (h : c.call request = (.ok result, c')) :
    ∃ turn c1 batch c2 text generated, c.prepare request = .ok turn ∧
      turn.conversation.ensureRoomFor turn.needed = (.ok (), c1) ∧
      c1.prefillUser turn.tokens = (.ok batch, c2) ∧
      c2.generateAssistant turn.options batch = (.ok (text, generated), c') ∧
      c'.report turn.formattedPrompt turn.assistantPrefill text generated = .ok result := by
  rw [call_eq] at h
  cases hPrepare : c.prepare request with
  | error e =>
    rw [hPrepare] at h
    cases h
  | ok turn =>
    rw [hPrepare, runPrepared] at h
    have hCase := run_case turn
    rw [h] at hCase
    generalize hOutcome : (Outcome.ok result, c') = step at hCase
    -- of the ways through a turn only the last one reports a result
    cases hCase with
    | refused => cases hOutcome
    | broken _ hBroken => rcases hBroken with ⟨-, rfl⟩ | ⟨-, rfl⟩ <;> cases hOutcome
    | prefillFails => cases hOutcome
    | generationFails => cases hOutcome
    | replied hRoom hPrefill hGenerate =>
      obtain ⟨hReport, rfl⟩ := Prod.mk.inj hOutcome
      exact ⟨turn, _, _, _, _, _, rfl, hRoom, hPrefill, hGenerate, hReport.symm⟩

/-- What a prepared turn is: a message, behind the opening or the turn
transition, or tool results in the template's own markers. -/
inductive Prepared (c : Conversation L) (request : Request) : PreparedTurn L → Prop
  | message {message : Text} {assistantPrefill : Option Text} {options : TurnOptions}
      {tokens : List LlamaToken} {c1 : Conversation L} (hNative : c.native request = false)
      (hTokens : L.strToToken (c.userText message assistantPrefill) c.nextOpening.2 = .ok tokens)
      (hProtect : c.protectOpening tokens = .ok c1) :
      Prepared c request
        ⟨c1, c.userText message assistantPrefill, tokens, assistantPrefill, options⟩
  | results {spans : ToolResultSpans} {results : List Text} {options : TurnOptions}
      {tokens : List LlamaToken} (hSpans : c.toolResultSpans = some spans)
      (hNative : c.native request = true)
      (hTokens : L.strToToken (spans.render results) .never = .ok tokens) :
      Prepared c request ⟨c, spans.render results, tokens, none, options⟩

/-- What `send` prepares is prepared as `Prepared` says. -/
theorem prepareSend_ok {c : Conversation L} {message : Text} {assistantPrefill : Option Text}
    {options : TurnOptions} {turn : PreparedTurn L} {request : Request}
    (hNative : c.native request = false)
    (h : c.prepareSend message assistantPrefill options = .ok turn) : Prepared c request turn := by
  unfold prepareSend at h
  dsimp only at h
  split at h
  · cases h
  · rename_i tokens hTokens
    split at h
    · cases h
    · rename_i c1 hProtect
      cases h
      exact .message hNative hTokens hProtect

/-- So is what either call prepares. -/
theorem prepare_ok {c : Conversation L} {request : Request} {turn : PreparedTurn L}
    (h : c.prepare request = .ok turn) : Prepared c request turn := by
  cases request with
  | send message assistantPrefill options => exact prepareSend_ok rfl h
  | toolResults results options =>
    simp only [prepare] at h
    unfold prepareToolResults at h
    -- without result spans the results are sent as a message
    cases hSpans : c.toolResultSpans with
    | none =>
      rw [hSpans] at h
      exact prepareSend_ok (by simp [native, hSpans]) h
    | some spans =>
      rw [hSpans] at h
      dsimp only at h
      split at h
      · cases h
      · rename_i tokens hTokens
        cases h
        exact .results hSpans (by simp [native, hSpans]) hTokens

/-- The opening is protected when it tokenises as a prefix of the first turn. -/
theorem protectOpening_ok {c c1 : Conversation L} {tokens : List LlamaToken}
    (h : c.protectOpening tokens = .ok c1) :
    c1 = c ∨ c.turns = [] ∧ c.opening ≠ [] ∧ ∃ openingTokens,
      L.strToToken c.opening .always = .ok openingTokens ∧ openingTokens <+: tokens ∧
      c1 = { c with protectedPrefix := openingTokens.length } := by
  unfold protectOpening at h
  dsimp only at h
  split at h
  · rename_i hFirst
    simp only [Bool.and_eq_true, List.isEmpty_iff, Bool.not_eq_true', List.isEmpty_eq_false_iff]
      at hFirst
    obtain ⟨hTurns, hOpening⟩ := hFirst
    -- on the first turn the opening is what `next_opening` returns
    have hNext : c.nextOpening = (c.opening, .always) := by simp [nextOpening, hTurns]
    rw [hNext] at h hOpening
    cases hTokens : L.strToToken c.opening .always with
    | error source =>
      rw [hTokens] at h
      cases h
    | ok openingTokens =>
      rw [hTokens] at h
      dsimp only at h
      split at h
      · rename_i hPrefix
        cases h
        exact .inr ⟨hTurns, hOpening, openingTokens, rfl, List.isPrefixOf_iff_prefix.mp hPrefix, rfl⟩
      · cases h
        exact .inl rfl
  · cases h
    exact .inl rfl

/-! ## What no call changes -/

/-- The part of a conversation that is settled when it is opened. -/
structure Setup where
  handlePath : Text
  template : ConversationTemplate
  nCtx : Int
  overflow : OverflowPolicy
  opening : Text
  systemForFirstTurn : Option Text
  toolFormat : Option ToolFormat
  toolResultSpans : Option ToolResultSpans
  capabilities : ToolFormat.ChatCapabilities
  tools : List ToolSpec
  configuredToolFormat : Option ToolFormat

def setup (c : Conversation L) : Setup where
  handlePath := c.handlePath
  template := c.template
  nCtx := c.nCtx
  overflow := c.overflow
  opening := c.opening
  systemForFirstTurn := c.systemForFirstTurn
  toolFormat := c.toolFormat
  toolResultSpans := c.toolResultSpans
  capabilities := c.capabilities
  tools := c.tools
  configuredToolFormat := c.configuredToolFormat

/-- What a turn leaves as it is once it is prepared: the setup and what is protected. -/
def held (c : Conversation L) : Setup × Int := (c.setup, c.protectedPrefix)

/-- Recording a turn holds on to what is held. -/
@[simp] theorem held_recordTurn (c : Conversation L) (role : Role) (ctx : L.Ctx) (pos : Int)
    (tokens : List LlamaToken) : (c.recordTurn role ctx pos tokens).held = c.held := rfl

/-- So does cutting a span out. -/
theorem held_removeSpan {c c' : Conversation L} {start stop : Int} {o : Outcome Unit}
    (h : c.removeSpan start stop = (o, c')) : c'.held = c.held := by
  unfold removeSpan at h
  split at h
  · cases h
    rfl
  dsimp only at h
  split at h
  · cases h
    rfl
  split at h <;> cases h <;> rfl

/-- The result of dropping is what the last turn of the loop left with. -/
theorem dropOldestTurnsFor_leaves (c : Conversation L) (needed : Int) :
    ∃ s, Loop.Visits (dropTurn needed) (c, 0) s ∧
      dropTurn needed s = .leave (c.dropOldestTurnsFor needed) :=
  Loop.exists_leave_of_iterate (Option.some_get (dropLoop_ends c needed)).symm

/-- Dropping turns holds on to what is held. -/
theorem held_dropOldestTurnsFor (c : Conversation L) (needed : Int) :
    (c.dropOldestTurnsFor needed).2.held = c.held := by
  -- one turn of the loop, whichever way it goes
  have hTurn : ∀ {c1 : Conversation L} {freed : Int}
      {t : Loop.Turn (Conversation L × Int) (Step L Unit)}, DropCase needed c1 freed t →
      (∀ s, t = .again s → s.1.held = c1.held) ∧ ∀ r, t = .leave r → r.2.held = c1.held := by
    intro c1 freed t hCase
    cases hCase with
    | fits => simp
    | tooFew => simp
    | inside => exact ⟨by simp, by rintro r ⟨⟩; rfl⟩
    | stuck _ _ _ hRemove =>
      have hHeld := held_removeSpan hRemove
      exact ⟨by simp, by rintro r ⟨⟩; exact hHeld⟩
    | dropped _ _ _ hRemove =>
      have hHeld := held_removeSpan hRemove
      exact ⟨by rintro s ⟨⟩; exact hHeld, by simp⟩
  -- and so every turn up to the last, and the last itself
  obtain ⟨⟨c1, freed⟩, hVisits, hLeave⟩ := dropOldestTurnsFor_leaves c needed
  have hHead : c1.held = c.held :=
    hVisits.induction (fun s => s.1.held = c.held) rfl fun t t' ht hAgain =>
      ((hTurn (dropTurn_case needed t.1 t.2)).1 t' hAgain).trans ht
  exact ((hTurn (dropTurn_case needed c1 freed)).2 _ hLeave).trans hHead

/-- So does making room. -/
theorem held_ensureRoomFor {c c' : Conversation L} {needed : Int} {o : Outcome Unit}
    (h : c.ensureRoomFor needed = (o, c')) : c'.held = c.held := by
  unfold ensureRoomFor at h
  split at h
  · cases h
    rfl
  split at h
  · cases h
    rfl
  · rw [← held_dropOldestTurnsFor c needed, h]

/-- So does decoding the message. -/
theorem held_prefillUser {c c' : Conversation L} {tokens : List LlamaToken} {o : Outcome L.Batch}
    (h : c.prefillUser tokens = (o, c')) : c'.held = c.held := by
  rcases prefillUser_case c tokens with ⟨_, _, -, hCase⟩ | ⟨_, _, _, -, hCase⟩ <;>
    rw [h] at hCase <;> cases hCase <;> rfl

/-- So does generating the reply. -/
theorem held_generateAssistant {c c' : Conversation L} {options : TurnOptions} {batch : L.Batch}
    {o : Outcome (Text × List LlamaToken)} (h : c.generateAssistant options batch = (o, c')) :
    c'.held = c.held := by
  rcases generateAssistant_case c options batch with ⟨_, _, -, hCase⟩ | ⟨_, -, hCase⟩ <;>
    rw [h] at hCase <;> cases hCase <;> rfl

/-- And so does the whole turn. -/
theorem held_run (turn : PreparedTurn L) : turn.run.2.held = turn.conversation.held := by
  have hCase := run_case turn
  generalize turn.run = result at hCase
  cases hCase with
  | refused hRoom => exact held_ensureRoomFor hRoom
  | broken hRoom _ => exact held_ensureRoomFor hRoom
  | prefillFails hRoom hPrefill =>
    exact (held_prefillUser hPrefill).trans (held_ensureRoomFor hRoom)
  | generationFails hRoom hPrefill hGenerate =>
    exact (held_generateAssistant hGenerate).trans
      ((held_prefillUser hPrefill).trans (held_ensureRoomFor hRoom))
  | replied hRoom hPrefill hGenerate =>
    exact (held_generateAssistant hGenerate).trans
      ((held_prefillUser hPrefill).trans (held_ensureRoomFor hRoom))

/-- Making room leaves the setup alone. -/
theorem setup_ensureRoomFor {c c' : Conversation L} {needed : Int} {o : Outcome Unit}
    (h : c.ensureRoomFor needed = (o, c')) : c'.setup = c.setup :=
  congrArg Prod.fst (held_ensureRoomFor h)

/-- So does decoding the message. -/
theorem setup_prefillUser {c c' : Conversation L} {tokens : List LlamaToken} {o : Outcome L.Batch}
    (h : c.prefillUser tokens = (o, c')) : c'.setup = c.setup :=
  congrArg Prod.fst (held_prefillUser h)

/-- So does the whole turn. -/
theorem setup_run (turn : PreparedTurn L) : turn.run.2.setup = turn.conversation.setup :=
  congrArg Prod.fst (held_run turn)

/-- Measuring the opening leaves the setup alone. -/
theorem setup_protectOpening {c c1 : Conversation L} {tokens : List LlamaToken}
    (h : c.protectOpening tokens = .ok c1) : c1.setup = c.setup := by
  rcases protectOpening_ok h with rfl | ⟨-, -, _, -, -, rfl⟩ <;> rfl

/-- So does preparing a turn. -/
theorem setup_prepare {c : Conversation L} {request : Request} {turn : PreparedTurn L}
    (h : c.prepare request = .ok turn) : turn.conversation.setup = c.setup := by
  cases prepare_ok h with
  | message _ _ hProtect => exact setup_protectOpening hProtect
  | results => rfl

/-- **Frame.** A call never changes what was settled at opening. -/
theorem setup_after (c : Conversation L) (request : Request) :
    (c.after request).setup = c.setup := by
  rw [after, call_eq]
  cases hPrepare : c.prepare request with
  | error e => rfl
  | ok turn => exact (setup_run turn).trans (setup_prepare hPrepare)

/-- What is protected stays a number of tokens. -/
theorem protectedPrefix_after {c : Conversation L} (h : 0 ≤ c.protectedPrefix)
    (request : Request) : 0 ≤ (c.after request).protectedPrefix := by
  rw [after, call_eq]
  cases hPrepare : c.prepare request with
  | error e => exact h
  | ok turn =>
    have hRun : turn.run.2.protectedPrefix = turn.conversation.protectedPrefix :=
      congrArg Prod.snd (held_run turn)
    rw [runPrepared, hRun]
    cases prepare_ok hPrepare with
    | message _ _ hProtect =>
      rcases protectOpening_ok hProtect with rfl | ⟨-, -, openingTokens, -, -, rfl⟩
      · exact h
      · exact Int.natCast_nonneg _
    | results => exact h

end Conversation

end Rampipe
