import Rampipe.Model.Connection

/-!
# Rampipe — requests that stand alone

`LlamaSession::generate` and `LlamaSession::embed` of `llama.rs`: a fresh context for one
prompt, and one for a batch of texts.

What the two ask of llama.cpp beside `Llama` are parameters: `Prompting`, for the
templates that llama.cpp renders itself, and `Embedder`, for contexts that extract
embeddings. An embedding is a vector of `Scalar`; `l2_normalize` is the arithmetic of
`f32` and a parameter too.
-/

namespace Rampipe

open Text ToolFormat

/-! ## Errors -/

inductive EmbeddingsError
  | nonePoolType
  | other (source : Text)
  deriving DecidableEq

/-- The `LlamaSessionError`s of the two calls: those of a session, and their own. -/
inductive OneShotError
  | session (e : LlamaSessionError)
  | promptTooLong (promptTokens nCtx : Int)
  | chatTemplate (source : Text)
  | chatMessage (source : Text)
  | embeddings (e : EmbeddingsError)
  deriving DecidableEq

/-! ## Prompts -/

/-- A hand-captured wrap for one prompt. -/
structure ChatWrap where
  opening : Text
  closing : Text

/-- How `chat_template(None)` answers. -/
inductive ChatTemplate
  | missing
  | failed (source : Text)
  | found

structure Prompting (L : Llama) where
  chatTemplate : ChatTemplate
  /-- A template that is UTF-8 was found. -/
  found_of_text : ∀ {templateText}, L.chatTemplate = some templateText → chatTemplate = .found
  /-- `LlamaChatMessage::new`, which refuses a NUL byte. -/
  newChatMessage : Text → Except Text Unit
  /-- `apply_chat_template` for one user message. -/
  applyChatTemplate : Text → Option Text

variable {L : Llama}

/-- `render_with_minijinja`, when the template is UTF-8. -/
def renderPrompt (L : Llama) (prompt : Text) : Option Text :=
  L.chatTemplate.bind fun templateText =>
    L.renderJson templateText (.array [message "user" prompt]) none true

def formattedPrompt (prompting : Prompting L) (chatWrap : Option ChatWrap) (prompt : Text) :
    Except OneShotError Text :=
  match prompting.chatTemplate with
  | .missing => .ok prompt
  | .failed source => .error (.chatTemplate source)
  | .found =>
    match renderPrompt L prompt with
    | some rendered => .ok rendered
    | none =>
      match prompting.newChatMessage prompt with
      | .error source => .error (.chatMessage source)
      | .ok () =>
        match prompting.applyChatTemplate prompt with
        | some formatted => .ok formatted
        | none =>
          match chatWrap with
          | some wrap => .ok (wrap.opening ++ prompt ++ wrap.closing)
          | none => .ok prompt

/-! ## Generating -/

/-- The context of a one-shot generation. -/
def ONE_SHOT_CTX : Nat := 8192

def oneShotParams (nCtx : Int) (options : Conversation.TurnOptions) : GenParams where
  nCtx := nCtx
  maxNewTokens := options.maxNewTokens
  sampling := options.sampling
  grammar := options.grammar
  grammarComplete := options.grammarComplete
  -- without a conversation there is no format to end a turn with
  turnEnd := none

/-- The prompt's tokens are decoded and a reply is generated behind them. -/
def generateFrom (ctx : L.Ctx) (formattedPrompt : Text) (tokens : List LlamaToken)
    (assistantPrefill : Option Text) (options : Conversation.TurnOptions) :
    Except OneShotError GenerationResult :=
  let nCtx := i32 (L.nCtx ctx)
  if nCtx ≤ i32 tokens.length then .error (.promptTooLong (i32 tokens.length) nCtx)
  else
    match decodeChunked L ctx (L.newBatch 512 1) tokens 0 with
    | ((.error e, _), _) => .error (.session e)
    | ((.ok batch, nCur), ctx) =>
      match runGenerationLoop (oneShotParams nCtx options) ctx batch nCur with
      | (.error e, _) => .error (.session e)
      | (.ok (), s) => .ok {
          text := assistantPrefill.getD [] ++ s.text
          tokensGenerated := s.generated.length
          committedTokens := tokens.length + s.generated.length
          contextSize := (max nCtx 0).toNat
          formattedPrompt
          toolCalls := []
          truncatedToolCall := false }

def LlamaSession.generate (prompting : Prompting L) (chatWrap : Option ChatWrap) (prompt : Text)
    (assistantPrefill : Option Text) (options : Conversation.TurnOptions) :
    Except OneShotError GenerationResult :=
  match newContextReporting L { nCtx := nonZeroU32 ONE_SHOT_CTX, defragThold := -1 } ONE_SHOT_CTX with
  | .error e => .error (.session e)
  | .ok ctx =>
    match formattedPrompt prompting chatWrap prompt with
    | .error e => .error e
    | .ok formatted =>
      -- generation resumes inside the prefill
      let formattedPrompt := formatted ++ assistantPrefill.getD []
      match L.strToToken formattedPrompt .always with
      | .error source => .error (.session (.tokenize source))
      | .ok tokens => generateFrom ctx formattedPrompt tokens assistantPrefill options

/-! ## Embedding -/

/-- The pooling types of llama.cpp that are asked for. -/
inductive LlamaPoolingType
  | mean
  | cls
  | last

/-- In-process, `Pooling` is told to llama.cpp; `None` leaves it to the model. -/
def Pooling.toLlama : Pooling → Option LlamaPoolingType
  | .model => none
  | .mean => some .mean
  | .cls => some .cls
  | .last => some .last

def Pooling.isModel : Pooling → Bool
  | .model => true
  | _ => false

/-- The model's embedding contexts. -/
structure Embedder where
  Ctx : Type
  Scalar : Type
  strToToken : Text → Except Text (List LlamaToken)
  /-- A context of the model's own size, with embeddings on. -/
  newContext : Option LlamaPoolingType → Except LlamaSessionError Ctx
  nCtx : Ctx → Nat
  clearKvCache : Ctx → Ctx
  /-- A batch of a capacity takes as many tokens. -/
  decode : Ctx → List BatchEntry → Except Text Unit × Ctx
  embeddingsSeqIth : Ctx → Except EmbeddingsError (List Scalar)
  l2Normalize : List Scalar → List Scalar

def EMBED_MAX_TOKENS : Nat := 512

namespace Embedder

variable (E : Embedder)

/-- Every token of the text, with logits. -/
def embedEntries (tokens : List LlamaToken) : List BatchEntry :=
  tokens.mapIdx fun pos token => { token, pos, logits := true }

/-- One turn of the loop of `embed_pooled`: one text's vector. -/
def embedText (capacity : Nat) (normalize : Bool) (ctx : E.Ctx) (text : Text) :
    Except OneShotError (List E.Scalar × E.Ctx) :=
  match E.strToToken text with
  | .error source => .error (.session (.tokenize source))
  | .ok tokens =>
    -- without the texts before it in the cache
    match E.decode (E.clearKvCache ctx) (embedEntries (tokens.take capacity)) with
    | (.error source, _) => .error (.session (.decode source))
    | (.ok (), ctx) =>
      match E.embeddingsSeqIth ctx with
      | .error e => .error (.embeddings e)
      | .ok vector => .ok (if normalize then E.l2Normalize vector else vector, ctx)

def embedTexts (capacity : Nat) (normalize : Bool) :
    E.Ctx → List Text → Except OneShotError (List (List E.Scalar))
  | _, [] => .ok []
  | ctx, text :: texts =>
    match E.embedText capacity normalize ctx text with
    | .error e => .error e
    | .ok (vector, ctx) =>
      match embedTexts capacity normalize ctx texts with
      | .error e => .error e
      | .ok vectors => .ok (vector :: vectors)

def embedPooled (texts : List Text) (pooling : Pooling) (normalize : Bool) :
    Except OneShotError (List (List E.Scalar)) :=
  match E.newContext pooling.toLlama with
  | .error e => .error (.session e)
  | .ok ctx => E.embedTexts (max (min (E.nCtx ctx) EMBED_MAX_TOKENS) 1) normalize ctx texts

def embed (texts : List Text) (pooling : Pooling) (normalize : Bool) :
    Except OneShotError (List (List E.Scalar)) :=
  if texts.isEmpty then .ok []
  else
    match E.embedPooled texts pooling normalize with
    | .error (.embeddings .nonePoolType) =>
      -- the model declares no pooling of its own
      if pooling.isModel then E.embedPooled texts .mean normalize
      else .error (.embeddings .nonePoolType)
    | other => other

end Embedder

end Rampipe
