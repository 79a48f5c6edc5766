import Rampipe.Model.Registry
import Rampipe.Model.Session

/-!
# Rampipe — a connection and the client at its other end

`handle_connection` and `handle_conversation` of `bin/rampiped.rs`, the messages of
`protocol.rs` they read and write, and `RampipedConversation` of `client.rs`.

A connection is what passes over its socket: lines that are read and replies that
are written, in order. What its thread calls is a parameter (`Backend`), each call
of which succeeds or fails as it likes, or is one the thread does not get past: it
panics there, or waits for ever. The state that goes through the calls is all that is
outside the thread, the other threads included. Writes to the socket succeed.
Wall-clock times are left out of the replies.
-/

namespace Rampipe

open Text

/-! ## Messages -/

inductive GrammarCompletion
  | exactMatch (options : List Text)
  | validJson (prefill : Text)

/-- `into_predicate`. -/
def GrammarCompletion.intoPredicate (fromStr : Text → Option Json) :
    GrammarCompletion → Text → Bool
  | .exactMatch options, text => options.any (· == text)
  | .validJson prefill, text => (fromStr (prefill ++ text)).isSome

structure GenerateRequest where
  modelPath : Path
  prompt : Text
  maxNewTokens : Option Int
  sampling : Option Sampling
  grammar : Option Text
  assistantPrefill : Option Text
  grammarCompletion : Option GrammarCompletion

inductive Pooling
  | model
  | mean
  | cls
  | last

structure EmbedRequest where
  modelPath : Path
  texts : List Text
  pooling : Pooling
  normalize : Bool

/-- Where a saved conversation is. -/
structure SnapshotRef where
  statePath : Path
  metaPath : Path

structure OpenConversationRequest where
  modelPath : Path
  nCtx : Nat
  overflow : OverflowPolicy
  restoreFrom : Option SnapshotRef
  system : Option Text
  tools : List ToolSpec
  toolFormat : Option ToolFormat

structure ConversationTurnRequest where
  toolResults : Option (List Text)
  message : Text
  maxNewTokens : Option Int
  sampling : Option Sampling
  grammar : Option Text
  assistantPrefill : Option Text
  grammarCompletion : Option GrammarCompletion

/-- The first message on a connection. -/
inductive ClientMessage
  | generate (request : GenerateRequest)
  | openConversation (request : OpenConversationRequest)
  | status
  | embed (request : EmbedRequest)

/-- What follows on a connection with an open conversation. -/
inductive ConversationRequest
  | turn (turn : ConversationTurnRequest)
  | snapshot (snapshot : SnapshotRef)

inductive GenerateResponse
  | ok (text : Text) (tokensGenerated : Nat) (formattedPrompt : Text)
  | err (message : Text)

/-- How many tokens a response reports. -/
def GenerateResponse.tokensGenerated : GenerateResponse → Option Nat
  | .ok _ tokensGenerated _ => some tokensGenerated
  | .err _ => none

inductive EmbedResponse (Scalar : Type)
  | ok (vectors : List (List Scalar)) (nEmbd : Nat)
  | err (message : Text)

inductive ConversationResponse
  | opened
  | openedWithTools (supportsToolCalls : Bool)
  | turn (result : GenerationResult)
  | snapshotted
  | err (message : Text)

/-! ## What the thread calls -/

/-- A call that is `none` is the last thing the thread does: it panics, because a lock it
needs is poisoned for instance, or it never returns. -/
structure Backend where
  State : Type
  Session : Type
  Conv : Type
  Scalar : Type
  Status : Type
  -- serde_json
  decodeMessage : Text → Except Text ClientMessage
  decodeRequest : Text → Except Text ConversationRequest
  fromStr : Text → Option Json
  /-- A status is written unless a path in it is no UTF-8. -/
  writesStatus : Status → Bool
  -- model settings
  samplingFor : Path → Sampling
  maxNewTokensFor : Path → Option Int
  -- the shared state, behind its lock
  ensureLoaded : Path → State → Option (Except Text Session × State)
  recordOutcome : Path → Option Nat → State → Option State
  handleStatus : State → Option Status
  -- sessions and conversations
  generate : Session → Text → Option Text → Conversation.TurnOptions → State →
    Option (Except Text GenerationResult × State)
  embed : Session → List Text → Pooling → Bool → State →
    Option (Except Text (List (List Scalar)) × State)
  openConversation : Session → ConversationOptions → State → Option (Except Text Conv × State)
  openConversationFromState : Session → SnapshotRef → State → Option (Except Text Conv × State)
  supportsToolCalls : Conv → Bool
  call : Conv → Conversation.Request → State →
    Option (Except Text GenerationResult × Conv × State)
  saveState : Conv → SnapshotRef → State → Option (Except Text Unit × State)

/-- A reply, one line of the socket. -/
inductive Response (backend : Backend)
  | generate (response : GenerateResponse)
  | status (status : backend.Status)
  | embed (response : EmbedResponse backend.Scalar)
  | conversation (response : ConversationResponse)

/-- A line from the client; `read_line` fails on bytes that are no UTF-8. -/
inductive Line
  | text (text : Text)
  | malformed

/-- What passes over a socket. -/
inductive SocketEvent (backend : Backend)
  | received (line : Line)
  | sent (response : Response backend)

def DEFAULT_MAX_NEW_TOKENS : Int := 4096

namespace Backend

variable (backend : Backend)

/-! ## One-shot requests -/

def handleRequest (request : GenerateRequest) (state : backend.State) :
    Option (GenerateResponse × backend.State) :=
  match backend.ensureLoaded request.modelPath state with
  | none => none
  | some (.error message, state) => some (.err message, state)
  | some (.ok session, state) =>
    let options : Conversation.TurnOptions := {
      maxNewTokens := (request.maxNewTokens.or (backend.maxNewTokensFor request.modelPath)).getD
        DEFAULT_MAX_NEW_TOKENS
      sampling := request.sampling.getD (backend.samplingFor request.modelPath)
      grammar := request.grammar
      grammarComplete := request.grammarCompletion.map (·.intoPredicate backend.fromStr) }
    match backend.generate session request.prompt request.assistantPrefill options state with
    | none => none
    | some (.error message, state) => some
      (.err ("generating against ".toList ++ request.modelPath ++ ": ".toList ++ message), state)
    | some (.ok result, state) =>
      some (.ok result.text result.tokensGenerated result.formattedPrompt, state)

def handleEmbed (request : EmbedRequest) (state : backend.State) :
    Option (EmbedResponse backend.Scalar) :=
  match backend.ensureLoaded request.modelPath state with
  | none => none
  | some (.error message, _) => some (.err message)
  | some (.ok session, state) =>
    match backend.embed session request.texts request.pooling request.normalize state with
    | none => none
    | some (.error message, _) => some
      (.err ("embedding against ".toList ++ request.modelPath ++ ": ".toList ++ message))
    | some (.ok vectors, _) => some (.ok vectors ((vectors.head?.map List.length).getD 0))

/-! ## Conversations -/

/-- `n_ctx` is not in it when it is zero: the handler leaves before. -/
def options (request : OpenConversationRequest) : ConversationOptions where
  nCtx := request.nCtx
  overflow := request.overflow
  system := request.system
  tools := request.tools
  toolFormat := request.toolFormat

/-- The reply to an open that succeeded. -/
def openReply (tools : List ToolSpec) (supportsToolCalls : Bool) : ConversationResponse :=
  if tools.isEmpty then .opened else .openedWithTools supportsToolCalls

def runConversationTurn (conversation : backend.Conv) (turn : ConversationTurnRequest)
    (configured : Sampling) (configuredTokens : Option Int) (state : backend.State) :
    Option (ConversationResponse × backend.Conv × backend.State) :=
  let options : Conversation.TurnOptions := {
    maxNewTokens := (turn.maxNewTokens.or configuredTokens).getD DEFAULT_MAX_NEW_TOKENS
    sampling := turn.sampling.getD configured
    grammar := turn.grammar
    grammarComplete := turn.grammarCompletion.map (·.intoPredicate backend.fromStr) }
  -- a result turn and a message turn differ only in the call
  let request : Conversation.Request :=
    match turn.toolResults with
    | some results => .toolResults results options
    | none => .send turn.message turn.assistantPrefill options
  match backend.call conversation request state with
  | none => none
  | some (.ok result, conversation, state) => some (.turn result, conversation, state)
  | some (.error message, conversation, state) => some (.err message, conversation, state)

/-- How many tokens a reply reports. -/
def tokensGenerated : ConversationResponse → Option Nat
  | .turn result => some result.tokensGenerated
  | _ => none

/-- The loop of `handle_conversation`. -/
def converse (request : OpenConversationRequest) (conversation : backend.Conv)
    (state : backend.State) : List Line → List (SocketEvent backend)
  -- the client dropped the connection
  | [] => []
  | .malformed :: _ => [.received .malformed]
  | .text line :: lines =>
    .received (.text line) ::
      match backend.decodeRequest (trim line) with
      | .ok (.turn turn) =>
        match backend.runConversationTurn conversation turn (backend.samplingFor request.modelPath)
          (backend.maxNewTokensFor request.modelPath) state with
        | none => []
        | some (response, conversation, state) =>
          -- recorded before the reply is written
          match backend.recordOutcome request.modelPath (tokensGenerated response) state with
          | none => []
          | some state =>
            .sent (.conversation response) :: converse request conversation state lines
      | .ok (.snapshot snapshot) =>
        match backend.saveState conversation snapshot state with
        | none => []
        | some (.ok (), _) => [.sent (.conversation .snapshotted)]
        -- a conversation that could not be saved stays open
        | some (.error message, state) =>
          .sent (.conversation (.err message)) ::
            converse request conversation state lines
      | .error error =>
        .sent (.conversation (.err ("decoding conversation request: ".toList ++ error))) ::
          converse request conversation state lines

/-- The reply to an open that was tried, and what follows it. -/
def answerOpen (request : OpenConversationRequest) (lines : List Line) :
    Option (Except Text backend.Conv × backend.State) → List (SocketEvent backend)
  | none => []
  | some (.error message, _) => [.sent (.conversation (.err message))]
  | some (.ok conversation, state) =>
    .sent (.conversation (openReply request.tools (backend.supportsToolCalls conversation))) ::
      backend.converse request conversation state lines

/-- What `handle_conversation` reads and writes behind the line of the request. -/
def handleConversation (request : OpenConversationRequest) (state : backend.State)
    (lines : List Line) : List (SocketEvent backend) :=
  match backend.ensureLoaded request.modelPath state with
  | none => []
  | some (.error message, _) => [.sent (.conversation (.err message))]
  | some (.ok session, state) =>
    match request.restoreFrom with
    | some snapshot =>
      backend.answerOpen request lines (backend.openConversationFromState session snapshot state)
    | none =>
      -- `NonZeroU32::new(request.n_ctx).context("n_ctx must be nonzero")?`
      if request.nCtx = 0 then []
      else
        backend.answerOpen request lines
          (backend.openConversation session (options request) state)

/-! ## Connections -/

def handleConnection (state : backend.State) : List Line → List (SocketEvent backend)
  | [] => []
  | .malformed :: _ => [.received .malformed]
  | .text line :: lines =>
    .received (.text line) ::
      match backend.decodeMessage (trim line) with
      | .error _ => []
      | .ok (.generate request) =>
        match backend.handleRequest request state with
        | none => []
        | some (response, state) =>
          match backend.recordOutcome request.modelPath response.tokensGenerated state with
          | none => []
          | some _ => [.sent (.generate response)]
      | .ok (.openConversation request) => backend.handleConversation request state lines
      | .ok .status =>
        match backend.handleStatus state with
        | none => []
        | some status => if backend.writesStatus status then [.sent (.status status)] else []
      | .ok (.embed request) =>
        match backend.handleEmbed request state with
        | none => []
        | some response => [.sent (.embed response)]

end Backend

/-! ## The open, on a session -/

/-- The open that `handle_conversation` tries on a session, with the snapshots on disk;
nothing where it does not come to one: a context size of zero, or a sidecar that cannot
be read. -/
def LlamaSession.openRequested (session : LlamaSession) (L : Llama)
    (files : SnapshotRef → Option (Snapshot L)) (request : OpenConversationRequest) :
    Option (Outcome (Conversation L)) :=
  match request.restoreFrom with
  | some snapshot => (files snapshot).map session.openConversationFromState
  | none =>
    if request.nCtx = 0 then none
    else some (session.openConversation L (Backend.options request))

/-! ## The client -/

/-- What a call of the client fails with once its request is on the way. A closed
connection reads as an empty line, which does not decode. -/
inductive RampipedError
  | decode
  | remote (message : Text)

structure RampipedConversation where
  supportsToolCalls : Bool
  turns : Nat

namespace RampipedConversation

/-- What `open` makes of the reply; `none` is a closed connection. -/
def open_ : Option ConversationResponse → Except RampipedError RampipedConversation
  | none => .error .decode
  | some .opened => .ok { supportsToolCalls := false, turns := 0 }
  | some (.openedWithTools supportsToolCalls) => .ok { supportsToolCalls, turns := 0 }
  | some (.err message) => .error (.remote message)
  | some _ => .error (.remote
      "rampiped sent an unexpected response before the conversation was opened".toList)

/-- What `exchange` makes of the reply to a turn. -/
def exchange (conversation : RampipedConversation) :
    Option ConversationResponse → Except RampipedError GenerationResult × RampipedConversation
  | none => (.error .decode, conversation)
  | some (.turn result) => (.ok result, { conversation with turns := conversation.turns + 1 })
  | some (.err message) => (.error (.remote message), conversation)
  | some _ => (.error (.remote
      "rampiped sent an unexpected response to a conversation turn".toList), conversation)

/-- What `snapshot` makes of the reply. -/
def snapshot : Option ConversationResponse → Except RampipedError Unit
  | none => .error .decode
  | some .snapshotted => .ok ()
  | some (.err message) => .error (.remote message)
  | some _ => .error (.remote
      "rampiped sent an unexpected response to a snapshot request".toList)

end RampipedConversation

end Rampipe
