import Rampipe.Model.OneShot
import Rampipe.Model.Settings
import Rampipe.Model.Wire

/-!
# Rampipe — a conversation from either end

`ConversationHandle` of `conversation.rs` is the seam that a caller drives a conversation
through. It has two implementations: the `Conversation` of `llama.rs`, in process, and the
`RampipedConversation` of `client.rs`, whose calls are lines on a socket with a daemon at
its other end.

`Host` is what either needs beside the model: files, serde_json, the model settings, and
the store behind the daemon's lock, which the other threads give back. `Host.backend` is
the daemon's thread on it, which is `Backend` with every call filled in: a call of the model
that panics, or that never comes back, is one the thread does not get past.
-/

namespace Rampipe

open Text Conversation

/-! ## Errors -/

/-- The `LlamaSessionError`s of a snapshot: those of a session, and those of its files. -/
inductive SnapshotError
  | session (e : LlamaSessionError)
  | snapshotMeta (source : Text)
  | snapshotIo (source : Text)
  deriving DecidableEq

/-- An unsigned integer, as it is displayed. -/
def displayNat (n : Nat) : Text := Nat.toDigits 10 n

def displayInt (n : Int) : Text := Wire.toInteger n

def LlamaSessionError.display : LlamaSessionError → Text
  | .contextLoad source => "llama.cpp context error: ".toList ++ source
  | .contextAllocation nCtx freeMib totalMib source =>
    "could not allocate a ".toList ++ displayNat nCtx ++ "-token context: ".toList ++ source ++
      " -- ".toList ++ displayNat freeMib ++ " MiB free of ".toList ++ displayNat totalMib ++
      (" MiB on the device (llama.cpp reports an exhausted device as a null " ++
        "pointer, so this is usually what out-of-memory looks like)").toList
  | .decode source => "llama.cpp decode error: ".toList ++ source
  | .tokenize source => "tokenize error: ".toList ++ source
  | .detokenize source => "detokenize error: ".toList ++ source
  | .batch source => "batch error: ".toList ++ source
  | .kvCache source => "kv cache operation failed: ".toList ++ source
  | .conversationTemplateUnavailable =>
    ("model has no chat template this crate can safely reuse turn-by-turn (either no " ++
      "template at all, or its rendering isn't provably steady-state per turn) -- " ++
      "open_conversation needs one; one-shot generate() doesn't").toList
  | .conversationContextFull committedPos needed nCtx =>
    "conversation turn (".toList ++ displayInt needed ++
      " new tokens) doesn't fit even after dropping every droppable turn: committed=".toList ++
      displayInt committedPos ++ ", n_ctx=".toList ++ displayInt nCtx
  | .conversationTooLargeToTrim =>
    "conversation overflowed its context window but has fewer than 2 turns left to drop".toList
  | .grammar source => "grammar error: ".toList ++ source
  | .saveState source => "saving conversation state: ".toList ++ source
  | .loadState source => "loading conversation state: ".toList ++ source
  | .snapshotModelMismatch saved current =>
    "saved conversation snapshot is for model ".toList ++ saved ++
      ", but this session is ".toList ++ current

def SnapshotError.display : SnapshotError → Text
  | .session e => e.display
  | .snapshotMeta source => "conversation snapshot metadata (de)serialization: ".toList ++ source
  | .snapshotIo source => "conversation snapshot file I/O: ".toList ++ source

/-- `source` is what serde_json said of the line. -/
def RampipedError.display (source : Text) : RampipedError → Text
  | .decode => "decoding response from rampiped: ".toList ++ source
  | .remote message => "rampiped reported an error: ".toList ++ message

/-- What a caller of the seam gets, whichever implementation it holds. -/
inductive ConversationError
  | backend (message : Text)
  | llama (e : SnapshotError)

def ConversationError.display : ConversationError → Text
  | .backend message => "conversation backend error: ".toList ++ message
  | .llama e => e.display

/-! ## A host -/

/-- What reading a sidecar's file comes to. -/
inductive SidecarRead
  | text (text : Text)
  /-- Bytes that are no UTF-8, and what serde_json says of them. -/
  | malformed (error : Text)
  | failed (source : Text)

/-- A host of one model. A disk is what the files are from now on, whoever writes them. -/
structure Host (L : Llama) where
  serde : Serde
  settings : ModelSettings
  prompting : Prompting L
  embedder : Embedder
  /-- What anyhow prints of an error, its sources behind it. -/
  report : OneShotError → Text
  -- the shared state of the daemon
  Store : Type
  Status : Type
  ensureLoaded : Path → Store → Except Text LlamaSession × Store
  recordOutcome : Path → Option Nat → Store → Store
  handleStatus : Store → Status
  writesStatus : Status → Bool
  -- files
  Disk : Type
  writeState : Path → L.StateFile → Disk → Except Text Unit × Disk
  readState : Path → Disk → Except Text L.StateFile
  write : Path → Text → Disk → Except Text Unit × Disk
  readSidecar : Path → Disk → SidecarRead

variable {L : Llama}

/-- The sidecar that `save_state` writes. -/
def Conversation.sidecar (c : Conversation L) : ConversationSnapshotMeta where
  modelPath := c.handlePath
  nCtx := c.nCtx
  overflow := c.overflow
  turns := c.turns
  tools := c.tools
  toolFormat := c.configuredToolFormat

/-- The open from a state file that cannot be read, which is not found out before the
context and the template are there. -/
def LlamaSession.openWithoutState (session : LlamaSession) (L : Llama)
    (sidecar : ConversationSnapshotMeta) (source : Text) : Outcome (Conversation L) :=
  if sidecar.modelPath ≠ session.path then
    .err (.snapshotModelMismatch sidecar.modelPath session.path)
  else
    let asked := asU32 sidecar.nCtx
    match newContextReporting L
        { nCtx := nonZeroU32 asked, defragThold := CONVERSATION_DEFRAG_THOLD } asked with
    | .error e => .err e
    | .ok _ =>
      match LlamaSession.conversationTemplate L with
      | .err e => .err e
      | .panicked => .panicked
      | .hangs => .hangs
      | .ok _ => .err (.loadState source)

/-- What a call came to, as the daemon replies to it; there is no reply to one that panics
or hangs. -/
def Outcome.reply {α : Type} : Outcome α → Option (Except Text α)
  | .ok value => some (.ok value)
  | .err e => some (.error e.display)
  | .panicked => none
  | .hangs => none

namespace Host

variable (host : Host L)

/-! ### Files -/

def sidecarText (sidecar : ConversationSnapshotMeta) : Text :=
  host.serde.toTextPretty ((Wire.object Wire.conversationSnapshotMeta).encode sidecar)

/-- `Conversation::save_state`: the state file, then its sidecar. -/
def saveState (c : Conversation L) (snapshot : SnapshotRef) (disk : host.Disk) :
    Except SnapshotError Unit × host.Disk :=
  match L.stateSaveFile c.ctx c.tokens with
  | .error source => (.error (.session (.saveState source)), disk)
  | .ok state =>
    match host.writeState snapshot.statePath state disk with
    | (.error source, disk) => (.error (.session (.saveState source)), disk)
    | (.ok (), disk) =>
      match host.write snapshot.metaPath (host.sidecarText c.sidecar) disk with
      | (.error source, disk) => (.error (.snapshotIo source), disk)
      | (.ok (), disk) => (.ok (), disk)

/-- `LlamaSession::open_conversation_from_state`: the sidecar, then the state file. -/
def openConversationFromState (session : LlamaSession) (snapshot : SnapshotRef)
    (disk : host.Disk) : Except SnapshotError (Outcome (Conversation L)) :=
  match host.readSidecar snapshot.metaPath disk with
  | .failed source => .error (.snapshotIo source)
  | .malformed error => .error (.snapshotMeta error)
  | .text text =>
    match host.serde.fromStr (Wire.object Wire.conversationSnapshotMeta) text with
    | .error error => .error (.snapshotMeta error)
    | .ok sidecar =>
      match host.readState snapshot.statePath disk with
      | .error source => .ok (session.openWithoutState L sidecar source)
      | .ok state => .ok (session.openConversationFromState { state, sidecar })

/-- The open that a request stands for, in process. -/
def openInProcess (session : LlamaSession) (request : OpenConversationRequest)
    (disk : host.Disk) : Except SnapshotError (Outcome (Conversation L)) :=
  match request.restoreFrom with
  | some snapshot => host.openConversationFromState session snapshot disk
  | none => .ok (session.openConversation L (Backend.options request))

/-! ### The daemon -/

/-- A connection's thread of the daemon. `rampiped` sets no chat wrap. -/
abbrev backend : Backend where
  State := host.Store × host.Disk
  Session := LlamaSession
  Conv := Conversation L
  Scalar := host.embedder.Scalar
  Status := host.Status
  decodeMessage := host.serde.fromStr (Wire.clientMessage host.serde.floats)
  decodeRequest := host.serde.fromStr (Wire.conversationRequest host.serde.floats)
  fromStr := L.fromStr
  writesStatus := host.writesStatus
  samplingFor := host.settings.samplingFor
  maxNewTokensFor := host.settings.maxNewTokensFor
  ensureLoaded path state :=
    let (loaded, store) := host.ensureLoaded path state.1
    some (loaded, (store, state.2))
  recordOutcome path tokensGenerated state :=
    some (host.recordOutcome path tokensGenerated state.1, state.2)
  handleStatus state := some (host.handleStatus state.1)
  generate _ prompt assistantPrefill options state :=
    match LlamaSession.generate host.prompting none prompt assistantPrefill options with
    | .error e => some (.error (host.report e), state)
    | .ok result => some (.ok result, state)
  embed _ texts pooling normalize state :=
    match host.embedder.embed texts pooling normalize with
    | .error e => some (.error (host.report e), state)
    | .ok vectors => some (.ok vectors, state)
  openConversation session options state :=
    (session.openConversation L options).reply.map fun opened => (opened, state)
  openConversationFromState session snapshot state :=
    match host.openConversationFromState session snapshot state.2 with
    | .error e => some (.error e.display, state)
    | .ok opened => opened.reply.map fun opened => (opened, state)
  supportsToolCalls := Conversation.supportsToolCalls
  call c request state :=
    (c.call request).1.reply.map fun result => (result, (c.call request).2, state)
  saveState c snapshot state :=
    match host.saveState c snapshot state.2 with
    | (.error e, disk) => some (.error e.display, (state.1, disk))
    | (.ok (), disk) => some (.ok (), (state.1, disk))

end Host

/-! ### A host of many models -/

/-- A host of any number of models. A session answers with its own: what llama.cpp does on it,
its template, its embedder. What the sessions share is what there is one of in the daemon. -/
structure Fleet where
  serde : Serde
  fromStr : Text → Option Json
  settings : ModelSettings
  report : OneShotError → Text
  -- the models
  llama : LlamaSession → Llama
  fromStr_eq : ∀ session, (llama session).fromStr = fromStr
  prompting : ∀ session, Prompting (llama session)
  embedder : LlamaSession → Embedder
  /-- The number that serde_json writes for a scalar. -/
  value : ∀ session, (embedder session).Scalar → ℚ
  -- the shared state of the daemon
  Store : Type
  Status : Type
  ensureLoaded : Path → Store → Except Text LlamaSession × Store
  recordOutcome : Path → Option Nat → Store → Store
  handleStatus : Store → Status
  writesStatus : Status → Bool
  -- files
  Disk : Type
  writeState : ∀ session, Path → (llama session).StateFile → Disk → Except Text Unit × Disk
  readState : ∀ session, Path → Disk → Except Text (llama session).StateFile
  write : Path → Text → Disk → Except Text Unit × Disk
  readSidecar : Path → Disk → SidecarRead

namespace Fleet

variable (fleet : Fleet)

/-- A session of the fleet's, on a host of its model alone. -/
abbrev host (session : LlamaSession) : Host (fleet.llama session) where
  serde := fleet.serde
  settings := fleet.settings
  prompting := fleet.prompting session
  embedder := fleet.embedder session
  report := fleet.report
  Store := fleet.Store
  Status := fleet.Status
  ensureLoaded := fleet.ensureLoaded
  recordOutcome := fleet.recordOutcome
  handleStatus := fleet.handleStatus
  writesStatus := fleet.writesStatus
  Disk := fleet.Disk
  writeState := fleet.writeState session
  readState := fleet.readState session
  write := fleet.write
  readSidecar := fleet.readSidecar

/-- A connection's thread, which does on a session what a host of its model does. -/
abbrev backend : Backend where
  State := fleet.Store × fleet.Disk
  Session := LlamaSession
  Conv := (session : LlamaSession) × Conversation (fleet.llama session)
  Scalar := ℚ
  Status := fleet.Status
  decodeMessage := fleet.serde.fromStr (Wire.clientMessage fleet.serde.floats)
  decodeRequest := fleet.serde.fromStr (Wire.conversationRequest fleet.serde.floats)
  fromStr := fleet.fromStr
  writesStatus := fleet.writesStatus
  samplingFor := fleet.settings.samplingFor
  maxNewTokensFor := fleet.settings.maxNewTokensFor
  ensureLoaded path state :=
    let (loaded, store) := fleet.ensureLoaded path state.1
    some (loaded, (store, state.2))
  recordOutcome path tokensGenerated state :=
    some (fleet.recordOutcome path tokensGenerated state.1, state.2)
  handleStatus state := some (fleet.handleStatus state.1)
  generate session := (fleet.host session).backend.generate session
  embed session texts pooling normalize state :=
    ((fleet.host session).backend.embed session texts pooling normalize state).map
      fun (embedded, state) => (embedded.map (·.map (·.map (fleet.value session))), state)
  openConversation session options state :=
    ((fleet.host session).backend.openConversation session options state).map
      fun (opened, state) => (opened.map (Sigma.mk session), state)
  openConversationFromState session snapshot state :=
    ((fleet.host session).backend.openConversationFromState session snapshot state).map
      fun (opened, state) => (opened.map (Sigma.mk session), state)
  supportsToolCalls c := c.2.supportsToolCalls
  call c request state :=
    ((fleet.host c.1).backend.call c.2 request state).map
      fun (result, conversation, state) => (result, ⟨c.1, conversation⟩, state)
  saveState c := (fleet.host c.1).backend.saveState c.2

end Fleet

/-! ## Calls -/

/-- A call through the seam. -/
inductive HandleCall
  | send (message : Text) (maxNewTokens : Int) (sampling : Sampling) (grammar : Option Text)
    (assistantPrefill : Option Text) (grammarCompletion : Option GrammarCompletion)
  | sendToolResults (results : List Text) (maxNewTokens : Int) (sampling : Sampling)
    (grammar : Option Text) (grammarCompletion : Option GrammarCompletion)
  | snapshot (files : SnapshotRef)

/-- A call on a `RampipedConversation`, which may leave to the daemon what its model is
configured for. -/
inductive ClientCall
  | send (message : Text) (maxNewTokens : Option Int) (sampling : Option Sampling)
    (grammar : Option Text) (assistantPrefill : Option Text)
    (grammarCompletion : Option GrammarCompletion)
  | sendToolResults (results : List Text) (maxNewTokens : Option Int)
    (sampling : Option Sampling) (grammar : Option Text)
    (grammarCompletion : Option GrammarCompletion)
  | snapshot (files : SnapshotRef)

/-- What a call that succeeded gives. -/
inductive HandleReply
  | turn (result : GenerationResult)
  | snapshotted

/-! ### In process -/

def HandleCall.turnOptions (fromStr : Text → Option Json) (maxNewTokens : Int)
    (sampling : Sampling) (grammar : Option Text) (grammarCompletion : Option GrammarCompletion) :
    TurnOptions where
  maxNewTokens := maxNewTokens
  sampling := sampling
  grammar := grammar
  grammarComplete := grammarCompletion.map (·.intoPredicate fromStr)

namespace Host

variable (host : Host L)

/-- A turn in process; nothing comes back of one that panics or hangs. -/
def takeTurn (c : Conversation L) (disk : host.Disk) (request : Conversation.Request) :
    Option (Except ConversationError HandleReply × Conversation L × host.Disk) :=
  match c.call request with
  | (.ok result, c) => some (.ok (.turn result), c, disk)
  | (.err e, c) => some (.error (.llama (.session e)), c, disk)
  | (.panicked, _) => none
  | (.hangs, _) => none

/-- `ConversationHandle for Conversation`. -/
def handle (c : Conversation L) (disk : host.Disk) :
    HandleCall → Option (Except ConversationError HandleReply × Conversation L × host.Disk)
  | .send message maxNewTokens sampling grammar assistantPrefill grammarCompletion =>
    host.takeTurn c disk (.send message assistantPrefill
      (HandleCall.turnOptions L.fromStr maxNewTokens sampling grammar grammarCompletion))
  | .sendToolResults results maxNewTokens sampling grammar grammarCompletion =>
    host.takeTurn c disk (.toolResults results
      (HandleCall.turnOptions L.fromStr maxNewTokens sampling grammar grammarCompletion))
  | .snapshot snapshot =>
    match host.saveState c snapshot disk with
    | (.error e, disk) => some (.error (.llama e), c, disk)
    | (.ok (), disk) => some (.ok .snapshotted, c, disk)

end Host

/-! ### Over the wire -/

/-- The line a client writes. -/
def ClientCall.request : ClientCall → ConversationRequest
  | .send message maxNewTokens sampling grammar assistantPrefill grammarCompletion =>
    .turn {
      toolResults := none
      message
      maxNewTokens
      sampling
      grammar
      assistantPrefill
      grammarCompletion }
  | .sendToolResults results maxNewTokens sampling grammar grammarCompletion =>
    .turn {
      toolResults := some results
      -- ignored by the daemon
      message := []
      maxNewTokens
      sampling
      grammar
      assistantPrefill := none
      grammarCompletion }
  | .snapshot files => .snapshot files

/-- The call that `ConversationHandle for RampipedConversation` makes of one. -/
def HandleCall.overWire : HandleCall → ClientCall
  | .send message maxNewTokens sampling grammar assistantPrefill grammarCompletion =>
    .send message (some maxNewTokens) (some sampling) grammar assistantPrefill grammarCompletion
  | .sendToolResults results maxNewTokens sampling grammar grammarCompletion =>
    .sendToolResults results (some maxNewTokens) (some sampling) grammar grammarCompletion
  | .snapshot files => .snapshot files

/-- A reply without its time. -/
def TimedConversationResponse.untimed : TimedConversationResponse → ConversationResponse
  | .opened => .opened
  | .openedWithTools supportsToolCalls => .openedWithTools supportsToolCalls
  | .turn outcome => .turn outcome.toGenerationResult
  | .snapshotted => .snapshotted
  | .err message => .err message

namespace RampipedConversation

/-- A line of the socket, read as a reply. A closed connection reads as an empty line. -/
def receive (serde : Serde) (line : Option Text) : Except Text ConversationResponse :=
  (serde.ofLine Wire.conversationResponse (line.getD [])).map (·.untimed)

/-- What a call makes of the reply. -/
def answer (conversation : RampipedConversation) (call : ClientCall)
    (reply : Option ConversationResponse) : Except RampipedError HandleReply × RampipedConversation :=
  match call with
  | .snapshot _ => ((snapshot reply).map fun () => .snapshotted, conversation)
  | _ =>
    let (result, conversation) := conversation.exchange reply
    (result.map .turn, conversation)

/-- A call and the line that comes back for it, as the trait reports its error. -/
def handle (serde : Serde) (conversation : RampipedConversation) (call : ClientCall)
    (line : Option Text) : Except ConversationError HandleReply × RampipedConversation :=
  match receive serde line with
  | .ok reply =>
    let (result, conversation) := conversation.answer call (some reply)
    (result.mapError fun e => .backend (e.display []), conversation)
  | .error source =>
    let (result, conversation) := conversation.answer call none
    (result.mapError fun e => .backend (e.display source), conversation)

/-- Calls, one after the other, each with the next line that comes back. -/
def run (serde : Serde) : RampipedConversation → List ClientCall → List Text →
    List (Except ConversationError HandleReply) × RampipedConversation
  | conversation, [], _ => ([], conversation)
  | conversation, call :: calls, lines =>
    let (result, conversation) := conversation.handle serde call lines.head?
    let (results, conversation) := run serde conversation calls lines.tail
    (result :: results, conversation)

end RampipedConversation

/-! ### One-shot calls over the wire -/

/-- A call of `RampipedClient`, which has a connection to itself. -/
inductive OneShotCall
  | generate (request : GenerateRequest)
  | embed (request : EmbedRequest)

def OneShotCall.message : OneShotCall → ClientMessage
  | .generate request => .generate request
  | .embed request => .embed request

/-- What a client gets of an embedding. -/
structure EmbedOutcome where
  vectors : List (List ℚ)
  nEmbd : Nat

inductive OneShotReply
  | generated (outcome : GenerateOutcome)
  | embedded (outcome : EmbedOutcome)

namespace RampipedClient

/-- What `generate` makes of the line that comes back. There is no conversation whose context
could be reported, and no tools were offered. -/
def generate (serde : Serde) (line : Option Text) : Except RampipedError GenerateOutcome :=
  match serde.ofLine Wire.generateResponse (line.getD []) with
  | .error _ => .error .decode
  | .ok (.ok text tokensGenerated timeToFirstTokenMs formattedPrompt) => .ok {
      text
      tokensGenerated
      committedTokens := 0
      contextSize := 0
      timeToFirstTokenMs
      formattedPrompt
      toolCalls := []
      truncatedToolCall := false }
  | .ok (.err message) => .error (.remote message)

/-- What `embed` makes of it. -/
def embed (serde : Serde) (line : Option Text) : Except RampipedError EmbedOutcome :=
  match serde.ofLine (Wire.embedResponse serde.floats) (line.getD []) with
  | .error _ => .error .decode
  | .ok (.ok vectors nEmbd) => .ok { vectors, nEmbd }
  | .ok (.err message) => .error (.remote message)

def receive (serde : Serde) (line : Option Text) :
    OneShotCall → Except RampipedError OneShotReply
  | .generate _ => (generate serde line).map .generated
  | .embed _ => (embed serde line).map .embedded

end RampipedClient

end Rampipe
