import Rampipe.Results.Remote

/-!
# Rampipe — a request and a reply

A one-shot call opens a connection, writes one line, and reads one. On a host of any number
of models, what the call returns is what the session of its path returns in process, but for
how an error is introduced; or why that could not be loaded.

* `handleRequest_outcome`, `handleEmbed_outcome` — the daemon's side of the connection.
* `oneShot_transparent` — the whole of it, for a generation and for a batch of texts.
-/

namespace Rampipe

open Doc Text Conversation

/-- What a client makes of the response to a generation. -/
def GenerateResponse.outcome (ms : Nat) : GenerateResponse → Except RampipedError OneShotReply
  | .ok text tokensGenerated formattedPrompt => .ok (.generated {
      text
      tokensGenerated
      committedTokens := 0
      contextSize := 0
      timeToFirstTokenMs := ms
      formattedPrompt
      toolCalls := []
      truncatedToolCall := false })
  | .err message => .error (.remote message)

/-- And of the one to an embedding. -/
def EmbedResponse.outcome : EmbedResponse ℚ → Except RampipedError OneShotReply
  | .ok vectors nEmbd => .ok (.embedded { vectors, nEmbd })
  | .err message => .error (.remote message)

def OneShotCall.modelPath : OneShotCall → Path
  | .generate request => request.modelPath
  | .embed request => request.modelPath

namespace Serde

variable {serde : Serde} {α : Type} {c : Codec Json α} {a : α}

/-- What is written for one message is one line. -/
theorem lines_payload (hReads : serde.Reads (c.encode a)) :
    lines '\n' (serde.payload c a) = [serde.payload c a] := by
  have hOne : lines '\n' ([a].flatMap (serde.payload c)) = [a].map (serde.payload c) :=
    lines_payloads (by simpa using hReads)
  simpa using hOne

end Serde

namespace Host

/-! ## In process -/

variable {L : Llama}

/-- `generate` on a session, with what the request leaves out as the model is configured. -/
def generate (host : Host L) (request : GenerateRequest) : Except OneShotError GenerationResult :=
  LlamaSession.generate host.prompting none request.prompt request.assistantPrefill
    (HandleCall.turnOptions L.fromStr
      ((request.maxNewTokens.or (host.settings.maxNewTokensFor request.modelPath)).getD
        DEFAULT_MAX_NEW_TOKENS)
      (request.sampling.getD (host.settings.samplingFor request.modelPath)) request.grammar
      request.grammarCompletion)

/-- What a call on a session comes to, with the error that a daemon would report. -/
def oneShot (host : Host L) (ms : Nat) (value : host.embedder.Scalar → ℚ) :
    OneShotCall → Except Text OneShotReply
  | .generate request =>
    match host.generate request with
    | .error e =>
      .error ("generating against ".toList ++ request.modelPath ++ ": ".toList ++ host.report e)
    | .ok result => .ok (.generated {
        text := result.text
        tokensGenerated := result.tokensGenerated
        committedTokens := 0
        contextSize := 0
        timeToFirstTokenMs := ms
        formattedPrompt := result.formattedPrompt
        toolCalls := []
        truncatedToolCall := false })
  | .embed request =>
    match host.embedder.embed request.texts request.pooling request.normalize with
    | .error e =>
      .error ("embedding against ".toList ++ request.modelPath ++ ": ".toList ++ host.report e)
    | .ok vectors => .ok (.embedded {
        vectors := vectors.map (·.map value)
        nEmbd := (vectors.head?.map List.length).getD 0 })

end Host

namespace Fleet

/-! ## Over the wire -/

/-- The reply to a one-shot call, as it is written. -/
def oneShotText (fleet : Fleet) (ms : Nat) : SocketEvent fleet.backend → Option Text
  | .sent (.generate response) =>
    some (fleet.serde.payload Wire.generateResponse (response.timed ms))
  | .sent (.embed response) =>
    some (fleet.serde.payload (Wire.embedResponse fleet.serde.floats) response)
  | _ => none

/-- The stream of the client is one line. -/
def oneShotStream (fleet : Fleet) (call : OneShotCall) : Text :=
  fleet.serde.payload (Wire.clientMessage fleet.serde.floats) call.message

/-- What passes over the connection. -/
def oneShotTrace (fleet : Fleet) (state : fleet.backend.State) (call : OneShotCall) :
    List (SocketEvent fleet.backend) :=
  fleet.backend.handleConnection state ((lines '\n' (fleet.oneShotStream call)).map .text)

/-- The line that comes back. -/
def oneShotLine (fleet : Fleet) (ms : Nat) (state : fleet.backend.State) (call : OneShotCall) :
    Option Text :=
  (lines '\n' ((fleet.oneShotTrace state call).filterMap (fleet.oneShotText ms)).flatten).head?

/-- The response can be sent. -/
def SendsBack (fleet : Fleet) (ms : Nat) (state : fleet.backend.State) : OneShotCall → Prop
  | .generate request => ∀ response state',
      fleet.backend.handleRequest request state = some (response, state') →
        fleet.serde.Sendable Wire.generateResponse (response.timed ms)
  | .embed request => ∀ response, fleet.backend.handleEmbed request state = some response →
      fleet.serde.Sendable (Wire.embedResponse fleet.serde.floats) response

variable {fleet : Fleet} {ms : Nat}

/-- The daemon reads the client's line. -/
theorem decodeMessage_oneShotStream (call : OneShotCall)
    (hSent : fleet.serde.Sendable (Wire.clientMessage fleet.serde.floats) call.message) :
    fleet.backend.decodeMessage (trim (fleet.oneShotStream call)) = .ok call.message :=
  Serde.ofLine_payload hSent.1 hSent.2

/-- The daemon reads one line. -/
theorem oneShotTrace_read (state : fleet.backend.State) (call : OneShotCall)
    (hSent : fleet.serde.Sendable (Wire.clientMessage fleet.serde.floats) call.message) :
    fleet.oneShotTrace state call =
      fleet.backend.handleConnection state [.text (fleet.oneShotStream call)] := by
  unfold oneShotTrace
  rw [oneShotStream, Serde.lines_payload hSent.2, List.map_singleton]

/-- It answers a generation once that is recorded. -/
theorem oneShotTrace_generate {request : GenerateRequest} {state state' : fleet.backend.State}
    {response : GenerateResponse}
    (hSent : fleet.serde.Sendable (Wire.clientMessage fleet.serde.floats) (.generate request))
    (hRespond : fleet.backend.handleRequest request state = some (response, state')) :
    fleet.oneShotTrace state (.generate request) =
      [.received (.text (fleet.oneShotStream (.generate request))), .sent (.generate response)] := by
  rw [oneShotTrace_read state (.generate request) hSent, Backend.handleConnection,
    decodeMessage_oneShotStream (.generate request) hSent]
  dsimp only [OneShotCall.message]
  rw [hRespond]

/-- And a batch of texts as it is. -/
theorem oneShotTrace_embed {request : EmbedRequest} {state : fleet.backend.State}
    {response : EmbedResponse ℚ}
    (hSent : fleet.serde.Sendable (Wire.clientMessage fleet.serde.floats) (.embed request))
    (hRespond : fleet.backend.handleEmbed request state = some response) :
    fleet.oneShotTrace state (.embed request) =
      [.received (.text (fleet.oneShotStream (.embed request))), .sent (.embed response)] := by
  rw [oneShotTrace_read state (.embed request) hSent, Backend.handleConnection,
    decodeMessage_oneShotStream (.embed request) hSent]
  dsimp only [OneShotCall.message]
  rw [hRespond]

/-- One line is all that comes back. -/
theorem oneShotLine_respond {call : OneShotCall} {state : fleet.backend.State} {line : Line}
    {response : Response fleet.backend} {text : Text}
    (hTrace : fleet.oneShotTrace state call = [.received line, .sent response])
    (hText : fleet.oneShotText ms (.sent response) = some text) (hLine : lines '\n' text = [text]) :
    fleet.oneShotLine ms state call = some text := by
  unfold oneShotLine
  rw [hTrace, List.filterMap_cons_none rfl, List.filterMap_cons_some hText, List.filterMap_nil,
    List.flatten_singleton, hLine, List.head?_cons]

/-- The daemon loads as its host does. -/
theorem ensureLoaded_backend {path : Path} {store store' : fleet.Store} {disk : fleet.Disk}
    {loaded : Except Text LlamaSession} (h : fleet.ensureLoaded path store = (loaded, store')) :
    fleet.backend.ensureLoaded path (store, disk) = some (loaded, (store', disk)) := by
  show some ((fleet.ensureLoaded path store).1, ((fleet.ensureLoaded path store).2, disk)) = _
  rw [h]

/-- What a request sets for the reply is read alike on every session. -/
theorem generate_host (request : GenerateRequest) (session : LlamaSession) :
    (fleet.host session).generate request =
      LlamaSession.generate (fleet.prompting session) none request.prompt request.assistantPrefill
        { maxNewTokens := (request.maxNewTokens.or
            (fleet.settings.maxNewTokensFor request.modelPath)).getD DEFAULT_MAX_NEW_TOKENS
          sampling := request.sampling.getD (fleet.settings.samplingFor request.modelPath)
          grammar := request.grammar
          grammarComplete := request.grammarCompletion.map (·.intoPredicate fleet.fromStr) } := by
  rw [← fleet.fromStr_eq session]
  rfl

/-- The session that loads for its path answers a generation as it does in process. -/
theorem handleRequest_outcome (ms : Nat) (request : GenerateRequest) (store : fleet.Store)
    (disk : fleet.Disk) :
    ∃ response state', fleet.backend.handleRequest request (store, disk) = some (response, state') ∧
      response.outcome ms = (((fleet.ensureLoaded request.modelPath store).1.bind fun session =>
        (fleet.host session).oneShot ms (fleet.value session) (.generate request)).mapError
          .remote) := by
  rcases hLoaded : fleet.ensureLoaded request.modelPath store with ⟨message | session, store'⟩
  · unfold Backend.handleRequest
    rw [ensureLoaded_backend hLoaded]
    exact ⟨_, _, rfl, rfl⟩
  · have hGenerate : (fleet.host session).generate request = _ := generate_host request session
    unfold Backend.handleRequest
    rw [ensureLoaded_backend hLoaded]
    dsimp only [Except.bind, Host.oneShot]
    rw [hGenerate]
    cases LlamaSession.generate (fleet.prompting session) none request.prompt
      request.assistantPrefill _ with
    | error e => exact ⟨_, _, rfl, rfl⟩
    | ok result => exact ⟨_, _, rfl, rfl⟩

/-- And a batch of texts. -/
theorem handleEmbed_outcome (ms : Nat) (request : EmbedRequest) (store : fleet.Store)
    (disk : fleet.Disk) :
    ∃ response, fleet.backend.handleEmbed request (store, disk) = some response ∧
      response.outcome = (((fleet.ensureLoaded request.modelPath store).1.bind fun session =>
        (fleet.host session).oneShot ms (fleet.value session) (.embed request)).mapError
          .remote) := by
  rcases hLoaded : fleet.ensureLoaded request.modelPath store with ⟨message | session, store'⟩
  · unfold Backend.handleEmbed
    rw [ensureLoaded_backend hLoaded]
    exact ⟨_, rfl, rfl⟩
  · unfold Backend.handleEmbed
    rw [ensureLoaded_backend hLoaded]
    dsimp only [Except.bind, Host.oneShot]
    cases (fleet.embedder session).embed request.texts request.pooling request.normalize with
    | error e => exact ⟨_, rfl, rfl⟩
    | ok vectors =>
      -- a vector is as long in the numbers it is written in
      have hLength : ((vectors.map (·.map (fleet.value session))).head?.map List.length).getD 0 =
          (vectors.head?.map List.length).getD 0 := by
        cases vectors with
        | nil => rfl
        | cons vector vectors => simp
      refine ⟨_, rfl, ?_⟩
      show (Except.ok (.embedded ⟨_, _⟩) : Except RampipedError OneShotReply) =
        .ok (.embedded ⟨_, _⟩)
      rw [hLength]

end Fleet

/-! ## What comes back -/

namespace RampipedClient

/-- The client reads the response to a generation. -/
theorem generate_payload {serde : Serde} {response : GenerateResponse} {ms : Nat}
    (hSent : serde.Sendable Wire.generateResponse (response.timed ms)) :
    (generate serde (some (serde.payload Wire.generateResponse (response.timed ms)))).map
      .generated = response.outcome ms := by
  unfold generate
  rw [Option.getD_some, Serde.ofLine_payload hSent.1 hSent.2]
  cases response <;> rfl

/-- And the one to an embedding. -/
theorem embed_payload {serde : Serde} {response : EmbedResponse ℚ}
    (hSent : serde.Sendable (Wire.embedResponse serde.floats) response) :
    (embed serde (some (serde.payload (Wire.embedResponse serde.floats) response))).map
      .embedded = response.outcome := by
  unfold embed
  rw [Option.getD_some, Serde.ofLine_payload hSent.1 hSent.2]
  cases response <;> rfl

end RampipedClient

/-- **A call on its own is answered as in process**, whatever the store has come to by then:
the session that is loaded for its path answers it, or the reason why none is. -/
theorem oneShot_transparent (fleet : Fleet) (ms : Nat) (store : fleet.Store) (disk : fleet.Disk)
    (call : OneShotCall)
    (hSent : fleet.serde.Sendable (Wire.clientMessage fleet.serde.floats) call.message)
    (hBack : fleet.SendsBack ms (store, disk) call) :
    RampipedClient.receive fleet.serde (fleet.oneShotLine ms (store, disk) call) call =
      (((fleet.ensureLoaded call.modelPath store).1.bind fun session =>
        (fleet.host session).oneShot ms (fleet.value session) call).mapError .remote) := by
  cases call with
  | generate request =>
    obtain ⟨response, state', hRespond, hOutcome⟩ :=
      Fleet.handleRequest_outcome ms request store disk
    have hBack := hBack response state' hRespond
    rw [Fleet.oneShotLine_respond (Fleet.oneShotTrace_generate hSent hRespond) rfl
      (Serde.lines_payload hBack.2), RampipedClient.receive,
      RampipedClient.generate_payload hBack, hOutcome]
    rfl
  | embed request =>
    obtain ⟨response, hRespond, hOutcome⟩ := Fleet.handleEmbed_outcome ms request store disk
    have hBack := hBack response hRespond
    rw [Fleet.oneShotLine_respond (Fleet.oneShotTrace_embed hSent hRespond) rfl
      (Serde.lines_payload hBack.2), RampipedClient.receive,
      RampipedClient.embed_payload hBack, hOutcome]
    rfl

/-! ### Two prompts -/

/-- A model that says one letter. -/
def Script.curt : Script :=
  ⟨fun cells => if cells = 10 then Script.tokenOf 'a' else Script.eog, fun _ => false⟩

/-- A host of many models: the one of `Script.session` says a letter, and the others nothing.
Each is always loaded. -/
def shortFleet (documents : List Json) : Fleet where
  serde := .reading documents
  fromStr := (Llama.scripted .silent).fromStr
  settings := .empty
  report _ := []
  llama session := .scripted (if session.path = Script.session.path then .curt else .silent)
  fromStr_eq _ := rfl
  prompting _ := {
    chatTemplate := .found
    found_of_text := fun _ => rfl
    newChatMessage := fun _ => .ok ()
    applyChatTemplate := fun _ => none }
  embedder _ := Embedder.poolless
  value _ scalar := scalar.id
  Store := Unit
  Status := Unit
  ensureLoaded path _ := (.ok ⟨path⟩, ())
  recordOutcome _ _ _ := ()
  handleStatus _ := ()
  writesStatus _ := true
  Disk := ShortDisk (.scripted .silent)
  writeState _ := (shortHost documents).writeState
  readState _ := (shortHost documents).readState
  write := (shortHost documents).write
  readSidecar := (shortHost documents).readSidecar

/-- A prompt in at most four tokens, sampled as the model is configured. -/
def shortPrompt (path : Path) : GenerateRequest where
  modelPath := path
  prompt := "hi".toList
  maxNewTokens := some 4
  sampling := none
  grammar := none
  assistantPrefill := none
  grammarCompletion := none

/-- The path of another model. -/
def quietPath : Path := "quiet.gguf".toList

/-- What the model of one letter says. -/
def curtResponse : GenerateResponse := .ok "a".toList 1 "<user>hi\n".toList

/-- What the other one says. -/
def quietResponse : GenerateResponse := .ok [] 0 "<user>hi\n".toList

/-- The documents of the two connections. -/
def promptDocuments : List Json :=
  [(Wire.clientMessage .whole).encode (.generate (shortPrompt Script.session.path)),
    (Wire.clientMessage .whole).encode (.generate (shortPrompt quietPath)),
    Wire.generateResponse.encode (curtResponse.timed 5),
    Wire.generateResponse.encode (quietResponse.timed 5)]

/-- A prompt has one response. -/
theorem shortFleet_sendsBack {path : Path} {response : GenerateResponse}
    (hResponds : ∃ state', (shortFleet promptDocuments).backend.handleRequest (shortPrompt path)
      ((), emptyDisk) = some (response, state'))
    (hSent : (Serde.reading promptDocuments).Sendable Wire.generateResponse (response.timed 5)) :
    (shortFleet promptDocuments).SendsBack 5 ((), emptyDisk) (.generate (shortPrompt path)) := by
  obtain ⟨state, hState⟩ := hResponds
  intro response' state' hRespond
  rw [hState] at hRespond
  cases hRespond
  exact hSent

set_option maxRecDepth 4096 in
/-- The prompts and their responses can be sent. -/
theorem promptDocuments_sendable :
    (∀ path ∈ [Script.session.path, quietPath], (Serde.reading promptDocuments).Sendable
        (Wire.clientMessage .whole) (.generate (shortPrompt path))) ∧
      (∀ response ∈ [curtResponse, quietResponse], (Serde.reading promptDocuments).Sendable
        Wire.generateResponse (response.timed 5)) := by
  constructor
  · intro path hPath
    have hPrompt : (Wire.clientMessage .whole).decode ((Wire.clientMessage .whole).encode
      (.generate (shortPrompt path))) = some (.generate (shortPrompt path)) := rfl
    rcases List.mem_pair.mp hPath with rfl | rfl
    · exact ⟨Codec.valid_of_decode _ hPrompt, rfl, by decide, by decide⟩
    · exact ⟨Codec.valid_of_decode _ hPrompt, rfl, by decide, by decide⟩
  · intro response hResponse
    rcases List.mem_pair.mp hResponse with rfl | rfl
    · have hRead : Wire.generateResponse.decode (Wire.generateResponse.encode
        (curtResponse.timed 5)) = some (curtResponse.timed 5) := rfl
      exact ⟨Codec.valid_of_decode _ hRead, rfl, by decide, by decide⟩
    · have hRead : Wire.generateResponse.decode (Wire.generateResponse.encode
        (quietResponse.timed 5)) = some (quietResponse.timed 5) := rfl
      exact ⟨Codec.valid_of_decode _ hRead, rfl, by decide, by decide⟩

/-- Each model is loaded, and answers the prompt in its own way. -/
theorem oneShot_transparent_prompts :
    RampipedClient.receive (.reading promptDocuments)
        ((shortFleet promptDocuments).oneShotLine 5 ((), emptyDisk)
          (.generate (shortPrompt Script.session.path)))
        (.generate (shortPrompt Script.session.path)) = curtResponse.outcome 5 ∧
      RampipedClient.receive (.reading promptDocuments)
        ((shortFleet promptDocuments).oneShotLine 5 ((), emptyDisk)
          (.generate (shortPrompt quietPath)))
        (.generate (shortPrompt quietPath)) = quietResponse.outcome 5 := by
  obtain ⟨hPrompts, hResponses⟩ := promptDocuments_sendable
  constructor
  · exact (oneShot_transparent (shortFleet promptDocuments) 5 () emptyDisk
      (.generate (shortPrompt Script.session.path)) (hPrompts _ (by simp))
      (shortFleet_sendsBack ⟨_, rfl⟩ (hResponses curtResponse (by simp)))).trans rfl
  · exact (oneShot_transparent (shortFleet promptDocuments) 5 () emptyDisk
      (.generate (shortPrompt quietPath)) (hPrompts _ (by simp))
      (shortFleet_sendsBack ⟨_, rfl⟩ (hResponses quietResponse (by simp)))).trans rfl

end Rampipe
