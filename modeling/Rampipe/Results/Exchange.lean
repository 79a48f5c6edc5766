import Rampipe.Model.Connection

/-!
# Rampipe — one reply for each line

What a connection should look like, stated for its own sake (`Served`, `Conversed`):
a line, its reply, the next line, its reply, until the client goes or a conversation
is saved. The handler turns most failures into replies and leaves by `?` on three:
on a fresh conversation without a context size, on a line that is no text, and on a
status that cannot be written. And no reply comes of a call that never returns, or
takes the thread with it.

* `Attended`, `Answerable` — what it takes, on the lines and on the calls they lead to.
* `converse_conversed_iff` — the loop keeps to it as long as its lines are attended to.
* `Conversed.answered`     — then the client has its reply to every call.
* `connection_served_iff`  — for whole connections, and the client at the other end.
* `zeroContext_unanswered` — an open that is not answered.
-/

namespace Rampipe

open Text

/-! ## What the client waits for -/

/-- The reply is of a kind the request asks for. -/
def ConversationResponse.Answers : ConversationResponse → ConversationRequest → Prop
  | .turn _, .turn _ => True
  | .snapshotted, .snapshot _ => True
  | .err _, _ => True
  | _, _ => False

/-- The reply to a one-shot request. -/
def Response.AnswersOnce {backend : Backend} : Response backend → ClientMessage → Prop
  | .generate _, .generate _ => True
  | .status _, .status => True
  | .embed _, .embed _ => True
  | _, _ => False

namespace Backend

variable (backend : Backend)

/-- The reply to a line on an open conversation. -/
def Replies (line : Line) (response : ConversationResponse) : Prop :=
  match line with
  | .malformed => ∃ message, response = .err message
  | .text line =>
    match backend.decodeRequest (trim line) with
    | .ok request => response.Answers request
    | .error _ => ∃ message, response = .err message

/-- One reply for each line read, before the next, up to the end of the lines or a
conversation that was saved. -/
inductive Conversed : List Line → List (SocketEvent backend) → Prop
  | disconnected : Conversed [] []
  | replied {line : Line} {response : ConversationResponse} {lines : List Line}
      {trace : List (SocketEvent backend)} :
      backend.Replies line response → response ≠ .snapshotted → Conversed lines trace →
      Conversed (line :: lines) (.received line :: .sent (.conversation response) :: trace)
  | snapshotted {line : Line} {lines : List Line} : backend.Replies line .snapshotted →
      Conversed (line :: lines) [.received line, .sent (.conversation .snapshotted)]

/-- The same for a whole connection that begins with `message`. -/
inductive Served (message : ClientMessage) : List Line → List (SocketEvent backend) → Prop
  | once {line : Line} {lines : List Line} {response : Response backend} :
      response.AnswersOnce message →
      Served message (line :: lines) [.received line, .sent response]
  | refused {request : OpenConversationRequest} {line : Line} {lines : List Line} {error : Text} :
      message = .openConversation request →
      Served message (line :: lines) [.received line, .sent (.conversation (.err error))]
  | opened {request : OpenConversationRequest} {line : Line} {lines : List Line}
      {trace : List (SocketEvent backend)} {supports : Bool} :
      message = .openConversation request →
      backend.Conversed lines trace →
      Served message (line :: lines)
        (.received line :: .sent (.conversation (openReply request.tools supports)) :: trace)

/-! ## The loop -/

variable {backend}

/-- A line that is answered, and the conversation goes on behind it. -/
theorem conversed_cons_iff {line : Line} {response : ConversationResponse} {lines : List Line}
    {trace : List (SocketEvent backend)} (hReplies : backend.Replies line response)
    (hOpen : response ≠ .snapshotted) :
    backend.Conversed (line :: lines)
        (.received line :: .sent (.conversation response) :: trace) ↔
      backend.Conversed lines trace := by
  constructor
  · intro h
    cases h with
    | replied _ _ h => exact h
    | snapshotted _ => exact absurd rfl hOpen
  · exact .replied hReplies hOpen

/-- A turn is answered by a turn or an error. -/
theorem runConversationTurn_answers {conversation conversation' : backend.Conv}
    {turn : ConversationTurnRequest} {configured : Sampling} {configuredTokens : Option Int}
    {state state' : backend.State} {response : ConversationResponse}
    (h : backend.runConversationTurn conversation turn configured configuredTokens state =
      some (response, conversation', state')) :
    response.Answers (.turn turn) ∧ response ≠ .snapshotted := by
  unfold runConversationTurn at h
  dsimp only at h
  split at h
  · cases h
  · cases h
    exact ⟨trivial, by simp⟩
  · cases h
    exact ⟨trivial, by simp⟩

variable (backend) in
/-- What it takes for a reply to each of these lines: they are text, and the calls they
lead to return. Nothing is read behind a conversation that was saved. -/
def Attended (request : OpenConversationRequest) (conversation : backend.Conv)
    (state : backend.State) : List Line → Prop
  | [] => True
  | .malformed :: _ => False
  | .text line :: lines =>
    match backend.decodeRequest (trim line) with
    | .ok (.turn turn) =>
      ∃ response conversation' state' recorded,
        backend.runConversationTurn conversation turn (backend.samplingFor request.modelPath)
          (backend.maxNewTokensFor request.modelPath) state =
            some (response, conversation', state') ∧
        backend.recordOutcome request.modelPath (tokensGenerated response) state' = some recorded ∧
        Attended request conversation' recorded lines
    | .ok (.snapshot files) =>
      ∃ saved state', backend.saveState conversation files state = some (saved, state') ∧
        (saved = .ok () ∨ Attended request conversation state' lines)
    | .error _ => Attended request conversation state lines

/-- What is a reply to a line that reads as a request. -/
theorem replies_of_ok {line : Text} {asked : ConversationRequest} {response : ConversationResponse}
    (hRead : backend.decodeRequest (trim line) = .ok asked) (hAnswers : response.Answers asked) :
    backend.Replies (.text line) response := by
  unfold Replies
  dsimp only
  rw [hRead]
  exact hAnswers

/-- The beginning of a conversation is the line and its reply. -/
theorem not_conversed_silent {line : Line} {lines : List Line} :
    ¬ backend.Conversed (line :: lines) [.received line] := by
  intro h
  cases h

/-- The loop answers every line exactly when they are attended to. -/
theorem converse_conversed_iff (request : OpenConversationRequest) (lines : List Line)
    (conversation : backend.Conv) (state : backend.State) :
    backend.Conversed lines (backend.converse request conversation state lines) ↔
      backend.Attended request conversation state lines := by
  -- on the lines, with the conversation and the state that the last one left
  induction lines generalizing conversation state with
  | nil => exact ⟨fun _ => trivial, fun _ => .disconnected⟩
  | cons line lines ih =>
    match line with
    | .malformed => exact ⟨fun h => absurd h not_conversed_silent, fun h => h.elim⟩
    | .text line =>
      unfold converse Attended
      rcases hDecode : backend.decodeRequest (trim line) with error | turn | files
      · -- a line that does not decode is answered, and the conversation goes on
        dsimp only
        have hReplies : backend.Replies (.text line)
            (.err ("decoding conversation request: ".toList ++ error)) := by
          unfold Replies
          dsimp only
          rw [hDecode]
          exact ⟨_, rfl⟩
        rw [conversed_cons_iff hReplies (by simp), ih]
      · dsimp only
        rcases hRun : backend.runConversationTurn conversation turn
          (backend.samplingFor request.modelPath) (backend.maxNewTokensFor request.modelPath)
          state with _ | ⟨response, conversation', state'⟩
        · refine ⟨fun h => absurd h not_conversed_silent, ?_⟩
          rintro ⟨_, _, _, _, hNone, -⟩
          cases hNone
        dsimp only
        rcases hRecord : backend.recordOutcome request.modelPath (tokensGenerated response)
          state' with _ | recorded
        · refine ⟨fun h => absurd h not_conversed_silent, ?_⟩
          rintro ⟨_, _, _, _, hSome, hNone, -⟩
          cases hSome
          rw [hRecord] at hNone
          cases hNone
        obtain ⟨hAnswers, hOpen⟩ := runConversationTurn_answers hRun
        dsimp only
        rw [conversed_cons_iff (replies_of_ok hDecode hAnswers) hOpen, ih]
        constructor
        · exact fun h => ⟨_, _, _, _, rfl, hRecord, h⟩
        · rintro ⟨_, _, _, _, hSome, hRecord', h⟩
          cases hSome
          rw [hRecord] at hRecord'
          cases hRecord'
          exact h
      · dsimp only
        rcases hSave : backend.saveState conversation files state with _ | ⟨message | _, state'⟩
        · refine ⟨fun h => absurd h not_conversed_silent, ?_⟩
          rintro ⟨_, _, hNone, -⟩
          cases hNone
        · -- a snapshot that fails leaves the conversation open
          dsimp only
          have hReplies : backend.Replies (.text line) (.err message) :=
            replies_of_ok hDecode trivial
          rw [conversed_cons_iff hReplies (by simp), ih]
          constructor
          · exact fun h => ⟨_, _, rfl, .inr h⟩
          · rintro ⟨_, _, hSome, hSaved | h⟩
            · cases hSome
              cases hSaved
            · cases hSome
              exact h
        · exact ⟨fun _ => ⟨_, _, rfl, .inl rfl⟩,
            fun _ => .snapshotted (replies_of_ok hDecode trivial)⟩

/-! ## The client -/

/-- The replies of a conversation, in order. -/
def conversationReplies (trace : List (SocketEvent backend)) : List ConversationResponse :=
  trace.filterMap fun event =>
    match event with
    | .sent (.conversation response) => some response
    | _ => none

/-- The replies of a trace are those that were sent. -/
@[simp] theorem conversationReplies_cons (line : Line) (response : ConversationResponse)
    (trace : List (SocketEvent backend)) :
    conversationReplies (.received line :: .sent (.conversation response) :: trace) =
      response :: conversationReplies trace := rfl

variable (backend) in
/-- The line a client wrote for this call: it may fail to decode, but does not decode to
anything else. -/
def Carries (line : Line) (call : ConversationRequest) : Prop :=
  ∃ text, line = .text text ∧ (backend.decodeRequest (trim text) = .ok call ∨
    ∃ error, backend.decodeRequest (trim text) = .error error)

/-- A reply to a line answers the call that the line carries. -/
theorem Replies.answers {line : Line} {call : ConversationRequest} {response : ConversationResponse}
    (h : backend.Replies line response) (hCarries : backend.Carries line call) :
    response.Answers call := by
  obtain ⟨text, rfl, hOk | ⟨error, hError⟩⟩ := hCarries
  · unfold Replies at h
    dsimp only at h
    rw [hOk] at h
    exact h
  · unfold Replies at h
    dsimp only at h
    rw [hError] at h
    obtain ⟨message, rfl⟩ := h
    match call with
    | .turn _ => trivial
    | .snapshot _ => trivial

/-- Every call of the client has its reply, until one of them was `Snapshotted`. -/
theorem Conversed.answered {lines : List Line} {trace : List (SocketEvent backend)}
    (h : backend.Conversed lines trace) {calls : List ConversationRequest}
    (hCalls : List.Forall₂ backend.Carries lines calls) {k : Nat} {call : ConversationRequest}
    (hCall : calls[k]? = some call)
    (hOpen : .snapshotted ∉ (conversationReplies trace).take k) :
    ∃ response, (conversationReplies trace)[k]? = some response ∧ response.Answers call := by
  -- on the conversation, line and call and reply together
  induction h generalizing calls k with
  | disconnected =>
    cases hCalls
    cases hCall
  | @replied line response lines trace hReplies _ _ ih =>
    rw [conversationReplies_cons] at hOpen ⊢
    cases hCalls with
    | cons hCarries hRest =>
      match k, hCall, hOpen with
      | 0, hCall, _ =>
        cases hCall
        exact ⟨response, rfl, hReplies.answers hCarries⟩
      | k + 1, hCall, hOpen =>
        rw [List.getElem?_cons_succ] at hCall
        rw [List.take_succ_cons, List.mem_cons, not_or] at hOpen
        exact ih hRest hCall hOpen.2
  | @snapshotted line lines hReplies =>
    cases hCalls with
    | cons hCarries hRest =>
      match k, hCall, hOpen with
      | 0, hCall, _ =>
        cases hCall
        exact ⟨.snapshotted, rfl, hReplies.answers hCarries⟩
      | k + 1, _, hOpen => exact absurd List.mem_cons_self hOpen

end Backend

/-- What the client returns is a success, or an error that the daemon sent. -/
def Reported {α : Type} (reply : Option ConversationResponse) (result : Except RampipedError α) :
    Prop :=
  (∃ value, result = .ok value) ∨
    ∃ message, reply = some (.err message) ∧ result = .error (.remote message)

namespace RampipedConversation

/-- The client makes of the reply to this call what it can make of it. -/
def Meets (conversation : RampipedConversation) (reply : Option ConversationResponse) :
    ConversationRequest → Prop
  | .turn _ => Reported reply (conversation.exchange reply).1
  | .snapshot _ => Reported reply (snapshot reply)

/-- An answer is what the client waits for. -/
theorem meets_of_answers (conversation : RampipedConversation) {response : ConversationResponse}
    {call : ConversationRequest} (h : response.Answers call) :
    conversation.Meets (some response) call := by
  match call, response with
  | .turn _, .turn result => exact Or.inl ⟨result, rfl⟩
  | .turn _, .err message => exact Or.inr ⟨message, rfl, rfl⟩
  | .turn _, .opened => exact False.elim h
  | .turn _, .openedWithTools _ => exact False.elim h
  | .turn _, .snapshotted => exact False.elim h
  | .snapshot _, .snapshotted => exact Or.inl ⟨(), rfl⟩
  | .snapshot _, .err message => exact Or.inr ⟨message, rfl, rfl⟩
  | .snapshot _, .opened => exact False.elim h
  | .snapshot _, .openedWithTools _ => exact False.elim h
  | .snapshot _, .turn _ => exact False.elim h

end RampipedConversation

/-! ## Whole connections -/

namespace Backend

variable {backend : Backend}

/-- The client whose lines these are gets a reply it can use from `open`, and from every
call that comes before a `Snapshotted` on a conversation that opened. -/
def NeverSurprises (lines : List Line) (trace : List (SocketEvent backend)) : Prop :=
  ∀ calls, List.Forall₂ backend.Carries lines.tail calls →
    Reported (conversationReplies trace)[0]?
        (RampipedConversation.open_ (conversationReplies trace)[0]?) ∧
      ∀ k call, calls[k]? = some call →
        (∃ conversation, RampipedConversation.open_ (conversationReplies trace)[0]? =
          .ok conversation) →
        .snapshotted ∉ (conversationReplies trace).take (k + 1) →
          ∀ conversation : RampipedConversation,
            conversation.Meets (conversationReplies trace)[k + 1]? call

/-- A connection as the client expects it. -/
def AsExpected (message : ClientMessage) (lines : List Line) (trace : List (SocketEvent backend)) :
    Prop :=
  backend.Served message lines trace ∧
    ∀ request, message = .openConversation request → NeverSurprises lines trace

/-- The reply to an open says whether there are tools. -/
theorem openReply_cases (tools : List ToolSpec) (supports : Bool) :
    openReply tools supports = .opened ∧ tools = [] ∨
      openReply tools supports = .openedWithTools supports ∧ tools ≠ [] := by
  match tools with
  | [] => exact Or.inl ⟨rfl, rfl⟩
  | _ :: _ => exact Or.inr ⟨rfl, by simp⟩

/-- A client that is served never meets what it does not expect. -/
theorem Served.neverSurprises {request : OpenConversationRequest} {lines : List Line}
    {trace : List (SocketEvent backend)}
    (h : backend.Served (.openConversation request) lines trace) : NeverSurprises lines trace := by
  intro calls hCalls
  cases h with
  | @once line lines response hAnswers =>
    match response, hAnswers with
    | .generate _, hAnswers => exact absurd hAnswers (by simp [Response.AnswersOnce])
    | .status _, hAnswers => exact absurd hAnswers (by simp [Response.AnswersOnce])
    | .embed _, hAnswers => exact absurd hAnswers (by simp [Response.AnswersOnce])
    | .conversation _, hAnswers => exact absurd hAnswers (by simp [Response.AnswersOnce])
  | @refused _ line lines error _ =>
    refine ⟨Or.inr ⟨error, rfl, rfl⟩, ?_⟩
    rintro k call - ⟨conversation, hOpened⟩
    cases hOpened
  | @opened request' line lines trace supports _ h =>
    refine ⟨?_, ?_⟩
    · refine Or.inl ?_
      rcases openReply_cases request'.tools supports with ⟨hEq, -⟩ | ⟨hEq, -⟩
      · exact ⟨_, by rw [conversationReplies_cons, hEq]; rfl⟩
      · exact ⟨_, by rw [conversationReplies_cons, hEq]; rfl⟩
    · intro k call hCall _ hOpen conversation
      rw [conversationReplies_cons, List.take_succ_cons, List.mem_cons, not_or] at hOpen
      obtain ⟨response, hResponse, hAnswers⟩ := h.answered hCalls hCall hOpen.2
      rw [conversationReplies_cons, List.getElem?_cons_succ, hResponse]
      exact conversation.meets_of_answers hAnswers

/-- After an open that succeeded, the loop decides. -/
theorem served_opened_iff (request : OpenConversationRequest) (line : Line) (lines : List Line)
    (supports : Bool) (trace : List (SocketEvent backend)) :
    backend.Served (.openConversation request) (line :: lines)
        (.received line :: .sent (.conversation (openReply request.tools supports)) :: trace) ↔
      backend.Conversed lines trace := by
  refine ⟨?_, .opened rfl⟩
  generalize hReply : openReply request.tools supports = reply
  intro h
  cases h with
  | once hAnswers => exact absurd hAnswers (by simp [Response.AnswersOnce])
  | refused _ =>
    rcases openReply_cases request.tools supports with ⟨hEq, -⟩ | ⟨hEq, -⟩
    · rw [hEq] at hReply
      cases hReply
    · rw [hEq] at hReply
      cases hReply
  | opened _ h => exact h

variable (backend) in
/-- The open returns, and if it succeeds what follows is attended to. -/
def OpensAttended (request : OpenConversationRequest) (lines : List Line)
    (opening : Option (Except Text backend.Conv × backend.State)) : Prop :=
  ∃ opened state, opening = some (opened, state) ∧
    ∀ conversation, opened = .ok conversation → backend.Attended request conversation state lines

/-- Nothing is served where nothing is written. -/
theorem not_served_silent {message : ClientMessage} {line : Line} {lines : List Line} :
    ¬ backend.Served message (line :: lines) [.received line] := by
  intro h
  cases h

/-- An open is served exactly when what follows it is attended to. -/
theorem answerOpen_served_iff (request : OpenConversationRequest) (line : Line)
    (lines : List Line) (opening : Option (Except Text backend.Conv × backend.State)) :
    backend.Served (.openConversation request) (line :: lines)
        (.received line :: backend.answerOpen request lines opening) ↔
      backend.OpensAttended request lines opening := by
  match opening with
  | none =>
    refine ⟨fun h => absurd h not_served_silent, ?_⟩
    rintro ⟨_, _, hNone, -⟩
    cases hNone
  | some (.error message, state) =>
    refine ⟨fun _ => ⟨_, _, rfl, ?_⟩, fun _ => .refused rfl⟩
    intro conversation hOpened
    cases hOpened
  | some (.ok conversation, state) =>
    unfold answerOpen
    rw [served_opened_iff, converse_conversed_iff]
    constructor
    · intro h
      refine ⟨_, _, rfl, ?_⟩
      intro _ hOpened
      cases hOpened
      exact h
    · rintro ⟨_, _, hSome, h⟩
      cases hSome
      exact h _ rfl

/-- What it takes to answer what a connection reads. Every call that is made returns; a
fresh conversation whose model is loaded has a context size; the lines behind an open that
succeeded are attended to; a status can be written. -/
def Answerable (backend : Backend) (message : ClientMessage) (state : backend.State)
    (lines : List Line) : Prop :=
  match message with
  | .generate request =>
    ∃ response state', backend.handleRequest request state = some (response, state') ∧
      (backend.recordOutcome request.modelPath response.tokensGenerated state').isSome = true
  | .embed request => (backend.handleEmbed request state).isSome = true
  | .status => ∃ status, backend.handleStatus state = some status ∧
      backend.writesStatus status = true
  | .openConversation request =>
    ∃ loaded state', backend.ensureLoaded request.modelPath state = some (loaded, state') ∧
      ∀ session, loaded = .ok session →
        match request.restoreFrom with
        | some files => backend.OpensAttended request lines
            (backend.openConversationFromState session files state')
        | none => request.nCtx ≠ 0 ∧ backend.OpensAttended request lines
            (backend.openConversation session (options request) state')

/-- A conversation is served exactly when it can be answered. -/
theorem handleConversation_served_iff (request : OpenConversationRequest) (state : backend.State)
    (line : Line) (lines : List Line) :
    backend.Served (.openConversation request) (line :: lines)
        (.received line :: backend.handleConversation request state lines) ↔
      backend.Answerable (.openConversation request) state lines := by
  unfold handleConversation Answerable
  dsimp only
  rcases backend.ensureLoaded request.modelPath state with _ | ⟨error | session, state'⟩
  · refine ⟨fun h => absurd h not_served_silent, ?_⟩
    rintro ⟨_, _, hNone, -⟩
    cases hNone
  · refine ⟨fun _ => ⟨_, _, rfl, ?_⟩, fun _ => .refused rfl⟩
    intro session hLoaded
    cases hLoaded
  dsimp only
  -- a model that is loaded leaves it to the open
  have hLoads : ∀ P : backend.Session → backend.State → Prop,
      (∃ loaded after, (some (Except.ok session, state') :
        Option (Except Text backend.Session × backend.State)) = some (loaded, after) ∧
          ∀ session, loaded = .ok session → P session after) ↔ P session state' := by
    intro P
    constructor
    · rintro ⟨_, _, hSome, h⟩
      cases hSome
      exact h _ rfl
    · intro h
      refine ⟨_, _, rfl, ?_⟩
      intro _ hLoaded
      cases hLoaded
      exact h
  match request.restoreFrom with
  | some files =>
    dsimp only
    rw [answerOpen_served_iff]
    exact (hLoads fun session state => backend.OpensAttended request lines
      (backend.openConversationFromState session files state)).symm
  | none =>
    dsimp only
    refine Iff.trans ?_ (hLoads fun session state => request.nCtx ≠ 0 ∧
      backend.OpensAttended request lines
        (backend.openConversation session (options request) state)).symm
    by_cases hZero : request.nCtx = 0
    · rw [if_pos hZero]
      exact ⟨fun h => absurd h not_served_silent, fun h => absurd hZero h.1⟩
    · rw [if_neg hZero, answerOpen_served_iff]
      exact ⟨fun h => ⟨hZero, h⟩, And.right⟩

/-- And so is a connection of any kind. -/
theorem handleConnection_served_iff {message : ClientMessage} (state : backend.State) {line : Text}
    (lines : List Line) (hMessage : backend.decodeMessage (trim line) = .ok message) :
    backend.Served message (.text line :: lines)
        (backend.handleConnection state (.text line :: lines)) ↔
      backend.Answerable message state lines := by
  unfold handleConnection
  dsimp only
  rw [hMessage]
  match message with
  | .generate request =>
    unfold Answerable
    dsimp only
    rcases backend.handleRequest request state with _ | ⟨response, state'⟩
    · refine ⟨fun h => absurd h not_served_silent, ?_⟩
      rintro ⟨_, _, hNone, -⟩
      cases hNone
    dsimp only
    rcases hRecord : backend.recordOutcome request.modelPath response.tokensGenerated state' with
      _ | recorded
    · refine ⟨fun h => absurd h not_served_silent, ?_⟩
      rintro ⟨_, _, hSome, hRecorded⟩
      cases hSome
      rw [hRecord] at hRecorded
      cases hRecorded
    · exact ⟨fun _ => ⟨_, _, rfl, by rw [hRecord]; rfl⟩, fun _ => .once trivial⟩
  | .embed request =>
    unfold Answerable
    dsimp only
    rcases backend.handleEmbed request state with _ | response
    · exact ⟨fun h => absurd h not_served_silent, fun h => absurd h (by simp)⟩
    · exact ⟨fun _ => rfl, fun _ => .once trivial⟩
  | .openConversation request => exact handleConversation_served_iff request state _ lines
  | .status =>
    unfold Answerable
    dsimp only
    rcases backend.handleStatus state with _ | status
    · refine ⟨fun h => absurd h not_served_silent, ?_⟩
      rintro ⟨_, hNone, -⟩
      cases hNone
    dsimp only
    by_cases hWrites : backend.writesStatus status = true
    · rw [if_pos hWrites]
      exact ⟨fun _ => ⟨_, rfl, hWrites⟩, fun _ => .once trivial⟩
    · rw [if_neg hWrites]
      refine ⟨fun h => absurd h not_served_silent, ?_⟩
      rintro ⟨_, hSome, h⟩
      cases hSome
      exact absurd h hWrites

end Backend

open Backend in
/-- **One reply for each line.** A connection whose first line decodes is served as its
client expects exactly when every call it comes to returns, a fresh open has a context
size or fails before that is looked at, the lines that are read are text, and a status
can be written. -/
theorem connection_served_iff (backend : Backend) (state : backend.State) (line : Text)
    (lines : List Line) (message : ClientMessage)
    (hMessage : backend.decodeMessage (trim line) = .ok message) :
    AsExpected message (.text line :: lines)
        (backend.handleConnection state (.text line :: lines)) ↔
      backend.Answerable message state lines := by
  rw [← handleConnection_served_iff state lines hMessage]
  refine ⟨And.left, ?_⟩
  intro h
  refine ⟨h, ?_⟩
  rintro request rfl
  exact h.neverSurprises

/-! ## Two connections -/

/-- The line of an open without tools. -/
def openLine (nCtx : String) : Text :=
  "\x7b\"OpenConversation\":\x7b\"model_path\":\"coder.gguf\",\"n_ctx\":".toList ++ nCtx.toList ++
    ",\"overflow\":\"Fail\"\x7d\x7d".toList

def chat (nCtx : Nat) : OpenConversationRequest where
  modelPath := "coder.gguf".toList
  nCtx := nCtx
  overflow := .fail
  restoreFrom := none
  system := none
  tools := []
  toolFormat := none

def turnLine : Text := "\x7b\"Turn\":\x7b\"message\":\"hi\"\x7d\x7d".toList

def plainTurn : ConversationTurnRequest where
  toolResults := none
  message := "hi".toList
  maxNewTokens := none
  sampling := none
  grammar := none
  assistantPrefill := none
  grammarCompletion := none

def plainReply : GenerationResult where
  text := "hello".toList
  tokensGenerated := 1
  committedTokens := 3
  contextSize := 4096
  formattedPrompt := "hi".toList
  toolCalls := []
  truncatedToolCall := false

/-- A backend that knows three lines, and on which nothing fails. -/
def knownLines : Backend where
  State := Unit
  Session := Unit
  Conv := Unit
  Scalar := Unit
  Status := Unit
  decodeMessage text :=
    if text = openLine "4096" then .ok (.openConversation (chat 4096))
    else if text = openLine "0" then .ok (.openConversation (chat 0))
    else .error "expected value".toList
  decodeRequest text :=
    if text = turnLine then .ok (.turn plainTurn) else .error "expected value".toList
  fromStr _ := none
  writesStatus _ := true
  samplingFor _ := .greedy {}
  maxNewTokensFor _ := none
  ensureLoaded _ _ := some (.ok (), ())
  recordOutcome _ _ _ := some ()
  handleStatus _ := some ()
  generate _ _ _ _ _ := some (.ok plainReply, ())
  embed _ _ _ _ _ := some (.ok [], ())
  openConversation _ _ _ := some (.ok (), ())
  openConversationFromState _ _ _ := some (.ok (), ())
  supportsToolCalls _ := false
  call _ _ _ := some (.ok plainReply, (), ())
  saveState _ _ _ := some (.ok (), ())

/-- An open, a turn and a line that does not decode. -/
theorem knownLines_served :
    Backend.AsExpected (.openConversation (chat 4096))
      [.text (openLine "4096"), .text turnLine, .text "?".toList]
      (knownLines.handleConnection ()
        [.text (openLine "4096"), .text turnLine, .text "?".toList]) := by
  refine (connection_served_iff knownLines () _ _ _ rfl).mpr ⟨_, _, rfl, ?_⟩
  rintro _ -
  -- the open has a size, the turn is answered, and so is what does not decode
  refine ⟨by decide, _, _, rfl, ?_⟩
  rintro _ -
  exact ⟨_, _, _, _, rfl, rfl, trivial⟩

/-- The model loads, and the client is left with a closed connection. -/
theorem zeroContext_unanswered :
    knownLines.decodeMessage (trim (openLine "0")) = .ok (.openConversation (chat 0)) ∧
      knownLines.handleConnection () [.text (openLine "0")] = [.received (.text (openLine "0"))] ∧
      ¬ Backend.AsExpected (.openConversation (chat 0)) [.text (openLine "0")]
        (knownLines.handleConnection () [.text (openLine "0")]) := by
  have hTrace : knownLines.handleConnection () [.text (openLine "0")] =
      [.received (.text (openLine "0"))] := rfl
  refine ⟨rfl, hTrace, ?_⟩
  rintro ⟨hServed, -⟩
  rw [hTrace] at hServed
  cases hServed

end Rampipe
