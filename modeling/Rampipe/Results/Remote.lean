import Rampipe.Model.Remote
import Rampipe.Results.Exchange
import Rampipe.Results.OneShot
import Rampipe.Results.Room
import Rampipe.Results.Wire

/-!
# Rampipe — the seam hides the socket

A caller that holds a `ConversationHandle` need not know which one it is. For every
history of calls that return in process, the same calls over a socket come to the same
replies and, but for how an error is introduced, to the same errors; what a caller leaves
out is what the model is configured for.

* `converse_ran`        — what the daemon's loop replies to a history of calls.
* `handle_transparent`  — a whole connection, from the stream of the client's lines to what
  its calls return.
* `seam_transparent`    — the same through the trait, where nothing is left out.
* `reopened_transparent` — a connection that takes up what another one saved.
-/

namespace Rampipe

open Doc Text Conversation

variable {L : Llama}

/-! ## One line of the loop -/

namespace Backend

variable {backend : Backend} {request : OpenConversationRequest}
  {conversation conversation' : backend.Conv} {state state' : backend.State} {line : Text}

/-- A first line that opens a conversation is answered by that conversation's thread. -/
theorem handleConnection_open
    (hRead : backend.decodeMessage (trim line) = .ok (.openConversation request))
    (lines : List Line) :
    backend.handleConnection state (.text line :: lines) =
      .received (.text line) :: backend.handleConversation request state lines := by
  rw [handleConnection, hRead]

/-- A turn that is run is answered, and the thread reads on. -/
theorem converse_turn {turn : ConversationTurnRequest} {response : ConversationResponse}
    (hRead : backend.decodeRequest (trim line) = .ok (.turn turn))
    (hRun : backend.runConversationTurn conversation turn (backend.samplingFor request.modelPath)
      (backend.maxNewTokensFor request.modelPath) state = some (response, conversation', state'))
    {recorded : backend.State}
    (hRecord : backend.recordOutcome request.modelPath (tokensGenerated response) state' =
      some recorded) (lines : List Line) :
    backend.converse request conversation state (.text line :: lines) =
      .received (.text line) :: .sent (.conversation response) ::
        backend.converse request conversation' recorded lines := by
  rw [converse, hRead]
  dsimp only
  rw [hRun]
  dsimp only
  rw [hRecord]

/-- A snapshot that was not saved is answered by its error, and the thread reads on. -/
theorem converse_refused {files : SnapshotRef} {message : Text}
    (hRead : backend.decodeRequest (trim line) = .ok (.snapshot files))
    (hSave : backend.saveState conversation files state = some (.error message, state'))
    (lines : List Line) :
    backend.converse request conversation state (.text line :: lines) =
      .received (.text line) :: .sent (.conversation (.err message)) ::
        backend.converse request conversation state' lines := by
  rw [converse, hRead]
  dsimp only
  rw [hSave]

/-- One that was saved is answered, and the thread is done. -/
theorem converse_snapshotted {files : SnapshotRef}
    (hRead : backend.decodeRequest (trim line) = .ok (.snapshot files))
    (hSave : backend.saveState conversation files state = some (.ok (), state'))
    (lines : List Line) :
    backend.converse request conversation state (.text line :: lines) =
      [.received (.text line), .sent (.conversation .snapshotted)] := by
  rw [converse, hRead]
  dsimp only
  rw [hSave]

end Backend

/-! ## In process and over the wire -/

/-- The call in process that the daemon makes of a client's. -/
def ClientCall.resolved (settings : ModelSettings) (path : Path) : ClientCall → HandleCall
  | .send message maxNewTokens sampling grammar assistantPrefill grammarCompletion =>
    .send message ((maxNewTokens.or (settings.maxNewTokensFor path)).getD DEFAULT_MAX_NEW_TOKENS)
      (sampling.getD (settings.samplingFor path)) grammar assistantPrefill grammarCompletion
  | .sendToolResults results maxNewTokens sampling grammar grammarCompletion =>
    .sendToolResults results
      ((maxNewTokens.or (settings.maxNewTokensFor path)).getD DEFAULT_MAX_NEW_TOKENS)
      (sampling.getD (settings.samplingFor path)) grammar grammarCompletion
  | .snapshot files => .snapshot files

/-- A call that leaves nothing out is the call it stands for. -/
theorem HandleCall.resolved_overWire (settings : ModelSettings) (path : Path)
    (call : HandleCall) : call.overWire.resolved settings path = call := by
  cases call <;> rfl

/-- The reply to a call that came to this in process. -/
def replyTo : Except ConversationError HandleReply → ConversationResponse
  | .ok (.turn result) => .turn result
  | .ok .snapshotted => .snapshotted
  | .error e => .err e.display

/-- What a caller gets over the wire for what it would get in process. -/
def overWire (result : Except ConversationError HandleReply) :
    Except ConversationError HandleReply :=
  result.mapError fun e => .backend ("rampiped reported an error: ".toList ++ e.display)

namespace Host

variable {host : Host L}

variable (host) in
/-- A history of calls in process: each returned, and none came after a snapshot that was
saved. -/
inductive Ran : Conversation L → host.Disk → List HandleCall →
    List (Except ConversationError HandleReply) → Prop
  | done {c : Conversation L} {disk : host.Disk} : Ran c disk [] []
  | saved {c c' : Conversation L} {disk disk' : host.Disk} {call : HandleCall} :
      host.handle c disk call = some (.ok .snapshotted, c', disk') →
      Ran c disk [call] [.ok .snapshotted]
  | returned {c c' : Conversation L} {disk disk' : host.Disk} {call : HandleCall}
      {calls : List HandleCall} {result : Except ConversationError HandleReply}
      {results : List (Except ConversationError HandleReply)} :
      host.handle c disk call = some (result, c', disk') → result ≠ .ok .snapshotted →
      Ran c' disk' calls results → Ran c disk (call :: calls) (result :: results)

/-! ## One call -/

/-- A turn comes to the same in the daemon's thread, on the same conversation. -/
theorem takeTurn_some {c c' : Conversation L} {disk disk' : host.Disk}
    {request : Conversation.Request} {result : Except ConversationError HandleReply}
    (h : host.takeTurn c disk request = some (result, c', disk')) :
    result ≠ .ok .snapshotted ∧ disk' = disk ∧ (c.call request).2 = c' ∧
      ((∃ value, (c.call request).1.reply = some (.ok value) ∧ replyTo result = .turn value) ∨
        ∃ message, (c.call request).1.reply = some (.error message) ∧
          replyTo result = .err message) := by
  unfold takeTurn at h
  rcases hCall : c.call request with ⟨value | e | _ | _, after⟩
  · rw [hCall] at h
    cases h
    exact ⟨by simp, rfl, rfl, .inl ⟨value, rfl, rfl⟩⟩
  · rw [hCall] at h
    cases h
    exact ⟨by simp, rfl, rfl, .inr ⟨_, rfl, rfl⟩⟩
  · rw [hCall] at h
    cases h
  · rw [hCall] at h
    cases h

variable (host) in
/-- A client's line. -/
def line (call : ClientCall) : Text :=
  host.serde.payload (Wire.conversationRequest host.serde.floats) call.request

/-- The daemon reads the line that a client wrote for its call. -/
theorem decodeRequest_line {call : ClientCall}
    (hSent : host.serde.Sendable (Wire.conversationRequest host.serde.floats) call.request) :
    host.backend.decodeRequest (trim (host.line call)) = .ok call.request :=
  Serde.ofLine_payload hSent.1 hSent.2

/-- The call that the daemon makes of a turn. -/
def callFor (host : Host L) (path : Path) (turn : ConversationTurnRequest) :
    Conversation.Request :=
  let options := HandleCall.turnOptions L.fromStr
    ((turn.maxNewTokens.or (host.settings.maxNewTokensFor path)).getD DEFAULT_MAX_NEW_TOKENS)
    (turn.sampling.getD (host.settings.samplingFor path)) turn.grammar turn.grammarCompletion
  match turn.toolResults with
  | some results => .toolResults results options
  | none => .send turn.message turn.assistantPrefill options

/-- The daemon replies with what the call came to. -/
theorem runConversationTurn_of_call {c c' : Conversation L} {turn : ConversationTurnRequest}
    {path : Path} {state state' : host.backend.State} {outcome : Except Text GenerationResult}
    {response : ConversationResponse}
    (hCall : host.backend.call c (host.callFor path turn) state = some (outcome, c', state'))
    (hResponse : (∃ value, outcome = .ok value ∧ response = .turn value) ∨
      ∃ message, outcome = .error message ∧ response = .err message) :
    host.backend.runConversationTurn c turn (host.settings.samplingFor path)
      (host.settings.maxNewTokensFor path) state = some (response, c', state') := by
  unfold Backend.runConversationTurn
  unfold callFor at hCall
  cases hResults : turn.toolResults with
  | none =>
    rw [hResults] at hCall
    dsimp only [HandleCall.turnOptions] at hCall ⊢
    rw [hCall]
    rcases hResponse with ⟨value, rfl, rfl⟩ | ⟨message, rfl, rfl⟩ <;> rfl
  | some results =>
    rw [hResults] at hCall
    dsimp only [HandleCall.turnOptions] at hCall ⊢
    rw [hCall]
    rcases hResponse with ⟨value, rfl, rfl⟩ | ⟨message, rfl, rfl⟩ <;> rfl

/-- The reply to a turn is what it came to in process, and so is the conversation behind it. -/
theorem runConversationTurn_takeTurn {c c' : Conversation L} {disk disk' : host.Disk}
    {turn : ConversationTurnRequest} {path : Path}
    {result : Except ConversationError HandleReply} (store : host.Store)
    (hCall : host.takeTurn c disk (host.callFor path turn) = some (result, c', disk')) :
    host.backend.runConversationTurn c turn (host.settings.samplingFor path)
      (host.settings.maxNewTokensFor path) (store, disk) =
        some (replyTo result, c', (store, disk')) := by
  obtain ⟨-, rfl, rfl, ⟨value, hReply, hTurn⟩ | ⟨message, hReply, hErr⟩⟩ := takeTurn_some hCall
  · refine runConversationTurn_of_call ?_ (.inl ⟨value, rfl, hTurn⟩)
    dsimp only
    rw [hReply]
    rfl
  · refine runConversationTurn_of_call ?_ (.inr ⟨message, rfl, hErr⟩)
    dsimp only
    rw [hReply]
    rfl

/-- What `handle` does with a turn is what the daemon does with the request for it. -/
theorem handle_turn {c : Conversation L} {disk : host.Disk} {call : ClientCall} {path : Path}
    {turn : ConversationTurnRequest} (hTurn : call.request = .turn turn) :
    host.handle c disk (call.resolved host.settings path) =
      host.takeTurn c disk (host.callFor path turn) := by
  cases call with
  | send => cases hTurn; rfl
  | sendToolResults => cases hTurn; rfl
  | snapshot => cases hTurn

/-- A snapshot in process is a save. -/
theorem handle_snapshot {c : Conversation L} {disk : host.Disk} {call : ClientCall} {path : Path}
    {files : SnapshotRef} (hFiles : call.request = .snapshot files) :
    host.handle c disk (call.resolved host.settings path) =
      match host.saveState c files disk with
      | (.error e, disk) => some (.error (.llama e), c, disk)
      | (.ok (), disk) => some (.ok .snapshotted, c, disk) := by
  cases call with
  | send => cases hFiles
  | sendToolResults => cases hFiles
  | snapshot => cases hFiles; rfl

/-- The daemon replies to a line what the call came to in process, and goes on with the
conversation it left. -/
theorem converse_call (request : OpenConversationRequest) {c c' : Conversation L}
    {disk disk' : host.Disk} {call : ClientCall} {result : Except ConversationError HandleReply}
    (store : host.Store) (lines : List Line)
    (hCall : host.handle c disk (call.resolved host.settings request.modelPath) =
      some (result, c', disk'))
    (hSent : host.serde.Sendable (Wire.conversationRequest host.serde.floats) call.request)
    (hOpen : result ≠ .ok .snapshotted) :
    ∃ store', host.backend.converse request c (store, disk) (.text (host.line call) :: lines) =
      .received (.text (host.line call)) :: .sent (.conversation (replyTo result)) ::
        host.backend.converse request c' (store', disk') lines := by
  have hRead := decodeRequest_line hSent
  cases hKind : call.request with
  | turn turn =>
    rw [hKind] at hRead
    rw [handle_turn hKind] at hCall
    exact ⟨_, Backend.converse_turn hRead
      (runConversationTurn_takeTurn store hCall) rfl lines⟩
  | snapshot files =>
    rw [hKind] at hRead
    rw [handle_snapshot hKind] at hCall
    rcases hSave : host.saveState c files disk with ⟨e | _, after⟩
    · have hRefused : host.backend.saveState c files (store, disk) =
          some (.error e.display, (store, after)) := by
        dsimp only
        rw [hSave]
      rw [hSave] at hCall
      cases hCall
      exact ⟨_, Backend.converse_refused hRead hRefused lines⟩
    · rw [hSave] at hCall
      cases hCall
      exact absurd rfl hOpen

/-- A snapshot that was saved is the end of the connection. -/
theorem converse_saved {c c' : Conversation L} {disk disk' : host.Disk} {call : ClientCall}
    {request : OpenConversationRequest} (store : host.Store) (lines : List Line)
    (hCall : host.handle c disk (call.resolved host.settings request.modelPath) =
      some (.ok .snapshotted, c', disk'))
    (hSent : host.serde.Sendable (Wire.conversationRequest host.serde.floats) call.request) :
    host.backend.converse request c (store, disk) (.text (host.line call) :: lines) =
      [.received (.text (host.line call)), .sent (.conversation .snapshotted)] := by
  have hRead := decodeRequest_line hSent
  cases hKind : call.request with
  | turn turn =>
    rw [handle_turn hKind] at hCall
    exact absurd rfl (takeTurn_some hCall).1
  | snapshot files =>
    rw [hKind] at hRead
    rw [handle_snapshot hKind] at hCall
    rcases hSave : host.saveState c files disk with ⟨e | _, after⟩
    · rw [hSave] at hCall
      cases hCall
    · have hSaved : host.backend.saveState c files (store, disk) =
          some (.ok (), (store, after)) := by
        dsimp only
        rw [hSave]
      exact Backend.converse_snapshotted hRead hSaved lines

/-! ## A history of calls -/

/-- What the loop replies is what the calls came to, one after the other. -/
theorem converse_ran {c : Conversation L} {disk : host.Disk} {request : OpenConversationRequest}
    {calls : List ClientCall} {results : List (Except ConversationError HandleReply)}
    (h : host.Ran c disk (calls.map (·.resolved host.settings request.modelPath)) results)
    (hSent : ∀ call ∈ calls,
      host.serde.Sendable (Wire.conversationRequest host.serde.floats) call.request)
    (store : host.Store) :
    Backend.conversationReplies (host.backend.converse request c (store, disk)
      (calls.map fun call => .text (host.line call))) = results.map replyTo := by
  -- on the history, the client's calls and the daemon's store along with it
  generalize hResolved : calls.map (·.resolved host.settings request.modelPath) = resolved at h
  induction h generalizing calls store with
  | done =>
    rw [List.map_eq_nil_iff.mp hResolved]
    rfl
  | saved hCall =>
    obtain ⟨call, rfl, rfl⟩ := List.map_eq_singleton_iff.mp hResolved
    rw [List.map_singleton, converse_saved store [] hCall (hSent call List.mem_cons_self)]
    rfl
  | returned hCall hOpen hRest ih =>
    obtain ⟨call, rest, rfl, rfl, rfl⟩ := List.map_eq_cons_iff.mp hResolved
    obtain ⟨store', hLine⟩ := converse_call request store
      (rest.map fun call => .text (host.line call)) hCall (hSent call List.mem_cons_self) hOpen
    rw [List.map_cons, hLine, Backend.conversationReplies_cons, List.map_cons,
      ih (fun other hOther => hSent other (List.mem_cons_of_mem call hOther)) store' rfl]

/-- The replies of a connection: to the open, and to what follows. -/
theorem handleConnection_ran {request : OpenConversationRequest} {session : LlamaSession}
    {c : Conversation L} {store store' : host.Store} {disk : host.Disk}
    {calls : List ClientCall} {results : List (Except ConversationError HandleReply)} {first : Text}
    (hLoaded : host.ensureLoaded request.modelPath store = (.ok session, store'))
    (hSized : request.restoreFrom = none → request.nCtx ≠ 0)
    (hOpened : host.openInProcess session request disk = .ok (.ok c))
    (hFirst : host.backend.decodeMessage (trim first) = .ok (.openConversation request))
    (hRan : host.Ran c disk (calls.map (·.resolved host.settings request.modelPath)) results)
    (hSent : ∀ call ∈ calls,
      host.serde.Sendable (Wire.conversationRequest host.serde.floats) call.request) :
    Backend.conversationReplies (host.backend.handleConnection (store, disk)
      (.text first :: calls.map fun call => .text (host.line call))) =
        Backend.openReply request.tools c.supportsToolCalls :: results.map replyTo := by
  have hHere : host.backend.ensureLoaded request.modelPath (store, disk) =
      some (.ok session, (store', disk)) := by
    show some ((host.ensureLoaded request.modelPath store).1,
      ((host.ensureLoaded request.modelPath store).2, disk)) = _
    rw [hLoaded]
  -- fresh or from files, the conversation is the one that is opened in process
  have hConversation : host.backend.handleConversation request (store, disk)
      (calls.map fun call => .text (host.line call)) =
        host.backend.answerOpen request (calls.map fun call => .text (host.line call))
          (some (.ok c, (store', disk))) := by
    unfold Backend.handleConversation
    rw [hHere]
    unfold openInProcess at hOpened
    dsimp only
    cases hFrom : request.restoreFrom with
    | some files =>
      rw [hFrom] at hOpened
      dsimp only at hOpened ⊢
      rw [hOpened]
      rfl
    | none =>
      rw [hFrom] at hOpened
      dsimp only at hOpened ⊢
      rw [if_neg (hSized hFrom), Except.ok.inj hOpened]
      rfl
  rw [Backend.handleConnection_open hFirst, hConversation, Backend.answerOpen, Backend.conversationReplies_cons,
    converse_ran hRan hSent store']

end Host

/-! ## The client -/

/-- Replies as they are sent, each with its time. -/
def timedReplies (ms : Nat → Nat) (replies : List ConversationResponse) :
    List TimedConversationResponse :=
  replies.mapIdx fun k reply => reply.timed (ms k)

/-- The first reply has the first time, the others those behind it. -/
theorem timedReplies_cons (ms : Nat → Nat) (reply : ConversationResponse)
    (replies : List ConversationResponse) :
    timedReplies ms (reply :: replies) =
      reply.timed (ms 0) :: timedReplies (fun k => ms (k + 1)) replies :=
  List.mapIdx_cons

/-- A call that was a turn and succeeded. -/
def isTurn : Except ConversationError HandleReply → Bool
  | .ok (.turn _) => true
  | _ => false

/-- What comes back is of the kind of the call. -/
theorem Host.handle_answers {host : Host L} {c c' : Conversation L} {disk disk' : host.Disk}
    {call : ClientCall} {path : Path} {result : Except ConversationError HandleReply}
    (h : host.handle c disk (call.resolved host.settings path) = some (result, c', disk')) :
    (replyTo result).Answers call.request := by
  cases hKind : call.request with
  | turn turn =>
    rw [Host.handle_turn hKind] at h
    obtain ⟨-, -, -, ⟨value, -, hReply⟩ | ⟨message, -, hReply⟩⟩ := Host.takeTurn_some h
    · rw [hReply]
      trivial
    · rw [hReply]
      trivial
  | snapshot files =>
    rw [Host.handle_snapshot hKind] at h
    rcases hSave : host.saveState c files disk with ⟨e | _, after⟩
    · rw [hSave] at h
      cases h
      trivial
    · rw [hSave] at h
      cases h
      trivial

namespace RampipedConversation

/-- The client reads the reply that the daemon wrote. -/
theorem receive_payload {serde : Serde} {reply : ConversationResponse} {ms : Nat}
    (hSent : serde.Sendable Wire.conversationResponse (reply.timed ms)) :
    receive serde (some (serde.payload Wire.conversationResponse (reply.timed ms))) =
      .ok reply := by
  unfold receive
  rw [Option.getD_some, Serde.ofLine_payload hSent.1 hSent.2]
  cases reply <;> rfl

/-- The conversation after a call that came to this. -/
def counting (conversation : RampipedConversation)
    (result : Except ConversationError HandleReply) : RampipedConversation :=
  { conversation with turns := conversation.turns + if isTurn result then 1 else 0 }

/-- The kind of the reply decides what the client takes it for. -/
theorem answer_replyTo (conversation : RampipedConversation) {call : ClientCall}
    {result : Except ConversationError HandleReply}
    (hAnswers : (replyTo result).Answers call.request) :
    conversation.answer call (some (replyTo result)) =
      (result.mapError fun e => .remote e.display, conversation.counting result) := by
  rcases result with e | ⟨value | _⟩
  · cases call <;> rfl
  · cases call with
    | snapshot => exact hAnswers.elim
    | _ => rfl
  · cases call with
    | snapshot => rfl
    | _ => exact hAnswers.elim

/-- The reply to a call is what it came to, and a turn that succeeded is counted. -/
theorem handle_payload {serde : Serde} (conversation : RampipedConversation) {call : ClientCall}
    {result : Except ConversationError HandleReply} {ms : Nat}
    (hAnswers : (replyTo result).Answers call.request)
    (hSent : serde.Sendable Wire.conversationResponse ((replyTo result).timed ms)) :
    conversation.handle serde call
        (some (serde.payload Wire.conversationResponse ((replyTo result).timed ms))) =
      (overWire result, conversation.counting result) := by
  unfold handle
  rw [receive_payload hSent]
  dsimp only
  rw [conversation.answer_replyTo hAnswers]
  cases result <;> rfl

/-- The client's calls come to what they came to in process. -/
theorem run_ran {host : Host L} {c : Conversation L} {disk : host.Disk} {path : Path}
    {calls : List ClientCall} {results : List (Except ConversationError HandleReply)}
    (h : host.Ran c disk (calls.map (·.resolved host.settings path)) results) (ms : Nat → Nat)
    (hSent : ∀ reply ∈ timedReplies ms (results.map replyTo),
      host.serde.Sendable Wire.conversationResponse reply)
    (conversation : RampipedConversation) :
    conversation.run host.serde calls ((timedReplies ms (results.map replyTo)).map
        (host.serde.payload Wire.conversationResponse)) =
      (results.map overWire,
        { conversation with turns := conversation.turns + results.countP isTurn }) := by
  -- on the history; the client takes one reply off for each call
  generalize hResolved : calls.map (·.resolved host.settings path) = resolved at h
  induction h generalizing calls ms conversation with
  | done =>
    rw [List.map_eq_nil_iff.mp hResolved]
    rfl
  | saved hCall =>
    obtain ⟨call, rfl, rfl⟩ := List.map_eq_singleton_iff.mp hResolved
    rw [List.map_singleton, timedReplies_cons] at hSent ⊢
    have hHere := conversation.handle_payload (Host.handle_answers hCall)
      (hSent _ List.mem_cons_self)
    rw [List.map_cons, run, List.head?_cons, hHere]
    rfl
  | @returned c c' disk disk' call rest result results hCall hOpen hRest ih =>
    obtain ⟨call, rest, rfl, rfl, rfl⟩ := List.map_eq_cons_iff.mp hResolved
    rw [List.map_cons, timedReplies_cons] at hSent ⊢
    have hHere := conversation.handle_payload (Host.handle_answers hCall)
      (hSent _ List.mem_cons_self)
    rw [List.map_cons, run, List.head?_cons, hHere, List.tail_cons]
    dsimp only
    rw [ih _ (fun reply hReply => hSent reply (List.mem_cons_of_mem _ hReply)) _ rfl,
      List.countP_cons, List.map_cons]
    dsimp only [counting]
    rw [Nat.add_assoc, Nat.add_comm (if isTurn result = true then 1 else 0)]

/-- What `open` makes of the reply to an open that succeeded. -/
theorem open_openReply (tools : List ToolSpec) (supports : Bool) :
    open_ (some (Backend.openReply tools supports)) =
      .ok { supportsToolCalls := !tools.isEmpty && supports, turns := 0 } := by
  cases tools <;> rfl

/-- The client of a connection on which these replies were sent. -/
theorem opened_run_ran {host : Host L} {c : Conversation L} {disk : host.Disk} {path : Path}
    {tools : List ToolSpec} {supports : Bool} {calls : List ClientCall}
    {results : List (Except ConversationError HandleReply)} {ms : Nat → Nat} {back : List Text}
    (hBack : back = (timedReplies ms (Backend.openReply tools supports ::
      results.map replyTo)).map (host.serde.payload Wire.conversationResponse))
    (hRan : host.Ran c disk (calls.map (·.resolved host.settings path)) results)
    (hSent : ∀ reply ∈ timedReplies ms (Backend.openReply tools supports :: results.map replyTo),
      host.serde.Sendable Wire.conversationResponse reply) :
    ∃ conversation : RampipedConversation,
      open_ (receive host.serde back.head?).toOption = .ok conversation ∧
      conversation.supportsToolCalls = (!tools.isEmpty && supports) ∧
      conversation.run host.serde calls back.tail =
        (results.map overWire, { conversation with turns := results.countP isTurn }) := by
  rw [timedReplies_cons] at hSent hBack
  rw [hBack, List.map_cons, List.head?_cons, List.tail_cons,
    receive_payload (hSent _ List.mem_cons_self)]
  refine ⟨_, open_openReply _ _, rfl, ?_⟩
  rw [run_ran hRan _ fun reply hReply => hSent reply (List.mem_cons_of_mem _ hReply)]
  dsimp only
  rw [Nat.zero_add]

end RampipedConversation

/-! ## Whole connections -/

namespace Host

variable (host : Host L)

/-- All that a client writes. -/
def clientStream (request : OpenConversationRequest) (calls : List ClientCall) : Text :=
  host.serde.payload (Wire.clientMessage host.serde.floats) (.openConversation request) ++
    calls.flatMap host.line

/-- The lines that come back for it, the `k`-th reply after `ms k`. -/
def linesBack (ms : Nat → Nat) (store : host.Store) (disk : host.Disk)
    (request : OpenConversationRequest) (calls : List ClientCall) : List Text :=
  lines '\n' ((timedReplies ms (Backend.conversationReplies (host.backend.handleConnection
    (store, disk) ((lines '\n' (host.clientStream request calls)).map .text)))).flatMap
      (host.serde.payload Wire.conversationResponse))

variable {host}

/-- The daemon reads the lines that the client wrote. -/
theorem lines_clientStream {request : OpenConversationRequest} {calls : List ClientCall}
    (hRequest : host.serde.Sendable (Wire.clientMessage host.serde.floats)
      (.openConversation request))
    (hCalls : ∀ call ∈ calls,
      host.serde.Sendable (Wire.conversationRequest host.serde.floats) call.request) :
    lines '\n' (host.clientStream request calls) =
      host.serde.payload (Wire.clientMessage host.serde.floats) (.openConversation request) ::
        calls.map host.line := by
  have hReads : ∀ message ∈ calls.map ClientCall.request,
      host.serde.Reads ((Wire.conversationRequest host.serde.floats).encode message) := by
    intro message hMessage
    obtain ⟨call, hCall, rfl⟩ := List.mem_map.mp hMessage
    exact (hCalls call hCall).2
  have hRest := Serde.lines_payloads hReads
  rw [List.flatMap_map, List.map_map] at hRest
  unfold clientStream Serde.payload
  rw [List.append_assoc, List.singleton_append, lines_frame hRequest.2.line]
  exact congrArg _ hRest

/-- And the client those of the replies. -/
theorem linesBack_ran {request : OpenConversationRequest} {session : LlamaSession}
    {c : Conversation L} {store store' : host.Store} {disk : host.Disk}
    {calls : List ClientCall} {results : List (Except ConversationError HandleReply)}
    {ms : Nat → Nat} (hLoaded : host.ensureLoaded request.modelPath store = (.ok session, store'))
    (hSized : request.restoreFrom = none → request.nCtx ≠ 0)
    (hOpened : host.openInProcess session request disk = .ok (.ok c))
    (hRan : host.Ran c disk (calls.map (·.resolved host.settings request.modelPath)) results)
    (hRequest : host.serde.Sendable (Wire.clientMessage host.serde.floats)
      (.openConversation request))
    (hCalls : ∀ call ∈ calls,
      host.serde.Sendable (Wire.conversationRequest host.serde.floats) call.request)
    (hReplies : ∀ reply ∈ timedReplies ms
        (Backend.openReply request.tools c.supportsToolCalls :: results.map replyTo),
      host.serde.Sendable Wire.conversationResponse reply) :
    host.linesBack ms store disk request calls =
      (timedReplies ms (Backend.openReply request.tools c.supportsToolCalls ::
        results.map replyTo)).map (host.serde.payload Wire.conversationResponse) := by
  have hTrace : Backend.conversationReplies (host.backend.handleConnection (store, disk)
      ((lines '\n' (host.clientStream request calls)).map .text)) =
        Backend.openReply request.tools c.supportsToolCalls :: results.map replyTo := by
    rw [lines_clientStream hRequest hCalls, List.map_cons, List.map_map]
    exact handleConnection_ran hLoaded hSized hOpened
      (Serde.ofLine_payload hRequest.1 hRequest.2) hRan hCalls
  unfold linesBack
  rw [hTrace, Serde.lines_payloads fun reply hReply => (hReplies reply hReply).2]

end Host

/-- **The seam hides the socket.** A session that the daemon has loaded opens `c` in process,
and calls on it come to `results`. Then the same request opens a conversation over the wire,
and the same calls on that, with whatever was left out taken from the model's settings, come
to the same. The client's count of turns is the number of those that succeeded. -/
theorem handle_transparent (host : Host L) (request : OpenConversationRequest)
    (session : LlamaSession) (store store' : host.Store) (disk : host.Disk) (c : Conversation L)
    (calls : List ClientCall) (results : List (Except ConversationError HandleReply))
    (ms : Nat → Nat)
    (hLoaded : host.ensureLoaded request.modelPath store = (.ok session, store'))
    (hSized : request.restoreFrom = none → request.nCtx ≠ 0)
    (hOpened : host.openInProcess session request disk = .ok (.ok c))
    (hRan : host.Ran c disk (calls.map (·.resolved host.settings request.modelPath)) results)
    (hRequest : host.serde.Sendable (Wire.clientMessage host.serde.floats)
      (.openConversation request))
    (hCalls : ∀ call ∈ calls,
      host.serde.Sendable (Wire.conversationRequest host.serde.floats) call.request)
    (hReplies : ∀ reply ∈ timedReplies ms
        (Backend.openReply request.tools c.supportsToolCalls :: results.map replyTo),
      host.serde.Sendable Wire.conversationResponse reply) :
    ∃ conversation : RampipedConversation,
      RampipedConversation.open_ (RampipedConversation.receive host.serde
        (host.linesBack ms store disk request calls).head?).toOption = .ok conversation ∧
      conversation.supportsToolCalls = (!request.tools.isEmpty && c.supportsToolCalls) ∧
      conversation.run host.serde calls (host.linesBack ms store disk request calls).tail =
        (results.map overWire, { conversation with turns := results.countP isTurn }) := by
  exact RampipedConversation.opened_run_ran
    (Host.linesBack_ran hLoaded hSized hOpened hRan hRequest hCalls hReplies) hRan hReplies

/-- A call through the trait leaves nothing out: a history through `ConversationHandle` comes
to the same on either side of the seam, whatever the model's settings are. -/
theorem seam_transparent {host : Host L} {request : OpenConversationRequest}
    {session : LlamaSession} {store store' : host.Store} {disk : host.Disk} {c : Conversation L}
    {calls : List HandleCall} {results : List (Except ConversationError HandleReply)}
    {ms : Nat → Nat} (hLoaded : host.ensureLoaded request.modelPath store = (.ok session, store'))
    (hSized : request.restoreFrom = none → request.nCtx ≠ 0)
    (hOpened : host.openInProcess session request disk = .ok (.ok c))
    (hRan : host.Ran c disk calls results)
    (hRequest : host.serde.Sendable (Wire.clientMessage host.serde.floats)
      (.openConversation request))
    (hCalls : ∀ call ∈ calls,
      host.serde.Sendable (Wire.conversationRequest host.serde.floats) call.overWire.request)
    (hReplies : ∀ reply ∈ timedReplies ms
        (Backend.openReply request.tools c.supportsToolCalls :: results.map replyTo),
      host.serde.Sendable Wire.conversationResponse reply) :
    ∃ conversation : RampipedConversation,
      RampipedConversation.open_ (RampipedConversation.receive host.serde
        (host.linesBack ms store disk request (calls.map HandleCall.overWire)).head?).toOption =
          .ok conversation ∧
      conversation.run host.serde (calls.map HandleCall.overWire)
          (host.linesBack ms store disk request (calls.map HandleCall.overWire)).tail =
        (results.map overWire, { conversation with turns := results.countP isTurn }) := by
  -- what the daemon makes of the calls over the wire are the calls themselves
  have hSame : (calls.map HandleCall.overWire).map
      (·.resolved host.settings request.modelPath) = calls := by
    rw [List.map_map]
    exact List.map_id'' (HandleCall.resolved_overWire host.settings request.modelPath) calls
  have hWired : ∀ call ∈ calls.map HandleCall.overWire,
      host.serde.Sendable (Wire.conversationRequest host.serde.floats) call.request := by
    intro call hCall
    obtain ⟨own, hOwn, rfl⟩ := List.mem_map.mp hCall
    exact hCalls own hOwn
  have hRan' : host.Ran c disk ((calls.map HandleCall.overWire).map
      (·.resolved host.settings request.modelPath)) results := by
    rw [hSame]
    exact hRan
  obtain ⟨conversation, hOpen, -, hRun⟩ := RampipedConversation.opened_run_ran
    (Host.linesBack_ran hLoaded hSized hOpened hRan' hRequest hWired hReplies) hRan' hReplies
  exact ⟨conversation, hOpen, hRun⟩

/-! ## Files -/

/-- The files of a snapshot are two, and read as they were last written. -/
structure Host.Keeps (host : Host L) (files : SnapshotRef) : Prop where
  state : ∀ {state disk disk'}, host.writeState files.statePath state disk = (.ok (), disk') →
    host.readState files.statePath disk' = .ok state
  sidecar : ∀ {text disk disk'}, host.write files.metaPath text disk = (.ok (), disk') →
    host.readSidecar files.metaPath disk' = .text text
  apart : ∀ {text disk disk'}, host.write files.metaPath text disk = (.ok (), disk') →
    host.readState files.statePath disk' = host.readState files.statePath disk

/-- A sidecar is read from its file as it was written. -/
structure Host.ReadsSidecar (host : Host L) (sidecar : ConversationSnapshotMeta) : Prop where
  valid : Wire.conversationSnapshotMeta.Valid sidecar
  parse : host.serde.parse (host.sidecarText sidecar) =
    .ok ((Wire.object Wire.conversationSnapshotMeta).encode sidecar)

/-- From the files of a save that succeeded, an open comes to what it comes to from the
snapshot itself. -/
theorem Host.openConversationFromState_saved {host : Host L} {c : Conversation L}
    {files : SnapshotRef} {disk disk' : host.Disk} (hKeeps : host.Keeps files)
    (hReads : host.ReadsSidecar c.sidecar)
    (hSave : host.saveState c files disk = (.ok (), disk')) (session : LlamaSession) :
    ∃ snapshot, c.saveState = .ok snapshot ∧
      host.openConversationFromState session files disk' =
        .ok (session.openConversationFromState snapshot) := by
  unfold Host.saveState at hSave
  cases hState : L.stateSaveFile c.ctx c.tokens with
  | error source =>
    rw [hState] at hSave
    cases hSave
  | ok state =>
    rw [hState] at hSave
    dsimp only at hSave
    rcases hFirst : host.writeState files.statePath state disk with ⟨source | _, between⟩
    · rw [hFirst] at hSave
      cases hSave
    rw [hFirst] at hSave
    dsimp only at hSave
    rcases hSecond : host.write files.metaPath (host.sidecarText c.sidecar) between with
      ⟨source | _, after⟩
    · rw [hSecond] at hSave
      cases hSave
    rw [hSecond] at hSave
    cases hSave
    -- both files are written, and the second not over the first
    refine ⟨{ state, sidecar := c.sidecar }, ?_, ?_⟩
    · unfold Conversation.saveState
      rw [hState]
      rfl
    · have hSidecar : host.serde.fromStr (Wire.object Wire.conversationSnapshotMeta)
          (host.sidecarText c.sidecar) = .ok c.sidecar := by
        unfold Serde.fromStr
        rw [hReads.parse]
        dsimp only
        rw [Codec.decode_encode _ hReads.valid]
      unfold Host.openConversationFromState
      rw [hKeeps.sidecar hSecond]
      dsimp only
      rw [hSidecar, hKeeps.apart hSecond, hKeeps.state hFirst]

/-- **A conversation goes on.** What a conversation was saved to in one connection another may
reopen, and it comes to what the conversation in process comes to that its snapshot opens. -/
theorem reopened_transparent (host : Host L) (request : OpenConversationRequest)
    (session : LlamaSession) (store store' : host.Store) (disk disk' : host.Disk)
    (saved c : Conversation L) (files : SnapshotRef) (snapshot : Snapshot L)
    (calls : List ClientCall) (results : List (Except ConversationError HandleReply))
    (ms : Nat → Nat) (hKeeps : host.Keeps files) (hReads : host.ReadsSidecar saved.sidecar)
    (hSave : host.saveState saved files disk = (.ok (), disk'))
    (hSnapshot : saved.saveState = .ok snapshot)
    (hReopen : session.openConversationFromState snapshot = .ok c)
    (hFrom : request.restoreFrom = some files)
    (hLoaded : host.ensureLoaded request.modelPath store = (.ok session, store'))
    (hRan : host.Ran c disk' (calls.map (·.resolved host.settings request.modelPath)) results)
    (hRequest : host.serde.Sendable (Wire.clientMessage host.serde.floats)
      (.openConversation request))
    (hCalls : ∀ call ∈ calls,
      host.serde.Sendable (Wire.conversationRequest host.serde.floats) call.request)
    (hReplies : ∀ reply ∈ timedReplies ms
        (Backend.openReply request.tools c.supportsToolCalls :: results.map replyTo),
      host.serde.Sendable Wire.conversationResponse reply) :
    ∃ conversation : RampipedConversation,
      RampipedConversation.open_ (RampipedConversation.receive host.serde
        (host.linesBack ms store disk' request calls).head?).toOption = .ok conversation ∧
      conversation.supportsToolCalls = (!request.tools.isEmpty && c.supportsToolCalls) ∧
      conversation.run host.serde calls (host.linesBack ms store disk' request calls).tail =
        (results.map overWire, { conversation with turns := results.countP isTurn }) := by
  have hOpened : host.openInProcess session request disk' = .ok (.ok c) := by
    obtain ⟨snapshot', hSnapshot', hFiles⟩ :=
      Host.openConversationFromState_saved hKeeps hReads hSave session
    cases hSnapshot.symm.trans hSnapshot'
    unfold Host.openInProcess
    rw [hFrom]
    dsimp only
    rw [hFiles, hReopen]
  have hSized : request.restoreFrom = none → request.nCtx ≠ 0 := by
    intro hNone
    rw [hFrom] at hNone
    cases hNone
  exact RampipedConversation.opened_run_ran
    (Host.linesBack_ran hLoaded hSized hOpened hRan hRequest hCalls hReplies) hRan hReplies

/-! ### A short life -/

/-- Files by their paths. -/
structure ShortDisk (L : Llama) where
  states : Path → Option L.StateFile
  sidecars : Path → Option Text

/-- A host whose model is always loaded and whose disk takes every file. -/
def shortHost (documents : List Json) : Host (Llama.scripted .silent) where
  serde := .reading documents
  settings := .empty
  prompting := {
    chatTemplate := .found
    found_of_text := fun _ => rfl
    newChatMessage := fun _ => .ok ()
    applyChatTemplate := fun _ => none }
  embedder := Embedder.poolless
  report _ := []
  Store := Unit
  Status := Unit
  ensureLoaded path _ := (.ok ⟨path⟩, ())
  recordOutcome _ _ _ := ()
  handleStatus _ := ()
  writesStatus _ := true
  Disk := ShortDisk (Llama.scripted .silent)
  writeState path state disk :=
    (.ok (), { disk with states := fun other => if other = path then some state else disk.states other })
  readState path disk :=
    match disk.states path with
    | some state => .ok state
    | none => .error "No such file or directory (os error 2)".toList
  write path text disk :=
    (.ok (), { disk with
      sidecars := fun other => if other = path then some text else disk.sidecars other })
  readSidecar path disk :=
    match disk.sidecars path with
    | some text => .text text
    | none => .failed "No such file or directory (os error 2)".toList

def emptyDisk : ShortDisk (Llama.scripted .silent) where
  states _ := none
  sidecars _ := none

/-- The short host's files read as they were written. -/
theorem shortHost_keeps (documents : List Json) (files : SnapshotRef) :
    (shortHost documents).Keeps files where
  state {state disk disk'} h := by
    cases h
    show (match if files.statePath = files.statePath then some state else disk.states files.statePath with
      | some state => Except.ok state
      | none => .error _) = .ok state
    rw [if_pos rfl]
  sidecar {text disk disk'} h := by
    cases h
    show (match if files.metaPath = files.metaPath then some text else disk.sidecars files.metaPath with
      | some text => SidecarRead.text text
      | none => .failed _) = .text text
    rw [if_pos rfl]
  apart h := by
    cases h
    rfl

/-- The open of a conversation in 64 tokens. -/
def shortOpen (restoreFrom : Option SnapshotRef) : OpenConversationRequest where
  modelPath := Script.session.path
  nCtx := 64
  overflow := .dropOldestTurns
  restoreFrom := restoreFrom
  system := none
  tools := []
  toolFormat := none

/-- A greeting, sampled as the model is configured. -/
def shortCall : ClientCall := .send "hi".toList (some 4) none none none none

/-- What the model says to it: nothing. -/
def shortResult (committedTokens : Nat) (formattedPrompt : Text) : GenerationResult where
  text := []
  tokensGenerated := 0
  committedTokens := committedTokens
  contextSize := 64
  formattedPrompt := formattedPrompt
  toolCalls := []
  truncatedToolCall := false

/-- The silent model says nothing, whatever was asked. -/
theorem eq_shortResult {r : GenerationResult} {committedTokens : Nat} {formattedPrompt : Text}
    (hText : r.text = [] ∧ r.tokensGenerated = 0 ∧ r.contextSize = 64)
    (hCommitted : r.committedTokens = committedTokens)
    (hPrompt : r.formattedPrompt = formattedPrompt)
    (hCalls : r.toolCalls.length = 0 ∧ r.truncatedToolCall = false) :
    r = shortResult committedTokens formattedPrompt := by
  obtain ⟨text, tokensGenerated, committed, contextSize, prompt, toolCalls, truncated⟩ := r
  obtain ⟨rfl, rfl, rfl⟩ := hText
  obtain ⟨hNone, rfl⟩ := hCalls
  cases List.length_eq_zero_iff.mp hNone
  subst hCommitted hPrompt
  rfl

/-- A history of one greeting. -/
theorem short_ran {documents : List Json} {c : Conversation (Llama.scripted .silent)}
    {disk : ShortDisk (Llama.scripted .silent)} {result : GenerationResult}
    (hCall : (c.call (Script.say "hi" 4)).1 = .ok result) :
    (shortHost documents).Ran c disk ([shortCall].map (·.resolved .empty Script.session.path))
      [.ok (.turn result)] := by
  have hStep : (shortHost documents).takeTurn c disk (Script.say "hi" 4) =
      some (.ok (.turn result), c.after (Script.say "hi" 4), disk) := by
    unfold Host.takeTurn
    rw [show c.call (Script.say "hi" 4) = (.ok result, c.after (Script.say "hi" 4)) from
      Prod.ext hCall rfl]
    rfl
  exact .returned hStep (by simp) .done

/-! #### The first connection -/

def firstResult : GenerationResult := shortResult 21 "<user>hi\n<assistant>".toList

/-- The documents of the connection. -/
def firstDocuments : List Json :=
  [(Wire.clientMessage .whole).encode (.openConversation (shortOpen none)),
    (Wire.conversationRequest .whole).encode shortCall.request,
    Wire.conversationResponse.encode .opened,
    Wire.conversationResponse.encode (.turn { firstResult with timeToFirstTokenMs := 5 })]

/-- The first turn goes well. -/
theorem first_isOk : (Conversation.fresh.call (Script.say "hi" 4)).1.isOk = true := by decide

set_option maxRecDepth 4096 in
/-- And this is what it comes to. -/
theorem first_ok : (Conversation.fresh.call (Script.say "hi" 4)).1 = .ok firstResult :=
  (Outcome.eq_ok_get _ first_isOk).trans (congrArg _ (eq_shortResult
    ⟨by decide, by decide, by decide⟩ (by decide) (by decide) ⟨by decide, by decide⟩))

set_option maxRecDepth 4096 in
/-- All that passes over the first connection is read back. -/
theorem first_sendable :
    (Serde.reading firstDocuments).Sendable (Wire.clientMessage .whole)
        (.openConversation (shortOpen none)) ∧
      (Serde.reading firstDocuments).Sendable (Wire.conversationRequest .whole)
        shortCall.request ∧
      (Serde.reading firstDocuments).Sendable Wire.conversationResponse .opened ∧
      (Serde.reading firstDocuments).Sendable Wire.conversationResponse
        (.turn { firstResult with timeToFirstTokenMs := 5 }) := by
  have hOpen : (Wire.clientMessage .whole).decode ((Wire.clientMessage .whole).encode
    (.openConversation (shortOpen none))) = some (.openConversation (shortOpen none)) := rfl
  have hCall : (Wire.conversationRequest .whole).decode
    ((Wire.conversationRequest .whole).encode shortCall.request) = some shortCall.request := rfl
  have hOpened : Wire.conversationResponse.decode (Wire.conversationResponse.encode .opened) =
    some .opened := rfl
  have hTurn : Wire.conversationResponse.decode (Wire.conversationResponse.encode
    (.turn { firstResult with timeToFirstTokenMs := 5 })) =
      some (.turn { firstResult with timeToFirstTokenMs := 5 }) := rfl
  exact ⟨⟨Codec.valid_of_decode _ hOpen, rfl, by decide, by decide⟩,
    ⟨Codec.valid_of_decode _ hCall, rfl, by decide, by decide⟩,
    ⟨Codec.valid_of_decode _ hOpened, rfl, by decide, by decide⟩,
    ⟨Codec.valid_of_decode _ hTurn, rfl, by decide, by decide⟩⟩

/-- A conversation is opened, greeted, and says nothing. -/
theorem handle_transparent_greeting : ∃ conversation : RampipedConversation,
    RampipedConversation.open_ (RampipedConversation.receive (.reading firstDocuments)
      ((shortHost firstDocuments).linesBack (fun _ => 5) () emptyDisk (shortOpen none)
        [shortCall]).head?).toOption = .ok conversation ∧
    conversation.supportsToolCalls = false ∧
    conversation.run (.reading firstDocuments) [shortCall]
        ((shortHost firstDocuments).linesBack (fun _ => 5) () emptyDisk (shortOpen none)
          [shortCall]).tail =
      ([.ok (.turn firstResult)], { conversation with turns := 1 }) :=
  handle_transparent (shortHost firstDocuments) (shortOpen none) Script.session () () emptyDisk
    Conversation.fresh [shortCall] [.ok (.turn firstResult)] (fun _ => 5) rfl
    (fun _ => by decide) (congrArg Except.ok (Outcome.eq_ok_get _ _)) (short_ran first_ok)
    first_sendable.1 (List.forall_mem_singleton.mpr first_sendable.2.1)
    (List.forall_mem_cons.mpr ⟨first_sendable.2.2.1,
      List.forall_mem_singleton.mpr first_sendable.2.2.2⟩)

/-! #### The second connection -/

def shortFiles : SnapshotRef := ⟨"c.state".toList, "c.json".toList⟩

def secondResult : GenerationResult := shortResult 42 "\n<user>hi\n<assistant>".toList

def shortSidecar : ConversationSnapshotMeta where
  modelPath := Script.session.path
  nCtx := 64
  overflow := .dropOldestTurns
  turns := [⟨.user, 0, 21⟩, ⟨.assistant, 21, 21⟩]
  tools := []
  toolFormat := none

/-- The sidecar that the first connection leaves behind. -/
theorem greeted_sidecar : Conversation.greeted.sidecar = shortSidecar := by
  have hEq : ∀ sidecar : ConversationSnapshotMeta, sidecar.modelPath = Script.session.path →
      sidecar.nCtx = 64 → sidecar.overflow = .dropOldestTurns →
      sidecar.turns = [⟨.user, 0, 21⟩, ⟨.assistant, 21, 21⟩] → sidecar.tools.length = 0 →
      sidecar.toolFormat = none → sidecar = shortSidecar := by
    rintro ⟨modelPath, nCtx, overflow, turns, tools, toolFormat⟩ rfl rfl rfl rfl hTools rfl
    cases List.length_eq_zero_iff.mp hTools
    rfl
  exact hEq _ (by decide) (by decide) (by decide) (by decide) (by decide) (by decide)

/-- The sidecar in front of the documents of the connection. -/
def secondDocuments : List Json :=
  (Wire.object Wire.conversationSnapshotMeta).encode shortSidecar ::
    [(Wire.clientMessage .whole).encode (.openConversation (shortOpen (some shortFiles))),
      (Wire.conversationRequest .whole).encode shortCall.request,
      Wire.conversationResponse.encode .opened,
      Wire.conversationResponse.encode (.turn { secondResult with timeToFirstTokenMs := 5 })]

/-- The greeted conversation saves. -/
theorem greeted_isSaved : Conversation.greeted.saveState.isOk = true := by decide

def shortSnapshot : Snapshot (Llama.scripted .silent) :=
  Conversation.greeted.saveState.get greeted_isSaved

/-- Its snapshot opens. -/
theorem shortSnapshot_opens :
    (Script.session.openConversationFromState shortSnapshot).isOk = true := by decide

/-- The conversation as it is reopened. -/
def regreeted : Conversation (Llama.scripted .silent) :=
  (Script.session.openConversationFromState shortSnapshot).get shortSnapshot_opens

/-- The turn behind the reopening goes well. -/
theorem second_isOk : (regreeted.call (Script.say "hi" 4)).1.isOk = true := by decide

set_option maxRecDepth 4096 in
/-- And this is what it comes to. -/
theorem second_ok : (regreeted.call (Script.say "hi" 4)).1 = .ok secondResult :=
  (Outcome.eq_ok_get _ second_isOk).trans (congrArg _ (eq_shortResult
    ⟨by decide, by decide, by decide⟩ (by decide) (by decide) ⟨by decide, by decide⟩))

/-- What is on the disk once the conversation was saved. -/
def shortDisk : ShortDisk (Llama.scripted .silent) :=
  ((shortHost secondDocuments).saveState Conversation.greeted shortFiles emptyDisk).2

/-- The first of the documents is read. -/
theorem reading_head (json : Json) (rest : List Json) :
    (Serde.reading (json :: rest)).parse json.compact = .ok json := by
  have hHead : (json :: rest).find? (fun other => other.compact == json.compact) = some json :=
    List.find?_cons_of_pos (beq_self_eq_true _)
  unfold Serde.reading
  dsimp only
  rw [hHead]

set_option maxRecDepth 4096 in
/-- The sidecar reads back. -/
theorem second_readsSidecar :
    (shortHost secondDocuments).ReadsSidecar Conversation.greeted.sidecar := by
  have hRead : (Wire.object Wire.conversationSnapshotMeta).decode
    ((Wire.object Wire.conversationSnapshotMeta).encode shortSidecar) = some shortSidecar := rfl
  rw [greeted_sidecar]
  exact ⟨(Wire.object Wire.conversationSnapshotMeta).valid_of_decode hRead,
    reading_head ((Wire.object Wire.conversationSnapshotMeta).encode shortSidecar) _⟩

set_option maxRecDepth 4096 in
/-- So does all that passes over the second connection. -/
theorem second_sendable :
    (Serde.reading secondDocuments).Sendable (Wire.clientMessage .whole)
        (.openConversation (shortOpen (some shortFiles))) ∧
      (Serde.reading secondDocuments).Sendable (Wire.conversationRequest .whole)
        shortCall.request ∧
      (Serde.reading secondDocuments).Sendable Wire.conversationResponse .opened ∧
      (Serde.reading secondDocuments).Sendable Wire.conversationResponse
        (.turn { secondResult with timeToFirstTokenMs := 5 }) := by
  have hOpen : (Wire.clientMessage .whole).decode ((Wire.clientMessage .whole).encode
    (.openConversation (shortOpen (some shortFiles)))) =
      some (.openConversation (shortOpen (some shortFiles))) := rfl
  have hCall : (Wire.conversationRequest .whole).decode
    ((Wire.conversationRequest .whole).encode shortCall.request) = some shortCall.request := rfl
  have hOpened : Wire.conversationResponse.decode (Wire.conversationResponse.encode .opened) =
    some .opened := rfl
  have hTurn : Wire.conversationResponse.decode (Wire.conversationResponse.encode
    (.turn { secondResult with timeToFirstTokenMs := 5 })) =
      some (.turn { secondResult with timeToFirstTokenMs := 5 }) := rfl
  exact ⟨⟨Codec.valid_of_decode _ hOpen, rfl, by decide, by decide⟩,
    ⟨Codec.valid_of_decode _ hCall, rfl, by decide, by decide⟩,
    ⟨Codec.valid_of_decode _ hOpened, rfl, by decide, by decide⟩,
    ⟨Codec.valid_of_decode _ hTurn, rfl, by decide, by decide⟩⟩

/-- Greeted once, saved, and greeted again over another connection. -/
theorem reopened_transparent_greeting : ∃ conversation : RampipedConversation,
    RampipedConversation.open_ (RampipedConversation.receive (.reading secondDocuments)
      ((shortHost secondDocuments).linesBack (fun _ => 5) () shortDisk
        (shortOpen (some shortFiles)) [shortCall]).head?).toOption = .ok conversation ∧
    conversation.supportsToolCalls = false ∧
    conversation.run (.reading secondDocuments) [shortCall]
        ((shortHost secondDocuments).linesBack (fun _ => 5) () shortDisk
          (shortOpen (some shortFiles)) [shortCall]).tail =
      ([.ok (.turn secondResult)], { conversation with turns := 1 }) :=
  reopened_transparent (shortHost secondDocuments) (shortOpen (some shortFiles)) Script.session ()
    () emptyDisk shortDisk Conversation.greeted regreeted shortFiles shortSnapshot [shortCall]
    [.ok (.turn secondResult)] (fun _ => 5) (shortHost_keeps _ _) second_readsSidecar rfl
    (Outcome.eq_ok_get _ _) (Outcome.eq_ok_get _ _) rfl rfl (short_ran second_ok)
    second_sendable.1 (List.forall_mem_singleton.mpr second_sendable.2.1)
    (List.forall_mem_cons.mpr ⟨second_sendable.2.2.1,
      List.forall_mem_singleton.mpr second_sendable.2.2.2⟩)

end Rampipe
