import Rampipe.Model.Wire

/-!
# Rampipe — what is written is read

A connection carries one JSON document a line. What one side writes the other reads, the
stream cut at its newlines and nothing else; and a peer of another version is read as far
as the two agree.

* `stream_received`  — both streams of a connection, cut into lines, are the messages
  that were written.
* `read_of_carries`  — a message is read from its members in any order, with unknown
  ones among them, and without those that may be left out.
-/

namespace Rampipe

open Doc Text

namespace Serde

variable {serde : Serde} {α : Type} {c : Codec Json α}

/-- Trimming takes the newline off a trimmed text. -/
theorem trim_newline {s : Text} (h : trim s = s) : trim (s ++ ['\n']) = s := by
  have hBlank : ¬ Visible ['\n'] := by decide
  by_cases hVisible : Visible s
  · rw [trim, trimStart_append hVisible, trimEnd_append_blank hBlank]
    exact h
  · -- a text of blanks that is trimmed already is empty
    have hNil : s = [] := by
      rw [← h, trim, trimStart_eq_nil_iff.mpr hVisible]
      rfl
    subst hNil
    decide

/-- One line is read as the message it was written for. -/
theorem ofLine_payload {a : α} (hValid : c.Valid a) (hReads : serde.Reads (c.encode a)) :
    serde.ofLine c (serde.payload c a) = .ok a := by
  unfold ofLine payload fromStr
  rw [trim_newline hReads.trim, hReads.parse]
  dsimp only
  rw [c.decode_encode hValid]

/-- A stream of messages is cut into their lines. -/
theorem lines_payloads {messages : List α}
    (hReads : ∀ message ∈ messages, serde.Reads (c.encode message)) :
    lines '\n' (messages.flatMap (serde.payload c)) = messages.map (serde.payload c) := by
  have hFrames : ∀ frame ∈ messages.map fun message => serde.toText (c.encode message),
      '\n' ∉ frame := by
    intro frame hFrame
    obtain ⟨message, hMessage, rfl⟩ := List.mem_map.mp hFrame
    exact (hReads message hMessage).line
  have hCut := lines_frames hFrames
  rw [List.flatMap_map, List.map_map] at hCut
  exact hCut

/-- So is every message of a stream. -/
theorem ofLine_payloads {messages : List α} (hValid : ∀ message ∈ messages, c.Valid message)
    (hReads : ∀ message ∈ messages, serde.Reads (c.encode message)) :
    (messages.map (serde.payload c)).map (serde.ofLine c) = messages.map .ok := by
  rw [List.map_map]
  refine List.map_congr_left fun message hMessage => ?_
  exact ofLine_payload (hValid message hMessage) (hReads message hMessage)

end Serde

/-- The value can be sent: it is one of its types, and its document is read back. -/
def Serde.Sendable {α : Type} (serde : Serde) (c : Codec Json α) (a : α) : Prop :=
  c.Valid a ∧ serde.Reads (c.encode a)

namespace Wire

/-- **What is written is received**, in both directions of a connection: the stream of a
client that opens with one message and goes on with requests, and the stream of replies. -/
theorem stream_received (serde : Serde) (message : ClientMessage)
    (requests : List ConversationRequest) (replies : List TimedConversationResponse)
    (hMessage : serde.Sendable (clientMessage serde.floats) message)
    (hRequests : ∀ request ∈ requests,
      serde.Sendable (conversationRequest serde.floats) request)
    (hReplies : ∀ reply ∈ replies, serde.Sendable conversationResponse reply) :
    (∃ first rest,
      lines '\n' (serde.payload (clientMessage serde.floats) message ++
        requests.flatMap (serde.payload (conversationRequest serde.floats))) = first :: rest ∧
      serde.ofLine (clientMessage serde.floats) first = .ok message ∧
      rest.map (serde.ofLine (conversationRequest serde.floats)) = requests.map .ok) ∧
    (lines '\n' (replies.flatMap (serde.payload conversationResponse))).map
      (serde.ofLine conversationResponse) = replies.map .ok := by
  constructor
  · refine ⟨_, _, ?_, Serde.ofLine_payload hMessage.1 hMessage.2,
      Serde.ofLine_payloads (fun request h => (hRequests request h).1)
        fun request h => (hRequests request h).2⟩
    -- the opening line is cut off in front of the lines of the requests
    rw [← Serde.lines_payloads fun request h => (hRequests request h).2]
    unfold Serde.payload
    rw [List.append_assoc, List.singleton_append, lines_frame hMessage.2.line]
  · rw [Serde.lines_payloads fun reply h => (hReplies reply h).2]
    exact Serde.ofLine_payloads (fun reply h => (hReplies reply h).1)
      fun reply h => (hReplies reply h).2

/-! ### A short connection -/

/-- A plain conversation with a model, of 8192 tokens. -/
def shortOpen : ClientMessage :=
  .openConversation {
    modelPath := "coder.gguf".toList
    nCtx := 8192
    overflow := .dropOldestTurns
    restoreFrom := none
    system := none
    tools := []
    toolFormat := none }

/-- A greedy turn that asks for sixteen tokens. -/
def greedyTurn : ConversationRequest :=
  .turn {
    toolResults := none
    message := "hi".toList
    maxNewTokens := some 16
    sampling := some (.greedy {})
    grammar := none
    assistantPrefill := none
    grammarCompletion := none }

def greedyReply : TimedConversationResponse :=
  .turn {
    text := "hello".toList
    tokensGenerated := 2
    committedTokens := 9
    contextSize := 8192
    formattedPrompt := "hi".toList
    toolCalls := []
    truncatedToolCall := false
    timeToFirstTokenMs := 12 }

/-- The documents of the connection. -/
def shortDocuments : List Json :=
  [(clientMessage .whole).encode shortOpen, (conversationRequest .whole).encode greedyTurn,
    conversationResponse.encode .opened, conversationResponse.encode greedyReply]

def shortSerde : Serde := .reading shortDocuments

set_option maxRecDepth 4096 in
/-- The open can be sent. -/
theorem sendable_shortOpen : shortSerde.Sendable (clientMessage .whole) shortOpen := by
  have hRead : (clientMessage .whole).decode ((clientMessage .whole).encode shortOpen) =
    some shortOpen := rfl
  exact ⟨(clientMessage .whole).valid_of_decode hRead, rfl, by decide, by decide⟩

set_option maxRecDepth 4096 in
/-- So can the turn. -/
theorem sendable_greedyTurn :
    shortSerde.Sendable (conversationRequest .whole) greedyTurn := by
  have hRead : (conversationRequest .whole).decode
    ((conversationRequest .whole).encode greedyTurn) = some greedyTurn := rfl
  exact ⟨(conversationRequest .whole).valid_of_decode hRead, rfl, by decide, by decide⟩

set_option maxRecDepth 4096 in
/-- So can the reply to the open. -/
theorem sendable_opened : shortSerde.Sendable conversationResponse .opened := by
  have hRead : conversationResponse.decode (conversationResponse.encode .opened) =
    some .opened := rfl
  exact ⟨conversationResponse.valid_of_decode hRead, rfl, by decide, by decide⟩

set_option maxRecDepth 4096 in
/-- And the one to the turn. -/
theorem sendable_greedyReply : shortSerde.Sendable conversationResponse greedyReply := by
  have hRead : conversationResponse.decode (conversationResponse.encode greedyReply) =
    some greedyReply := rfl
  exact ⟨conversationResponse.valid_of_decode hRead, rfl, by decide, by decide⟩

/-- A conversation is opened, and two greedy turns are sent behind one another. -/
theorem stream_received_short :
    (∃ first rest,
      lines '\n' (shortSerde.payload (clientMessage .whole) shortOpen ++
        [greedyTurn, greedyTurn].flatMap (shortSerde.payload (conversationRequest .whole))) =
          first :: rest ∧
      shortSerde.ofLine (clientMessage .whole) first = .ok shortOpen ∧
      rest.map (shortSerde.ofLine (conversationRequest .whole)) =
        [greedyTurn, greedyTurn].map .ok) ∧
    (lines '\n' ([.opened, greedyReply, greedyReply].flatMap
        (shortSerde.payload conversationResponse))).map
      (shortSerde.ofLine conversationResponse) = [.opened, greedyReply, greedyReply].map .ok :=
  stream_received shortSerde shortOpen [greedyTurn, greedyTurn]
    [.opened, greedyReply, greedyReply] sendable_shortOpen
    (List.forall_mem_cons.mpr
      ⟨sendable_greedyTurn, List.forall_mem_singleton.mpr sendable_greedyTurn⟩)
    (List.forall_mem_cons.mpr ⟨sendable_opened, List.forall_mem_cons.mpr
      ⟨sendable_greedyReply, List.forall_mem_singleton.mpr sendable_greedyReply⟩⟩)

/-! ## Peers of other versions -/

/-- A document of an older peer has not all members, one of a newer peer has members that
are not known here, and either may have them in another order. -/
def SentAs {α : Type} (r : Record Text Json α) (omits : Text → Prop) (a : α)
    (members : List (Text × Json)) : Prop :=
  ∃ kept unknown, kept.Sublist (r.encode a) ∧
    (∀ member ∈ r.encode a, member ∉ kept → omits member.1) ∧
    (∀ member ∈ unknown, member.1 ∉ r.keys) ∧ members.Perm (kept ++ unknown)

/-- It is read as the value it was sent for. -/
theorem SentAs.decode {α : Type} {r : Record Text Json α} {omits : Text → Prop} {a : α}
    {members : List (Text × Json)} (h : SentAs r omits a members) (hValid : r.Valid a)
    (hOmits : ∀ key, omits key → r.Omittable a key) : r.decode members = some a := by
  obtain ⟨kept, unknown, hKept, hLeftOut, hUnknown, hPerm⟩ := h
  exact r.decode_of_carries hValid (r.carries_of_perm hKept
    (fun member hMember hOut => hOmits _ (hLeftOut member hMember hOut)) hUnknown hPerm)

/-- What may be missing in a request to open a conversation. -/
def openOmits (request : OpenConversationRequest) (key : Text) : Prop :=
  key = "restore_from".toList ∧ request.restoreFrom = none ∨
  key = "system".toList ∧ request.system = none ∨
  key = "tools".toList ∧ request.tools = [] ∨
  key = "tool_format".toList ∧ request.toolFormat = none

/-- An open without them is read with their defaults. -/
theorem omittable_open {request : OpenConversationRequest} {key : Text}
    (h : openOmits request key) : openConversationRequest.Omittable request key := by
  -- the record nests to the left, so the last member is the outermost alternative
  rcases h with ⟨rfl, h⟩ | ⟨rfl, h⟩ | ⟨rfl, h⟩ | ⟨rfl, h⟩
  · exact .inl (.inl (.inl (.inr ⟨rfl, congrArg some h.symm⟩)))
  · exact .inl (.inl (.inr ⟨rfl, congrArg some h.symm⟩))
  · exact .inl (.inr ⟨rfl, congrArg some h.symm⟩)
  · exact .inr ⟨rfl, congrArg some h.symm⟩

/-- What may be missing in a turn. -/
def turnOmits (turn : ConversationTurnRequest) (key : Text) : Prop :=
  key = "tool_results".toList ∧ turn.toolResults = none ∨
  key = "max_new_tokens".toList ∧ turn.maxNewTokens = none ∨
  key = "sampling".toList ∧ turn.sampling = none ∨
  key = "grammar".toList ∧ turn.grammar = none ∨
  key = "assistant_prefill".toList ∧ turn.assistantPrefill = none ∨
  key = "grammar_completion".toList ∧ turn.grammarCompletion = none

/-- So is a turn. -/
theorem omittable_turn (floats : Floats) {turn : ConversationTurnRequest} {key : Text}
    (h : turnOmits turn key) : (conversationTurnRequest floats).Omittable turn key := by
  rcases h with ⟨rfl, h⟩ | ⟨rfl, h⟩ | ⟨rfl, h⟩ | ⟨rfl, h⟩ | ⟨rfl, h⟩ | ⟨rfl, h⟩
  · exact .inl (.inl (.inl (.inl (.inl (.inl ⟨rfl, congrArg some h.symm⟩)))))
  · exact .inl (.inl (.inl (.inl (.inr ⟨rfl, congrArg some h.symm⟩))))
  · exact .inl (.inl (.inl (.inr ⟨rfl, congrArg some h.symm⟩)))
  · exact .inl (.inl (.inr ⟨rfl, congrArg some h.symm⟩))
  · exact .inl (.inr ⟨rfl, congrArg some h.symm⟩)
  · exact .inr ⟨rfl, congrArg some h.symm⟩

/-- What may be missing in the reply to a turn. -/
def replyOmits (outcome : GenerateOutcome) (key : Text) : Prop :=
  key = "committed_tokens".toList ∧ outcome.committedTokens = 0 ∨
  key = "context_size".toList ∧ outcome.contextSize = 0 ∨
  key = "tool_calls".toList ∧ outcome.toolCalls = [] ∨
  key = "truncated_tool_call".toList ∧ outcome.truncatedToolCall = false

/-- So is a reply. -/
theorem omittable_reply {outcome : GenerateOutcome} {key : Text} (h : replyOmits outcome key) :
    turnOutcome.Omittable outcome key := by
  rcases h with ⟨rfl, h⟩ | ⟨rfl, h⟩ | ⟨rfl, h⟩ | ⟨rfl, h⟩
  · exact .inl (.inl (.inl (.inl (.inl (.inr ⟨rfl, congrArg some h.symm⟩)))))
  · exact .inl (.inl (.inl (.inl (.inr ⟨rfl, congrArg some h.symm⟩))))
  · exact .inl (.inl (.inr ⟨rfl, congrArg some h.symm⟩))
  · exact .inl (.inr ⟨rfl, congrArg some h.symm⟩)

/-- What may be missing in a sidecar. -/
def sidecarOmits (sidecar : ConversationSnapshotMeta) (key : Text) : Prop :=
  key = "tools".toList ∧ sidecar.tools = [] ∨
  key = "tool_format".toList ∧ sidecar.toolFormat = none

/-- And so is a sidecar. -/
theorem omittable_sidecar {sidecar : ConversationSnapshotMeta} {key : Text}
    (h : sidecarOmits sidecar key) : conversationSnapshotMeta.Omittable sidecar key := by
  rcases h with ⟨rfl, h⟩ | ⟨rfl, h⟩
  · exact .inl (.inr ⟨rfl, congrArg some h.symm⟩)
  · exact .inr ⟨rfl, congrArg some h.symm⟩

/-- **Versions read each other.** An open, a turn, a reply and a sidecar are read from what
a peer of another version may send for them, as long as their own members are valid. -/
theorem versions_read (floats : Floats) :
    (∀ request members, openConversationRequest.Valid request →
      SentAs openConversationRequest (openOmits request) request members →
      (clientMessage floats).decode (.object [("OpenConversation".toList, .object members)]) =
        some (.openConversation request)) ∧
    (∀ turn members, (conversationTurnRequest floats).Valid turn →
      SentAs (conversationTurnRequest floats) (turnOmits turn) turn members →
      (conversationRequest floats).decode (.object [("Turn".toList, .object members)]) =
        some (.turn turn)) ∧
    (∀ outcome members, turnOutcome.Valid outcome →
      SentAs turnOutcome (replyOmits outcome) outcome members →
      conversationResponse.decode (.object [("Turn".toList, .object members)]) =
        some (.turn outcome)) ∧
    ∀ sidecar members, conversationSnapshotMeta.Valid sidecar →
      SentAs conversationSnapshotMeta (sidecarOmits sidecar) sidecar members →
      (object conversationSnapshotMeta).decode (.object members) = some sidecar := by
  refine ⟨fun request members hValid hSent => ?_, fun turn members hValid hSent => ?_,
    fun outcome members hValid hSent => ?_, fun sidecar members hValid hSent => ?_⟩
  · have hRead := hSent.decode hValid fun _ => omittable_open
    exact congrArg (Option.map _) (Tagged.decode_left (Tagged.decode_left
      (Tagged.decode_right (Tagged.decode_newtype hRead))))
  · have hRead := hSent.decode hValid fun _ => omittable_turn floats
    exact congrArg (Option.map _) (Tagged.decode_left (Tagged.decode_newtype hRead))
  · have hRead := hSent.decode hValid fun _ => omittable_reply
    exact congrArg (Option.map _) (Tagged.decode_left (Tagged.decode_left
      (Tagged.decode_right (Tagged.decode_newtype hRead))))
  · exact hSent.decode hValid fun _ => omittable_sidecar

/-- A turn of which only the message is told. -/
def bareTurn : ConversationTurnRequest where
  toolResults := none
  message := "hi".toList
  maxNewTokens := none
  sampling := none
  grammar := none
  assistantPrefill := none
  grammarCompletion := none

/-- Its message alone, behind a member that is not known. -/
theorem versions_read_bare :
    (conversationRequest .whole).decode (.object [("Turn".toList, .object
      [("later".toList, .bool true), ("message".toList, .string "hi".toList)])]) =
      some (.turn bareTurn) := by
  have hEncode : (conversationTurnRequest .whole).encode bareTurn =
      [("message".toList, .string "hi".toList), ("max_new_tokens".toList, .null),
        ("sampling".toList, .null), ("grammar".toList, .null),
        ("assistant_prefill".toList, .null), ("grammar_completion".toList, .null)] := rfl
  have hRead : (conversationTurnRequest .whole).decode
    ((conversationTurnRequest .whole).encode bareTurn) = some bareTurn := rfl
  refine (versions_read .whole).2.1 bareTurn _
    ((conversationTurnRequest .whole).valid_of_decode hRead)
    ⟨[("message".toList, .string "hi".toList)], [("later".toList, .bool true)], ?_, ?_, ?_,
      List.Perm.swap _ _ _⟩
  · rw [hEncode]
    exact .cons_cons _ (List.nil_sublist _)
  · rw [hEncode]
    simp [turnOmits, bareTurn]
  · intro member hMember
    rw [List.mem_singleton.mp hMember]
    decide

end Wire

end Rampipe
