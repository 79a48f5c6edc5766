import Rampipe.Model.Scripted

/-!
# Rampipe — what the scripted daemon counts

The script's turns are replayed in order, over all connections, and the transcript has an
entry for every open that is accepted and every turn that is asked for. The counter has
gone on before it is known whether the script has a turn left, so that it counts the
turns asked for: these are the turns consumed as long as no client asks for more than
there are.

* `Served`                — what a stretch of serving adds to the daemon.
* `converse_served`       — the turns of one connection.
* `scripted_replays_iff`  — all connections, and when the counter is right.
-/

namespace Rampipe.Scripted

open Text

variable (codec : Codec) (script : Script)

/-! ## What was asked -/

/-- The turn a line asks for. -/
def requestedTurn : Line → Option ConversationTurnRequest
  | .malformed => none
  | .text line =>
    if (trim line).isEmpty then none
    else
      match codec.decodeRequest (trim line) with
      | some (.turn turn) => some turn
      | _ => none

/-- The open a connection's first line asks for. -/
def requestedOpen : Line → Option OpenConversationRequest
  | .malformed => none
  | .text line =>
    if (trim line).isEmpty then none
    else
      match codec.decodeMessage (trim line) with
      | some (.openConversation request) => some request
      | _ => none

/-- A turn that was asked for, the reply to it, and what comes behind it on its
connection. -/
structure Asked where
  turn : ConversationTurnRequest
  reply : Option ConversationResponse
  rest : List Exchange

/-- The turns of an open conversation. -/
def turnsIn : List Exchange → List Asked
  | [] => []
  | exchange :: rest =>
    match requestedTurn codec exchange.line with
    | some turn => ⟨turn, exchange.reply, rest⟩ :: turnsIn rest
    | none => turnsIn rest

/-- The turns of a connection, behind its first line. -/
def askedIn (log : List Exchange) : List Asked := turnsIn codec log.tail

/-- What a connection says: its open, and its turns. -/
def saidIn (log : List Exchange) : List Said :=
  ((log.head?.bind fun exchange => requestedOpen codec exchange.line).map saidOpened).toList ++
    (askedIn codec log).map fun asked => saidTurn asked.turn

/-- The reply is the one the script has for turn `k`; behind the script's end it is an
error, and the connection is over. -/
def Answered (k : Nat) (asked : Asked) : Prop :=
  match script.turns[k]? with
  | some turn => ∃ result, asked.reply = some (.turn result) ∧ result.text = turn.text ∧
      result.toolCalls = turn.toolCalls ∧ result.truncatedToolCall = turn.truncatedToolCall
  | none => (∃ message, asked.reply = some (.err message)) ∧ asked.rest = []

def Exchange.isTurn (exchange : Exchange) : Bool :=
  match exchange.reply with
  | some (.turn _) => true
  | _ => false

/-- The turns a client would ask for if the script had no end: those before it goes away,
sends something else, or takes no more replies. -/
def offered (writes : Nat) : List Line → Nat
  | [] => 0
  | .malformed :: _ => 0
  | .text line :: lines =>
    if (trim line).isEmpty then offered writes lines
    else
      match codec.decodeRequest (trim line) with
      | some (.turn _) => if writes = 0 then 1 else offered (writes - 1) lines + 1
      | _ => 0

/-- The same of a whole connection. -/
def Client.offered (client : Client) : Nat :=
  if ¬ client.clones then 0
  else
    match client.lines with
    | [] => 0
    | line :: lines =>
      match requestedOpen codec line with
      | some _ => if client.writes = 0 then 0 else Scripted.offered codec (client.writes - 1) lines
      | none => 0

/-! ## Stretches of serving -/

/-- What a stretch adds: the turns asked for, each with its answer, what was said, the
turns replied, and whether the script lasted for what was offered. -/
structure Served (before after : ScriptedDaemon) (asked : List Asked) (said : List Said)
    (replies offered : Nat) : Prop where
  transcript : after.transcript = before.transcript ++ said
  served : after.served = before.served + asked.length
  answered : ∀ k a, asked[k]? = some a → Answered script (before.served + k) a
  replies : replies + min before.served script.turns.length =
    min after.served script.turns.length
  lasts : before.served + offered ≤ script.turns.length → after.served = before.served + offered
  ends : script.turns.length < before.served + offered → script.turns.length < after.served

variable {codec script} {before after : ScriptedDaemon}

theorem answered_singleton {k : Nat} {asked : Asked} (h : Answered script k asked) (i : Nat)
    (a : Asked) (ha : [asked][i]? = some a) : Answered script (k + i) a := by
  match i, ha with
  | 0, ha =>
    cases ha
    exact h

namespace Served

/-- Nothing was asked for. -/
theorem nothing (before : ScriptedDaemon) : Served script before before [] [] 0 0 where
  transcript := (List.append_nil _).symm
  served := rfl
  answered k a h := by cases h
  replies := Nat.zero_add _
  lasts _ := rfl
  ends h := h

/-- A turn the script has. -/
theorem turn {asked : Asked} {scripted : Turn} (hScripted : script.turns[before.served]? = some scripted)
    (hAnswered : Answered script before.served asked) (said : Said) :
    Served script before { before.record said with served := before.served + 1 } [asked] [said] 1 1 := by
  have hInside := (List.getElem?_eq_some_iff.mp hScripted).1
  refine ⟨rfl, rfl, ?_, ?_, fun _ => rfl, ?_⟩
  · exact answered_singleton hAnswered
  · dsimp only
    omega
  · dsimp only
    omega

/-- A turn it does not have: whatever else was offered is not asked for. -/
theorem ranOut {asked : Asked} (hNone : script.turns[before.served]? = none)
    (hAnswered : Answered script before.served asked) (said : Said)
    (offered : Nat) (hOffered : 0 < offered) :
    Served script before { before.record said with served := before.served + 1 } [asked] [said] 0
      offered := by
  rw [List.getElem?_eq_none_iff] at hNone
  refine ⟨rfl, rfl, ?_, ?_, ?_, ?_⟩
  · exact answered_singleton hAnswered
  · dsimp only
    omega
  · intro hLasts
    omega
  · intro _
    dsimp only
    omega

variable (script) in
/-- Something is said, and no turn is asked for. -/
theorem record (before : ScriptedDaemon) (said : Said) :
    Served script before (before.record said) [] [said] 0 0 where
  transcript := rfl
  served := rfl
  answered k a h := by cases h
  replies := Nat.zero_add _
  lasts _ := rfl
  ends h := h

/-- One stretch after the other. -/
theorem append {middle : ScriptedDaemon} {asked asked' : List Asked} {said said' : List Said}
    {replies replies' offered offered' : Nat}
    (h : Served script before middle asked said replies offered)
    (h' : Served script middle after asked' said' replies' offered') :
    Served script before after (asked ++ asked') (said ++ said') (replies + replies')
      (offered + offered') := by
  have hServed := h.served
  have hServed' := h'.served
  have hReplies := h.replies
  have hReplies' := h'.replies
  have hLasts := h.lasts
  have hLasts' := h'.lasts
  have hEnds := h.ends
  have hEnds' := h'.ends
  refine ⟨?_, ?_, ?_, by omega, by omega, ?_⟩
  · rw [h'.transcript, h.transcript, List.append_assoc]
  · rw [List.length_append]
    omega
  · intro k a ha
    rcases Nat.lt_or_ge k asked.length with hk | hk
    · rw [List.getElem?_append_left hk] at ha
      exact h.answered k a ha
    · rw [List.getElem?_append_right hk] at ha
      have hAnswered := h'.answered _ a ha
      rwa [hServed, show before.served + asked.length + (k - asked.length) = before.served + k by
        omega] at hAnswered
  · intro hBeyond
    -- the script ended in the first stretch, or lasted for it
    rcases Nat.lt_or_ge script.turns.length (before.served + offered) with hEnded | hLasted
    · have hBehind := hEnds hEnded
      omega
    · have hMiddle := hLasts hLasted
      exact hEnds' (by omega)

end Served

/-! ## Connections -/

/-- The script's reply is the turn, verbatim. -/
theorem answered_scripted {k : Nat} {scripted : Turn} (hScripted : script.turns[k]? = some scripted)
    (turn : ConversationTurnRequest) (committed : Nat) (rest : List Exchange) :
    Answered script k ⟨turn, some (.turn (scriptedReply script scripted committed).1), rest⟩ := by
  unfold Answered
  rw [hScripted]
  exact ⟨_, rfl, rfl, rfl, rfl⟩

theorem answered_ranOut {k : Nat} (hNone : script.turns[k]? = none)
    (turn : ConversationTurnRequest) :
    Answered script k ⟨turn, some (ranOut script k), []⟩ := by
  unfold Answered
  rw [hNone]
  exact ⟨⟨_, rfl⟩, rfl⟩

theorem turnsIn_turn {exchange : Exchange} {turn : ConversationTurnRequest}
    (h : requestedTurn codec exchange.line = some turn) (rest : List Exchange) :
    turnsIn codec (exchange :: rest) = ⟨turn, exchange.reply, rest⟩ :: turnsIn codec rest := by
  rw [turnsIn, h]

theorem turnsIn_other {exchange : Exchange} (h : requestedTurn codec exchange.line = none)
    (rest : List Exchange) : turnsIn codec (exchange :: rest) = turnsIn codec rest := by
  rw [turnsIn, h]

/-- A line that asks for no turn, and is passed over or ends the connection. -/
theorem Served.other {exchange : Exchange} {rest : List Exchange} {offered : Nat}
    (hLine : requestedTurn codec exchange.line = none) (hReply : exchange.isTurn = false)
    (h : Served script before after (turnsIn codec rest)
      ((turnsIn codec rest).map fun asked => saidTurn asked.turn) (rest.countP Exchange.isTurn)
      offered) :
    Served script before after (turnsIn codec (exchange :: rest))
      ((turnsIn codec (exchange :: rest)).map fun asked => saidTurn asked.turn)
      ((exchange :: rest).countP Exchange.isTurn) offered := by
  rw [turnsIn_other hLine, List.countP_cons_of_neg (by rw [hReply]; exact Bool.false_ne_true)]
  exact h

/-- A turn the script has, and what follows it. -/
theorem Served.scripted {exchange : Exchange} {rest : List Exchange} {scripted : Turn}
    {turn : ConversationTurnRequest} {committed offered : Nat}
    (hLine : requestedTurn codec exchange.line = some turn)
    (hReply : exchange.reply = some (.turn (scriptedReply script scripted committed).1))
    (hScripted : script.turns[before.served]? = some scripted)
    (h : Served script { before.record (saidTurn turn) with served := before.served + 1 } after
      (turnsIn codec rest) ((turnsIn codec rest).map fun asked => saidTurn asked.turn)
      (rest.countP Exchange.isTurn) offered) :
    Served script before after (turnsIn codec (exchange :: rest))
      ((turnsIn codec (exchange :: rest)).map fun asked => saidTurn asked.turn)
      ((exchange :: rest).countP Exchange.isTurn) (offered + 1) := by
  have hTurn : exchange.isTurn = true := by
    unfold Exchange.isTurn
    rw [hReply]
  have hAnswered := answered_scripted hScripted turn committed rest
  have hBoth := (Served.turn hScripted hAnswered (saidTurn turn)).append h
  rw [turnsIn_turn hLine, List.countP_cons_of_pos hTurn, hReply, Nat.add_comm, Nat.add_comm offered]
  exact hBoth

/-- The turns of one connection. -/
theorem converse_served (committed writes : Nat) (lines : List Line) (before : ScriptedDaemon) :
    let served := converse codec script committed writes lines before
    Served script before served.2 (turnsIn codec served.1)
      ((turnsIn codec served.1).map fun asked => saidTurn asked.turn)
      (served.1.countP Exchange.isTurn) (offered codec writes lines) := by
  -- line by line; the counter a line finds is the one the line before it leaves
  induction lines generalizing committed writes before with
  | nil => exact .nothing before
  | cons line lines ih =>
    match line with
    | .malformed => exact .nothing before
    | .text line =>
      unfold converse offered
      by_cases hBlank : (trim line).isEmpty = true
      · rw [if_pos hBlank, if_pos hBlank]
        exact (ih committed writes before).other (if_pos hBlank) rfl
      · have hLine : requestedTurn codec (.text line) = match codec.decodeRequest (trim line) with
            | some (.turn turn) => some turn
            | _ => none := if_neg hBlank
        rw [if_neg hBlank, if_neg hBlank]
        match hDecode : codec.decodeRequest (trim line) with
        | none =>
          -- an error, and the end of the connection
          rw [hDecode] at hLine
          exact Served.other hLine rfl (.nothing before)
        | some (.snapshot _) =>
          -- so is a snapshot, as far as turns go
          rw [hDecode] at hLine
          exact Served.other hLine rfl (.nothing before)
        | some (.turn turn) =>
          rw [hDecode] at hLine
          dsimp only
          rcases hScripted : script.turns[before.served]? with _ | scripted
          · -- the counter is past the script, and this is the connection's last line
            have hRanOut := Served.ranOut hScripted (answered_ranOut hScripted turn) (saidTurn turn)
              (if writes = 0 then 1 else offered codec (writes - 1) lines + 1) (by split <;> omega)
            rw [turnsIn_turn hLine]
            exact hRanOut
          · dsimp only
            by_cases hWrites : writes = 0
            · -- the reply cannot be written, and the connection is over
              rw [if_pos hWrites, if_pos hWrites]
              exact Served.scripted hLine rfl hScripted (.nothing _)
            · rw [if_neg hWrites, if_neg hWrites]
              exact Served.scripted hLine rfl hScripted (ih _ _ _)

/-- A connection whose first line opens nothing. -/
theorem Served.unopened {exchange : Exchange}
    (hLine : requestedOpen codec exchange.line = none) (hReply : exchange.isTurn = false)
    (before : ScriptedDaemon) :
    Served script before before (askedIn codec [exchange]) (saidIn codec [exchange])
      ([exchange].countP Exchange.isTurn) 0 := by
  have hSaid : saidIn codec [exchange] = [] := by
    unfold saidIn
    rw [List.head?_cons, Option.bind_some, hLine]
    rfl
  rw [hSaid, List.countP_singleton, hReply]
  exact .nothing before

/-- A connection that opens a conversation, and its turns. -/
theorem Served.opened {exchange : Exchange} {rest : List Exchange}
    {request : OpenConversationRequest} {offered : Nat}
    (hLine : requestedOpen codec exchange.line = some request) (hReply : exchange.isTurn = false)
    (h : Served script (before.record (saidOpened request)) after (turnsIn codec rest)
      ((turnsIn codec rest).map fun asked => saidTurn asked.turn) (rest.countP Exchange.isTurn)
      offered) :
    Served script before after (askedIn codec (exchange :: rest)) (saidIn codec (exchange :: rest))
      ((exchange :: rest).countP Exchange.isTurn) offered := by
  have hSaid : saidIn codec (exchange :: rest) =
      saidOpened request :: (turnsIn codec rest).map fun asked => saidTurn asked.turn := by
    unfold saidIn
    rw [List.head?_cons, Option.bind_some, hLine]
    rfl
  have hBoth := (Served.record script before (saidOpened request)).append h
  rw [hSaid, List.countP_cons_of_neg (by rw [hReply]; exact Bool.false_ne_true)]
  rw [Nat.zero_add, Nat.zero_add] at hBoth
  exact hBoth

theorem openReply_isTurn (line : Line) (tools : List ToolSpec) (supportsToolCalls : Bool) :
    Exchange.isTurn ⟨line, some (Backend.openReply tools supportsToolCalls)⟩ = false := by
  unfold Exchange.isTurn Backend.openReply
  dsimp only
  rcases tools.isEmpty with _ | _ <;> rfl

variable (codec script) in
theorem serve_served (client : Client) (before : ScriptedDaemon) :
    let served := serve codec script client before
    Served script before served.2 (askedIn codec served.1) (saidIn codec served.1)
      (served.1.countP Exchange.isTurn) (client.offered codec) := by
  unfold serve Client.offered
  by_cases hClones : client.clones = true
  · rw [if_neg (not_not.mpr hClones), if_neg (not_not.mpr hClones)]
    rcases client.lines with _ | ⟨line, lines⟩
    · exact .nothing before
    · match line with
      | .malformed => exact .nothing before
      | .text line =>
        dsimp only
        by_cases hBlank : (trim line).isEmpty = true
        · have hLine : requestedOpen codec (.text line) = none := if_pos hBlank
          rw [if_pos hBlank, hLine]
          exact .unopened hLine rfl before
        · have hLine : requestedOpen codec (.text line) = match codec.decodeMessage (trim line) with
              | some (.openConversation request) => some request
              | _ => none := if_neg hBlank
          rw [if_neg hBlank]
          match hDecode : codec.decodeMessage (trim line) with
          | some (.openConversation request) =>
            rw [hDecode] at hLine
            rw [hLine]
            dsimp only
            by_cases hWrites : client.writes = 0
            · rw [if_pos hWrites, if_pos hWrites]
              exact .opened hLine (openReply_isTurn _ _ _) (.nothing _)
            · rw [if_neg hWrites, if_neg hWrites]
              exact .opened hLine (openReply_isTurn _ _ _) (converse_served _ _ _ _)
          | none | some (.generate _) | some .status | some (.embed _) =>
            -- a client this does not pretend to be
            rw [hDecode] at hLine
            rw [hLine]
            exact .unopened hLine rfl before
  · rw [if_pos hClones, if_pos hClones]
    exact .nothing before

/-- All connections, one after the other. -/
theorem serveAll_served (clients : List Client) (before : ScriptedDaemon) :
    let served := serveAll codec script clients before
    Served script before served.2 (served.1.flatMap (askedIn codec)) (served.1.flatMap (saidIn codec))
      (served.1.flatten.countP Exchange.isTurn) ((clients.map (Client.offered codec)).sum) := by
  induction clients generalizing before with
  | nil => exact .nothing before
  | cons client clients ih =>
    -- one connection is over before the next is accepted
    have hFirst := serve_served codec script client before
    have hRest := ih (serve codec script client before).2
    have hBoth := hFirst.append hRest
    unfold serveAll
    dsimp only at hBoth ⊢
    rw [List.flatMap_cons, List.flatMap_cons, List.flatten_cons, List.countP_append, List.map_cons,
      List.sum_cons]
    exact hBoth

/-- A message in the transcript was sent as one. -/
theorem message_said {logs : List (List Exchange)} {text : Text}
    (h : Said.message text ∈ logs.flatMap (saidIn codec)) :
    ∃ asked ∈ logs.flatMap (askedIn codec),
      asked.turn.toolResults = none ∧ asked.turn.message = text := by
  obtain ⟨log, hLog, hSaid⟩ := List.mem_flatMap.mp h
  unfold saidIn at hSaid
  rcases List.mem_append.mp hSaid with hOpened | hTurn
  · obtain ⟨request, -, hRequest⟩ := Option.map_eq_some_iff.mp (Option.mem_toList.mp hOpened)
    cases hRequest
  · obtain ⟨asked, hAsked, hMessage⟩ := List.mem_map.mp hTurn
    refine ⟨asked, List.mem_flatMap.mpr ⟨log, hLog, hAsked⟩, ?_⟩
    unfold saidTurn at hMessage
    rcases hResults : asked.turn.toolResults with _ | results
    · rw [hResults] at hMessage
      cases hMessage
      exact ⟨rfl, rfl⟩
    · rw [hResults] at hMessage
      cases hMessage

/-- **Replaying.** Whatever clients come, the turns they ask for are answered by the
script's, in order, and behind its end by an error that closes the connection; the
transcript is what they said, tool results apart from messages. The counter is that of
the turns replied exactly when the clients do not offer to ask for more than the script
has. -/
theorem scripted_replays_iff (codec : Codec) (script : Script) (clients : List Client) :
    let served := serveAll codec script clients .start
    ((∀ k asked, (served.1.flatMap (askedIn codec))[k]? = some asked → Answered script k asked) ∧
      served.2.transcript = served.1.flatMap (saidIn codec) ∧
      ∀ text, Said.message text ∈ served.2.transcript →
        ∃ asked ∈ served.1.flatMap (askedIn codec),
          asked.turn.toolResults = none ∧ asked.turn.message = text) ∧
    (served.2.turnsServed = served.1.flatten.countP Exchange.isTurn ↔
      (clients.map (Client.offered codec)).sum ≤ script.turns.length) := by
  intro served
  have h : Served script .start served.2 (served.1.flatMap (askedIn codec))
      (served.1.flatMap (saidIn codec)) (served.1.flatten.countP Exchange.isTurn)
      ((clients.map (Client.offered codec)).sum) := serveAll_served clients .start
  have hTranscript : served.2.transcript = served.1.flatMap (saidIn codec) := h.transcript
  refine ⟨⟨?_, hTranscript, ?_⟩, ?_⟩
  · intro k asked hAsked
    have hAnswered := h.answered k asked hAsked
    rwa [show ScriptedDaemon.start.served + k = k from Nat.zero_add k] at hAnswered
  · intro text hText
    rw [hTranscript] at hText
    exact message_said hText
  · -- replies are bounded by the script, the counter is not
    have hReplies := h.replies
    have hLasts := h.lasts
    have hEnds := h.ends
    show served.2.served = _ ↔ _
    rw [show ScriptedDaemon.start.served = 0 from rfl] at hReplies hLasts hEnds
    constructor
    · intro hCounted
      by_contra hBeyond
      have hPast := hEnds (by omega)
      omega
    · intro hInside
      have hAll := hLasts (by omega)
      omega

/-! ## A script that runs out -/

/-- A decoder that takes any first line for an open, and any other for a message. -/
def plainCodec : Codec where
  decodeMessage _ := some (.openConversation
    { modelPath := "model.gguf".toList, nCtx := 4096, overflow := .dropOldestTurns
      restoreFrom := none, system := none, tools := [], toolFormat := none })
  decodeRequest line := some (.turn
    { toolResults := none, message := line, maxNewTokens := none, sampling := none
      grammar := none, assistantPrefill := none, grammarCompletion := none })

/-- One turn, and a client that asks for two. -/
def onlyOne : Script where
  turns := [{ text := "only one".toList, toolCalls := [], truncatedToolCall := false
              committedTokens := none, contextSize := none, tokensGenerated := none }]
  contextSize := 12288
  supportsToolCalls := true

def askingTwice : Client where
  clones := true
  lines := [.text "open".toList, .text "one".toList, .text "two".toList]
  writes := 3

theorem turnsServed_runsOn :
    ¬ ∀ (codec : Codec) (script : Script) (clients : List Client),
      (serveAll codec script clients .start).2.turnsServed =
        (serveAll codec script clients .start).1.flatten.countP Exchange.isTurn := by
  intro h
  have hSame := h plainCodec onlyOne [askingTwice]
  revert hSame
  decide

end Rampipe.Scripted
