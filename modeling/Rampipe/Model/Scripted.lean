import Rampipe.Model.Connection

/-!
# Rampipe — the scripted daemon

`scripted.rs`: a daemon that speaks the protocol of the real one, says what a script says,
and keeps a transcript of what it was told. Its connections are served one after the
other, by one thread.

A client is what its connection brings: the lines that are read from it, and how many
replies it takes before a write to it fails. What `serve` does with it is the lines it
reads, each with the reply it hands to the socket. Decoding is serde_json's, and a sum of
token counts wraps, as it does in the release build. Wall-clock times are left out.
-/

namespace Rampipe

open Text

/-- The `usize` that the release build's wrapping arithmetic makes of an exact result. -/
def usize (n : Nat) : Nat := n % 18446744073709551616

namespace Scripted

/-! ## Scripts and transcripts -/

/-- One reply the fake model will give. -/
structure Turn where
  text : Text
  toolCalls : List ToolCall
  truncatedToolCall : Bool
  committedTokens : Option Nat
  contextSize : Option Nat
  tokensGenerated : Option Nat

structure Script where
  turns : List Turn
  contextSize : Nat
  supportsToolCalls : Bool

/-- What the harness said. -/
inductive Said
  | opened (system : Option Text) (tools : List Text) (nCtx : Nat)
  | message (text : Text)
  | toolResults (results : List Text)
  deriving DecidableEq

/-- What the daemon's two locks guard. -/
structure ScriptedDaemon where
  transcript : List Said
  served : Nat

namespace ScriptedDaemon

def start : ScriptedDaemon := { transcript := [], served := 0 }

def record (daemon : ScriptedDaemon) (said : Said) : ScriptedDaemon :=
  { daemon with transcript := daemon.transcript ++ [said] }

def turnsServed (daemon : ScriptedDaemon) : Nat := daemon.served

end ScriptedDaemon

def saidOpened (request : OpenConversationRequest) : Said :=
  .opened request.system (request.tools.map fun tool => tool.function.name) request.nCtx

/-- Tool results are recorded as such, and not as a message. -/
def saidTurn (turn : ConversationTurnRequest) : Said :=
  match turn.toolResults with
  | some results => .toolResults results
  | none => .message turn.message

/-- The text whose tokens a request is estimated at. -/
def requestText (turn : ConversationTurnRequest) : Text :=
  match turn.toolResults with
  | some results => join "\n".toList results
  | none => turn.message

/-- Four bytes to a token. -/
def estimateTokens (text : Text) : Nat := ((asBytes text).length + 3) / 4

/-! ## Serving -/

/-- serde_json, on the messages of the protocol. -/
structure Codec where
  decodeMessage : Text → Option ClientMessage
  decodeRequest : Text → Option ConversationRequest

structure Client where
  /-- `stream.try_clone()` goes well. -/
  clones : Bool
  lines : List Line
  writes : Nat

/-- A line that was read, and the reply to it. -/
structure Exchange where
  line : Line
  reply : Option ConversationResponse

/-- The reply to the turn that is asked for behind the script's end. -/
def ranOut (script : Script) (at_ : Nat) : ConversationResponse :=
  .err ("scripted rampiped ran out: the script has ".toList ++ (toString script.turns.length).toList ++
    " turn(s) and the harness asked for turn ".toList ++ (toString (at_ + 1)).toList)

/-- The reply the script has, with the tokens committed so far. -/
def scriptedReply (script : Script) (scripted : Turn) (committed : Nat) : GenerationResult × Nat :=
  let generated := scripted.tokensGenerated.getD (estimateTokens scripted.text)
  let committed := usize (committed + generated)
  ({  text := scripted.text
      tokensGenerated := generated
      committedTokens := scripted.committedTokens.getD committed
      contextSize := scripted.contextSize.getD script.contextSize
      formattedPrompt := []
      toolCalls := scripted.toolCalls
      truncatedToolCall := scripted.truncatedToolCall }, committed)

variable (codec : Codec) (script : Script)

/-- The loop of `serve`. -/
def converse (committed writes : Nat) :
    List Line → ScriptedDaemon → List Exchange × ScriptedDaemon
  -- the client is gone
  | [], daemon => ([], daemon)
  -- bytes that are no line of text: the read fails
  | .malformed :: _, daemon => ([⟨.malformed, none⟩], daemon)
  | .text line :: lines, daemon =>
    if (trim line).isEmpty then
      let (log, daemon) := converse committed writes lines daemon
      (⟨.text line, none⟩ :: log, daemon)
    else
      match codec.decodeRequest (trim line) with
      | none =>
        ([⟨.text line, some (.err ("scripted rampiped could not decode: ".toList ++ trim line))⟩],
          daemon)
      | some (.snapshot _) => ([⟨.text line, some .snapshotted⟩], daemon)
      | some (.turn turn) =>
        let committed := usize (committed + estimateTokens (requestText turn))
        let at_ := daemon.served
        -- counted before it is known whether the script has a turn left
        let daemon := { daemon.record (saidTurn turn) with served := at_ + 1 }
        match script.turns[at_]? with
        | none => ([⟨.text line, some (ranOut script at_)⟩], daemon)
        | some scripted =>
          let (result, committed) := scriptedReply script scripted committed
          -- the reply is made, and may not get through
          if writes = 0 then ([⟨.text line, some (.turn result)⟩], daemon)
          else
            let (log, daemon) := converse committed (writes - 1) lines daemon
            (⟨.text line, some (.turn result)⟩ :: log, daemon)

/-- One client connection: an open, then turns until it disconnects. -/
def serve (client : Client) (daemon : ScriptedDaemon) : List Exchange × ScriptedDaemon :=
  if ¬ client.clones then ([], daemon)
  else
    match client.lines with
    | [] => ([], daemon)
    | .malformed :: _ => ([⟨.malformed, none⟩], daemon)
    | .text line :: lines =>
      if (trim line).isEmpty then ([⟨.text line, none⟩], daemon)
      else
        match codec.decodeMessage (trim line) with
        | some (.openConversation request) =>
          let daemon := daemon.record (saidOpened request)
          let response := Backend.openReply request.tools script.supportsToolCalls
          if client.writes = 0 then ([⟨.text line, some response⟩], daemon)
          else
            let (log, daemon) := converse codec script (estimateTokens (request.system.getD []))
              (client.writes - 1) lines daemon
            (⟨.text line, some response⟩ :: log, daemon)
        | _ =>
          ([⟨.text line, some (.err
            "this is a scripted rampiped -- it serves conversations only".toList)⟩], daemon)

/-- The accept loop. -/
def serveAll : List Client → ScriptedDaemon → List (List Exchange) × ScriptedDaemon
  | [], daemon => ([], daemon)
  | client :: clients, daemon =>
    let (log, daemon) := serve codec script client daemon
    let (logs, daemon) := serveAll clients daemon
    (log :: logs, daemon)

end Scripted

end Rampipe
