import Rampipe.Model.ToolFormat

/-!
# Rampipe — dialogues, and templates that render them turn by turn

What a chat template is expected to do with a whole dialogue: an opening that depends
on the system text and the tools alone, and behind it every message, every batch of
tool results and every reply inside literal text that is the same each time. A
`Dialogue` starts with a message, and no batch of results in it is empty.
-/

namespace Rampipe

open ToolFormat

/-- What is put to the model in one turn: a message, or the results of its calls. -/
inductive TurnContent
  | message (content : Text)
  | results (first : Text) (rest : List Text)
  deriving DecidableEq

def TurnContent.isResults : TurnContent → Bool
  | .message _ => false
  | .results .. => true

/-- One turn and the reply to it. -/
structure Round where
  content : TurnContent
  reply : Text
  deriving DecidableEq

structure Dialogue where
  system : Option Text
  tools : Option (List ToolSpec)
  message : Text
  reply : Text
  later : List Round

/-! ## As a template is given it -/

/-- A tool list as the template is given it. -/
def toolList (tools : List ToolSpec) : Json := .array (tools.map ToolSpec.toJson)

def systemMessages : Option Text → List Json
  | some system => [message "system" system]
  | none => []

def TurnContent.messages : TurnContent → List Json
  | .message content => [ToolFormat.message "user" content]
  | .results first rest => (first :: rest).map (ToolFormat.message "tool")

def Round.messages (round : Round) : List Json :=
  round.content.messages ++ [message "assistant" round.reply]

namespace Dialogue

def rounds (d : Dialogue) : List Round := ⟨.message d.message, d.reply⟩ :: d.later

def messages (d : Dialogue) : Json :=
  .array (systemMessages d.system ++ d.rounds.flatMap Round.messages)

end Dialogue

/-! ## As such a template renders it -/

/-- The literal text around the turns. -/
structure TurnSpans where
  opening : Option Text → Option (List ToolSpec) → Text
  generationOpen : Text
  turnTransition : Text
  results : ToolResultSpans
  tail : Text

namespace TurnSpans

/-- A turn behind an earlier reply: a message reopens the user turn, results bring
their own framing. -/
def turn (s : TurnSpans) : TurnContent → Text
  | .message content => s.turnTransition ++ content ++ s.generationOpen
  | .results first rest => s.results.render (first :: rest)

def round (s : TurnSpans) (round : Round) : Text := s.turn round.content ++ round.reply

/-- The dialogue, up to its last reply. -/
def write (s : TurnSpans) (d : Dialogue) : Text :=
  s.opening d.system d.tools ++ d.message ++ s.generationOpen ++ d.reply ++ d.later.flatMap s.round

end TurnSpans

/-- The template writes every dialogue with these spans, and a message nobody has replied
to behind the opening. -/
structure TurnUniform (render : RenderFn) (templateText : Text) (s : TurnSpans) : Prop where
  dialogue : ∀ d : Dialogue,
    render templateText d.messages (d.tools.map toolList) = some (s.write d ++ s.tail)
  unanswered : ∀ system tools content, ∃ tail,
    render templateText (.array (systemMessages system ++ [message "user" content]))
      (tools.map toolList) = some (s.opening system tools ++ content ++ tail)

end Rampipe
