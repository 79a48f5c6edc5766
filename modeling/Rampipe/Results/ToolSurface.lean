import Rampipe.Model.Connection
import Rampipe.Results.Delimited
import Rampipe.Spec.Dialogue

/-!
# Rampipe — what a tool list comes to

`prepare_tools` asks the template four things, each with a render of its own, and
falls back from each of them on its own: whether it takes tools, how it writes a
call, what it says of the tools that are offered, and how it takes results. A flag
of what came of it goes over the wire. Where one of the four fails, what the other
three promise does not hold any more.

* `supports_reported_iff`   — the flag a client is told is the conversation's.
* `opening_tells_tools_iff` — a conversation that parses calls was told of the tools.
* `result_spans_iff`        — spans that are there to be derived are used.
-/

namespace Rampipe

open ListSearch Text ToolFormat

variable {L : Llama}

/-- With this template a tool list is offered and the calls that come can be decoded:
the template takes tools, and its calls are written in a format that can be derived or
was configured. -/
def Llama.decodesCalls (L : Llama) (templateText : Text) (tools : List ToolSpec)
    (configuredFormat : Option ToolFormat) : Bool :=
  !tools.isEmpty && (deriveCapabilities templateText L.probeRenderer).tools &&
    ((deriveToolCallFormat L.fromStr templateText L.probeRenderer).isSome ||
      configuredFormat.isSome)

theorem prepareTools_toolFormat_isSome (L : Llama) (templateText : Text)
    (template : ConversationTemplate) (system : Option Text) (tools : List ToolSpec)
    (configuredFormat : Option ToolFormat) :
    (prepareTools L templateText template system tools configuredFormat).toolFormat.isSome =
      L.decodesCalls templateText tools configuredFormat := by
  unfold prepareTools Llama.decodesCalls
  dsimp only
  by_cases hOffered : (!tools.isEmpty &&
      (deriveCapabilities templateText L.probeRenderer).tools) = true
  · rw [if_pos hOffered, hOffered]
    simp
  · rw [if_neg hOffered, Bool.eq_false_of_not_eq_true hOffered]
    simp

/-! ## The flag on the wire -/

theorem conversationTemplate_ok {templateText : Text} {template : ConversationTemplate}
    (h : LlamaSession.conversationTemplate L = .ok (templateText, template)) :
    L.chatTemplate = some templateText := by
  unfold LlamaSession.conversationTemplate at h
  split at h
  · cases h
  rename_i text hText
  split at h
  · cases h
  · cases h
  · cases h
    exact hText

/-- A fresh conversation keeps the tools it was asked for. -/
theorem openConversation_tools {session : LlamaSession} {options : ConversationOptions}
    {c : Conversation L} (h : session.openConversation L options = .ok c) :
    c.tools = options.tools ∧ c.configuredToolFormat = options.toolFormat := by
  unfold LlamaSession.openConversation at h
  dsimp only at h
  split at h
  · cases h
  split at h
  · cases h
  · cases h
  · cases h
  cases h
  exact ⟨rfl, rfl⟩

/-- What a fresh conversation supports follows from the request. -/
theorem openConversation_supports {session : LlamaSession} {options : ConversationOptions}
    {c : Conversation L} (h : session.openConversation L options = .ok c) :
    ∃ templateText, L.chatTemplate = some templateText ∧
      c.supportsToolCalls = L.decodesCalls templateText options.tools options.toolFormat := by
  obtain ⟨-, -, -, -, -, templateText, hTemplate, system, hSetup⟩ :=
    Conversation.openConversation_ok h
  obtain ⟨hTools, hConfigured⟩ := openConversation_tools h
  refine ⟨templateText, conversationTemplate_ok hTemplate, ?_⟩
  have hFormat := prepareTools_toolFormat_isSome L templateText c.template system c.tools
    c.configuredToolFormat
  rw [hSetup, hTools, hConfigured] at hFormat
  exact hFormat

/-- What a reopened one supports follows from the sidecar. -/
theorem openConversationFromState_supports {session : LlamaSession} {snapshot : Snapshot L}
    {c : Conversation L} (h : session.openConversationFromState snapshot = .ok c) :
    ∃ templateText, L.chatTemplate = some templateText ∧ c.supportsToolCalls =
      L.decodesCalls templateText snapshot.sidecar.tools snapshot.sidecar.toolFormat := by
  obtain ⟨-, -, -, -, hTools, hConfigured, -, -, -, -, -, templateText, hTemplate, opening,
    systemForFirstTurn, hSetup⟩ := Conversation.openConversationFromState_ok h
  refine ⟨templateText, conversationTemplate_ok hTemplate, ?_⟩
  have hFormat := prepareTools_toolFormat_isSome L templateText c.template none c.tools
    c.configuredToolFormat
  rw [hSetup, hTools, hConfigured] at hFormat
  exact hFormat

/-- The client is told what the conversation supports, unless nothing was said. -/
theorem client_supports (tools : List ToolSpec) (supports : Bool) :
    ∃ client, RampipedConversation.open_ (some (Backend.openReply tools supports)) = .ok client ∧
      client.supportsToolCalls = (!tools.isEmpty && supports) := by
  match tools with
  | [] => exact ⟨_, rfl, rfl⟩
  | _ :: _ => exact ⟨_, rfl, rfl⟩

/-- **The flag on the wire.** After an open that succeeded, fresh or from a snapshot, the
client reports what the conversation supports exactly when its request named tools, or
it is no snapshot with tools whose calls can be decoded that it reopens. -/
theorem supports_reported_iff (L : Llama) (session : LlamaSession)
    (files : SnapshotRef → Option (Snapshot L)) (request : OpenConversationRequest)
    (c : Conversation L) (hOpen : session.openRequested L files request = some (.ok c)) :
    (∃ client, RampipedConversation.open_
        (some (Backend.openReply request.tools c.supportsToolCalls)) = .ok client ∧
      client.supportsToolCalls = c.supportsToolCalls) ↔
    (request.tools = [] → ∀ reference snapshot templateText,
      request.restoreFrom = some reference → files reference = some snapshot →
        L.chatTemplate = some templateText →
          L.decodesCalls templateText snapshot.sidecar.tools snapshot.sidecar.toolFormat =
            false) := by
  have hReported : (∃ client, RampipedConversation.open_
      (some (Backend.openReply request.tools c.supportsToolCalls)) = .ok client ∧
        client.supportsToolCalls = c.supportsToolCalls) ↔
      (request.tools = [] → c.supportsToolCalls = false) := by
    obtain ⟨client, hClient, hSupports⟩ := client_supports request.tools c.supportsToolCalls
    constructor
    · rintro ⟨other, hOther, hSame⟩ hTools
      rw [hClient] at hOther
      cases hOther
      rw [hTools] at hSupports
      rw [← hSame, hSupports]
      rfl
    · intro h
      refine ⟨client, hClient, ?_⟩
      by_cases hTools : request.tools = []
      · rw [hSupports, h hTools, Bool.and_false]
      · rw [hSupports]
        simp [hTools]
  rw [hReported]
  refine forall_congr' fun hTools => ?_
  unfold LlamaSession.openRequested at hOpen
  match hRestore : request.restoreFrom with
  | none =>
    -- nothing was offered, so nothing is supported
    rw [hRestore] at hOpen
    dsimp only at hOpen
    split at hOpen
    · cases hOpen
    obtain ⟨templateText, -, hSupports⟩ := openConversation_supports (Option.some.inj hOpen)
    constructor
    · intro _ reference _ _ hReference
      cases hReference
    · intro _
      rw [hSupports]
      simp [Backend.options, hTools, Llama.decodesCalls]
  | some reference =>
    rw [hRestore] at hOpen
    obtain ⟨snapshot, hSnapshot, hc⟩ := Option.map_eq_some_iff.mp hOpen
    obtain ⟨templateText, hTemplate, hSupports⟩ := openConversationFromState_supports hc
    rw [hSupports]
    constructor
    · intro h reference' snapshot' templateText' hReference' hSnapshot' hTemplate'
      cases hReference'
      rw [hSnapshot] at hSnapshot'
      cases hSnapshot'
      rw [hTemplate] at hTemplate'
      cases hTemplate'
      exact h
    · intro h
      exact h reference snapshot templateText rfl hSnapshot hTemplate

/-! ### A template with its own tool calls -/

namespace Script

/-- A message in its turn, with Qwen's spans around a call. -/
def turnText (message : Json) : Text :=
  let field (key : String) : Text := ((message.get key.toList).bind Json.asStr).getD []
  let said :=
    match callOf message with
    | some (name, arguments) => qwenSpans.write name (stringArgs arguments)
    | none => field "content"
  "<|im_start|>".toList ++ (field "role" ++ ('\n' :: said)) ++ "<|im_end|>\n".toList

/-- The elements of an array. -/
def elements : Json → List Json
  | .array items => items
  | _ => []

/-- A tool's name, for a template that goes through the properties of its parameters:
it does not render a tool that has none. -/
def toolLine (tool : Json) : Option Text := do
  let function ← tool.get "function".toList
  let name ← (← function.get "name".toList).asStr
  let parameters ← function.get "parameters".toList
  let properties ← parameters.get "properties".toList
  properties.asObject.map fun _ => name ++ ['\n']

/-- The tools that are offered, and the turns. -/
def qwenRender : RenderFn := fun _ messages tools => do
  let lines ← (elements (tools.getD .null)).mapM toolLine
  some (lines.flatten ++ (elements messages).flatMap turnText)

/-- The scripted model, with that template. -/
def qwenModel : Llama :=
  { Llama.scripted silent with
    renderJson := fun templateText messages tools _ => qwenRender templateText messages tools }

def tool (name : String) (parameters : Json) : ToolSpec where
  kind := "function".toList
  function := { name := name.toList, description := "A tool.".toList, parameters }

/-- Takes one argument. -/
def readTool : ToolSpec :=
  tool "read" (.obj [("type".toList, .string "object".toList),
    ("properties".toList, .obj [("path".toList, .obj [("type".toList, .string "string".toList)])])])

/-- Takes none, and says so by saying nothing. -/
def listTool : ToolSpec := tool "list" (.obj [("type".toList, .string "object".toList)])

def openWith (restoreFrom : Option SnapshotRef) (tools : List ToolSpec) :
    OpenConversationRequest where
  modelPath := session.path
  nCtx := 4096
  overflow := .dropOldestTurns
  restoreFrom := restoreFrom
  system := none
  tools := tools
  toolFormat := none

/-- The paths of one saved conversation. -/
def saved : SnapshotRef where
  statePath := "agent.state".toList
  metaPath := "agent.json".toList

set_option maxRecDepth 4096 in
/-- A conversation that was opened with a tool. -/
def reader : Conversation qwenModel :=
  (session.openConversation qwenModel (Backend.options (openWith none [readTool]))).get
    (by decide)

/-- The snapshot of it. -/
def readerSnapshot : Snapshot qwenModel := reader.saveState.get (by decide)

/-- The disk once it was saved. -/
def disk (_ : SnapshotRef) : Option (Snapshot qwenModel) := some readerSnapshot

set_option maxRecDepth 4096 in
theorem reader_reopens :
    (session.openConversationFromState readerSnapshot).isOk = true := by
  decide

end Script

open Script in
/-- Opened with its tool, the conversation is reported as it is. -/
theorem reader_reported :
    ∃ client, RampipedConversation.open_
        (some (Backend.openReply [readTool] reader.supportsToolCalls)) = .ok client ∧
      client.supportsToolCalls = reader.supportsToolCalls :=
  (supports_reported_iff qwenModel session disk (openWith none [readTool]) reader
    (congrArg some (Outcome.eq_ok_get _ _))).mpr (by simp [openWith])

set_option maxRecDepth 4096 in
open Script in
/-- Reopened by a client that leaves the tools to the snapshot, the conversation parses
calls, and the client is told that it does not. -/
theorem reopened_reader_denied :
    ∃ c, session.openRequested qwenModel disk (openWith (some saved) []) = some (.ok c) ∧
      c.supportsToolCalls = true ∧
      ∃ client, RampipedConversation.open_
          (some (Backend.openReply (openWith (some saved) []).tools c.supportsToolCalls)) =
            .ok client ∧ client.supportsToolCalls = false := by
  refine ⟨_, congrArg some (Outcome.eq_ok_get _ reader_reopens), by decide, _, rfl, rfl⟩

/-! ## The opening -/

/-- The messages an opening is rendered from: the system text, when the template has a
block for it, and the user's sentinel. -/
def openingTranscript (system : Option Text) : Json :=
  .array ((match system with
    | some system => [message "system" system]
    | none => []) ++ [message "user" USER])

/-- The system text that goes into a block of its own. -/
def Llama.systemBlock (L : Llama) (templateText : Text) (system : Option Text) : Option Text :=
  if (deriveCapabilities templateText L.probeRenderer).system then system else none

theorem renderOpening_eq_some_iff {templateText opening : Text} {system : Option Text}
    {tools : List ToolSpec} {render : RenderFn} :
    renderOpening templateText system (some tools) render = some opening ↔
      ∃ rendered userAt,
        render templateText (openingTranscript system) (some (toolList tools)) = some rendered ∧
          find USER rendered = some userAt ∧ opening = rendered.take userAt := by
  unfold renderOpening
  simp only [Option.bind_eq_bind, Option.bind_eq_some_iff, Option.some.injEq, Option.map_some]
  constructor
  · rintro ⟨rendered, hRendered, userAt, hUser, rfl⟩
    exact ⟨rendered, userAt, hRendered, hUser, rfl⟩
  · rintro ⟨rendered, userAt, hRendered, hUser, rfl⟩
    exact ⟨rendered, hRendered, userAt, hUser, rfl⟩

/-- Where calls are decoded, the tools are offered. -/
theorem offered_of_decodesCalls {templateText : Text} {tools : List ToolSpec}
    {configuredFormat : Option ToolFormat}
    (h : L.decodesCalls templateText tools configuredFormat = true) :
    (!tools.isEmpty && (deriveCapabilities templateText L.probeRenderer).tools) = true := by
  unfold Llama.decodesCalls at h
  rw [Bool.and_eq_true] at h
  exact h.1

/-- The opening of a conversation that offers its tools. -/
theorem prepareTools_opening {templateText : Text} (template : ConversationTemplate)
    (system : Option Text) {tools : List ToolSpec} (configuredFormat : Option ToolFormat)
    (hOffered : (!tools.isEmpty &&
      (deriveCapabilities templateText L.probeRenderer).tools) = true) :
    (prepareTools L templateText template system tools configuredFormat).opening =
      (renderOpening templateText (L.systemBlock templateText system) (some tools)
        L.probeRenderer).getD template.firstTurnOpen := by
  unfold prepareTools Llama.systemBlock
  dsimp only
  rw [if_pos hOffered]
  simp

/-- **The model was told.** When calls are parsed, the opening is what a render with that
very tool list has before the user's text, exactly when the template renders that list
and shows the user's text behind it. -/
theorem opening_tells_tools_iff (L : Llama) (templateText : Text) (template : ConversationTemplate)
    (system : Option Text) (tools : List ToolSpec) (configuredFormat : Option ToolFormat) :
    ((prepareTools L templateText template system tools configuredFormat).toolFormat.isSome →
      ∃ rendered userAt,
        L.probeRenderer templateText (openingTranscript (L.systemBlock templateText system))
            (some (toolList tools)) = some rendered ∧
          find USER rendered = some userAt ∧
          (prepareTools L templateText template system tools configuredFormat).opening =
            rendered.take userAt) ↔
      (L.decodesCalls templateText tools configuredFormat = true →
        ∃ rendered,
          L.probeRenderer templateText (openingTranscript (L.systemBlock templateText system))
              (some (toolList tools)) = some rendered ∧ contains rendered USER = true) := by
  rw [prepareTools_toolFormat_isSome]
  refine forall_congr' fun hDecodes => ?_
  rw [prepareTools_opening template system configuredFormat (offered_of_decodesCalls hDecodes)]
  constructor
  · rintro ⟨rendered, userAt, hRendered, hUser, -⟩
    refine ⟨rendered, hRendered, ?_⟩
    rw [contains, hUser]
    rfl
  · rintro ⟨rendered, hRendered, hContains⟩
    obtain ⟨userAt, hUser⟩ := Option.isSome_iff_exists.mp hContains
    refine ⟨rendered, userAt, hRendered, hUser, ?_⟩
    rw [renderOpening_eq_some_iff.mpr ⟨rendered, userAt, hRendered, hUser, rfl⟩]
    rfl

set_option maxRecDepth 4096 in
open Script in
/-- The probe's tool has properties and the real one does not: calls are parsed, and no
render with the real list ever told the model of it. -/
theorem listTool_untold :
    (prepareTools qwenModel [] { firstTurnOpen := [], generationOpen := [], turnTransition := [] }
        none [listTool] none).toolFormat.isSome = true ∧
      ∀ messages, qwenModel.probeRenderer [] messages (some (toolList [listTool])) = none := by
  refine ⟨by decide, ?_⟩
  intro messages
  have hList : (elements (toolList [listTool])).mapM toolLine = none := by
    decide
  show qwenRender [] messages (some (toolList [listTool])) = none
  unfold qwenRender
  rw [Option.getD_some, hList]
  rfl

/-! ## The result spans -/

theorem prepareTools_toolResultSpans {templateText : Text} (template : ConversationTemplate)
    (system : Option Text) {tools : List ToolSpec} (configuredFormat : Option ToolFormat)
    (hOffered : (!tools.isEmpty &&
      (deriveCapabilities templateText L.probeRenderer).tools) = true) :
    (prepareTools L templateText template system tools configuredFormat).toolResultSpans =
      if probeToolResults templateText L.probeRenderer then
        ToolResultSpans.derive templateText L.probeRenderer
      else none := by
  unfold prepareTools
  dsimp only
  rw [if_pos hOffered]
  rfl

/-- With spans of its own a conversation renders results between them. -/
theorem prepareToolResults_text {c : Conversation L} {spans : ToolResultSpans}
    (hSpans : c.toolResultSpans = some spans) {results : List Text}
    {options : Conversation.TurnOptions} {turn : Conversation.PreparedTurn L}
    (h : c.prepareToolResults results options = .ok turn) :
    turn.formattedPrompt = spans.render results := by
  unfold Conversation.prepareToolResults at h
  rw [hSpans] at h
  dsimp only at h
  split at h
  · cases h
  · cases h
    rfl

/-- **Results as results.** Where tools are offered and spans can be derived, by either
convention, they are the conversation's, and its results are rendered between them,
exactly when the template shows the content of a message in the `tool` role behind the
assistant's. -/
theorem result_spans_iff (L : Llama) (templateText : Text) (template : ConversationTemplate)
    (system : Option Text) (tools : List ToolSpec) (configuredFormat : Option ToolFormat)
    (spans : ToolResultSpans) (hTools : tools ≠ [])
    (hCapable : (deriveCapabilities templateText L.probeRenderer).tools = true)
    (hDerive : ToolResultSpans.derive templateText L.probeRenderer = some spans) :
    ((prepareTools L templateText template system tools configuredFormat).toolResultSpans =
        some spans ∧
      ∀ c : Conversation L, c.toolResultSpans =
          (prepareTools L templateText template system tools configuredFormat).toolResultSpans →
        ∀ results options turn, c.prepareToolResults results options = .ok turn →
          turn.formattedPrompt = spans.render results) ↔
      probeToolResults templateText L.probeRenderer = true := by
  have hOffered : (!tools.isEmpty &&
      (deriveCapabilities templateText L.probeRenderer).tools) = true := by
    rw [hCapable]
    simp [hTools]
  rw [prepareTools_toolResultSpans template system configuredFormat hOffered, hDerive]
  by_cases hProbe : probeToolResults templateText L.probeRenderer = true
  · rw [if_pos hProbe]
    refine ⟨fun _ => hProbe, fun _ => ⟨rfl, ?_⟩⟩
    intro c hc results options turn hTurn
    exact prepareToolResults_text hc hTurn
  · rw [if_neg hProbe]
    refine ⟨?_, fun h => absurd h hProbe⟩
    rintro ⟨hNone, -⟩
    cases hNone

namespace Script

/-- A message in Gemma's manner: results ride on the model's own turn, and what a
message in the `tool` role says is dropped. -/
def nativeTurn (message : Json) : Text :=
  let field (key : String) : Text := ((message.get key.toList).bind Json.asStr).getD []
  let results := (elements ((message.get "tool_responses".toList).getD .null)).flatMap fun result =>
    "<result>".toList ++ (((result.get "response".toList).bind Json.asStr).getD [] ++
      "</result>".toList)
  if field "role" = "user".toList then "<turn>user\n".toList ++ (field "content" ++ ['\n'])
  else if field "role" = "assistant".toList then
    "<turn>model\n".toList ++ (results ++ (field "content" ++ ['\n']))
  else []

def nativeRender : RenderFn := fun _ messages tools => do
  let lines ← (elements (tools.getD .null)).mapM toolLine
  some (lines.flatten ++ (elements messages).flatMap nativeTurn)

/-- The scripted model, with that template. -/
def nativeModel : Llama :=
  { Llama.scripted silent with
    renderJson := fun templateText messages tools _ => nativeRender templateText messages tools }

end Script

set_option maxRecDepth 4096 in
open Script in
/-- A template with a `tool` role has its spans used. -/
theorem qwenModel_result_spans :
    (prepareTools qwenModel [] { firstTurnOpen := [], generationOpen := [], turnTransition := [] }
        none [readTool] none).toolResultSpans = some {
      open_ := "<|im_end|>\n<|im_start|>tool\n".toList
      separator := "<|im_end|>\n<|im_start|>tool\n".toList
      close := "<|im_end|>\n<|im_start|>assistant\n".toList } :=
  ((result_spans_iff qwenModel [] _ none [readTool] none _ (by simp) (by decide)
    (by decide)).mpr (by decide)).1

set_option maxRecDepth 4096 in
open Script in
/-- A template with results on the model's turn does not. -/
theorem nativeModel_spans_unused :
    (deriveCapabilities [] nativeModel.probeRenderer).tools = true ∧
      ToolResultSpans.derive [] nativeModel.probeRenderer = some {
        open_ := "\n<turn>model\n<result>".toList
        separator := "</result><result>".toList
        close := "</result>\n<turn>model\n".toList } ∧
      (prepareTools nativeModel [] { firstTurnOpen := [], generationOpen := []
                                     turnTransition := [] } none [readTool] none).toolResultSpans =
        none := by
  decide

end Rampipe
