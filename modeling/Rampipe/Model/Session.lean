import Rampipe.Model.Conversation

/-!
# Rampipe — opening, saving and reopening a conversation

What `LlamaSession` and `Conversation::save_state` do around a conversation's
life: derive the turn template by probing, work out the opening and the tool
surface, and carry a conversation across a state file and its sidecar. A
snapshot holds the sidecar as the value it was written from.

Main facts: `openConversation_ok` and `openConversationFromState_ok` — what a
conversation is like when it was opened, and when it was reopened.
-/

namespace Rampipe

open ListSearch Text ToolFormat

/-! ## The turn template -/

/-- A slice whose start lies past its end. -/
structure SlicePanic where

/-- `&text[start..stop]`, at offsets found by searching `text`. -/
def sliceOrPanic (text : Text) (start stop : Nat) : Except SlicePanic Text :=
  match slice text start stop with
  | some span => .ok span
  | none => .error ⟨⟩

/-- `render_messages` without a generation prompt. -/
def renderMessages (L : Llama) (templateText : Text) (messages : List (String × Text)) :
    Option Text :=
  L.renderJson templateText (.array (messages.map fun (role, content) => message role content))
    none false

def deriveFromProbe (L : Llama) (templateText u1 a1 u2 a2 : Text) :
    Except SlicePanic (Option ConversationTemplate) :=
  match renderMessages L templateText [("user", u1), ("assistant", a1), ("user", u2),
    ("assistant", a2)] with
  | none => .ok none
  | some rendered =>
    match find u1 rendered, find a1 rendered, find u2 rendered, find a2 rendered with
    | some u1Start, some a1Start, some u2Start, some a2Start => do
      if ¬ (u1Start < a1Start ∧ a1Start + a1.length ≤ u2Start ∧ u2Start < a2Start) then
        return none
      let generationOpen ← sliceOrPanic rendered (u1Start + u1.length) a1Start
      let turnTransition ← sliceOrPanic rendered (a1Start + a1.length) u2Start
      let generationOpen2 ← sliceOrPanic rendered (u2Start + u2.length) a2Start
      -- both replies must open alike
      if generationOpen ≠ generationOpen2 then
        return none
      return some { firstTurnOpen := rendered.take u1Start, generationOpen, turnTransition }
    | _, _, _, _ => .ok none

/-- One sentinel of the two probe transcripts. -/
def turnSentinel (probe : String) : Text :=
  "\uE000".toList ++ probe.toList ++ "<&\"'>\uE000".toList

def deriveConversationTemplate (L : Llama) (templateText : Text) :
    Except SlicePanic (Option ConversationTemplate) := do
  let some probeA ← deriveFromProbe L templateText (turnSentinel "RPA1") (turnSentinel "RPA2")
    (turnSentinel "RPA3") (turnSentinel "RPA4") | return none
  let some probeB ← deriveFromProbe L templateText (turnSentinel "RPB1") (turnSentinel "RPB2")
    (turnSentinel "RPB3") (turnSentinel "RPB4") | return none
  -- spans that depend on the messages are no spans
  return if probeA = probeB then some probeA else none

/-! ## The tool surface -/

structure ToolSetup where
  opening : Text
  systemForFirstTurn : Option Text
  toolFormat : Option ToolFormat
  toolResultSpans : Option ToolResultSpans
  capabilities : ChatCapabilities

/-- Decides how a system prompt and a tool list reach the model. -/
def prepareTools (L : Llama) (templateText : Text) (template : ConversationTemplate)
    (system : Option Text) (tools : List ToolSpec) (configuredFormat : Option ToolFormat) :
    ToolSetup :=
  let render := L.probeRenderer
  let capabilities := deriveCapabilities templateText render
  -- an empty list is not the same as no list
  let offered := if !tools.isEmpty && capabilities.tools then some tools else none
  let systemBlock := if capabilities.system then system else none
  let renderedOpening :=
    if systemBlock.isSome || offered.isSome then
      renderOpening templateText systemBlock offered render
    else none
  let toolFormat :=
    if offered.isSome then
      (deriveToolCallFormat L.fromStr templateText render).or configuredFormat
    else none
  let toolResultSpans :=
    if offered.isSome && capabilities.toolResults then ToolResultSpans.derive templateText render
    else none
  -- a system text that no opening carries is folded into the first message
  let openingCarriesSystem := systemBlock.isSome && renderedOpening.isSome
  { opening := renderedOpening.getD template.firstTurnOpen
    systemForFirstTurn := if openingCarriesSystem then none else system
    toolFormat
    toolResultSpans
    capabilities }

/-- The tool half of the setup depends on the tools alone. -/
theorem prepareTools_system (L : Llama) (templateText : Text) (template : ConversationTemplate)
    (system system' : Option Text) (tools : List ToolSpec) (configuredFormat : Option ToolFormat) :
    (prepareTools L templateText template system tools configuredFormat).toolFormat =
        (prepareTools L templateText template system' tools configuredFormat).toolFormat ∧
      (prepareTools L templateText template system tools configuredFormat).toolResultSpans =
        (prepareTools L templateText template system' tools configuredFormat).toolResultSpans ∧
      (prepareTools L templateText template system tools configuredFormat).capabilities =
        (prepareTools L templateText template system' tools configuredFormat).capabilities :=
  ⟨rfl, rfl, rfl⟩

/-! ## Opening -/

/-- A loaded model, as far as its conversations ask for it. -/
structure LlamaSession where
  path : Text

structure ConversationOptions where
  nCtx : Nat
  overflow : OverflowPolicy
  system : Option Text
  tools : List ToolSpec
  toolFormat : Option ToolFormat

/-- `new_context`, with an out-of-memory failure that says so. -/
def newContextReporting (L : Llama) (params : LlamaContextParams) (asked : Nat) :
    Except LlamaSessionError L.Ctx :=
  match L.newContext params with
  | .ok ctx => .ok ctx
  | .error source =>
    match L.gpuMemoryBytes with
    | some (free, total) =>
      .error (.contextAllocation asked (free / (1024 * 1024)) (total / (1024 * 1024)) source)
    | none => .error (.contextLoad source)

def CONVERSATION_DEFRAG_THOLD : ℚ := 1 / 10

namespace LlamaSession

variable {L : Llama}

/-- The model's template text and the spans derived from it. -/
def conversationTemplate (L : Llama) : Outcome (Text × ConversationTemplate) :=
  match L.chatTemplate with
  | none => .err .conversationTemplateUnavailable
  | some templateText =>
    match deriveConversationTemplate L templateText with
    | .error _ => .panicked
    | .ok none => .err .conversationTemplateUnavailable
    | .ok (some template) => .ok (templateText, template)

/-- Only the two ordinary rope kinds are trusted with a position shift. -/
def supportsKvCachePositionShift (L : Llama) : Bool :=
  L.ropeType = some .norm || L.ropeType = some .neoX

def openConversation (session : LlamaSession) (L : Llama) (options : ConversationOptions) :
    Outcome (Conversation L) :=
  -- without a position shift nothing can be evicted from the middle
  let (overflow, defragThold) :=
    if supportsKvCachePositionShift L then (options.overflow, CONVERSATION_DEFRAG_THOLD)
    else (OverflowPolicy.fail, -1)
  match newContextReporting L { nCtx := some options.nCtx, defragThold } options.nCtx with
  | .error e => .err e
  | .ok ctx =>
    match conversationTemplate L with
    | .err e => .err e
    | .panicked => .panicked
    | .hangs => .hangs
    | .ok (templateText, template) =>
      let setup := prepareTools L templateText template options.system options.tools
        options.toolFormat
      .ok {
        ctx
        handlePath := session.path
        template
        committedPos := 0
        nCtx := i32 (L.nCtx ctx)
        turns := []
        overflow
        tokens := []
        opening := setup.opening
        protectedPrefix := 0
        systemForFirstTurn := setup.systemForFirstTurn
        toolFormat := setup.toolFormat
        toolResultSpans := setup.toolResultSpans
        capabilities := setup.capabilities
        tools := options.tools
        configuredToolFormat := options.toolFormat }

end LlamaSession

/-! ## Saving and reopening -/

/-- The sidecar: everything llama.cpp's state file does not carry. -/
structure ConversationSnapshotMeta where
  modelPath : Text
  nCtx : Int
  overflow : OverflowPolicy
  turns : List TurnBoundary
  tools : List ToolSpec
  toolFormat : Option ToolFormat

/-- The two files `save_state` writes. -/
structure Snapshot (L : Llama) where
  state : L.StateFile
  sidecar : ConversationSnapshotMeta

variable {L : Llama}

def Conversation.saveState (c : Conversation L) : Outcome (Snapshot L) :=
  match L.stateSaveFile c.ctx c.tokens with
  | .error source => .err (.saveState source)
  | .ok state => .ok {
      state
      sidecar := {
        modelPath := c.handlePath
        nCtx := c.nCtx
        overflow := c.overflow
        turns := c.turns
        tools := c.tools
        toolFormat := c.configuredToolFormat } }

/-- `NonZeroU32::new`. -/
def nonZeroU32 (n : Nat) : Option Nat := if n = 0 then none else some n

open Conversation in
def LlamaSession.openConversationFromState (session : LlamaSession) (snapshot : Snapshot L) :
    Outcome (Conversation L) :=
  let sidecar := snapshot.sidecar
  if sidecar.modelPath ≠ session.path then
    .err (.snapshotModelMismatch sidecar.modelPath session.path)
  else
    let asked := asU32 sidecar.nCtx
    match newContextReporting L
        { nCtx := nonZeroU32 asked, defragThold := CONVERSATION_DEFRAG_THOLD } asked with
    | .error e => .err e
    | .ok ctx =>
      let nCtx := i32 (L.nCtx ctx)
      match conversationTemplate L with
      | .err e => .err e
      | .panicked => .panicked
      | .hangs => .hangs
      | .ok (templateText, template) =>
        -- at most as many tokens as the new context has positions
        match L.stateLoadFile ctx snapshot.state (asUsize nCtx) with
        | (.error source, _) => .err (.loadState source)
        | (.ok tokens, ctx) =>
          let setup := prepareTools L templateText template none sidecar.tools sidecar.toolFormat
          .ok {
            ctx
            handlePath := session.path
            template
            committedPos := tokens.length
            nCtx
            turns := sidecar.turns
            overflow := sidecar.overflow
            tokens
            -- the history has its opening already
            opening := []
            protectedPrefix := 0
            systemForFirstTurn := none
            toolFormat := setup.toolFormat
            toolResultSpans := setup.toolResultSpans
            capabilities := setup.capabilities
            tools := sidecar.tools
            configuredToolFormat := sidecar.toolFormat }

/-! ## Runs -/

/-- A conversation as `open_conversation` hands it out. -/
def Conversation.Opened (c : Conversation L) : Prop :=
  ∃ session options, LlamaSession.openConversation session L options = .ok c

/-- What can happen to a conversation: a call, or a save followed by a reopening. -/
inductive Event
  | request (request : Conversation.Request)
  | hibernate (session : LlamaSession)

namespace Conversation

/-- The conversation an event leaves; a hibernation that fails leaves it as it is. -/
def step (c : Conversation L) : Event → Conversation L
  | .request request => c.after request
  | .hibernate session =>
    match c.saveState with
    | .ok snapshot =>
      match session.openConversationFromState snapshot with
      | .ok c' => c'
      | _ => c
    | _ => c

/-- The event comes back: a call returns `Ok` or `Err`, a hibernation finds its
files. -/
def Returns (c : Conversation L) : Event → Prop
  | .request request => (∃ result, (c.call request).1 = .ok result) ∨
      ∃ e, (c.call request).1 = .err e
  | .hibernate session => ∃ snapshot c', c.saveState = .ok snapshot ∧
      session.openConversationFromState snapshot = .ok c'

/-- What a host can come to hold. -/
def Reachable (c : Conversation L) : Prop :=
  ∃ c0 : Conversation L, c0.Opened ∧ Reaches step Returns c0 c

/-- A freshly opened conversation holds nothing yet, and its tool surface is the
one its template and tools give. -/
theorem openConversation_ok {session : LlamaSession} {options : ConversationOptions}
    {c : Conversation L} (h : session.openConversation L options = .ok c) :
    c.turns = [] ∧ c.tokens = [] ∧ c.committedPos = 0 ∧ c.protectedPrefix = 0 ∧
      (∃ params, L.newContext params = .ok c.ctx ∧ c.nCtx = i32 (L.nCtx c.ctx)) ∧
      ∃ templateText, LlamaSession.conversationTemplate L = .ok (templateText, c.template) ∧
        ∃ system, prepareTools L templateText c.template system c.tools c.configuredToolFormat =
          { opening := c.opening, systemForFirstTurn := c.systemForFirstTurn
            toolFormat := c.toolFormat, toolResultSpans := c.toolResultSpans
            capabilities := c.capabilities } := by
  unfold LlamaSession.openConversation newContextReporting at h
  dsimp only at h
  -- no context, no conversation
  split at h
  · cases h
  rename_i ctx hCtx
  split at h
  · cases h
  · cases h
  · cases h
  rename_i templateText template hTemplate
  cases h
  -- only the context depends on how the request for it went
  refine ⟨rfl, rfl, rfl, rfl, ?_, templateText, hTemplate, options.system, rfl⟩
  split at hCtx
  · rename_i hNew
    cases hCtx
    exact ⟨_, hNew, rfl⟩
  · split at hCtx <;> cases hCtx

/-- What a reopened conversation takes from its snapshot. -/
theorem openConversationFromState_ok {session : LlamaSession} {snapshot : Snapshot L}
    {c : Conversation L} (h : session.openConversationFromState snapshot = .ok c) :
    snapshot.sidecar.modelPath = session.path ∧ c.handlePath = session.path ∧
      c.turns = snapshot.sidecar.turns ∧ c.overflow = snapshot.sidecar.overflow ∧
      c.tools = snapshot.sidecar.tools ∧ c.configuredToolFormat = snapshot.sidecar.toolFormat ∧
      c.committedPos = c.tokens.length ∧ c.opening = [] ∧ c.protectedPrefix = 0 ∧
      c.systemForFirstTurn = none ∧
      (∃ fresh params, L.newContext params = .ok fresh ∧
        params.nCtx = nonZeroU32 (asU32 snapshot.sidecar.nCtx) ∧ c.nCtx = i32 (L.nCtx fresh) ∧
        L.stateLoadFile fresh snapshot.state (asUsize c.nCtx) = (.ok c.tokens, c.ctx)) ∧
      ∃ templateText, LlamaSession.conversationTemplate L = .ok (templateText, c.template) ∧
        ∃ opening systemForFirstTurn,
          prepareTools L templateText c.template none c.tools c.configuredToolFormat =
            { opening, systemForFirstTurn, toolFormat := c.toolFormat
              toolResultSpans := c.toolResultSpans, capabilities := c.capabilities } := by
  unfold LlamaSession.openConversationFromState newContextReporting at h
  dsimp only at h
  -- the path in the sidecar is compared before anything is loaded
  split at h
  · cases h
  rename_i hPath
  split at h
  · cases h
  rename_i fresh hFresh
  split at h
  · cases h
  · cases h
  · cases h
  rename_i templateText template hTemplate
  split at h
  · cases h
  -- the tokens and the cache come from the state file, not from the sidecar
  rename_i tokens ctx hLoad
  cases h
  refine ⟨by simpa using hPath, rfl, rfl, rfl, rfl, rfl, rfl, rfl, rfl, rfl, ?_, templateText,
    hTemplate, _, _, rfl⟩
  split at hFresh
  · rename_i hNew
    cases hFresh
    exact ⟨_, _, hNew, rfl, rfl, hLoad⟩
  · split at hFresh <;> cases hFresh

theorem saveState_ok {c : Conversation L} {snapshot : Snapshot L} (h : c.saveState = .ok snapshot) :
    L.stateSaveFile c.ctx c.tokens = .ok snapshot.state ∧ snapshot.sidecar =
      { modelPath := c.handlePath, nCtx := c.nCtx, overflow := c.overflow, turns := c.turns
        tools := c.tools, toolFormat := c.configuredToolFormat } := by
  unfold saveState at h
  split at h
  · cases h
  · rename_i state hSave
    cases h
    exact ⟨hSave, rfl⟩

/-- The run of a single call that returns. -/
theorem Opened.reachable_after {c : Conversation L} (h : c.Opened) {request : Request}
    (hReturns : c.Returns (.request request)) : (c.after request).Reachable :=
  ⟨c, h, .tail .start hReturns⟩

end Conversation

/-! ## Conversations with a scripted model -/

namespace Script

/-- The model ends every turn at once, and no decode fails. -/
def silent : Script := ⟨fun _ => eog, fun _ => false⟩

def session : LlamaSession := ⟨"model.gguf".toList⟩

def options (nCtx : Nat) (system : Option Text) (tools : List ToolSpec) : ConversationOptions where
  nCtx := nCtx
  overflow := .dropOldestTurns
  system := system
  tools := tools
  toolFormat := none

/-- Greedy sampling, and nothing that could end a turn early. -/
def turnOptions (maxNewTokens : Int) : Conversation.TurnOptions where
  maxNewTokens := maxNewTokens
  sampling := .greedy {}
  grammar := none
  grammarComplete := none

/-- A plain message. -/
def say (message : String) (maxNewTokens : Int) : Conversation.Request :=
  .send message.toList none (turnOptions maxNewTokens)

end Script

end Rampipe
