import Rampipe.Model.Protocol

/-!
# Rampipe — recovering a tool-call format from a chat template

`tool_format.rs`, the derivation half: render probe transcripts built from
sentinel strings, and read the literal spans the template put around them.
The renderer is a parameter throughout, as it is in the source (`RenderFn`).
-/

namespace Rampipe

open ListSearch Text

/-- Renders a template against `messages` and optional `tools`. -/
abbrev RenderFn := Text → Json → Option Json → Option Text

namespace ToolFormat

/-! ## Sentinels -/

def NAME : Text := "\uE000TFNAME\uE001".toList
def ARG1 : Text := "\uE000TFARGA\uE001".toList
def VAL1 : Text := "\uE000TFVALA\uE001".toList
def ARG2 : Text := "\uE000TFARGB\uE001".toList
def VAL2 : Text := "\uE000TFVALB\uE001".toList
def PLAIN : Text := "\uE000TFPLAIN\uE001".toList
def USER : Text := "\uE000TFUSER\uE001".toList
def RESULT : Text := "\uE000TFRESULT\uE001".toList
def REPLY : Text := "\uE000TFREPLY\uE001".toList
def RESULT2 : Text := "\uE000TFRESULTB\uE001".toList

/-! ## Probe transcripts -/

/-- A plain `{role, content}` message. -/
def message (role : String) (content : Text) : Json :=
  .obj [("role".toList, .string role.toList), ("content".toList, .string content)]

/-- An assistant message with empty content that makes one call. -/
def callMessage (name : Text) (arguments : Json) : Json :=
  .obj [
    ("role".toList, .string "assistant".toList),
    ("content".toList, .string []),
    ("tool_calls".toList, .array [.obj [
      ("type".toList, .string "function".toList),
      ("function".toList, .obj [
        ("name".toList, .string name),
        ("arguments".toList, arguments)])]])]

/-- The user's probe message answered by `reply`. -/
def answeredBy (reply : Json) : Json := .array [message "user" USER, reply]

def plainProbe : Json := answeredBy (message "assistant" PLAIN)

def callProbe : Json :=
  answeredBy (callMessage NAME (.obj [(ARG1, .string VAL1), (ARG2, .string VAL2)]))

def noArgsProbe : Json := answeredBy (callMessage NAME (.obj []))

/-- A one-tool list with a sentinel name. -/
def probeToolList : Json :=
  .array [.obj [
    ("type".toList, .string "function".toList),
    ("function".toList, .obj [
      ("name".toList, .string NAME),
      ("description".toList, .string "probe".toList),
      ("parameters".toList, .obj [
        ("type".toList, .string "object".toList),
        ("properties".toList, .obj [
          ("probe_arg".toList, .obj [
            ("type".toList, .string "string".toList),
            ("description".toList, .string "probe".toList)])]),
        ("required".toList, .array [.string "probe_arg".toList])])])]]

/-! ## Capabilities -/

structure ChatCapabilities where
  system : Bool
  tools : Bool
  toolResults : Bool
  deriving DecidableEq

/-- Both sentinels appear, the first before the second. -/
def appearInOrder (rendered first second : Text) : Bool :=
  match find first rendered, find second rendered with
  | some i, some j => decide (i < j)
  | _, _ => false

def probeSystem (templateText : Text) (render : RenderFn) : Bool :=
  match render templateText (.array [message "system" PLAIN, message "user" USER]) none with
  | none => false
  | some rendered => appearInOrder rendered PLAIN USER

def probeTools (templateText : Text) (render : RenderFn) : Bool :=
  let messages := Json.array [message "user" USER]
  match render templateText messages (some probeToolList), render templateText messages none with
  | some withTools, some withoutTools => withTools != withoutTools && contains withTools NAME
  | _, _ => false

def probeToolResults (templateText : Text) (render : RenderFn) : Bool :=
  let messages := Json.array
    [message "user" USER, message "assistant" PLAIN, message "tool" RESULT]
  match render templateText messages none with
  | none => false
  | some rendered => appearInOrder rendered PLAIN RESULT

def deriveCapabilities (templateText : Text) (render : RenderFn) : ChatCapabilities where
  system := probeSystem templateText render
  tools := probeTools templateText render
  toolResults := probeToolResults templateText render

/-! ## The diverging region -/

def commonPrefixLen (a b : List UInt8) : Nat := (commonPrefix a b).length

def commonSuffixLen (a b : List UInt8) : Nat := commonPrefixLen a.reverse b.reverse

/-- The span in which `withCalls` differs from `plain`, compared bytewise. -/
def divergingRegion (plain withCalls : Text) : Option Text :=
  let pre := commonPrefixLen (asBytes plain) (asBytes withCalls)
  let suffix := commonSuffixLen ((asBytes plain).drop pre) ((asBytes withCalls).drop pre)
  -- `checked_sub`
  if suffix ≤ (asBytes withCalls).length then
    getRange withCalls pre ((asBytes withCalls).length - suffix)
  else none

/-- `a`'s longest prefix that is bytewise also one of `b`, or nothing when that
cuts a character in two. -/
def sharedPrefix (a b : Text) : Text :=
  (getRange a 0 (commonPrefixLen (asBytes a) (asBytes b))).getD []

/-! ## The three families -/

/-- The key of the first member whose value satisfies `p`. -/
def findKey (members : Map Json) (p : Json → Bool) : Option Text :=
  (members.find? fun member => p member.2).map Prod.fst

/-- `value.as_str() == Some(s)`. -/
def isStr (s : Text) (value : Json) : Bool := value.asStr == some s

/-- An object one of whose values is the string `s`. -/
def holdsStr (s : Text) (value : Json) : Bool :=
  match value.asObject with
  | some args => args.any fun arg => isStr s arg.2
  | none => false

def deriveJsonFormat (fromStr : Text → Option Json) (region : Text) : Option ToolFormat := do
  -- the payload stands between the outermost braces
  let open_ ← find ['{'] region
  let close ← rfind ['}'] region
  if close < open_ then none
  let payload ← slice region open_ (close + 1)
  let parsed ← fromStr payload
  let object ← parsed.asObject
  let nameKey ← findKey object (isStr NAME)
  let argumentsKey ← findKey object (holdsStr VAL1)
  let callClose ← slice region (close + 1) region.length
  some (.json (region.take open_) callClose nameKey argumentsKey)

def deriveDelimitedFormat (region noArgsRegion : Text)
    (nameAt arg1At val1At arg2At val2At : Nat) : Option ToolFormat := do
  let nameToArg1 ← slice region (nameAt + NAME.length) arg1At
  let val1ToArg2 ← slice region (val1At + VAL1.length) arg2At
  let afterVal2 ← slice region (val2At + VAL2.length) region.length
  let noArgsNameAt ← find NAME noArgsRegion
  let afterNameNoArgs ← slice noArgsRegion (noArgsNameAt + NAME.length) noArgsRegion.length
  let nameClose := sharedPrefix nameToArg1 afterNameNoArgs
  let argClose := sharedPrefix val1ToArg2 afterVal2
  let argOpen ← stripPrefix nameClose nameToArg1
  let callClose ← stripPrefix argClose afterVal2
  -- an empty span would match at every offset
  if nameClose.isEmpty || argOpen.isEmpty || argClose.isEmpty then none
  -- cross-checks against the equations each span did not come from
  if val1ToArg2 ≠ argClose ++ argOpen then none
  if afterNameNoArgs ≠ nameClose ++ callClose then none
  let argNameClose ← slice region (arg1At + ARG1.length) val1At
  if argNameClose.isEmpty then none
  let argNameClose2 ← slice region (arg2At + ARG2.length) val2At
  if argNameClose2 ≠ argNameClose then none
  some (.delimited (region.take nameAt) nameClose argOpen argNameClose argClose callClose)

/-- Splits a value's opening wrapper back out of the span before it. -/
def splitWrapper (argNameClose argClose : Text) : Text × Text :=
  match stripSuffix argClose argNameClose with
  | some bare => if !argClose.isEmpty && !bare.isEmpty then (bare, argClose) else (argNameClose, [])
  | none => (argNameClose, [])

def deriveSeparatedFormat (region noArgsRegion : Text)
    (nameAt arg1At val1At arg2At val2At : Nat) : Option ToolFormat := do
  let nameClose ← slice region (nameAt + NAME.length) arg1At
  let argNameClose ← slice region (arg1At + ARG1.length) val1At
  let val1ToArg2 ← slice region (val1At + VAL1.length) arg2At
  let afterVal2 ← slice region (val2At + VAL2.length) region.length
  let noArgsNameAt ← find NAME noArgsRegion
  let afterNameNoArgs ← slice noArgsRegion (noArgsNameAt + NAME.length) noArgsRegion.length
  -- the probe without arguments has the closer right behind the name
  let callClose ← stripPrefix nameClose afterNameNoArgs
  let closingAt ← find callClose afterVal2
  -- the last value is closed by whatever stands before the closer
  let argClose := afterVal2.take closingAt
  let argSep ← stripPrefix argClose val1ToArg2
  let argNameClose2 ← slice region (arg2At + ARG2.length) val2At
  if argNameClose2 ≠ argNameClose then none
  let (argNameClose, valueOpen) := splitWrapper argNameClose argClose
  if nameClose.isEmpty || argNameClose.isEmpty || argSep.isEmpty || callClose.isEmpty then none
  -- a separator that no parser could tell from a name's end or the closer
  if contains argSep argNameClose || argSep.isPrefixOf callClose then none
  some (.separated (region.take nameAt) nameClose argNameClose valueOpen argClose argSep callClose)

/-- Recovers how a model emits a tool call from its template. -/
def deriveToolCallFormat (fromStr : Text → Option Json) (templateText : Text)
    (render : RenderFn) : Option ToolFormat := do
  let plain ← render templateText plainProbe none
  let withCalls ← render templateText callProbe none
  let noArgs ← render templateText noArgsProbe none
  let region ← divergingRegion plain withCalls
  let noArgsRegion ← divergingRegion plain noArgs
  let nameAt ← find NAME region
  let arg1At ← find ARG1 region
  let val1At ← find VAL1 region
  let arg2At ← find ARG2 region
  let val2At ← find VAL2 region
  -- JSON orders its keys as it likes, so it is tried before the order is checked
  match deriveJsonFormat fromStr region with
  | some format => some format
  | none =>
    if ¬ (nameAt < arg1At ∧ arg1At < val1At ∧ val1At < arg2At ∧ arg2At < val2At) then none
    else
      (deriveDelimitedFormat region noArgsRegion nameAt arg1At val1At arg2At val2At).or
        (deriveSeparatedFormat region noArgsRegion nameAt arg1At val1At arg2At val2At)

end ToolFormat

/-! ## The opening and the tool-result spans -/

open ToolFormat in
/-- Everything the template emits before the first user message's content. -/
def renderOpening (templateText : Text) (system : Option Text) (tools : Option (List ToolSpec))
    (render : RenderFn) : Option Text := do
  let systemMessages := match system with
    | some system => [message "system" system]
    | none => []
  let messages := Json.array (systemMessages ++ [message "user" USER])
  let tools := tools.map fun tools => Json.array (tools.map ToolSpec.toJson)
  let rendered ← render templateText messages tools
  -- what stands before the first user message does not depend on it
  let userAt ← find USER rendered
  some (rendered.take userAt)

/-- The spans a template puts around a sequence of tool results. -/
structure ToolResultSpans where
  open_ : Text
  separator : Text
  close : Text
  deriving DecidableEq

namespace ToolResultSpans

def render (spans : ToolResultSpans) (results : List Text) : Text :=
  spans.open_ ++ Text.join spans.separator results ++ spans.close

open ToolFormat

/-- Reads the three spans between an anchor, two results and the next reply. -/
def between (rendered anchor : Text) : Option ToolResultSpans := do
  let anchorAt ← find anchor rendered
  let firstAt ← find RESULT rendered
  let secondAt ← find RESULT2 rendered
  let replyAt ← find REPLY rendered
  -- out of order, the template has rearranged the messages
  if ¬ (anchorAt < firstAt ∧ firstAt < secondAt ∧ secondAt < replyAt) then none
  let open_ ← slice rendered (anchorAt + anchor.length) firstAt
  let separator ← slice rendered (firstAt + RESULT.length) secondAt
  let close ← slice rendered (secondAt + RESULT2.length) replyAt
  some { open_, separator, close }

/-- The `{"role": "tool"}` convention, anchored on the assistant's content. -/
def deriveByRole (templateText : Text) (render : RenderFn) : Option ToolResultSpans := do
  let rendered ← render templateText (.array [message "user" USER, message "assistant" PLAIN,
    message "tool" RESULT, message "tool" RESULT2, message "assistant" REPLY]) none
  between rendered PLAIN

/-- A nameless entry of a `tool_responses` array. -/
def toolResponse (response : Text) : Json :=
  .obj [("name".toList, .string []), ("response".toList, .string response)]

/-- Results carried on the assistant message, anchored on the user turn. -/
def deriveNative (templateText : Text) (render : RenderFn) : Option ToolResultSpans := do
  let rendered ← render templateText (.array [message "user" USER,
    .obj [
      ("role".toList, .string "assistant".toList),
      ("content".toList, .string []),
      ("tool_responses".toList, .array [toolResponse RESULT, toolResponse RESULT2])],
    message "assistant" REPLY]) none
  between rendered USER

/-- `derive_tool_result_spans`. -/
def derive (templateText : Text) (render : RenderFn) : Option ToolResultSpans :=
  (deriveByRole templateText render).or (deriveNative templateText render)

end ToolResultSpans

end Rampipe
