import Rampipe.Model.Json

/-!
# Rampipe — tool-calling vocabulary

The types of `protocol.rs` the tool-calling surface is written in.
-/

namespace Rampipe

structure ToolFunction where
  name : Text
  description : Text
  parameters : Json

/-- One tool offered to a model. -/
structure ToolSpec where
  kind : Text
  function : ToolFunction

/-- `json!(tool)`: `kind` serialises as `type`. -/
def ToolSpec.toJson (tool : ToolSpec) : Json :=
  .obj [
    ("type".toList, .string tool.kind),
    ("function".toList, .obj [
      ("name".toList, .string tool.function.name),
      ("description".toList, .string tool.function.description),
      ("parameters".toList, tool.function.parameters)])]

/-- One tool call a model emitted. -/
structure ToolCall where
  name : Text
  arguments : Json

/-- How a model writes a tool call. -/
inductive ToolFormat
  | json (callOpen callClose nameKey argumentsKey : Text)
  | delimited (callOpen nameClose argOpen argNameClose argClose callClose : Text)
  | separated (callOpen nameClose argNameClose valueOpen argClose argSep callClose : Text)
  deriving DecidableEq

namespace ToolFormat

def callOpen : ToolFormat → Text
  | json callOpen .. => callOpen
  | delimited callOpen .. => callOpen
  | separated callOpen .. => callOpen

def callClose : ToolFormat → Text
  | json _ callClose .. => callClose
  | delimited _ _ _ _ _ callClose => callClose
  | separated _ _ _ _ _ _ callClose => callClose

end ToolFormat

end Rampipe
