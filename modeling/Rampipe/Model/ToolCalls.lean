import Rampipe.Model.Protocol

/-!
# Rampipe — reading tool calls out of generated text

`tool_format.rs`, the parsing half: `parse_tool_calls` and its three families,
the turn-end rule, and the truncation flag.

The source's `while` loops carry a fuel argument here. `scan_calls` and
`split_args` shorten the text on every iteration, so the fuel they are given
never runs out. The argument loop of `parse_delimited_calls` does not shorten
it when a host configures three empty spans; running out of fuel is then the
value `none`, which says that the loop had not ended.
-/

namespace Rampipe

open ListSearch Text

/-! ## Closers -/

/-- The prefixes of `closer` that end in `>`, longest first, itself excluded. -/
def tagEndingPrefixes (closer : Text) : List Text :=
  ((List.range closer.length).reverse.filter fun i => closer[i]? == some '>').map
    (fun i => closer.take (i + 1)) |>.filter fun prefix_ => prefix_ != closer

/-- `call_close`, then its shorter tag-ending prefixes, longest first. -/
def closeCandidates (callClose : Text) : List Text :=
  (if callClose.isEmpty then [] else [callClose]) ++ tagEndingPrefixes callClose

/-- Where a call ends, and how much of `call_close` closed it. -/
def findClose (text callClose : Text) : Option (Nat × Nat) :=
  (closeCandidates callClose).findSome? fun candidate =>
    (find candidate text).map fun at_ => (at_, candidate.length)

/-! ## Scanning -/

/-- A body and what follows its call: up to the closer, or everything when the
call was severed. -/
def splitBody (afterOpen callClose : Text) : Text × Text :=
  match findClose afterOpen callClose with
  | some (end_, len) => (afterOpen.take end_, afterOpen.drop (end_ + len))
  | none => (afterOpen, [])

/-- The bodies `scan_calls` hands out, in order. -/
def scanBodies (callOpen callClose : Text) : Nat → Text → List Text
  | 0, _ => []
  | fuel + 1, rest =>
    match find callOpen rest with
    | none => []
    | some start =>
      -- the next call is looked for behind this one's closer
      let (body, remainder) := splitBody (rest.drop (start + callOpen.length)) callClose
      body :: if remainder.isEmpty then [] else scanBodies callOpen callClose fuel remainder

/-- Walks every call in `text` and hands each one's body to `read_body`. -/
def scanCalls (text callOpen callClose : Text)
    (readBody : Text → Option (Option ToolCall)) : Option (List ToolCall) :=
  ((scanBodies callOpen callClose (text.length + 1) text).mapM readBody).map
    fun calls => calls.filterMap id

/-- A name and its arguments; an empty name is not a call. -/
def named (name : Text) (arguments : Map Json) : Option ToolCall :=
  if name.isEmpty then none else some { name, arguments := .object arguments }

/-! ## The JSON family -/

def readJsonBody (fromStr : Text → Option Json) (nameKey argumentsKey body : Text) :
    Option ToolCall := do
  let value ← fromStr (trim body)
  let name ← (← value.get nameKey).asStr
  let arguments := (value.get argumentsKey).getD .null
  if name.isEmpty then none else some { name, arguments }

def parseJsonCalls (fromStr : Text → Option Json)
    (text callOpen callClose nameKey argumentsKey : Text) : Option (List ToolCall) :=
  scanCalls text callOpen callClose fun body =>
    some (readJsonBody fromStr nameKey argumentsKey body)

/-! ## The separated family -/

def findSep (text argSep : Text) : Option Nat :=
  if argSep.isEmpty then none else find argSep text

/-- The value at the front of `afterName`, and what follows it. -/
def splitValue (afterName valueOpen argClose argSep : Text) : Text × Text :=
  let bare :=
    match findSep afterName argSep with
    | some end_ => (trim (afterName.take end_), afterName.drop end_)
    | none => (trim afterName, [])
  match stripPrefix valueOpen afterName with
  -- wrapped: commas are part of the value, up to the closing wrapper
  | some inner =>
    if valueOpen.isEmpty then bare
    else
      match find argClose inner with
      | some end_ => (inner.take end_, inner.drop (end_ + argClose.length))
      | none => (inner, [])
  | none => bare

/-- The `name: value` pairs in a separated call's argument block. -/
def splitArgs (argNameClose valueOpen argClose argSep : Text) :
    Nat → Text → List (Text × Text)
  | 0, _ => []
  | fuel + 1, rest =>
    if rest.isEmpty then []
    else
      match find argNameClose rest with
      | none => []
      | some at_ =>
        let key := trim (rest.take at_)
        let (value, remainder) :=
          splitValue (rest.drop (at_ + argNameClose.length)) valueOpen argClose argSep
        let next :=
          match findSep remainder argSep with
          | some sepAt => remainder.drop (sepAt + argSep.length)
          | none => []
        -- a value without a name is skipped, not read as an argument
        (if key.isEmpty then [] else [(key, value)]) ++
          splitArgs argNameClose valueOpen argClose argSep fuel next

/-- `arguments.insert(key, Value::String(value))` for each pair in order. -/
def argumentMap (pairs : List (Text × Text)) : Map Json :=
  Map.ofEntries (pairs.map fun (key, value) => (key, .string value))

def readSeparatedBody (nameClose argNameClose valueOpen argClose argSep body : Text) :
    Option ToolCall := do
  let nameEnd ← find nameClose body
  let name := trim (body.take nameEnd)
  let args := body.drop (nameEnd + nameClose.length)
  let pairs := splitArgs argNameClose valueOpen argClose argSep (args.length + 1) args
  named name (argumentMap pairs)

def parseSeparatedCalls (text callOpen nameClose argNameClose valueOpen argClose argSep
    callClose : Text) : Option (List ToolCall) :=
  scanCalls text callOpen callClose fun body =>
    some (readSeparatedBody nameClose argNameClose valueOpen argClose argSep body)

/-! ## The delimited family -/

/-- The argument loop, as the pairs it inserts; `none` when the fuel ran out. -/
def delimitedArgs (argOpen argNameClose argClose : Text) :
    Nat → Text → Option (List (Text × Text))
  | 0, _ => none
  | fuel + 1, argsRest =>
    match find argOpen argsRest with
    | none => some []
    | some argStart =>
      let afterArgOpen := argsRest.drop (argStart + argOpen.length)
      match find argNameClose afterArgOpen with
      | none => some []
      | some argNameEnd =>
        let argName := trim (afterArgOpen.take argNameEnd)
        let afterName := afterArgOpen.drop (argNameEnd + argNameClose.length)
        -- a value with no closer is the rest of the body
        let (value, next) :=
          match find argClose afterName with
          | some valueEnd => (afterName.take valueEnd, afterName.drop (valueEnd + argClose.length))
          | none => (afterName, [])
        if next.isEmpty then some [(argName, value)]
        else
          (delimitedArgs argOpen argNameClose argClose fuel next).map ((argName, value) :: ·)

def readDelimitedBody (nameClose argOpen argNameClose argClose body : Text) :
    Option (Option ToolCall) :=
  match find nameClose body with
  | none => some none
  | some nameEnd =>
    let name := trim (body.take nameEnd)
    let argsRest := body.drop (nameEnd + nameClose.length)
    (delimitedArgs argOpen argNameClose argClose (argsRest.length + 1) argsRest).map fun pairs =>
      named name (argumentMap pairs)

def parseDelimitedCalls (text callOpen nameClose argOpen argNameClose argClose
    callClose : Text) : Option (List ToolCall) :=
  scanCalls text callOpen callClose (readDelimitedBody nameClose argOpen argNameClose argClose)

/-! ## Entry points -/

/-- Every tool call in `text`; `none` when the parser would not return. -/
def parseToolCalls (fromStr : Text → Option Json) (text : Text) :
    ToolFormat → Option (List ToolCall)
  | .json callOpen callClose nameKey argumentsKey =>
    parseJsonCalls fromStr text callOpen callClose nameKey argumentsKey
  | .delimited callOpen nameClose argOpen argNameClose argClose callClose =>
    parseDelimitedCalls text callOpen nameClose argOpen argNameClose argClose callClose
  | .separated callOpen nameClose argNameClose valueOpen argClose argSep callClose =>
    parseSeparatedCalls text callOpen nameClose argNameClose valueOpen argClose argSep callClose

/-- When a turn is over because the model has stopped making tool calls. -/
structure TurnEnd where
  callOpen : Text
  closers : List Text

namespace TurnEnd

/-- Reads the opener and closers out of a format. -/
def of (format : ToolFormat) : TurnEnd where
  callOpen := format.callOpen
  closers := closeCandidates format.callClose

/-- Where to cut `text` and stop, or `none` to keep generating. -/
def reached (turnEnd : TurnEnd) (text : Text) : Option Nat := do
  if turnEnd.callOpen.isEmpty then none
  let end_ ← (turnEnd.closers.filterMap fun closer =>
    (rfind closer text).map (· + closer.length)).max?
  let after := trimStart (text.drop end_)
  if after.isEmpty then none
  -- another call is starting, or may be
  if turnEnd.callOpen.isPrefixOf after || after.isPrefixOf turnEnd.callOpen then none
  some end_

end TurnEnd

/-- Whether `text` stops part-way into what would have been a tool call. -/
def endsMidCall (text : Text) (format : ToolFormat) : Bool :=
  let callOpen := format.callOpen
  let callClose := format.callClose
  if callOpen.isEmpty then false
  else
    let trimmed := trimEnd text
    -- the last opener has no closer behind it
    let unclosed :=
      match rfind callOpen trimmed with
      | some opened =>
        callClose.isEmpty || (findClose (trimmed.drop (opened + callOpen.length)) callClose).isNone
      | none => false
    -- ... or a proper non-empty prefix of the opener at the very end
    unclosed || ((List.range callOpen.length).drop 1).any fun at_ =>
      (callOpen.take at_).isSuffixOf trimmed

end Rampipe
