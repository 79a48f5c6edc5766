import Rampipe.Results.Calls

/-!
# Rampipe — the JSON family, from template to parser

A template of this family writes a call as one serialised object between an
opener and a closer. The serialiser and the parser of `serde_json` are
parameters; what is asked of them is said by `Serde.Inverts`, for the objects at
hand only.

JSON delimits itself, but the parser does not use that: it ends a call at the
first occurrence of the derived closer. The round trip therefore holds exactly
when the object's own text, its strings included, does not complete the closer
early.
-/

namespace Rampipe

open ListSearch Text ToolFormat

/-! ## Serialised objects -/

/-- What is assumed of `serde_json` about one value: its text is a braced one
and parses back to it. -/
structure Serde.Inverts (ser : Json → Text) (fromStr : Text → Option Json) (value : Json) :
    Prop where
  braced : ∃ inner, ser value = '{' :: (inner ++ ['}'])
  inverts : fromStr (ser value) = some value

section Braced

variable {text inner : Text}

/-- A text between braces is trimmed already. -/
theorem trim_braced (h : text = '{' :: (inner ++ ['}'])) : trim text = text := by
  have hStart : trimStart text = text := by
    rw [h, trimStart, List.dropWhile_cons_of_neg (by decide)]
  rw [trim, hStart, trimEnd, h]
  simp only [List.reverse_cons, List.reverse_append, List.reverse_nil, List.nil_append,
    List.cons_append]
  rw [List.dropWhile_cons_of_neg (by decide)]
  simp

/-- Outside a call's braces nothing looks like one of them, so the outermost
braces are the call's. -/
theorem find_braces (h : text = '{' :: (inner ++ ['}'])) {callOpen callClose : Text}
    (hOpen : '{' ∉ callOpen) (hClose : '}' ∉ callClose) :
    find ['{'] (callOpen ++ (text ++ callClose)) = some callOpen.length ∧
    rfind ['}'] (callOpen ++ (text ++ callClose)) = some (callOpen.length + text.length - 1) := by
  subst h
  constructor
  · exact find_singleton_append hOpen _
  · have hSplit : callOpen ++ ('{' :: (inner ++ ['}']) ++ callClose) =
        (callOpen ++ '{' :: inner) ++ '}' :: callClose := by
      simp
    rw [hSplit, rfind_singleton_append hClose]
    simp

end Braced

/-! ## Keys -/

/-- The first member with the property is the one that has it. -/
theorem findKey_eq {members : Map Json} {p : Json → Bool} {key : Text} {value : Json}
    (hMem : (key, value) ∈ members) (hp : p value = true)
    (hOnly : ∀ member ∈ members, p member.2 = true → member.1 = key) :
    findKey members p = some key := by
  obtain ⟨found, hFound⟩ : ∃ found, members.find? (fun member => p member.2) = some found := by
    rw [← Option.isSome_iff_exists, List.find?_isSome]
    exact ⟨(key, value), hMem, hp⟩
  have hHolds := List.find?_some (p := fun member : Text × Json => p member.2) hFound
  have hKey := hOnly found (List.mem_of_find?_eq_some hFound) hHolds
  rw [findKey, hFound, Option.map_some, hKey]

/-- What is looked up is a member. -/
theorem Map.mem_of_get {members : Map Json} {key : Text} {value : Json}
    (h : Map.get key members = some value) : (key, value) ∈ members := by
  induction members with
  | nil => cases h
  | cons head rest ih =>
    obtain ⟨k, v⟩ := head
    rw [Map.get] at h
    split_ifs at h with hEq
    · obtain rfl := Option.some.inj h
      exact hEq ▸ List.mem_cons_self
    · exact List.mem_cons_of_mem _ (ih h)

/-- The payload between the outermost braces is the object, and what stands
around it are the opener and the closer. -/
theorem deriveJsonFormat_eq_some {fromStr : Text → Option Json} {text inner callOpen callClose : Text}
    {members : Map Json} {nameKey argumentsKey : Text} (h : text = '{' :: (inner ++ ['}']))
    (hOpen : '{' ∉ callOpen) (hClose : '}' ∉ callClose)
    (hParse : fromStr text = some (.object members))
    (hName : findKey members (isStr NAME) = some nameKey)
    (hArguments : findKey members (holdsStr VAL1) = some argumentsKey) :
    deriveJsonFormat fromStr (callOpen ++ (text ++ callClose)) =
      some (.json callOpen callClose nameKey argumentsKey) := by
  -- the first `{` opens the object and the last `}` closes it
  obtain ⟨hFind, hRfind⟩ := find_braces h hOpen hClose
  have hPos : 0 < text.length := by
    rw [h]
    simp
  have hEnd : callOpen.length + text.length - 1 + 1 = callOpen.length + text.length := by omega
  have hPayload : slice (callOpen ++ (text ++ callClose)) callOpen.length
      (callOpen.length + text.length) = some text := slice_append _ _ _ rfl rfl
  have hRest : slice (callOpen ++ (text ++ callClose)) (callOpen.length + text.length)
      (callOpen ++ (text ++ callClose)).length = some callClose := by
    have hSlice := slice_append (callOpen ++ text) callClose []
      (i := callOpen.length + text.length) (j := (callOpen ++ (text ++ callClose)).length)
      List.length_append.symm (by simp only [List.length_append]; omega)
    rwa [List.append_nil, List.append_assoc] at hSlice
  rw [deriveJsonFormat, hFind, hRfind]
  simp only [Option.bind_eq_bind, Option.bind_some, hEnd, hPayload, hParse, Json.asObject, hName,
    hArguments, hRest, List.take_left]
  rw [if_neg (by omega)]

/-! ## The templates -/

/-- A template of the family: it writes every call as one serialised object,
which holds the name under one key, the arguments under another, and besides
them only what no probe can be mistaken for. The texts around the object end in
none of the probes' own characters. -/
structure JsonTemplate (ser : Json → Text) (render : RenderFn) (templateText : Text) extends
    Framing render templateText where
  callOpen : Text
  callClose : Text
  nameKey : Text
  argumentsKey : Text
  extras : Map Json
  keys_ne : nameKey ≠ argumentsKey
  braceless : '{' ∉ callOpen ∧ '}' ∉ callClose
  unmarked : callOpen.head? ≠ some mark ∧ callClose.getLast? ≠ some endMark
  extras_plain : ∀ member ∈ extras, isStr NAME member.2 = false ∧ holdsStr VAL1 member.2 = false
  rendersCall : ∀ (name : Text) (arguments : Map Json), name ≠ [] →
    Json.Ordered (.object arguments) →
      toFraming.Renders (callMessage name (.object arguments))
        (callOpen ++ (ser (.object ((extras.insert nameKey (.string name)).insert argumentsKey
          (.object arguments))) ++ callClose))

namespace JsonTemplate

variable {ser : Json → Text} {render : RenderFn} {templateText : Text}
  (template : JsonTemplate ser render templateText)

/-- The members of the object that makes a call. -/
def members (name : Text) (arguments : Map Json) : Map Json :=
  (template.extras.insert template.nameKey (.string name)).insert template.argumentsKey
    (.object arguments)

/-- A call as the template writes it. -/
def write (name : Text) (arguments : Map Json) : Text :=
  template.callOpen ++ (ser (.object (template.members name arguments)) ++ template.callClose)

/-- The name is under its key. -/
theorem get_nameKey (name : Text) (arguments : Map Json) :
    (template.members name arguments).get template.nameKey = some (.string name) := by
  rw [members, Map.get_insert_of_ne template.keys_ne, Map.get_insert_self]

/-- The arguments are under theirs. -/
theorem get_argumentsKey (name : Text) (arguments : Map Json) :
    (template.members name arguments).get template.argumentsKey = some (.object arguments) := by
  rw [members, Map.get_insert_self]

/-- A member is one of those two, or one of the template's own. -/
theorem mem_members {name : Text} {arguments : Map Json} {member : Text × Json}
    (h : member ∈ template.members name arguments) :
    member = (template.argumentsKey, .object arguments) ∨
      member = (template.nameKey, .string name) ∨ member ∈ template.extras := by
  rcases Map.mem_insert h with h | h
  · exact Or.inl h
  · exact Or.inr (Map.mem_insert h)

/-! ## Deriving -/

/-- The arguments of the two-argument probe. -/
def probeArguments : Map Json := [(ARG1, .string VAL1), (ARG2, .string VAL2)]

/-- The probe's name is found by its key. -/
theorem findKey_name :
    findKey (template.members NAME probeArguments) (isStr NAME) = some template.nameKey := by
  refine findKey_eq (Map.mem_of_get (template.get_nameKey NAME probeArguments)) (by decide) ?_
  intro member hMem hName
  -- the arguments are no string, and an extra member is not the name
  rcases template.mem_members hMem with rfl | rfl | hExtra
  · cases hName
  · rfl
  · rw [(template.extras_plain member hExtra).1] at hName
    cases hName

/-- So are its arguments. -/
theorem findKey_arguments :
    findKey (template.members NAME probeArguments) (holdsStr VAL1) = some template.argumentsKey := by
  refine findKey_eq (Map.mem_of_get (template.get_argumentsKey NAME probeArguments)) (by decide) ?_
  intro member hMem hArguments
  -- the name is no object, and an extra member does not hold the value
  rcases template.mem_members hMem with rfl | rfl | hExtra
  · rfl
  · cases hArguments
  · rw [(template.extras_plain member hExtra).2] at hArguments
    cases hArguments

/-- The probe's call reads as JSON, between the template's own opener and closer. -/
theorem deriveJsonFormat_probe {fromStr : Text → Option Json}
    (hSerde : Serde.Inverts ser fromStr (.object (template.members NAME probeArguments))) :
    deriveJsonFormat fromStr (template.write NAME probeArguments) =
      some (.json template.callOpen template.callClose template.nameKey template.argumentsKey) := by
  obtain ⟨inner, hBraced⟩ := hSerde.braced
  exact deriveJsonFormat_eq_some hBraced template.braceless.1 template.braceless.2 hSerde.inverts
    template.findKey_name template.findKey_arguments

/-- The call starts with something a sentinel does not start with, and ends in
something a sentinel does not end in. -/
theorem write_edges {name : Text} {arguments : Map Json} {inner : Text}
    (hBraced : ser (.object (template.members name arguments)) = '{' :: (inner ++ ['}'])) :
    (∃ d ds, template.write name arguments = d :: ds ∧ d ≠ mark) ∧
    ∃ fs f, template.write name arguments = fs ++ [f] ∧ f ≠ endMark := by
  obtain ⟨hFirst, hLast⟩ := template.unmarked
  rw [write, hBraced]
  constructor
  · -- an empty opener or closer leaves the object's own brace at the edge
    cases hOpen : template.callOpen with
    | nil => exact ⟨'{', _, rfl, by decide⟩
    | cons d ds =>
      rw [hOpen] at hFirst
      exact ⟨d, _, rfl, fun h => hFirst (congrArg some h)⟩
  · rcases List.eq_nil_or_concat template.callClose with hClose | ⟨fs, f, hClose⟩
    · refine ⟨template.callOpen ++ '{' :: inner, '}', ?_, by decide⟩
      rw [hClose]
      simp
    · rw [hClose, List.concat_eq_append] at hLast ⊢
      refine ⟨template.callOpen ++ ('{' :: (inner ++ ['}']) ++ fs), f, by simp, ?_⟩
      rintro rfl
      exact hLast (by simp)

/-- Whatever JSON format is derived from the template, it is the template's. -/
theorem eq_of_derive {fromStr : Text → Option Json}
    (hSerde : Serde.Inverts ser fromStr (.object (template.members NAME probeArguments)))
    {format : ToolFormat}
    (h : deriveToolCallFormat fromStr templateText render = some format) :
    format = .json template.callOpen template.callClose template.nameKey template.argumentsKey := by
  obtain ⟨inner, hBraced⟩ := hSerde.braced
  obtain ⟨hFirst, hLast⟩ := template.write_edges hBraced
  -- the probe's own arguments stand in key order
  have hOrdered : Json.Ordered (.object probeArguments) := by
    refine Json.Ordered.object (by decide) ?_
    intro member hMem
    simp only [probeArguments, List.mem_cons, List.not_mem_nil, or_false] at hMem
    rcases hMem with rfl | rfl <;> exact Json.Ordered.string _
  exact template.eq_of_deriveJsonFormat
    (template.rendersCall NAME probeArguments (by decide) hOrdered) hFirst hLast
    (template.deriveJsonFormat_probe hSerde) h

/-! ## Reading a call back -/

/-- A serialised call is read back. -/
theorem readJsonBody_ser {fromStr : Text → Option Json} {name : Text} {arguments : Map Json}
    (hSerde : Serde.Inverts ser fromStr (.object (template.members name arguments)))
    (hName : name ≠ []) :
    readJsonBody fromStr template.nameKey template.argumentsKey
      (ser (.object (template.members name arguments))) =
        some { name, arguments := .object arguments } := by
  obtain ⟨inner, hBraced⟩ := hSerde.braced
  rw [readJsonBody, trim_braced hBraced, hSerde.inverts]
  simp only [Option.bind_eq_bind, Option.bind_some, Json.get, template.get_nameKey,
    template.get_argumentsKey, Json.asStr, Option.getD_some]
  rw [if_neg (by simpa using hName)]

end JsonTemplate

/-! ## The round trip -/

/-- **Template to parser.** The JSON format derived from a template reads back
the call the template writes, whatever name and whatever nested arguments it
carries, provided that the object's text does not complete a closer early. -/
theorem json_roundTrip {ser : Json → Text} {render : RenderFn} {templateText : Text}
    {fromStr : Text → Option Json} (template : JsonTemplate ser render templateText)
    {callOpen callClose nameKey argumentsKey : Text}
    (hDerive : deriveToolCallFormat fromStr templateText render =
      some (.json callOpen callClose nameKey argumentsKey))
    (name : Text) (arguments : Map Json) (hName : name ≠ [])
    (hProbe : Serde.Inverts ser fromStr
      (.object (template.members NAME JsonTemplate.probeArguments)))
    (hSerde : Serde.Inverts ser fromStr (.object (template.members name arguments)))
    (hCloser : template.callClose = [] ∨
      EndsFirst template.callClose (ser (.object (template.members name arguments)))) :
    parseToolCalls fromStr (template.write name arguments)
      (.json callOpen callClose nameKey argumentsKey) =
        some [{ name, arguments := .object arguments }] := by
  have hRead := template.readJsonBody_ser hSerde hName
  rw [template.eq_of_derive hProbe hDerive, parseToolCalls, parseJsonCalls, JsonTemplate.write]
  by_cases hClose : template.callClose = []
  · -- without a closer the call runs to the end
    rw [hClose, List.append_nil]
    show scanCalls ([] ++ (template.callOpen ++ _)) _ _ _ = _
    exact scanCalls_unclosed (endsFirst_nil _) (congrArg some hRead)
  · -- with one it runs to the whole closer, written right behind the object
    have hFind := findClose_full hClose (hCloser.resolve_left hClose) []
    have hForm : template.callOpen ++ (ser (.object (template.members name arguments)) ++
        template.callClose) = [] ++ (template.callOpen ++
          (ser (.object (template.members name arguments)) ++ (template.callClose ++ []))) := by
      simp
    rw [hForm]
    exact scanCalls_single (endsFirst_nil _) hFind (congrArg some hRead) (Or.inl rfl)

/-! ## A serialiser -/

/-- A string as compact JSON writes it. -/
def quoted (s : Text) : Text :=
  '"' :: (s.flatMap fun c =>
    if c = '"' then ['\\', '"']
    else if c = '\\' then ['\\', '\\']
    else if c = '\n' then ['\\', 'n']
    else if c = '\r' then ['\\', 'r']
    else if c = '\t' then ['\\', 't']
    else if c.toNat = 8 then ['\\', 'b']
    else if c.toNat = 12 then ['\\', 'f']
    else if c.toNat < 32 then
      "\\u00".toList ++ [(c.toNat / 16).digitChar, (c.toNat % 16).digitChar]
    else [c]) ++ ['"']

mutual

/-- `value.to_string()`. -/
def compact : Json → Text
  | .null => "null".toList
  | .bool true => "true".toList
  | .bool false => "false".toList
  | .number literal => literal
  | .string value => quoted value
  | .array items => '[' :: (join [','] (compactItems items) ++ [']'])
  | .object members => '{' :: (join [','] (compactMembers members) ++ ['}'])

def compactItems : List Json → List Text
  | [] => []
  | item :: items => compact item :: compactItems items

def compactMembers : List (Text × Json) → List Text
  | [] => []
  | member :: members => compactMember member :: compactMembers members

def compactMember : Text × Json → Text
  | (key, value) => quoted key ++ ':' :: compact value

end

/-- A parser that knows the texts of two objects and no other. -/
def scriptedFromStr (first second : Map Json) (text : Text) : Option Json :=
  if text = compact (.object first) then some (.object first)
  else if text = compact (.object second) then some (.object second)
  else none

/-- The scripted parser inverts the first document. -/
theorem inverts_first (first second : Map Json) :
    Serde.Inverts compact (scriptedFromStr first second) (.object first) where
  braced := ⟨_, rfl⟩
  inverts := if_pos rfl

/-- And the second, if it is another one. -/
theorem inverts_second {first second : Map Json}
    (h : compact (.object second) ≠ compact (.object first)) :
    Serde.Inverts compact (scriptedFromStr first second) (.object second) where
  braced := ⟨_, rfl⟩
  inverts := by rw [scriptedFromStr, if_neg h, if_pos rfl]

/-- The stub template that writes a call as `{"arguments": .., "name": ..}`
between `callOpen` and `callClose`, in the turn framing of the Hermes templates. -/
def hermesStub (callOpen callClose : Text) (braceless : '{' ∉ callOpen ∧ '}' ∉ callClose)
    (unmarked : callOpen.head? ≠ some mark ∧ callClose.getLast? ≠ some endMark) :
    JsonTemplate compact (stubRender "<|im_start|>assistant\n".toList "<|im_end|>\n".toList
      fun name arguments => callOpen ++ (compact (.obj [("name".toList, .string name),
        ("arguments".toList, .object arguments)]) ++ callClose)) [] where
  toFraming := stubFraming _ _ _
  callOpen := callOpen
  callClose := callClose
  nameKey := "name".toList
  argumentsKey := "arguments".toList
  extras := []
  keys_ne := by decide
  braceless := braceless
  unmarked := unmarked
  extras_plain := by simp
  rendersCall := fun name arguments _ _ => stubFraming_renders _ _ _ name arguments

/-- The opener and closer of the Hermes templates. -/
def hermesTemplate :=
  hermesStub "<tool_call>\n".toList "\n</tool_call>".toList (by decide) (by decide)

/-- Nested arguments, with braces, quotes and the closer's own tag in a string. -/
def editArguments : Map Json :=
  [("edits".toList, .array [.object [("line".toList, .number "38".toList),
      ("text".toList, .string "say(\"\x7d</tool_call>\")\n".toList)]]),
    ("path".toList, .string "src/main.rs".toList)]

def hermesFromStr : Text → Option Json :=
  scriptedFromStr (hermesTemplate.members NAME JsonTemplate.probeArguments)
    (hermesTemplate.members "edit".toList editArguments)

set_option maxRecDepth 4096 in
/-- A call of Hermes's, with nested arguments. -/
theorem hermes_roundTrip :
    parseToolCalls hermesFromStr (hermesTemplate.write "edit".toList editArguments)
      (.json "<tool_call>\n".toList "\n</tool_call>".toList "name".toList "arguments".toList) =
        some [{ name := "edit".toList, arguments := .object editArguments }] :=
  json_roundTrip hermesTemplate (by decide) "edit".toList editArguments (by decide)
    (inverts_first _ _) (inverts_second (by decide)) (Or.inr (by decide))

/-- The same template without line breaks around the object. -/
def tightTemplate :=
  hermesStub "<tool_call>".toList "</tool_call>".toList (by decide) (by decide)

def tightFromStr : Text → Option Json :=
  scriptedFromStr (tightTemplate.members NAME JsonTemplate.probeArguments)
    (tightTemplate.members "edit".toList editArguments)

set_option maxRecDepth 4096 in
/-- A string that holds the closer: the call ends inside it, what is left of the
object parses as nothing, and the call is dropped. -/
theorem closer_in_string_drops_call :
    deriveToolCallFormat tightFromStr []
      (stubRender "<|im_start|>assistant\n".toList "<|im_end|>\n".toList fun name arguments =>
        "<tool_call>".toList ++ (compact (.obj [("name".toList, .string name),
          ("arguments".toList, .object arguments)]) ++ "</tool_call>".toList)) =
      some (.json "<tool_call>".toList "</tool_call>".toList "name".toList "arguments".toList) ∧
    Serde.Inverts compact tightFromStr
      (.object (tightTemplate.members "edit".toList editArguments)) ∧
    (parseToolCalls tightFromStr (tightTemplate.write "edit".toList editArguments)
      (.json "<tool_call>".toList "</tool_call>".toList "name".toList "arguments".toList)).map
        List.length = some 0 := by
  refine ⟨by decide, inverts_second (by decide), by decide⟩

end Rampipe
