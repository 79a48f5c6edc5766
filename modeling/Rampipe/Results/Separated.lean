import Rampipe.Results.Calls

/-!
# Rampipe — the separated family, from template to parser

A template of this family puts a separator between arguments and wraps string
values. The probes only ever see wrapped values, and they see the template's
trailing framing as part of the closer; a model writes numbers bare and stops
where the call ends. So what has to be read back is more than what the template
writes: any mix of wrapped and bare values (`Value`), closed by the derived
closer or by a shorter form of it.

`splitValue_valueText` is the one step of the argument walk that treats the two
kinds differently, and `splitArgs_argsText` is the walk.
-/

namespace Rampipe

open ListSearch Text ToolFormat

/-! ## Calls a model writes -/

/-- A value as a model writes it: between wrappers, or bare. -/
inductive Value
  | wrapped (content : Text)
  | bare (content : Text)

def Value.content : Value → Text
  | wrapped content => content
  | bare content => content

/-- A call whose values are each written one way or the other. -/
structure ValueCall where
  name : Text
  args : List (Text × Value)
  name_ne : name ≠ []
  name_trim : trim name = name
  keys_ne : ∀ arg ∈ args, arg.1 ≠ []
  keys_trim : ∀ arg ∈ args, trim arg.1 = arg.1
  keys_nodup : (args.map Prod.fst).Nodup

/-- The call that was meant. -/
def ValueCall.textCall (call : ValueCall) : TextCall where
  name := call.name
  args := call.args.map fun arg => (arg.1, arg.2.content)
  name_ne := call.name_ne
  name_trim := call.name_trim
  keys_trim := List.forall_mem_map.mpr call.keys_trim
  keys_nodup := by
    rw [List.map_map]
    exact call.keys_nodup

/-! ## The spans of a template -/

/-- The literal text a separated template puts around a call, and the framing it
adds after one. -/
structure SeparatedSpans where
  callOpen : Text
  nameClose : Text
  argNameClose : Text
  wrapper : Text
  argSep : Text
  callClose : Text
  framing : Text

namespace SeparatedSpans

/-- The spans every call is written with. -/
def all (s : SeparatedSpans) : List Text :=
  [s.callOpen, s.nameClose, s.argNameClose, s.wrapper, s.argSep, s.callClose]

/-- What the template closes a call with: more than a model does. -/
def closer (s : SeparatedSpans) : Text := s.callClose ++ s.framing

def valueText (s : SeparatedSpans) : Value → Text
  | .wrapped content => s.wrapper ++ (content ++ s.wrapper)
  | .bare content => content

def argText (s : SeparatedSpans) (arg : Text × Value) : Text :=
  arg.1 ++ (s.argNameClose ++ s.valueText arg.2)

def argsText (s : SeparatedSpans) (args : List (Text × Value)) : Text :=
  join s.argSep (args.map s.argText)

/-- A call's body: its name, then its arguments. -/
def body (s : SeparatedSpans) (name : Text) (args : List (Text × Value)) : Text :=
  name ++ (s.nameClose ++ s.argsText args)

/-- A call as the template writes it: every value wrapped. -/
def write (s : SeparatedSpans) (name : Text) (args : List (Text × Text)) : Text :=
  s.callOpen ++ (s.body name (args.map fun arg => (arg.1, .wrapped arg.2)) ++ s.closer)

def format (s : SeparatedSpans) : ToolFormat :=
  .separated s.callOpen s.nameClose s.argNameClose s.wrapper s.wrapper s.argSep s.closer

/-- The arguments after the first, each with the separator before it. -/
def tailText (s : SeparatedSpans) (args : List (Text × Value)) : Text :=
  args.flatMap fun arg => s.argSep ++ s.argText arg

theorem argsText_cons (s : SeparatedSpans) (arg : Text × Value) (args : List (Text × Value)) :
    s.argsText (arg :: args) = s.argText arg ++ s.tailText args := by
  -- `join` looks one argument ahead, so the induction is on the tail
  induction args generalizing arg with
  | nil => simp [argsText, join, tailText]
  | cons next args ih =>
    have hNext := ih next
    rw [argsText, List.map_cons] at hNext ⊢
    rw [List.map_cons, join, hNext, List.append_assoc]
    · simp only [tailText, List.flatMap_cons, List.append_assoc]
    · simp

/-! ## Reading a call back -/

/-- The value, with what is written after it, is read as what was meant. -/
def LegibleValue (s : SeparatedSpans) (after : Text) : Value → Prop
  | .wrapped content => EndsFirst s.wrapper content
  | .bare content => trim content = content ∧ ¬ s.wrapper <+: content ++ after ∧
      if after = [] then ¬ s.argSep <:+: content else EndsFirst s.argSep content

/-- Each argument's name and value are legible where they stand. -/
def LegibleArgs (s : SeparatedSpans) : List (Text × Value) → Prop
  | [] => True
  | arg :: args => EndsFirst s.argNameClose arg.1 ∧ s.LegibleValue (s.tailText args) arg.2 ∧
      LegibleArgs s args

/-- No name, key or value completes the span that ends it early, and nothing in
the call completes its closer early. -/
structure Legible (s : SeparatedSpans) (call : ValueCall) (closer : Text) : Prop where
  name : EndsFirst s.nameClose call.name
  args : s.LegibleArgs call.args
  body : EndsFirst closer (s.body call.name call.args)

instance (s : SeparatedSpans) (after : Text) : (value : Value) →
    Decidable (s.LegibleValue after value)
  | .wrapped content => inferInstanceAs (Decidable (EndsFirst s.wrapper content))
  | .bare content => inferInstanceAs (Decidable (trim content = content ∧
      ¬ s.wrapper <+: content ++ after ∧
      if after = [] then ¬ s.argSep <:+: content else EndsFirst s.argSep content))

instance decidableLegibleArgs (s : SeparatedSpans) : (args : List (Text × Value)) →
    Decidable (s.LegibleArgs args)
  | [] => inferInstanceAs (Decidable True)
  | arg :: args =>
    have := decidableLegibleArgs s args
    inferInstanceAs (Decidable (EndsFirst s.argNameClose arg.1 ∧
      s.LegibleValue (s.tailText args) arg.2 ∧ s.LegibleArgs args))

instance (s : SeparatedSpans) (call : ValueCall) (closer : Text) :
    Decidable (s.Legible call closer) :=
  decidable_of_iff (EndsFirst s.nameClose call.name ∧ s.LegibleArgs call.args ∧
    EndsFirst closer (s.body call.name call.args))
    ⟨fun h => ⟨h.1, h.2.1, h.2.2⟩, fun h => ⟨h.name, h.args, h.body⟩⟩

section Reading

variable {s : SeparatedSpans}

/-- What follows a value is nothing, or the separator and the next argument. -/
theorem tailText_cases (s : SeparatedSpans) (args : List (Text × Value)) :
    args = [] ∧ s.tailText args = [] ∨
      args ≠ [] ∧ s.tailText args = s.argSep ++ s.argsText args := by
  cases args with
  | nil => exact Or.inl ⟨rfl, rfl⟩
  | cons arg args =>
    refine Or.inr ⟨List.cons_ne_nil _ _, ?_⟩
    rw [argsText_cons, tailText, List.flatMap_cons, List.append_assoc]
    rfl

/-- A wrapped value runs to its wrapper, a bare one to the separator. -/
theorem splitValue_valueText (hWrapper : s.wrapper ≠ []) (hSep : s.argSep ≠ []) {value : Value}
    (args : List (Text × Value)) (h : s.LegibleValue (s.tailText args) value) :
    splitValue (s.valueText value ++ s.tailText args) s.wrapper s.wrapper s.argSep =
      (value.content, s.tailText args) := by
  cases value with
  | wrapped content =>
    -- past the wrapper the value runs to the next one, commas and all
    have hStrip : stripPrefix s.wrapper (s.valueText (.wrapped content) ++ s.tailText args) =
        some (content ++ (s.wrapper ++ s.tailText args)) := by
      rw [valueText, List.append_assoc, List.append_assoc, stripPrefix_append]
    have hFind : find s.wrapper (content ++ (s.wrapper ++ s.tailText args)) =
        some content.length := find_append h _
    rw [splitValue, hStrip]
    simp only [List.isEmpty_iff, hWrapper, if_false, hFind]
    rw [List.take_left, ← List.drop_drop, List.drop_left, List.drop_left]
    rfl
  | bare content =>
    -- no wrapper in front: the value runs to the separator
    obtain ⟨hTrim, hNot, hEnds⟩ := h
    have hStrip : stripPrefix s.wrapper (content ++ s.tailText args) = none :=
      stripPrefix_eq_none_iff.mpr hNot
    rw [splitValue, valueText, hStrip]
    simp only [findSep, List.isEmpty_iff, hSep, if_false]
    rcases s.tailText_cases args with ⟨-, hTail⟩ | ⟨-, hTail⟩
    · -- the last argument: no separator is left
      rw [if_pos hTail] at hEnds
      rw [hTail, List.append_nil, find_eq_none_iff.mpr hEnds]
      show (trim content, []) = _
      rw [hTrim]
      rfl
    · have hNe : s.tailText args ≠ [] := by
        rw [hTail]
        simp [hSep]
      rw [if_neg hNe] at hEnds
      rw [hTail, find_append hEnds]
      show (trim (List.take _ _), List.drop _ _) = _
      rw [List.take_left, List.drop_left, hTrim]
      rfl

/-- One turn of the walk reads one argument and moves past its separator. -/
theorem splitArgs_cons (hArgNameClose : s.argNameClose ≠ []) (hWrapper : s.wrapper ≠ [])
    (hSep : s.argSep ≠ []) {arg : Text × Value} {args : List (Text × Value)} (hNe : arg.1 ≠ [])
    (hTrim : trim arg.1 = arg.1) (h : s.LegibleArgs (arg :: args)) (fuel : Nat) :
    splitArgs s.argNameClose s.wrapper s.wrapper s.argSep (fuel + 1) (s.argsText (arg :: args)) =
      (arg.1, arg.2.content) ::
        splitArgs s.argNameClose s.wrapper s.wrapper s.argSep fuel (s.argsText args) := by
  obtain ⟨hKey, hValue, -⟩ := h
  have hText : s.argsText (arg :: args) =
      arg.1 ++ (s.argNameClose ++ (s.valueText arg.2 ++ s.tailText args)) := by
    rw [argsText_cons, argText]
    simp only [List.append_assoc]
  have hNonempty : (arg.1 ++ (s.argNameClose ++ (s.valueText arg.2 ++ s.tailText args))).isEmpty =
      false := by
    simp [hArgNameClose]
  have hDrop : (arg.1 ++ (s.argNameClose ++ (s.valueText arg.2 ++ s.tailText args))).drop
      (arg.1.length + s.argNameClose.length) = s.valueText arg.2 ++ s.tailText args := by
    rw [← List.drop_drop, List.drop_left, List.drop_left]
  rw [hText, splitArgs, hNonempty, find_append hKey]
  simp only [Bool.false_eq_true, if_false, List.take_left, hDrop,
    splitValue_valueText hWrapper hSep args hValue, hTrim, List.isEmpty_iff, hNe]
  -- what is left starts with the separator, unless this argument was the last
  rcases s.tailText_cases args with ⟨rfl, hTail⟩ | ⟨-, hTail⟩
  · have hNone : findSep [] s.argSep = none := by simp [findSep, find, hSep]
    simp only [hTail, hNone]
    rfl
  · have hSome : findSep (s.argSep ++ s.argsText args) s.argSep = some 0 := by
      rw [findSep, if_neg (by simpa using hSep), find_of_isPrefix (List.prefix_append _ _)]
    simp only [hTail, hSome, Nat.zero_add, List.drop_left]
    rfl

/-- The walk reads the arguments that were written, in order. -/
theorem splitArgs_argsText (hArgNameClose : s.argNameClose ≠ []) (hWrapper : s.wrapper ≠ [])
    (hSep : s.argSep ≠ []) {args : List (Text × Value)} (hNe : ∀ arg ∈ args, arg.1 ≠ [])
    (hTrim : ∀ arg ∈ args, trim arg.1 = arg.1) (h : s.LegibleArgs args) {fuel : Nat}
    (hFuel : args.length ≤ fuel) :
    splitArgs s.argNameClose s.wrapper s.wrapper s.argSep fuel (s.argsText args) =
      args.map fun arg => (arg.1, arg.2.content) := by
  induction args generalizing fuel with
  -- no text, no arguments, with fuel or without
  | nil => cases fuel <;> rfl
  | cons arg args ih =>
    obtain ⟨fuel, rfl⟩ : ∃ n, fuel = n + 1 := ⟨fuel - 1, by simp at hFuel; omega⟩
    rw [splitArgs_cons hArgNameClose hWrapper hSep (hNe _ List.mem_cons_self)
      (hTrim _ List.mem_cons_self) h, List.map_cons]
    congr 1
    exact ih (fun arg hArg => hNe arg (List.mem_cons_of_mem _ hArg))
      (fun arg hArg => hTrim arg (List.mem_cons_of_mem _ hArg)) h.2.2
      (Nat.le_of_succ_le_succ hFuel)

/-- The text is at least as long as it has arguments behind the first. -/
theorem length_le_tailText (hSep : s.argSep ≠ []) (args : List (Text × Value)) :
    args.length ≤ (s.tailText args).length := by
  have hPos := List.length_pos_iff.mpr hSep
  induction args with
  | nil => exact Nat.zero_le _
  | cons arg args ih =>
    rw [tailText] at ih
    simp only [tailText, List.flatMap_cons, List.length_cons, List.length_append]
    omega

/-- With the first one more. -/
theorem length_le_argsText (hSep : s.argSep ≠ []) (args : List (Text × Value)) :
    args.length ≤ (s.argsText args).length + 1 := by
  cases args with
  | nil => exact Nat.zero_le _
  | cons arg args =>
    have hTail := length_le_tailText hSep args
    rw [argsText_cons, List.length_cons, List.length_append]
    omega

/-- A body whose name and arguments are legible is read as that call. -/
theorem readSeparatedBody_args (hArgNameClose : s.argNameClose ≠ []) (hWrapper : s.wrapper ≠ [])
    (hSep : s.argSep ≠ []) (call : ValueCall) (hCallName : EndsFirst s.nameClose call.name)
    (hLegible : s.LegibleArgs call.args) :
    readSeparatedBody s.nameClose s.argNameClose s.wrapper s.wrapper s.argSep
      (s.body call.name call.args) = some call.textCall.toolCall := by
  have hArgs : (s.body call.name call.args).drop (call.name.length + s.nameClose.length) =
      s.argsText call.args := by
    rw [body, ← List.drop_drop, List.drop_left, List.drop_left]
  have hName : (s.body call.name call.args).take call.name.length = call.name := List.take_left
  have hFind : find s.nameClose (s.body call.name call.args) = some call.name.length :=
    find_append hCallName _
  -- one argument more than there are separators
  have hRead := splitArgs_argsText hArgNameClose hWrapper hSep call.keys_ne call.keys_trim hLegible
    (length_le_argsText hSep call.args)
  rw [readSeparatedBody, hFind]
  simp only [Option.bind_eq_bind, Option.bind_some, hArgs, hName, call.name_trim]
  rw [hRead]
  exact call.textCall.named_argumentMap

/-- A legible call's body is read as that call. -/
theorem readSeparatedBody_body (hArgNameClose : s.argNameClose ≠ []) (hWrapper : s.wrapper ≠ [])
    (hSep : s.argSep ≠ []) {call : ValueCall} {closer : Text} (h : s.Legible call closer) :
    readSeparatedBody s.nameClose s.argNameClose s.wrapper s.wrapper s.argSep
      (s.body call.name call.args) = some call.textCall.toolCall :=
  readSeparatedBody_args hArgNameClose hWrapper hSep call h.name h.args

/-- One legible call among prose is read as that call, whichever form of the
closer ends it. -/
theorem parseToolCalls_call (fromStr : Text → Option Json) (hArgNameClose : s.argNameClose ≠ [])
    (hWrapper : s.wrapper ≠ []) (hSep : s.argSep ≠ []) {prose closer after : Text}
    {call : ValueCall} (hProse : EndsFirst s.callOpen prose)
    (hCloser : closer ∈ closeCandidates s.closer) (hLegible : s.Legible call closer)
    (hLonger : ∀ longer ∈ closeCandidates s.closer, closer.length < longer.length →
      ¬ longer <:+: closer ++ after)
    (hAfter : after = [] ∨ ¬ s.callOpen <:+: after) :
    parseToolCalls fromStr
        (prose ++ (s.callOpen ++ (s.body call.name call.args ++ (closer ++ after)))) s.format =
      some [call.textCall.toolCall] := by
  have hClose := findClose_append hCloser hLegible.body hLonger
  -- a body that reads is never dropped
  have hRead : (fun body => some (readSeparatedBody s.nameClose s.argNameClose s.wrapper s.wrapper
      s.argSep body)) (s.body call.name call.args) = some (some call.textCall.toolCall) :=
    congrArg some (readSeparatedBody_body hArgNameClose hWrapper hSep hLegible)
  rw [format, parseToolCalls, parseSeparatedCalls]
  exact scanCalls_single hProse hClose hRead hAfter

end Reading

/-! ## The probes -/

/-- What the probes see of these spans: only wrapped values, and the framing as
part of the closer. -/
def probeSpans (s : SeparatedSpans) : ProbeSpans where
  callOpen := s.callOpen
  nameToArg1 := s.nameClose
  arg1ToVal1 := s.argNameClose ++ s.wrapper
  val1ToArg2 := s.wrapper ++ s.argSep
  arg2ToVal2 := s.argNameClose ++ s.wrapper
  afterVal2 := s.wrapper ++ s.closer
  afterName := s.nameClose ++ s.closer

/-- The probe's call is written as its region. -/
theorem write_probeCall (s : SeparatedSpans) :
    s.write probeCall.name probeCall.args = s.probeSpans.region := by
  simp only [write, body, probeCall, List.map_cons, List.map_nil, argsText, join, argText,
    valueText, ProbeSpans.region, probeSpans, List.append_assoc]

/-- So is the one without arguments. -/
theorem write_noArgsCall (s : SeparatedSpans) :
    s.write noArgsCall.name noArgsCall.args = s.probeSpans.noArgsRegion := by
  simp only [write, body, noArgsCall, List.map_nil, argsText, join, ProbeSpans.noArgsRegion,
    probeSpans, List.append_assoc, List.nil_append]

end SeparatedSpans

/-- A template of the family: it writes every call, arguments in key order and
values wrapped, with the same literal spans. -/
structure SeparatedTemplate (render : RenderFn) (templateText : Text) extends
    Framing render templateText where
  spans : SeparatedSpans
  nonempty : ∀ span ∈ spans.all, span ≠ []
  ascii : ∀ span ∈ spans.framing :: spans.all, IsAscii span
  sep_not_name : ¬ spans.argNameClose <:+: spans.argSep
  closer_not_sep : ¬ spans.argSep <+: spans.closer
  wrapper_closer : EndsFirst spans.closer spans.wrapper
  rendersCall : ∀ call : TextCall, Map.Ordered call.args →
    toFraming.Renders (callMessage call.name call.arguments) (spans.write call.name call.args)

namespace SeparatedTemplate

variable {render : RenderFn} {templateText : Text} (template : SeparatedTemplate render templateText)

/-- All the spans of the probe are in ASCII. -/
theorem ascii_probeSpans : ∀ span ∈ template.spans.probeSpans.all, IsAscii span := by
  have h := template.ascii
  simp only [SeparatedSpans.all, List.forall_mem_cons] at h
  obtain ⟨hFraming, hCallOpen, hNameClose, hArgNameClose, hWrapper, hArgSep, hCallClose, -⟩ := h
  have hCloser : IsAscii template.spans.closer := hCallClose.append hFraming
  simp only [ProbeSpans.all, SeparatedSpans.probeSpans, List.forall_mem_cons]
  exact ⟨hCallOpen, hNameClose, hArgNameClose.append hWrapper, hWrapper.append hArgSep,
    hArgNameClose.append hWrapper, hWrapper.append hCloser, hNameClose.append hCloser,
    List.forall_mem_nil _⟩

/-- The family's format is derived, with the wrapper split back out of the span
before a value, unless the braces of the probe read as a JSON call. -/
theorem deriveToolCallFormat_eq {fromStr : Text → Option Json}
    (hJson : deriveJsonFormat fromStr (template.spans.write probeCall.name probeCall.args) = none) :
    deriveToolCallFormat fromStr templateText render = some template.spans.format := by
  have hNe := template.nonempty
  simp only [SeparatedSpans.all, List.forall_mem_cons] at hNe
  obtain ⟨hCallOpen, hNameClose, hArgNameClose, hWrapper, hArgSep, hCallClose, -⟩ := hNe
  have hCloser : template.spans.closer ≠ [] := by
    simp [SeparatedSpans.closer, hCallClose]
  have hCall := template.rendersCall probeCall (by decide)
  have hNoArgs := template.rendersCall noArgsCall (by decide)
  rw [SeparatedSpans.write_probeCall] at hCall hJson
  rw [SeparatedSpans.write_noArgsCall] at hNoArgs
  have hMark : template.spans.probeSpans.MarkFree := fun span hSpan =>
    mark_not_mem_of_isAscii (template.ascii_probeSpans span hSpan)
  -- no argument has an opener, so the delimited family does not apply
  have hShared : sharedPrefix template.spans.probeSpans.nameToArg1
      template.spans.probeSpans.afterName = template.spans.probeSpans.nameToArg1 := by
    have h := sharedPrefix_append (a := []) (b := template.spans.closer) (by simp [IsAscii])
      template.spans.nameClose
    rwa [commonPrefix_nil, List.append_nil] at h
  have hDelimited := ProbeSpans.deriveDelimitedFormat_eq_none hMark hShared
  -- the separated family does, and gives back the spans
  have hSeparated : deriveSeparatedFormat template.spans.probeSpans.region
      template.spans.probeSpans.noArgsRegion template.spans.probeSpans.nameAt
      template.spans.probeSpans.arg1At template.spans.probeSpans.val1At
      template.spans.probeSpans.arg2At template.spans.probeSpans.val2At =
        some template.spans.format :=
    ProbeSpans.deriveSeparatedFormat_eq_some hMark rfl rfl rfl rfl rfl hNameClose hArgNameClose
      hWrapper hArgSep hCloser template.sep_not_name template.closer_not_sep
      template.wrapper_closer
  rw [template.deriveToolCallFormat_probed fromStr template.ascii_probeSpans hCallOpen
    (by simp [SeparatedSpans.probeSpans, hWrapper])
    (by simp [SeparatedSpans.probeSpans, hNameClose]) hCall hNoArgs, hJson, hDelimited, hSeparated]
  rfl

end SeparatedTemplate

/-! ## The round trip -/

/-- **Template to parser.** The format derived from a separated template reads
back a call whose values the model wrapped or left bare, closed by any accepted
form of the closer, with its values verbatim, provided that no prose completes
the opener early, that the call is legible, and that no longer form of the closer
is written after it. -/
theorem separated_roundTrip {render : RenderFn} {templateText : Text}
    (fromStr : Text → Option Json) (template : SeparatedTemplate render templateText)
    (hJson : deriveJsonFormat fromStr (template.spans.write probeCall.name probeCall.args) = none)
    (prose closer after : Text) (call : ValueCall)
    (hProse : EndsFirst template.spans.callOpen prose)
    (hCloser : ClosesAs (template.spans.callClose ++ template.spans.framing) closer)
    (hLegible : template.spans.Legible call closer)
    (hLonger : ∀ longer, ClosesAs (template.spans.callClose ++ template.spans.framing) longer →
      closer.length < longer.length → ¬ longer <:+: closer ++ after)
    (hAfter : after = [] ∨ ¬ template.spans.callOpen <:+: after) :
    ∃ format,
      format = .separated template.spans.callOpen template.spans.nameClose
        template.spans.argNameClose template.spans.wrapper template.spans.wrapper
        template.spans.argSep (template.spans.callClose ++ template.spans.framing) ∧
      deriveToolCallFormat fromStr templateText render = some format ∧
      parseToolCalls fromStr (prose ++ (template.spans.callOpen ++
        (template.spans.body call.name call.args ++ (closer ++ after)))) format =
          some [call.textCall.toolCall] ∧
      ∀ key value, (key, value) ∈ call.args →
        call.textCall.toolCall.arguments.get key = some (.string value.content) := by
  have hNe := template.nonempty
  simp only [SeparatedSpans.all, List.forall_mem_cons] at hNe
  obtain ⟨-, -, hArgNameClose, hWrapper, hArgSep, hCallClose, -⟩ := hNe
  -- the closer written is one of the forms that are tried
  have hMem : closer ∈ closeCandidates template.spans.closer :=
    mem_closeCandidates_of_closesAs (by simp [SeparatedSpans.closer, hCallClose]) hCloser
  refine ⟨template.spans.format, rfl, template.deriveToolCallFormat_eq hJson, ?_, ?_⟩
  · exact SeparatedSpans.parseToolCalls_call fromStr hArgNameClose hWrapper hArgSep hProse hMem
      hLegible (fun longer hMem => hLonger longer (closesAs_of_mem hMem)) hAfter
  · intro key value hKey
    refine call.textCall.get_arguments ?_
    exact List.mem_map.mpr ⟨(key, value), hKey, rfl⟩

/-- The stub template that writes a call with `spans`, in the turn framing of the
Gemma templates. -/
def separatedStub (spans : SeparatedSpans) (nonempty : ∀ span ∈ spans.all, span ≠ [])
    (ascii : ∀ span ∈ spans.framing :: spans.all, IsAscii span)
    (sep_not_name : ¬ spans.argNameClose <:+: spans.argSep)
    (closer_not_sep : ¬ spans.argSep <+: spans.closer)
    (wrapper_closer : EndsFirst spans.closer spans.wrapper) :
    SeparatedTemplate (textStub "<|turn>model\n".toList "<turn|>\n".toList spans.write) [] where
  toFraming := stubFraming _ _ _
  spans := spans
  nonempty := nonempty
  ascii := ascii
  sep_not_name := sep_not_name
  closer_not_sep := closer_not_sep
  wrapper_closer := wrapper_closer
  rendersCall := fun _ h => textStub_renders _ _ spans.write h

/-- The spans of the Gemma 4 template. -/
def gemmaSpans : SeparatedSpans where
  callOpen := "<|tool_call>call:".toList
  nameClose := "\x7b".toList
  argNameClose := ":".toList
  wrapper := "<|\"|>".toList
  argSep := ",".toList
  callClose := "\x7d<tool_call|>".toList
  framing := "<|tool_response>".toList

def gemmaTemplate :=
  separatedStub gemmaSpans (by decide) (by decide) (by decide) (by decide) (by decide)

/-- A review comment: prose with commas in it, a path, and a bare line number. -/
def commentCall : ValueCall where
  name := "comment".toList
  args := [("comment".toList, .wrapped "While the test passes, it is wrong: `seconds`, only.".toList),
    ("file".toList, .wrapped "src/timeline.rs".toList), ("line".toList, .bare "38".toList)]
  name_ne := by decide
  name_trim := by decide
  keys_ne := by decide
  keys_trim := by decide
  keys_nodup := by decide

set_option maxRecDepth 4096 in
/-- A call of Gemma's, with prose in front of it. -/
theorem gemma_roundTrip : ∃ format,
    deriveToolCallFormat (fun _ => none) []
      (textStub "<|turn>model\n".toList "<turn|>\n".toList gemmaSpans.write) = some format ∧
    parseToolCalls (fun _ => none) ("Found it.\n".toList ++ (gemmaSpans.callOpen ++
      (gemmaSpans.body commentCall.name commentCall.args ++ ("\x7d<tool_call|>".toList ++ [])))) format =
        some [commentCall.textCall.toolCall] := by
  -- the reply ends with the closer, so nothing longer fits
  have hLonger : ∀ longer : Text, ClosesAs (gemmaSpans.callClose ++ gemmaSpans.framing) longer →
      "\x7d<tool_call|>".toList.length < longer.length →
      ¬ longer <:+: "\x7d<tool_call|>".toList ++ [] := by
    intro longer _ hLen hInfix
    have hLe := hInfix.length_le
    rw [List.append_nil] at hLe
    omega
  obtain ⟨format, -, hDerive, hParse, -⟩ := separated_roundTrip (fun _ => none) gemmaTemplate
    (by decide) "Found it.\n".toList "\x7d<tool_call|>".toList [] commentCall
    (by decide) (by decide) (by decide) hLonger (Or.inl rfl)
  exact ⟨format, hDerive, hParse⟩

/-- The same template, with values in triple quotes. -/
def quotedSpans : SeparatedSpans := { gemmaSpans with wrapper := "\"\"\"".toList }

def quotedTemplate :=
  separatedStub quotedSpans (by decide) (by decide) (by decide) (by decide) (by decide)

/-- What somebody said: the value ends in a quote and holds no triple one. -/
def sayCall : ValueCall where
  name := "say".toList
  args := [("text".toList, .wrapped "He said \"hi\"".toList)]
  name_ne := by decide
  name_trim := by decide
  keys_ne := by decide
  keys_trim := by decide
  keys_nodup := by decide

/-- A value without the wrapper, whose last character completes the wrapper that
follows it: the value loses that character. -/
theorem quoted_value_shortened :
    ¬ quotedSpans.wrapper <:+: "He said \"hi\"".toList ∧
    deriveToolCallFormat (fun _ => none) []
        (textStub "<|turn>model\n".toList "<turn|>\n".toList quotedSpans.write) =
      some quotedSpans.format ∧
    (parseToolCalls (fun _ => none) (quotedSpans.callOpen ++
        (quotedSpans.body sayCall.name sayCall.args ++ quotedSpans.closer)) quotedSpans.format).map
          (fun calls => calls.map fun call => (call.arguments.get "text".toList).bind Json.asStr) =
      some [some "He said \"hi".toList] := by
  refine ⟨by decide, ?_, by decide⟩
  exact quotedTemplate.deriveToolCallFormat_eq (by decide)

end Rampipe
