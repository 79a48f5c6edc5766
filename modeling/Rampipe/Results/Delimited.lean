import Rampipe.Results.Calls

/-!
# Rampipe — the delimited family, from template to parser

A template of this family writes one delimited block per argument. The four
equations the derivation solves do not determine the template's own spans: what
the argument opener and the call closer share moves into the closers before them
(`DelimitedSpans.derived`). Moving it changes no text (`write_derived`), and the
parser reads back whatever the moved spans write (`readDelimitedBody_body`), so
the derived format round-trips for any number of calls and arguments.

What the spans cannot promise is that a name, a value or the prose before a call
completes none of them early. `DelimitedSpans.Legible` says so for a call.
-/

namespace Rampipe

open ListSearch Text ToolFormat

/-! ## The spans of a template -/

/-- The literal text a delimited template puts around a call's names and values. -/
structure DelimitedSpans where
  callOpen : Text
  nameClose : Text
  argOpen : Text
  argNameClose : Text
  argClose : Text
  callClose : Text

namespace DelimitedSpans

def all (s : DelimitedSpans) : List Text :=
  [s.callOpen, s.nameClose, s.argOpen, s.argNameClose, s.argClose, s.callClose]

def argText (s : DelimitedSpans) (arg : Text × Text) : Text :=
  s.argOpen ++ (arg.1 ++ (s.argNameClose ++ (arg.2 ++ s.argClose)))

def argsText (s : DelimitedSpans) (args : List (Text × Text)) : Text := args.flatMap s.argText

/-- A call's body: its name, then its arguments. -/
def body (s : DelimitedSpans) (name : Text) (args : List (Text × Text)) : Text :=
  name ++ (s.nameClose ++ s.argsText args)

/-- A call as the template writes it. -/
def write (s : DelimitedSpans) (name : Text) (args : List (Text × Text)) : Text :=
  s.callOpen ++ (s.body name args ++ s.callClose)

/-- Calls, each after some prose, and what follows the last one. -/
def text (s : DelimitedSpans) (calls : List (Text × TextCall)) (trailing : Text) : Text :=
  (calls.flatMap fun (prose, call) => prose ++ s.write call.name call.args) ++ trailing

def format (s : DelimitedSpans) : ToolFormat :=
  .delimited s.callOpen s.nameClose s.argOpen s.argNameClose s.argClose s.callClose

@[simp] theorem argsText_nil (s : DelimitedSpans) : s.argsText [] = [] := rfl

@[simp] theorem argsText_cons (s : DelimitedSpans) (arg : Text × Text) (args : List (Text × Text)) :
    s.argsText (arg :: args) = s.argText arg ++ s.argsText args := rfl

/-! ## The derived factorisation -/

/-- What the two texts that can follow a closer have in common. -/
def shared (s : DelimitedSpans) : Text := commonPrefix s.argOpen s.callClose

/-- The spans the equations are solved by: the shared text closes the name and
every value instead of opening what comes next. -/
def derived (s : DelimitedSpans) : DelimitedSpans where
  callOpen := s.callOpen
  nameClose := s.nameClose ++ s.shared
  argOpen := s.argOpen.drop s.shared.length
  argNameClose := s.argNameClose
  argClose := s.argClose ++ s.shared
  callClose := s.callClose.drop s.shared.length

/-- Argument openers begin with what they share with the closer. -/
theorem shared_append_argOpen (s : DelimitedSpans) : s.shared ++ s.derived.argOpen = s.argOpen :=
  List.prefix_iff_eq_append.mp (commonPrefix_isPrefix_left s.argOpen s.callClose)

/-- So does the closer. -/
theorem shared_append_callClose (s : DelimitedSpans) :
    s.shared ++ s.derived.callClose = s.callClose :=
  List.prefix_iff_eq_append.mp (commonPrefix_isPrefix_right s.argOpen s.callClose)

/-- The shared text slides from behind the arguments to in front of them. -/
theorem argsText_derived (s : DelimitedSpans) (args : List (Text × Text)) :
    s.shared ++ s.derived.argsText args = s.argsText args ++ s.shared := by
  induction args with
  | nil => simp
  | cons arg args ih =>
    -- each argument hands the shared text on from its front to its back
    calc s.shared ++ s.derived.argsText (arg :: args)
      _ = (s.shared ++ s.derived.argOpen) ++ (arg.1 ++ (s.argNameClose ++ (arg.2 ++
            (s.argClose ++ (s.shared ++ s.derived.argsText args))))) := by
          simp only [argsText_cons, argText, derived, List.append_assoc]
      _ = s.argOpen ++ (arg.1 ++ (s.argNameClose ++ (arg.2 ++
            (s.argClose ++ (s.argsText args ++ s.shared))))) := by
          rw [shared_append_argOpen, ih]
      _ = s.argsText (arg :: args) ++ s.shared := by
          simp only [argsText_cons, argText, List.append_assoc]

/-- Both factorisations write the same text. -/
theorem write_derived (s : DelimitedSpans) (name : Text) (args : List (Text × Text)) :
    s.derived.write name args = s.write name args := by
  calc s.derived.write name args
    _ = s.callOpen ++ (name ++ (s.nameClose ++ ((s.shared ++ s.derived.argsText args) ++
          s.derived.callClose))) := by
        simp only [write, body, derived, List.append_assoc]
    _ = s.callOpen ++ (name ++ (s.nameClose ++ (s.argsText args ++
          (s.shared ++ s.derived.callClose)))) := by
        rw [argsText_derived, List.append_assoc]
    _ = s.write name args := by
        rw [shared_append_callClose]
        simp only [write, body, List.append_assoc]

/-- The derived spans write the same text. -/
theorem text_derived (s : DelimitedSpans) (calls : List (Text × TextCall)) (trailing : Text) :
    s.derived.text calls trailing = s.text calls trailing := by
  simp only [text, write_derived]

/-! ## Reading a call back -/

/-- No name, key or value completes the span that ends it early, and nothing in
the call completes its closer early. -/
structure Legible (s : DelimitedSpans) (call : TextCall) : Prop where
  name : EndsFirst s.nameClose call.name
  keys : ∀ arg ∈ call.args, EndsFirst s.argNameClose arg.1
  values : ∀ arg ∈ call.args, EndsFirst s.argClose arg.2
  body : EndsFirst s.callClose (s.body call.name call.args)

section Reading

variable {s : DelimitedSpans}

/-- An argument is written with something. -/
theorem argsText_ne_nil (hOpen : s.argOpen ≠ []) (arg : Text × Text) (args : List (Text × Text)) :
    s.argsText (arg :: args) ≠ [] := by
  intro h
  rw [argsText_cons, argText] at h
  simp only [List.append_eq_nil_iff] at h
  exact hOpen h.1.1

/-- One turn of the loop reads one argument. -/
theorem delimitedArgs_cons {arg : Text × Text} (hKey : trim arg.1 = arg.1)
    (hName : EndsFirst s.argNameClose arg.1) (hValue : EndsFirst s.argClose arg.2)
    (args : List (Text × Text)) (fuel : Nat) :
    delimitedArgs s.argOpen s.argNameClose s.argClose (fuel + 1) (s.argsText (arg :: args)) =
      if s.argsText args = [] then some [arg]
      else (delimitedArgs s.argOpen s.argNameClose s.argClose fuel (s.argsText args)).map
        (arg :: ·) := by
  -- opener, name, value: three cuts, each at the first occurrence of its span
  have hAfterOpen : (s.argsText (arg :: args)).drop (0 + s.argOpen.length) =
      arg.1 ++ (s.argNameClose ++ (arg.2 ++ (s.argClose ++ s.argsText args))) := by
    rw [argsText_cons, argText, Nat.zero_add, List.append_assoc, List.drop_left]
    simp only [List.append_assoc]
  have hAfterName : (arg.1 ++ (s.argNameClose ++ (arg.2 ++ (s.argClose ++ s.argsText args)))).drop
      (arg.1.length + s.argNameClose.length) = arg.2 ++ (s.argClose ++ s.argsText args) := by
    rw [← List.drop_drop, List.drop_left, List.drop_left]
  have hAfterValue : (arg.2 ++ (s.argClose ++ s.argsText args)).drop
      (arg.2.length + s.argClose.length) = s.argsText args := by
    rw [← List.drop_drop, List.drop_left, List.drop_left]
  have hFind : find s.argOpen (s.argsText (arg :: args)) = some 0 := by
    refine find_of_isPrefix ?_
    rw [argsText_cons, argText, List.append_assoc]
    exact List.prefix_append _ _
  rw [delimitedArgs, hFind]
  simp only [hAfterOpen, find_append hName, hAfterName, find_append hValue, List.take_left,
    hAfterValue, hKey, List.isEmpty_iff]

/-- The loop reads the arguments that were written, in order. -/
theorem delimitedArgs_argsText (hOpen : s.argOpen ≠ []) {args : List (Text × Text)}
    (hKeys : ∀ arg ∈ args, trim arg.1 = arg.1) (hNames : ∀ arg ∈ args, EndsFirst s.argNameClose arg.1)
    (hValues : ∀ arg ∈ args, EndsFirst s.argClose arg.2) {fuel : Nat} (hFuel : args.length < fuel) :
    delimitedArgs s.argOpen s.argNameClose s.argClose fuel (s.argsText args) = some args := by
  induction args generalizing fuel with
  -- the loop ends where no opener is left
  | nil =>
    obtain ⟨fuel, rfl⟩ : ∃ n, fuel = n + 1 := ⟨fuel - 1, by simp at hFuel; omega⟩
    have hNone : find s.argOpen (s.argsText []) = none := by simp [find, hOpen]
    rw [delimitedArgs, hNone]
  | cons arg args ih =>
    obtain ⟨fuel, rfl⟩ : ∃ n, fuel = n + 1 := ⟨fuel - 1, by simp at hFuel; omega⟩
    have hRest := ih (fun arg hArg => hKeys arg (List.mem_cons_of_mem _ hArg))
      (fun arg hArg => hNames arg (List.mem_cons_of_mem _ hArg))
      (fun arg hArg => hValues arg (List.mem_cons_of_mem _ hArg)) (Nat.lt_of_succ_lt_succ hFuel)
    rw [delimitedArgs_cons (hKeys _ List.mem_cons_self) (hNames _ List.mem_cons_self)
      (hValues _ List.mem_cons_self), hRest]
    -- nothing left stops the loop one turn early, with the same arguments
    cases args with
    | nil => rfl
    | cons next args => rw [if_neg (argsText_ne_nil hOpen next args), Option.map_some]

/-- The text is at least as long as it has arguments. -/
theorem length_le_argsText (hOpen : s.argOpen ≠ []) (args : List (Text × Text)) :
    args.length ≤ (s.argsText args).length := by
  have hPos := List.length_pos_iff.mpr hOpen
  induction args with
  | nil => exact Nat.zero_le _
  | cons arg args ih =>
    simp only [argsText_cons, argText, List.length_cons, List.length_append]
    omega

/-- A body whose names and values are each completed where they were written is
read as that call. -/
theorem readDelimitedBody_args (hOpen : s.argOpen ≠ []) {call : TextCall}
    (hCallName : EndsFirst s.nameClose call.name)
    (hKeys : ∀ arg ∈ call.args, EndsFirst s.argNameClose arg.1)
    (hValues : ∀ arg ∈ call.args, EndsFirst s.argClose arg.2) :
    readDelimitedBody s.nameClose s.argOpen s.argNameClose s.argClose
      (s.body call.name call.args) = some (some call.toolCall) := by
  have hArgs : (s.body call.name call.args).drop (call.name.length + s.nameClose.length) =
      s.argsText call.args := by
    rw [body, ← List.drop_drop, List.drop_left, List.drop_left]
  have hName : (s.body call.name call.args).take call.name.length = call.name := List.take_left
  have hFind : find s.nameClose (s.body call.name call.args) = some call.name.length :=
    find_append hCallName _
  -- the length of the arguments is fuel enough, openers being non-empty
  have hRead := delimitedArgs_argsText hOpen call.keys_trim hKeys hValues
    (Nat.lt_succ_of_le (length_le_argsText hOpen call.args))
  rw [readDelimitedBody, hFind]
  simp only [hArgs, hName, call.name_trim]
  rw [hRead, Option.map_some, call.named_argumentMap]

/-- A legible call's body is read as that call. -/
theorem readDelimitedBody_body (hOpen : s.argOpen ≠ []) {call : TextCall} (h : s.Legible call) :
    readDelimitedBody s.nameClose s.argOpen s.argNameClose s.argClose
      (s.body call.name call.args) = some (some call.toolCall) :=
  readDelimitedBody_args hOpen h.name h.keys h.values

/-- A text of calls is a reply with their bodies. -/
theorem text_eq_reply (s : DelimitedSpans) (calls : List (Text × TextCall)) (trailing : Text) :
    s.text calls trailing = reply s.callOpen s.callClose
      (calls.map fun call => (call.1, s.body call.2.name call.2.args)) trailing := by
  induction calls with
  | nil => rfl
  | cons call calls ih =>
    rw [List.map_cons, reply, ← ih]
    simp only [text, write, List.flatMap_cons, List.append_assoc]

/-- Legible calls among prose are read as those calls, in order. -/
theorem parseToolCalls_text (fromStr : Text → Option Json) (hOpen : s.argOpen ≠ [])
    (hClose : s.callClose ≠ []) {calls : List (Text × TextCall)} {trailing : Text}
    (hProse : ∀ call ∈ calls, EndsFirst s.callOpen call.1)
    (hLegible : ∀ call ∈ calls, s.Legible call.2) (hTrailing : ¬ s.callOpen <:+: trailing) :
    parseToolCalls fromStr (s.text calls trailing) s.format =
      some (calls.map fun call => call.2.toolCall) := by
  rw [text_eq_reply, format, parseToolCalls, parseDelimitedCalls]
  exact scanCalls_reply (fun call : TextCall => s.body call.name call.args) hClose hProse
    (fun call hCall => (hLegible call hCall).body)
    (fun call hCall => readDelimitedBody_body hOpen (hLegible call hCall)) hTrailing

end Reading

/-! ## The probes -/

/-- What the probes see of these spans. -/
def probeSpans (s : DelimitedSpans) : ProbeSpans where
  callOpen := s.callOpen
  nameToArg1 := s.nameClose ++ s.argOpen
  arg1ToVal1 := s.argNameClose
  val1ToArg2 := s.argClose ++ s.argOpen
  arg2ToVal2 := s.argNameClose
  afterVal2 := s.argClose ++ s.callClose
  afterName := s.nameClose ++ s.callClose

/-- The derived spans solve the four equations the probes give. -/
theorem derived_solves (s : DelimitedSpans) :
    s.probeSpans.nameToArg1 = s.derived.nameClose ++ s.derived.argOpen ∧
    s.probeSpans.val1ToArg2 = s.derived.argClose ++ s.derived.argOpen ∧
    s.probeSpans.afterVal2 = s.derived.argClose ++ s.derived.callClose ∧
    s.probeSpans.afterName = s.derived.nameClose ++ s.derived.callClose := by
  have hSolve : ∀ close opener rest : Text, s.shared ++ rest = opener →
      close ++ opener = (close ++ s.shared) ++ rest := by
    intro close opener rest h
    rw [List.append_assoc, h]
  exact ⟨hSolve _ _ _ s.shared_append_argOpen, hSolve _ _ _ s.shared_append_argOpen,
    hSolve _ _ _ s.shared_append_callClose, hSolve _ _ _ s.shared_append_callClose⟩

/-- The probes see nothing that is not made of the template's spans. -/
theorem forall_probeSpans {s : DelimitedSpans} {P : Text → Prop}
    (hAppend : ∀ a b, P a → P b → P (a ++ b)) (h : ∀ span ∈ s.all, P span) :
    ∀ span ∈ s.probeSpans.all, P span := by
  simp only [all, List.forall_mem_cons] at h
  obtain ⟨hCallOpen, hNameClose, hArgOpen, hArgNameClose, hArgClose, hCallClose, -⟩ := h
  simp only [ProbeSpans.all, probeSpans, List.forall_mem_cons]
  exact ⟨hCallOpen, hAppend _ _ hNameClose hArgOpen, hArgNameClose, hAppend _ _ hArgClose hArgOpen,
    hArgNameClose, hAppend _ _ hArgClose hCallClose, hAppend _ _ hNameClose hCallClose,
    List.forall_mem_nil _⟩

/-- The probe's call is written as its region. -/
theorem write_probeCall (s : DelimitedSpans) :
    s.write probeCall.name probeCall.args = s.probeSpans.region := by
  simp only [write, body, probeCall, argsText_cons, argsText_nil, argText, ProbeSpans.region,
    probeSpans, List.append_assoc, List.append_nil]

/-- And so is the one without arguments. -/
theorem write_noArgsCall (s : DelimitedSpans) :
    s.write noArgsCall.name noArgsCall.args = s.probeSpans.noArgsRegion := by
  simp only [write, body, noArgsCall, argsText_nil, ProbeSpans.noArgsRegion, probeSpans,
    List.append_assoc, List.append_nil]

end DelimitedSpans

/-- A template of the family: it writes every call, arguments in key order, with
the same literal spans, and neither of the two texts that may follow a closer is
the beginning of the other. -/
structure DelimitedTemplate (render : RenderFn) (templateText : Text) extends
    Framing render templateText where
  spans : DelimitedSpans
  nonempty : ∀ span ∈ spans.all, span ≠ []
  ascii : ∀ span ∈ spans.all, IsAscii span
  braceless : ∀ span ∈ spans.all, '{' ∉ span ∧ '}' ∉ span
  apart : ¬ spans.argOpen <+: spans.callClose ∧ ¬ spans.callClose <+: spans.argOpen
  rendersCall : ∀ call : TextCall, Map.Ordered call.args →
    toFraming.Renders (callMessage call.name call.arguments) (spans.write call.name call.args)

namespace DelimitedTemplate

variable {render : RenderFn} {templateText : Text} (template : DelimitedTemplate render templateText)

/-- The derived argument opener is not empty. -/
theorem derived_argOpen_ne : template.spans.derived.argOpen ≠ [] := by
  intro h
  have hApp := template.spans.shared_append_argOpen
  rw [h, List.append_nil] at hApp
  exact template.apart.1 (hApp ▸ commonPrefix_isPrefix_right _ _)

/-- Neither is the closer. -/
theorem derived_callClose_ne : template.spans.derived.callClose ≠ [] := by
  intro h
  have hApp := template.spans.shared_append_callClose
  rw [h, List.append_nil] at hApp
  exact template.apart.2 (hApp ▸ commonPrefix_isPrefix_left _ _)

/-- All the spans of the probe are in ASCII. -/
theorem ascii_probeSpans : ∀ span ∈ template.spans.probeSpans.all, IsAscii span :=
  DelimitedSpans.forall_probeSpans (fun _ _ ha hb => ha.append hb) template.ascii

/-- The call holds no brace, so it is not read as JSON. -/
theorem deriveJsonFormat_eq_none (fromStr : Text → Option Json) :
    deriveJsonFormat fromStr template.spans.probeSpans.region = none := by
  have hSpans : ∀ span ∈ template.spans.probeSpans.all, '{' ∉ span :=
    DelimitedSpans.forall_probeSpans (fun a b ha hb h => (List.mem_append.mp h).elim ha hb)
      fun span hSpan => (template.braceless span hSpan).1
  have hBrace : '{' ∉ template.spans.probeSpans.region :=
    ProbeSpans.not_mem_region hSpans (by decide)
  rw [deriveJsonFormat, find_cons_eq_none hBrace]
  rfl

/-- The family's format is derived, in the derived factorisation. -/
theorem deriveToolCallFormat_eq (fromStr : Text → Option Json) :
    deriveToolCallFormat fromStr templateText render = some template.spans.derived.format := by
  have hAscii : IsAscii template.spans.argOpen := template.ascii _ (by simp [DelimitedSpans.all])
  have hNe := template.nonempty
  simp only [DelimitedSpans.all, List.forall_mem_cons] at hNe
  obtain ⟨hCallOpen, hNameClose, -, hArgNameClose, hArgClose, hCallClose, -⟩ := hNe
  -- both probes are calls of the family
  have hCall := template.rendersCall probeCall (by decide)
  have hNoArgs := template.rendersCall noArgsCall (by decide)
  rw [DelimitedSpans.write_probeCall] at hCall
  rw [DelimitedSpans.write_noArgsCall] at hNoArgs
  have hMark : template.spans.probeSpans.MarkFree := fun span hSpan =>
    mark_not_mem_of_isAscii (template.ascii_probeSpans span hSpan)
  -- the derived closers: a closer of the template, and the head its two successors share
  have hName : sharedPrefix template.spans.probeSpans.nameToArg1
      template.spans.probeSpans.afterName = template.spans.derived.nameClose :=
    sharedPrefix_append hAscii template.spans.nameClose
  have hArg : sharedPrefix template.spans.probeSpans.val1ToArg2
      template.spans.probeSpans.afterVal2 = template.spans.derived.argClose :=
    sharedPrefix_append hAscii template.spans.argClose
  obtain ⟨h1, h2, h3, h4⟩ := template.spans.derived_solves
  have hDerive := ProbeSpans.deriveDelimitedFormat_eq_some hMark hName hArg h1 h2 h3 h4 rfl
    (by simp [DelimitedSpans.derived, hNameClose]) template.derived_argOpen_ne
    (by simp [DelimitedSpans.derived, hArgClose]) hArgNameClose
  rw [template.deriveToolCallFormat_probed fromStr template.ascii_probeSpans hCallOpen
    (by simp [DelimitedSpans.probeSpans, hCallClose])
    (by simp [DelimitedSpans.probeSpans, hCallClose]) hCall hNoArgs,
    template.deriveJsonFormat_eq_none, hDerive]
  rfl

end DelimitedTemplate

/-! ## The round trip -/

/-- **Template to parser.** The format derived from a delimited template reads a
reply's calls back, in order and with their values verbatim, whatever prose
stands around them, provided that no prose completes the opener early and that
each call is legible in the derived spans. -/
theorem delimited_roundTrip {render : RenderFn} {templateText : Text}
    (fromStr : Text → Option Json) (template : DelimitedTemplate render templateText)
    (calls : List (Text × TextCall)) (trailing : Text)
    (hProse : ∀ call ∈ calls, EndsFirst template.spans.callOpen call.1)
    (hTrailing : ¬ template.spans.callOpen <:+: trailing)
    (hLegible : ∀ call ∈ calls, template.spans.derived.Legible call.2) :
    deriveToolCallFormat fromStr templateText render = some template.spans.derived.format ∧
    parseToolCalls fromStr (template.spans.text calls trailing) template.spans.derived.format =
      some (calls.map fun call => call.2.toolCall) ∧
    ∀ call ∈ calls, ∀ key value, (key, value) ∈ call.2.args →
      call.2.toolCall.arguments.get key = some (.string value) := by
  have hOpen := template.derived_argOpen_ne
  have hClose := template.derived_callClose_ne
  refine ⟨template.deriveToolCallFormat_eq fromStr, ?_, ?_⟩
  · -- the reply was written with the template's spans; the derived ones write the same
    rw [← DelimitedSpans.text_derived]
    exact DelimitedSpans.parseToolCalls_text fromStr hOpen hClose hProse hLegible hTrailing
  · intro call _ key value hMem
    exact call.2.get_arguments hMem

/-- The spans of the Qwen3-Coder template. -/
def qwenSpans : DelimitedSpans where
  callOpen := "<tool_call>\n<function=".toList
  nameClose := ">\n".toList
  argOpen := "<parameter=".toList
  argNameClose := ">\n".toList
  argClose := "\n</parameter>\n".toList
  callClose := "</function>\n</tool_call>".toList

instance (s : DelimitedSpans) (call : TextCall) : Decidable (s.Legible call) :=
  decidable_of_iff (EndsFirst s.nameClose call.name ∧
    (∀ arg ∈ call.args, EndsFirst s.argNameClose arg.1) ∧
    (∀ arg ∈ call.args, EndsFirst s.argClose arg.2) ∧
    EndsFirst s.callClose (s.body call.name call.args))
    ⟨fun h => ⟨h.1, h.2.1, h.2.2.1, h.2.2.2⟩, fun h => ⟨h.name, h.keys, h.values, h.body⟩⟩

/-- The stub template that writes a call with `spans`, in the turn framing of the
Qwen templates. -/
def delimitedStub (spans : DelimitedSpans) (nonempty : ∀ span ∈ spans.all, span ≠ [])
    (ascii : ∀ span ∈ spans.all, IsAscii span)
    (braceless : ∀ span ∈ spans.all, '{' ∉ span ∧ '}' ∉ span)
    (apart : ¬ spans.argOpen <+: spans.callClose ∧ ¬ spans.callClose <+: spans.argOpen) :
    DelimitedTemplate (textStub "<|im_start|>assistant\n".toList "<|im_end|>\n".toList spans.write)
      [] where
  toFraming := stubFraming _ _ _
  spans := spans
  nonempty := nonempty
  ascii := ascii
  braceless := braceless
  apart := apart
  rendersCall := fun _ h => textStub_renders _ _ spans.write h

/-- A call that writes a file. -/
def writeCall : TextCall where
  name := "write".toList
  args := [("content".toList, "fn main() \x7b\n    println!(\"<hi>\");\n\x7d".toList),
    ("path".toList, "src/main.rs".toList)]
  name_ne := by decide
  name_trim := by decide
  keys_trim := by decide
  keys_nodup := by decide

def qwenTemplate :=
  delimitedStub qwenSpans (by decide) (by decide) (by decide) (by decide)

set_option maxRecDepth 4096 in
/-- Two calls of Qwen's, with prose around them. -/
theorem qwen_roundTrip :
    parseToolCalls (fun _ => none) (qwenSpans.text [("I will write it.\n".toList, writeCall),
        ("\n".toList, writeCall)] "\nDone.".toList) qwenSpans.derived.format =
      some [writeCall.toolCall, writeCall.toolCall] :=
  (delimited_roundTrip (fun _ => none) qwenTemplate
    [("I will write it.\n".toList, writeCall), ("\n".toList, writeCall)] "\nDone.".toList
    (by decide) (by decide) (by decide)).2.1

/-- The same template with a line break before each call. -/
def lineSpans : DelimitedSpans := { qwenSpans with callOpen := "\n<function=\n".toList }

def lineTemplate :=
  delimitedStub lineSpans (by decide) (by decide) (by decide) (by decide)

set_option maxRecDepth 4096 in
/-- Prose without the opener, which the opener's own first characters complete:
the call is read with part of the opener in its name. -/
theorem overlapping_prose_misread :
    ∃ prose : Text, ¬ lineSpans.callOpen <:+: prose ∧ lineSpans.derived.Legible writeCall ∧
      deriveToolCallFormat (fun _ => none) []
          (textStub "<|im_start|>assistant\n".toList "<|im_end|>\n".toList lineSpans.write) =
        some lineSpans.derived.format ∧
      (parseToolCalls (fun _ => none) (lineSpans.text [(prose, writeCall)] [])
        lineSpans.derived.format).map (fun calls => calls.map ToolCall.name) =
          some ["<function=\nwrite".toList] := by
  refine ⟨"\n<function=".toList, by decide, by decide, ?_, by decide⟩
  exact lineTemplate.deriveToolCallFormat_eq _

end Rampipe
