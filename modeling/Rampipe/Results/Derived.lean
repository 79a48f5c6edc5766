import Rampipe.Results.JsonCalls
import Rampipe.Results.Truncation

/-!
# Rampipe — what the derivation accepts

The round trips of the families start from a template. This module starts from
the derivation: whatever the renderer is, if a format comes back, the probes'
regions are made of its spans (`delimited_of_derive`, `separated_of_derive`,
`json_of_derive`). The derivation compares spans by position, and the parser
looks for them by first occurrence, so the parser reads the probes back when
each span is first completed where the derivation cut it
(`derived_reads_probes`). The derivation does not check that, and the front of
the region without arguments it does not look at.
-/

namespace Rampipe

open ListSearch Text ToolFormat

/-! ## Cutting at sentinels -/

section Cutting

/-- What is sliced out of a text stands there. -/
theorem slice_eq_some {s piece : Text} {i j : Nat} (h : slice s i j = some piece) :
    s.drop i = piece ++ s.drop j := by
  rw [slice] at h
  split at h
  · rename_i hLe
    obtain rfl := Option.some.inj h
    have hDrop : s.drop j = (s.drop i).drop (j - i) := by
      rw [List.drop_drop, Nat.add_sub_cancel' hLe.1]
    rw [List.drop_take, hDrop, List.take_append_drop]
  · cases h

/-- A sentinel, the span behind it, and what the next cut leaves. -/
theorem drop_eq_of_find {S s span : Text} {i j : Nat} (hFind : find S s = some i)
    (hSlice : slice s (i + S.length) j = some span) : s.drop i = S ++ (span ++ s.drop j) := by
  obtain ⟨-, ⟨rest, hRest⟩, -⟩ := find_eq_some_iff.mp hFind
  rw [← slice_eq_some hSlice, ← List.drop_drop, ← hRest, List.drop_left]

/-- A text is what is found in it, with what is around that. -/
theorem eq_of_find {S s : Text} {i : Nat} (hFind : find S s = some i)
    {span : Text} (hSlice : slice s (i + S.length) s.length = some span) :
    s = s.take i ++ (S ++ span) := by
  have hDrop := drop_eq_of_find hFind hSlice
  rw [List.drop_length, List.append_nil] at hDrop
  rw [← hDrop, List.take_append_drop]

/-- In front of what is found it does not occur. -/
theorem endsFirst_take_of_find {S s : Text} {i : Nat} (hFind : find S s = some i) :
    EndsFirst S (s.take i) := by
  obtain ⟨front, rest, rfl, rfl, hEnds⟩ := find_eq_some_iff_append.mp hFind
  rwa [List.take_left]

end Cutting

/-! ## The regions a format was derived from -/

section Regions

variable {region noArgsRegion : Text} {nameAt arg1At val1At arg2At val2At : Nat}

/-- Where the sentinels are first found. -/
structure SentinelsAt (region : Text) (nameAt arg1At val1At arg2At val2At : Nat) : Prop where
  name : find NAME region = some nameAt
  arg1 : find ARG1 region = some arg1At
  val1 : find VAL1 region = some val1At
  arg2 : find ARG2 region = some arg2At
  val2 : find VAL2 region = some val2At

/-- The regions in which the template writes the probe's two calls. -/
structure ProbeRegions (templateText : Text) (render : RenderFn) (region noArgsRegion : Text) :
    Prop where
  withArgs : ∃ plain withCalls, render templateText plainProbe none = some plain ∧
    render templateText callProbe none = some withCalls ∧
    divergingRegion plain withCalls = some region
  noArgs : ∃ plain noArgs, render templateText plainProbe none = some plain ∧
    render templateText noArgsProbe none = some noArgs ∧
    divergingRegion plain noArgs = some noArgsRegion

/-- A format that is derived was derived from two rendered probes. -/
theorem exists_probeRegions {fromStr : Text → Option Json} {templateText : Text}
    {render : RenderFn} {format : ToolFormat}
    (hDerive : deriveToolCallFormat fromStr templateText render = some format) :
    ∃ region noArgsRegion, ProbeRegions templateText render region noArgsRegion := by
  simp only [deriveToolCallFormat, Option.bind_eq_bind, Option.bind_eq_some_iff] at hDerive
  obtain ⟨plain, hPlain, withCalls, hWithCalls, noArgs, hNoArgs, region, hRegion, noArgsRegion,
    hNoArgsRegion, -⟩ := hDerive
  exact ⟨region, noArgsRegion, ⟨plain, withCalls, hPlain, hWithCalls, hRegion⟩,
    ⟨plain, noArgs, hPlain, hNoArgs, hNoArgsRegion⟩⟩

/-- A format that is derived is of one of the three families, tried in this order. -/
theorem family_of_derive {fromStr : Text → Option Json} {templateText : Text} {render : RenderFn}
    {format : ToolFormat} (hRegions : ProbeRegions templateText render region noArgsRegion)
    (hDerive : deriveToolCallFormat fromStr templateText render = some format) :
    ∃ nameAt arg1At val1At arg2At val2At,
      SentinelsAt region nameAt arg1At val1At arg2At val2At ∧
      (deriveJsonFormat fromStr region = some format ∨
        deriveDelimitedFormat region noArgsRegion nameAt arg1At val1At arg2At val2At = some format ∨
        deriveSeparatedFormat region noArgsRegion nameAt arg1At val1At arg2At val2At =
          some format) := by
  obtain ⟨⟨plain, withCalls, hPlain, hWithCalls, hRegion⟩, _, noArgs, hPlain', hNoArgs,
    hNoArgsRegion⟩ := hRegions
  obtain rfl := Option.some.inj (hPlain.symm.trans hPlain')
  simp only [deriveToolCallFormat, hPlain, hWithCalls, hNoArgs, hRegion, hNoArgsRegion,
    Option.bind_eq_bind, Option.bind_some, Option.bind_eq_some_iff] at hDerive
  obtain ⟨nameAt, h1, arg1At, h2, val1At, h3, arg2At, h4, val2At, h5, hDerive⟩ := hDerive
  refine ⟨nameAt, arg1At, val1At, arg2At, val2At, ⟨h1, h2, h3, h4, h5⟩, ?_⟩
  cases hJson : deriveJsonFormat fromStr region with
  | some found =>
    -- JSON is tried first, and whatever it finds stands
    rw [hJson] at hDerive
    exact Or.inl hDerive
  | none =>
    simp only [hJson] at hDerive
    split at hDerive
    · cases hDerive
    · exact Or.inr ((Option.or_eq_some_iff.mp hDerive).imp_right And.right)

/-- The spans between the sentinels make up the region. -/
theorem SentinelsAt.region_eq (h : SentinelsAt region nameAt arg1At val1At arg2At val2At)
    {nameToArg1 arg1ToVal1 val1ToArg2 arg2ToVal2 afterVal2 : Text}
    (h1 : slice region (nameAt + NAME.length) arg1At = some nameToArg1)
    (h2 : slice region (arg1At + ARG1.length) val1At = some arg1ToVal1)
    (h3 : slice region (val1At + VAL1.length) arg2At = some val1ToArg2)
    (h4 : slice region (arg2At + ARG2.length) val2At = some arg2ToVal2)
    (h5 : slice region (val2At + VAL2.length) region.length = some afterVal2) :
    region = region.take nameAt ++ (NAME ++ (nameToArg1 ++ (ARG1 ++ (arg1ToVal1 ++ (VAL1 ++
      (val1ToArg2 ++ (ARG2 ++ (arg2ToVal2 ++ (VAL2 ++ afterVal2))))))))) := by
  -- each cut leaves the text from the next sentinel on
  have hCut := drop_eq_of_find h.name h1
  rw [drop_eq_of_find h.arg1 h2, drop_eq_of_find h.val1 h3, drop_eq_of_find h.arg2 h4,
    drop_eq_of_find h.val2 h5, List.drop_length, List.append_nil] at hCut
  rw [← hCut, List.take_append_drop]

/-- A delimited format's spans make up both regions, the front of the one without
arguments excepted. -/
theorem delimited_of_derive (h : SentinelsAt region nameAt arg1At val1At arg2At val2At)
    {format : ToolFormat}
    (hDerive : deriveDelimitedFormat region noArgsRegion nameAt arg1At val1At arg2At val2At =
      some format) :
    ∃ s : DelimitedSpans, format = s.format ∧ s.argOpen ≠ [] ∧
      region = s.write probeCall.name probeCall.args ∧
      ∃ front, EndsFirst NAME front ∧
        noArgsRegion = front ++ (NAME ++ (s.nameClose ++ s.callClose)) := by
  simp only [deriveDelimitedFormat, Option.bind_eq_bind, Option.bind_none,
    Option.ite_none_left_eq_some, Option.bind_eq_some_iff, Bool.or_eq_true, not_or,
    List.isEmpty_iff, stripPrefix_eq_some_iff, not_not, Option.some.injEq] at hDerive
  obtain ⟨nameToArg1, h1, val1ToArg2, h3, afterVal2, h5, noArgsNameAt, hNoArgs, afterName, h6,
    argOpen, hArgOpen, callClose, hCallClose, ⟨⟨-, hNe⟩, -⟩, hArgs, hName, argNameClose, h2, -,
    arg2ToVal2, h4, hSame, rfl⟩ := hDerive
  -- what the shared prefixes are does not matter, only that the equations hold
  generalize sharedPrefix nameToArg1 afterName = nameClose at *
  generalize sharedPrefix val1ToArg2 afterVal2 = argClose at *
  subst hSame hName hCallClose hArgs hArgOpen
  refine ⟨⟨region.take nameAt, nameClose, argOpen, arg2ToVal2, argClose, callClose⟩, rfl, hNe, ?_,
    noArgsRegion.take noArgsNameAt, endsFirst_take_of_find hNoArgs, eq_of_find hNoArgs h6⟩
  rw [DelimitedSpans.write_probeCall]
  exact h.region_eq h1 h2 h3 h4 h5

/-- The two probe arguments, wrapped as the template wraps them. -/
def probeValues : List (Text × Value) := [(ARG1, .wrapped VAL1), (ARG2, .wrapped VAL2)]

/-- The probe's body in a separated format. -/
def separatedProbe (nameClose argNameClose valueOpen argClose argSep : Text) : Text :=
  NAME ++ (nameClose ++ join argSep (probeValues.map (separatedArg argNameClose valueOpen argClose)))

/-- Splitting the wrapper out moves no character. -/
theorem splitWrapper_spec (argNameClose argClose : Text) :
    (splitWrapper argNameClose argClose).1 ++ (splitWrapper argNameClose argClose).2 =
        argNameClose ∧
      ((splitWrapper argNameClose argClose).2 = [] ∨
        (splitWrapper argNameClose argClose).2 = argClose) := by
  cases hStrip : stripSuffix argClose argNameClose with
  | none => simp [splitWrapper, hStrip]
  | some bare =>
    simp only [splitWrapper, hStrip]
    split
    · exact ⟨(eq_of_stripSuffix hStrip).symm, Or.inr rfl⟩
    · exact ⟨List.append_nil _, Or.inl rfl⟩

/-- A separated format's spans make up both regions, but for what follows the call
in the one and what stands before the name in the other. -/
theorem separated_of_derive (h : SentinelsAt region nameAt arg1At val1At arg2At val2At)
    {format : ToolFormat}
    (hDerive : deriveSeparatedFormat region noArgsRegion nameAt arg1At val1At arg2At val2At =
      some format) :
    ∃ callOpen nameClose argNameClose valueOpen argClose argSep callClose,
      format = .separated callOpen nameClose argNameClose valueOpen argClose argSep callClose ∧
      (valueOpen = [] ∨ valueOpen = argClose) ∧ argNameClose ≠ [] ∧ argSep ≠ [] ∧ callClose ≠ [] ∧
      (∃ trailing, region = callOpen ++
        (separatedProbe nameClose argNameClose valueOpen argClose argSep ++
          (callClose ++ trailing))) ∧
      ∃ front, EndsFirst NAME front ∧
        noArgsRegion = front ++ (NAME ++ (nameClose ++ callClose)) := by
  simp only [deriveSeparatedFormat, Option.bind_eq_bind, Option.bind_none,
    Option.ite_none_left_eq_some, Option.bind_eq_some_iff, Bool.or_eq_true, not_or,
    List.isEmpty_iff, stripPrefix_eq_some_iff, not_not, Option.some.injEq] at hDerive
  obtain ⟨nameClose, h1, argNameClose, h2, val1ToArg2, h3, afterVal2, h5, noArgsNameAt, hNoArgs,
    afterName, h6, callClose, rfl, closingAt, hClosing, argSep, rfl, argNameClose2, h4, rfl,
    ⟨⟨⟨-, hArgNameClose⟩, hArgSep⟩, hCallClose⟩, -, rfl⟩ := hDerive
  have hRegion := h.region_eq h1 h2 h3 h4 h5
  -- what closes the call is found behind what closes the last value
  have hAfter := append_of_find hClosing
  obtain ⟨hSplit, hOpened⟩ := splitWrapper_spec argNameClose2 (afterVal2.take closingAt)
  refine ⟨_, _, _, _, _, _, _, rfl, hOpened, hArgNameClose, hArgSep, hCallClose,
    ⟨afterVal2.drop (closingAt + callClose.length), ?_⟩, noArgsRegion.take noArgsNameAt,
    endsFirst_take_of_find hNoArgs, eq_of_find hNoArgs h6⟩
  generalize afterVal2.take closingAt = argClose at *
  generalize splitWrapper argNameClose2 argClose = wrapper at *
  subst hSplit
  rw [hAfter] at hRegion
  refine hRegion.trans ?_
  simp only [separatedProbe, probeValues, List.map_cons, List.map_nil, join, separatedArg,
    separatedValue, List.append_assoc]

/-- What the derivation slices out between the first opening and the last closing brace
begins and ends with them. -/
theorem slice_braced {region payload : Text} {open_ close : Nat}
    (hOpen : find ['{'] region = some open_) (hClose : rfind ['}'] region = some close)
    (hLe : ¬ close < open_) (hPayload : slice region open_ (close + 1) = some payload) :
    ∃ inner, payload = '{' :: (inner ++ ['}']) := by
  obtain ⟨-, ⟨afterOpen, hAfterOpen⟩, -⟩ := find_eq_some_iff.mp hOpen
  obtain ⟨-, ⟨afterClose, hAfterClose⟩, -⟩ := rfind_eq_some_iff.mp hClose
  -- the braces differ, so the last one stands behind the first
  have hLt : open_ < close := by
    refine Nat.lt_of_le_of_ne (Nat.le_of_not_lt hLe) ?_
    rintro rfl
    rw [← hAfterClose] at hAfterOpen
    cases hAfterOpen
  obtain ⟨k, hk⟩ := Nat.exists_eq_add_of_lt hLt
  have hOpened : region.drop (open_ + 1) = afterOpen := by
    rw [← List.drop_drop, ← hAfterOpen]
    rfl
  have hClosed : region.drop (close + 1) = afterClose := by
    rw [← List.drop_drop, ← hAfterClose]
    rfl
  have hTail : afterOpen.drop k = '}' :: afterClose := by
    rw [← hOpened, List.drop_drop, show open_ + 1 + k = close by omega, ← hAfterClose]
    rfl
  have hAll : payload ++ afterClose = '{' :: (afterOpen.take k ++ ['}']) ++ afterClose := by
    calc payload ++ afterClose
      _ = '{' :: afterOpen := by rw [← hClosed, ← slice_eq_some hPayload, ← hAfterOpen]; rfl
      _ = '{' :: (afterOpen.take k ++ '}' :: afterClose) := by
          rw [← hTail, List.take_append_drop]
      _ = '{' :: (afterOpen.take k ++ ['}']) ++ afterClose := by
          rw [List.cons_append, List.append_assoc]
          rfl
  exact ⟨_, List.append_cancel_right hAll⟩

/-- A JSON format's payload stands between its opener and its closer, and is an
object with the name under its key. The region without arguments is not looked at. -/
theorem json_of_derive {fromStr : Text → Option Json} {format : ToolFormat}
    (hDerive : deriveJsonFormat fromStr region = some format) :
    ∃ callOpen payload callClose nameKey argumentsKey members,
      format = .json callOpen callClose nameKey argumentsKey ∧
      region = callOpen ++ (payload ++ callClose) ∧ trim payload = payload ∧
      fromStr payload = some (.object members) ∧
      findKey members (isStr NAME) = some nameKey ∧
      findKey members (holdsStr VAL1) = some argumentsKey := by
  simp only [deriveJsonFormat, Option.bind_eq_bind, Option.bind_none,
    Option.ite_none_left_eq_some, Option.bind_eq_some_iff, Option.some.injEq] at hDerive
  obtain ⟨open_, hOpen, close, hClose, hLe, payload, hPayload, parsed, hParsed, members, hMembers,
    nameKey, hName, argumentsKey, hArguments, callClose, hCallClose, rfl⟩ := hDerive
  have hObject : parsed = .object members := by
    cases parsed with
    | object found => exact congrArg Json.object (Option.some.inj hMembers)
    | _ => cases hMembers
  subst hObject
  have hRegion : region = region.take open_ ++ (payload ++ callClose) := by
    have hRest := slice_eq_some hCallClose
    rw [List.drop_length, List.append_nil] at hRest
    rw [← hRest, ← slice_eq_some hPayload, List.take_append_drop]
  obtain ⟨inner, hInner⟩ := slice_braced hOpen hClose hLe hPayload
  exact ⟨_, payload, _, _, _, members, rfl, hRegion, trim_braced hInner, hParsed, hName, hArguments⟩

end Regions

/-! ## Reading the probes back -/

/-- What was read is one call, with this name and exactly these arguments. -/
def ReadsAs (read : Option (List ToolCall)) (name : Text) (args : List (Text × Text)) : Prop :=
  ∃ call, read = some [call] ∧ call.name = name ∧
    ∀ key, call.arguments.get key = (args.lookup key).map Json.string

/-- Strings are looked up by their keys. -/
theorem Map.get_map (args : List (Text × Text)) (key : Text) :
    Map.get key (args.map fun (key, value) => (key, Json.string value)) =
      (args.lookup key).map Json.string := by
  induction args with
  | nil => rfl
  | cons arg args ih =>
    rw [List.map_cons, Map.get, List.lookup_cons]
    by_cases h : key = arg.1
    · simp [h]
    · rw [if_neg h, ih, beq_eq_false_iff_ne.mpr h]

/-- A call of strings in order reads as itself. -/
theorem TextCall.readsAs {call : TextCall} (h : Map.Ordered call.args) :
    ReadsAs (some [call.toolCall]) call.name call.args := by
  refine ⟨call.toolCall, rfl, rfl, fun key => ?_⟩
  show call.arguments.get key = _
  rw [arguments_eq h]
  exact Map.get_map call.args key

section Bodies

variable {nameClose argNameClose argClose argSep : Text}

/-- An unwrapped value runs to the separator, what closes it included. -/
theorem splitArgs_bare_cons {key value : Text} (hSepNe : argSep ≠ []) (hKeyNe : key ≠ [])
    (hKey : EndsFirst argNameClose key) (hTrim : trim key = key)
    (hValue : EndsFirst argSep (value ++ argClose)) (hClosed : trim (value ++ argClose) = value)
    (rest : Text) (fuel : Nat) :
    splitArgs argNameClose [] argClose argSep (fuel + 1)
        (key ++ (argNameClose ++ (value ++ (argClose ++ (argSep ++ rest))))) =
      (key, value) :: splitArgs argNameClose [] argClose argSep fuel rest := by
  have hDrop : (key ++ (argNameClose ++ (value ++ (argClose ++ (argSep ++ rest))))).drop
      (key.length + argNameClose.length) = (value ++ argClose) ++ (argSep ++ rest) := by
    rw [← List.drop_drop, List.drop_left, List.drop_left, List.append_assoc]
  have hNonempty : (key ++ (argNameClose ++ (value ++ (argClose ++ (argSep ++ rest))))).isEmpty =
      false := by simp [hKeyNe]
  have hSplit : splitValue ((value ++ argClose) ++ (argSep ++ rest)) [] argClose argSep =
      (value, argSep ++ rest) := by
    have hSep : findSep ((value ++ argClose) ++ (argSep ++ rest)) argSep =
        some (value ++ argClose).length := by
      rw [findSep, if_neg (by simpa using hSepNe), find_append hValue]
    have hStrip := stripPrefix_append [] ((value ++ argClose) ++ (argSep ++ rest))
    rw [List.nil_append] at hStrip
    rw [splitValue, hStrip]
    simp only [hSep, List.isEmpty_nil, if_true, List.take_left, List.drop_left, hClosed]
  have hNext : findSep (argSep ++ rest) argSep = some 0 := by
    rw [findSep, if_neg (by simpa using hSepNe), find_of_isPrefix (List.prefix_append _ _)]
  rw [splitArgs, hNonempty, find_append hKey]
  simp only [Bool.false_eq_true, if_false, List.take_left, hDrop, hSplit, hTrim, hNext,
    Nat.zero_add, List.drop_left, List.isEmpty_iff, hKeyNe]
  rfl

/-- The last one runs to the end of the body. -/
theorem splitArgs_bare_last {key value : Text} (hSepNe : argSep ≠ []) (hKeyNe : key ≠ [])
    (hKey : EndsFirst argNameClose key) (hTrim : trim key = key)
    (hValue : ¬ argSep <:+: value ++ argClose) (hClosed : trim (value ++ argClose) = value)
    (fuel : Nat) :
    splitArgs argNameClose [] argClose argSep (fuel + 1)
        (key ++ (argNameClose ++ (value ++ argClose))) = [(key, value)] := by
  have hDrop : (key ++ (argNameClose ++ (value ++ argClose))).drop
      (key.length + argNameClose.length) = value ++ argClose := by
    rw [← List.drop_drop, List.drop_left, List.drop_left]
  have hNonempty : (key ++ (argNameClose ++ (value ++ argClose))).isEmpty = false := by
    simp [hKeyNe]
  have hSplit : splitValue (value ++ argClose) [] argClose argSep = (value, []) := by
    have hSep : findSep (value ++ argClose) argSep = none := by
      rw [findSep, if_neg (by simpa using hSepNe), find_eq_none_iff.mpr hValue]
    have hStrip := stripPrefix_append [] (value ++ argClose)
    rw [List.nil_append] at hStrip
    rw [splitValue, hStrip]
    simp only [hSep, List.isEmpty_nil, if_true, hClosed]
  have hNext : findSep [] argSep = none := by simp [findSep, find, hSepNe]
  have hEnd : splitArgs argNameClose [] argClose argSep fuel [] = [] := by
    cases fuel <;> rfl
  rw [splitArgs, hNonempty, find_append hKey]
  simp only [Bool.false_eq_true, if_false, List.take_left, hDrop, hSplit, hTrim, hNext, hEnd,
    List.isEmpty_iff, hKeyNe]
  rfl

/-- A name with nothing behind it is a call without arguments. -/
theorem readDelimitedBody_name {argOpen gap : Text} (hOpen : argOpen ≠ []) (hGap : ¬ Visible gap)
    (h : EndsFirst nameClose (gap ++ NAME)) :
    readDelimitedBody nameClose argOpen argNameClose argClose (gap ++ (NAME ++ nameClose)) =
      some (some noArgsCall.toolCall) := by
  have hArgs : (gap ++ NAME ++ nameClose).drop ((gap ++ NAME).length + nameClose.length) = [] := by
    rw [← List.drop_drop, List.drop_left, List.drop_length]
  have hNone : find argOpen [] = none := by simp [find, hOpen]
  have hTrim : trim (gap ++ NAME) = NAME := trim_blank_append noArgsCall.name_trim hGap
  rw [← List.append_assoc, readDelimitedBody, h]
  simp only [hArgs, List.take_left, hTrim, delimitedArgs, hNone, Option.map_some]
  exact congrArg some noArgsCall.named_argumentMap

/-- A separated call without arguments reads as its name. -/
theorem readSeparatedBody_name {valueOpen gap : Text} (hGap : ¬ Visible gap)
    (h : EndsFirst nameClose (gap ++ NAME)) :
    readSeparatedBody nameClose argNameClose valueOpen argClose argSep
      (gap ++ (NAME ++ nameClose)) = some noArgsCall.toolCall := by
  have hArgs : (gap ++ NAME ++ nameClose).drop ((gap ++ NAME).length + nameClose.length) = [] := by
    rw [← List.drop_drop, List.drop_left, List.drop_length]
  have hTrim : trim (gap ++ NAME) = NAME := trim_blank_append noArgsCall.name_trim hGap
  rw [← List.append_assoc, readSeparatedBody, h]
  simp only [Option.bind_eq_bind, Option.bind_some, hArgs, List.take_left, hTrim, splitArgs,
    List.isEmpty_nil, if_true]
  exact noArgsCall.named_argumentMap

end Bodies

/-! ## What the derivation leaves unchecked -/

/-- Each value of the probe is read up to where it was closed: wrapped ones up to
the wrapper, unwrapped ones up to the separator, which whitespace may precede. -/
def LegibleValues (valueOpen argClose argSep : Text) : Prop :=
  if valueOpen = [] then
    ¬ Visible argClose ∧ EndsFirst argSep (VAL1 ++ argClose) ∧ ¬ argSep <:+: VAL2 ++ argClose
  else EndsFirst argClose VAL1 ∧ EndsFirst argClose VAL2

/-- The probe's keys are two visible names. -/
theorem probeValues_keys : (∀ arg ∈ probeValues, arg.1 ≠ []) ∧
    (∀ arg ∈ probeValues, trim arg.1 = arg.1) ∧ (probeValues.map Prod.fst).Nodup := by
  decide

/-- The probe's call, with its values wrapped. -/
def probeValueCall : ValueCall where
  name := NAME
  args := probeValues
  name_ne := probeCall.name_ne
  name_trim := probeCall.name_trim
  keys_ne := probeValues_keys.1
  keys_trim := probeValues_keys.2.1
  keys_nodup := probeValues_keys.2.2

/-- Bare values are read up to the argument separator, the last one up to the end; what
closes a value is blank there and trimmed away. -/
theorem readSeparatedBody_bare {nameClose argNameClose argClose argSep : Text}
    (hArgSep : argSep ≠ []) (hName : EndsFirst nameClose NAME)
    (hKey1 : EndsFirst argNameClose ARG1) (hKey2 : EndsFirst argNameClose ARG2)
    (hValues : LegibleValues [] argClose argSep) :
    readSeparatedBody nameClose argNameClose [] argClose argSep
      (separatedProbe nameClose argNameClose [] argClose argSep) =
        some probeCall.toolCall := by
  obtain ⟨hBlank, hValue1, hValue2⟩ : ¬ Visible argClose ∧ EndsFirst argSep (VAL1 ++ argClose) ∧
      ¬ argSep <:+: VAL2 ++ argClose := by
    rwa [LegibleValues, if_pos rfl] at hValues
  have hArgs : join argSep (probeValues.map (separatedArg argNameClose [] argClose)) =
      ARG1 ++ (argNameClose ++ (VAL1 ++ (argClose ++ (argSep ++
        (ARG2 ++ (argNameClose ++ (VAL2 ++ argClose))))))) := by
    simp only [probeValues, List.map_cons, List.map_nil, join, separatedArg, separatedValue,
      List.nil_append, List.append_assoc]
  have hDrop : (separatedProbe nameClose argNameClose [] argClose argSep).drop
      (NAME.length + nameClose.length) = ARG1 ++ (argNameClose ++ (VAL1 ++ (argClose ++ (argSep ++
        (ARG2 ++ (argNameClose ++ (VAL2 ++ argClose))))))) := by
    rw [separatedProbe, ← List.drop_drop, List.drop_left, List.drop_left, hArgs]
  have hFind : find nameClose (separatedProbe nameClose argNameClose [] argClose argSep) =
      some NAME.length := find_append hName _
  have hTake : (separatedProbe nameClose argNameClose [] argClose argSep).take NAME.length =
      NAME := List.take_left
  -- two arguments, so fuel for two turns
  obtain ⟨fuel, hFuel⟩ : ∃ n, (ARG1 ++ (argNameClose ++ (VAL1 ++ (argClose ++ (argSep ++
      (ARG2 ++ (argNameClose ++ (VAL2 ++ argClose)))))))).length = n + 1 :=
    ⟨_, rfl⟩
  rw [readSeparatedBody, hFind]
  simp only [Option.bind_eq_bind, Option.bind_some, hDrop, hTake]
  rw [hFuel, splitArgs_bare_cons hArgSep (by decide) hKey1 (by decide) hValue1
      (trim_append_blank (by decide) (by decide) hBlank),
    splitArgs_bare_last hArgSep (by decide) hKey2 (by decide) hValue2
      (trim_append_blank (by decide) (by decide) hBlank)]
  exact probeCall.named_argumentMap

/-- The probe's body reads as the probe's call, whether its values are wrapped or not. -/
theorem readSeparatedBody_probe {nameClose argNameClose valueOpen argClose argSep : Text}
    (hArgNameClose : argNameClose ≠ []) (hArgSep : argSep ≠ [])
    (hOpened : valueOpen = [] ∨ valueOpen = argClose) (hName : EndsFirst nameClose NAME)
    (hKeys : ∀ arg ∈ probeValues, EndsFirst argNameClose arg.1)
    (hValues : LegibleValues valueOpen argClose argSep) :
    readSeparatedBody nameClose argNameClose valueOpen argClose argSep
      (separatedProbe nameClose argNameClose valueOpen argClose argSep) =
        some probeCall.toolCall := by
  have hKey1 : EndsFirst argNameClose ARG1 := hKeys (ARG1, .wrapped VAL1) (by simp [probeValues])
  have hKey2 : EndsFirst argNameClose ARG2 := hKeys (ARG2, .wrapped VAL2) (by simp [probeValues])
  by_cases hBare : valueOpen = []
  · subst hBare
    exact readSeparatedBody_bare hArgSep hName hKey1 hKey2 hValues
  · obtain rfl := hOpened.resolve_left hBare
    rw [LegibleValues, if_neg hBare] at hValues
    have hLegible : SeparatedSpans.LegibleArgs
        ⟨[], nameClose, argNameClose, valueOpen, argSep, [], []⟩ probeValues :=
      ⟨hKey1, hValues.1, hKey2, hValues.2, trivial⟩
    exact SeparatedSpans.readSeparatedBody_args (s := ⟨[], nameClose, argNameClose, valueOpen,
      argSep, [], []⟩) hArgNameClose hBare hArgSep probeValueCall hName hLegible

/-- In the region of the call with arguments, every span is first completed where
the derivation cut it, and nothing behind the call is an opener. An object has
the probe's arguments under the arguments' key, and no others. -/
def LegibleRegion (fromStr : Text → Option Json) (region : Text) : ToolFormat → Prop
  | .json callOpen callClose _ argumentsKey =>
    ∀ payload members, region = callOpen ++ (payload ++ callClose) →
      fromStr payload = some (.object members) →
      (callClose = [] ∨ EndsFirst callClose payload) ∧
      ∀ arguments, Map.get argumentsKey members = some arguments →
        ∀ key, arguments.get key = (probeCall.args.lookup key).map Json.string
  | .delimited callOpen nameClose argOpen argNameClose argClose callClose =>
    EndsFirst nameClose NAME ∧ (∀ arg ∈ probeCall.args, EndsFirst argNameClose arg.1) ∧
      (∀ arg ∈ probeCall.args, EndsFirst argClose arg.2) ∧
      (callClose = [] ∨ EndsFirst callClose
        (DelimitedSpans.body ⟨callOpen, nameClose, argOpen, argNameClose, argClose, callClose⟩
          probeCall.name probeCall.args))
  | .separated callOpen nameClose argNameClose valueOpen argClose argSep callClose =>
    EndsFirst nameClose NAME ∧ (∀ arg ∈ probeValues, EndsFirst argNameClose arg.1) ∧
      LegibleValues valueOpen argClose argSep ∧
      EndsFirst callClose (separatedProbe nameClose argNameClose valueOpen argClose argSep) ∧
      ∀ trailing, region = callOpen ++
        (separatedProbe nameClose argNameClose valueOpen argClose argSep ++
          (callClose ++ trailing)) → trailing = [] ∨ ¬ callOpen <:+: trailing

/-- What stands before the name in the region without arguments ends in the
opener, up to whitespace, and completes nothing early. -/
def LegibleName (callOpen nameClose callClose noArgsRegion : Text) : Prop :=
  ∀ front, noArgsRegion = front ++ (NAME ++ (nameClose ++ callClose)) →
    ∃ prose gap, front = prose ++ (callOpen ++ gap) ∧ ¬ Visible gap ∧ EndsFirst callOpen prose ∧
      EndsFirst nameClose (gap ++ NAME) ∧
      (callClose = [] ∨ EndsFirst callClose (gap ++ (NAME ++ nameClose)))

/-- The region of the call without arguments is written with the same spans. -/
def LegibleNoArgs (fromStr : Text → Option Json) (noArgsRegion : Text) : ToolFormat → Prop
  | .json callOpen callClose nameKey argumentsKey =>
    ∃ prose payload rest value,
      noArgsRegion = prose ++ (callOpen ++ (payload ++ (callClose ++ rest))) ∧
      EndsFirst callOpen prose ∧
      (callClose = [] ∧ rest = [] ∨
        callClose ≠ [] ∧ EndsFirst callClose payload ∧ (rest = [] ∨ ¬ callOpen <:+: rest)) ∧
      fromStr (trim payload) = some value ∧ value.get nameKey = some (.string NAME) ∧
      ∀ key, ((value.get argumentsKey).getD .null).get key = none
  | .delimited callOpen nameClose _ _ _ callClose =>
    LegibleName callOpen nameClose callClose noArgsRegion
  | .separated callOpen nameClose _ _ _ _ callClose =>
    LegibleName callOpen nameClose callClose noArgsRegion

/-! ## From the derivation to the parser -/

section Reading

variable {fromStr : Text → Option Json} {format : ToolFormat}

variable (fromStr format) in
/-- One call in a region, with a closer or in a format that has none. -/
theorem parseToolCalls_region {prose body rest : Text} {toolCall : ToolCall}
    (hOpen : EndsFirst format.callOpen prose)
    (hClose : format.callClose = [] ∧ rest = [] ∨
      format.callClose ≠ [] ∧ EndsFirst format.callClose body ∧
        (rest = [] ∨ ¬ format.callOpen <:+: rest))
    (hRead : format.readBody fromStr body = some (some toolCall)) :
    parseToolCalls fromStr (prose ++ (format.callOpen ++ (body ++ (format.callClose ++ rest))))
      format = some [toolCall] := by
  rw [parseToolCalls_eq]
  rcases hClose with ⟨hNil, rfl⟩ | ⟨hNe, hEnds, hRest⟩
  · rw [hNil, List.append_nil, List.append_nil]
    exact scanCalls_unclosed hOpen hRead
  · exact scanCalls_single hOpen (findClose_full hNe hEnds rest) hRead hRest

/-- With nothing behind the call, the closer is missing or completed by the body. -/
theorem closer_cases {callOpen callClose body : Text}
    (h : callClose = [] ∨ EndsFirst callClose body) :
    callClose = [] ∧ ([] : Text) = [] ∨
      callClose ≠ [] ∧ EndsFirst callClose body ∧ (([] : Text) = [] ∨ ¬ callOpen <:+: []) := by
  by_cases hNil : callClose = []
  · exact Or.inl ⟨hNil, rfl⟩
  · exact Or.inr ⟨hNil, h.resolve_left hNil, Or.inl rfl⟩

/-- The name without arguments, whatever whitespace precedes it. -/
theorem parseToolCalls_name {noArgsRegion nameClose front : Text}
    (hRegion : noArgsRegion = front ++ (NAME ++ (nameClose ++ format.callClose)))
    (hLegible : LegibleName format.callOpen nameClose format.callClose noArgsRegion)
    (hRead : ∀ gap, ¬ Visible gap → EndsFirst nameClose (gap ++ NAME) →
      format.readBody fromStr (gap ++ (NAME ++ nameClose)) = some (some noArgsCall.toolCall)) :
    ReadsAs (parseToolCalls fromStr noArgsRegion format) NAME [] := by
  obtain ⟨prose, gap, rfl, hGap, hOpen, hName, hClose⟩ := hLegible front hRegion
  have hParse := parseToolCalls_region fromStr format hOpen (closer_cases hClose)
    (hRead gap hGap hName)
  have hText : noArgsRegion =
      prose ++ (format.callOpen ++ ((gap ++ (NAME ++ nameClose)) ++ (format.callClose ++ []))) := by
    rw [hRegion]
    simp only [List.append_assoc, List.append_nil]
  rw [hText, hParse]
  exact noArgsCall.readsAs (by decide)

/-- The key was found by a value behind it. -/
theorem mem_of_findKey {members : Map Json} {p : Json → Bool} {key : Text}
    (h : findKey members p = some key) : ∃ value, (key, value) ∈ members ∧ p value = true := by
  obtain ⟨⟨key, value⟩, hFound, rfl⟩ := Option.map_eq_some_iff.mp h
  exact ⟨value, List.mem_of_find?_eq_some hFound,
    List.find?_some (p := fun member : Text × Json => p member.2) hFound⟩

/-- A key that is found has the value it was found by. -/
theorem Map.get_of_findKey {members : Map Json} (hOrdered : Map.Ordered members)
    {p : Json → Bool} {key : Text} (h : findKey members p = some key) :
    ∃ value, Map.get key members = some value ∧ p value = true := by
  obtain ⟨value, hMem, hValue⟩ := mem_of_findKey h
  have hNodup : (members.map Prod.fst).Nodup := by
    refine List.pairwise_map.mpr (hOrdered.imp fun {a b} hLt hEq => ?_)
    rw [hEq] at hLt
    exact List.lt_irrefl _ hLt
  have hGet := Map.get_ofEntries hNodup hMem
  rw [Map.ofEntries_of_ordered hOrdered] at hGet
  exact ⟨value, hGet, hValue⟩

/-- A derived JSON format reads its own probes. -/
theorem json_reads_probes
    (hOrdered : ∀ text members, fromStr text = some (.object members) → Map.Ordered members)
    {region noArgsRegion : Text} (hDerive : deriveJsonFormat fromStr region = some format)
    (hRegion : LegibleRegion fromStr region format)
    (hNoArgs : LegibleNoArgs fromStr noArgsRegion format) :
    ReadsAs (parseToolCalls fromStr region format) NAME probeCall.args ∧
      ReadsAs (parseToolCalls fromStr noArgsRegion format) NAME [] := by
  obtain ⟨callOpen, payload, callClose, nameKey, argumentsKey, members, rfl, rfl, hTrim, hParse,
    hName, hArguments⟩ := json_of_derive hDerive
  obtain ⟨value, hNameValue, hStr⟩ := Map.get_of_findKey (hOrdered _ _ hParse) hName
  obtain ⟨arguments, hGet, -⟩ := Map.get_of_findKey (hOrdered _ _ hParse) hArguments
  obtain ⟨hClose, hExact⟩ := hRegion payload members rfl hParse
  have hasStr : value.asStr = some NAME := by simpa [isStr] using hStr
  constructor
  · -- the whole region is one call
    refine ⟨{ name := NAME, arguments }, ?_, rfl, hExact arguments hGet⟩
    have hRead : readJsonBody fromStr nameKey argumentsKey payload =
        some { name := NAME, arguments } := by
      rw [readJsonBody, hTrim, hParse]
      simp only [Option.bind_eq_bind, Option.bind_some, Json.get, hNameValue, hasStr, hGet]
      rfl
    have hOne := parseToolCalls_region fromStr (.json callOpen callClose nameKey argumentsKey)
      (endsFirst_nil callOpen) (closer_cases hClose) (congrArg some hRead)
    rwa [List.nil_append, List.append_nil] at hOne
  · obtain ⟨prose, payload, rest, value, rfl, hOpen, hCloser, hFromStr, hNameKey, hNone⟩ := hNoArgs
    refine ⟨{ name := NAME, arguments := (value.get argumentsKey).getD .null }, ?_, rfl, ?_⟩
    · refine parseToolCalls_region fromStr (.json callOpen callClose nameKey argumentsKey) hOpen
        hCloser ?_
      refine congrArg some ?_
      rw [readJsonBody, hFromStr]
      simp only [Option.bind_eq_bind, Option.bind_some, hNameKey, Json.asStr]
      rfl
    · intro key
      rw [hNone key]
      rfl

variable {region noArgsRegion : Text} {nameAt arg1At val1At arg2At val2At : Nat}

/-- So does a delimited one. -/
theorem delimited_reads_probes (h : SentinelsAt region nameAt arg1At val1At arg2At val2At)
    (hDerive : deriveDelimitedFormat region noArgsRegion nameAt arg1At val1At arg2At val2At =
      some format)
    (hRegion : LegibleRegion fromStr region format)
    (hNoArgs : LegibleNoArgs fromStr noArgsRegion format) :
    ReadsAs (parseToolCalls fromStr region format) NAME probeCall.args ∧
      ReadsAs (parseToolCalls fromStr noArgsRegion format) NAME [] := by
  obtain ⟨s, rfl, hOpen, hText, front, -, hFront⟩ := delimited_of_derive h hDerive
  obtain ⟨hName, hKeys, hValues, hClose⟩ := hRegion
  constructor
  · have hRead : s.format.readBody fromStr (s.body probeCall.name probeCall.args) =
        some (some probeCall.toolCall) :=
      DelimitedSpans.readDelimitedBody_args hOpen hName hKeys hValues
    have hOne : parseToolCalls fromStr
        ([] ++ (s.callOpen ++ (s.body probeCall.name probeCall.args ++ (s.callClose ++ []))))
          s.format = some [probeCall.toolCall] :=
      parseToolCalls_region fromStr s.format (endsFirst_nil s.callOpen) (closer_cases hClose) hRead
    rw [List.nil_append, List.append_nil] at hOne
    rw [hText, DelimitedSpans.write, hOne]
    exact probeCall.readsAs (by decide)
  · -- in the region of the call without arguments only the name is certain
    refine parseToolCalls_name hFront hNoArgs ?_
    intro gap hGap hEnds
    exact readDelimitedBody_name hOpen hGap hEnds

/-- And a separated one. -/
theorem separated_reads_probes (h : SentinelsAt region nameAt arg1At val1At arg2At val2At)
    (hDerive : deriveSeparatedFormat region noArgsRegion nameAt arg1At val1At arg2At val2At =
      some format)
    (hRegion : LegibleRegion fromStr region format)
    (hNoArgs : LegibleNoArgs fromStr noArgsRegion format) :
    ReadsAs (parseToolCalls fromStr region format) NAME probeCall.args ∧
      ReadsAs (parseToolCalls fromStr noArgsRegion format) NAME [] := by
  obtain ⟨callOpen, nameClose, argNameClose, valueOpen, argClose, argSep, callClose, rfl, hOpened,
    hArgNameClose, hArgSep, hCallClose, ⟨trailing, hText⟩, front, -, hFront⟩ :=
    separated_of_derive h hDerive
  obtain ⟨hName, hKeys, hValues, hClose, hTrailing⟩ := hRegion
  constructor
  · have hRead := readSeparatedBody_probe hArgNameClose hArgSep hOpened hName hKeys hValues
    have hOne : parseToolCalls fromStr
        ([] ++ (callOpen ++ (separatedProbe nameClose argNameClose valueOpen argClose argSep ++
          (callClose ++ trailing))))
        (.separated callOpen nameClose argNameClose valueOpen argClose argSep callClose) =
          some [probeCall.toolCall] :=
      parseToolCalls_region fromStr
        (.separated callOpen nameClose argNameClose valueOpen argClose argSep callClose)
        (endsFirst_nil callOpen) (Or.inr ⟨hCallClose, hClose, hTrailing trailing hText⟩)
        (congrArg some hRead)
    rw [List.nil_append] at hOne
    rw [hText, hOne]
    exact probeCall.readsAs (by decide)
  · -- only the name is certain here as well
    refine parseToolCalls_name hFront hNoArgs ?_
    intro gap hGap hEnds
    exact congrArg some (readSeparatedBody_name hGap hEnds)

end Reading

/-- **What derivation accepts, the parser reads.** For any renderer, a format that
is derived reads its own two probes back, the call with the two arguments and the
call with none, when each span is first completed where the derivation cut it,
and the region without arguments, of which the derivation compares the end only,
is written with the same spans. -/
theorem derived_reads_probes (fromStr : Text → Option Json) (templateText : Text)
    (render : RenderFn) (format : ToolFormat) (plain withCalls noArgs region noArgsRegion : Text)
    (hOrdered : ∀ text members, fromStr text = some (.object members) → Map.Ordered members)
    (hDerive : deriveToolCallFormat fromStr templateText render = some format)
    (hPlain : render templateText plainProbe none = some plain)
    (hWithCalls : render templateText callProbe none = some withCalls)
    (hNoArgs : render templateText noArgsProbe none = some noArgs)
    (hRegion : divergingRegion plain withCalls = some region)
    (hNoArgsRegion : divergingRegion plain noArgs = some noArgsRegion)
    (hLegible : LegibleRegion fromStr region format)
    (hLegibleNoArgs : LegibleNoArgs fromStr noArgsRegion format) :
    ReadsAs (parseToolCalls fromStr region format) NAME [(ARG1, VAL1), (ARG2, VAL2)] ∧
      ReadsAs (parseToolCalls fromStr noArgsRegion format) NAME [] := by
  have hRegions : ProbeRegions templateText render region noArgsRegion :=
    ⟨⟨plain, withCalls, hPlain, hWithCalls, hRegion⟩, ⟨plain, noArgs, hPlain, hNoArgs, hNoArgsRegion⟩⟩
  obtain ⟨_, _, _, _, _, hAt, hJson | hDelimited | hSeparated⟩ := family_of_derive hRegions hDerive
  · exact json_reads_probes hOrdered hJson hLegible hLegibleNoArgs
  · exact delimited_reads_probes hAt hDelimited hLegible hLegibleNoArgs
  · exact separated_reads_probes hAt hSeparated hLegible hLegibleNoArgs

/-! ## A template that reads back, and one that does not -/

/-- A call without arguments, written with the spans, is legible when its name and
its closer are. -/
theorem legibleName_write {s : DelimitedSpans} (hName : EndsFirst s.nameClose NAME)
    (hClose : s.callClose = [] ∨ EndsFirst s.callClose (NAME ++ s.nameClose)) :
    LegibleName s.callOpen s.nameClose s.callClose (s.write NAME []) := by
  intro front hFront
  have hWrite : s.write NAME [] = s.callOpen ++ (NAME ++ (s.nameClose ++ s.callClose)) := by
    simp only [DelimitedSpans.write, DelimitedSpans.body, DelimitedSpans.argsText_nil,
      List.append_nil, List.append_assoc]
  obtain rfl := List.append_cancel_right (hFront.symm.trans hWrite)
  exact ⟨[], [], by simp, by decide, endsFirst_nil _, hName, hClose⟩

/-- What the stub of a delimited template renders for `messages`. -/
def DelimitedSpans.rendered (s : DelimitedSpans) (messages : Json) : Text :=
  (textStub "<|im_start|>assistant\n".toList "<|im_end|>\n".toList s.write [] messages none).getD []

set_option maxRecDepth 4096 in
/-- Qwen's probes, both read back. -/
theorem qwen_reads_probes :
    ReadsAs (parseToolCalls (fun _ => none) (qwenSpans.derived.write probeCall.name probeCall.args)
        qwenSpans.derived.format) NAME [(ARG1, VAL1), (ARG2, VAL2)] ∧
      ReadsAs (parseToolCalls (fun _ => none) (qwenSpans.derived.write NAME [])
        qwenSpans.derived.format) NAME [] :=
  derived_reads_probes (fun _ => none) []
    (textStub "<|im_start|>assistant\n".toList "<|im_end|>\n".toList qwenSpans.write)
    qwenSpans.derived.format (qwenSpans.rendered plainProbe) (qwenSpans.rendered callProbe)
    (qwenSpans.rendered noArgsProbe) _ _ (by simp) (qwenTemplate.deriveToolCallFormat_eq _)
    (by decide) (by decide) (by decide) (by decide)
    (by decide)
    ⟨by decide, by decide, by decide, by decide⟩
    (legibleName_write (by decide) (by decide))

/-- A template that writes a call as a list, a line for each argument, and ends it
with an empty line. -/
def listSpans : DelimitedSpans where
  callOpen := "CALL: ".toList
  nameClose := "\n".toList
  argOpen := "- ".toList
  argNameClose := ": ".toList
  argClose := "\n".toList
  callClose := "\n".toList

def listTemplate :=
  delimitedStub listSpans (by decide) (by decide) (by decide) (by decide)

/-- The list's closer ends the name already, so the parser finds no call in the
region the format was derived from. -/
theorem listProbes_unread :
    deriveToolCallFormat (fun _ => none) []
        (textStub "<|im_start|>assistant\n".toList "<|im_end|>\n".toList listSpans.write) =
      some listSpans.derived.format ∧
    divergingRegion (listSpans.rendered plainProbe) (listSpans.rendered callProbe) =
      some (listSpans.derived.write probeCall.name probeCall.args) ∧
    ¬ ReadsAs (parseToolCalls (fun _ => none)
      (listSpans.derived.write probeCall.name probeCall.args) listSpans.derived.format) NAME
        [(ARG1, VAL1), (ARG2, VAL2)] := by
  refine ⟨listTemplate.deriveToolCallFormat_eq _, by decide, ?_⟩
  rintro ⟨call, hCall, -⟩
  have hRead : (parseToolCalls (fun _ => none)
      (listSpans.derived.write probeCall.name probeCall.args) listSpans.derived.format).map
        List.length = some 0 := by
    decide
  rw [hCall] at hRead
  cases hRead

end Rampipe
