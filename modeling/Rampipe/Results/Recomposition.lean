import Rampipe.Results.Derived

/-!
# Rampipe — the spans recompose the probes

The derivation slices, shares prefixes and subtracts, and compares only some of
what it obtains with what was rendered. Whatever the renderer is, the spans it
returns, with the probe's own texts between them, are the region of the call with
the two arguments, and from the name on the region of the call with none
(`derived_spans_recompose`). A separated format says nothing of what follows its
closer in the first region, and a JSON format nothing of the second.
-/

namespace Rampipe

open ListSearch Text ToolFormat

/-- `s` from the first occurrence of `pat` on. -/
def fromFirst (pat s : Text) : Option Text := (find pat s).map s.drop

/-- From where it first ends, the pattern and all that follows it are left. -/
theorem fromFirst_append {pat front : Text} (h : EndsFirst pat front) (rest : Text) :
    fromFirst pat (front ++ (pat ++ rest)) = some (pat ++ rest) := by
  rw [fromFirst, find_append h, Option.map_some, List.drop_left]

/-- The regions of the two probes, put together from the spans of a format and the
probe's own texts. A JSON payload is an object with the probe's name under the name's
key and, under the arguments' key, an object with the first value among its values. -/
def Recomposes (fromStr : Text → Option Json) (region noArgsRegion : Text) : ToolFormat → Prop
  | .json callOpen callClose nameKey argumentsKey =>
    ∃ payload members arguments key,
      region = callOpen ++ payload ++ callClose ∧
      fromStr payload = some (.object members) ∧
      (nameKey, Json.string NAME) ∈ members ∧
      (argumentsKey, Json.object arguments) ∈ members ∧
      (key, Json.string VAL1) ∈ arguments
  | .delimited callOpen nameClose argOpen argNameClose argClose callClose =>
    region = callOpen ++ NAME ++ nameClose ++
        argOpen ++ ARG1 ++ argNameClose ++ VAL1 ++ argClose ++
        argOpen ++ ARG2 ++ argNameClose ++ VAL2 ++ argClose ++ callClose ∧
      fromFirst NAME noArgsRegion = some (NAME ++ nameClose ++ callClose)
  | .separated callOpen nameClose argNameClose valueOpen argClose argSep callClose =>
    callOpen ++ NAME ++ nameClose ++
        ARG1 ++ argNameClose ++ valueOpen ++ VAL1 ++ argClose ++ argSep ++
        ARG2 ++ argNameClose ++ valueOpen ++ VAL2 ++ argClose ++ callClose <+: region ∧
      fromFirst NAME noArgsRegion = some (NAME ++ nameClose ++ callClose)

section Families

variable {fromStr : Text → Option Json} {region noArgsRegion : Text} {format : ToolFormat}
variable {nameAt arg1At val1At arg2At val2At : Nat}

/-- A value that is taken for a string is that string. -/
theorem eq_of_isStr {s : Text} {value : Json} (h : isStr s value = true) : value = .string s := by
  have hStr : value.asStr = some s := eq_of_beq h
  match value, hStr with
  | .string _, rfl => rfl

/-- A value that is taken to hold a string has a member with it. -/
theorem exists_of_holdsStr {s : Text} {value : Json} (h : holdsStr s value = true) :
    ∃ arguments key, value = .object arguments ∧ (key, Json.string s) ∈ arguments := by
  match value, h with
  | .object arguments, h =>
    obtain ⟨⟨key, value⟩, hMem, hValue⟩ := List.any_eq_true.mp h
    obtain rfl := eq_of_isStr hValue
    exact ⟨arguments, key, rfl, hMem⟩

/-- A JSON format is the region's text around its braces. -/
theorem json_recomposes (hDerive : deriveJsonFormat fromStr region = some format) :
    Recomposes fromStr region noArgsRegion format := by
  obtain ⟨callOpen, payload, callClose, nameKey, argumentsKey, members, rfl, hRegion, -, hParse,
    hName, hArguments⟩ := json_of_derive hDerive
  obtain ⟨name, hNameMem, hStr⟩ := mem_of_findKey hName
  obtain ⟨value, hArgumentsMem, hHolds⟩ := mem_of_findKey hArguments
  obtain rfl := eq_of_isStr hStr
  obtain ⟨arguments, key, rfl, hValue⟩ := exists_of_holdsStr hHolds
  exact ⟨payload, members, arguments, key, by rw [hRegion, List.append_assoc], hParse, hNameMem,
    hArgumentsMem, hValue⟩

/-- A delimited format writes the region again, span by span. -/
theorem delimited_recomposes (hAt : SentinelsAt region nameAt arg1At val1At arg2At val2At)
    (hDerive : deriveDelimitedFormat region noArgsRegion nameAt arg1At val1At arg2At val2At =
      some format) : Recomposes fromStr region noArgsRegion format := by
  obtain ⟨s, rfl, -, hRegion, front, hEnds, rfl⟩ := delimited_of_derive hAt hDerive
  constructor
  · rw [hRegion, DelimitedSpans.write_probeCall]
    simp only [ProbeSpans.region, DelimitedSpans.probeSpans, List.append_assoc]
  · rw [fromFirst_append hEnds, List.append_assoc]

/-- A separated format does, with the wrapper around each value. -/
theorem separated_recomposes (hAt : SentinelsAt region nameAt arg1At val1At arg2At val2At)
    (hDerive : deriveSeparatedFormat region noArgsRegion nameAt arg1At val1At arg2At val2At =
      some format) : Recomposes fromStr region noArgsRegion format := by
  obtain ⟨callOpen, nameClose, argNameClose, valueOpen, argClose, argSep, callClose, rfl, -, -, -, -,
    ⟨trailing, hRegion⟩, front, hEnds, rfl⟩ := separated_of_derive hAt hDerive
  constructor
  · refine ⟨trailing, ?_⟩
    rw [hRegion]
    simp only [separatedProbe, probeValues, List.map_cons, List.map_nil, join, separatedArg,
      separatedValue, List.append_assoc]
  · rw [fromFirst_append hEnds, List.append_assoc]

end Families

/-- **The spans recompose what was rendered.** For any renderer from which a format is
derived, the regions of the two probes are put together from its spans. -/
theorem derived_spans_recompose (fromStr : Text → Option Json) (templateText : Text)
    (render : RenderFn) (format : ToolFormat)
    (hDerive : deriveToolCallFormat fromStr templateText render = some format) :
    ∃ region noArgsRegion, ProbeRegions templateText render region noArgsRegion ∧
      Recomposes fromStr region noArgsRegion format := by
  obtain ⟨region, noArgsRegion, hRegions⟩ := exists_probeRegions hDerive
  refine ⟨region, noArgsRegion, hRegions, ?_⟩
  obtain ⟨_, _, _, _, _, hAt, hJson | hDelimited | hSeparated⟩ := family_of_derive hRegions hDerive
  · exact json_recomposes hJson
  · exact delimited_recomposes hAt hDelimited
  · exact separated_recomposes hAt hSeparated

/-- The family `derives_the_nested_xml_family` tests. -/
theorem qwenTemplate_recomposes :
    ∃ region noArgsRegion,
      ProbeRegions [] (textStub "<|im_start|>assistant\n".toList "<|im_end|>\n".toList
        qwenSpans.write) region noArgsRegion ∧
      Recomposes (fun _ => none) region noArgsRegion qwenSpans.derived.format :=
  derived_spans_recompose (fun _ => none) [] _ _ (qwenTemplate.deriveToolCallFormat_eq _)

end Rampipe
