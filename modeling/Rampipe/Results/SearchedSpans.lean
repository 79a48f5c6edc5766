import Rampipe.Results.Recomposition

/-!
# Rampipe — which derived spans may be empty

An empty span is found at every offset. The two derivations of a format written in
literal text reject most of them, and two are left: the opener, which is empty when
the region starts with the name, and a delimited format's closer, which is empty when
everything behind the name of a call without arguments also stands in front of the
first argument. `derived_spans_nonempty_iff` says that there are no others.
-/

namespace Rampipe

open ListSearch Text ToolFormat

/-- The spans that are searched for whatever the format's other spans are, of the two
families that are written in literal text. -/
def ToolFormat.searchedSpans : ToolFormat → List Text
  | .json .. => []
  | .delimited callOpen nameClose argOpen argNameClose argClose callClose =>
    [callOpen, nameClose, argNameClose, callClose, argOpen, argClose]
  | .separated callOpen nameClose argNameClose _ _ argSep callClose =>
    [callOpen, nameClose, argNameClose, callClose, argSep]

/-- A format of one of these two families. -/
def ToolFormat.IsLiteral : ToolFormat → Prop
  | .json .. => False
  | _ => True

/-- What stands between the name and the first argument. -/
def nameToFirstArg (region : Text) : Option Text := do
  let nameAt ← find NAME region
  let arg1At ← find ARG1 region
  slice region (nameAt + NAME.length) arg1At

/-- What stands behind the name. -/
def behindName (noArgsRegion : Text) : Option Text :=
  (find NAME noArgsRegion).map fun nameAt => noArgsRegion.drop (nameAt + NAME.length)

/-- The template writes something before the name, and closes a call without arguments
with something that does not also lead to the first argument. -/
def ShowsSpans (region noArgsRegion : Text) : Prop :=
  ¬ NAME <+: region ∧
    ∀ toArg ∈ nameToFirstArg region, ∀ behind ∈ behindName noArgsRegion, ¬ behind <+: toArg

/-- A text that begins the other is what the two share. -/
theorem sharedPrefix_of_isPrefix {a b : Text} (h : b <+: a) : sharedPrefix a b = b := by
  obtain ⟨rest, rfl⟩ := h
  have hLength : commonPrefixLen (asBytes (b ++ rest)) (asBytes b) = (asBytes b).length := by
    have hCommon := commonPrefix_append_append (asBytes b) (asBytes rest) []
    rw [List.append_nil, commonPrefix_comm (asBytes rest), commonPrefix_nil, List.append_nil]
      at hCommon
    unfold commonPrefixLen
    rw [asBytes_append, hCommon]
  have hCut := getRange_append [] b rest rfl (Nat.zero_add (asBytes b).length).symm
  unfold sharedPrefix
  rw [hLength]
  rw [List.nil_append] at hCut
  rw [show getRange (b ++ rest) 0 (asBytes b).length = some b by simpa using hCut]
  rfl

/-- Nothing stands in front of what a text begins with. -/
theorem take_eq_nil_iff_of_find {pat s : Text} {i : Nat} (hPat : pat ≠ [])
    (h : find pat s = some i) : s.take i = [] ↔ pat <+: s := by
  obtain ⟨hLe, hAt, -⟩ := find_eq_some_iff.mp h
  constructor
  · intro hNil
    rcases List.take_eq_nil_iff.mp hNil with rfl | rfl
    · exact hAt
    · rw [List.drop_nil] at hAt
      exact absurd (List.prefix_nil.mp hAt) hPat
  · intro hPre
    rw [find_of_isPrefix hPre] at h
    cases h
    exact List.take_zero

section Families

variable {region noArgsRegion : Text} {nameAt arg1At val1At arg2At val2At : Nat}
variable {format : ToolFormat}

/-- The gap behind the name, as the sentinels cut it out. -/
theorem nameToFirstArg_eq (h : SentinelsAt region nameAt arg1At val1At arg2At val2At) :
    nameToFirstArg region = slice region (nameAt + NAME.length) arg1At := by
  unfold nameToFirstArg
  rw [h.name, h.arg1]
  rfl

/-- The derivation takes what is behind the name as a slice to the end. -/
theorem behindName_eq {at_ : Nat} {behind : Text} (hName : find NAME noArgsRegion = some at_)
    (hSlice : slice noArgsRegion (at_ + NAME.length) noArgsRegion.length = some behind) :
    behindName noArgsRegion = some behind := by
  have hTail := slice_eq_some hSlice
  rw [List.drop_length, List.append_nil] at hTail
  unfold behindName
  rw [hName, Option.map_some, hTail]

/-- The spans that a delimited format searches for are there when the probes show them. -/
theorem delimited_searchedSpans (h : SentinelsAt region nameAt arg1At val1At arg2At val2At)
    (hDerive : deriveDelimitedFormat region noArgsRegion nameAt arg1At val1At arg2At val2At =
      some format) :
    format.IsLiteral ∧
      ((∀ span ∈ format.searchedSpans, span ≠ []) ↔ ShowsSpans region noArgsRegion) := by
  simp only [deriveDelimitedFormat, Option.bind_eq_bind, Option.bind_none,
    Option.ite_none_left_eq_some, Option.bind_eq_some_iff, Bool.or_eq_true, not_or,
    List.isEmpty_iff, stripPrefix_eq_some_iff, not_not, Option.some.injEq] at hDerive
  obtain ⟨nameToArg1, h1, val1ToArg2, -, afterVal2, -, noArgsNameAt, hNoArgs, afterName, h6,
    argOpen, hArgOpen, callClose, -, ⟨⟨hNameClose, hArgOpenNe⟩, hArgCloseNe⟩, -, hName,
    argNameClose, -, hArgNameNe, arg2ToVal2, -, -, rfl⟩ := hDerive
  have hToArg := (nameToFirstArg_eq h).trans h1
  have hBehind := behindName_eq hNoArgs h6
  have hOpen := take_eq_nil_iff_of_find (by decide) h.name
  -- the closer is what the shared front leaves of the text behind the name
  have hClose : callClose = [] ↔ afterName <+: nameToArg1 := by
    constructor
    · rintro rfl
      rw [List.append_nil] at hName
      rw [hName]
      exact ⟨argOpen, hArgOpen.symm⟩
    · intro hPre
      rw [sharedPrefix_of_isPrefix hPre] at hName
      exact List.append_cancel_left (hName.symm.trans (List.append_nil _).symm)
  refine ⟨trivial, ?_⟩
  simp only [searchedSpans, List.forall_mem_cons, List.not_mem_nil, false_implies, implies_true,
    and_true]
  unfold ShowsSpans
  rw [hToArg, hBehind]
  simp only [Option.mem_some_iff, forall_eq']
  rw [← hOpen, ← hClose]
  exact ⟨fun hSpans => ⟨hSpans.1, hSpans.2.2.2.1⟩,
    fun hSpans => ⟨hSpans.1, hNameClose, hArgNameNe, hSpans.2, hArgOpenNe, hArgCloseNe⟩⟩

/-- So are those of a separated one. -/
theorem separated_searchedSpans (h : SentinelsAt region nameAt arg1At val1At arg2At val2At)
    (hDerive : deriveSeparatedFormat region noArgsRegion nameAt arg1At val1At arg2At val2At =
      some format) :
    format.IsLiteral ∧
      ((∀ span ∈ format.searchedSpans, span ≠ []) ↔ ShowsSpans region noArgsRegion) := by
  simp only [deriveSeparatedFormat, Option.bind_eq_bind, Option.bind_none,
    Option.ite_none_left_eq_some, Option.bind_eq_some_iff, Bool.or_eq_true, not_or,
    List.isEmpty_iff, stripPrefix_eq_some_iff, not_not, Option.some.injEq] at hDerive
  obtain ⟨nameClose, h1, argNameClose, -, val1ToArg2, -, afterVal2, -, noArgsNameAt, hNoArgs,
    afterName, h6, callClose, rfl, closingAt, -, argSep, -, argNameClose2, -, -,
    ⟨⟨⟨hNameClose, hArgName⟩, hArgSep⟩, hCallClose⟩, -, rfl⟩ := hDerive
  have hToArg := (nameToFirstArg_eq h).trans h1
  have hBehind := behindName_eq hNoArgs h6
  have hOpen := take_eq_nil_iff_of_find (by decide) h.name
  -- the whole of what leads to the first argument closes the name
  have hClose : ¬ nameClose ++ callClose <+: nameClose := by
    intro hPre
    have hLength := hPre.length_le
    rw [List.length_append] at hLength
    exact hCallClose (List.eq_nil_of_length_eq_zero (by omega))
  refine ⟨trivial, ?_⟩
  simp only [searchedSpans, List.forall_mem_cons, List.not_mem_nil, false_implies, implies_true,
    and_true]
  unfold ShowsSpans
  rw [hToArg, hBehind]
  simp only [Option.mem_some_iff, forall_eq']
  rw [← hOpen]
  exact ⟨fun hSpans => ⟨hSpans.1, hClose⟩,
    fun hSpans => ⟨hSpans.1, hNameClose, hArgName, hCallClose, hArgSep⟩⟩

/-- A JSON format is not literal. -/
theorem json_not_literal {fromStr : Text → Option Json}
    (hDerive : deriveJsonFormat fromStr region = some format) : ¬ format.IsLiteral := by
  obtain ⟨_, _, _, _, _, _, rfl, -⟩ := json_of_derive hDerive
  exact id

end Families

/-- **Empty spans.** Whatever the renderer is, the spans of a format in literal text
that is derived from it are all non-empty exactly when the regions show an opener and
a closer. -/
theorem derived_spans_nonempty_iff (fromStr : Text → Option Json) (templateText : Text)
    (render : RenderFn) (format : ToolFormat) (region noArgsRegion : Text)
    (hRegions : ProbeRegions templateText render region noArgsRegion)
    (hDerive : deriveToolCallFormat fromStr templateText render = some format)
    (hLiteral : format.IsLiteral) :
    (∀ span ∈ format.searchedSpans, span ≠ []) ↔ ShowsSpans region noArgsRegion := by
  obtain ⟨_, _, _, _, _, hAt, hJson | hDelimited | hSeparated⟩ := family_of_derive hRegions hDerive
  · exact absurd hLiteral (json_not_literal hJson)
  · exact (delimited_searchedSpans hAt hDelimited).2
  · exact (separated_searchedSpans hAt hSeparated).2

set_option maxRecDepth 8192 in
/-- Qwen's probes, and the spans that come of them. -/
theorem qwen_spans_nonempty :
    (∀ span ∈ qwenSpans.derived.format.searchedSpans, span ≠ []) ↔
      ShowsSpans (qwenSpans.write NAME [(ARG1, VAL1), (ARG2, VAL2)]) (qwenSpans.write NAME []) :=
  derived_spans_nonempty_iff (fun _ => none) []
    (textStub "<|im_start|>assistant\n".toList "<|im_end|>\n".toList qwenSpans.write)
    qwenSpans.derived.format _ _
    ⟨⟨_, _, rfl, rfl, by decide⟩, ⟨_, _, rfl, rfl, by decide⟩⟩
    (qwenTemplate.deriveToolCallFormat_eq _) trivial

/-- A call that nothing closes but the end of the turn. -/
def openEndedSpans : DelimitedSpans where
  callOpen := "<tool>".toList
  nameClose := "\n".toList
  argOpen := "<arg>".toList
  argNameClose := "=".toList
  argClose := "</arg>\n".toList
  callClose := []

/-- The stub template that writes calls this way. -/
def openEndedStub : RenderFn :=
  textStub "<|im_start|>assistant\n".toList "<|im_end|>\n".toList openEndedSpans.write

set_option maxRecDepth 8192 in
/-- A template whose calls end with the turn yields a format whose closer is empty. -/
theorem openEnded_closer_empty :
    ¬ ∀ (fromStr : Text → Option Json) (templateText : Text) (render : RenderFn)
      (format : ToolFormat), deriveToolCallFormat fromStr templateText render = some format →
        ∀ span ∈ format.searchedSpans, span ≠ [] := by
  intro h
  have hDerived : deriveToolCallFormat (fun _ => none) [] openEndedStub =
      some openEndedSpans.format := by
    decide
  exact h _ _ _ _ hDerived openEndedSpans.callClose
    (by simp [DelimitedSpans.format, searchedSpans]) rfl

end Rampipe
