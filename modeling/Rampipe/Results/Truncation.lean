import Rampipe.Results.Delimited
import Rampipe.Results.Scanning

/-!
# Rampipe — the truncation flag

`ends_mid_call` decides whether a reply was cut off inside a call, and the caller
throws every call of such a reply away. It looks back from the end of the trimmed
text: for an opener with no accepted closer behind it, or for the beginning of an
opener (`endsMidCall_iff`). What stands before the last call does not matter
(`endsMidCall_lastCall`).

The parser looks forward from the beginning. Both use `find_close`, so a call the
parser finds severed is one the flag reports (`severed_call_reported`). The flag
itself is another matter.

* `cutCall_reported_iff`        — a call cut off inside a value is not reported when the
  shortest form of the closer is written in it by then.
* `finishedTurn_unreported_iff` — a finished turn is reported when the closer is empty, is
  trimmed away, or ends like an opener begins.
-/

namespace Rampipe

open ListSearch Text ToolFormat

/-! ## What the flag looks for -/

/-- No accepted form of the closer is written in `s`. -/
def Unclosed (callClose s : Text) : Prop := ∀ closer ∈ closeCandidates callClose, ¬ closer <:+: s

/-- Some opener has no accepted closer behind it. -/
def OpensUnclosed (callOpen callClose s : Text) : Prop :=
  ∃ front after, s = front ++ (callOpen ++ after) ∧ Unclosed callClose after

/-- `s` ends in the beginning of an opener, but not in a whole one. -/
def EndsInOpener (callOpen s : Text) : Prop :=
  ∃ start, start ≠ [] ∧ start ≠ callOpen ∧ start <+: callOpen ∧ start <:+ s

section Flag

variable {callOpen callClose : Text}

/-- No closer is found where a text is unclosed. -/
theorem findClose_eq_none_iff_unclosed {s : Text} :
    findClose s callClose = none ↔ Unclosed callClose s := findClose_eq_none_iff

/-- A part of an unclosed text is unclosed. -/
theorem Unclosed.of_isInfix {s t : Text} (h : Unclosed callClose s) (ht : t <:+: s) :
    Unclosed callClose t := fun closer hCloser hIn => h closer hCloser (hIn.trans ht)

/-- Without a closer every text is. -/
theorem unclosed_nil (s : Text) : Unclosed [] s := by
  intro closer hCloser
  cases hCloser

/-- The shortest form is the one to look for. -/
theorem unclosed_iff {s : Text} :
    Unclosed callClose s ↔ callClose = [] ∨ ¬ shortestCloser callClose <:+: s := by
  constructor
  · intro h
    by_cases hNe : callClose = []
    · exact Or.inl hNe
    · exact Or.inr (h _ (shortestCloser_mem hNe))
  · rintro (rfl | h)
    · exact unclosed_nil s
    · intro closer hCloser hIn
      exact h ((shortestCloser_isPrefix_closer hCloser).isInfix.trans hIn)

/-- If any opener is left open, the last one is. -/
theorem opensUnclosed_iff_rfind {s : Text} :
    OpensUnclosed callOpen callClose s ↔
      ∃ opened, rfind callOpen s = some opened ∧
        Unclosed callClose (s.drop (opened + callOpen.length)) := by
  constructor
  · rintro ⟨front, after, rfl, hAfter⟩
    have hIn : callOpen <:+: front ++ (callOpen ++ after) :=
      ⟨front, after, List.append_assoc _ _ _⟩
    obtain ⟨opened, hOpened⟩ := Option.ne_none_iff_exists'.mp
      fun hNone => rfind_eq_none_iff.mp hNone hIn
    refine ⟨opened, hOpened, hAfter.of_isInfix ?_⟩
    -- what follows the last opener is the end of what follows this one
    have hLe : front.length ≤ opened := by
      by_contra hLt
      refine (rfind_eq_some_iff.mp hOpened).2.2 front.length (by simp) (Nat.lt_of_not_le hLt) ?_
      rw [List.drop_left]
      exact List.prefix_append _ _
    obtain ⟨k, rfl⟩ := Nat.exists_eq_add_of_le hLe
    have hDrop : (front ++ (callOpen ++ after)).drop (front.length + k + callOpen.length) =
        after.drop k := by
      rw [show front.length + k + callOpen.length = front.length + (callOpen.length + k) by omega,
        ← List.drop_drop, List.drop_left, ← List.drop_drop, List.drop_left]
    rw [hDrop]
    exact (List.drop_suffix k after).isInfix
  · rintro ⟨opened, hOpened, hAfter⟩
    obtain ⟨hLe, ⟨rest, hRest⟩, -⟩ := rfind_eq_some_iff.mp hOpened
    refine ⟨s.take opened, rest, ?_, ?_⟩
    · rw [hRest, List.take_append_drop]
    · rwa [← List.drop_drop, ← hRest, List.drop_left] at hAfter

/-- Whether a text ends in the beginning of an opener, as it is looked for. -/
theorem endsInOpener_iff_any {s : Text} :
    EndsInOpener callOpen s ↔
      ((List.range callOpen.length).drop 1).any (fun at_ => (callOpen.take at_).isSuffixOf s) =
        true := by
  rw [List.any_eq_true]
  constructor
  · rintro ⟨start, hNe, hProper, hPre, hSuffix⟩
    -- a proper non-empty beginning is a cut strictly inside the opener
    have hPos := List.length_pos_iff.mpr hNe
    have hLt : start.length < callOpen.length :=
      Nat.lt_of_le_of_ne hPre.length_le fun hLen => hProper (hPre.eq_of_length hLen)
    refine ⟨start.length, ?_, ?_⟩
    · rw [List.range_eq_range', List.drop_range', List.mem_range'_1]
      omega
    · rw [← List.prefix_iff_eq_take.mp hPre]
      exact List.isSuffixOf_iff_suffix.mpr hSuffix
  · rintro ⟨at_, hAt, hSuffix⟩
    rw [List.range_eq_range', List.drop_range', List.mem_range'_1] at hAt
    have hLen : (callOpen.take at_).length = at_ := by
      rw [List.length_take]
      omega
    refine ⟨callOpen.take at_, ?_, ?_, List.take_prefix _ _, List.isSuffixOf_iff_suffix.mp hSuffix⟩
    · rw [← List.length_pos_iff, hLen]
      omega
    · intro hEq
      rw [hEq] at hLen
      omega

instance (callOpen s : Text) : Decidable (EndsInOpener callOpen s) :=
  decidable_of_iff' _ endsInOpener_iff_any

/-- `written` goes on with a beginning of the opener that `front` ends in. -/
def RunsOn (callOpen front written : Text) : Prop :=
  ∃ n < callOpen.length, 0 < n ∧ callOpen.take n <:+ front ∧
    written <+: callOpen.drop n ∧ callOpen.drop n ≠ written

instance (callOpen front written : Text) : Decidable (RunsOn callOpen front written) := by
  unfold RunsOn
  infer_instance

/-- A beginning of the opener at the end of a text lies in its last part, or runs through it. -/
theorem endsInOpener_append_iff {front written : Text} :
    EndsInOpener callOpen (front ++ written) ↔
      EndsInOpener callOpen written ∨ RunsOn callOpen front written := by
  constructor
  · rintro ⟨start, hNe, hProper, hPre, hSuffix⟩
    rcases Nat.lt_or_ge written.length start.length with hLong | hShort
    · -- the last part is the end of the beginning
      obtain ⟨begun, rfl⟩ : written <:+ start :=
        List.suffix_of_suffix_length_le (List.suffix_append _ _) hSuffix (Nat.le_of_lt hLong)
      have hLt := Nat.lt_of_le_of_ne hPre.length_le fun hEq => hProper (hPre.eq_of_length hEq)
      obtain ⟨rest, hRest⟩ := hPre
      rw [List.append_assoc] at hRest
      rw [List.length_append] at hLong hLt
      have hBegun : begun <:+ front := by
        obtain ⟨before, hBefore⟩ := hSuffix
        rw [← List.append_assoc] at hBefore
        exact ⟨before, List.append_cancel_right hBefore⟩
      refine Or.inr ⟨begun.length, ?_, by omega, ?_, ?_, ?_⟩
      · omega
      · rwa [← hRest, List.take_left]
      · rw [← hRest, List.drop_left]
        exact List.prefix_append _ _
      · intro hDrop
        rw [← hRest, List.drop_left] at hDrop
        exact hProper (by rw [← hRest, hDrop])
    · exact Or.inl ⟨start, hNe, hProper, hPre,
        List.suffix_of_suffix_length_le hSuffix (List.suffix_append _ _) hShort⟩
  · rintro (⟨start, hNe, hProper, hPre, hSuffix⟩ | ⟨n, hn, hPos, hFront, hRest, hProper⟩)
    · exact ⟨start, hNe, hProper, hPre, hSuffix.trans (List.suffix_append _ _)⟩
    · refine ⟨callOpen.take n ++ written, ?_, ?_, ?_, ?_⟩
      · refine List.append_ne_nil_of_left_ne_nil ?_ _
        rw [← List.length_pos_iff, List.length_take]
        omega
      · intro hEq
        have hWhole : callOpen.take n ++ callOpen.drop n = callOpen.take n ++ written := by
          rw [List.take_append_drop, hEq]
        exact hProper (List.append_cancel_left hWhole)
      · rw [← List.take_append_drop n callOpen, List.take_append_of_le_length (by simp; omega)]
        simp only [List.take_take, Nat.min_self]
        exact (List.prefix_append_right_inj _).mpr (by simpa using hRest)
      · obtain ⟨before, hBefore⟩ := hFront
        exact ⟨before, by rw [← List.append_assoc, hBefore]⟩

instance (callClose s : Text) : Decidable (Unclosed callClose s) :=
  decidable_of_iff _ findClose_eq_none_iff_unclosed

instance (callOpen callClose s : Text) : Decidable (OpensUnclosed callOpen callClose s) :=
  decidable_of_iff
    ((rfind callOpen s).any
      fun opened => decide (Unclosed callClose (s.drop (opened + callOpen.length))))
    (by rw [opensUnclosed_iff_rfind, Option.any_eq_true]; simp)

end Flag

/-- The flag is up when the trimmed text has an opener left open, or ends in the
beginning of one. -/
theorem endsMidCall_iff {text : Text} {format : ToolFormat} :
    endsMidCall text format = true ↔ format.callOpen ≠ [] ∧
      (OpensUnclosed format.callOpen format.callClose (trimEnd text) ∨
        EndsInOpener format.callOpen (trimEnd text)) := by
  rw [endsMidCall, opensUnclosed_iff_rfind, endsInOpener_iff_any]
  by_cases hNe : format.callOpen = []
  · simp [hNe]
  · have hOpen : format.callOpen.isEmpty = false := by simpa using hNe
    simp only [hOpen, Bool.false_eq_true, if_false, Bool.or_eq_true, ne_eq, hNe, not_false_eq_true,
      true_and]
    refine or_congr_left ?_
    cases hOpened : rfind format.callOpen (trimEnd text) with
    | none => simp
    | some opened =>
      simp only [Option.some.injEq, exists_eq_left', Bool.or_eq_true, List.isEmpty_iff,
        Option.isNone_iff_eq_none, findClose_eq_none_iff_unclosed]
      constructor
      · rintro (hClose | hAfter)
        · -- an empty closer is accepted nowhere
          rw [hClose]
          exact unclosed_nil _
        · exact hAfter
      · exact Or.inr

/-! ## What the parser finds severed -/

/-- An opener that the text never closes raises the flag, however much of it
trimming cuts away. -/
theorem endsMidCall_of_unclosed {format : ToolFormat} (hVisible : Visible format.callOpen)
    (front : Text) {body : Text} (h : Unclosed format.callClose body) :
    endsMidCall (front ++ (format.callOpen ++ body)) format = true := by
  have hNe := hVisible.ne_nil
  have hCall : Visible (format.callOpen ++ body) := hVisible.append_right body
  have hTrim := trimEnd_append hCall front
  have hPre := trimEnd_isPrefix (format.callOpen ++ body)
  refine endsMidCall_iff.mpr ⟨hNe, ?_⟩
  rw [hTrim]
  -- trimming stops behind the opener, or inside it
  rcases List.prefix_or_prefix_of_prefix (List.prefix_append format.callOpen body) hPre with
    ⟨kept, hKept⟩ | hCut
  · have hBody : kept <+: body := by
      rw [← hKept] at hPre
      exact (List.prefix_append_right_inj _).mp hPre
    exact Or.inl ⟨front, kept, by rw [hKept], h.of_isInfix hBody.isInfix⟩
  · by_cases hWhole : trimEnd (format.callOpen ++ body) = format.callOpen
    · refine Or.inl ⟨front, [], ?_, h.of_isInfix List.nil_infix⟩
      rw [hWhole, List.append_nil]
    · refine Or.inr ⟨_, ?_, hWhole, hCut, List.suffix_append _ _⟩
      exact fun hNil => trimEnd_eq_nil_iff.mp hNil hCall

/-- **Parser and flag agree.** When the scan ends on an opener it finds no closer
for, the flag is up; so when the flag is down, every call that is returned was
ended by an accepted closer. -/
theorem severed_call_reported (fromStr : Text → Option Json) (text : Text) (format : ToolFormat)
    (hVisible : Visible format.callOpen) :
    (∀ call ∈ scannedCalls format.callOpen format.callClose (text.length + 1) 0 text,
      call.closedBy = none → endsMidCall text format = true) ∧
    (endsMidCall text format = false → ∀ calls, parseToolCalls fromStr text format = some calls →
      ∀ toolCall ∈ calls, ∃ front body closer back,
        text = front ++ (format.callOpen ++ (body ++ (closer ++ back))) ∧
        closer ∈ closeCandidates format.callClose ∧
        { start := front.length + format.callOpen.length, body := body,
          closedBy := some closer.length : ScannedCall } ∈
            scannedCalls format.callOpen format.callClose (text.length + 1) 0 text ∧
        format.readBody fromStr body = some (some toolCall)) := by
  have hNe := hVisible.ne_nil
  have hReported : ∀ call ∈ scannedCalls format.callOpen format.callClose (text.length + 1) 0 text,
      call.closedBy = none → endsMidCall text format = true := by
    intro call hCall hClosed
    obtain ⟨front, -, ⟨-, hText, hClose⟩ | ⟨_, _, _, hSome, -⟩⟩ := mem_scannedCalls hNe hCall
    · rw [hText]
      exact endsMidCall_of_unclosed hVisible front (findClose_eq_none_iff_unclosed.mp hClose)
    · rw [hClosed] at hSome
      cases hSome
  refine ⟨hReported, ?_⟩
  intro hFlag calls hParse toolCall hMem
  obtain ⟨call, hCall, hRead⟩ := exists_of_mem_parseToolCalls hParse hMem
  obtain ⟨front, hStart, ⟨hNone, -, -⟩ | ⟨closer, hCloser, back, hSome, hText⟩⟩ :=
    mem_scannedCalls hNe hCall
  · -- a severed call would have raised the flag
    rw [hReported call hCall hNone] at hFlag
    cases hFlag
  · refine ⟨front, call.body, closer, back, hText, hCloser, ?_, hRead⟩
    rw [Nat.zero_add] at hStart
    rwa [← hStart, ← hSome]

/-- A Qwen call cut off inside the file it writes. -/
def severedWrite : Text :=
  "Writing.\n<tool_call>\n<function=write>\n<parameter=content>\nassert_eq!(&buffer".toList

/-- A write that breaks off is reported. -/
theorem severedWrite_reported : endsMidCall severedWrite qwenSpans.derived.format = true :=
  (severed_call_reported (fun _ => none) severedWrite qwenSpans.derived.format (by decide)).1
    { start := 31, body := "write>\n<parameter=content>\nassert_eq!(&buffer".toList,
      closedBy := none } (by decide) rfl

/-! ## Calls in a family's spans -/

/-- A value between its wrappers, or bare. -/
def separatedValue (valueOpen argClose : Text) : Value → Text
  | .wrapped content => valueOpen ++ (content ++ argClose)
  | .bare content => content

def separatedArg (argNameClose valueOpen argClose : Text) (arg : Text × Value) : Text :=
  arg.1 ++ (argNameClose ++ separatedValue valueOpen argClose arg.2)

/-- Texts a call is made of that hold none of `spans`. -/
def FreeOf (spans texts : List Text) : Prop := ∀ span ∈ spans, ∀ text ∈ texts, ¬ span <:+: text

instance (spans texts : List Text) : Decidable (FreeOf spans texts) := by
  unfold FreeOf
  infer_instance

/-- What a call writes between its opener and its closer, when its values hold none of
`spans`. A JSON payload escapes its strings, so nothing is asked of it but its opening
brace. -/
inductive RenderedBody (spans : List Text) : ToolFormat → Text → Prop
  | json (callOpen callClose nameKey argumentsKey members : Text) :
    RenderedBody spans (.json callOpen callClose nameKey argumentsKey) ('{' :: members)
  | delimited (s : DelimitedSpans) (name : Text) (args : List (Text × Text))
    (hName : Visible name) (hFree : FreeOf spans (args.map Prod.snd)) :
    RenderedBody spans s.format (s.body name args)
  | separated (callOpen nameClose argNameClose valueOpen argClose argSep callClose : Text)
    (name : Text) (args : List (Text × Value)) (hName : Visible name)
    (hFree : FreeOf spans (args.map fun arg => arg.2.content)) :
    RenderedBody spans
      (.separated callOpen nameClose argNameClose valueOpen argClose argSep callClose)
      (name ++ (nameClose ++ join argSep (args.map (separatedArg argNameClose valueOpen argClose))))

/-- What a call has written behind its opener when it is cut off strictly inside a value:
`before` leads up to the value, of which `kept` is there and `lost` is not. -/
inductive CutInside (spans : List Text) : ToolFormat → Text → Text → Prop
  | delimited (s : DelimitedSpans) (name : Text) (args : List (Text × Text)) (key kept lost : Text)
    (hName : Visible name) (hKept : kept ≠ []) (hLost : lost ≠ [])
    (hFree : FreeOf spans
      (name :: key :: (kept ++ lost) :: args.flatMap fun arg => [arg.1, arg.2])) :
    CutInside spans s.format (s.body name args ++ (s.argOpen ++ (key ++ s.argNameClose))) kept
  | separated (callOpen nameClose argNameClose valueOpen argClose argSep callClose : Text)
    (name : Text) (args : List (Text × Value)) (key opened kept lost : Text)
    (hName : Visible name) (hOpened : opened = valueOpen ∨ opened = [])
    (hKept : kept ≠ []) (hLost : lost ≠ [])
    (hFree : FreeOf spans
      (name :: key :: (kept ++ lost) :: args.flatMap fun arg => [arg.1, arg.2.content])) :
    CutInside spans
      (.separated callOpen nameClose argNameClose valueOpen argClose argSep callClose)
      (name ++ (nameClose ++
        ((args.flatMap fun arg => separatedArg argNameClose valueOpen argClose arg ++ argSep) ++
          (key ++ (argNameClose ++ opened))))) kept

/-- There is something to be seen of a rendered body. -/
theorem RenderedBody.visible {spans : List Text} {format : ToolFormat} {body : Text}
    (h : RenderedBody spans format body) : Visible body := by
  cases h with
  | json callOpen callClose nameKey argumentsKey members =>
    exact ⟨'{', List.mem_cons_self, by decide⟩
  | delimited s name args hName hFree => exact hName.append_right _
  | separated callOpen nameClose argNameClose valueOpen argClose argSep callClose name args hName
      hFree => exact hName.append_right _

/-- A call that has come to a value has written its name. -/
theorem CutInside.visible {spans : List Text} {format : ToolFormat} {before kept : Text}
    (h : CutInside spans format before kept) : Visible before := by
  cases h with
  | delimited s name args key kept lost hName hKept hLost hFree =>
    exact (hName.append_right _).append_right _
  | separated callOpen nameClose argNameClose valueOpen argClose argSep callClose name args key
      opened kept lost hName hOpened hKept hLost hFree => exact hName.append_right _

/-! ## The last call -/

/-- What stands before the last call has no part in the flag. -/
theorem endsMidCall_lastCall {format : ToolFormat} (hNe : format.callOpen ≠ []) (front : Text)
    {written : Text} (hWritten : Visible written) :
    endsMidCall (front ++ (format.callOpen ++ written)) format = true ↔
      OpensUnclosed format.callOpen format.callClose (format.callOpen ++ trimEnd written) ∨
        EndsInOpener format.callOpen (format.callOpen ++ trimEnd written) := by
  rw [endsMidCall_iff, trimEnd_append (hWritten.append_left _), trimEnd_append hWritten]
  simp only [ne_eq, hNe, not_false_eq_true, true_and]
  constructor
  · rintro (⟨x, after, hSplit, hAfter⟩ | ⟨start, hStart, hProper, hPre, hSuffix⟩)
    · left
      -- an opener in front leaves this call's own opener open as well
      rcases List.append_eq_append_iff.mp hSplit with ⟨y, rfl, hy⟩ | ⟨y, rfl, hy⟩
      · exact ⟨y, after, hy, hAfter⟩
      · have hLast : trimEnd written <:+ format.callOpen ++ after := by
          rw [hy, ← List.append_assoc]
          exact List.suffix_append _ _
        have hSuffix : trimEnd written <:+ after := by
          refine List.suffix_of_suffix_length_le hLast (List.suffix_append _ _) ?_
          have hLen := congrArg List.length hy
          simp only [List.length_append] at hLen
          omega
        exact ⟨[], trimEnd written, rfl, hAfter.of_isInfix hSuffix.isInfix⟩
    · right
      refine ⟨start, hStart, hProper, hPre, ?_⟩
      -- the beginning of an opener is shorter than this call's opener
      refine List.suffix_of_suffix_length_le hSuffix (List.suffix_append _ _) ?_
      have hLe := hPre.length_le
      rw [List.length_append]
      omega
  · rintro (⟨x, after, hSplit, hAfter⟩ | ⟨start, hStart, hProper, hPre, hSuffix⟩)
    · exact Or.inl ⟨front ++ x, after, by rw [hSplit, List.append_assoc], hAfter⟩
    · exact Or.inr ⟨start, hStart, hProper, hPre, hSuffix.trans (List.suffix_append _ _)⟩

/-- A span that a text is free of is not empty. -/
theorem ne_nil_of_freeOf {spans texts : List Text} (h : FreeOf spans texts) {span text : Text}
    (hSpan : span ∈ spans) (hText : text ∈ texts) : span ≠ [] := by
  rintro rfl
  exact h [] hSpan text hText List.nil_infix

/-- So where a value is cut there is an opener. -/
theorem CutInside.callOpen_ne {spans : List Text} {format : ToolFormat} {before kept : Text}
    (h : CutInside spans format before kept) {span : Text} (hSpan : span ∈ spans) : span ≠ [] := by
  cases h with
  | delimited s name args key kept lost hName hKept hLost hFree =>
    exact ne_nil_of_freeOf hFree hSpan List.mem_cons_self
  | separated callOpen nameClose argNameClose valueOpen argClose argSep callClose name args key
      opened kept lost hName hOpened hKept hLost hFree =>
    exact ne_nil_of_freeOf hFree hSpan List.mem_cons_self

/-! ## A call cut off inside a value -/

/-- A form of the closer is written by the time the call is cut off: in the value as far as
it is there, before the value, or across where the value begins. -/
def WritesCloser (callClose before kept : Text) : Prop :=
  shortestCloser callClose <:+: kept ∨ shortestCloser callClose <:+: before ∨
    Straddles (shortestCloser callClose) before kept

instance (callClose before kept : Text) : Decidable (WritesCloser callClose before kept) := by
  unfold WritesCloser
  infer_instance

/-- Another opener is written behind the call's own, and no form of the closer behind it. -/
def Reopens (callOpen callClose written : Text) : Prop :=
  ∃ front after, front ≠ [] ∧ callOpen ++ written = front ++ (callOpen ++ after) ∧
    ¬ shortestCloser callClose <:+: after

/-- What trimming leaves of the text before the value: all of it, unless there is nothing
of the value to be seen. -/
def trimmedBefore (before kept : Text) : Text :=
  if trimEnd kept = [] then trimEnd before else before

/-- What trimming leaves of a call that is cut off. -/
theorem trimEnd_before_kept (before kept : Text) :
    trimEnd (before ++ kept) = trimmedBefore before kept ++ trimEnd kept := by
  unfold trimmedBefore
  split
  · rename_i hBlank
    rw [trimEnd_append_blank (trimEnd_eq_nil_iff.mp hBlank), hBlank, List.append_nil]
  · rename_i hKept
    rw [trimEnd_eq_nil_iff, not_not] at hKept
    exact trimEnd_append hKept before

/-- A call is open when it has written no closer, or has opened another call since. -/
theorem opensUnclosed_call_iff {callOpen callClose before kept : Text} :
    OpensUnclosed callOpen callClose (callOpen ++ (before ++ kept)) ↔
      callClose = [] ∨ ¬ WritesCloser callClose before kept ∨
        Reopens callOpen callClose (before ++ kept) := by
  have hWrites : WritesCloser callClose before kept ↔
      shortestCloser callClose <:+: before ++ kept := by
    rw [WritesCloser, isInfix_append_iff]
    tauto
  rw [hWrites]
  constructor
  · rintro ⟨front, after, hSplit, hAfter⟩
    rcases unclosed_iff.mp hAfter with hNil | hNone
    · exact Or.inl hNil
    by_cases hFront : front = []
    · -- the call's own opener, with everything it has written behind it
      subst hFront
      rw [List.nil_append] at hSplit
      rw [List.append_cancel_left hSplit]
      exact Or.inr (Or.inl hNone)
    · exact Or.inr (Or.inr ⟨front, after, hFront, hSplit, hNone⟩)
  · rintro (hNil | hNone | ⟨front, after, -, hSplit, hNone⟩)
    · exact ⟨[], before ++ kept, rfl, unclosed_iff.mpr (Or.inl hNil)⟩
    · exact ⟨[], before ++ kept, rfl, unclosed_iff.mpr (Or.inr hNone)⟩
    · exact ⟨front, after, hSplit, unclosed_iff.mpr (Or.inr hNone)⟩

/-- **A call cut off inside a value.** Whatever the turn holds before it, the flag is up if
and only if the call has written no form of the closer by then, not even the shortest: not
in the value as far as it is there, not before it, and not across the two. A call that has
is reported all the same when there is no closer to write, when its spans have made another
opener since, or when it is cut off behind the beginning of one. -/
theorem cutCall_reported_iff (format : ToolFormat) (front before kept : Text)
    (hCut : CutInside [format.callOpen, format.callClose] format before kept) :
    endsMidCall (front ++ (format.callOpen ++ (before ++ kept))) format = true ↔
      ¬ WritesCloser format.callClose (trimmedBefore before kept) (trimEnd kept) ∨
        format.callClose = [] ∨
        Reopens format.callOpen format.callClose (trimmedBefore before kept ++ trimEnd kept) ∨
        EndsInOpener format.callOpen (trimEnd kept) ∨
        RunsOn format.callOpen (format.callOpen ++ trimmedBefore before kept) (trimEnd kept) := by
  have hOpen := endsMidCall_lastCall (hCut.callOpen_ne List.mem_cons_self) front
    (hCut.visible.append_right kept)
  rw [hOpen, trimEnd_before_kept, opensUnclosed_call_iff, ← List.append_assoc,
    endsInOpener_append_iff]
  tauto

/-- A call that has come to the file it writes. -/
def writeBefore : Text :=
  qwenSpans.derived.body "write".toList [] ++
    (qwenSpans.derived.argOpen ++ ("content".toList ++ qwenSpans.derived.argNameClose))

/-- A note about the tool format, cut off. -/
def noteCut : Text := "The closer is </function> and".toList

/-- The tag the value mentions is a short form of the closer, so the flag stays down. -/
theorem noteCut_unreported :
    deriveToolCallFormat (fun _ => none) []
        (textStub "<|im_start|>assistant\n".toList "<|im_end|>\n".toList qwenSpans.write) =
      some qwenSpans.derived.format ∧
    CutInside [qwenSpans.derived.callOpen, qwenSpans.derived.callClose] qwenSpans.derived.format
      writeBefore noteCut ∧
    endsMidCall (qwenSpans.derived.callOpen ++ (writeBefore ++ noteCut))
      qwenSpans.derived.format = false := by
  refine ⟨qwenTemplate.deriveToolCallFormat_eq _, ?_, by decide⟩
  exact .delimited qwenSpans.derived "write".toList [] "content".toList
    noteCut " a line break.".toList (by decide) (by decide) (by decide) (by decide)

/-- A source file, cut off inside a line. -/
theorem sourceCut_reported :
    endsMidCall ("Writing.\n".toList ++ (qwenSpans.derived.callOpen ++
      (writeBefore ++ "assert_eq!(&buf".toList))) qwenSpans.derived.format = true :=
  (cutCall_reported_iff qwenSpans.derived.format "Writing.\n".toList writeBefore _
    (.delimited qwenSpans.derived "write".toList [] "content".toList "assert_eq!(&buf".toList
      "fer, b);".toList (by decide) (by decide) (by decide) (by decide))).mpr
    (Or.inl (by decide))

/-! ## A finished turn -/

/-- An accepted form of the closer is left when the whitespace at its end is trimmed, and no
opener that runs into it takes that form in. -/
structure ClosesWhole (callOpen callClose body : Text) : Prop where
  kept : shortestCloser callClose <+: trimEnd callClose
  apart : ∀ n < (trimEnd callClose).length,
    callOpen <:+ callOpen ++ (body ++ (trimEnd callClose).take (n + 1)) →
      shortestCloser callClose <:+: (trimEnd callClose).drop (n + 1)

instance (callOpen callClose body : Text) : Decidable (ClosesWhole callOpen callClose body) :=
  decidable_of_iff (_ ∧ _) ⟨fun ⟨h1, h2⟩ => ⟨h1, h2⟩, fun h => ⟨h.kept, h.apart⟩⟩

/-- No form is left of a closer without a tag that ends in whitespace, and then the body holds
the closer already, behind every opener in what is left of the call. -/
structure ClosesInside (callOpen callClose body : Text) : Prop where
  lost : ¬ shortestCloser callClose <+: trimEnd callClose
  inside : ∀ front after, callOpen ++ trimEnd (body ++ callClose) = front ++ (callOpen ++ after) →
    shortestCloser callClose <:+: after

section Finished

variable {callOpen callClose body : Text}

/-- Nothing is left open when the shortest form stands behind every opener. -/
theorem not_opensUnclosed_iff (hNe : callClose ≠ []) {s : Text} :
    ¬ OpensUnclosed callOpen callClose s ↔
      ∀ front after, s = front ++ (callOpen ++ after) → shortestCloser callClose <:+: after := by
  constructor
  · intro h front after hSplit
    by_contra hNone
    exact h ⟨front, after, hSplit, unclosed_iff.mpr (Or.inr hNone)⟩
  · rintro h ⟨front, after, hSplit, hAfter⟩
    rcases unclosed_iff.mp hAfter with hNil | hNone
    · exact hNe hNil
    · exact hNone (h front after hSplit)

/-- A closer that is left after trimming closes its call, unless an opener runs into it. -/
theorem closesWhole_iff (hNe : callClose ≠ [])
    (hKept : shortestCloser callClose <+: trimEnd callClose) :
    ¬ OpensUnclosed callOpen callClose (callOpen ++ trimEnd (body ++ callClose)) ↔
      ClosesWhole callOpen callClose body := by
  have hVisible : Visible callClose := by
    by_contra hBlank
    rw [trimEnd_eq_nil_iff.mpr hBlank, List.prefix_nil] at hKept
    exact shortestCloser_ne_nil hNe hKept
  rw [trimEnd_append hVisible, not_opensUnclosed_iff hNe]
  constructor
  · intro h
    refine ⟨hKept, fun n hn ⟨front, hFront⟩ => h front _ ?_⟩
    rw [← List.append_assoc front, hFront]
    simp only [List.append_assoc, List.take_append_drop]
  · intro h front after hSplit
    rcases Nat.lt_or_ge after.length (trimEnd callClose).length with hLt | hGe
    · -- the opener ends inside the closer
      obtain ⟨n, hn⟩ : ∃ n, (trimEnd callClose).length = after.length + (n + 1) :=
        ⟨(trimEnd callClose).length - after.length - 1, by omega⟩
      have hDrop : (trimEnd callClose).drop (n + 1) = after := by
        have hCloser : (trimEnd callClose).drop (n + 1) <:+
            callOpen ++ (body ++ trimEnd callClose) :=
          (List.drop_suffix _ _).trans
            ((List.suffix_append body _).trans (List.suffix_append callOpen _))
        have hAfter : after <:+ callOpen ++ (body ++ trimEnd callClose) := by
          rw [hSplit, ← List.append_assoc]
          exact List.suffix_append _ _
        refine (List.suffix_of_suffix_length_le hCloser hAfter ?_).eq_of_length ?_
        · rw [List.length_drop]
          omega
        · rw [List.length_drop]
          omega
      have hApart := h.apart n (by omega)
      rw [hDrop] at hApart
      refine hApart ⟨front, ?_⟩
      rw [← List.append_cancel_right_eq _ after, List.append_assoc, ← hSplit, ← hDrop]
      simp only [List.append_assoc, List.take_append_drop]
    · -- the opener ends before the closer begins
      have hCloser : trimEnd callClose <:+ callOpen ++ (body ++ trimEnd callClose) :=
        (List.suffix_append body _).trans (List.suffix_append callOpen _)
      have hSuffix : trimEnd callClose <:+ after := by
        refine List.suffix_of_suffix_length_le hCloser ?_ hGe
        rw [hSplit, ← List.append_assoc]
        exact List.suffix_append _ _
      exact hKept.isInfix.trans hSuffix.isInfix

end Finished

/-- **A finished turn.** Of complete calls, whatever stands between them and with
whitespace behind the last one, the flag is down if and only if there is an opener and a
closer, the last call's closer closes it although the end is trimmed, and what is left does
not end in the beginning of an opener; or there is no opener at all. -/
theorem finishedTurn_unreported_iff (format : ToolFormat) (calls : List (Text × Text))
    (separator body trailing : Text) (hBody : RenderedBody [format.callOpen] format body)
    (hTrailing : ¬ Visible trailing) :
    endsMidCall (reply format.callOpen format.callClose (calls ++ [(separator, body)]) trailing)
        format = false ↔
      format.callOpen = [] ∨
        format.callClose ≠ [] ∧
        (ClosesWhole format.callOpen format.callClose body ∨
          ClosesInside format.callOpen format.callClose body) ∧
        ¬ (EndsInOpener format.callOpen (trimEnd format.callClose) ∨
          RunsOn format.callOpen (format.callOpen ++ trimmedBefore body format.callClose)
            (trimEnd format.callClose)) := by
  by_cases hOpen : format.callOpen = []
  · simp [endsMidCall, hOpen]
  · have hWritten : Visible (body ++ (format.callClose ++ trailing)) :=
      hBody.visible.append_right _
    have hText : reply format.callOpen format.callClose (calls ++ [(separator, body)]) trailing =
        (reply format.callOpen format.callClose calls [] ++ separator) ++
          (format.callOpen ++ (body ++ (format.callClose ++ trailing))) := by
      rw [reply_append, reply_eq_append, List.append_assoc]
      rfl
    have hOpenIff := endsMidCall_lastCall hOpen
      (reply format.callOpen format.callClose calls [] ++ separator) hWritten
    -- the whitespace behind the last closer is trimmed away
    have hTrim : trimEnd (body ++ (format.callClose ++ trailing)) =
        trimEnd (body ++ format.callClose) := by
      rw [← List.append_assoc, trimEnd_append_blank hTrailing]
    rw [hTrim] at hOpenIff
    rw [hText, ← Bool.not_eq_true, hOpenIff, not_or, ← endsInOpener_append_iff,
      List.append_assoc, ← trimEnd_before_kept]
    simp only [hOpen, false_or, ← and_assoc]
    refine and_congr_left fun _ => ?_
    by_cases hNil : format.callClose = []
    · -- without a closer the call stays open
      have hUnclosed : OpensUnclosed format.callOpen format.callClose
          (format.callOpen ++ trimEnd (body ++ format.callClose)) :=
        ⟨[], _, rfl, unclosed_iff.mpr (Or.inl hNil)⟩
      exact ⟨fun h => absurd hUnclosed h, fun h => absurd hNil h.1⟩
    · simp only [ne_eq, hNil, not_false_eq_true, true_and]
      by_cases hKept : shortestCloser format.callClose <+: trimEnd format.callClose
      · rw [closesWhole_iff hNil hKept]
        exact ⟨Or.inl, fun h => h.resolve_right fun hInside => hInside.lost hKept⟩
      · rw [not_opensUnclosed_iff hNil]
        exact ⟨fun h => Or.inr ⟨hKept, h⟩,
          fun h => (h.resolve_left fun hWhole => hKept hWhole.kept).inside⟩

/-- A template that fences its calls: the closer is how the opener begins. -/
def fenceSpans : DelimitedSpans where
  callOpen := "~~~call\n".toList
  nameClose := "\n".toList
  argOpen := "@".toList
  argNameClose := ": ".toList
  argClose := "\n".toList
  callClose := "~~~".toList

def fenceTemplate :=
  delimitedStub fenceSpans (by decide) (by decide) (by decide) (by decide)

/-- One complete call of this template reads as cut off. -/
theorem fencedCall_reported :
    deriveToolCallFormat (fun _ => none) []
        (textStub "<|im_start|>assistant\n".toList "<|im_end|>\n".toList fenceSpans.write) =
      some fenceSpans.derived.format ∧
    RenderedBody [fenceSpans.derived.callOpen] fenceSpans.derived.format
      (fenceSpans.derived.body "read".toList [("path".toList, "a.rs".toList)]) ∧
    endsMidCall (reply fenceSpans.derived.callOpen fenceSpans.derived.callClose
        [([], fenceSpans.derived.body "read".toList [("path".toList, "a.rs".toList)])] [])
      fenceSpans.derived.format = true := by
  refine ⟨fenceTemplate.deriveToolCallFormat_eq _, ?_, by decide⟩
  exact .delimited fenceSpans.derived "read".toList [("path".toList, "a.rs".toList)] (by decide)
    (by decide)

set_option maxRecDepth 4096 in
/-- Two writes of Qwen's, both complete. -/
theorem finishedWrite_unreported :
    endsMidCall (reply qwenSpans.derived.callOpen qwenSpans.derived.callClose
        ([([], qwenSpans.derived.body writeCall.name writeCall.args)] ++
          [("\n".toList, qwenSpans.derived.body writeCall.name writeCall.args)]) "\n".toList)
      qwenSpans.derived.format = false :=
  (finishedTurn_unreported_iff qwenSpans.derived.format
    [([], qwenSpans.derived.body writeCall.name writeCall.args)] "\n".toList
    (qwenSpans.derived.body writeCall.name writeCall.args) "\n".toList
    (.delimited qwenSpans.derived writeCall.name writeCall.args (by decide) (by decide))
    (by decide)).mpr (Or.inr ⟨by decide, Or.inl (by decide), by decide⟩)

end Rampipe
