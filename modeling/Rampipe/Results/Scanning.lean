import Rampipe.Results.Separated

/-!
# Rampipe — where the scan finds its calls

`scan_calls` hands each body to its reader as a slice of the text, so a body has
a place as well as characters. `scannedCalls` keeps the place, and how much of
the closer ended the call; forgetting both gives `scanBodies` back
(`scannedCalls_bodies`).

A turn is written one call after the other, each with an accepted form of the
closer. The scan looks for the longest form in everything that is left of the
turn, so a call written with a short form is read up to a later call's long one.
`Separate` is the exact condition under which that does not happen.
-/

namespace Rampipe

open ListSearch Text ToolFormat

/-! ## The scan, with places -/

/-- A body as `scan_calls` cuts it out: where it starts, and how much of the
closer ended it, or `none` when the text ran out. -/
structure ScannedCall where
  start : Nat
  body : Text
  closedBy : Option Nat
  deriving DecidableEq

namespace ScannedCall

/-- Where the call's closer ends. -/
def stop (call : ScannedCall) : Nat := call.start + call.body.length + call.closedBy.getD 0

/-- The slice handed to the reader. -/
def slice (call : ScannedCall) : Nat × Text := (call.start, call.body)

end ScannedCall

/-- `scan_calls` over the rest of a text, which starts at offset `at_`. -/
def scannedCalls (callOpen callClose : Text) : Nat → Nat → Text → List ScannedCall
  | 0, _, _ => []
  | fuel + 1, at_, rest =>
    match find callOpen rest with
    | none => []
    | some start =>
      let bodyAt := at_ + (start + callOpen.length)
      let afterOpen := rest.drop (start + callOpen.length)
      match findClose afterOpen callClose with
      | none => [{ start := bodyAt, body := afterOpen, closedBy := none }]
      | some (end_, len) =>
        let remainder := afterOpen.drop (end_ + len)
        { start := bodyAt, body := afterOpen.take end_, closedBy := some len } ::
          if remainder.isEmpty then []
          else scannedCalls callOpen callClose fuel (bodyAt + (end_ + len)) remainder

section Scan

variable {callOpen callClose : Text}

/-- The places forgotten, these are the bodies the scan hands out. -/
theorem scannedCalls_bodies (fuel at_ : Nat) (rest : Text) :
    (scannedCalls callOpen callClose fuel at_ rest).map ScannedCall.body =
      scanBodies callOpen callClose fuel rest := by
  induction fuel generalizing at_ rest with
  | zero => rfl
  | succ fuel ih =>
    rw [scannedCalls, scanBodies]
    cases find callOpen rest with
    | none => rfl
    | some start =>
      cases hClose : findClose (rest.drop (start + callOpen.length)) callClose with
      | none =>
        simp only [splitBody, hClose]
        rfl
      | some found =>
        simp only [splitBody, hClose, List.map_cons]
        -- both go on behind the closer, or stop there
        split
        · rfl
        · rw [ih]

theorem scannedCalls_of_not_isInfix {rest : Text} (h : ¬ callOpen <:+: rest) (fuel at_ : Nat) :
    scannedCalls callOpen callClose fuel at_ rest = [] := by
  cases fuel with
  | zero => rfl
  | succ fuel => rw [scannedCalls, find_eq_none_iff.mpr h]

/-- An opener with no closer behind it takes everything that is left. -/
theorem scannedCalls_severed {prose afterOpen : Text} (hOpen : EndsFirst callOpen prose)
    (hClose : findClose afterOpen callClose = none) (fuel at_ : Nat) :
    scannedCalls callOpen callClose (fuel + 1) at_ (prose ++ (callOpen ++ afterOpen)) =
      [{ start := at_ + (prose.length + callOpen.length), body := afterOpen, closedBy := none }] := by
  have hDrop : (prose ++ (callOpen ++ afterOpen)).drop (prose.length + callOpen.length) =
      afterOpen := by
    rw [← List.drop_drop, List.drop_left, List.drop_left]
  rw [scannedCalls, find_append hOpen]
  simp only [hDrop, hClose]

/-- A closed call, and the scan goes on behind its closer. -/
theorem scannedCalls_closed (hNe : callOpen ≠ []) {prose afterOpen : Text} {end_ len : Nat}
    (hOpen : EndsFirst callOpen prose) (hClose : findClose afterOpen callClose = some (end_, len))
    (fuel at_ : Nat) :
    scannedCalls callOpen callClose (fuel + 1) at_ (prose ++ (callOpen ++ afterOpen)) =
      { start := at_ + (prose.length + callOpen.length), body := afterOpen.take end_,
        closedBy := some len } ::
        scannedCalls callOpen callClose fuel
          (at_ + (prose.length + callOpen.length) + (end_ + len)) (afterOpen.drop (end_ + len)) := by
  have hDrop : (prose ++ (callOpen ++ afterOpen)).drop (prose.length + callOpen.length) =
      afterOpen := by
    rw [← List.drop_drop, List.drop_left, List.drop_left]
  rw [scannedCalls, find_append hOpen]
  simp only [hDrop, hClose]
  split
  · -- nothing left holds no opener either
    rename_i hEmpty
    rw [List.isEmpty_iff.mp hEmpty]
    have hNil : ¬ callOpen <:+: [] := fun h => hNe (List.infix_nil.mp h)
    rw [scannedCalls_of_not_isInfix hNil]
  · rfl

variable (callClose) in
/-- What one turn of the loop does. -/
theorem scannedCalls_cases (hNe : callOpen ≠ []) (fuel at_ : Nat) (rest : Text) :
    (¬ callOpen <:+: rest ∧ scannedCalls callOpen callClose (fuel + 1) at_ rest = []) ∨
    ∃ prose afterOpen, rest = prose ++ (callOpen ++ afterOpen) ∧ EndsFirst callOpen prose ∧
      ((findClose afterOpen callClose = none ∧
        scannedCalls callOpen callClose (fuel + 1) at_ rest =
          [{ start := at_ + (prose.length + callOpen.length), body := afterOpen,
             closedBy := none }]) ∨
      ∃ end_ len, findClose afterOpen callClose = some (end_, len) ∧
        scannedCalls callOpen callClose (fuel + 1) at_ rest =
          { start := at_ + (prose.length + callOpen.length), body := afterOpen.take end_,
            closedBy := some len } ::
            scannedCalls callOpen callClose fuel
              (at_ + (prose.length + callOpen.length) + (end_ + len))
              (afterOpen.drop (end_ + len))) := by
  cases hFind : find callOpen rest with
  | none =>
    have hNot := find_eq_none_iff.mp hFind
    exact Or.inl ⟨hNot, scannedCalls_of_not_isInfix hNot _ _⟩
  | some start =>
    obtain ⟨prose, afterOpen, rfl, -, hOpen⟩ := find_eq_some_iff_append.mp hFind
    refine Or.inr ⟨prose, afterOpen, rfl, hOpen, ?_⟩
    cases hClose : findClose afterOpen callClose with
    | none => exact Or.inl ⟨rfl, scannedCalls_severed hOpen hClose fuel at_⟩
    | some found => exact Or.inr ⟨_, _, rfl, scannedCalls_closed hNe hOpen hClose fuel at_⟩

/-- The first call starts behind an opener. -/
theorem start_of_scannedCalls_eq_cons {fuel at_ : Nat} {rest : Text} {call : ScannedCall}
    {calls : List ScannedCall} (hNe : callOpen ≠ [])
    (h : scannedCalls callOpen callClose fuel at_ rest = call :: calls) :
    at_ + callOpen.length ≤ call.start := by
  cases fuel with
  | zero => cases h
  | succ fuel =>
    rcases scannedCalls_cases callClose hNe fuel at_ rest with
      ⟨-, hScan⟩ | ⟨prose, afterOpen, -, -, ⟨-, hScan⟩ | ⟨end_, len, -, hScan⟩⟩
    · rw [hScan] at h
      cases h
    all_goals
      rw [hScan] at h
      obtain ⟨rfl, -⟩ := List.cons.inj h
      show _ ≤ at_ + (prose.length + callOpen.length)
      omega

/-- Every call found is in the text where the scan says: behind an opener, and
ended by an accepted closer unless none follows. -/
theorem mem_scannedCalls (hNe : callOpen ≠ []) {fuel at_ : Nat} {rest : Text} {call : ScannedCall}
    (h : call ∈ scannedCalls callOpen callClose fuel at_ rest) :
    ∃ front, call.start = at_ + (front.length + callOpen.length) ∧
      ((call.closedBy = none ∧ rest = front ++ (callOpen ++ call.body) ∧
        findClose call.body callClose = none) ∨
      ∃ closer ∈ closeCandidates callClose, ∃ back, call.closedBy = some closer.length ∧
        rest = front ++ (callOpen ++ (call.body ++ (closer ++ back)))) := by
  induction fuel generalizing at_ rest with
  | zero => cases h
  | succ fuel ih =>
    rcases scannedCalls_cases callClose hNe fuel at_ rest with
      ⟨-, hScan⟩ | ⟨prose, afterOpen, rfl, -, ⟨hClose, hScan⟩ | ⟨end_, len, hClose, hScan⟩⟩
    · rw [hScan] at h
      cases h
    · rw [hScan, List.mem_singleton] at h
      subst h
      exact ⟨prose, rfl, Or.inl ⟨rfl, rfl, hClose⟩⟩
    · -- the closer that was found splits what is behind the opener
      obtain ⟨closer, hCloser, rfl, hFind, -⟩ := findClose_eq_some_iff.mp hClose
      have hSplit : afterOpen = afterOpen.take end_ ++
          (closer ++ afterOpen.drop (end_ + closer.length)) := by
        rw [← List.append_assoc]
        exact append_of_find hFind
      rw [hScan, List.mem_cons] at h
      rcases h with rfl | h
      · exact ⟨prose, rfl, Or.inr ⟨closer, hCloser, _, rfl, by rw [← hSplit]⟩⟩
      · -- a call behind this one starts as much further on as this one is long
        obtain ⟨front, hStart, hCall⟩ := ih h
        have hLen : (afterOpen.take end_).length = end_ := by
          rw [List.length_take]
          exact Nat.min_eq_left (find_eq_some_iff.mp hFind).1
        have hWhole : ∀ tail, afterOpen.drop (end_ + closer.length) = front ++ tail →
            prose ++ (callOpen ++ afterOpen) =
              prose ++ (callOpen ++ (afterOpen.take end_ ++ (closer ++ front))) ++ tail := by
          intro tail hTail
          calc prose ++ (callOpen ++ afterOpen)
            _ = prose ++ (callOpen ++ (afterOpen.take end_ ++ (closer ++ (front ++ tail)))) := by
                rw [← hTail, ← hSplit]
            _ = _ := by simp only [List.append_assoc]
        refine ⟨prose ++ (callOpen ++ (afterOpen.take end_ ++ (closer ++ front))), ?_, ?_⟩
        · simp only [List.length_append, hLen]
          omega
        · rcases hCall with ⟨hClosed, hRest, hNone⟩ | ⟨closer', hCloser', back, hClosed, hRest⟩
          · exact Or.inl ⟨hClosed, hWhole _ hRest, hNone⟩
          · exact Or.inr ⟨closer', hCloser', back, hClosed, hWhole _ hRest⟩

end Scan

/-! ## What a family reads -/

/-- The family's reader of one body. -/
def ToolFormat.readBody (fromStr : Text → Option Json) : ToolFormat → Text → Option (Option ToolCall)
  | .json _ _ nameKey argumentsKey => fun body =>
    some (readJsonBody fromStr nameKey argumentsKey body)
  | .delimited _ nameClose argOpen argNameClose argClose _ =>
    readDelimitedBody nameClose argOpen argNameClose argClose
  | .separated _ nameClose argNameClose valueOpen argClose argSep _ => fun body =>
    some (readSeparatedBody nameClose argNameClose valueOpen argClose argSep body)

/-- The families differ in how they read a body, and in nothing else. -/
theorem parseToolCalls_eq (fromStr : Text → Option Json) (text : Text) (format : ToolFormat) :
    parseToolCalls fromStr text format =
      scanCalls text format.callOpen format.callClose (format.readBody fromStr) := by
  cases format <;> rfl

theorem exists_of_mem_mapM {α β : Type} {f : α → Option β} {l : List α} {found : List β}
    (h : l.mapM f = some found) {b : β} (hb : b ∈ found) : ∃ a ∈ l, f a = some b := by
  induction l generalizing found with
  | nil =>
    rw [List.mapM_nil] at h
    cases h
    cases hb
  | cons a l ih =>
    simp only [List.mapM_cons, Option.bind_eq_bind, Option.bind_eq_some_iff, Option.pure_def,
      Option.some.injEq] at h
    obtain ⟨b', ha, founds, hl, rfl⟩ := h
    rcases List.mem_cons.mp hb with rfl | hb
    · exact ⟨a, List.mem_cons_self, ha⟩
    · obtain ⟨a', hMem, ha'⟩ := ih hl hb
      exact ⟨a', List.mem_cons_of_mem a hMem, ha'⟩

/-- Every call that is returned was read from a body the scan found. -/
theorem exists_of_mem_parseToolCalls {fromStr : Text → Option Json} {text : Text}
    {format : ToolFormat} {calls : List ToolCall}
    (h : parseToolCalls fromStr text format = some calls) {toolCall : ToolCall}
    (hMem : toolCall ∈ calls) :
    ∃ call ∈ scannedCalls format.callOpen format.callClose (text.length + 1) 0 text,
      format.readBody fromStr call.body = some (some toolCall) := by
  rw [parseToolCalls_eq, scanCalls, ← scannedCalls_bodies _ 0, Option.map_eq_some_iff] at h
  obtain ⟨found, hFound, rfl⟩ := h
  obtain ⟨_, hRead, rfl⟩ := List.mem_filterMap.mp hMem
  obtain ⟨body, hBody, hBodyRead⟩ := exists_of_mem_mapM hFound hRead
  obtain ⟨call, hCall, rfl⟩ := List.mem_map.mp hBody
  exact ⟨call, hCall, hBodyRead⟩

/-! ## A turn of several calls -/

/-- A call in a turn: its body, the closer that ends it, and the prose behind it. -/
structure ClosedCall where
  body : Text
  closer : Text
  after : Text

/-- Some prose and the calls that follow it. -/
def turnText (callOpen : Text) : Text → List ClosedCall → Text
  | prose, [] => prose
  | prose, call :: calls =>
    prose ++ (callOpen ++ (call.body ++ (call.closer ++ turnText callOpen call.after calls)))

/-- The slices of the turn that are its calls' bodies. -/
def bodySlices (callOpen : Text) : Nat → Text → List ClosedCall → List (Nat × Text)
  | _, _, [] => []
  | at_, prose, call :: calls =>
    let start := at_ + (prose.length + callOpen.length)
    (start, call.body) ::
      bodySlices callOpen (start + (call.body.length + call.closer.length)) call.after calls

/-- A call ended by an accepted closer that nothing in it completes early. -/
structure ClosedCall.WellWritten (callOpen callClose : Text) (call : ClosedCall) : Prop where
  closer : call.closer ∈ closeCandidates callClose
  body_open : ¬ callOpen <:+: call.body
  body_close : ∀ closer ∈ closeCandidates callClose, ∀ i < call.body.length,
    ¬ closer <+: (call.body ++ call.closer).drop i
  after : ¬ callOpen <:+: call.after

instance (callOpen callClose : Text) (call : ClosedCall) :
    Decidable (call.WellWritten callOpen callClose) :=
  decidable_of_iff
    (call.closer ∈ closeCandidates callClose ∧ ¬ callOpen <:+: call.body ∧
      (∀ closer ∈ closeCandidates callClose, ∀ i < call.body.length,
        ¬ closer <+: (call.body ++ call.closer).drop i) ∧
      ¬ callOpen <:+: call.after)
    ⟨fun ⟨h1, h2, h3, h4⟩ => ⟨h1, h2, h3, h4⟩,
      fun h => ⟨h.closer, h.body_open, h.body_close, h.after⟩⟩

/-- The scan stays in step with the turn: each opener is first completed where it
was written, and at each call the longest form of the closer that occurs anywhere
later begins right there and ends before the next opener. -/
def Separate (callOpen callClose : Text) : Text → List ClosedCall → Prop
  | _, [] => True
  | prose, call :: calls =>
    EndsFirst callOpen prose ∧
      ∃ closer ∈ closeCandidates callClose, ∃ gap, call.closer ++ call.after = closer ++ gap ∧
        (∀ longer ∈ closeCandidates callClose, closer.length < longer.length →
          ¬ longer <:+: call.closer ++ turnText callOpen call.after calls) ∧
        Separate callOpen callClose gap calls

section Turn

variable {callOpen callClose : Text}

theorem turnText_append (front prose : Text) (calls : List ClosedCall) :
    turnText callOpen (front ++ prose) calls = front ++ turnText callOpen prose calls := by
  cases calls with
  | nil => rfl
  | cons call calls => simp only [turnText, List.append_assoc]

/-- A turn cut at its first opener. -/
theorem turnText_cut {prose front afterOpen : Text} {call : ClosedCall} {calls : List ClosedCall}
    (hText : turnText callOpen prose (call :: calls) = front ++ (callOpen ++ afterOpen))
    (hLen : front.length = prose.length) :
    prose = front ∧
      call.body ++ (call.closer ++ turnText callOpen call.after calls) = afterOpen := by
  obtain ⟨hFront, hRest⟩ := List.append_inj hText hLen.symm
  exact ⟨hFront, List.append_cancel_left hRest⟩

/-- Only where the prose ends matters to the slices behind it. -/
theorem bodySlices_shift {at_ at' : Nat} {prose prose' : Text}
    (h : at_ + prose.length = at' + prose'.length) (calls : List ClosedCall) :
    bodySlices callOpen at_ prose calls = bodySlices callOpen at' prose' calls := by
  cases calls with
  | nil => rfl
  | cons call calls =>
    have hStart : at_ + (prose.length + callOpen.length) =
        at' + (prose'.length + callOpen.length) := by omega
    simp only [bodySlices, hStart]

namespace ClosedCall.WellWritten

variable {call : ClosedCall} (h : call.WellWritten callOpen callClose)

include h

theorem closer_ne : call.closer ≠ [] := (closeCandidates_spec h.closer).2

/-- No form of the closer starts inside the body, whatever follows the call. -/
theorem body_free {closer : Text} (hCloser : closer ∈ closeCandidates callClose) {i : Nat}
    (hi : i < call.body.length) (rest : Text) :
    ¬ closer <+: (call.body ++ (call.closer ++ rest)).drop i := by
  intro hPre
  rw [← List.append_assoc, List.drop_append_of_le_length (by simp; omega)] at hPre
  rcases List.prefix_or_prefix_of_prefix hPre (List.prefix_append _ rest) with hIn | hOver
  · exact h.body_close closer hCloser i hi hIn
  · -- a form that runs past the call's closer starts with a shorter form
    have hShort : (call.body ++ call.closer).drop i <+: callClose :=
      hOver.trans (closeCandidates_spec hCloser).1
    have hSuffix : call.closer <:+ (call.body ++ call.closer).drop i := by
      rw [List.drop_append_of_le_length (Nat.le_of_lt hi)]
      exact List.suffix_append _ _
    have hClose : callClose ≠ [] := by
      rintro rfl
      rw [List.prefix_nil] at hShort
      rw [hShort, List.suffix_nil] at hSuffix
      exact h.closer_ne hSuffix
    have hLast : ((call.body ++ call.closer).drop i).getLast? = some '>' := by
      rcases closesAs_of_mem h.closer with hFull | ⟨-, hTag⟩
      · -- the whole closer leaves no room for the body's characters
        have hLen := hShort.length_le
        rw [← hFull, List.length_drop, List.length_append] at hLen
        omega
      · obtain ⟨front, hFront⟩ := hSuffix
        rw [← hFront, List.getLast?_append_of_ne_nil _ h.closer_ne, hTag]
    exact h.body_close _ (mem_closeCandidates_of_closesAs hClose (Or.inr ⟨hShort, hLast⟩)) i hi
      (List.prefix_refl _)

theorem isInfix_iff {closer : Text} (hCloser : closer ∈ closeCandidates callClose) (rest : Text) :
    closer <:+: call.body ++ (call.closer ++ rest) ↔ closer <:+: call.closer ++ rest := by
  constructor
  · intro hIn
    obtain ⟨i, hi⟩ := find_isSome_of_isInfix hIn
    have hPre := (find_eq_some_iff.mp hi).2.1
    have hLe : call.body.length ≤ i := by
      by_contra hLt
      exact h.body_free hCloser (Nat.lt_of_not_le hLt) rest hPre
    obtain ⟨j, rfl⟩ := Nat.exists_eq_add_of_le hLe
    rw [← List.drop_drop, List.drop_left] at hPre
    exact hPre.isInfix.trans (List.drop_suffix j _).isInfix
  · exact fun hIn => hIn.trans (List.suffix_append _ _).isInfix

theorem find_iff {closer : Text} (hCloser : closer ∈ closeCandidates callClose) (rest : Text) :
    find closer (call.body ++ (call.closer ++ rest)) = some call.body.length ↔
      closer <+: call.closer ++ rest := by
  rw [find_eq_some_iff, List.drop_left]
  constructor
  · exact fun hFind => hFind.2.1
  · intro hPre
    refine ⟨?_, hPre, fun i hi => h.body_free hCloser hi rest⟩
    rw [List.length_append]
    omega

/-- The call is cut at its own closer when the longest form later in the text
begins there. -/
theorem findClose_iff (rest : Text) (len : Nat) :
    findClose (call.body ++ (call.closer ++ rest)) callClose = some (call.body.length, len) ↔
      ∃ closer ∈ closeCandidates callClose, closer.length = len ∧ closer <+: call.closer ++ rest ∧
        ∀ longer ∈ closeCandidates callClose, len < longer.length →
          ¬ longer <:+: call.closer ++ rest := by
  rw [findClose_eq_some_iff]
  refine exists_congr fun closer => and_congr_right fun hCloser => and_congr_right fun _ => ?_
  rw [h.find_iff hCloser]
  refine and_congr_right fun _ => forall₂_congr fun longer hLonger => ?_
  rw [h.isInfix_iff hLonger]

/-- The form read at the call's own closer is no shorter than it. -/
theorem closer_le {closer rest : Text}
    (hLonger : ∀ longer ∈ closeCandidates callClose, closer.length < longer.length →
      ¬ longer <:+: call.closer ++ rest) : call.closer.length ≤ closer.length := by
  by_contra hLt
  exact hLonger _ h.closer (Nat.lt_of_not_le hLt) (List.prefix_append _ _).isInfix

end ClosedCall.WellWritten

/-- One call of a turn, read up to the form that begins at its closer. -/
theorem scannedCalls_turnText (hNe : callOpen ≠ []) {prose closer gap : Text} {call : ClosedCall}
    {calls : List ClosedCall} (h : call.WellWritten callOpen callClose)
    (hOpen : EndsFirst callOpen prose) (hCloser : closer ∈ closeCandidates callClose)
    (hGap : call.closer ++ call.after = closer ++ gap)
    (hLonger : ∀ longer ∈ closeCandidates callClose, closer.length < longer.length →
      ¬ longer <:+: call.closer ++ turnText callOpen call.after calls) (fuel at_ : Nat) :
    scannedCalls callOpen callClose (fuel + 1) at_ (turnText callOpen prose (call :: calls)) =
      { start := at_ + (prose.length + callOpen.length), body := call.body,
        closedBy := some closer.length } ::
        scannedCalls callOpen callClose fuel
          (at_ + (prose.length + callOpen.length) + (call.body.length + closer.length))
          (turnText callOpen gap calls) := by
  have hRest : call.closer ++ turnText callOpen call.after calls =
      closer ++ turnText callOpen gap calls := by
    rw [← turnText_append, hGap, turnText_append]
  have hClose := (h.findClose_iff (turnText callOpen call.after calls) closer.length).mpr
    ⟨closer, hCloser, rfl, hRest ▸ List.prefix_append _ _, hLonger⟩
  rw [turnText, scannedCalls_closed hNe hOpen hClose, List.take_left, ← List.drop_drop,
    List.drop_left, hRest, List.drop_left]

/-- A call found where the next one was written was looked for before its opener. -/
theorem le_of_slices (hNe : callOpen ≠ []) {at_ len n m fuel : Nat} {rest after : Text}
    {next : ClosedCall} {calls : List ClosedCall}
    (h : (scannedCalls callOpen callClose fuel (at_ + (len + n)) rest).map ScannedCall.slice =
      bodySlices callOpen (at_ + (len + m)) after (next :: calls)) :
    n ≤ m + after.length := by
  obtain ⟨found, founds, hScan, hSlice, -⟩ := List.map_eq_cons_iff.mp h
  have hGe := start_of_scannedCalls_eq_cons hNe hScan
  have hStart : found.start = _ := (Prod.mk.inj hSlice).1
  omega

/-- A scan whose slices are the calls' was in step at the first of them: its opener
was not completed early, and the form of the closer it read begins at the call's own
and ends before the next opener. -/
theorem closed_of_slices (hNe : callOpen ≠ []) {prose : Text} {call : ClosedCall}
    {calls : List ClosedCall} (h : call.WellWritten callOpen callClose) {fuel at_ : Nat}
    (hSlices : (scannedCalls callOpen callClose (fuel + 1) at_
      (turnText callOpen prose (call :: calls))).map ScannedCall.slice =
        bodySlices callOpen at_ prose (call :: calls)) :
    EndsFirst callOpen prose ∧
      ∃ closer ∈ closeCandidates callClose, ∃ gap, call.closer ++ call.after = closer ++ gap ∧
        ∀ longer ∈ closeCandidates callClose, closer.length < longer.length →
          ¬ longer <:+: call.closer ++ turnText callOpen call.after calls := by
  rw [bodySlices] at hSlices
  rcases scannedCalls_cases callClose hNe fuel at_ (turnText callOpen prose (call :: calls)) with
    ⟨-, hScan⟩ | ⟨front, afterOpen, hText, hOpen, ⟨-, hScan⟩ | ⟨end_, len, hClose, hScan⟩⟩
  · rw [hScan] at hSlices
    cases hSlices
  · -- a severed body would hold the call's own closer
    rw [hScan, List.map_cons] at hSlices
    obtain ⟨hStart, hBody⟩ := Prod.mk.inj (List.cons.inj hSlices).1
    obtain ⟨-, rfl⟩ := turnText_cut hText (by simpa using hStart)
    have hBody : call.body ++ (call.closer ++ turnText callOpen call.after calls) =
        call.body := hBody
    simp [h.closer_ne] at hBody
  · rw [hScan, List.map_cons] at hSlices
    obtain ⟨hSlice, hTail⟩ := List.cons.inj hSlices
    obtain ⟨hStart, hBody⟩ := Prod.mk.inj hSlice
    obtain ⟨rfl, rfl⟩ := turnText_cut hText (by simpa using hStart)
    obtain rfl : end_ = call.body.length := by
      obtain ⟨_, _, -, hFind, -⟩ := findClose_eq_some_iff.mp hClose
      have hLe := (find_eq_some_iff.mp hFind).1
      have hLen := congrArg List.length hBody
      rw [List.length_take] at hLen
      omega
    obtain ⟨closer, hCloser, rfl, hPre, hLonger⟩ := (h.findClose_iff _ _).mp hClose
    have hPre : closer <+: call.closer ++ call.after := by
      match calls, hPre, hTail with
      | [], hPre, _ => exact hPre
      | next :: calls, hPre, hTail =>
        -- the next call was found, so its opener stands behind the form read here
        have hLe := le_of_slices hNe hTail
        refine List.prefix_of_prefix_length_le hPre ?_ (by simpa using hLe)
        rw [turnText, ← List.append_assoc]
        exact List.prefix_append _ _
    obtain ⟨gap, hGap⟩ := hPre
    exact ⟨hOpen, closer, hCloser, gap, hGap.symm, hLonger⟩

/-- The scan hands out the slices that were written exactly when it stays in step. -/
theorem scannedCalls_slices_iff (hNe : callOpen ≠ []) {calls : List ClosedCall}
    (hCalls : ∀ call ∈ calls, call.WellWritten callOpen callClose) {prose : Text}
    (hProse : ¬ callOpen <:+: prose) {fuel : Nat} (hFuel : calls.length < fuel) (at_ : Nat) :
    (scannedCalls callOpen callClose fuel at_ (turnText callOpen prose calls)).map
        ScannedCall.slice = bodySlices callOpen at_ prose calls ↔
      Separate callOpen callClose prose calls := by
  induction calls generalizing prose fuel at_ with
  | nil =>
    rw [turnText, scannedCalls_of_not_isInfix hProse]
    simp [bodySlices, Separate]
  | cons call calls ih =>
    obtain ⟨fuel, rfl⟩ : ∃ n, fuel = n + 1 := ⟨fuel - 1, by simp at hFuel; omega⟩
    have h := hCalls call List.mem_cons_self
    -- in step at this call, both sides go on with the rest of the turn
    have hRest : EndsFirst callOpen prose → ∀ closer ∈ closeCandidates callClose, ∀ gap,
        call.closer ++ call.after = closer ++ gap →
        (∀ longer ∈ closeCandidates callClose, closer.length < longer.length →
          ¬ longer <:+: call.closer ++ turnText callOpen call.after calls) →
        ((scannedCalls callOpen callClose (fuel + 1) at_
            (turnText callOpen prose (call :: calls))).map ScannedCall.slice =
          bodySlices callOpen at_ prose (call :: calls) ↔
        Separate callOpen callClose gap calls) := by
      intro hOpen closer hCloser gap hGap hLonger
      have hLe := h.closer_le hLonger
      have hLen := congrArg List.length hGap
      simp only [List.length_append] at hLen
      -- the gap is the end of the prose behind the call
      have hSuffix : gap <:+ call.after :=
        List.suffix_of_suffix_length_le (List.suffix_append closer gap)
          (hGap ▸ List.suffix_append call.closer call.after) (by omega)
      have hIh := ih (fun call hCall => hCalls call (List.mem_cons_of_mem _ hCall))
        (fun hIn => h.after (hIn.trans hSuffix.isInfix)) (Nat.lt_of_succ_lt_succ hFuel)
        (at_ + (prose.length + callOpen.length) + (call.body.length + closer.length))
      rw [scannedCalls_turnText hNe h hOpen hCloser hGap hLonger, List.map_cons, bodySlices,
        bodySlices_shift ?_ calls, ← hIh]
      · exact List.cons_inj_right _
      · omega
    constructor
    · intro hSlices
      obtain ⟨hOpen, closer, hCloser, gap, hGap, hLonger⟩ := closed_of_slices hNe h hSlices
      exact ⟨hOpen, closer, hCloser, gap, hGap, hLonger,
        (hRest hOpen closer hCloser gap hGap hLonger).mp hSlices⟩
    · rintro ⟨hOpen, closer, hCloser, gap, hGap, hLonger, hSeparate⟩
      exact (hRest hOpen closer hCloser gap hGap hLonger).mpr hSeparate

theorem length_le_turnText {calls : List ClosedCall}
    (hCalls : ∀ call ∈ calls, call.WellWritten callOpen callClose) (prose : Text) :
    calls.length ≤ (turnText callOpen prose calls).length := by
  induction calls generalizing prose with
  | nil => exact Nat.zero_le _
  | cons call calls ih =>
    have hPos := List.length_pos_iff.mpr (hCalls call List.mem_cons_self).closer_ne
    have hRest := ih (fun call hCall => hCalls call (List.mem_cons_of_mem _ hCall)) call.after
    simp only [turnText, List.length_cons, List.length_append]
    omega

theorem bodySlices_bodies (at_ : Nat) (prose : Text) (calls : List ClosedCall) :
    (bodySlices callOpen at_ prose calls).map Prod.snd = calls.map ClosedCall.body := by
  induction calls generalizing at_ prose with
  | nil => rfl
  | cons call calls ih => rw [bodySlices, List.map_cons, List.map_cons, ih]

/-- Calls that all end with the whole closer stay apart, if each opener does. -/
theorem separate_of_full {calls : List ClosedCall} (hClose : callClose ≠ [])
    (hCloser : ∀ call ∈ calls, call.closer = callClose)
    (hAfter : ∀ call ∈ calls, EndsFirst callOpen call.after) {prose : Text}
    (hProse : EndsFirst callOpen prose) : Separate callOpen callClose prose calls := by
  induction calls generalizing prose with
  | nil => exact trivial
  | cons call calls ih =>
    refine ⟨hProse, callClose, by simp [closeCandidates, hClose], call.after, ?_, ?_, ?_⟩
    · rw [hCloser call List.mem_cons_self]
    · -- no form is longer than the whole closer
      intro longer hLonger hLen
      have hLe := (closeCandidates_spec hLonger).1.length_le
      omega
    · exact ih (fun call hCall => hCloser call (List.mem_cons_of_mem _ hCall))
        (fun call hCall => hAfter call (List.mem_cons_of_mem _ hCall))
        (hAfter call List.mem_cons_self)

end Turn

/-- **Calls in one turn.** Of a turn whose calls each end with some accepted form
of the closer, the scan hands out the slices that are the calls' bodies if and
only if no later form of the closer is read in place of a call's own; and then
the reader gets exactly the bodies, in order. -/
theorem scanCalls_turn_iff (callOpen callClose prose : Text) (calls : List ClosedCall)
    (hNe : callOpen ≠ []) (hProse : ¬ callOpen <:+: prose)
    (hCalls : ∀ call ∈ calls, call.WellWritten callOpen callClose) :
    ((scannedCalls callOpen callClose ((turnText callOpen prose calls).length + 1) 0
        (turnText callOpen prose calls)).map ScannedCall.slice =
        bodySlices callOpen 0 prose calls ↔
      Separate callOpen callClose prose calls) ∧
    (Separate callOpen callClose prose calls → ∀ readBody,
      scanCalls (turnText callOpen prose calls) callOpen callClose readBody =
        ((calls.map ClosedCall.body).mapM readBody).map fun found => found.filterMap id) := by
  have hFuel := Nat.lt_succ_of_le (length_le_turnText hCalls prose)
  have hSlices := scannedCalls_slices_iff hNe hCalls hProse hFuel 0
  refine ⟨hSlices, ?_⟩
  intro hSeparate readBody
  -- the slices' texts are what the reader gets
  have hBodies : scanBodies callOpen callClose ((turnText callOpen prose calls).length + 1)
      (turnText callOpen prose calls) = calls.map ClosedCall.body := by
    rw [← scannedCalls_bodies _ 0, ← bodySlices_bodies 0 prose calls, ← hSlices.mpr hSeparate,
      List.map_map]
    rfl
  rw [scanCalls, hBodies]

/-! ## Two calls of a Gemma turn -/

/-- The template writes the whole closer behind the last call of a turn only. -/
def gemmaTurn : List ClosedCall :=
  [{ body := "ls\x7b".toList, closer := "\x7d<tool_call|>".toList, after := [] },
   { body := "pwd\x7b".toList, closer := "\x7d<tool_call|><|tool_response>".toList, after := [] }]

/-- The first call is read up to the second one's closer, as one body. -/
theorem gemmaTurn_merged :
    deriveToolCallFormat (fun _ => none) []
        (textStub "<|turn>model\n".toList "<turn|>\n".toList gemmaSpans.write) =
      some gemmaSpans.format ∧
    (∀ call ∈ gemmaTurn, call.WellWritten gemmaSpans.callOpen gemmaSpans.closer) ∧
    scanBodies gemmaSpans.callOpen gemmaSpans.closer
        ((turnText gemmaSpans.callOpen [] gemmaTurn).length + 1)
        (turnText gemmaSpans.callOpen [] gemmaTurn) ≠ gemmaTurn.map ClosedCall.body ∧
    scanBodies gemmaSpans.callOpen gemmaSpans.closer
        ((turnText gemmaSpans.callOpen [] gemmaTurn).length + 1)
        (turnText gemmaSpans.callOpen [] gemmaTurn) =
      ["ls\x7b\x7d<tool_call|><|tool_call>call:pwd\x7b".toList] := by
  refine ⟨?_, by decide, by decide, by decide⟩
  exact gemmaTemplate.deriveToolCallFormat_eq (by decide)

/-- What a Gemma model writes: both calls end where it stops, with the short form. -/
def shortTurn : List ClosedCall :=
  [{ body := "ls\x7b".toList, closer := "\x7d<tool_call|>".toList, after := "\n".toList },
   { body := "pwd\x7b".toList, closer := "\x7d<tool_call|>".toList, after := [] }]

theorem shortTurn_separate :
    scanCalls (turnText gemmaSpans.callOpen "Two.\n".toList shortTurn) gemmaSpans.callOpen
        gemmaSpans.closer (fun body => some (some { name := body, arguments := .null })) =
      some [{ name := "ls\x7b".toList, arguments := .null },
        { name := "pwd\x7b".toList, arguments := .null }] := by
  have hTurn := scanCalls_turn_iff gemmaSpans.callOpen gemmaSpans.closer "Two.\n".toList shortTurn
    (by decide) (by decide) (by decide)
  exact hTurn.2 (hTurn.1.mp (by decide)) _

end Rampipe
