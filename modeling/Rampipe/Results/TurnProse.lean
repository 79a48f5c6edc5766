import Rampipe.Results.TurnEnd

/-!
# Rampipe — closers in prose

`TurnEnd::reached` looks for the last closer and not for the opener in front of it, so
prose that mentions a closer ends a turn in which no call has been made.

A text is prose with calls in it (`InStep`), and every text is so in some way. The scan
finds its calls closed where they are written. So a text is ended where a call is when
the prose behind its last call completes no accepted closer (`reached_closed_iff`).
-/

namespace Rampipe

open ListSearch Text ToolFormat

/-! ## What the scan sees of a turn that is ended -/

section Quiet

variable {callOpen callClose : Text}

/-- A closer that completes at all completes before the quiet part. -/
theorem Quiet.isPrefix {closed after x y : Text} (h : Quiet callClose closed after)
    (hSplit : closed ++ after = x ++ y) (hx : Completes callClose x) : x <+: closed := by
  rcases List.append_eq_append_iff.mp hSplit with ⟨next, rfl, rfl⟩ | ⟨rest, rfl, -⟩
  · cases next with
    | nil => rw [List.append_nil]
    | cons c next => exact absurd hx (h _ (List.cons_ne_nil c next) (List.prefix_append _ _))
  · exact List.prefix_append _ _

/-- What is quiet behind a text is quiet behind its end. -/
theorem Quiet.of_append {front closed after : Text} (h : Quiet callClose (front ++ closed) after) :
    Quiet callClose closed after := by
  rintro next hNe hNext ⟨closer, hCloser, hSuffix⟩
  refine h next hNe hNext ⟨closer, hCloser, ?_⟩
  rw [List.append_assoc]
  exact hSuffix.trans (List.suffix_append _ _)

/-- Behind a quiet text a form is found where it was. -/
theorem Quiet.find_append {closed after closer : Text} (h : Quiet callClose closed after)
    (hCloser : closer ∈ closeCandidates callClose) :
    find closer (closed ++ after) = find closer closed := by
  cases hFind : find closer closed with
  | some i =>
    obtain ⟨front, rest, rfl, rfl, hEnds⟩ := find_eq_some_iff_append.mp hFind
    rw [List.append_assoc, List.append_assoc]
    exact ListSearch.find_append hEnds _
  | none =>
    rw [find_eq_none_iff] at hFind ⊢
    rintro ⟨front, rest, hSplit⟩
    -- a form found behind the quiet part's beginning would complete in it
    have hPre := h.isPrefix hSplit.symm ⟨closer, hCloser, List.suffix_append _ _⟩
    exact hFind ((List.suffix_append front closer).isInfix.trans hPre.isInfix)

/-- So is the closer. -/
theorem Quiet.findClose_append {closed after : Text} (h : Quiet callClose closed after) :
    findClose (closed ++ after) callClose = findClose closed callClose := by
  have hNone : findClose closed callClose = none → findClose (closed ++ after) callClose = none := by
    intro hNone
    rw [findClose_eq_none_iff] at hNone ⊢
    intro closer hCloser
    rw [← find_eq_none_iff, h.find_append hCloser, find_eq_none_iff]
    exact hNone closer hCloser
  cases hClose : findClose closed callClose with
  | none => exact hNone hClose
  | some found =>
    obtain ⟨closer, hCloser, hLen, hFind, hLonger⟩ := findClose_eq_some_iff.mp hClose
    refine findClose_eq_some_iff.mpr ⟨closer, hCloser, hLen, ?_, ?_⟩
    · rw [h.find_append hCloser, hFind]
    · intro longer hMem hLt
      rw [← find_eq_none_iff, h.find_append hMem, find_eq_none_iff]
      exact hLonger longer hMem hLt

/-- A closed call is cut out alike from a text and from the text with something quiet
behind it, and what the scan goes on with differs by that only. -/
theorem Quiet.scannedCalls_closed (hNe : callOpen ≠ []) {prose afterOpen after : Text}
    {end_ len : Nat} (h : Quiet callClose (prose ++ (callOpen ++ afterOpen)) after)
    (hOpen : EndsFirst callOpen prose) (hClose : findClose afterOpen callClose = some (end_, len))
    (fuel at_ : Nat) :
    Quiet callClose (afterOpen.drop (end_ + len)) after ∧
      scannedCalls callOpen callClose (fuel + 1) at_ (prose ++ (callOpen ++ afterOpen) ++ after) =
        { start := at_ + (prose.length + callOpen.length), body := afterOpen.take end_,
          closedBy := some len } ::
          scannedCalls callOpen callClose fuel
            (at_ + (prose.length + callOpen.length) + (end_ + len))
            (afterOpen.drop (end_ + len) ++ after) := by
  have hQuiet : Quiet callClose afterOpen after := by
    rw [← List.append_assoc] at h
    exact h.of_append
  obtain ⟨closer, -, rfl, hFind, -⟩ := findClose_eq_some_iff.mp hClose
  have hLe := find_add_length_le hFind
  constructor
  · rw [← List.take_append_drop (end_ + closer.length) afterOpen] at hQuiet
    exact hQuiet.of_append
  · have hLong : scannedCalls callOpen callClose (fuel + 1) at_
        (prose ++ (callOpen ++ (afterOpen ++ after))) = _ :=
      Rampipe.scannedCalls_closed hNe hOpen (hQuiet.findClose_append.trans hClose) fuel at_
    rw [List.append_assoc, List.append_assoc, hLong, List.take_append_of_le_length (by omega),
      List.drop_append_of_le_length hLe]

/-- What arrives behind the last closer adds no closed call. -/
theorem Quiet.mem_scannedCalls_iff (hNe : callOpen ≠ []) {rest after : Text}
    (h : Quiet callClose rest after) {call : ScannedCall} (hClosed : call.closedBy ≠ none)
    (fuel at_ : Nat) :
    call ∈ scannedCalls callOpen callClose fuel at_ (rest ++ after) ↔
      call ∈ scannedCalls callOpen callClose fuel at_ rest := by
  induction fuel generalizing rest at_ with
  | zero => exact Iff.rfl
  | succ fuel ih =>
    rcases scannedCalls_cases callClose hNe fuel at_ rest with
      ⟨hNot, hScan⟩ | ⟨prose, afterOpen, rfl, hOpen, ⟨hClose, hScan⟩ | ⟨end_, len, hClose, hScan⟩⟩
    · rw [hScan]
      refine ⟨fun hMem => ?_, fun hMem => by cases hMem⟩
      -- a closed call of the longer text has its opener in the shorter one
      obtain ⟨front, -, ⟨hNone, -, -⟩ | ⟨closer, hCloser, back, -, hSplit⟩⟩ :=
        mem_scannedCalls hNe hMem
      · exact absurd hNone hClosed
      · have hPre := h.isPrefix (x := front ++ (callOpen ++ (call.body ++ closer))) (y := back)
          (by rw [hSplit]; simp only [List.append_assoc])
          ⟨closer, hCloser, front ++ (callOpen ++ call.body), by simp only [List.append_assoc]⟩
        refine absurd (List.IsInfix.trans ?_ hPre.isInfix) hNot
        exact ⟨front, call.body ++ closer, List.append_assoc _ _ _⟩
    · -- severed it was, and severed it stays
      have hQuiet : Quiet callClose afterOpen after := by
        rw [← List.append_assoc] at h
        exact h.of_append
      have hLong : scannedCalls callOpen callClose (fuel + 1) at_
          (prose ++ (callOpen ++ (afterOpen ++ after))) = _ :=
        scannedCalls_severed hOpen (hQuiet.findClose_append.trans hClose) fuel at_
      rw [hScan, List.append_assoc, List.append_assoc, hLong, List.mem_singleton,
        List.mem_singleton]
      constructor
      · rintro rfl
        exact absurd rfl hClosed
      · rintro rfl
        exact absurd rfl hClosed
    · -- the same call first, and then the same text but for what arrived
      obtain ⟨hTail, hLong⟩ := h.scannedCalls_closed hNe hOpen hClose fuel at_
      rw [hScan, hLong, List.mem_cons, List.mem_cons, ih hTail]

end Quiet

/-- More fuel than characters finds no more calls. -/
theorem scannedCalls_fuel {callOpen : Text} (hNe : callOpen ≠ []) (callClose : Text)
    {fuel fuel' at_ : Nat} {rest : Text} (h : rest.length < fuel) (h' : rest.length < fuel') :
    scannedCalls callOpen callClose fuel at_ rest =
      scannedCalls callOpen callClose fuel' at_ rest := by
  induction fuel generalizing fuel' at_ rest with
  | zero => omega
  | succ fuel ih =>
    obtain ⟨fuel', rfl⟩ : ∃ n, fuel' = n + 1 := ⟨fuel' - 1, by omega⟩
    have hPos := List.length_pos_iff.mpr hNe
    rcases scannedCalls_cases callClose hNe fuel at_ rest with
      ⟨hNot, hScan⟩ | ⟨prose, afterOpen, rfl, hOpen, ⟨hClose, hScan⟩ | ⟨end_, len, hClose, hScan⟩⟩
    · rw [hScan, scannedCalls_of_not_isInfix hNot]
    · rw [hScan, scannedCalls_severed hOpen hClose]
    · -- each closed call uses up its opener
      simp only [List.length_append] at h h'
      have hLen : (afterOpen.drop (end_ + len)).length ≤ afterOpen.length := by
        rw [List.length_drop]
        omega
      rw [hScan, scannedCalls_closed hNe hOpen hClose]
      exact congrArg _ (ih (by omega) (by omega))

/-! ## A text as prose with calls in it -/

/-- The text is written as it is read: each opener is first complete where it is written,
and its call ends with the longest form of the closer written anywhere behind it, where
that is first complete; behind the last call no opener has a closer behind it. -/
def InStep (callOpen callClose : Text) : Text → List ClosedCall → Prop
  | prose, [] => ∀ front after, prose = front ++ (callOpen ++ after) → Unclosed callClose after
  | prose, call :: calls =>
    EndsFirst callOpen prose ∧ call.closer ∈ closeCandidates callClose ∧
      EndsFirst call.closer call.body ∧
      (∀ longer ∈ closeCandidates callClose, call.closer.length < longer.length →
        ¬ longer <:+: call.body ++ (call.closer ++ turnText callOpen call.after calls)) ∧
      InStep callOpen callClose call.after calls

/-- The text up to where its last call ends. -/
def settledText (callOpen : Text) : Text → List ClosedCall → Text
  | _, [] => []
  | prose, call :: calls =>
    prose ++ (callOpen ++ (call.body ++ (call.closer ++ settledText callOpen call.after calls)))

/-- The prose behind the last call: all the text when there is none. -/
def lastProse : Text → List ClosedCall → Text
  | prose, [] => prose
  | _, call :: calls => lastProse call.after calls

/-- What follows the last closer that the prose completes could be another call. -/
def OpensAfterMention (callOpen callClose settled prose : Text) : Prop :=
  ∃ closed after, prose = closed ++ after ∧ closed ≠ [] ∧ Completes callClose (settled ++ closed) ∧
    Quiet callClose (settled ++ closed) after ∧ Opening callOpen after

section InStep

variable {callOpen callClose : Text}

/-- A text is what is settled, and the prose behind it. -/
theorem turnText_eq_settledText (prose : Text) (calls : List ClosedCall) :
    turnText callOpen prose calls = settledText callOpen prose calls ++ lastProse prose calls := by
  induction calls generalizing prose with
  | nil => rfl
  | cons call calls ih => simp only [turnText, settledText, lastProse, ih, List.append_assoc]

/-- What follows any opener of a text ends what follows the first one. -/
theorem isSuffix_of_endsFirst {prose afterOpen front after : Text} (hOpen : EndsFirst callOpen prose)
    (hSplit : prose ++ (callOpen ++ afterOpen) = front ++ (callOpen ++ after)) :
    after <:+ afterOpen := by
  -- no opener begins in the prose
  have hLe : prose.length ≤ front.length := by
    by_contra hLt
    refine endsFirst_iff.mp hOpen front.length (Nat.lt_of_not_le hLt) ?_
    have hPre : callOpen <+: (prose ++ (callOpen ++ afterOpen)).drop front.length := by
      rw [hSplit, List.drop_left]
      exact List.prefix_append _ _
    rw [← List.append_assoc, List.drop_append_of_le_length (by simp; omega)] at hPre
    refine List.prefix_of_prefix_length_le hPre (List.prefix_append _ _) ?_
    simp only [List.length_drop, List.length_append]
    omega
  have hLast : after <:+ prose ++ (callOpen ++ afterOpen) := by
    rw [hSplit, ← List.append_assoc]
    exact List.suffix_append _ _
  have hBehind : afterOpen <:+ prose ++ (callOpen ++ afterOpen) :=
    (List.suffix_append _ _).trans (List.suffix_append _ _)
  refine List.suffix_of_suffix_length_le hLast hBehind ?_
  have hLen := congrArg List.length hSplit
  simp only [List.length_append] at hLen
  omega

/-- Every text is written as it is read, in some way. -/
theorem exists_inStep (hNe : callOpen ≠ []) (callClose text : Text) :
    ∃ prose calls, text = turnText callOpen prose calls ∧ InStep callOpen callClose prose calls := by
  induction hLen : text.length using Nat.strong_induction_on generalizing text with
  | _ n ih =>
    rcases scannedCalls_cases callClose hNe 0 0 text with
      ⟨hNot, -⟩ | ⟨prose, afterOpen, rfl, hOpen, ⟨hClose, -⟩ | ⟨end_, len, hClose, -⟩⟩
    · exact ⟨text, [], rfl, fun front after hSplit => absurd ⟨front, after, by simp [hSplit]⟩ hNot⟩
    · -- an opener that is never closed, and so is every one behind it
      refine ⟨_, [], rfl, fun front after hSplit => ?_⟩
      exact (findClose_eq_none_iff_unclosed.mp hClose).of_isInfix
        (isSuffix_of_endsFirst hOpen hSplit).isInfix
    · -- a closed call, and the rest of the text
      obtain ⟨closer, hCloser, rfl, hFind, hLonger⟩ := findClose_eq_some_iff.mp hClose
      obtain ⟨body, rest, rfl, -, hEnds⟩ := find_eq_some_iff_append.mp hFind
      have hPos := List.length_pos_iff.mpr hNe
      obtain ⟨after, calls, hRest, hStep⟩ := ih rest.length (by
        simp only [List.length_append] at hLen
        omega) rest rfl
      refine ⟨prose, ⟨body, closer, after⟩ :: calls, by rw [turnText, ← hRest], hOpen, hCloser,
        hEnds, ?_, hStep⟩
      rw [← hRest]
      exact hLonger

namespace InStep

variable {prose : Text} {calls : List ClosedCall}

/-- One call of a text in step is found where it is written. -/
theorem scannedCalls_cons (hNe : callOpen ≠ []) {call : ClosedCall}
    (h : InStep callOpen callClose prose (call :: calls)) (fuel at_ : Nat) :
    scannedCalls callOpen callClose (fuel + 1) at_ (turnText callOpen prose (call :: calls)) =
      { start := at_ + (prose.length + callOpen.length), body := call.body,
        closedBy := some call.closer.length } ::
        scannedCalls callOpen callClose fuel
          (at_ + (prose.length + callOpen.length) + (call.body.length + call.closer.length))
          (turnText callOpen call.after calls) := by
  obtain ⟨hOpen, hCloser, hEnds, hLonger, -⟩ := h
  have hClose : findClose (call.body ++ (call.closer ++ turnText callOpen call.after calls))
      callClose = some (call.body.length, call.closer.length) :=
    findClose_eq_some_iff.mpr ⟨call.closer, hCloser, rfl, find_append hEnds _, hLonger⟩
  rw [turnText, scannedCalls_closed hNe hOpen hClose, List.take_left, ← List.drop_drop,
    List.drop_left, List.drop_left]

/-- No call of a text in step ends behind the last one that is written. -/
theorem stop_le (hNe : callOpen ≠ []) (h : InStep callOpen callClose prose calls) {fuel at_ : Nat}
    {found : ScannedCall}
    (hFound : found ∈ scannedCalls callOpen callClose fuel at_ (turnText callOpen prose calls))
    (hClosed : found.closedBy ≠ none) :
    found.stop ≤ at_ + (settledText callOpen prose calls).length ∧ calls ≠ [] := by
  induction calls generalizing prose fuel at_ with
  | nil =>
    -- a closed call would have a closer behind its opener
    obtain ⟨front, -, ⟨hNone, -⟩ | ⟨closer, hCloser, back, -, hSplit⟩⟩ :=
      mem_scannedCalls hNe hFound
    · exact absurd hNone hClosed
    · exact absurd ⟨found.body, back, by rw [List.append_assoc]⟩ (h front _ hSplit closer hCloser)
  | cons call calls ih =>
    cases fuel with
    | zero => cases hFound
    | succ fuel =>
      rw [h.scannedCalls_cons hNe, List.mem_cons] at hFound
      refine ⟨?_, List.cons_ne_nil _ _⟩
      simp only [settledText, List.length_append]
      -- the call that is read first, or one of those behind it
      rcases hFound with rfl | hFound
      · simp only [ScannedCall.stop, Option.getD_some]
        omega
      · have hLe := (ih h.2.2.2.2 hFound).1
        omega

/-- The last call of a text in step is found, closed. -/
theorem exists_stop (hNe : callOpen ≠ []) (h : InStep callOpen callClose prose calls)
    (hCalls : calls ≠ []) {fuel : Nat} (hFuel : calls.length ≤ fuel) (at_ : Nat) :
    ∃ found ∈ scannedCalls callOpen callClose fuel at_ (turnText callOpen prose calls),
      found.closedBy ≠ none ∧ found.stop = at_ + (settledText callOpen prose calls).length := by
  induction calls generalizing prose fuel at_ with
  | nil => exact absurd rfl hCalls
  | cons call calls ih =>
    obtain ⟨fuel, rfl⟩ : ∃ n, fuel = n + 1 := ⟨fuel - 1, by simp at hFuel; omega⟩
    rw [h.scannedCalls_cons hNe]
    by_cases hLast : calls = []
    · subst hLast
      refine ⟨_, List.mem_cons_self, by simp, ?_⟩
      simp only [ScannedCall.stop, Option.getD_some, settledText, List.length_append,
        List.length_nil]
      omega
    · obtain ⟨found, hFound, hClosed, hStop⟩ :=
        ih h.2.2.2.2 hLast (Nat.le_of_succ_le_succ hFuel) _
      refine ⟨found, List.mem_cons_of_mem _ hFound, hClosed, ?_⟩
      rw [hStop]
      simp only [settledText, List.length_append]
      omega

/-- The last call ends with an accepted closer. -/
theorem completes_settledText (h : InStep callOpen callClose prose calls) (hCalls : calls ≠ []) :
    Completes callClose (settledText callOpen prose calls) := by
  induction calls generalizing prose with
  | nil => exact absurd rfl hCalls
  | cons call calls ih =>
    by_cases hLast : calls = []
    · subst hLast
      refine ⟨call.closer, h.2.1, prose ++ (callOpen ++ call.body), ?_⟩
      simp only [settledText, List.append_assoc, List.append_nil]
    · obtain ⟨closer, hCloser, hSuffix⟩ := ih h.2.2.2.2 hLast
      refine ⟨closer, hCloser, hSuffix.trans ?_⟩
      refine ⟨prose ++ (callOpen ++ (call.body ++ call.closer)), ?_⟩
      simp only [settledText, List.append_assoc]

/-- A text is at least as long as it has calls. -/
theorem length_le (hNe : callOpen ≠ []) (prose : Text) (calls : List ClosedCall) :
    calls.length ≤ (turnText callOpen prose calls).length := by
  induction calls generalizing prose with
  | nil => exact Nat.zero_le _
  | cons call calls ih =>
    have hPos := List.length_pos_iff.mpr hNe
    have hRest := ih call.after
    simp only [turnText, List.length_cons, List.length_append]
    omega

/-- Up to a place behind which no form of the closer completes, the scan has a closed call
ending there exactly when it is the end of the last call. -/
theorem closedAt_iff (hNe : callOpen ≠ []) (h : InStep callOpen callClose prose calls)
    {closed after : Text} (hSplit : turnText callOpen prose calls = closed ++ after)
    (hQuiet : Quiet callClose closed after) :
    (∃ call ∈ scannedCalls callOpen callClose (closed.length + 1) 0 closed,
        call.closedBy ≠ none ∧ call.stop = closed.length) ↔
      calls ≠ [] ∧ closed = settledText callOpen prose calls := by
  have hSettled := hSplit.symm.trans (turnText_eq_settledText prose calls)
  -- what stands behind the last closer adds no closed call to the scan
  have hSame : ∀ call : ScannedCall, call.closedBy ≠ none →
      (call ∈ scannedCalls callOpen callClose ((closed ++ after).length + 1) 0
          (turnText callOpen prose calls) ↔
        call ∈ scannedCalls callOpen callClose (closed.length + 1) 0 closed) := by
    intro call hClosed
    rw [hSplit, hQuiet.mem_scannedCalls_iff hNe hClosed, scannedCalls_fuel hNe callClose
      (by rw [List.length_append]; omega) (Nat.lt_succ_self _)]
  constructor
  · rintro ⟨call, hMem, hClosed, hStop⟩
    obtain ⟨hLe, hCalls⟩ := h.stop_le hNe ((hSame call hClosed).mpr hMem) hClosed
    refine ⟨hCalls, ?_⟩
    -- the last call's closer completes no later than the last closer
    have hPre := hQuiet.isPrefix hSettled (h.completes_settledText hCalls)
    exact (hPre.eq_of_length (Nat.le_antisymm hPre.length_le (by omega))).symm
  · rintro ⟨hCalls, hClosed⟩
    -- one turn of the scan for each call is fuel enough
    have hFuel : calls.length ≤ (closed ++ after).length + 1 := by
      have hLen := length_le hNe prose calls
      rw [hSplit] at hLen
      omega
    obtain ⟨found, hFound, hFoundClosed, hStop⟩ := h.exists_stop hNe hCalls hFuel 0
    exact ⟨found, (hSame found hFoundClosed).mp hFound, hFoundClosed,
      by rw [hStop, hClosed, Nat.zero_add]⟩

end InStep

end InStep

/-- **Only closed calls end a turn.** Every text is prose with calls in it, written as it is
read. Wherever such a text is ended, the scan of what is kept has a closed call ending there,
if and only if the prose behind its last call completes no accepted closer, or what follows
the last one that it completes could be another call. -/
theorem reached_closed_iff (format : ToolFormat) (hNe : format.callOpen ≠ []) (text : Text) :
    (∃ prose calls, text = turnText format.callOpen prose calls ∧
      InStep format.callOpen format.callClose prose calls) ∧
    ∀ prose calls, text = turnText format.callOpen prose calls →
      InStep format.callOpen format.callClose prose calls →
      ((∀ cut, (TurnEnd.of format).reached text = some cut →
        ∃ call ∈ scannedCalls format.callOpen format.callClose ((text.take cut).length + 1) 0
          (text.take cut), call.closedBy ≠ none ∧ call.stop = cut) ↔
      Quiet format.callClose (settledText format.callOpen prose calls) (lastProse prose calls) ∨
        OpensAfterMention format.callOpen format.callClose
          (settledText format.callOpen prose calls) (lastProse prose calls)) := by
  refine ⟨exists_inStep hNe _ text, ?_⟩
  intro prose calls hText hStep
  have hSettled : text =
      settledText format.callOpen prose calls ++ lastProse prose calls := by
    rw [hText, turnText_eq_settledText]
  have hEnds : ∀ closed after, text = closed ++ after → Quiet format.callClose closed after →
      ((∃ call ∈ scannedCalls format.callOpen format.callClose ((text.take closed.length).length + 1)
          0 (text.take closed.length), call.closedBy ≠ none ∧ call.stop = closed.length) ↔
        calls ≠ [] ∧ closed = settledText format.callOpen prose calls) := by
    intro closed after hSplit hQuiet
    rw [hSplit, List.take_left]
    exact hStep.closedAt_iff hNe (hText.symm.trans hSplit) hQuiet
  constructor
  · intro h
    rcases quiet_or_completes format.callClose (settledText format.callOpen prose calls)
      (lastProse prose calls) with hQuiet | ⟨closed, after, hProse, hMention, hCompletes, hQuiet⟩
    · exact Or.inl hQuiet
    refine Or.inr ⟨closed, after, hProse, hMention, hCompletes, hQuiet, ?_⟩
    -- otherwise the text is ended behind the last call
    by_contra hOpening
    have hSplit : text = (settledText format.callOpen prose calls ++ closed) ++ after := by
      rw [hSettled, hProse, List.append_assoc]
    have hCut := h _ ((reached_eq_some_iff hNe).mpr
      ⟨_, after, hSplit, rfl, hCompletes, hQuiet, hOpening⟩)
    exact hMention (List.append_right_eq_self.mp ((hEnds _ after hSplit hQuiet).mp hCut).2)
  · intro h cut hReached
    obtain ⟨closed, after, hSplit, rfl, hCompletes, hQuiet, hOpening⟩ :=
      (reached_eq_some_iff hNe).mp hReached
    refine (hEnds closed after hSplit hQuiet).mpr ?_
    rcases h with hSilent | ⟨mention, behind, hProse, -, hCompletes', hQuiet', hOpening'⟩
    · -- nothing completes behind the last call, so that is where the text is ended
      have hPre := hSilent.isPrefix (hSettled.symm.trans hSplit) hCompletes
      have hCalls : calls ≠ [] := by
        rintro rfl
        obtain ⟨closer, hCloser, hSuffix⟩ := hCompletes
        rw [settledText, List.prefix_nil] at hPre
        rw [hPre, List.suffix_nil] at hSuffix
        exact (closeCandidates_spec hCloser).2 hSuffix
      have hPre' := hQuiet.isPrefix (hSplit.symm.trans hSettled) (hStep.completes_settledText hCalls)
      exact ⟨hCalls, hPre.eq_of_length (Nat.le_antisymm hPre.length_le hPre'.length_le)⟩
    · -- the last closer that completes is one, and so is what follows it
      have hSplit' : text = (settledText format.callOpen prose calls ++ mention) ++ behind := by
        rw [hSettled, hProse, List.append_assoc]
      have hPre := hQuiet.isPrefix (hSplit.symm.trans hSplit') hCompletes'
      have hPre' := hQuiet'.isPrefix (hSplit'.symm.trans hSplit) hCompletes
      have hSame := hPre.eq_of_length (Nat.le_antisymm hPre.length_le hPre'.length_le)
      rw [hSplit', hSame] at hSplit
      rw [List.append_cancel_left hSplit] at hOpening'
      exact absurd hOpening' hOpening

/-- Prose that mentions the Hermes tag, and no call: the turn is ended there. -/
def mentionText : Text := "It ends with\n</tool_call> as usual.".toList

/-- Prose that mentions the closer is ended there, with no call in it. -/
theorem mentionText_ended :
    ¬ hermesFormat.callOpen <:+: mentionText ∧
    (TurnEnd.of hermesFormat).reached mentionText =
      some ("It ends with\n</tool_call>".toList).length ∧
    scannedCalls hermesFormat.callOpen hermesFormat.callClose (mentionText.length + 1) 0
      mentionText = [] := by
  refine ⟨by decide, by decide, by decide⟩

/-- A call, and then prose. -/
def repliedText : Text :=
  reply hermesFormat.callOpen hermesFormat.callClose (hermesTurn.take 1) "\nDone.".toList

/-- The call, and the prose behind it. -/
def repliedCalls : List ClosedCall :=
  [{ body := "\x7b\"name\": \"ls\", \"arguments\": \x7b\x7d\x7d".toList,
     closer := hermesFormat.callClose, after := "\nDone.".toList }]

/-- The reply is written as it is read. -/
theorem repliedText_inStep :
    InStep hermesFormat.callOpen hermesFormat.callClose [] repliedCalls := by
  refine ⟨by decide, by decide, by decide, by decide, ?_⟩
  intro front after hSplit
  have hNone : ¬ hermesFormat.callOpen <:+: "\nDone.".toList := by decide
  exact absurd ⟨front, after, by rw [List.append_assoc, ← hSplit]⟩ hNone

/-- It ends with its one call. -/
theorem repliedText_ended :
    ∃ call ∈ scannedCalls hermesFormat.callOpen hermesFormat.callClose
        ((repliedText.take 56).length + 1) 0 (repliedText.take 56),
      call.closedBy ≠ none ∧ call.stop = 56 :=
  ((reached_closed_iff hermesFormat (by decide) repliedText).2 [] repliedCalls (by decide)
    repliedText_inStep).mpr (Or.inl (by decide)) 56 (by decide)

end Rampipe
