import Rampipe.Results.JsonCalls
import Rampipe.Results.Truncation

/-!
# Rampipe — where a turn is ended

`TurnEnd::reached` is asked after every token. It finds where the last accepted
closer completed, wherever that was, and ends the turn there unless what follows
could be another call arriving (`reached_eq_some_iff`).

A short form of the closer completes before the rest of it is written, and the rest
need not look like an opener; so a legitimate turn can be ended inside its first call.

* `reached_eq_some_iff` — where a turn is ended.
* `turn_undecided_iff`  — a turn is left alone while it arrives when its closers are
  written where its calls end and nowhere else, and opener and closer go together
  (`GapsOpen`).
-/

namespace Rampipe

open ListSearch Text ToolFormat

/-! ## The last closer -/

/-- An accepted form of the closer ends `closed`. -/
def Completes (callClose closed : Text) : Prop :=
  ∃ closer ∈ closeCandidates callClose, closer <:+ closed

/-- `after` goes on behind `closed` without completing another closer. -/
def Quiet (callClose closed after : Text) : Prop :=
  ∀ next, next ≠ [] → next <+: after → ¬ Completes callClose (closed ++ next)

/-- `after` could be another call arriving: whitespace, the opener, or as much of
the opener as there is. -/
def Opening (callOpen after : Text) : Prop :=
  callOpen <+: trimStart after ∨ trimStart after <+: callOpen

instance (callClose closed : Text) : Decidable (Completes callClose closed) := by
  unfold Completes
  infer_instance

instance (callOpen after : Text) : Decidable (Opening callOpen after) := by
  unfold Opening
  infer_instance

instance (callClose closed after : Text) : Decidable (Quiet callClose closed after) :=
  decidable_of_iff
    (∀ n < after.length, ¬ Completes callClose (closed ++ after.take (n + 1))) (by
      constructor
      · rintro h next hNe ⟨rest, rfl⟩ hCompletes
        have hPos := List.length_pos_iff.mpr hNe
        refine h (next.length - 1) (by rw [List.length_append]; omega) ?_
        rwa [Nat.sub_add_cancel hPos, List.take_left]
      · intro h n hn
        refine h _ ?_ (List.take_prefix _ _)
        rw [← List.length_pos_iff, List.length_take]
        omega)

section LastCloser

variable {callClose : Text}

/-- The last occurrence of a form completes it. -/
theorem completes_take_of_rfind {closer text : Text}
    (hCloser : closer ∈ closeCandidates callClose) {i : Nat} (h : rfind closer text = some i) :
    Completes callClose (text.take (i + closer.length)) := by
  obtain ⟨-, ⟨rest, hRest⟩, -⟩ := rfind_eq_some_iff.mp h
  refine ⟨closer, hCloser, text.take i, ?_⟩
  rw [List.take_add, ← hRest, List.take_left]

/-- A closer that completes somewhere completes for the last time there or later. -/
theorem exists_rfind_of_isSuffix {closer closed : Text} (h : closer <:+ closed) (after : Text) :
    ∃ i, rfind closer (closed ++ after) = some i ∧ closed.length ≤ i + closer.length := by
  obtain ⟨front, rfl⟩ := h
  have hIn : closer <:+: (front ++ closer) ++ after := ⟨front, after, rfl⟩
  obtain ⟨i, hi⟩ := Option.ne_none_iff_exists'.mp fun hNone => rfind_eq_none_iff.mp hNone hIn
  refine ⟨i, hi, ?_⟩
  by_contra hLt
  rw [List.length_append, not_le] at hLt
  refine (rfind_eq_some_iff.mp hi).2.2 front.length ?_ (by omega) ?_
  · simp only [List.length_append]
    omega
  · rw [List.append_assoc, List.drop_left]
    exact List.prefix_append _ _

/-- The ends of the last occurrences, one for each form that occurs. -/
def lastEnds (callClose text : Text) : List Nat :=
  (closeCandidates callClose).filterMap fun closer =>
    (rfind closer text).map (· + closer.length)

/-- The ends that are looked at are those of the last occurrences. -/
theorem mem_lastEnds {text : Text} {end_ : Nat} :
    end_ ∈ lastEnds callClose text ↔
      ∃ closer ∈ closeCandidates callClose, ∃ i, rfind closer text = some i ∧
        i + closer.length = end_ := by
  simp only [lastEnds, List.mem_filterMap, Option.map_eq_some_iff]

/-- They lie in the text. -/
theorem le_of_mem_lastEnds {text : Text} {end_ : Nat} (h : end_ ∈ lastEnds callClose text) :
    end_ ≤ text.length := by
  obtain ⟨closer, -, i, hi, rfl⟩ := mem_lastEnds.mp h
  obtain ⟨hLe, hPre, -⟩ := rfind_eq_some_iff.mp hi
  have hLen := hPre.length_le
  rw [List.length_drop] at hLen
  omega

/-- The latest of them is where the last closer completes. -/
theorem max_lastEnds_iff {closed after : Text} :
    (lastEnds callClose (closed ++ after)).max? = some closed.length ↔
      Completes callClose closed ∧ Quiet callClose closed after := by
  rw [List.max?_eq_some_iff]
  constructor
  · rintro ⟨hMem, hMax⟩
    obtain ⟨closer, hCloser, i, hi, hEnd⟩ := mem_lastEnds.mp hMem
    refine ⟨?_, ?_⟩
    · have hCompletes := completes_take_of_rfind hCloser hi
      rwa [hEnd, List.take_left] at hCompletes
    · -- a later completion would give a later end
      rintro next hNe ⟨rest, rfl⟩ ⟨later, hLater, hSuffix⟩
      obtain ⟨k, hk, hLe⟩ := exists_rfind_of_isSuffix hSuffix rest
      rw [List.append_assoc] at hk
      have hBound := hMax _ (mem_lastEnds.mpr ⟨later, hLater, k, hk, rfl⟩)
      have hPos := List.length_pos_iff.mpr hNe
      rw [List.length_append] at hLe
      omega
  · rintro ⟨⟨closer, hCloser, hSuffix⟩, hQuiet⟩
    -- every end that is looked at is that of a completion, so none comes later
    have hBound : ∀ end_ ∈ lastEnds callClose (closed ++ after), end_ ≤ closed.length := by
      intro end_ hMem
      obtain ⟨later, hLater, i, hi, rfl⟩ := mem_lastEnds.mp hMem
      by_contra hLt
      have hLe := le_of_mem_lastEnds hMem
      have hCompletes := completes_take_of_rfind hLater hi
      rw [List.take_append, List.take_of_length_le (by omega)] at hCompletes
      refine hQuiet _ ?_ (List.take_prefix _ _) hCompletes
      rw [List.length_append] at hLe
      rw [← List.length_pos_iff, List.length_take]
      omega
    obtain ⟨i, hi, hLe⟩ := exists_rfind_of_isSuffix hSuffix after
    have hMem := mem_lastEnds.mpr ⟨closer, hCloser, i, hi, rfl⟩
    have hEq := Nat.le_antisymm (hBound _ hMem) hLe
    exact ⟨hEq ▸ hMem, hBound⟩

variable (callClose) in
/-- Either nothing completes behind `settled`, or something does for the last time. -/
theorem quiet_or_completes (settled prose : Text) :
    Quiet callClose settled prose ∨ ∃ closed after, prose = closed ++ after ∧ closed ≠ [] ∧
      Completes callClose (settled ++ closed) ∧ Quiet callClose (settled ++ closed) after := by
  -- behind a form that completes there is less of the prose
  induction hLen : prose.length using Nat.strong_induction_on generalizing settled prose with
  | _ n ih =>
    by_cases hQuiet : Quiet callClose settled prose
    · exact Or.inl hQuiet
    refine Or.inr ?_
    simp only [Quiet, not_forall, not_not] at hQuiet
    obtain ⟨next, hNe, ⟨after, rfl⟩, hCompletes⟩ := hQuiet
    have hPos := List.length_pos_iff.mpr hNe
    rw [List.length_append] at hLen
    rcases ih after.length (by omega) (settled ++ next) after rfl with
      hQuiet | ⟨closed, after', rfl, -, hCompletes', hQuiet⟩
    · exact ⟨next, after, rfl, hNe, hCompletes, hQuiet⟩
    · refine ⟨next ++ closed, after', by rw [List.append_assoc], by simp [hNe], ?_, ?_⟩
      · rwa [← List.append_assoc]
      · rwa [← List.append_assoc]

end LastCloser

/-- A turn is reached at the last closer it has completed, unless what stands behind
that is opening another call. -/
theorem reached_eq_bind {format : ToolFormat} (hNe : format.callOpen ≠ []) (text : Text) :
    (TurnEnd.of format).reached text = (lastEnds format.callClose text).max?.bind fun end_ =>
      if Opening format.callOpen (text.drop end_) then none else some end_ := by
  have hOpen : format.callOpen.isEmpty = false := by simpa using hNe
  -- text behind the closer that is all whitespace may still become an opener
  have hEmpty : ∀ after : Text, (trimStart after).isEmpty = true →
      Opening format.callOpen after := by
    intro after h
    rw [Opening, List.isEmpty_iff.mp h]
    exact Or.inr List.nil_prefix
  simp only [TurnEnd.reached, TurnEnd.of, hOpen, Bool.false_eq_true, if_false]
  show (lastEnds format.callClose text).max?.bind _ = _
  refine congrArg _ (funext fun end_ => ?_)
  by_cases hBlank : (trimStart (text.drop end_)).isEmpty = true
  · rw [if_pos (hEmpty _ hBlank)]
    simp only [hBlank, if_true]
    rfl
  · by_cases hOpening : Opening format.callOpen (text.drop end_)
    · rw [if_pos hOpening]
      rw [Opening, ← List.isPrefixOf_iff_prefix, ← List.isPrefixOf_iff_prefix,
        ← Bool.or_eq_true] at hOpening
      simp only [hBlank, hOpening, if_true]
      rfl
    · rw [if_neg hOpening]
      rw [Opening, ← List.isPrefixOf_iff_prefix, ← List.isPrefixOf_iff_prefix,
        ← Bool.or_eq_true] at hOpening
      simp only [hBlank, hOpening]
      rfl

/-- Where a turn is ended: at the last closer that completes, when what follows it
could not be another call. -/
theorem reached_eq_some_iff {format : ToolFormat} (hNe : format.callOpen ≠ []) {text : Text}
    {cut : Nat} :
    (TurnEnd.of format).reached text = some cut ↔
      ∃ closed after, text = closed ++ after ∧ closed.length = cut ∧
        Completes format.callClose closed ∧ Quiet format.callClose closed after ∧
        ¬ Opening format.callOpen after := by
  rw [reached_eq_bind hNe, Option.bind_eq_some_iff]
  constructor
  · rintro ⟨end_, hMax, hCut⟩
    split at hCut
    · cases hCut
    · rename_i hOpening
      cases hCut
      have hLen : (text.take cut).length = cut := by
        rw [List.length_take]
        exact Nat.min_eq_left (le_of_mem_lastEnds (List.max?_mem hMax))
      have hSplit := (List.take_append_drop cut text).symm
      have hMax : (lastEnds format.callClose (text.take cut ++ text.drop cut)).max? =
          some (text.take cut).length := by
        rw [← hSplit, hLen, hMax]
      obtain ⟨hCompletes, hQuiet⟩ := max_lastEnds_iff.mp hMax
      exact ⟨_, _, hSplit, hLen, hCompletes, hQuiet, hOpening⟩
  · rintro ⟨closed, after, rfl, rfl, hCompletes, hQuiet, hOpening⟩
    refine ⟨closed.length, max_lastEnds_iff.mpr ⟨hCompletes, hQuiet⟩, ?_⟩
    rw [List.drop_left, if_neg hOpening]

/-- A turn is undecided where what follows its last closer could be another call. -/
theorem reached_eq_none_iff {format : ToolFormat} (hNe : format.callOpen ≠ []) {text : Text} :
    (TurnEnd.of format).reached text = none ↔
      ∀ closed after, text = closed ++ after → Completes format.callClose closed →
        Quiet format.callClose closed after → Opening format.callOpen after := by
  rw [Option.eq_none_iff_forall_ne_some]
  constructor
  · intro h closed after hText hCompletes hQuiet
    by_contra hOpening
    exact h closed.length ((reached_eq_some_iff hNe).mpr
      ⟨closed, after, hText, rfl, hCompletes, hQuiet, hOpening⟩)
  · intro h cut hReached
    obtain ⟨closed, after, hText, -, hCompletes, hQuiet, hOpening⟩ :=
      (reached_eq_some_iff hNe).mp hReached
    exact hOpening (h closed after hText hCompletes hQuiet)

/-! ## A turn while it arrives -/

/-- What follows `closed` in a turn could be another call, up to where the next
closer completes. -/
def Followed (callOpen callClose closed rest : Text) : Prop :=
  ∀ after, after <+: rest → Quiet callClose closed after → Opening callOpen after

/-- `closed` ends with one of the turn's calls, complete. -/
def EndsCall (callOpen callClose : Text) (calls : List (Text × Text)) (closed : Text) : Prop :=
  ∃ front, front ≠ [] ∧ front <+: calls ∧ closed = reply callOpen callClose front []

section Arriving

variable {callOpen callClose : Text}

/-- What arrives behind whitespace and before an opener is complete is part of
one, unless trimming eats the opener's own whitespace. -/
theorem opening_of_isPrefix (hNe : callOpen ≠ []) (hStart : trimStart callOpen = callOpen)
    {separator after : Text} (hSeparator : ¬ Visible separator) (rest : Text)
    (h : after <+: separator ++ (callOpen ++ rest)) : Opening callOpen after := by
  have hBlank : ¬ Visible after → Opening callOpen after := by
    intro hAfter
    rw [Opening, trimStart_eq_nil_iff.mpr hAfter]
    exact Or.inr List.nil_prefix
  rcases List.prefix_or_prefix_of_prefix h (List.prefix_append _ _) with hShort | ⟨begun, rfl⟩
  · exact hBlank fun hAfter => hSeparator (hAfter.of_isPrefix hShort)
  · rw [List.prefix_append_right_inj] at h
    rw [Opening, trimStart_append_blank hSeparator]
    cases begun with
    | nil => exact Or.inr List.nil_prefix
    | cons c begun =>
      -- the opener's first character is visible, and it is the first to arrive
      obtain ⟨d, opener, rfl⟩ := List.exists_cons_of_ne_nil hNe
      obtain ⟨rfl, -⟩ := List.cons_prefix_cons.mp h
      have hVisible : isWhitespace c = false := by
        by_contra hWhite
        have hLen := congrArg List.length hStart
        rw [trimStart, List.dropWhile_cons_of_pos (by simpa using hWhite)] at hLen
        have hLe := (List.dropWhile_sublist isWhitespace (l := opener)).length_le
        rw [List.length_cons] at hLen
        omega
      have hTrim : trimStart (c :: begun) = c :: begun :=
        List.dropWhile_cons_of_neg (by simp [hVisible])
      rw [hTrim]
      exact (List.prefix_or_prefix_of_prefix h (List.prefix_append _ _)).symm

/-- Behind a complete call there is whitespace, and then an opener or nothing. -/
theorem followed_of_endsCall (hNe : callOpen ≠ []) (hStart : trimStart callOpen = callOpen)
    {calls : List (Text × Text)} {trailing closed rest : Text}
    (hSeparator : ∀ call ∈ calls, ¬ Visible call.1) (hTrailing : ¬ Visible trailing)
    (hSplit : reply callOpen callClose calls trailing = closed ++ rest)
    (h : EndsCall callOpen callClose calls closed) : Followed callOpen callClose closed rest := by
  obtain ⟨front, -, ⟨back, rfl⟩, rfl⟩ := h
  rw [reply_append, reply_eq_append] at hSplit
  obtain rfl := List.append_cancel_left hSplit
  intro after hAfter _
  cases back with
  | nil =>
    have hBlank : ¬ Visible after := fun hVisible => hTrailing (hVisible.of_isPrefix hAfter)
    rw [Opening, trimStart_eq_nil_iff.mpr hBlank]
    exact Or.inr List.nil_prefix
  | cons call back =>
    exact opening_of_isPrefix hNe hStart (hSeparator call (by simp)) _ hAfter

end Arriving

/-- A turn is never ended when each form that completes is followed by what could be another
call. -/
theorem undecided_iff_followed {format : ToolFormat} (hNe : format.callOpen ≠ []) {text : Text} :
    (∀ arrived, arrived <+: text → (TurnEnd.of format).reached arrived = none) ↔
      ∀ closed rest, text = closed ++ rest → Completes format.callClose closed →
        Followed format.callOpen format.callClose closed rest := by
  constructor
  · rintro h closed rest rfl hCompletes after hAfter hQuiet
    exact (reached_eq_none_iff hNe).mp (h _ ((List.prefix_append_right_inj closed).mpr hAfter))
      closed after rfl hCompletes hQuiet
  · rintro h arrived ⟨rest, hRest⟩
    refine (reached_eq_none_iff hNe).mpr ?_
    rintro closed after rfl hCompletes hQuiet
    exact h closed (after ++ rest) (by rw [← hRest, List.append_assoc]) hCompletes after
      (List.prefix_append _ _) hQuiet

/-- An opener that can be recognised behind whitespace does not begin with any. -/
theorem trimStart_eq_of_comparable {callOpen after : Text} (hNe : callOpen ≠ [])
    (hVisible : Visible after)
    (h : callOpen <+: trimStart after ∨ trimStart after <+: callOpen) :
    trimStart callOpen = callOpen := by
  obtain ⟨d, opener, rfl⟩ := List.exists_cons_of_ne_nil hNe
  obtain ⟨c, seen, hSeen⟩ := List.exists_cons_of_ne_nil fun hNil =>
    trimStart_eq_nil_iff.mp hNil hVisible
  have hc : isWhitespace c = false := by
    have hHead := List.head?_dropWhile_not isWhitespace after
    rw [← trimStart, hSeen] at hHead
    simpa using hHead
  have hDc : d = c := by
    rw [hSeen] at h
    rcases h with h | h
    · exact (List.cons_prefix_cons.mp h).1
    · exact (List.cons_prefix_cons.mp h).1.symm
  rw [hDc]
  exact List.dropWhile_cons_of_neg (by simp [hc])

/-! ## Closers in their places -/

/-- `closed` ends with the beginning of one of the turn's own closers that `closer` is. -/
def EndsOwn (callOpen callClose : Text) (calls : List (Text × Text))
    (closer closed : Text) : Prop :=
  ∃ done separator body left, calls = done ++ (separator, body) :: left ∧
    closed = reply callOpen callClose done (separator ++ (callOpen ++ body)) ++ closer

/-- No form of the closer completes but in the closers that the turn's calls end with. -/
def Tidy (callOpen callClose : Text) (calls : List (Text × Text)) (trailing : Text) : Prop :=
  ∀ closed rest, reply callOpen callClose calls trailing = closed ++ rest →
    Completes callClose closed →
    ∃ closer ∈ closeCandidates callClose, EndsOwn callOpen callClose calls closer closed

/-- Behind each accepted form of the closer, up to where the next one completes, the closer
goes on as another call would begin. With one accepted form there is nothing to ask. -/
def GapsOpen (callOpen callClose : Text) : Prop :=
  ∀ short ∈ closeCandidates callClose, ∀ n ≤ callClose.length - short.length,
    (∀ longer ∈ closeCandidates callClose, short.length < longer.length →
      short.length + n < longer.length) →
    Opening callOpen ((callClose.drop short.length).take n)

instance (callOpen callClose : Text) : Decidable (GapsOpen callOpen callClose) := by
  unfold GapsOpen
  infer_instance

section Tidy

variable {callOpen callClose : Text} {calls : List (Text × Text)} {trailing : Text}

/-- Behind a beginning of a call's own closer come the rest of it and the calls left. -/
theorem EndsOwn.rest {closer closed rest : Text}
    (h : EndsOwn callOpen callClose calls closer closed)
    (hSplit : reply callOpen callClose calls trailing = closed ++ rest) :
    ∃ done separator body left, calls = done ++ (separator, body) :: left ∧
      closed = reply callOpen callClose done (separator ++ (callOpen ++ body)) ++ closer ∧
      closer ++ rest = callClose ++ reply callOpen callClose left trailing := by
  obtain ⟨done, separator, body, left, hCalls, hClosed⟩ := h
  refine ⟨done, separator, body, left, hCalls, hClosed, ?_⟩
  rw [hCalls, hClosed, reply_append, reply_eq_append done (separator ++ _), reply_eq_append done,
    reply] at hSplit
  simp only [List.append_assoc] at hSplit
  have hRest := List.append_cancel_left hSplit
  exact (List.append_cancel_left (List.append_cancel_left (List.append_cancel_left hRest))).symm

/-- In a tidy turn a form completes in the first call's closer, or behind the second call's
body. -/
theorem Tidy.first_or_later (h : Tidy callOpen callClose calls trailing) {first : Text × Text}
    {left : List (Text × Text)} (hCalls : calls = first :: left) {closed rest : Text}
    (hSplit : reply callOpen callClose calls trailing = closed ++ rest)
    (hCompletes : Completes callClose closed) :
    ∃ closer ∈ closeCandidates callClose,
      closed.length = (first.1 ++ (callOpen ++ first.2)).length + closer.length ∨
        ∃ second later, left = second :: later ∧
          (first.1 ++ (callOpen ++ first.2)).length + callClose.length +
            (second.1 ++ (callOpen ++ second.2)).length + closer.length ≤ closed.length := by
  obtain ⟨closer, hCloser, done, separator, body, left', hOwn, rfl⟩ :=
    h closed rest hSplit hCompletes
  refine ⟨closer, hCloser, ?_⟩
  rw [hCalls] at hOwn
  -- the closer is the first call's, the second one's, or that of one behind it
  rcases done with _ | ⟨d, _ | ⟨second, done⟩⟩
  · obtain ⟨rfl, -⟩ := List.cons.inj hOwn
    exact Or.inl (by rw [reply, List.length_append])
  · obtain ⟨rfl, rfl⟩ := List.cons.inj hOwn
    refine Or.inr ⟨_, _, rfl, ?_⟩
    simp only [reply, List.length_append]
    omega
  · obtain ⟨rfl, rfl⟩ := List.cons.inj hOwn
    refine Or.inr ⟨_, _, rfl, ?_⟩
    simp only [reply, List.length_append]
    omega

/-- The closer of a tidy turn that is left alone goes on, behind each accepted form, as
another call would begin. -/
theorem Tidy.gapsOpen (h : Tidy callOpen callClose calls trailing) (hCalls : calls ≠ [])
    (hFollowed : ∀ closed rest, reply callOpen callClose calls trailing = closed ++ rest →
      Completes callClose closed → Followed callOpen callClose closed rest) :
    GapsOpen callOpen callClose := by
  obtain ⟨first, left, rfl⟩ := List.exists_cons_of_ne_nil hCalls
  intro short hShort n hn hNext
  obtain ⟨rest, hRest⟩ := (closeCandidates_spec hShort).1
  have hDrop : callClose.drop short.length = rest := by rw [← hRest, List.drop_left]
  rw [hDrop]
  -- the turn, cut behind the short form in the first call's closer
  have hSplit : reply callOpen callClose (first :: left) trailing =
      (first.1 ++ (callOpen ++ first.2) ++ short) ++
        (rest.take n ++ (rest.drop n ++ reply callOpen callClose left trailing)) := by
    obtain ⟨separator, body⟩ := first
    rw [← List.append_assoc (rest.take n), List.take_append_drop, reply, ← hRest]
    simp only [List.append_assoc]
  refine hFollowed _ _ hSplit ⟨short, hShort, List.suffix_append _ _⟩ _
    (List.prefix_append _ _) ?_
  rintro next hNe ⟨later, hLater⟩ hCompletes
  have hPos := List.length_pos_iff.mpr hNe
  have hLen := congrArg List.length hLater
  have hLe : (rest.take n).length ≤ n := List.length_take_le n rest
  have hFull := congrArg List.length hRest
  simp only [List.length_append] at hLen hFull
  rw [← hLater, List.append_assoc next, ← List.append_assoc] at hSplit
  obtain ⟨longer, hLonger, hHere | ⟨second, _, -, hBehind⟩⟩ :=
    h.first_or_later rfl hSplit hCompletes
  · -- it would be an accepted form between the two
    have hLt := hNext longer hLonger (by simp only [List.length_append] at hHere; omega)
    simp only [List.length_append] at hHere
    omega
  · have hPos' := List.length_pos_iff.mpr (closeCandidates_spec hLonger).2
    simp only [List.length_append] at hBehind
    omega

/-- In a tidy turn of several calls that is left alone, the opener does not begin with
whitespace: behind the first call the second one's has to be recognised. -/
theorem Tidy.trimStart_callOpen (h : Tidy callOpen callClose calls trailing)
    (hClose : callClose ≠ []) (hNe : callOpen ≠ []) (hMany : 1 < calls.length)
    (hSeparator : ∀ call ∈ calls, ¬ Visible call.1) (hBody : ∀ call ∈ calls, Visible call.2)
    (hFollowed : ∀ closed rest, reply callOpen callClose calls trailing = closed ++ rest →
      Completes callClose closed → Followed callOpen callClose closed rest) :
    trimStart callOpen = callOpen := by
  obtain ⟨first, second, left, rfl⟩ : ∃ first second left, calls = first :: second :: left := by
    match calls, hMany with
    | first :: second :: left, _ => exact ⟨first, second, left, rfl⟩
  -- the turn, cut behind the first call's whole closer
  have hSplit : reply callOpen callClose (first :: second :: left) trailing =
      (first.1 ++ (callOpen ++ first.2) ++ callClose) ++
        ((second.1 ++ (callOpen ++ second.2)) ++
          (callClose ++ reply callOpen callClose left trailing)) := by
    obtain ⟨separator, body⟩ := first
    obtain ⟨separator', body'⟩ := second
    simp only [reply, List.append_assoc]
  have hOpening : Opening callOpen (second.1 ++ (callOpen ++ second.2)) := by
    refine hFollowed _ _ hSplit ⟨callClose, ?_, List.suffix_append _ _⟩ _
      (List.prefix_append _ _) ?_
    · simp [closeCandidates, hClose]
    rintro next hNext ⟨later, hLater⟩ hCompletes
    -- nothing completes before the second call's own closer
    have hPos := List.length_pos_iff.mpr hNext
    have hLen := congrArg List.length hLater
    rw [← hLater, List.append_assoc next, ← List.append_assoc] at hSplit
    obtain ⟨closer, hCloser, hHere | ⟨_, _, hSecond, hBehind⟩⟩ :=
      h.first_or_later rfl hSplit hCompletes
    · have hLe := (closeCandidates_spec hCloser).1.length_le
      simp only [List.length_append] at hHere
      omega
    · have hPos' := List.length_pos_iff.mpr (closeCandidates_spec hCloser).2
      obtain ⟨rfl, -⟩ := List.cons.inj hSecond
      simp only [List.length_append] at hBehind hLen
      omega
  -- what is seen first behind whitespace is visible, and so the opener begins with it
  have hVisible : Visible (callOpen ++ second.2) := (hBody second (by simp)).append_left _
  rw [Opening, trimStart_append_blank (hSeparator second (by simp))] at hOpening
  exact trimStart_eq_of_comparable hNe hVisible hOpening

/-- In a tidy turn whose opener and closer go together, each form is followed by what could
be another call. -/
theorem Tidy.followed (h : Tidy callOpen callClose calls trailing) (hNe : callOpen ≠ [])
    (hClose : callClose ≠ []) (hSeparator : ∀ call ∈ calls, ¬ Visible call.1)
    (hTrailing : ¬ Visible trailing) (hGaps : calls = [] ∨ GapsOpen callOpen callClose)
    (hStart : calls.length ≤ 1 ∨ trimStart callOpen = callOpen) {closed rest : Text}
    (hSplit : reply callOpen callClose calls trailing = closed ++ rest)
    (hCompletes : Completes callClose closed) : Followed callOpen callClose closed rest := by
  obtain ⟨closer, hCloser, hOwn⟩ := h closed rest hSplit hCompletes
  obtain ⟨done, separator, body, left, hCalls, hClosed, hRest⟩ := hOwn.rest hSplit
  have hGaps : GapsOpen callOpen callClose := hGaps.resolve_left (by rw [hCalls]; simp)
  have hFull : callClose ∈ closeCandidates callClose := by simp [closeCandidates, hClose]
  obtain ⟨gap, hGap⟩ := (closeCandidates_spec hCloser).1
  rw [← hGap, List.append_assoc] at hRest
  obtain rfl := List.append_cancel_left hRest
  intro after hAfter hQuiet
  rcases Nat.lt_or_ge after.length gap.length with hInside | hBehind
  · -- the closer is still being written
    have hPre : after <+: gap :=
      List.prefix_of_prefix_length_le hAfter (List.prefix_append _ _) (Nat.le_of_lt hInside)
    have hLen := congrArg List.length hGap
    rw [List.length_append] at hLen
    have hOpening := hGaps closer hCloser after.length (by omega) ?_
    · rwa [← hGap, List.drop_left, ← List.prefix_iff_eq_take.mp hPre] at hOpening
    intro longer hLonger hLt
    by_contra hLe
    -- the next form would have completed in what has arrived
    obtain ⟨next, rfl⟩ := closeCandidates_prefix hCloser hLonger (Nat.le_of_lt hLt)
    have hNext : next <+: after := by
      have hWhole := (closeCandidates_spec hLonger).1
      rw [← hGap] at hWhole
      refine List.prefix_of_prefix_length_le ((List.prefix_append_right_inj _).mp hWhole) hPre ?_
      rw [List.length_append] at hLe
      omega
    refine hQuiet next ?_ hNext ⟨_, hLonger, ?_⟩
    · rintro rfl
      simp at hLt
    · rw [hClosed, List.append_assoc]
      exact List.suffix_append _ _
  · -- it is complete, so it is the whole one that has been written
    have hNil : gap = [] := by
      by_contra hGapNe
      have hPre : gap <+: after :=
        List.prefix_of_prefix_length_le (List.prefix_append _ _) hAfter hBehind
      refine hQuiet gap hGapNe hPre ⟨callClose, hFull, ?_⟩
      rw [hClosed, List.append_assoc, hGap]
      exact List.suffix_append _ _
    subst hNil
    rw [List.append_nil] at hGap
    subst hGap
    rw [List.nil_append] at hAfter hSplit
    rcases hStart with hFew | hStart
    · -- behind the only call there is whitespace
      have hLast : left = [] := by
        rw [hCalls, List.length_append, List.length_cons] at hFew
        exact List.length_eq_zero_iff.mp (by omega)
      rw [hLast, reply] at hAfter
      have hBlank : ¬ Visible after := fun hVisible => hTrailing (hVisible.of_isPrefix hAfter)
      rw [Opening, trimStart_eq_nil_iff.mpr hBlank]
      exact Or.inr List.nil_prefix
    · refine followed_of_endsCall hNe hStart hSeparator hTrailing hSplit ?_ after hAfter hQuiet
      refine ⟨done ++ [(separator, body)], by simp, ⟨left, by rw [hCalls]; simp⟩, ?_⟩
      rw [hClosed, reply_append, reply_eq_append done]
      simp only [reply, List.append_assoc, List.append_nil]
      exact (reply_eq_append done _).symm

/-- Opener and closer are told apart: the closer ends a tag; its shortest form is seen before
its last character comes, and what is seen of it is not part of the opener; and no opener is
written behind a call's own before the call's closer. -/
structure ToldApart (callOpen callClose : Text) (calls : List (Text × Text)) : Prop where
  tag : callClose.getLast? = some '>'
  seen : Visible (shortestCloser callClose).dropLast
  apart : ¬ trimStart (shortestCloser callClose).dropLast <:+: callOpen
  once : ∀ call ∈ calls,
    ¬ callOpen <:+: callOpen.tail ++ (call.2 ++ (shortestCloser callClose).dropLast)

namespace ToldApart

variable (h : ToldApart callOpen callClose calls)

include h

/-- A form is complete when a tag is. -/
theorem getLast?_of_completes {closed : Text} (hCompletes : Completes callClose closed) :
    closed.getLast? = some '>' := by
  obtain ⟨closer, hCloser, front, rfl⟩ := hCompletes
  rw [List.getLast?_append_of_ne_nil _ (closeCandidates_spec hCloser).2]
  rcases closesAs_of_mem hCloser with rfl | ⟨-, hLast⟩
  · exact h.tag
  · exact hLast

/-- The shortest form has one tag end, and it comes last. -/
theorem shortestCloser_eq :
    shortestCloser callClose = (shortestCloser callClose).dropLast ++ ['>'] ∧
      '>' ∉ (shortestCloser callClose).dropLast := by
  have hMem : '>' ∈ callClose := List.mem_of_getLast? h.tag
  have hShort : shortestCloser callClose = callClose.takeWhile (· != '>') ++ ['>'] := by
    rw [shortestCloser, if_pos hMem]
  rw [hShort, List.dropLast_concat]
  refine ⟨rfl, fun hIn => ?_⟩
  have hNe := List.mem_takeWhile_imp hIn
  simp at hNe

/-- What follows a form that completes in a call's opener or body, up to the call's own
closer, is no opener. -/
theorem not_opening (hNe : callOpen ≠ []) {call : Text × Text} (hCall : call ∈ calls)
    {written rest : Text} (hLast : written.getLast? = some '>')
    (hSplit : callOpen ++ (call.2 ++ (shortestCloser callClose).dropLast) = written ++ rest) :
    ¬ Opening callOpen rest := by
  -- the form is complete before the call's own closer begins
  have hSuffix : (shortestCloser callClose).dropLast <:+ rest := by
    have hRest : rest <:+ callOpen ++ (call.2 ++ (shortestCloser callClose).dropLast) :=
      ⟨written, hSplit.symm⟩
    have hShort : (shortestCloser callClose).dropLast <:+
        callOpen ++ (call.2 ++ (shortestCloser callClose).dropLast) :=
      (List.suffix_append _ _).trans (List.suffix_append _ _)
    refine List.suffix_of_suffix_length_le hShort hRest ?_
    by_contra hLt
    obtain ⟨begun, hBegun⟩ := List.suffix_of_suffix_length_le hRest hShort
      (Nat.le_of_lt (Nat.lt_of_not_le hLt))
    have hBegunNe : begun ≠ [] := by
      rintro rfl
      rw [← hBegun] at hLt
      exact hLt (Nat.le_refl _)
    rw [← hBegun, ← List.append_assoc, ← List.append_assoc] at hSplit
    rw [← List.append_cancel_right hSplit, List.getLast?_append_of_ne_nil _ hBegunNe] at hLast
    refine h.shortestCloser_eq.2 ?_
    rw [← hBegun]
    exact List.mem_append_left _ (List.mem_of_getLast? hLast)
  obtain ⟨front, rfl⟩ := hSuffix
  rintro (hOpen | hOpen)
  · -- an opener would be written behind the call's own
    obtain ⟨c, opener, rfl⟩ := List.exists_cons_of_ne_nil hNe
    have hIn : c :: opener <:+: front ++ (shortestCloser callClose).dropLast :=
      hOpen.isInfix.trans (List.dropWhile_suffix _).isInfix
    refine h.once call hCall (hIn.trans (List.IsSuffix.isInfix ?_))
    have hWhole : front ++ (shortestCloser callClose).dropLast <:+
        (c :: opener) ++ (call.2 ++ (shortestCloser callClose).dropLast) := ⟨written, hSplit.symm⟩
    refine List.suffix_of_suffix_length_le hWhole (List.suffix_cons _ _) ?_
    have hLen := congrArg List.length hSplit
    have hPos : 0 < written.length := List.length_pos_iff.mpr fun hNil => by simp [hNil] at hLast
    simp only [List.tail_cons, List.length_append, List.length_cons] at hLen ⊢
    omega
  · -- what is seen of the closer would be part of the opener
    refine h.apart (List.IsInfix.trans (List.IsSuffix.isInfix ?_) hOpen.isInfix)
    by_cases hVisible : Visible front
    · rw [trimStart_append hVisible]
      exact (List.dropWhile_suffix _).trans (List.suffix_append _ _)
    · rw [trimStart_append_blank hVisible]

/-- A form that completes in a call's opener or body is not followed by what could be another
call, up to the call's own closer. -/
theorem not_followed (hNe : callOpen ≠ []) {call : Text × Text} (hCall : call ∈ calls)
    {closed written after rest behind : Text} (hLast : written.getLast? = some '>')
    (hOwn : callOpen ++ call.2 = written ++ after)
    (hSplit : reply callOpen callClose calls trailing = closed ++ rest)
    (hRest : rest = after ++ (callClose ++ behind)) (hCompletes : Completes callClose closed)
    (hFollowed : ∀ closed rest, reply callOpen callClose calls trailing = closed ++ rest →
      Completes callClose closed → Followed callOpen callClose closed rest) : False := by
  -- the text up to where the call's own closer completes
  have hGap : after ++ (shortestCloser callClose).dropLast <+: rest := by
    rw [hRest]
    refine (List.prefix_append_right_inj after).mpr
      (List.IsPrefix.trans ?_ (List.prefix_append _ _))
    exact (List.dropLast_prefix _).trans (shortestCloser_isPrefix callClose)
  have hWritten : callOpen ++ (call.2 ++ (shortestCloser callClose).dropLast) =
      written ++ (after ++ (shortestCloser callClose).dropLast) := by
    rw [← List.append_assoc, hOwn, List.append_assoc]
  rcases quiet_or_completes callClose closed (after ++ (shortestCloser callClose).dropLast) with
    hQuiet | ⟨next, gap, hNext, hNextNe, hCompletes', hQuiet⟩
  · exact h.not_opening hNe hCall hLast hWritten
      (hFollowed closed rest hSplit hCompletes _ hGap hQuiet)
  · -- the last form that completes before it
    obtain ⟨left, hLeft⟩ := hGap
    rw [hNext, List.append_assoc] at hLeft
    rw [hNext, ← List.append_assoc written] at hWritten
    rw [← hLeft, ← List.append_assoc] at hSplit
    have hLast' := h.getLast?_of_completes hCompletes'
    rw [List.getLast?_append_of_ne_nil _ hNextNe] at hLast'
    refine h.not_opening hNe hCall ?_ hWritten
      (hFollowed _ _ hSplit hCompletes' gap (List.prefix_append _ _) hQuiet)
    rwa [List.getLast?_append_of_ne_nil _ hNextNe]

omit h in
/-- Where a turn can be cut: in front of a call's closer, in the closer, or behind the calls. -/
theorem cut_cases {closed rest : Text}
    (hSplit : reply callOpen callClose calls trailing = closed ++ rest) :
    (∃ done separator body left, calls = done ++ (separator, body) :: left ∧
      ∃ begun after, closed = reply callOpen callClose done begun ∧
        separator ++ (callOpen ++ body) = begun ++ after ∧
        rest = after ++ (callClose ++ reply callOpen callClose left trailing)) ∨
    (∃ begun, begun ≠ [] ∧ begun <+: callClose ∧ EndsOwn callOpen callClose calls begun closed) ∨
    ∃ begun, closed = reply callOpen callClose calls begun ∧ begun <+: trailing := by
  induction calls generalizing closed with
  | nil => exact Or.inr (Or.inr ⟨closed, rfl, rest, hSplit.symm⟩)
  | cons call calls ih =>
    obtain ⟨separator, body⟩ := call
    rw [reply, ← List.append_assoc callOpen, ← List.append_assoc separator] at hSplit
    rcases List.append_eq_append_iff.mp hSplit.symm with
      ⟨after, hFront, hRest⟩ | ⟨begun, hClosed, hRest⟩
    · -- in front of the first call's closer
      exact Or.inl ⟨[], separator, body, calls, rfl, closed, after, rfl, hFront, hRest⟩
    rcases List.append_eq_append_iff.mp hRest with ⟨behind, hBegun, hLeft⟩ | ⟨left, hCloser, -⟩
    · -- the cut lies behind this call
      rcases ih hLeft with ⟨done, separator', body', left, hCalls, begun', after, hBegun', hSplit',
        hRest'⟩ | ⟨begun', hNe', hPre, done, separator', body', left, hCalls, hBegun'⟩ |
        ⟨begun', hBegun', hPre⟩
      · refine Or.inl ⟨(separator, body) :: done, separator', body', left, by rw [hCalls]; rfl,
          begun', after, ?_, hSplit', hRest'⟩
        rw [hClosed, hBegun, hBegun', reply]
        simp only [List.append_assoc]
      · refine Or.inr (Or.inl ⟨begun', hNe', hPre, (separator, body) :: done, separator', body',
          left, by rw [hCalls]; rfl, ?_⟩)
        rw [hClosed, hBegun, hBegun', reply]
        simp only [List.append_assoc]
      · refine Or.inr (Or.inr ⟨begun', ?_, hPre⟩)
        rw [hClosed, hBegun, hBegun', reply]
        simp only [List.append_assoc]
    · by_cases hBegun : begun = []
      · -- right in front of the closer
        subst hBegun
        refine Or.inl ⟨[], separator, body, calls, rfl, closed, [], rfl, ?_, ?_⟩
        · rw [hClosed]
          simp only [List.append_nil]
        · rw [hRest]
          rfl
      · exact Or.inr (Or.inl ⟨begun, hBegun, ⟨left, hCloser.symm⟩, [], separator, body, calls,
          rfl, by rw [hClosed, reply]⟩)

omit h in
/-- Behind a complete call its whole closer has been written. -/
theorem endsOwn_of_reply {done left : List (Text × Text)} (hCalls : calls = done ++ left)
    (hNe : done ≠ []) :
    EndsOwn callOpen callClose calls callClose (reply callOpen callClose done []) := by
  obtain ⟨front, ⟨separator, body⟩, rfl⟩ : ∃ front call, done = front ++ [call] :=
    ⟨_, _, (List.dropLast_append_getLast hNe).symm⟩
  refine ⟨front, separator, body, left, by rw [hCalls, List.append_assoc]; rfl, ?_⟩
  rw [reply_append, reply_eq_append front (separator ++ _), reply_eq_append front]
  simp only [reply, List.append_assoc, List.append_nil]

/-- Where opener and closer are told apart, a turn that is left alone is tidy: a form that
completes in a call's opener or body is followed by what is no opener. -/
theorem tidy (hNe : callOpen ≠ []) (hClose : callClose ≠ [])
    (hSeparator : ∀ call ∈ calls, ¬ Visible call.1) (hTrailing : ¬ Visible trailing)
    (hFollowed : ∀ closed rest, reply callOpen callClose calls trailing = closed ++ rest →
      Completes callClose closed → Followed callOpen callClose closed rest) :
    Tidy callOpen callClose calls trailing := by
  intro closed rest hSplit hCompletes
  have hLast := h.getLast?_of_completes hCompletes
  have hFull : callClose ∈ closeCandidates callClose := by simp [closeCandidates, hClose]
  -- no tag ends in whitespace
  have hBlank : ∀ begun blank : Text, blank ≠ [] → ¬ Visible blank →
      (begun ++ blank).getLast? ≠ some '>' := by
    intro begun blank hBlankNe hBlank hEnd
    rw [List.getLast?_append_of_ne_nil _ hBlankNe] at hEnd
    exact hBlank ⟨'>', List.mem_of_getLast? hEnd, by decide⟩
  -- nor in front of everything
  have hDone : ∀ done left, calls = done ++ left → closed = reply callOpen callClose done [] →
      ∃ closer ∈ closeCandidates callClose, EndsOwn callOpen callClose calls closer closed := by
    intro done left hCalls hClosed
    refine ⟨callClose, hFull, hClosed ▸ endsOwn_of_reply hCalls ?_⟩
    rintro rfl
    rw [hClosed] at hLast
    cases hLast
  rcases cut_cases hSplit with ⟨done, separator, body, left, hCalls, begun, after, hBegun, hBody,
    hRest⟩ | ⟨begun, hBegunNe, hPre, hOwn⟩ | ⟨begun, hBegun, hPre⟩
  · by_cases hBegunNe : begun = []
    · exact hDone done _ hCalls (by rw [hBegun, hBegunNe])
    exfalso
    have hCall : (separator, body) ∈ calls := by rw [hCalls]; simp
    rw [reply_eq_append] at hBegun
    rcases List.append_eq_append_iff.mp hBody with ⟨written, rfl, hWritten⟩ | ⟨blank, hSep, -⟩
    · by_cases hWrittenNe : written = []
      · -- at the end of the separator
        subst hWrittenNe
        rw [List.append_nil] at hBegunNe hBegun
        rw [hBegun] at hLast
        exact hBlank _ _ hBegunNe (hSeparator _ hCall) hLast
      · have hLastWritten : written.getLast? = some '>' := by
          rwa [hBegun, ← List.append_assoc, List.getLast?_append_of_ne_nil _ hWrittenNe] at hLast
        exact h.not_followed hNe hCall hLastWritten hWritten hSplit hRest hCompletes hFollowed
    · -- within the separator
      rw [hBegun] at hLast
      refine hBlank _ begun hBegunNe (fun hVisible => hSeparator _ hCall ?_) hLast
      rw [hSep]
      exact hVisible.append_right blank
  · refine ⟨begun, ?_, hOwn⟩
    -- a beginning of the closer that ends a tag is an accepted form
    obtain ⟨done, separator, body, left, -, hClosed⟩ := hOwn
    rw [hClosed, List.getLast?_append_of_ne_nil _ hBegunNe] at hLast
    exact mem_closeCandidates_of_closesAs hClose (Or.inr ⟨hPre, hLast⟩)
  · by_cases hBegunNe : begun = []
    · exact hDone calls [] (List.append_nil _).symm (by rw [hBegun, hBegunNe])
    · exfalso
      rw [hBegun, reply_eq_append] at hLast
      exact hBlank _ begun hBegunNe (fun hVisible => hTrailing (hVisible.of_isPrefix hPre)) hLast

end ToldApart

end Tidy

/-- A call that lists a directory, as the Qwen template writes it. -/
def listBody : Text := qwenSpans.derived.body "ls".toList [("path".toList, "src".toList)]

/-- Two calls of a Hermes turn. -/
def hermesTurn : List (Text × Text) :=
  [([], "\x7b\"name\": \"ls\", \"arguments\": \x7b\x7d\x7d".toList),
   ("\n".toList, "\x7b\"name\": \"pwd\", \"arguments\": \x7b\x7d\x7d".toList)]

/-- The Hermes format: a JSON object between two tags. -/
def hermesFormat : ToolFormat :=
  .json "<tool_call>\n".toList "\n</tool_call>".toList "name".toList "arguments".toList

/-- The closer is written where the two calls end. -/
theorem hermesTurn_tidy : Tidy hermesFormat.callOpen hermesFormat.callClose hermesTurn [] := by
  have hEnds : ∀ k < (reply hermesFormat.callOpen hermesFormat.callClose hermesTurn []).length + 1,
      Completes hermesFormat.callClose
        ((reply hermesFormat.callOpen hermesFormat.callClose hermesTurn []).take k) →
      ∃ done ∈ [0, 1], (reply hermesFormat.callOpen hermesFormat.callClose hermesTurn []).take k =
        reply hermesFormat.callOpen hermesFormat.callClose (hermesTurn.take done)
          ((hermesTurn.getD done ([], [])).1 ++
            (hermesFormat.callOpen ++ (hermesTurn.getD done ([], [])).2)) ++
          hermesFormat.callClose := by decide
  intro closed rest hSplit hCompletes
  have hClosed := hEnds closed.length (by rw [hSplit, List.length_append]; omega)
  rw [hSplit, List.take_left] at hClosed
  obtain ⟨done, hDone, hClosed⟩ := hClosed hCompletes
  refine ⟨hermesFormat.callClose, by decide, ?_⟩
  rcases List.mem_pair.mp hDone with rfl | rfl
  · exact ⟨[], _, _, _, rfl, hClosed⟩
  · exact ⟨hermesTurn.take 1, _, _, _, rfl, hClosed⟩

end Rampipe
