import Rampipe.Results.TurnProse

/-!
# Rampipe — what cutting a turn leaves out

`run_generation_loop` truncates the text where `TurnEnd::reached` says. The cut is
the end of the last closer that completes; the parser looks for the first one behind
each opener, in all that is left. When every opener stands before the closer that
ends at the cut, each call is closed in what is kept, and by the same form of the
closer. So cutting changes no call, and what is cut off holds no opener and no
closer (`cut_changes_no_call`).
-/

namespace Rampipe

open ListSearch Text ToolFormat

/-- An accepted closer ends at `cut`, and no opener of the text ends behind where that
closer begins. -/
def OpenedBefore (format : ToolFormat) (text : Text) (cut : Nat) : Prop :=
  ∃ closer ∈ closeCandidates format.callClose, closer <:+ text.take cut ∧
    ∀ at_ < text.length, format.callOpen <+: text.drop at_ →
      at_ + format.callOpen.length + closer.length ≤ cut

instance (format : ToolFormat) (text : Text) (cut : Nat) :
    Decidable (OpenedBefore format text cut) := by
  unfold OpenedBefore
  infer_instance

/-- Every opener, wherever it ends, is closed in the first part. -/
def Settled (callOpen callClose closed after : Text) : Prop :=
  ∀ front, front ++ callOpen <+: closed ++ after →
    ∃ closer ∈ closeCandidates callClose, ∃ gap, closed = front ++ (callOpen ++ (gap ++ closer))

section Settled

variable {callOpen callClose : Text}

theorem Settled.of_append {front closed after : Text}
    (h : Settled callOpen callClose (front ++ closed) after) :
    Settled callOpen callClose closed after := by
  intro prose hProse
  have hWhole : (front ++ prose) ++ callOpen <+: (front ++ closed) ++ after := by
    rw [List.append_assoc, List.append_assoc]
    exact (List.prefix_append_right_inj front).mpr hProse
  obtain ⟨closer, hCloser, gap, hClosed⟩ := h _ hWhole
  rw [List.append_assoc] at hClosed
  exact ⟨closer, hCloser, gap, List.append_cancel_left hClosed⟩

/-- The first part's openers are the only ones. -/
theorem Settled.not_isInfix {closed after : Text} (h : Settled callOpen callClose closed after)
    (hNot : ¬ callOpen <:+: closed) : ¬ callOpen <:+: closed ++ after := by
  rintro ⟨front, back, hSplit⟩
  obtain ⟨closer, -, gap, hClosed⟩ := h front ⟨back, hSplit⟩
  exact hNot ⟨front, gap ++ closer, by rw [hClosed, List.append_assoc]⟩

/-- Behind an opener there is a closer to be found. -/
theorem Settled.findClose_ne_none {prose afterOpen after : Text}
    (h : Settled callOpen callClose (prose ++ (callOpen ++ afterOpen)) after) :
    findClose afterOpen callClose ≠ none := by
  intro hNone
  obtain ⟨closer, hCloser, gap, hClosed⟩ := h prose
    ⟨afterOpen ++ after, by simp only [List.append_assoc]⟩
  obtain rfl := List.append_cancel_left (List.append_cancel_left hClosed)
  exact findClose_eq_none_iff.mp hNone closer hCloser (List.suffix_append gap closer).isInfix

/-- What is quiet and opens nothing is not scanned. -/
theorem scannedCalls_append (hNe : callOpen ≠ []) {closed after : Text}
    (hQuiet : Quiet callClose closed after) (hSettled : Settled callOpen callClose closed after)
    (fuel at_ : Nat) :
    scannedCalls callOpen callClose fuel at_ (closed ++ after) =
      scannedCalls callOpen callClose fuel at_ closed := by
  induction fuel generalizing closed at_ with
  | zero => rfl
  | succ fuel ih =>
    rcases scannedCalls_cases callClose hNe fuel at_ closed with
      ⟨hNot, hScan⟩ | ⟨prose, afterOpen, rfl, hOpen, ⟨hClose, -⟩ | ⟨end_, len, hClose, hScan⟩⟩
    · rw [hScan, scannedCalls_of_not_isInfix (hSettled.not_isInfix hNot)]
    · exact absurd hClose hSettled.findClose_ne_none
    · -- the same call, and then the same text but for what is behind the cut
      obtain ⟨hTail, hLong⟩ := hQuiet.scannedCalls_closed hNe hOpen hClose fuel at_
      have hRest : Settled callOpen callClose (afterOpen.drop (end_ + len)) after := by
        rw [← List.take_append_drop (end_ + len) afterOpen, ← List.append_assoc callOpen,
          ← List.append_assoc prose] at hSettled
        exact hSettled.of_append
      rw [hScan, hLong, ih hTail hRest]

/-- Neither does it hold a closer of its own. -/
theorem Quiet.not_isInfix {closed after closer : Text} (h : Quiet callClose closed after)
    (hCloser : closer ∈ closeCandidates callClose) : ¬ closer <:+: after := by
  rintro ⟨front, back, rfl⟩
  refine h (front ++ closer) ?_ (List.prefix_append _ _) ⟨closer, hCloser, ?_⟩
  · exact List.append_ne_nil_of_right_ne_nil _ (closeCandidates_spec hCloser).2
  · rw [← List.append_assoc]
    exact List.suffix_append _ _

end Settled

theorem OpenedBefore.settled {format : ToolFormat} (hNe : format.callOpen ≠ [])
    {closed after : Text} (h : OpenedBefore format (closed ++ after) closed.length) :
    Settled format.callOpen format.callClose closed after := by
  obtain ⟨closer, hCloser, hSuffix, hOpeners⟩ := h
  rw [List.take_left] at hSuffix
  obtain ⟨head, rfl⟩ := hSuffix
  rintro front ⟨back, hSplit⟩
  have hPos := List.length_pos_iff.mpr hNe
  have hLen := congrArg List.length hSplit
  have hEnd := hOpeners front.length
    (by simp only [List.length_append] at hLen ⊢; omega)
    (by rw [← hSplit, List.append_assoc, List.drop_left]; exact List.prefix_append _ _)
  -- the opener is part of what stands before the closer
  have hOpener : front ++ format.callOpen <+: head ++ (closer ++ after) := by
    rw [← List.append_assoc]
    exact ⟨back, hSplit⟩
  have hLen : (front ++ format.callOpen).length ≤ head.length := by
    rw [List.length_append] at hEnd ⊢
    omega
  have hHead : front ++ format.callOpen <+: head :=
    List.prefix_of_prefix_length_le hOpener (List.prefix_append _ _) hLen
  obtain ⟨gap, rfl⟩ := hHead
  exact ⟨closer, hCloser, gap, by simp only [List.append_assoc]⟩

theorem parseToolCalls_append (fromStr : Text → Option Json) {format : ToolFormat}
    (hNe : format.callOpen ≠ []) {closed after : Text}
    (hQuiet : Quiet format.callClose closed after)
    (hSettled : Settled format.callOpen format.callClose closed after) :
    parseToolCalls fromStr (closed ++ after) format = parseToolCalls fromStr closed format := by
  have hScan : scannedCalls format.callOpen format.callClose ((closed ++ after).length + 1) 0
      (closed ++ after) =
        scannedCalls format.callOpen format.callClose (closed.length + 1) 0 closed := by
    rw [scannedCalls_append hNe hQuiet hSettled, scannedCalls_fuel hNe format.callClose
      (by rw [List.length_append]; omega) (Nat.lt_succ_self _)]
  rw [parseToolCalls_eq, parseToolCalls_eq, scanCalls, scanCalls, ← scannedCalls_bodies _ 0, hScan,
    scannedCalls_bodies]

/-- **Cutting a turn changes no call.** Where a turn is ended and every opener stands
before the closer that ends there, the text kept reads as the whole text does, and the
text cut off has no opener and no accepted closer in it. -/
theorem cut_changes_no_call (fromStr : Text → Option Json) (format : ToolFormat) (text : Text)
    (cut : Nat) (hReached : (TurnEnd.of format).reached text = some cut)
    (hOpened : OpenedBefore format text cut) :
    parseToolCalls fromStr (text.take cut) format = parseToolCalls fromStr text format ∧
      ¬ format.callOpen <:+: text.drop cut ∧
      ∀ closer ∈ closeCandidates format.callClose, ¬ closer <:+: text.drop cut := by
  have hNe : format.callOpen ≠ [] := by
    intro hNil
    simp [TurnEnd.reached, TurnEnd.of, hNil] at hReached
  obtain ⟨closed, after, rfl, rfl, -, hQuiet, -⟩ := (reached_eq_some_iff hNe).mp hReached
  have hSettled := hOpened.settled hNe
  rw [List.take_left, List.drop_left]
  refine ⟨(parseToolCalls_append fromStr hNe hQuiet hSettled).symm, ?_, ?_⟩
  · rintro ⟨front, back, rfl⟩
    -- an opener behind the cut would end behind it
    obtain ⟨closer, -, gap, hClosed⟩ := hSettled (closed ++ front) ⟨back, by simp⟩
    have hLen := congrArg List.length hClosed
    have hPos := List.length_pos_iff.mpr hNe
    simp only [List.length_append] at hLen
    omega
  · intro closer hCloser
    exact hQuiet.not_isInfix hCloser

/-- Parses the body of the call that is replied to, and no other text. -/
def listingFromStr (text : Text) : Option Json :=
  if text = (hermesTurn.map Prod.snd).headD [] then
    some (.obj [("name".toList, .string "ls".toList), ("arguments".toList, .obj [])])
  else none

theorem repliedText_cut :
    parseToolCalls listingFromStr (repliedText.take 56) hermesFormat =
        parseToolCalls listingFromStr repliedText hermesFormat ∧
      ¬ hermesFormat.callOpen <:+: repliedText.drop 56 ∧
      ∀ closer ∈ closeCandidates hermesFormat.callClose, ¬ closer <:+: repliedText.drop 56 :=
  cut_changes_no_call listingFromStr hermesFormat repliedText 56 (by decide)
    (by decide)

end Rampipe
