import Rampipe.Results.Composition

/-!
# Rampipe — sentinels that share a mark

The order check of a probe sets the first reply's sentinel and the second message's
apart, and of the other two gaps it asks only where their ends begin. A sentinel begins
and ends with one mark, so that a reply's may begin with the mark its message's ends
with: the check passes, and the slice between them begins behind its end.

* `merged_or_apart`                        — two sentinels overlap in one mark, if at all.
* `deriveFromProbe_case`                   — how one probe ends.
* `deriveConversationTemplate_returns_iff` — when the derivation returns.
-/

namespace Rampipe

open ListSearch Text ToolFormat

/-- Where a rendering has its four sentinels, in the order the check asks for. -/
structure InOrder (rendered u1 a1 u2 a2 : Text) (u1Start a1Start u2Start a2Start : Nat) :
    Prop where
  foundU1 : find u1 rendered = some u1Start
  foundA1 : find a1 rendered = some a1Start
  foundU2 : find u2 rendered = some u2Start
  foundA2 : find a2 rendered = some a2Start
  first : u1Start < a1Start
  apart : a1Start + a1.length ≤ u2Start
  second : u2Start < a2Start

/-- A reply's sentinel begins with the mark its message's ends with. -/
def Merges (rendered u1 a1 u2 a2 : Text) : Prop :=
  ∃ u1Start a1Start u2Start a2Start, InOrder rendered u1 a1 u2 a2 u1Start a1Start u2Start a2Start ∧
    (a1Start + 1 = u1Start + u1.length ∨ a2Start + 1 = u2Start + u2.length)

/-- No two sentinels overlap, and both replies open alike. -/
def OpensAlike (rendered u1 a1 u2 a2 : Text) : Prop :=
  ∃ u1Start a1Start u2Start a2Start, InOrder rendered u1 a1 u2 a2 u1Start a1Start u2Start a2Start ∧
    u1Start + u1.length ≤ a1Start ∧ u2Start + u2.length ≤ a2Start ∧
      slice rendered (u1Start + u1.length) a1Start = slice rendered (u2Start + u2.length) a2Start

namespace InOrder

variable {rendered u1 a1 u2 a2 : Text} {i1 j1 i2 j2 : Nat}

/-- Sentinels stand in order at one place each. -/
theorem unique (h : InOrder rendered u1 a1 u2 a2 i1 j1 i2 j2) {i1' j1' i2' j2' : Nat}
    (h' : InOrder rendered u1 a1 u2 a2 i1' j1' i2' j2') :
    i1' = i1 ∧ j1' = j1 ∧ i2' = i2 ∧ j2' = j2 := by
  refine ⟨?_, ?_, ?_, ?_⟩
  · exact Option.some.inj (h'.foundU1.symm.trans h.foundU1)
  · exact Option.some.inj (h'.foundA1.symm.trans h.foundA1)
  · exact Option.some.inj (h'.foundU2.symm.trans h.foundU2)
  · exact Option.some.inj (h'.foundA2.symm.trans h.foundA2)

/-- Two sentinels merge where one begins in the last mark of the other. -/
theorem merges_iff (h : InOrder rendered u1 a1 u2 a2 i1 j1 i2 j2) :
    Merges rendered u1 a1 u2 a2 ↔ j1 + 1 = i1 + u1.length ∨ j2 + 1 = i2 + u2.length := by
  constructor
  · rintro ⟨_, _, _, _, h', hMerged⟩
    obtain ⟨rfl, rfl, rfl, rfl⟩ := h.unique h'
    exact hMerged
  · intro hMerged
    exact ⟨i1, j1, i2, j2, h, hMerged⟩

/-- The two replies begin alike where the same text stands in front of both. -/
theorem opensAlike_iff (h : InOrder rendered u1 a1 u2 a2 i1 j1 i2 j2) :
    OpensAlike rendered u1 a1 u2 a2 ↔ i1 + u1.length ≤ j1 ∧ i2 + u2.length ≤ j2 ∧
      slice rendered (i1 + u1.length) j1 = slice rendered (i2 + u2.length) j2 := by
  constructor
  · rintro ⟨_, _, _, _, h', hApart⟩
    obtain ⟨rfl, rfl, rfl, rfl⟩ := h.unique h'
    exact hApart
  · intro hApart
    exact ⟨i1, j1, i2, j2, h, hApart⟩

end InOrder

/-- Behind a sentinel's beginning the next one starts at its last mark at the earliest. -/
theorem merged_or_apart {mark : Char} {word other rendered : Text} {i j : Nat}
    (hWord : mark ∉ word) (hFirst : find (framed mark mark word) rendered = some i)
    (hSecond : find (framed mark mark other) rendered = some j) (hOrder : i < j) :
    j + 1 = i + (framed mark mark word).length ∨ i + (framed mark mark word).length ≤ j := by
  by_contra hInside
  rw [not_or, not_le] at hInside
  obtain ⟨hNotMerged, hInside⟩ := hInside
  obtain ⟨-, ⟨rest, hHere⟩, -⟩ := find_eq_some_iff.mp hFirst
  obtain ⟨-, ⟨rest', hThere⟩, -⟩ := find_eq_some_iff.mp hSecond
  rw [length_framed] at hNotMerged hInside
  -- the other sentinel would begin inside the word
  obtain ⟨d, rfl⟩ : ∃ d, j = i + (d + 1) := ⟨j - i - 1, by omega⟩
  have hMark : (rendered.drop (i + (d + 1)))[0]? = some mark := by
    rw [← hThere]
    rfl
  rw [List.getElem?_drop, Nat.add_zero, ← List.getElem?_drop, ← hHere] at hMark
  have hAt : (framed mark mark word ++ rest)[d + 1]? = word[d]? := by
    rw [framed, List.cons_append, List.getElem?_cons_succ, List.append_assoc,
      List.getElem?_append_left (by omega)]
  rw [hAt] at hMark
  exact hWord (List.mem_of_getElem? hMark)

/-! ## One probe -/

section Probes

variable {L : Llama} {templateText rendered : Text}

/-- Where the check passes, the slices decide. -/
theorem deriveFromProbe_inOrder {u1 a1 u2 a2 : Text} {i1 j1 i2 j2 : Nat}
    (hRender : renderMessages L templateText [("user", u1), ("assistant", a1), ("user", u2),
      ("assistant", a2)] = some rendered)
    (h : InOrder rendered u1 a1 u2 a2 i1 j1 i2 j2) :
    deriveFromProbe L templateText u1 a1 u2 a2 =
      (do
        let generationOpen ← sliceOrPanic rendered (i1 + u1.length) j1
        let turnTransition ← sliceOrPanic rendered (j1 + a1.length) i2
        let generationOpen2 ← sliceOrPanic rendered (i2 + u2.length) j2
        if generationOpen ≠ generationOpen2 then
          return none
        return some { firstTurnOpen := rendered.take i1, generationOpen, turnTransition }) := by
  unfold deriveFromProbe
  rw [hRender]
  dsimp only
  rw [h.foundU1, h.foundA1, h.foundU2, h.foundA2]
  dsimp only
  rw [if_neg (not_not.mpr ⟨h.first, h.apart, h.second⟩)]

/-- Where it does not, the probe declines. -/
theorem deriveFromProbe_unordered {u1 a1 u2 a2 : Text}
    (hRender : renderMessages L templateText [("user", u1), ("assistant", a1), ("user", u2),
      ("assistant", a2)] = some rendered)
    (h : ∀ i1 j1 i2 j2, ¬ InOrder rendered u1 a1 u2 a2 i1 j1 i2 j2) :
    deriveFromProbe L templateText u1 a1 u2 a2 = .ok none := by
  unfold deriveFromProbe
  rw [hRender]
  dsimp only
  split
  · rename_i i1 j1 i2 j2 hu1 ha1 hu2 ha2
    by_cases hOrder : i1 < j1 ∧ j1 + a1.length ≤ i2 ∧ i2 < j2
    · exact absurd ⟨hu1, ha1, hu2, ha2, hOrder.1, hOrder.2.1, hOrder.2.2⟩ (h i1 j1 i2 j2)
    · rw [if_pos hOrder]
      rfl
  · rfl

/-- A slice in order is taken. -/
theorem sliceOrPanic_ok (text : Text) {i j : Nat} (hOrder : i ≤ j) (hEnd : j ≤ text.length) :
    ∃ span, slice text i j = some span ∧ sliceOrPanic text i j = .ok span := by
  unfold sliceOrPanic slice
  rw [if_pos ⟨hOrder, hEnd⟩]
  exact ⟨_, rfl, rfl⟩

/-- One that ends before it begins panics. -/
theorem sliceOrPanic_error {text : Text} {i j : Nat} (hOrder : j < i) :
    sliceOrPanic text i j = .error ⟨⟩ := by
  unfold sliceOrPanic slice
  rw [if_neg fun hBoth => absurd hBoth.1 (Nat.not_le.mpr hOrder)]

/-- The ways a probe can end. -/
inductive ProbeCase (rendered u1 a1 u2 a2 : Text) :
    Except SlicePanic (Option ConversationTemplate) → Prop
  | panics : Merges rendered u1 a1 u2 a2 → ProbeCase rendered u1 a1 u2 a2 (.error ⟨⟩)
  | declines : ¬ Merges rendered u1 a1 u2 a2 → ¬ OpensAlike rendered u1 a1 u2 a2 →
      ProbeCase rendered u1 a1 u2 a2 (.ok none)
  | recovers {template : ConversationTemplate} :
      ¬ Merges rendered u1 a1 u2 a2 → OpensAlike rendered u1 a1 u2 a2 →
      ProbeCase rendered u1 a1 u2 a2 (.ok (some template))

/-- A probe comes to one of the things that `ProbeCase` lists. -/
theorem deriveFromProbe_case {mark : Char} {w1 w2 w3 w4 : Text}
    (hRender : renderMessages L templateText [("user", framed mark mark w1),
      ("assistant", framed mark mark w2), ("user", framed mark mark w3),
      ("assistant", framed mark mark w4)] = some rendered)
    (hWord1 : mark ∉ w1) (hWord3 : mark ∉ w3) :
    ProbeCase rendered (framed mark mark w1) (framed mark mark w2) (framed mark mark w3)
      (framed mark mark w4) (deriveFromProbe L templateText (framed mark mark w1)
        (framed mark mark w2) (framed mark mark w3) (framed mark mark w4)) := by
  by_cases hOrdered : ∃ i1 j1 i2 j2, InOrder rendered (framed mark mark w1) (framed mark mark w2)
      (framed mark mark w3) (framed mark mark w4) i1 j1 i2 j2
  · obtain ⟨i1, j1, i2, j2, h⟩ := hOrdered
    have hMerges := h.merges_iff
    have hAlike := h.opensAlike_iff
    have hFits1 := find_add_length_le h.foundA1
    have hFits2 := find_add_length_le h.foundU2
    have hFits3 := find_add_length_le h.foundA2
    obtain ⟨transition, -, hTransition⟩ := sliceOrPanic_ok rendered h.apart (by omega)
    rw [deriveFromProbe_inOrder hRender h, hTransition]
    rcases merged_or_apart hWord1 h.foundU1 h.foundA1 h.first with hMerged | hApart1
    · -- the first slice is out of range
      rw [sliceOrPanic_error (by omega)]
      exact .panics (hMerges.mpr (.inl hMerged))
    obtain ⟨span1, hSpan1, hSlice1⟩ := sliceOrPanic_ok rendered hApart1 (by omega)
    rw [hSlice1]
    rcases merged_or_apart hWord3 h.foundU2 h.foundA2 h.second with hMerged | hApart2
    · -- the last one is
      rw [sliceOrPanic_error (by omega)]
      exact .panics (hMerges.mpr (.inr hMerged))
    obtain ⟨span2, hSpan2, hSlice2⟩ := sliceOrPanic_ok rendered hApart2 (by omega)
    rw [hSlice2]
    have hNotMerged : ¬ Merges rendered (framed mark mark w1) (framed mark mark w2)
        (framed mark mark w3) (framed mark mark w4) := by
      rw [hMerges]
      omega
    rw [hSpan1, hSpan2] at hAlike
    simp only [bind, Except.bind]
    by_cases hSame : span1 = span2
    · rw [if_neg (not_not.mpr hSame)]
      exact .recovers hNotMerged (hAlike.mpr ⟨hApart1, hApart2, congrArg some hSame⟩)
    · rw [if_pos hSame]
      exact .declines hNotMerged fun hOpens => hSame (Option.some.inj (hAlike.mp hOpens).2.2)
  · rw [deriveFromProbe_unordered hRender fun i1 j1 i2 j2 h => hOrdered ⟨i1, j1, i2, j2, h⟩]
    refine .declines ?_ ?_
    · rintro ⟨i1, j1, i2, j2, h, -⟩
      exact hOrdered ⟨i1, j1, i2, j2, h⟩
    · rintro ⟨i1, j1, i2, j2, h, -⟩
      exact hOrdered ⟨i1, j1, i2, j2, h⟩

end Probes

/-! ## Both probes -/

/-- What the four sentinels of a probe say. -/
structure TurnProbe where
  u1 : String
  a1 : String
  u2 : String
  a2 : String

namespace TurnProbe

def probeA : TurnProbe := ⟨"RPA1", "RPA2", "RPA3", "RPA4"⟩

def probeB : TurnProbe := ⟨"RPB1", "RPB2", "RPB3", "RPB4"⟩

variable (probe : TurnProbe) (L : Llama) (templateText : Text)

def derive : Except SlicePanic (Option ConversationTemplate) :=
  deriveFromProbe L templateText (turnSentinel probe.u1) (turnSentinel probe.a1)
    (turnSentinel probe.u2) (turnSentinel probe.a2)

/-- The four messages, rendered. -/
def render : Option Text :=
  renderMessages L templateText [("user", turnSentinel probe.u1),
    ("assistant", turnSentinel probe.a1), ("user", turnSentinel probe.u2),
    ("assistant", turnSentinel probe.a2)]

/-- The template merges two sentinels of this probe that the order check takes to be
apart. -/
def Merges : Prop :=
  ∃ text, probe.render L templateText = some text ∧
    Rampipe.Merges text (turnSentinel probe.u1) (turnSentinel probe.a1) (turnSentinel probe.u2)
      (turnSentinel probe.a2)

/-- It keeps them apart, and opens both replies alike. -/
def OpensAlike : Prop :=
  ∃ text, probe.render L templateText = some text ∧
    Rampipe.OpensAlike text (turnSentinel probe.u1) (turnSentinel probe.a1)
      (turnSentinel probe.u2) (turnSentinel probe.a2)

/-- A probe panics when it merges two sentinels, and goes on to the next one when it
merges none and opens both replies alike. -/
theorem derive_cases (hU1 : mark ∉ turnWord probe.u1) (hU2 : mark ∉ turnWord probe.u2) :
    probe.Merges L templateText ∧ probe.derive L templateText = .error ⟨⟩ ∨
    ¬ probe.Merges L templateText ∧ ¬ probe.OpensAlike L templateText ∧
      probe.derive L templateText = .ok none ∨
    ¬ probe.Merges L templateText ∧ probe.OpensAlike L templateText ∧
      ∃ template, probe.derive L templateText = .ok (some template) := by
  unfold Merges OpensAlike derive
  rcases hRendered : probe.render L templateText with _ | text
  · -- a template that does not render is declined
    refine .inr (.inl ⟨by simp, by simp, ?_⟩)
    unfold deriveFromProbe
    rw [show renderMessages L templateText _ = none from hRendered]
  · unfold render at hRendered
    simp only [turnSentinel_eq] at hRendered ⊢
    have hCase := deriveFromProbe_case hRendered hU1 hU2
    simp only [Option.some.injEq, exists_eq_left']
    generalize deriveFromProbe L templateText _ _ _ _ = result at hCase ⊢
    cases hCase with
    | panics hMerges => exact .inl ⟨hMerges, rfl⟩
    | declines hApart hUnlike => exact .inr (.inl ⟨hApart, hUnlike, rfl⟩)
    | @recovers template hApart hAlike => exact .inr (.inr ⟨hApart, hAlike, template, rfl⟩)

end TurnProbe

open TurnProbe in
/-- **The derivation returns** exactly when the first probe's render merges no two of its
sentinels, nor the second's, which is made where the first recovers the spans. -/
theorem deriveConversationTemplate_returns_iff (L : Llama) (templateText : Text) :
    (∃ template, deriveConversationTemplate L templateText = .ok template) ↔
      ¬ probeA.Merges L templateText ∧
        (probeA.OpensAlike L templateText → ¬ probeB.Merges L templateText) := by
  have hWords := mark_not_mem_turnWord
  have hA := probeA.derive_cases L templateText
    (hWords "RPA1" (by decide)) (hWords "RPA3" (by decide))
  have hB := probeB.derive_cases L templateText
    (hWords "RPB1" (by decide)) (hWords "RPB3" (by decide))
  have hFirst : deriveFromProbe L templateText (turnSentinel "RPA1") (turnSentinel "RPA2")
      (turnSentinel "RPA3") (turnSentinel "RPA4") = probeA.derive L templateText := rfl
  have hSecond : deriveFromProbe L templateText (turnSentinel "RPB1") (turnSentinel "RPB2")
      (turnSentinel "RPB3") (turnSentinel "RPB4") = probeB.derive L templateText := rfl
  unfold deriveConversationTemplate
  rw [hFirst, hSecond]
  rcases hA with ⟨hMerges, hResult⟩ | ⟨hApart, hUnlike, hResult⟩ | ⟨hApart, hAlike, spans, hResult⟩
  · -- the first probe panics
    rw [hResult]
    simp [hMerges, bind, Except.bind]
  · -- it declines, and the second one is not made
    rw [hResult]
    simp [hApart, hUnlike, bind, Except.bind, pure, Except.pure]
  · -- the second probe is made, and decides
    rw [hResult]
    rcases hB with ⟨hMerges, hResult'⟩ | ⟨hApart', -, hResult'⟩ | ⟨hApart', -, spans', hResult'⟩
    · rw [hResult']
      simp [hAlike, hMerges, bind, Except.bind]
    · rw [hResult']
      simp [hApart, hApart', bind, Except.bind, pure, Except.pure]
    · rw [hResult']
      simp [hApart, hApart', bind, Except.bind, pure, Except.pure]

/-- A template that drops the last character of every message but the replies. -/
def clipping : Llama :=
  { Llama.scripted Script.silent with
    renderJson _ messages _ _ :=
      let field (key : String) (value : Json) : Text := ((value.get key.toList).bind Json.asStr).getD []
      match messages with
      | .array messages => some (messages.flatMap fun message =>
          if field "role" message = "user".toList then (field "content" message).dropLast
          else field "content" message ++ ['\n'])
      | _ => none }

/-- Its first two sentinels share the mark between them. -/
theorem sharedMark_panics :
    ¬ ∀ (L : Llama) (templateText : Text),
      ∃ template, deriveConversationTemplate L templateText = .ok template := by
  intro h
  obtain ⟨template, hReturns⟩ := h clipping "chat".toList
  have hPanics : deriveConversationTemplate clipping "chat".toList = .error ⟨⟩ := by
    rfl
  rw [hPanics] at hReturns
  cases hReturns

end Rampipe
