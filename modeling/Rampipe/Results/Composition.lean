import Rampipe.Results.Opening
import Rampipe.Results.Reply
import Rampipe.Results.ToolSurface

/-!
# Rampipe — composing a dialogue turn by turn

A conversation never renders its dialogue. It renders probes once, cuts the literal spans
out of them at the sentinels, and from then on puts each turn between spans. That is what
the template would have rendered, reply by reply, if the template is one that renders turn
by turn and the spans hold nothing a sentinel could be mistaken for.

* `deriveConversationTemplate_eq`, `deriveToolResultSpans_eq`, `renderOpening_eq` — the
  probes recover the spans.
* `composed_later`        — a run of calls puts down its rounds between spans.
* `composed_eq_rendered`  — so the run puts down what the template renders.
* `untooled_differs`      — a conversation without tools holds no spans for tool results.
-/

namespace Rampipe

open ListSearch Text ToolFormat

/-! ## The probes' words -/

/-- The text between the marks of a turn sentinel. -/
def turnWord (probe : String) : Text := probe.toList ++ "<&\"'>".toList

def turnProbesA : List String := ["RPA1", "RPA2", "RPA3", "RPA4"]

def turnProbesB : List String := ["RPB1", "RPB2", "RPB3", "RPB4"]

/-- A sentinel is its word between two marks. -/
theorem turnSentinel_eq (probe : String) :
    turnSentinel probe = framed mark mark (turnWord probe) := by
  have hClose : "<&\"'>\uE000".toList = "<&\"'>".toList ++ [mark] := by decide
  have hOpen : "\uE000".toList = [mark] := by decide
  rw [turnSentinel, turnWord, framed, hClose, hOpen]
  simp only [List.append_assoc, List.cons_append, List.nil_append]

/-- None of the words has a mark in it. -/
theorem mark_not_mem_turnWord : ∀ probe ∈ turnProbesA ++ turnProbesB, mark ∉ turnWord probe := by
  decide

/-- The words of a probe are all different. -/
theorem turnWords_nodup :
    (turnProbesA.map turnWord).Nodup ∧ (turnProbesB.map turnWord).Nodup := by decide

namespace TurnSpans

def template (s : TurnSpans) : ConversationTemplate where
  firstTurnOpen := s.opening none none
  generationOpen := s.generationOpen
  turnTransition := s.turnTransition

/-- The spans the probes recover. -/
def all (s : TurnSpans) : List Text :=
  [s.opening none none, s.generationOpen, s.turnTransition, s.results.open_, s.results.separator,
    s.results.close]

/-- No span holds the character a sentinel begins with, nor the text inside one. -/
structure Unmarked (s : TurnSpans) : Prop where
  mark : ∀ span ∈ s.all, mark ∉ span
  word : ∀ span ∈ s.all, ∀ probe ∈ turnProbesA ++ turnProbesB, ¬ turnWord probe <:+: span

end TurnSpans

/-! ## Recovering the spans -/

section Deriving

variable {L : Llama} {templateText : Text} {s : TurnSpans}

/-- The probe transcript, as such a template renders it. -/
theorem TurnUniform.renderMessages_eq (h : TurnUniform L.probeRenderer templateText s)
    (u1 a1 u2 a2 : Text) :
    renderMessages L templateText [("user", u1), ("assistant", a1), ("user", u2),
        ("assistant", a2)] =
      some (s.opening none none ++ (u1 ++ (s.generationOpen ++ (a1 ++ (s.turnTransition ++
        (u2 ++ (s.generationOpen ++ (a2 ++ s.tail)))))))) := by
  have hRender := h.dialogue ⟨none, none, u1, a1, [⟨.message u2, a2⟩]⟩
  simp only [TurnSpans.write, TurnSpans.round, TurnSpans.turn, List.flatMap_cons, List.flatMap_nil,
    List.append_nil, List.append_assoc] at hRender
  exact hRender

/-- The four sentinels of a probe transcript are first found where they were written. -/
theorem find_probe {B G T tail w1 w2 w3 w4 rendered : Text} (hOpening : mark ∉ B)
    (hGeneration : mark ∉ G) (hTransition : mark ∉ T)
    (hWords : ∀ w ∈ [w1, w2, w3, w4], mark ∉ w ∧ w ≠ G ∧ w ≠ T) (hNodup : [w1, w2, w3, w4].Nodup)
    (hRendered : rendered = B ++ (framed mark mark w1 ++ (G ++ (framed mark mark w2 ++ (T ++
      (framed mark mark w3 ++ (G ++ (framed mark mark w4 ++ tail)))))))) :
    ∃ a1At u2At a2At, find (framed mark mark w1) rendered = some B.length ∧
      find (framed mark mark w2) rendered = some a1At ∧
      find (framed mark mark w3) rendered = some u2At ∧
      find (framed mark mark w4) rendered = some a2At ∧
      a1At = B.length + (framed mark mark w1).length + G.length ∧
      u2At = a1At + (framed mark mark w2).length + T.length ∧
      a2At = u2At + (framed mark mark w3).length + G.length := by
  simp only [List.forall_mem_cons] at hWords
  obtain ⟨⟨m1, -, -⟩, ⟨m2, g2, -⟩, ⟨m3, g3, t3⟩, ⟨m4, g4, t4⟩, -⟩ := hWords
  simp only [List.nodup_cons, List.mem_cons, not_or, List.not_mem_nil, not_false_eq_true,
    and_true] at hNodup
  obtain ⟨⟨h12, h13, h14⟩, ⟨h23, h24⟩, h34, -⟩ := hNodup
  have hSkip : ∀ w rest, find (framed mark mark w) (B ++ rest) =
      (find (framed mark mark w) rest).map (· + B.length) := fun w rest => find_skip hOpening rest
  have hHere : ∀ w rest, find (framed mark mark w) (framed mark mark w ++ rest) = some 0 :=
    fun w rest => find_of_isPrefix (List.prefix_append _ _)
  subst hRendered
  -- a sentinel is found behind every span and sentinel in front of it
  refine ⟨_, _, _, ?_, ?_, ?_, ?_, rfl, rfl, rfl⟩
  · rw [hSkip, hHere, Option.map_some, Nat.zero_add]
  · rw [hSkip, find_skip_framed_span m2 m1 hGeneration (Ne.symm h12) g2, hHere]
    simp only [Option.map_some, Option.some.injEq]
    omega
  · rw [hSkip, find_skip_framed_span m3 m1 hGeneration (Ne.symm h13) g3,
      find_skip_framed_span m3 m2 hTransition (Ne.symm h23) t3, hHere]
    simp only [Option.map_some, Option.some.injEq]
    omega
  · rw [hSkip, find_skip_framed_span m4 m1 hGeneration (Ne.symm h14) g4,
      find_skip_framed_span m4 m2 hTransition (Ne.symm h24) t4,
      find_skip_framed_span m4 m3 hGeneration (Ne.symm h34) g4, hHere]
    simp only [Option.map_some, Option.some.injEq]
    omega

/-- The span behind a sentinel. -/
theorem slice_behind {text front sentinel span rest : Text} {i j : Nat}
    (hText : text = front ++ (sentinel ++ (span ++ rest))) (hi : i = front.length)
    (hj : j = i + sentinel.length + span.length) :
    slice text (i + sentinel.length) j = some span := by
  subst hText hi
  rw [← List.append_assoc]
  exact slice_append _ _ _ (by rw [List.length_append]) (by rw [hj, List.length_append])

/-- A probe of words that cannot be confused gives the template's own spans. -/
theorem deriveFromProbe_eq (h : TurnUniform L.probeRenderer templateText s)
    (hOpening : mark ∉ s.opening none none) (hGeneration : mark ∉ s.generationOpen)
    (hTransition : mark ∉ s.turnTransition) {w1 w2 w3 w4 : Text}
    (hWords : ∀ w ∈ [w1, w2, w3, w4], mark ∉ w ∧ w ≠ s.generationOpen ∧ w ≠ s.turnTransition)
    (hNodup : [w1, w2, w3, w4].Nodup) :
    deriveFromProbe L templateText (framed mark mark w1) (framed mark mark w2)
      (framed mark mark w3) (framed mark mark w4) = .ok (some s.template) := by
  have hRender := h.renderMessages_eq (framed mark mark w1) (framed mark mark w2)
    (framed mark mark w3) (framed mark mark w4)
  unfold TurnSpans.template
  generalize s.opening none none = B at *
  generalize s.generationOpen = G at *
  generalize s.turnTransition = T at *
  obtain ⟨rendered, hRendered⟩ : ∃ rendered, rendered = B ++ (framed mark mark w1 ++ (G ++
    (framed mark mark w2 ++ (T ++ (framed mark mark w3 ++ (G ++ (framed mark mark w4 ++
      s.tail))))))) := ⟨_, rfl⟩
  rw [← hRendered] at hRender
  obtain ⟨a1At, u2At, a2At, h1, h2, h3, h4, hp2, hp3, hp4⟩ :=
    find_probe hOpening hGeneration hTransition hWords hNodup hRendered
  -- what stands between two neighbours is what the derivation cuts out
  have hSpan1 : slice rendered (B.length + (framed mark mark w1).length) a1At = some G :=
    slice_behind hRendered rfl hp2
  have hSpan2 : slice rendered (a1At + (framed mark mark w2).length) u2At = some T := by
    have hCut : rendered = (B ++ (framed mark mark w1 ++ G)) ++ (framed mark mark w2 ++ (T ++
        (framed mark mark w3 ++ (G ++ (framed mark mark w4 ++ s.tail))))) := by
      rw [hRendered]
      simp only [List.append_assoc]
    refine slice_behind hCut ?_ hp3
    rw [hp2]
    simp only [List.length_append]
    omega
  have hSpan3 : slice rendered (u2At + (framed mark mark w3).length) a2At = some G := by
    have hCut : rendered = (B ++ (framed mark mark w1 ++ (G ++ (framed mark mark w2 ++ T)))) ++
        (framed mark mark w3 ++ (G ++ (framed mark mark w4 ++ s.tail))) := by
      rw [hRendered]
      simp only [List.append_assoc]
    refine slice_behind hCut ?_ hp4
    rw [hp3, hp2]
    simp only [List.length_append]
    omega
  have hOrder : B.length < a1At ∧ a1At + (framed mark mark w2).length ≤ u2At ∧ u2At < a2At := by
    rw [length_framed] at hp2 hp4
    omega
  have hTake : rendered.take B.length = B := by rw [hRendered, List.take_left]
  unfold deriveFromProbe
  rw [hRender]
  simp only [h1, h2, h3, h4, hOrder, sliceOrPanic, hSpan1, hSpan2, hSpan3, hTake, and_self,
    not_true_eq_false, if_false]
  simp only [bind, Except.bind, ne_eq, not_true_eq_false, if_false]
  rfl

/-- Both probes recover the same spans. -/
theorem deriveConversationTemplate_eq (h : TurnUniform L.probeRenderer templateText s)
    (hFree : s.Unmarked) : deriveConversationTemplate L templateText = .ok (some s.template) := by
  have hG : s.generationOpen ∈ s.all := by simp [TurnSpans.all]
  have hT : s.turnTransition ∈ s.all := by simp [TurnSpans.all]
  have hWords : ∀ probe ∈ turnProbesA ++ turnProbesB,
      mark ∉ turnWord probe ∧ turnWord probe ≠ s.generationOpen ∧
        turnWord probe ≠ s.turnTransition := by
    intro probe hProbe
    refine ⟨mark_not_mem_turnWord probe hProbe, ?_, ?_⟩
    · rintro hEq
      exact hFree.word _ hG probe hProbe (hEq ▸ List.infix_refl _)
    · rintro hEq
      exact hFree.word _ hT probe hProbe (hEq ▸ List.infix_refl _)
  have hB : mark ∉ s.opening none none := hFree.mark _ (by simp [TurnSpans.all])
  have hA : ∀ w ∈ turnProbesA.map turnWord,
      mark ∉ w ∧ w ≠ s.generationOpen ∧ w ≠ s.turnTransition :=
    List.forall_mem_map.mpr fun probe hProbe => hWords probe (List.mem_append_left _ hProbe)
  have hB' : ∀ w ∈ turnProbesB.map turnWord,
      mark ∉ w ∧ w ≠ s.generationOpen ∧ w ≠ s.turnTransition :=
    List.forall_mem_map.mpr fun probe hProbe => hWords probe (List.mem_append_right _ hProbe)
  unfold deriveConversationTemplate
  simp only [turnSentinel_eq]
  rw [deriveFromProbe_eq h hB (hFree.mark _ hG) (hFree.mark _ hT) hA turnWords_nodup.1,
    deriveFromProbe_eq h hB (hFree.mark _ hG) (hFree.mark _ hT) hB' turnWords_nodup.2]
  simp only [bind, Except.bind, if_true]
  rfl

/-- Between an anchor, two results and a reply, each first found where it was written,
the spans are read off. -/
theorem between_eq {rendered front anchor after : Text} {spans : ToolResultSpans}
    {anchorAt firstAt secondAt replyAt : Nat}
    (hRendered : rendered = front ++ (anchor ++ (spans.open_ ++ (RESULT ++ (spans.separator ++
      (RESULT2 ++ (spans.close ++ after)))))))
    (hAnchor : find anchor rendered = some anchorAt) (hFirst : find RESULT rendered = some firstAt)
    (hSecond : find RESULT2 rendered = some secondAt) (hReply : find REPLY rendered = some replyAt)
    (hAt : anchorAt = front.length)
    (hFirstAt : firstAt = anchorAt + anchor.length + spans.open_.length)
    (hSecondAt : secondAt = firstAt + RESULT.length + spans.separator.length)
    (hReplyAt : replyAt = secondAt + RESULT2.length + spans.close.length)
    (hNe : anchor ≠ []) : ToolResultSpans.between rendered anchor = some spans := by
  -- for the order of the four offsets
  have hPos := List.length_pos_iff.mpr hNe
  have hPos1 : 0 < RESULT.length := by decide
  have hPos2 : 0 < RESULT2.length := by decide
  have hOpen : slice rendered (anchorAt + anchor.length) firstAt = some spans.open_ :=
    slice_behind hRendered hAt hFirstAt
  have hSeparator : slice rendered (firstAt + RESULT.length) secondAt = some spans.separator := by
    have hCut : rendered = (front ++ (anchor ++ spans.open_)) ++ (RESULT ++ (spans.separator ++
        (RESULT2 ++ (spans.close ++ after)))) := by
      rw [hRendered]
      simp only [List.append_assoc]
    refine slice_behind hCut ?_ hSecondAt
    rw [hFirstAt, hAt]
    simp only [List.length_append]
    omega
  have hClose : slice rendered (secondAt + RESULT2.length) replyAt = some spans.close := by
    have hCut : rendered = (front ++ (anchor ++ (spans.open_ ++ (RESULT ++ spans.separator)))) ++
        (RESULT2 ++ (spans.close ++ after)) := by
      rw [hRendered]
      simp only [List.append_assoc]
    refine slice_behind hCut ?_ hReplyAt
    rw [hSecondAt, hFirstAt, hAt]
    simp only [List.length_append]
    omega
  have hOrder : anchorAt < firstAt ∧ firstAt < secondAt ∧ secondAt < replyAt := by omega
  unfold ToolResultSpans.between
  simp only [hAnchor, hFirst, hSecond, hReply, hOpen, hSeparator, hClose, hOrder, and_self,
    not_true_eq_false, if_false, Option.bind_eq_bind, Option.bind_some]

/-- The `tool` role is what the probe finds the results under. -/
theorem deriveToolResultSpans_eq (h : TurnUniform L.probeRenderer templateText s)
    (hFree : s.Unmarked) : ToolResultSpans.derive templateText L.probeRenderer = some s.results := by
  have hRender := h.dialogue ⟨none, none, USER, PLAIN, [⟨.results RESULT [RESULT2], REPLY⟩]⟩
  simp only [TurnSpans.write, TurnSpans.round, TurnSpans.turn, ToolResultSpans.render, Text.join,
    List.flatMap_cons, List.flatMap_nil, List.append_nil, List.append_assoc] at hRender
  have hMark := hFree.mark
  simp only [TurnSpans.all, List.forall_mem_cons] at hMark
  obtain ⟨hB, hG, -, hOpen, hSeparator, hClose, -⟩ := hMark
  obtain ⟨rendered, hRendered⟩ : ∃ rendered, rendered = s.opening none none ++ (USER ++
    (s.generationOpen ++ (PLAIN ++ (s.results.open_ ++ (RESULT ++ (s.results.separator ++ (RESULT2 ++
      (s.results.close ++ (REPLY ++ s.tail))))))))) := ⟨_, rfl⟩
  have hProbe : L.probeRenderer templateText (.array [message "user" USER,
      message "assistant" PLAIN, message "tool" RESULT, message "tool" RESULT2,
      message "assistant" REPLY]) none = some rendered := by
    rw [hRendered]
    exact hRender
  have hCut : rendered = (s.opening none none ++ (USER ++ s.generationOpen)) ++ (PLAIN ++
      (s.results.open_ ++ (RESULT ++ (s.results.separator ++ (RESULT2 ++ (s.results.close ++
        (REPLY ++ s.tail))))))) := by
    rw [hRendered]
    simp only [List.append_assoc]
  -- each search passes over the sentinels written before
  have hAnchor : find PLAIN rendered =
      some ((s.opening none none).length + USER.length + s.generationOpen.length) := by
    rw [hRendered]
    refine find_past (by decide) hB (by decide) (by decide) ?_
    exact find_here (by decide) hG _
  have hFirst : find RESULT rendered = some ((s.opening none none).length + USER.length +
      (s.generationOpen.length + PLAIN.length + s.results.open_.length)) := by
    rw [hRendered]
    refine find_past (by decide) hB (by decide) (by decide) ?_
    refine find_past (by decide) hG (by decide) (by decide) ?_
    exact find_here (by decide) hOpen _
  have hSecond : find RESULT2 rendered = some ((s.opening none none).length + USER.length +
      (s.generationOpen.length + PLAIN.length + (s.results.open_.length + RESULT.length +
        s.results.separator.length))) := by
    rw [hRendered]
    refine find_past (by decide) hB (by decide) (by decide) ?_
    refine find_past (by decide) hG (by decide) (by decide) ?_
    refine find_past (by decide) hOpen (by decide) (by decide) ?_
    exact find_here (by decide) hSeparator _
  have hReply : find REPLY rendered = some ((s.opening none none).length + USER.length +
      (s.generationOpen.length + PLAIN.length + (s.results.open_.length + RESULT.length +
        (s.results.separator.length + RESULT2.length + s.results.close.length)))) := by
    rw [hRendered]
    refine find_past (by decide) hB (by decide) (by decide) ?_
    refine find_past (by decide) hG (by decide) (by decide) ?_
    refine find_past (by decide) hOpen (by decide) (by decide) ?_
    refine find_past (by decide) hSeparator (by decide) (by decide) ?_
    exact find_here (by decide) hClose _
  have hSpans : ToolResultSpans.deriveByRole templateText L.probeRenderer = some s.results := by
    unfold ToolResultSpans.deriveByRole
    rw [hProbe, Option.bind_eq_bind, Option.bind_some]
    refine between_eq hCut hAnchor hFirst hSecond hReply ?_ ?_ ?_ ?_ (by decide)
    · simp only [List.length_append]
      omega
    · omega
    · omega
    · omega
  rw [ToolResultSpans.derive, hSpans, Option.some_or]

/-- The opening is what is rendered in front of a user's message. -/
theorem renderOpening_eq_bind (templateText : Text) (system : Option Text)
    (tools : Option (List ToolSpec)) (render : RenderFn) :
    renderOpening templateText system tools render =
      (render templateText (.array (systemMessages system ++ [message "user" USER]))
        (tools.map toolList)).bind fun rendered =>
          (find USER rendered).bind fun userAt => some (rendered.take userAt) := by
  cases system <;> rfl

/-- The opening is cut off where the user's sentinel was put in. -/
theorem renderOpening_eq (h : TurnUniform L.probeRenderer templateText s) (system : Option Text)
    (tools : Option (List ToolSpec)) (hFree : ¬ USER <:+: s.opening system tools) :
    renderOpening templateText system tools L.probeRenderer = some (s.opening system tools) := by
  obtain ⟨tail, hRender⟩ := h.unanswered system tools USER
  obtain ⟨word, hWord, hMark, -⟩ := exists_word (by decide : USER ∈ sentinels)
  have hEnds : EndsFirst USER (s.opening system tools) := by
    rw [hWord] at hFree ⊢
    exact endsFirst_framed (by decide) hMark hFree
  rw [renderOpening_eq_bind, hRender, Option.bind_some, List.append_assoc, find_append hEnds,
    Option.bind_some, List.take_left]

end Deriving

/-! ## What a conversation composes -/

namespace Conversation

variable {L : Llama}

/-- What a call adds to the dialogue; results that are none add nothing. -/
def Request.content : Request → Option TurnContent
  | .send message _ _ => some (.message message)
  | .toolResults (first :: rest) _ => some (.results first rest)
  | .toolResults [] _ => none

/-- The rounds that a run of calls makes, and the text put down: what each call decodes, a
prefill included, and what is generated behind it. `none` when a call is not answered. -/
def composed (c : Conversation L) : List Request → Option (List Round × Text)
  | [] => some ([], [])
  | request :: requests =>
    match request.content, c.decoded request, (c.call request).1 with
    | some content, some decoded, .ok result =>
      ((c.after request).composed requests).map fun (rounds, text) =>
        (⟨content, result.text⟩ :: rounds,
          decoded.text ++ result.text.drop (request.assistantPrefill.getD []).length ++ text)
    | _, _, _ => none

/-- What a history composes is what its first call does, and the rest behind that. -/
theorem composed_cons {c : Conversation L} {request : Request} {requests : List Request}
    {rounds : List Round} {text : Text} (h : c.composed (request :: requests) = some (rounds, text)) :
    ∃ content decoded result rounds' text', request.content = some content ∧
      c.decoded request = some decoded ∧ (c.call request).1 = .ok result ∧
      (c.after request).composed requests = some (rounds', text') ∧
      rounds = ⟨content, result.text⟩ :: rounds' ∧
      text = decoded.text ++ result.text.drop (request.assistantPrefill.getD []).length ++ text' := by
  rw [composed] at h
  split at h
  · rename_i content decoded result hContent hDecoded hResult
    obtain ⟨⟨rounds', text'⟩, hRest, hEq⟩ := Option.map_eq_some_iff.mp h
    obtain ⟨rfl, rfl⟩ := Prod.mk.inj hEq
    exact ⟨content, decoded, result, rounds', text', hContent, hDecoded, hResult, hRest, rfl, rfl⟩
  · cases h

/-- A turn's text is the prompt it was prepared with. -/
theorem text_of_decoded {c : Conversation L} {request : Request} {decoded : Decoded}
    {turn : PreparedTurn L} (hPrepare : c.prepare request = .ok turn)
    (h : c.decoded request = some decoded) : decoded.text = turn.formattedPrompt := by
  have hCase := decoded_case c request
  rw [h] at hCase
  cases hCase with
  | decoded hPrepare' _ =>
    rw [hPrepare] at hPrepare'
    cases hPrepare'
    rfl

/-- Once something was decoded a turn is recorded. -/
theorem turns_of_decoded {c : Conversation L} {request : Request} {decoded : Decoded}
    (h : c.decoded request = some decoded) : (c.after request).turns ≠ [] := by
  have hCase := decoded_case c request
  rw [h] at hCase
  cases hCase with
  | decoded _ hTurns => exact hTurns

/-- The text of a prepared message is the one composed for it. -/
theorem prepareSend_text {c : Conversation L} {message : Text} {assistantPrefill : Option Text}
    {options : TurnOptions} {turn : PreparedTurn L}
    (h : c.prepareSend message assistantPrefill options = .ok turn) :
    turn.formattedPrompt = c.userText message assistantPrefill := by
  unfold prepareSend at h
  dsimp only at h
  split at h
  · cases h
  · split at h
    · cases h
    · cases h
      rfl

/-- A message that is answered: the turn's text and the reply, with or without a prefill. -/
theorem composed_send {c : Conversation L} {message : Text} {assistantPrefill : Option Text}
    {options : TurnOptions} {decoded : Decoded} {result : GenerationResult}
    (hDecoded : c.decoded (.send message assistantPrefill options) = some decoded)
    (hCall : (c.call (.send message assistantPrefill options)).1 = .ok result) :
    decoded.text ++ result.text.drop (assistantPrefill.getD []).length =
      c.userText message none ++ result.text := by
  obtain ⟨turn, -, -, -, s, hPrepare, -, -, -, -, hReply, -⟩ :=
    call_reply (Prod.ext hCall rfl : c.call (.send message assistantPrefill options) = (.ok result, _))
  have hPrefill : turn.assistantPrefill = assistantPrefill := prepare_assistantPrefill hPrepare
  rw [text_of_decoded hPrepare hDecoded, hReply, hPrefill, List.drop_left,
    prepareSend_text hPrepare]
  simp only [userText, Option.getD_none, List.append_nil, List.append_assoc]

/-- Results that are answered. -/
theorem composed_toolResults {c : Conversation L} {results : List Text} {options : TurnOptions}
    {spans : ToolResultSpans} (hSpans : c.toolResultSpans = some spans) {decoded : Decoded}
    (hDecoded : c.decoded (.toolResults results options) = some decoded)
    {result : GenerationResult} (hCall : (c.call (.toolResults results options)).1 = .ok result) :
    decoded.text ++ result.text = spans.render results ++ result.text := by
  obtain ⟨turn, -, -, -, -, -, hPrepare, -⟩ :=
    call_ok (Prod.ext hCall rfl : c.call (.toolResults results options) = (.ok result, _))
  rw [text_of_decoded hPrepare hDecoded, prepareToolResults_text hSpans hPrepare]

/-- A call leaves the spans the conversation was opened with. -/
theorem template_after (c : Conversation L) (request : Request) :
    (c.after request).template = c.template := congrArg Setup.template (setup_after c request)

/-- A call leaves the spans of tool results as they are. -/
theorem toolResultSpans_after (c : Conversation L) (request : Request) :
    (c.after request).toolResultSpans = c.toolResultSpans :=
  congrArg Setup.toolResultSpans (setup_after c request)

/-- With these spans, a conversation that has not spoken yet opens the dialogue: its
opening carries the system text and the tools, none of it folded into the first message. -/
structure OpensWith (c : Conversation L) (s : TurnSpans) (d : Dialogue) : Prop where
  turns : c.turns = []
  template : c.template = s.template
  opening : c.opening = s.opening d.system d.tools
  systemForFirstTurn : c.systemForFirstTurn = none

/-- Behind the first round, what is put down is the rounds as the template writes them. -/
theorem composed_later {s : TurnSpans} {c : Conversation L} {requests : List Request}
    {rounds : List Round} {text : Text} (hTurns : c.turns ≠ []) (hTemplate : c.template = s.template)
    (hSpans : ∀ round ∈ rounds, round.content.isResults = true →
      c.toolResultSpans = some s.results)
    (h : c.composed requests = some (rounds, text)) : text = rounds.flatMap s.round := by
  induction requests generalizing c rounds text with
  | nil =>
    obtain ⟨rfl, rfl⟩ := Prod.mk.inj (Option.some.inj h)
    rfl
  | cons request requests ih =>
    obtain ⟨content, decoded, result, rounds', text', hContent, hDecoded, hCall, hRest, rfl, rfl⟩ :=
      composed_cons h
    rw [List.forall_mem_cons] at hSpans
    obtain ⟨hFirst, hLater⟩ := hSpans
    have hTemplate' := (template_after c request).trans hTemplate
    have hSpans' := toolResultSpans_after c request
    rw [ih (turns_of_decoded hDecoded) hTemplate' (by rwa [hSpans']) hRest, List.flatMap_cons]
    refine congrArg (· ++ _) ?_
    cases request with
    | send message assistantPrefill options =>
      obtain rfl := Option.some.inj hContent
      refine (composed_send hDecoded hCall).trans ?_
      rw [userText_later hTurns]
      show c.template.turnTransition ++ message ++ c.template.generationOpen ++ [] ++ result.text = _
      rw [hTemplate, List.append_nil]
      rfl
    | toolResults results options =>
      cases results with
      | nil => cases hContent
      | cons first rest =>
        obtain rfl := Option.some.inj hContent
        exact composed_toolResults (hFirst rfl) hDecoded hCall

/-- What is composed is what the spans write for the dialogue. -/
theorem composed_eq_write {s : TurnSpans} {c : Conversation L} {d : Dialogue}
    {requests : List Request} {text : Text} (hOpens : c.OpensWith s d)
    (hSpans : ∀ round ∈ d.later, round.content.isResults = true →
      c.toolResultSpans = some s.results)
    (h : c.composed requests = some (d.rounds, text)) : text = s.write d := by
  obtain ⟨hTurns, hTemplate, hOpening, hSystem⟩ := hOpens
  match requests with
  | [] => cases h
  | request :: requests =>
    obtain ⟨content, decoded, result, rounds', text', hContent, hDecoded, hCall, hRest, hRounds,
      rfl⟩ := composed_cons h
    obtain ⟨hRound, rfl⟩ := List.cons.inj hRounds
    obtain ⟨hMessage, hReply⟩ := Round.mk.inj hRound
    have hTemplate' := (template_after c request).trans hTemplate
    have hSpans' := toolResultSpans_after c request
    rw [composed_later (turns_of_decoded hDecoded) hTemplate' (by rwa [hSpans']) hRest,
      TurnSpans.write]
    refine congrArg (· ++ _) ?_
    -- the first round is a message, so the call that made it was a message
    cases request with
    | send message assistantPrefill options =>
      obtain rfl : d.message = message :=
        TurnContent.message.inj (hMessage.trans (Option.some.inj hContent).symm)
      refine (composed_send hDecoded hCall).trans ?_
      rw [userText_first hTurns, hReply]
      show c.opening ++ ((c.systemForFirstTurn.map (· ++ "\n\n".toList)).getD [] ++ d.message) ++
        c.template.generationOpen ++ [] ++ result.text = _
      rw [hOpening, hSystem, hTemplate, List.append_nil]
      rfl
    | toolResults results options =>
      cases results with
      | nil => cases hContent
      | cons first rest => cases hMessage.trans (Option.some.inj hContent).symm

end Conversation

/-- **Composing is rendering.** From a template that renders turn by turn the probes
recover its very spans, and the opening of any system text and tools that do not hold the
user's sentinel. A conversation that opens a dialogue with them, and holds the spans of
tool results when there are any, then puts down what the template renders for the dialogue,
up to its last reply. -/
theorem composed_eq_rendered (L : Llama) (templateText : Text) (s : TurnSpans)
    (hUniform : TurnUniform L.probeRenderer templateText s) (hFree : s.Unmarked) :
    deriveConversationTemplate L templateText = .ok (some s.template) ∧
    ToolResultSpans.derive templateText L.probeRenderer = some s.results ∧
    (∀ system tools, ¬ USER <:+: s.opening system tools →
      renderOpening templateText system tools L.probeRenderer = some (s.opening system tools)) ∧
    ∀ (c : Conversation L) (d : Dialogue) (requests : List Conversation.Request) (text : Text),
      c.OpensWith s d →
      (∀ round ∈ d.later, round.content.isResults = true → c.toolResultSpans = some s.results) →
      c.composed requests = some (d.rounds, text) →
      L.probeRenderer templateText d.messages (d.tools.map toolList) = some (text ++ s.tail) := by
  refine ⟨deriveConversationTemplate_eq hUniform hFree, deriveToolResultSpans_eq hUniform hFree,
    fun system tools => renderOpening_eq hUniform system tools, ?_⟩
  intro c d requests text hOpens hSpans hComposed
  rw [hUniform.dialogue d, Conversation.composed_eq_write hOpens hSpans hComposed]

/-! ## A template that renders turn by turn -/

namespace Script

/-- A line of the scripted template. -/
def chatLine (message : Json) : Text :=
  let field (key : String) : Text := ((message.get key.toList).bind Json.asStr).getD []
  '<' :: field "role" ++ '>' :: field "content" ++ ['\n']

/-- What it writes for the tools. -/
def chatTools (tools : Option Json) : Text :=
  (Script.renderJson [] (.array []) tools false).getD []

/-- A line break, and what the next line opens with. -/
def chatOpen (role : String) : Text := '\n' :: '<' :: (role.toList ++ ['>'])

def chatSpans : TurnSpans where
  opening system tools :=
    chatTools (tools.map toolList) ++ (systemMessages system).flatMap chatLine ++
      (chatOpen "user").tail
  generationOpen := chatOpen "assistant"
  turnTransition := chatOpen "user"
  results := {
    open_ := chatOpen "tool"
    separator := chatOpen "tool"
    close := chatOpen "assistant" }
  tail := ['\n']

/-- The chat template renders its messages one behind the other. -/
theorem renderJson_eq (script : Script) (templateText : Text) (messages : List Json)
    (tools : Option Json) :
    (Llama.scripted script).probeRenderer templateText (.array messages) tools =
      some (chatTools tools ++ messages.flatMap chatLine) := by
  show some (_ ++ messages.flatMap chatLine) = some (_ ++ [] ++ messages.flatMap chatLine)
  rw [List.append_nil]

/-- A message is its role's opening, its content and a line break. -/
theorem chatLine_message (role : String) (content : Text) :
    chatLine (message role content) = (chatOpen role).tail ++ (content ++ ['\n']) := by
  have hLine : chatLine (message role content) =
      '<' :: role.toList ++ '>' :: content ++ ['\n'] := rfl
  rw [hLine]
  simp [chatOpen]

/-- The opening of a line begins with the break that ends the last one. -/
theorem chatOpen_eq (role : String) : '\n' :: (chatOpen role).tail = chatOpen role := rfl

/-- Behind a line break, the lines of a batch of results are the batch in its spans. -/
theorem chatLine_results (first : Text) (rest : List Text) :
    '\n' :: ((first :: rest).map (message "tool")).flatMap chatLine =
      chatOpen "tool" ++ (Text.join (chatOpen "tool") (first :: rest) ++ ['\n']) := by
  induction rest generalizing first with
  | nil =>
    rw [List.map_cons, List.flatMap_cons, chatLine_message, ← List.cons_append, ← List.cons_append,
      chatOpen_eq]
    simp [Text.join]
  | cons second rest ih =>
    have hJoin : Text.join (chatOpen "tool") (first :: second :: rest) =
        first ++ chatOpen "tool" ++ Text.join (chatOpen "tool") (second :: rest) := rfl
    rw [List.map_cons, List.flatMap_cons, chatLine_message, ← List.cons_append, ← List.cons_append,
      chatOpen_eq, hJoin]
    simp only [List.append_assoc, List.singleton_append]
    rw [ih]

/-- A user's content up to where the reply begins. -/
theorem chatLine_content (content : TurnContent) :
    '\n' :: content.messages.flatMap chatLine ++ (chatOpen "assistant").tail =
      chatSpans.turn content := by
  cases content with
  | message content =>
    show '\n' :: (chatLine (message "user" content) ++ []) ++ _ = _
    rw [List.append_nil, chatLine_message, ← List.cons_append, chatOpen_eq]
    simp only [List.append_assoc, List.singleton_append, chatOpen_eq]
    exact (List.append_assoc _ _ _).symm
  | results first rest =>
    show '\n' :: ((first :: rest).map (message "tool")).flatMap chatLine ++ _ = _
    rw [chatLine_results]
    simp only [List.append_assoc, List.singleton_append, chatOpen_eq]
    exact (List.append_assoc _ _ _).symm

/-- A round, with the break that ends it. -/
theorem chatLine_round (round : Round) :
    '\n' :: round.messages.flatMap chatLine = chatSpans.round round ++ ['\n'] := by
  rw [Round.messages, List.flatMap_append, List.flatMap_cons, chatLine_message,
    TurnSpans.round, ← chatLine_content]
  simp

/-- All of them. -/
theorem chatLine_rounds (rounds : List Round) :
    '\n' :: (rounds.flatMap Round.messages).flatMap chatLine =
      rounds.flatMap chatSpans.round ++ ['\n'] := by
  induction rounds with
  | nil => rfl
  | cons round rounds ih =>
    rw [List.flatMap_cons, List.flatMap_append, List.flatMap_cons, List.append_assoc, ← ih,
      ← List.cons_append, chatLine_round, List.append_assoc]
    rfl

/-- So the template is uniform, with the chat's spans. -/
theorem chatUniform (script : Script) (templateText : Text) :
    TurnUniform (Llama.scripted script).probeRenderer templateText chatSpans where
  dialogue d := by
    have hMessages : d.rounds.flatMap Round.messages = message "user" d.message ::
        message "assistant" d.reply :: d.later.flatMap Round.messages := rfl
    rw [Dialogue.messages, renderJson_eq, List.flatMap_append, hMessages, List.flatMap_cons,
      List.flatMap_cons, chatLine_message, chatLine_message]
    simp only [List.append_assoc, List.singleton_append]
    rw [chatLine_rounds, ← List.cons_append, chatOpen_eq]
    simp only [TurnSpans.write, chatSpans, List.append_assoc]
  unanswered system tools content := by
    refine ⟨['\n'], ?_⟩
    rw [renderJson_eq, List.flatMap_append, List.flatMap_cons, chatLine_message]
    simp only [chatSpans, List.append_assoc, List.flatMap_nil, List.append_nil]

/-- None of which has a mark in it. -/
theorem chatSpans_unmarked : chatSpans.Unmarked := ⟨by decide, by decide⟩

/-- A model that says `a` up to every third token. -/
def talkative : Script :=
  ⟨fun cells => if cells % 3 = 0 then eog else tokenOf 'a', fun _ => false⟩

/-- A conversation with it, in a context of 4096 tokens. -/
def talk (tools : List ToolSpec) : Outcome (Conversation (Llama.scripted talkative)) :=
  session.openConversation _ (options 4096 (some "Be brief.".toList) tools)

/-- The one opened with a tool. -/
def tooled : Conversation (Llama.scripted talkative) := (talk [readTool]).get (by decide)

/-- The one opened without. -/
def untooled : Conversation (Llama.scripted talkative) := (talk []).get (by decide)

/-- A message, two tool results, and another message. -/
def requests : List Conversation.Request :=
  [say "hi" 4, .toolResults ["x".toList, "y".toList] (turnOptions 4), say "bye" 4]

/-- The dialogue they make, when the model replies to the first one with `reply`. -/
def dialogue (tools : Option (List ToolSpec)) (reply : String) : Dialogue where
  system := some "Be brief.".toList
  tools := tools
  message := "hi".toList
  reply := reply.toList
  later := [⟨.results "x".toList ["y".toList], "aa".toList⟩, ⟨.message "bye".toList, "aa".toList⟩]

end Script

open Script in

/-- The whole dialogue as the template renders it. -/
theorem tooled_composed :
    (Llama.scripted talkative).probeRenderer "chat".toList (dialogue [readTool] "aa").messages
        (some (toolList [readTool])) =
      some ("read<system>Be brief.\n<user>hi\n<assistant>aa\n<tool>x\n<tool>y".toList ++
        "\n<assistant>aa\n<user>bye\n<assistant>aa".toList ++ chatSpans.tail) := by
  have hOpen : talk [readTool] = .ok tooled := Outcome.eq_ok_get _ _
  refine (composed_eq_rendered (Llama.scripted talkative) "chat".toList chatSpans
    (chatUniform _ _) chatSpans_unmarked).2.2.2 tooled (dialogue [readTool] "aa") requests _
      ⟨(Conversation.openConversation_ok hOpen).1, ?_, ?_, ?_⟩ ?_ ?_
  · decide
  · decide
  · decide
  · decide
  · decide

open Script in
/-- Opened without tools, the same dialogue has its tool results put down as a message. -/
theorem untooled_differs :
    TurnUniform (Llama.scripted talkative).probeRenderer "chat".toList chatSpans ∧
    chatSpans.Unmarked ∧
    ∃ c, talk [] = .ok c ∧ c.OpensWith chatSpans (dialogue none "") ∧
      ∃ text, c.composed requests = some ((dialogue none "").rounds, text) ∧
        (Llama.scripted talkative).probeRenderer "chat".toList (dialogue none "").messages none ≠
          some (text ++ chatSpans.tail) := by
  have hOpen : talk [] = .ok untooled := Outcome.eq_ok_get _ _
  refine ⟨chatUniform _ _, chatSpans_unmarked, _, hOpen,
    ⟨(Conversation.openConversation_ok hOpen).1, by decide, by decide,
      by decide⟩,
    "<system>Be brief.\n<user>hi\n<assistant>\n<user>x\ny".toList ++
      "\n<assistant>aa\n<user>bye\n<assistant>aa".toList,
    by decide, by decide⟩

end Rampipe
