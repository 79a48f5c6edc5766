import Rampipe.Results.Opening

/-!
# Rampipe — saving and reopening

A reopened conversation takes its turns, tokens and cells from the two files,
its context size from the sidecar, and works out its template and tool surface
again. It keeps no opening and no system text, since both lie in the cache
already; but a conversation that has no turn recorded was still going to send
them.

* `reachable_founded`      — what template, tools and context size go back to.
* `reopened_transparent_iff` — the next message goes out as it would have exactly
  when a turn is recorded or there was nothing to open with, and the saved tokens
  are as many as the position says.
-/

namespace Rampipe

variable {L : Llama}

namespace Conversation

/-! ## Where the setup comes from -/

/-- A context reports the size, and the tool surface is what template and tools give. -/
structure Founded (L : Llama) (s : Setup) : Prop where
  sized : ∃ params ctx, L.newContext params = .ok ctx ∧ s.nCtx = i32 (L.nCtx ctx)
  derived : ∃ templateText, LlamaSession.conversationTemplate L = .ok (templateText, s.template) ∧
    ∃ system opening systemForFirstTurn,
      prepareTools L templateText s.template system s.tools s.configuredToolFormat =
        { opening, systemForFirstTurn, toolFormat := s.toolFormat
          toolResultSpans := s.toolResultSpans, capabilities := s.capabilities }

/-- A conversation just opened is founded on its template. -/
theorem Opened.founded {c : Conversation L} (h : c.Opened) : Founded L c.setup := by
  obtain ⟨session, options, hOpen⟩ := h
  obtain ⟨-, -, -, -, ⟨params, hCtx, hSize⟩, templateText, hTemplate, system, hTools⟩ :=
    openConversation_ok hOpen
  exact ⟨⟨params, c.ctx, hCtx, hSize⟩, templateText, hTemplate, system, _, _, hTools⟩

/-- So is one that was reopened. -/
theorem reopened_founded {session : LlamaSession} {snapshot : Snapshot L} {c : Conversation L}
    (h : session.openConversationFromState snapshot = .ok c) : Founded L c.setup := by
  obtain ⟨-, -, -, -, -, -, -, -, -, -, ⟨fresh, params, hFresh, -, hSize, -⟩, templateText,
    hTemplate, opening, systemForFirstTurn, hTools⟩ := openConversationFromState_ok h
  exact ⟨⟨params, fresh, hFresh, hSize⟩, templateText, hTemplate, none, _, _, hTools⟩

/-- No event moves the foundations. -/
theorem Founded.step {c : Conversation L} (h : Founded L c.setup) (event : Event) :
    Founded L (c.step event).setup := by
  cases event with
  | request request =>
    rw [Conversation.step, setup_after]
    exact h
  | hibernate session =>
    rw [Conversation.step]
    split
    · split
      · rename_i c' hOpen
        exact reopened_founded hOpen
      · exact h
    · exact h

/-- So every conversation that was ever opened is founded. -/
theorem reachable_founded {c : Conversation L} (h : c.Reachable) : Founded L c.setup := by
  obtain ⟨c0, hOpened, hRun⟩ := h
  exact hRun.induction (fun c => Founded L c.setup) hOpened.founded fun _ event h _ => h.step event

/-- A context size survives the sidecar's `i32`. -/
theorem asU32_i32 {n : Nat} (h : n < 4294967296) : asU32 (i32 n) = n := by
  unfold asU32 i32
  omega

/-! ## The next message -/

/-- Sending to the reopened conversation is what sending to the saved one was. -/
structure Transparent (c c' : Conversation L) : Prop where
  text : ∀ message assistantPrefill,
    c'.userText message assistantPrefill = c.userText message assistantPrefill
  addBos : c'.nextOpening.2 = c.nextOpening.2
  tokens : c'.tokens = c.tokens
  cells : L.cells c'.ctx = L.cells c.ctx
  turns : c'.turns = c.turns
  committedPos : c'.committedPos = c.committedPos
  nCtx : c'.nCtx = c.nCtx
  overflow : c'.overflow = c.overflow
  toolFormat : c'.toolFormat = c.toolFormat
  toolResultSpans : c'.toolResultSpans = c.toolResultSpans

/-- There is nothing left to open with. -/
def OpeningSpent (c : Conversation L) : Prop :=
  c.turns ≠ [] ∨ c.opening = [] ∧ c.systemForFirstTurn = none

/-- A first message is composed like a later one exactly when there is nothing to put in front
of it. -/
theorem firstText_eq_iff {s : Setup} :
    (∀ message assistantPrefill, message ++ s.template.generationOpen ++ assistantPrefill.getD [] =
      s.firstText message assistantPrefill) ↔ s.opening = [] ∧ s.systemForFirstTurn = none := by
  constructor
  · intro h
    -- an empty message shows the whole of what stands before it
    have hEmpty := congrArg List.length (h [] none)
    cases hSystem : s.systemForFirstTurn with
    | none =>
      simp only [Setup.firstText, hSystem, List.length_append, List.length_nil, Option.map_none,
        Option.getD_none] at hEmpty
      exact ⟨List.length_eq_zero_iff.mp (by omega), rfl⟩
    -- a folded system text leaves at least its blank line
    | some system =>
      have hBreak : "\n\n".toList.length = 2 := rfl
      simp only [Setup.firstText, hSystem, List.length_append, List.length_nil, Option.map_some,
        Option.getD_some, Option.getD_none, hBreak] at hEmpty
      omega
  · rintro ⟨hOpening, hSystem⟩ message assistantPrefill
    simp [Setup.firstText, hOpening, hSystem]

/-- **Hibernation, exactly.** For a conversation a host can hold, reopening is
transparent to the next message if and only if its opening is spent and its
tokens are as many as its position says. -/
theorem reopened_transparent_iff (hL : L.Lawful) {c c' : Conversation L} (hReachable : c.Reachable)
    {session : LlamaSession} {snapshot : Snapshot L} (hSave : c.saveState = .ok snapshot)
    (hOpen : session.openConversationFromState snapshot = .ok c') :
    Transparent c c' ↔ c.OpeningSpent ∧ (c.tokens.length : Int) = c.committedPos := by
  obtain ⟨hFile, hSidecar⟩ := saveState_ok hSave
  obtain ⟨-, -, hTurns, hOverflow, hToolList, hConfigured, hCommitted, hOpening, -, hSystem,
    ⟨fresh, params, hFresh, hAsked, hSize, hLoad⟩, templateText, hTemplate, opening,
    systemForFirstTurn, hTools⟩ := openConversationFromState_ok hOpen
  obtain ⟨⟨params0, ctx0, hCtx0, hSize0⟩, templateText0, hTemplate0, system0, opening0,
    systemForFirstTurn0, hTools0⟩ := reachable_founded hReachable
  obtain ⟨hTokens, hCells⟩ := hL.stateLoadFile_ok hFile hLoad
  rw [hSidecar] at hTurns hOverflow hToolList hConfigured hAsked
  dsimp only at hTurns hOverflow hToolList hConfigured hAsked
  simp only [setup] at hSize0 hTemplate0 hTools0
  -- the template and the tool surface are derived from the same texts
  rw [hTemplate0] at hTemplate
  obtain ⟨hText, hSame⟩ := Prod.mk.inj (Outcome.ok.inj hTemplate)
  obtain ⟨hFormat, hSpans, -⟩ :=
    prepareTools_system L templateText c'.template none system0 c'.tools c'.configuredToolFormat
  rw [hTools] at hFormat hSpans
  rw [hToolList, hConfigured, ← hSame, ← hText, hTools0] at hFormat hSpans
  -- the size asked for is the size the first context reported
  have hReported : c'.nCtx = c.nCtx := by
    have hPos := hL.nCtx_pos ctx0
    have hAgain : params.nCtx = some (L.nCtx ctx0) := by
      rw [hAsked, hSize0, asU32_i32 (hL.nCtx_lt ctx0), nonZeroU32, if_neg (by omega)]
    rw [hSize, hSize0, hL.nCtx_again hCtx0 hAgain hFresh]
  -- the reopened conversation renders a first turn without opening or system text
  have hTextIff : (∀ message assistantPrefill,
      c'.userText message assistantPrefill = c.userText message assistantPrefill) ↔
        c.OpeningSpent := by
    by_cases hNone : c.turns = []
    · have hNone' : c'.turns = [] := hTurns.trans hNone
      have hFirst : ∀ message assistantPrefill, c'.setup.firstText message assistantPrefill =
          message ++ c.setup.template.generationOpen ++ assistantPrefill.getD [] := by
        intro message assistantPrefill
        simp [Setup.firstText, setup, hOpening, hSystem, hSame]
      simp only [userText_first hNone, userText_first hNone', hFirst, OpeningSpent, hNone, ne_eq,
        not_true_eq_false, false_or]
      exact firstText_eq_iff
    · have hSome' : c'.turns ≠ [] := by rwa [hTurns]
      simp only [userText_later hNone, userText_later hSome', Setup.laterText, setup, hSame,
        OpeningSpent, ne_eq, hNone, not_false_eq_true, true_or, implies_true]
  constructor
  · -- the position is recounted from the tokens, so it must have been their number
    intro h
    refine ⟨hTextIff.mp h.text, ?_⟩
    rw [← h.committedPos, hCommitted, hTokens]
  · rintro ⟨hSpent, hLength⟩
    refine ⟨hTextIff.mpr hSpent, ?_, hTokens, hCells, hTurns, ?_, hReported, hOverflow, hFormat,
      hSpans⟩
    · simp only [nextOpening, hTurns]
      split <;> rfl
    · rw [hCommitted, hTokens, hLength]

/-- The greeted conversation saves. -/
theorem greeted_saves : greeted.saveState.isOk = true := by decide

/-- And its snapshot reopens. -/
theorem greeted_reopens : (Script.session.openConversationFromState
    (greeted.saveState.get greeted_saves)).isOk = true := by decide

/-- After one exchange the next message goes out as it would have. -/
theorem greeted_transparent : Transparent greeted
    ((Script.session.openConversationFromState (greeted.saveState.get greeted_saves)).get
      greeted_reopens) :=
  (reopened_transparent_iff (Llama.scripted_lawful _) greeted_reachable (Outcome.eq_ok_get _ _)
    (Outcome.eq_ok_get _ _)).mpr ⟨.inl (by decide), by decide⟩

/-- One without a turn saves too. -/
theorem fresh_saves : fresh.saveState.isOk = true := by decide

/-- And so does its snapshot reopen. -/
theorem fresh_reopens : (Script.session.openConversationFromState
    (fresh.saveState.get fresh_saves)).isOk = true := by decide

/-- Saved before its first turn, a conversation forgets its opening. -/
theorem reopened_forgets_opening :
    ¬ ∀ (L : Llama), L.Lawful → ∀ (c c' : Conversation L) (session : LlamaSession)
      (snapshot : Snapshot L), c.Reachable → c.saveState = .ok snapshot →
      session.openConversationFromState snapshot = .ok c' → Transparent c c' := by
  intro h
  have hText := (h _ (Llama.scripted_lawful _) fresh _ Script.session _ ⟨_, fresh_opened, .start⟩
    (Outcome.eq_ok_get _ fresh_saves) (Outcome.eq_ok_get _ fresh_reopens)).text "hi".toList none
  have hDiffers : ((Script.session.openConversationFromState
      (fresh.saveState.get fresh_saves)).get fresh_reopens).userText "hi".toList none ≠
        fresh.userText "hi".toList none := by decide
  exact hDiffers hText

end Conversation

end Rampipe
