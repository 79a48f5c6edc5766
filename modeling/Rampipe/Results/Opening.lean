import Rampipe.Results.Room

/-!
# Rampipe — the opening is decoded once

The opening, with its BOS and the folded system text, belongs to the first turn
only, and a conversation takes the next turn to be its first when no turn is
recorded. Evictions can bring that about again: a call that evicts every turn
and is then refused, or fails in its prefill, leaves a conversation that opens a
second time.

* `decoded`            — what a call puts into the token sequence, if anything.
* `openedOnce_step_iff` — a call keeps the opening unique exactly when it does not
  empty the turns, and is no tool result that comes first.
* `run_openedOnce`     — over whole runs.
-/

namespace Rampipe

variable {L : Llama}

namespace Conversation

/-! ## What turns are rendered as -/

/-- The text of a first turn. -/
def Setup.firstText (s : Setup) (message : Text) (assistantPrefill : Option Text) : Text :=
  s.opening ++ ((s.systemForFirstTurn.map (· ++ "\n\n".toList)).getD [] ++ message) ++
    s.template.generationOpen ++ assistantPrefill.getD []

/-- The text of any later message. -/
def Setup.laterText (s : Setup) (message : Text) (assistantPrefill : Option Text) : Text :=
  s.template.turnTransition ++ message ++ s.template.generationOpen ++ assistantPrefill.getD []

/-- Before any turn the opening comes first. -/
theorem nextOpening_first {c : Conversation L} (h : c.turns = []) :
    c.nextOpening = (c.opening, .always) := by
  simp [nextOpening, h]

/-- Behind one a transition does. -/
theorem nextOpening_later {c : Conversation L} (h : c.turns ≠ []) :
    c.nextOpening = (c.template.turnTransition, .never) := by
  simp [nextOpening, h]

/-- So does the text of a first message. -/
theorem userText_first {c : Conversation L} (h : c.turns = []) (message : Text)
    (assistantPrefill : Option Text) :
    c.userText message assistantPrefill = c.setup.firstText message assistantPrefill := by
  simp only [userText, nextOpening_first h, foldSystem, h, List.isEmpty_nil, Setup.firstText, setup]
  cases c.systemForFirstTurn <;> rfl

/-- And that of a later one. -/
theorem userText_later {c : Conversation L} (h : c.turns ≠ []) (message : Text)
    (assistantPrefill : Option Text) :
    c.userText message assistantPrefill = c.setup.laterText message assistantPrefill := by
  have hEmpty : c.turns.isEmpty = false := by simpa using h
  simp only [userText, nextOpening_later h, foldSystem, hEmpty, Setup.laterText, setup]
  cases c.systemForFirstTurn <;> rfl

/-- A turn's text, its tokens and whether they begin with a BOS, and the token
sequence they were put behind. -/
structure Decoded where
  text : Text
  addBos : AddBos
  tokens : List LlamaToken
  before : List LlamaToken

/-- What a call puts into the token sequence; `none` when it fails before that. -/
def decoded (c : Conversation L) (request : Request) : Option Decoded :=
  match c.prepare request with
  | .error _ => none
  | .ok turn =>
    match turn.conversation.ensureRoomFor turn.needed with
    | (.ok (), c1) =>
      match c1.prefillUser turn.tokens with
      | (.ok _, _) => some {
          text := turn.formattedPrompt
          addBos := if c.native request then .never else c.nextOpening.2
          tokens := turn.tokens
          before := c1.tokens }
      | _ => none
    | _ => none

/-- The turns that are left when the room check is through. -/
def turnsWithRoom (c : Conversation L) (request : Request) : List TurnBoundary :=
  match c.prepare request with
  | .error _ => c.turns
  | .ok turn => (turn.conversation.ensureRoomFor turn.needed).2.turns

/-- With fewer than two turns the room check changes nothing. -/
theorem ensureRoomFor_few {c : Conversation L} {needed : Int} (hFew : c.turns.length < 2) :
    (c.ensureRoomFor needed).2 = c := by
  unfold ensureRoomFor
  split
  · rfl
  split
  · rfl
  -- the loop leaves where it starts, and its first turn finds too few turns
  obtain ⟨s, hVisits, hLeave⟩ := dropOldestTurnsFor_leaves c needed
  obtain rfl := visits_few hFew hVisits
  have hCase := dropTurn_case needed c 0
  rw [hLeave] at hCase
  generalize c.dropOldestTurnsFor needed = result at hCase
  cases hCase with
  | fits => rfl
  | tooFew => rfl
  -- evicting takes two turns
  | inside _ hTurns =>
    rw [hTurns] at hFew
    simp only [List.length_cons] at hFew
    omega
  | stuck _ hTurns =>
    rw [hTurns] at hFew
    simp only [List.length_cons] at hFew
    omega

/-- The ways a call can come out, as far as the token sequence goes. -/
inductive DecodedCase (c : Conversation L) (request : Request) :
    Option Decoded → Conversation L → Prop
  | unprepared {e : LlamaSessionError} (hPrepare : c.prepare request = .error e) :
      DecodedCase c request none c
  | stopped {turn : PreparedTurn L} {c' : Conversation L}
      (hPrepare : c.prepare request = .ok turn)
      (hTurns : c'.turns = (turn.conversation.ensureRoomFor turn.needed).2.turns)
      (hTokens : c'.tokens = (turn.conversation.ensureRoomFor turn.needed).2.tokens) :
      DecodedCase c request none c'
  | decoded {turn : PreparedTurn L} {c' : Conversation L}
      (hPrepare : c.prepare request = .ok turn) (hTurns : c'.turns ≠ []) :
      DecodedCase c request (some
        { text := turn.formattedPrompt
          addBos := if c.native request then .never else c.nextOpening.2
          tokens := turn.tokens
          before := (turn.conversation.ensureRoomFor turn.needed).2.tokens }) c'

/-- A prefill that goes through records the user turn. -/
theorem prefillUser_turns {c c2 : Conversation L} {tokens : List LlamaToken} {batch : L.Batch}
    (h : c.prefillUser tokens = (.ok batch, c2)) : c2.turns ≠ [] := by
  rcases prefillUser_case c tokens with ⟨_, _, -, hEq⟩ | ⟨_, _, _, -, hEq⟩
  · rw [h] at hEq
    cases hEq
  · rw [h] at hEq
    cases hEq
    simp [recordTurn]

/-- A generation, however it ends, leaves the recorded turns where they are. -/
theorem generateAssistant_turns {c c3 : Conversation L} {options : TurnOptions} {batch : L.Batch}
    {o : Outcome (Text × List LlamaToken)} (h : c.generateAssistant options batch = (o, c3))
    (hTurns : c.turns ≠ []) : c3.turns ≠ [] := by
  rcases generateAssistant_case c options batch with ⟨_, _, -, hEq⟩ | ⟨_, -, hEq⟩
  · rw [h] at hEq
    cases hEq
    exact hTurns
  · rw [h] at hEq
    cases hEq
    simp [recordTurn]

/-- What a call decodes is one of the things that `DecodedCase` lists. -/
theorem decoded_case (c : Conversation L) (request : Request) :
    DecodedCase c request (c.decoded request) (c.after request) := by
  unfold Conversation.decoded
  rw [after, call_eq]
  cases hPrepare : c.prepare request with
  | error e => exact .unprepared hPrepare
  | ok turn =>
    have hCase := run_case turn
    rw [runPrepared]
    dsimp only
    -- the same phases decide both what is decoded and what is left
    generalize turn.run = result at hCase ⊢
    cases hCase with
    | refused hRoom =>
      rw [hRoom]
      exact .stopped hPrepare (by rw [hRoom]) (by rw [hRoom])
    | broken hRoom hBroken =>
      rw [hRoom]
      rcases hBroken with ⟨rfl, rfl⟩ | ⟨rfl, rfl⟩ <;>
        exact .stopped hPrepare (by rw [hRoom]) (by rw [hRoom])
    | @prefillFails e c1 c2 hRoom hPrefill =>
      rw [hRoom]
      dsimp only
      rw [hPrefill]
      rcases prefillUser_case c1 turn.tokens with ⟨_, _, -, hEq⟩ | ⟨_, _, _, -, hEq⟩ <;>
        rw [hPrefill] at hEq <;> cases hEq
      exact .stopped hPrepare (by rw [hRoom]) (by rw [hRoom])
    | @generationFails e c1 c2 c3 batch hRoom hPrefill hGenerate =>
      have hBefore : c1.tokens = (turn.conversation.ensureRoomFor turn.needed).2.tokens := by
        rw [hRoom]
      rw [hRoom]
      dsimp only
      rw [hPrefill]
      dsimp only
      rw [hBefore]
      exact .decoded hPrepare (generateAssistant_turns hGenerate (prefillUser_turns hPrefill))
    | @replied c1 c2 c3 batch text generated hRoom hPrefill hGenerate =>
      have hBefore : c1.tokens = (turn.conversation.ensureRoomFor turn.needed).2.tokens := by
        rw [hRoom]
      rw [hRoom]
      dsimp only
      rw [hPrefill]
      dsimp only
      rw [hBefore]
      exact .decoded hPrepare (generateAssistant_turns hGenerate (prefillUser_turns hPrefill))

/-! ## One opening -/

/-- A turn rendered behind the opening, at the very front of the token sequence. -/
structure Setup.RenderedFirst (L : Llama) (s : Setup) (turn : Decoded) : Prop where
  front : turn.before = []
  addBos : turn.addBos = .always
  text : ∃ message assistantPrefill, turn.text = s.firstText message assistantPrefill
  tokens : L.strToToken turn.text .always = .ok turn.tokens

/-- A turn rendered behind the turn transition, or in the template's result markers. -/
structure Setup.RenderedLater (L : Llama) (s : Setup) (turn : Decoded) : Prop where
  addBos : turn.addBos = .never
  text : (∃ message assistantPrefill, turn.text = s.laterText message assistantPrefill) ∨
    ∃ spans results, s.toolResultSpans = some spans ∧ turn.text = spans.render results
  tokens : L.strToToken turn.text .never = .ok turn.tokens

/-- Of the turns decoded so far the first and no other brought the opening, and
the next one will not either. -/
def OpenedOnce (c : Conversation L) (log : List Decoded) : Prop :=
  log ≠ [] →
    (∃ first rest, log = first :: rest ∧ c.setup.RenderedFirst L first ∧
      ∀ later ∈ rest, c.setup.RenderedLater L later) ∧
    c.nextOpening = (c.template.turnTransition, .never)

/-- While nothing has been decoded, nothing is recorded. -/
def Untouched (c : Conversation L) (log : List Decoded) : Prop :=
  log = [] → c.turns = [] ∧ c.tokens = []

/-- The condition, for one call: tool results in the template's own markers are
decoded behind a recorded turn only, and a call that evicts every recorded turn
decodes its own. -/
def KeepsOpening (c : Conversation L) (request : Request) : Prop :=
  (c.native request = true → (c.decoded request).isSome → c.turns ≠ []) ∧
    (c.turns ≠ [] → c.turnsWithRoom request = [] → (c.decoded request).isSome)

instance (c : Conversation L) (request : Request) : Decidable (c.KeepsOpening request) :=
  inferInstanceAs (Decidable (_ ∧ _))

/-- Preparing a turn touches neither the turns nor the tokens. -/
theorem prepare_frame {c : Conversation L} {request : Request} {turn : PreparedTurn L}
    (h : c.prepare request = .ok turn) :
    turn.conversation.turns = c.turns ∧ turn.conversation.tokens = c.tokens := by
  cases prepare_ok h with
  | message _ _ hProtect =>
    rcases protectOpening_ok hProtect with rfl | ⟨-, -, _, -, -, rfl⟩ <;> exact ⟨rfl, rfl⟩
  | results => exact ⟨rfl, rfl⟩

/-- On a conversation without turns the room check has nothing to change. -/
theorem room_untouched {c : Conversation L} {request : Request} {turn : PreparedTurn L}
    (h : c.prepare request = .ok turn) (hTurns : c.turns = []) :
    (turn.conversation.ensureRoomFor turn.needed).2.turns = [] ∧
      (turn.conversation.ensureRoomFor turn.needed).2.tokens = c.tokens := by
  obtain ⟨hSame, hTokens⟩ := prepare_frame h
  rw [ensureRoomFor_few (by rw [hSame, hTurns]; decide)]
  exact ⟨hSame.trans hTurns, hTokens⟩

/-- A first message is rendered behind the opening. -/
theorem renderedFirst {c : Conversation L} {request : Request} {turn : PreparedTurn L}
    (h : c.prepare request = .ok turn) (hTurns : c.turns = []) (hTokens : c.tokens = [])
    (hMessage : c.native request = false) :
    c.setup.RenderedFirst L
      { text := turn.formattedPrompt
        addBos := if c.native request then .never else c.nextOpening.2
        tokens := turn.tokens
        before := (turn.conversation.ensureRoomFor turn.needed).2.tokens } := by
  obtain ⟨-, hBefore⟩ := room_untouched h hTurns
  cases prepare_ok h with
  | message _ hRendered _ =>
    rw [nextOpening_first hTurns] at hRendered
    refine ⟨hBefore.trans hTokens, ?_, ⟨_, _, userText_first hTurns _ _⟩, hRendered⟩
    simp [hMessage, nextOpening_first hTurns]
  | results _ hNative _ =>
    rw [hMessage] at hNative
    cases hNative

/-- A turn behind a recorded one is not. -/
theorem renderedLater {c : Conversation L} {request : Request} {turn : PreparedTurn L}
    (h : c.prepare request = .ok turn) (hTurns : c.turns ≠ []) (before : List LlamaToken) :
    c.setup.RenderedLater L
      { text := turn.formattedPrompt
        addBos := if c.native request then .never else c.nextOpening.2
        tokens := turn.tokens
        before } := by
  cases prepare_ok h with
  | message hMessage hRendered _ =>
    rw [nextOpening_later hTurns] at hRendered
    refine ⟨?_, .inl ⟨_, _, userText_later hTurns _ _⟩, hRendered⟩
    simp [hMessage, nextOpening_later hTurns]
  | results hSpans hNative hRendered =>
    exact ⟨by simp [hNative], .inr ⟨_, _, hSpans, rfl⟩, hRendered⟩

/-- A transition comes first exactly when there is a turn. -/
theorem nextOpening_later_iff (c : Conversation L) :
    c.nextOpening = (c.template.turnTransition, .never) ↔ c.turns ≠ [] := by
  constructor
  · intro h hTurns
    rw [nextOpening_first hTurns] at h
    cases congrArg Prod.snd h
  · exact nextOpening_later

/-! ## Runs -/

/-- A call, with the log of what was decoded so far. -/
def recordDecoded (s : Conversation L × List Decoded) (request : Request) :
    Conversation L × List Decoded :=
  (s.1.after request, s.2 ++ (s.1.decoded request).toList)

/-- The calls a run is made of: those made under a condition. -/
def DecodedWhen (P : Conversation L → Request → Prop) (s : Conversation L × List Decoded)
    (request : Request) : Prop := P s.1 request

/-- A run goes on with a call. -/
theorem reaches_decoded {P : Conversation L → Request → Prop} {s : Conversation L × List Decoded}
    {c : Conversation L} {log : List Decoded} (h : Reaches recordDecoded (DecodedWhen P) s (c, log))
    {request : Request} (hP : P c request) :
    Reaches recordDecoded (DecodedWhen P) s
      (c.after request, log ++ (c.decoded request).toList) := by
  have hStep : Reaches recordDecoded (DecodedWhen P) s (recordDecoded (c, log) request) :=
    .tail h hP
  exact hStep

/-- A call that decodes nothing leaves an untouched conversation so. -/
theorem Untouched.step {c : Conversation L} {log : List Decoded} (h : Untouched c log)
    (request : Request) :
    Untouched (c.after request) (log ++ (c.decoded request).toList) := by
  have hCase := decoded_case c request
  generalize c.decoded request = d at hCase ⊢
  generalize c.after request = c' at hCase ⊢
  -- an empty log says that neither this call nor one before decoded anything
  intro hLog
  obtain ⟨hNil, hNone⟩ := List.append_eq_nil_iff.mp hLog
  obtain ⟨hTurns, hTokens⟩ := h hNil
  cases hCase with
  | unprepared => exact ⟨hTurns, hTokens⟩
  | stopped hPrepare hTurns' hTokens' =>
    obtain ⟨hRoom, hSame⟩ := room_untouched hPrepare hTurns
    exact ⟨hTurns'.trans hRoom, hTokens'.trans (hSame.trans hTokens)⟩
  | decoded => cases hNone

/-- **One call, exactly.** From a state in which the opening is unique, it stays
so if and only if the call keeps it. -/
theorem openedOnce_step_iff {c : Conversation L} {log : List Decoded} (hUntouched : Untouched c log)
    (h : OpenedOnce c log) (request : Request) :
    OpenedOnce (c.after request) (log ++ (c.decoded request).toList) ↔ c.KeepsOpening request := by
  have hCase := decoded_case c request
  have hSetup := setup_after c request
  unfold KeepsOpening OpenedOnce
  rw [nextOpening_later_iff]
  generalize c.decoded request = d at hCase ⊢
  generalize c.after request = c' at hCase hSetup ⊢
  -- once something was decoded, the next opening is a transition: a turn is recorded
  have hOccupied : log ≠ [] → c.turns ≠ [] := fun hLog =>
    (nextOpening_later_iff c).mp (h hLog).2
  cases hCase with
  -- nothing decoded, nothing dropped: the condition holds, and nothing changes
  | unprepared hPrepare =>
    have hRoom : c.turnsWithRoom request = c.turns := by simp only [turnsWithRoom, hPrepare]
    simp only [Option.toList_none, List.append_nil, Option.isSome_none, Bool.false_eq_true,
      false_imp_iff, imp_true_iff, true_and, hRoom]
    exact ⟨fun _ hTurns hNil => hTurns hNil, fun _ hLog => ⟨(h hLog).1, hOccupied hLog⟩⟩
  -- nothing decoded: the evictions must leave a turn
  | stopped hPrepare hTurns _ =>
    have hRoom : c.turnsWithRoom request = c'.turns := by
      simp only [turnsWithRoom, hPrepare, hTurns]
    simp only [Option.toList_none, List.append_nil, Option.isSome_none, Bool.false_eq_true,
      false_imp_iff, imp_true_iff, true_and, hRoom, hSetup]
    constructor
    · intro hOnce hTurns hNil
      have hLog : log ≠ [] := fun hLog => hTurns (hUntouched hLog).1
      exact (hOnce hLog).2 hNil
    · exact fun hKept hLog => ⟨(h hLog).1, hKept (hOccupied hLog)⟩
  -- decoded: the first turn must be a message, later ones are rendered as later ones
  | decoded hPrepare hTurns =>
    simp only [Option.toList_some, Option.isSome_some, true_imp_iff, imp_true_iff, and_true, hSetup]
    rcases hLog : log with _ | ⟨first, rest⟩
    · obtain ⟨hNone, hTokens⟩ := hUntouched hLog
      constructor
      · intro hOnce hNative
        obtain ⟨⟨first, rest, hFirst, hRendered, -⟩, -⟩ := hOnce (by simp)
        obtain ⟨rfl, -⟩ := List.cons.inj hFirst
        -- tool results never bring a BOS
        have hBos := hRendered.addBos
        simp only [hNative, if_true, reduceCtorEq] at hBos
      · intro hKept _
        have hMessage : c.native request = false := by
          by_contra hNot
          exact hKept (by simpa using hNot) hNone
        exact ⟨⟨_, [], rfl, renderedFirst hPrepare hNone hTokens hMessage, by simp⟩, hTurns⟩
    · have hSome := hOccupied (by simp [hLog])
      refine ⟨fun _ _ => hSome, fun _ _ => ?_⟩
      obtain ⟨⟨first', rest', hSplit, hFirst, hRest⟩, -⟩ := h (by simp [hLog])
      rw [hLog] at hSplit
      obtain ⟨rfl, rfl⟩ := List.cons.inj hSplit
      refine ⟨⟨first, rest ++ [_], rfl, hFirst, fun later hLater => ?_⟩, hTurns⟩
      rcases List.mem_append.mp hLater with hOld | hNew
      · exact hRest later hOld
      · rw [List.mem_singleton.mp hNew]
        exact renderedLater hPrepare hSome _

/-- **The opening over whole runs.** In a run of calls that keep it, whatever they
return, the opening has been decoded once, at the front, as soon as anything has. -/
theorem run_openedOnce {c0 c : Conversation L} {log : List Decoded} (hOpened : c0.Opened)
    (hRun : Reaches recordDecoded (DecodedWhen KeepsOpening) (c0, []) (c, log)) :
    OpenedOnce c log := by
  obtain ⟨session, options, hOpen⟩ := hOpened
  obtain ⟨hTurns, hTokens, -⟩ := openConversation_ok hOpen
  -- `Untouched` rides along: the step lemma needs it
  refine (hRun.induction (fun s => Untouched s.1 s.2 ∧ OpenedOnce s.1 s.2)
    ⟨fun _ => ⟨hTurns, hTokens⟩, fun hNot => absurd rfl hNot⟩ ?_).2
  rintro ⟨c1, log1⟩ request ⟨hUntouched, hOnce⟩ hKeeps
  exact ⟨hUntouched.step request, (openedOnce_step_iff hUntouched hOnce request).mpr hKeeps⟩

/-- Two messages: the first one brings the opening. -/
theorem greeted_openedOnce :
    ∃ log, OpenedOnce (greeted.after (Script.say "ho" 4)) log ∧ log.length = 2 := by
  have hFirst : fresh.KeepsOpening (Script.say "hi" 4) := by decide
  have hSecond : greeted.KeepsOpening (Script.say "ho" 4) := by decide
  exact ⟨_, run_openedOnce fresh_opened
    (reaches_decoded (c := greeted) (reaches_decoded .start hFirst) hSecond), by decide⟩

/-- Past the first turn no BOS goes in. -/
theorem OpenedOnce.addBos {c : Conversation L} {log : List Decoded} (h : OpenedOnce c log) :
    ∀ addBos ∈ (log.map Decoded.addBos).tail, addBos = .never := by
  intro addBos hMem
  -- all but the first turn of the log are later turns
  rcases hLog : log with _ | ⟨first, rest⟩
  · rw [hLog] at hMem
    cases hMem
  obtain ⟨⟨first', rest', hSplit, -, hRest⟩, -⟩ := h (by simp [hLog])
  rw [hSplit, List.map_cons, List.tail_cons] at hMem
  obtain ⟨later, hLater, rfl⟩ := List.mem_map.mp hMem
  exact (hRest later hLater).addBos

/-- A message too large for the context costs the only exchange and is refused;
the next one brings the opening, and a BOS, for a second time. -/
theorem opening_decoded_twice :
    ¬ ∀ (L : Llama), L.Lawful → ∀ (c0 c : Conversation L) (log : List Decoded), c0.Opened →
      Reaches recordDecoded (DecodedWhen fun c request => c.Returns (.request request)) (c0, [])
        (c, log) → OpenedOnce c log := by
  intro h
  have hRefused : (greeted.call (Script.say "hi" 60)).1 = .err .conversationTooLargeToTrim :=
    Outcome.eq_err_of_error (by decide)
  have hAgain : ((greeted.after (Script.say "hi" 60)).call (Script.say "ho" 4)).1.isOk = true := by
    decide
  have hReturns : ∀ {c : Conversation (Llama.scripted Script.silent)} {request : Request},
      (c.call request).1.isOk = true → c.Returns (.request request) :=
    fun hOk => .inl ⟨_, Outcome.eq_ok_get _ hOk⟩
  have hOnce := h _ (Llama.scripted_lawful _) fresh _ _ fresh_opened
    (reaches_decoded (reaches_decoded (c := greeted) (reaches_decoded .start greeted_returns)
      (.inr ⟨_, hRefused⟩)) (hReturns hAgain))
  -- the log now holds two turns that asked for a BOS
  have hTwice : AddBos.always ∈
      (([] ++ (fresh.decoded (Script.say "hi" 4)).toList ++
        (greeted.decoded (Script.say "hi" 60)).toList ++
        ((greeted.after (Script.say "hi" 60)).decoded (Script.say "ho" 4)).toList).map
          Decoded.addBos).tail := by
    decide
  cases hOnce.addBos _ hTwice

end Conversation

end Rampipe
