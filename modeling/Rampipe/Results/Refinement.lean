import Rampipe.Results.Opening
import Rampipe.Spec.Transcript

/-!
# Rampipe — a conversation refines a transcript

A conversation keeps one history four times over: token vector, turn spans,
position and cache cells. `Refines` ties all four to one `Transcript`; preparing
a turn, evicting exchanges and committing one are its abstract steps.

* `Refines.room`, `Refines.replied`, `Tracks.prepare` — the phases of a call.
* `Refines.faithful` — what the relation says of the concrete state.
* `run_refines`      — over whole runs of calls that reply or are refused, the
  conversation refines the transcript of what was committed, as long as tool
  results never open a conversation whose opening has been measured but not
  decoded.
-/

namespace Rampipe

variable {L : Llama}

/-! ## The spans of a list of exchanges -/

/-- The turns of the exchanges, laid out from `base` on. -/
def turnsOf : Int → List (Exchange LlamaToken) → List TurnBoundary
  | _, [] => []
  | base, e :: rest =>
    ⟨.user, base, base + e.user.length⟩ ::
    ⟨.assistant, base + e.user.length, base + e.tokens.length⟩ ::
    turnsOf (base + e.tokens.length) rest

/-- An exchange is as long as its two turns. -/
theorem length_tokens (e : Exchange LlamaToken) :
    (e.tokens.length : Int) = e.user.length + e.assistant.length := by
  simp [Exchange.tokens]

/-- The turns of one more exchange stand behind the others. -/
theorem turnsOf_append (base : Int) (es : List (Exchange LlamaToken)) (e : Exchange LlamaToken) :
    turnsOf base (es ++ [e]) =
      turnsOf base es ++ turnsOf (base + (es.flatMap Exchange.tokens).length) [e] := by
  induction es generalizing base with
  | nil => simp [turnsOf]
  | cons e' es ih =>
    simp only [List.cons_append, turnsOf, ih, List.flatMap_cons, List.length_append]
    push_cast
    simp only [add_assoc]

/-- Moved, they begin elsewhere. -/
theorem turnsOf_shift (base d : Int) (es : List (Exchange LlamaToken)) :
    (turnsOf base es).map (·.shift d) = turnsOf (base - d) es := by
  induction es generalizing base with
  | nil => rfl
  | cons e es ih =>
    have hUser : base + e.user.length - d = base - d + e.user.length := by omega
    have hNext : base + e.tokens.length - d = base - d + e.tokens.length := by omega
    rw [turnsOf, List.map_cons, List.map_cons, ih, TurnBoundary.shift, TurnBoundary.shift]
    simp only [hUser, hNext, turnsOf]

/-- They stand one behind the other. -/
theorem turnsOf_adjacent (base : Int) (es : List (Exchange LlamaToken)) :
    Adjacent base (turnsOf base es) (base + (es.flatMap Exchange.tokens).length) := by
  induction es generalizing base with
  | nil => simp [turnsOf, Adjacent]
  | cons e es ih =>
    have hLength := length_tokens e
    have hRest := ih (base + e.tokens.length)
    rw [List.flatMap_cons, List.length_append, Nat.cast_add, ← add_assoc]
    refine ⟨rfl, ?_, rfl, ?_, hRest⟩
    · dsimp only
      omega
    · dsimp only
      omega

/-- Their roles alternate. -/
theorem turnsOf_alternates (base : Int) (es : List (Exchange LlamaToken)) :
    Alternates .user (turnsOf base es) := by
  induction es generalizing base with
  | nil => trivial
  | cons e es ih => exact ⟨rfl, rfl, ih _⟩

/-- The tokens a turn's span names. -/
def slice (tokens : List LlamaToken) (turn : TurnBoundary) : List LlamaToken :=
  (tokens.drop turn.startPos.toNat).take (turn.endPos - turn.startPos).toNat

/-- Behind any prefix, the spans name the turns' own tokens. -/
theorem slice_turnsOf (pre : List LlamaToken) (es : List (Exchange LlamaToken)) :
    (turnsOf pre.length es).map (slice (pre ++ es.flatMap Exchange.tokens)) =
      es.flatMap fun e => [e.user, e.assistant] := by
  induction es generalizing pre with
  | nil => rfl
  | cons e es ih =>
    -- the turns behind this exchange, seen with its tokens as part of the prefix
    have hNext := ih (pre ++ e.tokens)
    have hBase : (((pre ++ e.tokens).length : Nat) : Int) = pre.length + e.tokens.length := by
      simp
    rw [hBase, List.append_assoc] at hNext
    rw [turnsOf, List.map_cons, List.map_cons, List.flatMap_cons, List.flatMap_cons, hNext]
    have hUser : slice (pre ++ (e.tokens ++ es.flatMap Exchange.tokens))
        ⟨.user, pre.length, pre.length + e.user.length⟩ = e.user := by
      simp only [slice, Exchange.tokens, Int.toNat_natCast, List.drop_left, add_sub_cancel_left,
        List.append_assoc, List.take_left]
    -- the reply starts where the user turn ends
    have hAssistant : slice (pre ++ (e.tokens ++ es.flatMap Exchange.tokens))
        ⟨.assistant, pre.length + e.user.length, pre.length + e.tokens.length⟩ = e.assistant := by
      have hStart : ((pre.length : Int) + e.user.length).toNat = (pre ++ e.user).length := by
        simp only [List.length_append]
        omega
      have hSize : ((pre.length : Int) + e.tokens.length - (pre.length + e.user.length)).toNat =
          e.assistant.length := by
        rw [length_tokens]
        omega
      have hSplit : pre ++ (e.tokens ++ es.flatMap Exchange.tokens) =
          (pre ++ e.user) ++ (e.assistant ++ es.flatMap Exchange.tokens) := by
        simp [Exchange.tokens]
      simp only [slice]
      rw [hStart, hSize, hSplit, List.drop_left, List.take_left]
    rw [hUser, hAssistant]
    rfl

/-! ## The refinement relation -/

/-- All four representations are the transcript's. -/
structure Refines (c : Conversation L) (t : Transcript LlamaToken) : Prop where
  keep : c.protectedPrefix = t.keep
  tokens : c.tokens = t.tokens
  committed : c.committedPos = c.tokens.length
  cells : L.cells c.ctx = Cells.layout 0 c.tokens
  turns : c.turns = turnsOf t.front.length t.exchanges
  small : c.committedPos ≤ i32Max

/-- What a conversation's four representations have to agree on. -/
structure Faithful (c : Conversation L) : Prop where
  tokens : (c.tokens.length : Int) = c.committedPos
  resident : ∀ p token, (p, token) ∈ L.cells c.ctx ↔
    ∃ i : Nat, p = i ∧ c.tokens[i]? = some token
  occupied : (L.cells c.ctx).length = c.tokens.length
  alternate : Alternates .user c.turns
  adjacent : ∃ start, Adjacent start c.turns c.committedPos ∧
    (c.turns ≠ [] → start = 0 ∨ start = c.protectedPrefix)

/-- The first turn begins at the start or behind what is protected. -/
theorem Faithful.head_start {c : Conversation L} (h : Faithful c) {turn : TurnBoundary}
    {rest : List TurnBoundary} (hTurns : c.turns = turn :: rest) :
    turn.startPos = 0 ∨ turn.startPos = c.protectedPrefix := by
  obtain ⟨start, hAdjacent, hStart⟩ := h.adjacent
  rw [hTurns] at hAdjacent hStart
  rw [hAdjacent.1]
  exact hStart (List.cons_ne_nil _ _)

namespace Refines

variable {c : Conversation L} {t : Transcript LlamaToken}

/-- Committed is the front, and the exchanges behind it. -/
theorem committed_eq (h : Refines c t) :
    c.committedPos = t.front.length + (t.exchanges.flatMap Exchange.tokens).length := by
  rw [h.committed, h.tokens, Transcript.tokens, List.length_append, Nat.cast_add]

/-- The books of a conversation that refines a transcript are right. -/
theorem bookkeeping (h : Refines c t) : c.Bookkeeping t.front.length where
  start_nonneg := Int.natCast_nonneg _
  adjacent := by
    rw [h.turns, h.committed_eq]
    exact turnsOf_adjacent _ _
  tokens := h.committed
  prefix_nonneg := by
    rw [h.keep]
    exact Int.natCast_nonneg _
  small := h.small

/-- It is faithful. -/
theorem faithful (h : Refines c t) : Faithful c where
  tokens := h.committed.symm
  resident p token := by
    rw [h.cells, Cells.mem_layout_iff]
    simp only [zero_add]
  occupied := by rw [h.cells, Cells.length_layout]
  alternate := by
    rw [h.turns]
    exact turnsOf_alternates _ _
  adjacent := by
    refine ⟨_, h.bookkeeping.adjacent, fun _ => ?_⟩
    rcases t.front_length with hNil | hLength
    · exact .inl (by simp [hNil])
    · exact .inr (by rw [h.keep, hLength])

/-- Its turns hold the tokens of the exchanges. -/
theorem slices (h : Refines c t) :
    c.turns.map (slice c.tokens) = t.exchanges.flatMap fun e => [e.user, e.assistant] := by
  rw [h.turns, h.tokens, Transcript.tokens]
  exact slice_turnsOf _ _

/-- There are turns where there are exchanges. -/
theorem exchanges_nil (h : Refines c t) : t.exchanges = [] ↔ c.turns = [] := by
  rw [h.turns]
  cases t.exchanges <;> simp [turnsOf]

/-- The oldest exchange, concretely and abstractly. -/
theorem exchange (h : Refines c t) {user assistant : TurnBoundary} {rest : List TurnBoundary}
    (hTurns : c.turns = user :: assistant :: rest) :
    ∃ e es, t.exchanges = e :: es ∧ c.evictionStart user = max (t.front.length : Int) t.keep ∧
      assistant.endPos = t.front.length + e.tokens.length ∧
      rest = turnsOf (t.front.length + e.tokens.length) es := by
  have hAll := h.turns
  rw [hTurns] at hAll
  rcases hExchanges : t.exchanges with _ | ⟨e, es⟩
  · rw [hExchanges] at hAll
    cases hAll
  · rw [hExchanges, turnsOf] at hAll
    simp only [List.cons.injEq] at hAll
    obtain ⟨rfl, rfl, rfl⟩ := hAll
    exact ⟨e, es, rfl, by rw [Conversation.evictionStart, h.keep], rfl, rfl⟩

/-- The kept tokens end where the front does, or where the opening does. -/
theorem max_front_keep (t : Transcript LlamaToken) :
    max (t.front.length : Int) t.keep = t.keep := by
  rcases t.front_length with hNil | hLength
  · simp [hNil]
  · simp [hLength]

/-- Dropping one exchange refines an abstract eviction. -/
theorem evicted (h : Refines c t) {user assistant : TurnBoundary} {rest : List TurnBoundary}
    (hTurns : c.turns = user :: assistant :: rest)
    (hOutside : c.evictionStart user < assistant.endPos) {ctx : L.Ctx}
    (hCells : L.cells ctx =
      Cells.layout 0 (cutTokens c.tokens (c.evictionStart user) assistant.endPos))
    {e : Exchange LlamaToken} {es : List (Exchange LlamaToken)} (hExchanges : t.exchanges = e :: es) :
    Refines (c.evicted ctx (c.evictionStart user) assistant.endPos rest) (t.evict hExchanges) := by
  obtain ⟨e', es', hExchanges', hStart, hEnd, hRest⟩ := h.exchange hTurns
  rw [hExchanges] at hExchanges'
  obtain ⟨rfl, rfl⟩ := List.cons.inj hExchanges'
  rw [max_front_keep] at hStart
  have hBooks := h.bookkeeping.evicted hTurns hOutside ctx
  -- the span cut out is the rest of the front and of the exchange behind `keep`
  have hTokens : cutTokens c.tokens (c.evictionStart user) assistant.endPos =
      (t.evict hExchanges).tokens := by
    rw [t.tokens_evict, cutTokens, hStart, hEnd, h.tokens]
    congr 2
  refine ⟨h.keep, hTokens, hBooks.tokens, hCells, ?_, hBooks.small⟩
  have hFront : ((t.evict hExchanges).front.length : Int) = t.keep := by
    rw [Transcript.evict_front, List.length_take_of_le (t.keep_le hExchanges)]
  -- the turns left move down to where the kept tokens end
  have hBase : (t.front.length : Int) + e.tokens.length -
      (assistant.endPos - c.evictionStart user) = t.keep := by omega
  simp only [Conversation.evicted, hRest, turnsOf_shift, hFront, hBase, Transcript.evict_exchanges]

/-- An exchange that lies inside the opening goes from the turns alone. -/
theorem inside (h : Refines c t) {user assistant : TurnBoundary} {rest : List TurnBoundary}
    (hTurns : c.turns = user :: assistant :: rest)
    (hInside : assistant.endPos ≤ c.evictionStart user)
    {e : Exchange LlamaToken} {es : List (Exchange LlamaToken)} (hExchanges : t.exchanges = e :: es) :
    Refines { c with turns := rest } (t.evict hExchanges) := by
  obtain ⟨e', es', hExchanges', hStart, hEnd, hRest⟩ := h.exchange hTurns
  rw [hExchanges] at hExchanges'
  obtain ⟨rfl, rfl⟩ := List.cons.inj hExchanges'
  rw [max_front_keep] at hStart
  have hKeep := t.keep_le hExchanges
  rw [List.length_append] at hKeep
  -- the exchange lies within the kept tokens, so all of it stays and joins the front
  have hAll : t.front.length + e.tokens.length = t.keep := by omega
  have hFront : (t.evict hExchanges).front = t.front ++ e.tokens := by
    rw [Transcript.evict_front, List.take_of_length_le]
    rw [List.length_append]
    omega
  have hTokens : (t.evict hExchanges).tokens = t.tokens := by
    rw [Transcript.tokens, hFront, Transcript.evict_exchanges, Transcript.tokens, hExchanges,
      List.flatMap_cons, List.append_assoc]
  refine ⟨h.keep, h.tokens.trans hTokens.symm, h.committed, h.cells, ?_, h.small⟩
  simp only [hRest, hFront, Transcript.evict_exchanges, List.length_append, Nat.cast_add]

/-! ## The phases of a call -/

/-- Whatever the drop loop has done refines evictions. -/
theorem trimmed (h : Refines c t) {needed : Int} {c1 : Conversation L}
    (hTrimmed : Conversation.Trimmed needed c c1) :
    ∃ t1, Transcript.Trim t t1 ∧ Refines c1 t1 := by
  induction hTrimmed with
  | here => exact ⟨t, .refl, h⟩
  | evict _ _ hTurns hOutside hCells ih =>
    obtain ⟨t1, hTrim, hRefines⟩ := ih
    obtain ⟨e, es, hExchanges, -, -, -⟩ := hRefines.exchange hTurns
    exact ⟨t1.evict hExchanges, .evict hTrim hExchanges,
      hRefines.evicted hTurns hOutside (hCells hRefines.cells) hExchanges⟩

/-- So does whatever the room check leaves, whether it grants or refuses. -/
theorem room (hL : L.Lawful) (h : Refines c t) {needed : Int} {o : Outcome Unit}
    {c1 : Conversation L} (hRoom : c.ensureRoomFor needed = (o, c1)) :
    ∃ t1, Transcript.Trim t t1 ∧ Refines c1 t1 := by
  -- granted or refused, what the loop did were evictions
  have hCase := Conversation.ensureRoomFor_case hL h.bookkeeping needed
  rw [hRoom] at hCase
  cases hCase with
  | room hTrimmed => exact h.trimmed hTrimmed
  | full => exact ⟨t, .refl, h⟩
  | tooFew hTrimmed => exact h.trimmed hTrimmed
  | inside hTrimmed _ hTurns hInside =>
    obtain ⟨t1, hTrim, hRefines⟩ := h.trimmed hTrimmed
    obtain ⟨e, es, hExchanges, -, -, -⟩ := hRefines.exchange hTurns
    exact ⟨t1.evict hExchanges, .evict hTrim hExchanges,
      hRefines.inside hTurns hInside hExchanges⟩

/-- Recording a user turn and its reply, laid out behind one another, commits an
exchange. -/
theorem commit (h : Refines c t) {tokens generated : List LlamaToken} {ctx ctx' : L.Ctx}
    {pos pos' : Int} (hPos : pos = c.committedPos + tokens.length)
    (hPos' : pos' = pos + generated.length)
    (hCells : L.cells ctx' =
      L.cells c.ctx ++ Cells.layout c.committedPos tokens ++ Cells.layout pos generated)
    (hFits : L.Fits ctx')
    (hCovers : t.front = [] → t.exchanges = [] →
      t.keep ≤ (Exchange.mk tokens generated).tokens.length) :
    Refines ((c.recordTurn .user ctx pos tokens).recordTurn .assistant ctx' pos' generated)
      (t.commit ⟨tokens, generated⟩ hCovers) := by
  have hTokens : c.tokens ++ tokens ++ generated =
      (t.commit ⟨tokens, generated⟩ hCovers).tokens := by
    rw [Transcript.tokens_commit, h.tokens, List.append_assoc]
    rfl
  have hLength : pos' = (c.tokens ++ tokens ++ generated).length := by
    simp only [List.length_append, Nat.cast_add]
    rw [hPos', hPos, h.committed]
  have hResident : L.cells ctx' = Cells.layout 0 (c.tokens ++ tokens ++ generated) := by
    rw [hCells, h.cells, Cells.layout_append, Cells.layout_append, zero_add, zero_add,
      List.length_append, Nat.cast_add, hPos, h.committed]
  refine ⟨h.keep, hTokens, hLength, hResident, ?_, ?_⟩
  · -- the two spans are the exchange's, laid out from the old position on
    have hBase : (t.front.length : Int) + (t.exchanges.flatMap Exchange.tokens).length =
        c.committedPos := h.committed_eq.symm
    have hUser : c.committedPos + tokens.length = pos := hPos.symm
    have hReply : c.committedPos + (Exchange.mk tokens generated).tokens.length = pos' := by
      rw [length_tokens, hPos', hPos, add_assoc]
    simp only [Conversation.recordTurn, Transcript.commit, turnsOf_append, hBase, turnsOf, hUser,
      hReply, h.turns, List.append_assoc, List.cons_append, List.nil_append]
  · rw [Llama.Fits, hResident, Cells.length_layout, ← hLength] at hFits
    exact hFits

/-- Prefilling a user turn and generating the reply commits an exchange. -/
theorem replied (hL : L.Lawful) (h : Refines c t) {tokens generated : List LlamaToken}
    {options : Conversation.TurnOptions} {batch : L.Batch} {text : Text} {c2 c3 : Conversation L}
    (hPrefill : c.prefillUser tokens = (.ok batch, c2))
    (hGenerate : c2.generateAssistant options batch = (.ok (text, generated), c3))
    (hReady : t.Ready tokens.length) :
    ∃ hCovers, Refines c3 (t.commit ⟨tokens, generated⟩ hCovers) := by
  have hCovers : t.front = [] → t.exchanges = [] →
      t.keep ≤ (Exchange.mk tokens generated).tokens.length := by
    intro hFront hNone
    have := hReady hFront hNone
    simp only [Exchange.tokens, List.length_append]
    omega
  -- both phases went through, so each of them recorded its turn
  rcases Conversation.prefillUser_case c tokens with
    ⟨_, _, -, hCase⟩ | ⟨batch', pos, ctx, hDecoded, hCase⟩
  · rw [hPrefill] at hCase
    cases hCase
  rw [hPrefill] at hCase
  cases hCase
  rcases Conversation.generateAssistant_case (c.recordTurn .user ctx pos tokens) options batch with
    ⟨_, _, -, hCase⟩ | ⟨s, hLoop, hCase⟩
  · rw [hGenerate] at hCase
    cases hCase
  rw [hGenerate] at hCase
  cases hCase
  obtain ⟨hCells, hPos, hFits⟩ :=
    decodeChunked_ok hL (h.bookkeeping.length_cells h.cells) hDecoded
  have hLaid := runGenerationLoop_laid hL
    ((c.recordTurn .user ctx pos tokens).genParams options)
    (hFits (h.bookkeeping.fits h.cells)) batch pos
  have hLoop' : runGenerationLoop ((c.recordTurn .user ctx pos tokens).genParams options) ctx batch
      pos = (.ok (), s) := hLoop
  rw [hLoop'] at hLaid
  have hEnd : s.nCur = pos + s.generated.length := by
    rcases hLaid.nCur with hEnd | ⟨hNot, -⟩
    · exact hEnd
    · exact absurd rfl hNot
  exact ⟨hCovers, h.commit hPos hEnd (by rw [hLaid.cells, hCells]) hLaid.fits hCovers⟩

end Refines

/-! ## The opening's tokens -/

namespace Conversation

/-- The opening's tokens are a prefix of every first turn's tokens, or of none. -/
def Setup.OpeningSplits (L : Llama) (s : Setup) : Prop :=
  ∀ openingTokens, L.strToToken s.opening .always = .ok openingTokens →
    (∀ message assistantPrefill tokens,
      L.strToToken (s.firstText message assistantPrefill) .always = .ok tokens →
        openingTokens <+: tokens) ∨
    ∀ message assistantPrefill tokens,
      L.strToToken (s.firstText message assistantPrefill) .always = .ok tokens →
        ¬ openingTokens <+: tokens

/-- What is protected is nothing, or the opening of all first turns. -/
def OpeningMeasured (c : Conversation L) : Prop :=
  c.protectedPrefix = 0 ∨ ∃ openingTokens : List LlamaToken,
    c.protectedPrefix = openingTokens.length ∧
      L.strToToken c.opening .always = .ok openingTokens ∧
      ∀ message assistantPrefill tokens,
        L.strToToken (c.setup.firstText message assistantPrefill) .always = .ok tokens →
          openingTokens <+: tokens

/-- The condition of the run result: tool results in the template's own markers
come when a turn is recorded, or when what is protected has been decoded. -/
def OpeningDecoded (c : Conversation L) (request : Request) : Prop :=
  c.native request = true → c.turns ≠ [] ∨ c.protectedPrefix ≤ c.committedPos

/-- The measure of the opening survives what leaves setup and prefix alone. -/
theorem OpeningMeasured.of_frame {c c' : Conversation L} (h : c.OpeningMeasured)
    (hSetup : c'.setup = c.setup) (hPrefix : c'.protectedPrefix = c.protectedPrefix) :
    c'.OpeningMeasured := by
  have hOpening : c'.opening = c.opening := congrArg Setup.opening hSetup
  rcases h with hZero | hTokens
  · exact .inl (hPrefix.trans hZero)
  · refine .inr ?_
    rw [hPrefix, hOpening, hSetup]
    exact hTokens

/-- Preparing a first turn keeps the measure, and the turn covers it. -/
theorem protectOpening_measured {c c1 : Conversation L} {message : Text}
    {assistantPrefill : Option Text} {tokens : List LlamaToken} (h : c.OpeningMeasured)
    (hSplits : c.setup.OpeningSplits L) (hTurns : c.turns = [])
    (hTokens : L.strToToken (c.setup.firstText message assistantPrefill) .always = .ok tokens)
    (hProtect : c.protectOpening tokens = .ok c1) :
    c1.OpeningMeasured ∧ c1.protectedPrefix ≤ tokens.length ∧
      (c1 = c ∨ ∃ k : Nat, c1 = { c with protectedPrefix := k } ∧
        (c.protectedPrefix = 0 ∨ c.protectedPrefix = k)) := by
  rcases protectOpening_ok hProtect with rfl | ⟨-, -, openingTokens, hOpening, hPrefix, rfl⟩
  · -- nothing was set: what was protected before is covered, being a prefix too
    refine ⟨h, ?_, .inl rfl⟩
    rcases h with hZero | ⟨openingTokens, hLength, -, hAll⟩
    · omega
    · have := (hAll _ _ _ hTokens).length_le
      omega
  · have hAll : ∀ message assistantPrefill tokens,
        L.strToToken (c.setup.firstText message assistantPrefill) .always = .ok tokens →
          openingTokens <+: tokens := by
      rcases hSplits openingTokens hOpening with hAll | hNone
      · exact hAll
      · exact absurd hPrefix (hNone _ _ _ hTokens)
    refine ⟨.inr ⟨openingTokens, rfl, hOpening, hAll⟩, ?_, .inr ⟨openingTokens.length, rfl, ?_⟩⟩
    · exact Int.ofNat_le.mpr hPrefix.length_le
    · rcases h with hZero | ⟨openingTokens', hLength, hOpening', -⟩
      · exact .inl hZero
      · rw [hOpening] at hOpening'
        cases hOpening'
        exact .inr hLength

/-! ## Runs of settled calls -/

/-- A call that goes through, with the exchange it commits, or one that the room
check refuses before anything is decoded. -/
inductive Settled (c : Conversation L) (request : Request) : Option (Exchange LlamaToken) → Prop
  | replied {turn : PreparedTurn L} {c1 c2 c3 : Conversation L} {batch : L.Batch} {text : Text}
      {generated : List LlamaToken} (hPrepare : c.prepare request = .ok turn)
      (hRoom : turn.conversation.ensureRoomFor turn.needed = (.ok (), c1))
      (hPrefill : c1.prefillUser turn.tokens = (.ok batch, c2))
      (hGenerate : c2.generateAssistant turn.options batch = (.ok (text, generated), c3)) :
      Settled c request (some ⟨turn.tokens, generated⟩)
  | refused {turn : PreparedTurn L} {c1 : Conversation L} {e : LlamaSessionError}
      (hPrepare : c.prepare request = .ok turn)
      (hRoom : turn.conversation.ensureRoomFor turn.needed = (.err e, c1)) :
      Settled c request none

/-- Every call that returns `Ok` is settled. -/
theorem settled_of_ok (c : Conversation L) (request : Request) {result : GenerationResult}
    (h : (c.call request).1 = .ok result) : ∃ e, c.Settled request (some e) := by
  obtain ⟨turn, c1, batch, c2, text, generated, hPrepare, hRoom, hPrefill, hGenerate, -⟩ :=
    call_ok (Prod.ext h rfl)
  exact ⟨_, .replied hPrepare hRoom hPrefill hGenerate⟩

/-- A call whose room check fails is settled too. -/
theorem settled_of_refused {c : Conversation L} {request : Request} {e : LlamaSessionError}
    (h : ((c.prepare request).toOption.bind fun turn =>
      (turn.conversation.ensureRoomFor turn.needed).1.error) = some e) :
    c.Settled request none := by
  cases hPrepare : c.prepare request with
  | error e' =>
    rw [hPrepare] at h
    cases h
  | ok turn =>
    rw [hPrepare] at h
    exact .refused hPrepare (Prod.ext (Outcome.eq_err_of_error h) rfl)

/-- A conversation with the log of the exchanges committed so far. -/
abbrev Recorded (L : Llama) := Conversation L × List (Exchange LlamaToken)

/-- A call on a recorded conversation; the input carries what it commits. -/
def record (s : Recorded L) (input : Request × Option (Exchange LlamaToken)) : Recorded L :=
  (s.1.after input.1, s.2 ++ input.2.toList)

/-- The calls a run is made of: settled ones, each made under a condition. -/
def SettledWhen (P : Conversation L → Request → Prop) (s : Recorded L)
    (input : Request × Option (Exchange LlamaToken)) : Prop :=
  s.1.Settled input.1 input.2 ∧ P s.1 input.1

/-- A run goes on with a call and what it commits. -/
theorem reaches_settled {P : Conversation L → Request → Prop} {s : Recorded L}
    {c : Conversation L} {log : List (Exchange LlamaToken)}
    (h : Reaches record (SettledWhen P) s (c, log)) {request : Request}
    {e : Option (Exchange LlamaToken)} (hSettled : c.Settled request e) (hP : P c request) :
    Reaches record (SettledWhen P) s (c.after request, log ++ e.toList) := by
  have hStep : Reaches record (SettledWhen P) s (record (c, log) (request, e)) :=
    .tail h ⟨hSettled, hP⟩
  exact hStep

/-- What a run keeps: the refinement, the log's account of it, and the measure of
the opening. -/
structure Tracks (setup : Setup) (s : Recorded L) (t : Transcript LlamaToken) : Prop where
  refines : Refines s.1 t
  logged : Transcript.Logged s.2 t
  setup : s.1.setup = setup
  measured : s.1.OpeningMeasured

/-- A prepared turn's conversation still refines, and the transcript can take the turn. -/
theorem Tracks.prepare {setup : Setup} {s : Recorded L} {t : Transcript LlamaToken}
    (h : Tracks setup s t) (hSplits : setup.OpeningSplits L) {request : Request}
    {turn : PreparedTurn L} (hDecoded : s.1.OpeningDecoded request)
    (hPrepare : s.1.prepare request = .ok turn) :
    ∃ t1, Relation.ReflTransGen Transcript.Step t t1 ∧
      Tracks setup (turn.conversation, s.2) t1 ∧ t1.Ready turn.tokens.length := by
  obtain ⟨c, log⟩ := s
  have hRefines : Refines c t := h.refines
  have hSetup : c.setup = setup := h.setup
  have hMeasured : c.OpeningMeasured := h.measured
  have hOccupied : c.turns ≠ [] → ∀ n, t.Ready n := fun hTurns n _ hNone =>
    absurd (hRefines.exchanges_nil.mp hNone) hTurns
  cases prepare_ok hPrepare with
  | @message message assistantPrefill _ tokens c1 _ hTokens hProtect =>
    -- a first turn may protect the opening; a later one leaves everything as it is
    by_cases hTurns : c.turns = []
    · have hFirst : L.strToToken (c.setup.firstText message assistantPrefill) .always =
          .ok tokens := by
        rw [← userText_first hTurns, ← hTokens]
        simp [nextOpening, hTurns]
      obtain ⟨hMeasured1, hCovers, hChange⟩ :=
        protectOpening_measured hMeasured (hSetup ▸ hSplits) hTurns hFirst hProtect
      have hNone := hRefines.exchanges_nil.mpr hTurns
      rcases hChange with rfl | ⟨k, rfl, hBefore⟩
      · refine ⟨t, .refl, ⟨hRefines, h.logged, hSetup, hMeasured1⟩, fun _ _ => ?_⟩
        rw [hRefines.keep] at hCovers
        exact Int.ofNat_le.mp hCovers
      · have hFront : t.front = [] ∨ t.keep = k := by
          have hKeep := hRefines.keep
          rcases t.front_length with hNil | hLength
          · exact .inl hNil
          rcases hBefore with hZero | hSame
          · refine .inl (List.length_eq_zero_iff.mp ?_)
            omega
          · exact .inr (by omega)
        refine ⟨t.protect k hNone hFront, .single (.protect t k hNone hFront),
          ⟨⟨rfl, hRefines.tokens, hRefines.committed, hRefines.cells, hRefines.turns,
            hRefines.small⟩, h.logged.protect k hNone hFront, hSetup, hMeasured1⟩,
          fun _ _ => Int.ofNat_le.mp hCovers⟩
    · have hSame : c1 = c := by
        rcases protectOpening_ok hProtect with rfl | ⟨hNil, -⟩
        · rfl
        · exact absurd hNil hTurns
      subst hSame
      exact ⟨t, .refl, h, hOccupied hTurns _⟩
  | results _ hNative _ =>
    refine ⟨t, .refl, h, ?_⟩
    rcases hDecoded hNative with hTurns | hReached
    · exact hOccupied hTurns _
    · -- nothing is kept and nothing committed, so nothing is protected either
      intro hFront hNone
      have hCommitted := hRefines.committed_eq
      have hKeep := hRefines.keep
      simp only [hFront, hNone, List.length_nil, List.flatMap_nil, Nat.cast_zero, add_zero]
        at hCommitted
      dsimp only at hReached
      omega

/-- **One call.** A settled call is a path of protections, evictions and commits. -/
theorem Tracks.settled (hL : L.Lawful) {setup : Setup} {s : Recorded L}
    {t : Transcript LlamaToken} (h : Tracks setup s t) (hSplits : setup.OpeningSplits L)
    {input : Request × Option (Exchange LlamaToken)} (hDecoded : s.1.OpeningDecoded input.1)
    (hSettled : s.1.Settled input.1 input.2) :
    ∃ t', Relation.ReflTransGen Transcript.Step t t' ∧ Tracks setup (record s input) t' := by
  obtain ⟨request, committed⟩ := input
  -- the call is the run of its prepared turn
  have hAfter : ∀ {turn : PreparedTurn L}, s.1.prepare request = .ok turn →
      s.1.after request = turn.run.2 := fun hPrepare => by
    rw [after, call_eq, hPrepare]
    rfl
  cases hSettled with
  | @replied turn c1 c2 c3 batch text generated hPrepare hRoom hPrefill hGenerate =>
    obtain ⟨t1, hPath1, hTracks1, hReady⟩ := h.prepare hSplits hDecoded hPrepare
    obtain ⟨t2, hTrim, hRefines2⟩ := hTracks1.refines.room hL hRoom
    -- protections, then evictions, then the commit
    obtain ⟨hCovers, hRefines3⟩ :=
      hRefines2.replied hL hPrefill hGenerate (hTrim.ready hReady)
    have hRun : turn.run.2 = c3 := by
      simp only [PreparedTurn.run, hRoom, hPrefill, hGenerate, Step.andThen_ok]
    have hSetup : c3.setup = turn.conversation.setup := by rw [← hRun, setup_run]
    have hPrefix : c3.protectedPrefix = turn.conversation.protectedPrefix := by
      rw [← hRun]
      exact congrArg Prod.snd (held_run turn)
    refine ⟨_, (hPath1.trans hTrim.steps).tail (.commit t2 ⟨turn.tokens, generated⟩ hCovers), ?_⟩
    rw [record, hAfter hPrepare, hRun]
    exact ⟨hRefines3, (hTrim.logged hTracks1.logged).commit _ hCovers,
      hSetup.trans hTracks1.setup, hTracks1.measured.of_frame hSetup hPrefix⟩
  | @refused turn c1 e hPrepare hRoom =>
    obtain ⟨t1, hPath1, hTracks1, -⟩ := h.prepare hSplits hDecoded hPrepare
    obtain ⟨t2, hTrim, hRefines2⟩ := hTracks1.refines.room hL hRoom
    have hSetup := setup_ensureRoomFor hRoom
    have hRun : turn.run.2 = c1 := by simp only [PreparedTurn.run, hRoom, Step.andThen_err]
    refine ⟨t2, hPath1.trans hTrim.steps, ?_⟩
    rw [record, hAfter hPrepare, hRun, Option.toList_none, List.append_nil]
    exact ⟨hRefines2, hTrim.logged hTracks1.logged, hSetup.trans hTracks1.setup,
      hTracks1.measured.of_frame hSetup (congrArg Prod.snd (held_ensureRoomFor hRoom))⟩

/-- A freshly opened conversation refines the empty transcript. -/
theorem Opened.tracks (hL : L.Lawful) {c : Conversation L} (h : c.Opened) :
    Tracks c.setup (c, []) Transcript.empty := by
  obtain ⟨session, options, hOpen⟩ := h
  obtain ⟨hTurns, hTokens, hCommitted, hPrefix, ⟨params, hCtx, -⟩, -⟩ := openConversation_ok hOpen
  refine ⟨⟨hPrefix, hTokens, by rw [hCommitted, hTokens]; rfl, ?_, hTurns, ?_⟩,
    Transcript.logged_empty, rfl, .inl hPrefix⟩
  · rw [hL.cells_newContext hCtx, hTokens]
    rfl
  · rw [hCommitted]
    decide

/-- What a run promises of the conversation it ends in. -/
structure RunFaithful (c : Conversation L) (log : List (Exchange LlamaToken)) : Prop where
  faithful : Faithful c
  abstract : ∃ t, Relation.ReflTransGen Transcript.Step Transcript.empty t ∧ Refines c t ∧
    Transcript.Logged log t
  surviving : ∃ n ≤ log.length,
    c.turns.map (slice c.tokens) = (log.drop n).flatMap fun e => [e.user, e.assistant]
  kept : ∀ needed, c.tokens.take c.protectedPrefix.toNat <+: (c.ensureRoomFor needed).2.tokens

/-- What a run keeps is all that is claimed of it. -/
theorem Tracks.runFaithful (hL : L.Lawful) {setup : Setup} {c : Conversation L}
    {log : List (Exchange LlamaToken)} {t : Transcript LlamaToken} (h : Tracks setup (c, log) t)
    (hPath : Relation.ReflTransGen Transcript.Step Transcript.empty t) : RunFaithful c log where
  faithful := h.refines.faithful
  abstract := ⟨t, hPath, h.refines, h.logged⟩
  surviving := by
    obtain ⟨n, hn, hDrop, -⟩ := h.logged.exists_drop
    exact ⟨n, hn, by rw [← hDrop]; exact h.refines.slices⟩
  kept needed := by
    obtain ⟨t1, hTrim, hRefines⟩ := h.refines.room hL (Prod.mk.eta (p := c.ensureRoomFor needed)).symm
    have hKept := hTrim.kept
    have hKeep : c.protectedPrefix = t.keep := h.refines.keep
    have hTokens : c.tokens = t.tokens := h.refines.tokens
    rwa [← hRefines.tokens, ← hTokens, ← Int.toNat_natCast t.keep, ← hKeep] at hKept

/-- **Refinement over whole runs.** As long as native tool results come when a
turn is recorded or the protected opening has been decoded, every conversation
that settled calls lead to refines the transcript of what they committed. -/
theorem run_refines (hL : L.Lawful) {c0 c : Conversation L} {log : List (Exchange LlamaToken)}
    (hOpened : c0.Opened) (hSplits : c0.setup.OpeningSplits L)
    (hRun : Reaches record (SettledWhen OpeningDecoded) (c0, []) (c, log)) :
    RunFaithful c log := by
  -- every settled call is a path of abstract steps; the simulation strings them together
  obtain ⟨t, hPath, hTracks⟩ := hRun.simulates (Tracks c0.setup) (hOpened.tracks hL)
    fun s input t h hGuard => h.settled hL hSplits hGuard.2 hGuard.1
  exact hTracks.runFaithful hL hPath

/-- The scripted tokeniser never merges across the opening's end. -/
theorem Setup.scripted_openingSplits (script : Script) (s : Setup) :
    s.OpeningSplits (Llama.scripted script) := by
  intro openingTokens hOpening
  -- one token a character, with the BOS in front of both
  refine .inl fun message assistantPrefill tokens hTokens => ?_
  cases hOpening
  cases hTokens
  simp only [if_true, firstText, List.map_append, List.append_assoc, List.singleton_append,
    List.cons_prefix_cons, true_and]
  exact List.prefix_append _ _

/-- A tool whose name alone fills forty tokens of the opening. -/
def longTool : ToolSpec where
  kind := "function".toList
  function := { name := List.replicate 40 'a', description := [], parameters := .null }

/-- A conversation that offers it, in a context of 300 tokens. -/
def offering : Conversation (Llama.scripted Script.silent) :=
  (Script.session.openConversation _ (Script.options 300 none [longTool])).get (by decide)

/-- It was opened so. -/
theorem offering_opened : offering.Opened := ⟨_, _, Outcome.eq_ok_get _ _⟩

/-- It was sent a message, -/
def told : Conversation (Llama.scripted Script.silent) := offering.after (Script.say "x" 4)

/-- and behind it a native tool result. -/
def toldResult : Conversation (Llama.scripted Script.silent) :=
  told.after (.toolResults [[]] (Script.turnOptions 4))

/-- A third call, with room for 205 tokens of reply asked for. -/
def evicting : Request := Script.say "x" 205

set_option maxRecDepth 4096 in
/-- A message, native tool results and a message that the first exchange makes room for: of
the three that were logged, the last two are left, right behind the opening's 47 tokens. -/
theorem offering_refines :
    ∃ e1 e2 e3, (toldResult.after evicting).RunFaithful [e1, e2, e3] ∧
      (toldResult.after evicting).turns =
        [⟨.user, 47, 66⟩, ⟨.assistant, 66, 66⟩, ⟨.user, 66, 86⟩, ⟨.assistant, 86, 86⟩] := by
  obtain ⟨e1, hTold⟩ := settled_of_ok offering (Script.say "x" 4)
    (Outcome.eq_ok_get _ (by decide))
  obtain ⟨e2, hResult⟩ := settled_of_ok told (.toolResults [[]] (Script.turnOptions 4))
    (Outcome.eq_ok_get _ (by decide))
  obtain ⟨e3, hEvicting⟩ := settled_of_ok toldResult evicting (Outcome.eq_ok_get _ (by decide))
  -- the results come when a turn has been recorded
  have hRun : Reaches record (SettledWhen OpeningDecoded) (offering, [])
      (toldResult.after evicting, [e1, e2, e3]) :=
    reaches_settled
      (reaches_settled (reaches_settled .start hTold fun h => by cases h) hResult
        fun _ => .inl (by decide))
      hEvicting fun h => by cases h
  exact ⟨e1, e2, e3, run_refines (Llama.scripted_lawful _) offering_opened
    (Setup.scripted_openingSplits _ _) hRun, by decide⟩

/-- A first message too large for the context was refused. -/
def refusedFirst : Conversation (Llama.scripted Script.silent) :=
  offering.after (Script.say "x" 400)

/-- Then an empty tool result, of 19 tokens with its markers, was sent. -/
def answered : Conversation (Llama.scripted Script.silent) :=
  refusedFirst.after (.toolResults [[]] (Script.turnOptions 4))

/-- Then a message of 20. -/
def followed : Conversation (Llama.scripted Script.silent) := answered.after (Script.say "x" 4)

set_option maxRecDepth 4096 in
/-- The refused message has the opening of 47 tokens protected, though nothing
was decoded. When room is needed, the exchange of the tool results lies inside
it; its turns are forgotten, and those left start at 19. -/
theorem run_leaves_protected_prefix_undecoded :
    ¬ ∀ (L : Llama), L.Lawful → ∀ (c0 c : Conversation L) (log : List (Exchange LlamaToken)),
      c0.Opened → c0.setup.OpeningSplits L →
      Reaches record (SettledWhen fun _ _ => True) (c0, []) (c, log) →
      RunFaithful c log := by
  intro h
  -- refused, answered, followed: each of the three calls is settled
  have hRefused : offering.Settled (Script.say "x" 400) none :=
    settled_of_refused (e := .conversationTooLargeToTrim) (by decide)
  obtain ⟨e1, hResults⟩ := settled_of_ok refusedFirst
    (.toolResults [[]] (Script.turnOptions 4)) (Outcome.eq_ok_get _ (by decide))
  obtain ⟨e2, hMessage⟩ := settled_of_ok answered (Script.say "x" 4)
    (Outcome.eq_ok_get _ (by decide))
  have hLast : followed.Settled (Script.say "x" 280) none :=
    settled_of_refused (e := .conversationTooLargeToTrim) (by decide)
  have hRun0 : Reaches record (SettledWhen fun _ _ => True) (offering, []) (refusedFirst, []) :=
    reaches_settled .start hRefused trivial
  have hRun1 : Reaches record (SettledWhen fun _ _ => True) (offering, []) (answered, [e1]) :=
    reaches_settled hRun0 hResults trivial
  have hRun2 : Reaches record (SettledWhen fun _ _ => True) (offering, []) (followed, [e1, e2]) :=
    reaches_settled hRun1 hMessage trivial
  -- the turns left start at 19, which is neither the start nor the opening's end
  have hTurns : (followed.after (Script.say "x" 280)).turns =
      [⟨.user, 19, 39⟩, ⟨.assistant, 39, 39⟩] := by decide
  have hPrefix : (followed.after (Script.say "x" 280)).protectedPrefix = 47 := by decide
  have hHead := (h _ (Llama.scripted_lawful _) offering _ _ offering_opened
    (Setup.scripted_openingSplits _ _)
    (reaches_settled hRun2 hLast trivial)).faithful.head_start hTurns
  rw [hPrefix] at hHead
  exact absurd hHead (by decide)

end Conversation

end Rampipe
