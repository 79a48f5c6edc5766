import Rampipe.Results.Room

/-!
# Rampipe — calls that fail part-way

A call mutates the conversation before each fallible step, and what a failing
step leaves behind is not always put back: a later chunk of the prefill leaves
the chunks before it in the cache, a failing generation leaves the tokens it fed
back, with the position one too far when it was a decode that failed, and the
user turn stays recorded without a reply.

* `WellFormed`          — turns, position, tokens and cells agree.
* `WellFormed.after`    — a call keeps them agreeing when it fails at once, and
  no user turn was left unanswered by the call before.
* `run_consistent`      — over whole runs, saving and reopening included.
-/

namespace Rampipe

variable {L : Llama}

/-! ## Failing at once -/

/-- The first chunk of a prefill goes through. -/
def firstChunkDecodes (L : Llama) (ctx : L.Ctx) (tokens : List LlamaToken) (nCur : Int) : Bool :=
  (decodeChunks L tokens nCur ((chunkStarts tokens.length).take 1) (L.newBatch 512 1) ctx).1.isOk

/-- A turn of the generation loop fails, but not in decoding its token. -/
def failsUndecoded : Loop.Turn (GenState L) (GenExit L) → Bool
  | .leave (.error (.decode _), _) => false
  | .leave (.error _, _) => true
  | _ => false

/-- Chunks of which the first does not decode leave the cache as it was. -/
theorem decodeChunks_first (hL : L.Lawful) {ctx ctx' : L.Ctx} {tokens : List LlamaToken}
    {nCur : Int} {e : LlamaSessionError} (hFirst : firstChunkDecodes L ctx tokens nCur = false)
    (h : decodeChunks L tokens nCur (chunkStarts tokens.length) (L.newBatch 512 1) ctx =
      (.error e, ctx')) : L.cells ctx' = L.cells ctx := by
  unfold firstChunkDecodes at hFirst
  -- no chunks, nothing decoded, and nothing to fail
  rcases hStarts : chunkStarts tokens.length with _ | ⟨start, starts⟩
  · rw [hStarts] at h
    cases h
  rw [hStarts] at h hFirst
  rw [List.take_succ_cons, List.take_zero] at hFirst
  unfold decodeChunks at h hFirst
  -- the first chunk fails in the batch, or in its decode
  cases hAdd : addAll L (L.clear (L.newBatch 512 1)) (chunkEntries tokens nCur start) with
  | error e' =>
    rw [hAdd] at h
    cases h
    rfl
  | ok batch =>
    rw [hAdd] at h hFirst
    dsimp only at h hFirst
    rcases hDecode : L.decode ctx batch with ⟨_ | _, ctx1⟩
    · rw [hDecode] at h
      cases h
      exact hL.cells_decode_err hDecode
    · rw [hDecode] at hFirst
      cases hFirst

/-- A prefill whose first chunk does not decode fails, and leaves the cache as it was. -/
theorem decodeChunked_first (hL : L.Lawful) {ctx ctx' : L.Ctx} {tokens : List LlamaToken}
    {nCur nCur' : Int} {e : LlamaSessionError}
    (hFirst : firstChunkDecodes L ctx tokens nCur = false)
    (h : decodeChunked L ctx (L.newBatch 512 1) tokens nCur = ((.error e, nCur'), ctx')) :
    L.cells ctx' = L.cells ctx := by
  rcases decodeChunked_case L ctx (L.newBatch 512 1) tokens nCur with
    ⟨-, hCase⟩ | ⟨-, _, _, hChunks, hCase⟩ | ⟨-, _, _, -, hCase⟩
  · rw [h] at hCase
    cases hCase
  · rw [h] at hCase
    cases hCase
    exact decodeChunks_first hL hFirst hChunks
  · rw [h] at hCase
    cases hCase

/-- A generation whose first turn fails, but not in decoding its token, leaves
cache and position as they were. -/
theorem runGenerationLoop_first {p : GenParams} {ctx : L.Ctx} {batch : L.Batch} {nCur : Int}
    (hFirst : failsUndecoded (genTurn p (.start p ctx batch nCur)) = true) :
    (runGenerationLoop p ctx batch nCur).2.ctx = ctx ∧
      (runGenerationLoop p ctx batch nCur).2.nCur = nCur := by
  -- a loop that leaves on its first turn returns what the turn left
  have hLeaves : ∀ {r}, genTurn p (.start p ctx batch nCur) = .leave r →
      runGenerationLoop p ctx batch nCur = r := fun {r} hLeave => by
    have hRun := Loop.iterate_succ_leave hLeave (p.nCtx - (GenState.start p ctx batch nCur).nCur).toNat
    rw [runGenerationLoop_eq]
    exact Option.get_of_eq_some _ hRun
  -- drawing a token moves neither the cache nor the position
  have hDrawn : ∀ {token s1}, (GenState.start p ctx batch nCur).draw p = .ok (token, s1) →
      s1.ctx = ctx ∧ s1.nCur = nCur := fun hDraw => by
    obtain ⟨hCtx, hCur, -⟩ := GenState.draw_ok hDraw
    exact ⟨hCtx, hCur⟩
  have hCase := genTurn_case p (GenState.start p ctx batch nCur)
  generalize hTurn : genTurn p (.start p ctx batch nCur) = turn at hCase hFirst
  cases hCase with
  | noDraw =>
    rw [hLeaves hTurn]
    exact ⟨rfl, rfl⟩
  | noPiece hDraw =>
    rw [hLeaves hTurn]
    exact hDrawn hDraw
  | eogFed _ hDraw _ _ hFed =>
    cases hFed with
    | noRoom =>
      rw [hLeaves hTurn]
      exact hDrawn hDraw
    | failed => cases hFirst
    | done => cases hFirst
  | pieceFed _ hDraw _ _ _ _ hFed =>
    have hSame := hDrawn hDraw
    cases hFed with
    | noRoom =>
      rw [hLeaves hTurn]
      exact hSame
    | failed => cases hFirst
    | done => cases hFirst
  -- the exits that are no failure
  | limit => cases hFirst
  | endOfGeneration => cases hFirst
  | complete => cases hFirst
  | cut => cases hFirst

namespace Conversation

/-- The condition of the results below, for one call. Once it has its room, a
prefill may fail in its first chunk only; behind a prefill that went through no
user turn may be unanswered, and the generation may fail in its first turn only,
before it decodes. -/
def failsCleanly (c : Conversation L) (request : Request) : Bool :=
  match c.prepare request with
  | .error _ => true
  | .ok turn =>
    match turn.conversation.ensureRoomFor turn.needed with
    | (.ok (), c1) =>
      match c1.prefillUser turn.tokens with
      | (.ok batch, c2) =>
        let p := c2.genParams turn.options
        expects .user c.turns = .user &&
          ((runGenerationLoop p c2.ctx batch c2.committedPos).1.isOk ||
            failsUndecoded (genTurn p (.start p c2.ctx batch c2.committedPos)))
      | _ => !firstChunkDecodes L c1.ctx turn.tokens c1.committedPos
    | _ => true

/-! ## Well-formed conversations -/

structure WellFormed (c : Conversation L) : Prop where
  books : ∃ start, c.Bookkeeping start
  alternates : Alternates .user c.turns
  cells : L.cells c.ctx = Cells.layout 0 c.tokens

/-- What a caller relies on, whatever the calls before returned. -/
structure Consistent (c : Conversation L) : Prop where
  alternates : Alternates .user c.turns
  tokens : (c.tokens.length : Int) = c.committedPos
  occupied : ((L.cells c.ctx).length : Int) = c.committedPos
  last : ∀ turn ∈ c.turns.getLast?, turn.endPos = c.committedPos

namespace WellFormed

variable {c : Conversation L}

/-- A well-formed conversation is consistent. -/
theorem consistent (h : c.WellFormed) : c.Consistent := by
  obtain ⟨start, hBooks⟩ := h.books
  refine ⟨h.alternates, hBooks.tokens.symm, ?_, hBooks.adjacent.getLast⟩
  rw [h.cells, Cells.length_layout, hBooks.tokens]

/-- It has committed as much as its cache holds. -/
theorem length_cells (h : c.WellFormed) : c.committedPos = (L.cells c.ctx).length := by
  obtain ⟨start, hBooks⟩ := h.books
  exact hBooks.length_cells h.cells

/-- So its cache fits. -/
theorem fits (h : c.WellFormed) : L.Fits c.ctx := by
  obtain ⟨start, hBooks⟩ := h.books
  exact hBooks.fits h.cells

/-- The cache may be any that holds the same cells. -/
theorem of_cells (h : c.WellFormed) {ctx : L.Ctx} (hCells : L.cells ctx = L.cells c.ctx) :
    WellFormed { c with ctx } := by
  obtain ⟨start, hBooks⟩ := h.books
  exact ⟨⟨start, ⟨hBooks.start_nonneg, hBooks.adjacent, hBooks.tokens, hBooks.prefix_nonneg,
    hBooks.small⟩⟩, h.alternates, hCells.trans h.cells⟩

/-- The oldest two turns may be forgotten. -/
theorem forget (h : c.WellFormed) {user assistant : TurnBoundary} {rest : List TurnBoundary}
    (hTurns : c.turns = user :: assistant :: rest) : WellFormed { c with turns := rest } := by
  obtain ⟨start, hBooks⟩ := h.books
  obtain ⟨-, hStart, hRest, -⟩ := hBooks.exchange hTurns
  have hAlternates := h.alternates
  rw [hTurns] at hAlternates
  have hNonneg := hBooks.start_nonneg
  exact ⟨⟨assistant.endPos, ⟨by omega, hRest, hBooks.tokens, hBooks.prefix_nonneg, hBooks.small⟩⟩,
    hAlternates.2.2, h.cells⟩

/-- Trimming keeps it well-formed. -/
theorem trimmed (h : c.WellFormed) {needed : Int} {c1 : Conversation L}
    (hTrimmed : Trimmed needed c c1) :
    c1.WellFormed ∧ expects .user c1.turns = expects .user c.turns := by
  -- one exchange at a time
  induction hTrimmed with
  | here => exact ⟨h, rfl⟩
  | @evict c1 ctx user assistant rest _ _ hTurns hOutside hCells ih =>
    obtain ⟨hFormed, hExpects⟩ := ih
    obtain ⟨start, hBooks⟩ := hFormed.books
    have hAlternates := hFormed.alternates
    rw [hTurns] at hAlternates
    refine ⟨⟨⟨_, hBooks.evicted hTurns hOutside ctx⟩, hAlternates.2.2.shift _,
      hCells hFormed.cells⟩, ?_⟩
    rw [← hExpects, hTurns]
    exact expects_map_shift _ _ _

/-- The room check, whether it grants or refuses. -/
theorem room (hL : L.Lawful) (h : c.WellFormed) {needed : Int} {o : Outcome Unit}
    {c1 : Conversation L} (hRoom : c.ensureRoomFor needed = (o, c1)) :
    c1.WellFormed ∧ (o = .ok () → expects .user c1.turns = expects .user c.turns) := by
  obtain ⟨start, hBooks⟩ := h.books
  have hCase := ensureRoomFor_case hL hBooks needed
  rw [hRoom] at hCase
  cases hCase with
  | room hTrimmed => exact ⟨(h.trimmed hTrimmed).1, fun _ => (h.trimmed hTrimmed).2⟩
  | full => exact ⟨h, by simp⟩
  | tooFew hTrimmed => exact ⟨(h.trimmed hTrimmed).1, by simp⟩
  | inside hTrimmed _ hTurns => exact ⟨(h.trimmed hTrimmed).1.forget hTurns, by simp⟩

/-- A recorded turn extends all four representations alike. -/
theorem recordTurn (h : c.WellFormed) {role : Role} {ctx : L.Ctx} {pos : Int}
    {tokens : List LlamaToken} (hRole : expects .user c.turns = role)
    (hPos : pos = c.committedPos + tokens.length)
    (hCells : L.cells ctx = L.cells c.ctx ++ Cells.layout c.committedPos tokens)
    (hFits : L.Fits ctx) : (c.recordTurn role ctx pos tokens).WellFormed := by
  obtain ⟨start, hBooks⟩ := h.books
  -- cells and tokens grow by the same tokens, the position by their number
  have hAll : L.cells ctx = Cells.layout 0 (c.tokens ++ tokens) := by
    rw [hCells, h.cells, Cells.layout_append, zero_add, hBooks.tokens]
  have hTokens : pos = (c.tokens ++ tokens).length := by
    rw [hPos, hBooks.tokens, List.length_append, Nat.cast_add]
  refine ⟨⟨start, hBooks.start_nonneg, hBooks.adjacent.append (by omega), hTokens,
    hBooks.prefix_nonneg, ?_⟩, h.alternates.append hRole.symm, hAll⟩
  rw [Llama.Fits, hAll, Cells.length_layout] at hFits
  exact hTokens.trans_le hFits

/-- So does decoding a message. -/
theorem prefilled (hL : L.Lawful) (h : c.WellFormed) {tokens : List LlamaToken} {batch : L.Batch}
    {c2 : Conversation L} (hComplete : expects .user c.turns = .user)
    (hPrefill : c.prefillUser tokens = (.ok batch, c2)) :
    c2.WellFormed ∧ expects .user c2.turns = .assistant := by
  rcases prefillUser_case c tokens with ⟨_, _, -, hCase⟩ | ⟨batch', pos, ctx, hDecoded, hCase⟩
  · rw [hPrefill] at hCase
    cases hCase
  rw [hPrefill] at hCase
  cases hCase
  obtain ⟨hCells, hPos, hFits⟩ := decodeChunked_ok hL h.length_cells hDecoded
  refine ⟨h.recordTurn hComplete hPos hCells (hFits h.fits), ?_⟩
  simp only [Conversation.recordTurn, expects_append, hComplete, Role.other]

/-- And so does generating a reply, if that is how it fails. -/
theorem generated (hL : L.Lawful) (h : c.WellFormed) {options : TurnOptions} {batch : L.Batch}
    {o : Outcome (Text × List LlamaToken)} {c3 : Conversation L}
    (hOpen : expects .user c.turns = .assistant)
    (hFirst : (runGenerationLoop (c.genParams options) c.ctx batch c.committedPos).1.isOk = true ∨
      failsUndecoded (genTurn (c.genParams options)
        (.start (c.genParams options) c.ctx batch c.committedPos)) = true)
    (hGenerate : c.generateAssistant options batch = (o, c3)) : c3.WellFormed := by
  rcases generateAssistant_case c options batch with ⟨e, s, hLoop, hCase⟩ | ⟨s, hLoop, hCase⟩
  · rw [hGenerate] at hCase
    cases hCase
    rw [hLoop] at hFirst
    rcases hFirst with hOk | hFirst
    · cases hOk
    -- failed on its first turn: nothing was written yet
    obtain ⟨hCtx, hCur⟩ := runGenerationLoop_first hFirst
    rw [hLoop] at hCtx hCur
    dsimp only at hCtx hCur
    rw [hCtx, hCur]
    exact h
  · rw [hGenerate] at hCase
    cases hCase
    -- ended well: the reply is laid out behind the user turn
    have hLaid := runGenerationLoop_laid hL (c.genParams options) h.fits batch c.committedPos
    rw [hLoop] at hLaid
    rcases hLaid.nCur with hCur | ⟨hNot, -⟩
    · exact h.recordTurn hOpen hCur hLaid.cells hLaid.fits
    · exact absurd rfl hNot

/-- A prepared turn starts from a well-formed conversation. -/
theorem prepared (h : c.WellFormed) {request : Request} {turn : PreparedTurn L}
    (hPrepare : c.prepare request = .ok turn) :
    turn.conversation.WellFormed ∧ turn.conversation.turns = c.turns := by
  cases prepare_ok hPrepare with
  -- a message may set the protected prefix, and sets nothing else
  | message _ _ hProtect =>
    rcases protectOpening_ok hProtect with rfl | ⟨-, -, openingTokens, -, -, rfl⟩
    · exact ⟨h, rfl⟩
    · obtain ⟨start, hBooks⟩ := h.books
      exact ⟨⟨⟨start, ⟨hBooks.start_nonneg, hBooks.adjacent, hBooks.tokens,
        Int.natCast_nonneg _, hBooks.small⟩⟩, h.alternates, h.cells⟩, rfl⟩
  | results => exact ⟨h, rfl⟩

/-- A turn that got past its prefill: room, user turn and reply, one after the other. -/
theorem answered (hL : L.Lawful) (h : c.WellFormed) {needed : Int} {tokens : List LlamaToken}
    {options : TurnOptions} {batch : L.Batch} {o : Outcome (Text × List LlamaToken)}
    {c1 c2 c3 : Conversation L} (hRoom : c.ensureRoomFor needed = (.ok (), c1))
    (hPrefill : c1.prefillUser tokens = (.ok batch, c2))
    (hClean : (expects .user c.turns = .user &&
      ((runGenerationLoop (c2.genParams options) c2.ctx batch c2.committedPos).1.isOk ||
        failsUndecoded (genTurn (c2.genParams options)
          (.start (c2.genParams options) c2.ctx batch c2.committedPos)))) = true)
    (hGenerate : c2.generateAssistant options batch = (o, c3)) : c3.WellFormed := by
  simp only [Bool.and_eq_true, decide_eq_true_eq, Bool.or_eq_true] at hClean
  obtain ⟨hRoomy, hExpects⟩ := h.room hL hRoom
  have hComplete : expects .user c1.turns = .user := by rw [hExpects rfl, hClean.1]
  obtain ⟨hFilled, hOpen⟩ := hRoomy.prefilled hL hComplete hPrefill
  exact hFilled.generated hL hOpen hClean.2 hGenerate

/-- **One call.** However it ends, a call that fails cleanly if at all leaves a
well-formed conversation well-formed. -/
theorem after (hL : L.Lawful) (h : c.WellFormed) {request : Request}
    (hClean : c.failsCleanly request = true) : (c.after request).WellFormed := by
  unfold failsCleanly at hClean
  rw [Conversation.after, call_eq]
  cases hPrepare : c.prepare request with
  | error e => exact h
  | ok turn =>
    rw [hPrepare] at hClean
    dsimp only at hClean
    obtain ⟨hTurn, hTurns⟩ := h.prepared hPrepare
    -- what the call got to decides which part of the condition applies
    have hCase := run_case turn
    rw [runPrepared]
    generalize turn.run = result at hCase ⊢
    cases hCase with
    | refused hRoom => exact (hTurn.room hL hRoom).1
    | broken hRoom => exact (hTurn.room hL hRoom).1
    | prefillFails hRoom hPrefill =>
      rw [hRoom] at hClean
      dsimp only at hClean
      rw [hPrefill] at hClean
      simp only [Bool.not_eq_true'] at hClean
      -- a prefill that fails in its first chunk has left the cache as it was
      have hRoomy := (hTurn.room hL hRoom).1
      rcases prefillUser_case _ turn.tokens with ⟨e, ctx, hDecoded, hEq⟩ | ⟨_, _, _, -, hEq⟩
      · rw [hPrefill] at hEq
        cases hEq
        exact hRoomy.of_cells (decodeChunked_first hL hClean hDecoded)
      · rw [hPrefill] at hEq
        cases hEq
    | generationFails hRoom hPrefill hGenerate =>
      rw [hRoom] at hClean
      dsimp only at hClean
      rw [hPrefill, ← hTurns] at hClean
      exact hTurn.answered hL hRoom hPrefill hClean hGenerate
    | replied hRoom hPrefill hGenerate =>
      rw [hRoom] at hClean
      dsimp only at hClean
      rw [hPrefill, ← hTurns] at hClean
      exact hTurn.answered hL hRoom hPrefill hClean hGenerate

/-- Saving and reopening brings back tokens, turns and cells as they were. -/
theorem hibernated (hL : L.Lawful) (h : c.WellFormed) {session : LlamaSession}
    {snapshot : Snapshot L} {c' : Conversation L} (hSave : c.saveState = .ok snapshot)
    (hOpen : session.openConversationFromState snapshot = .ok c') : c'.WellFormed := by
  obtain ⟨hFile, hSidecar⟩ := saveState_ok hSave
  obtain ⟨-, -, hTurns, -, -, -, hCommitted, -, hPrefix, -, ⟨_, _, -, -, -, hLoad⟩, -⟩ :=
    openConversationFromState_ok hOpen
  obtain ⟨hTokens, hCells⟩ := hL.stateLoadFile_ok hFile hLoad
  obtain ⟨start, hBooks⟩ := h.books
  rw [hSidecar] at hTurns
  dsimp only at hTurns
  -- the position is counted anew, and comes out the same
  have hSame : c'.committedPos = c.committedPos := by
    rw [hCommitted, hTokens, hBooks.tokens]
  refine ⟨⟨start, hBooks.start_nonneg, ?_, hCommitted, hPrefix.ge, ?_⟩, ?_, ?_⟩
  · rw [hTurns, hSame]
    exact hBooks.adjacent
  · rw [hSame]
    exact hBooks.small
  · rw [hTurns]
    exact h.alternates
  · rw [hCells, h.cells, hTokens]

end WellFormed

/-- A conversation just opened is well-formed. -/
theorem Opened.wellFormed (hL : L.Lawful) {c : Conversation L} (h : c.Opened) : c.WellFormed := by
  obtain ⟨session, options, hOpen⟩ := h
  obtain ⟨hTurns, hTokens, hCommitted, hPrefix, ⟨params, hCtx, -⟩, -⟩ := openConversation_ok hOpen
  refine ⟨⟨0, le_rfl, ?_, ?_, hPrefix.ge, ?_⟩, ?_, ?_⟩
  · rw [hTurns, hCommitted]
    rfl
  · rw [hCommitted, hTokens]
    rfl
  · rw [hCommitted]
    decide
  · rw [hTurns]
    trivial
  · rw [hL.cells_newContext hCtx, hTokens]
    rfl

/-! ## Runs -/

/-- The condition, for any event. -/
def CleanEvent (c : Conversation L) : Event → Prop
  | .request request => c.failsCleanly request = true
  | .hibernate _ => True

/-- Every clean event keeps it so. -/
theorem WellFormed.step (hL : L.Lawful) {c : Conversation L} (h : c.WellFormed) {event : Event}
    (hClean : c.CleanEvent event) : (c.step event).WellFormed := by
  cases event with
  | request request => exact h.after hL hClean
  | hibernate session =>
    rw [Conversation.step]
    split
    · rename_i snapshot hSave
      split
      · rename_i c' hOpen
        exact h.hibernated hL hSave hOpen
      · exact h
    · exact h

/-- **Failures over whole runs.** When every call that fails does so cleanly, the
representations agree after each of them, and after every reopening. -/
theorem run_consistent (hL : L.Lawful) {c0 c : Conversation L} (hOpened : c0.Opened)
    (hRun : Reaches Conversation.step CleanEvent c0 c) : c.Consistent :=
  (hRun.induction WellFormed (hOpened.wellFormed hL) fun _ _ h hClean => h.step hL hClean).consistent

/-- A model whose decodes fail on a cache of `n` cells, and that never ends a turn. -/
def Script.brokenAt (n : Nat) : Script := ⟨fun _ => Script.tokenOf 'a', fun cells => cells == n⟩

/-- A conversation with it, in a context of 64 tokens. -/
def broken (n : Nat) : Conversation (Llama.scripted (Script.brokenAt n)) :=
  (Script.session.openConversation _ (Script.options 64 none [])).get rfl

/-- The broken one was opened like any other. -/
theorem broken_opened (n : Nat) : (broken n).Opened := ⟨_, _, Outcome.eq_ok_get _ _⟩

/-- A second turn of which not even the first chunk decodes leaves everything as
it was. -/
theorem broken_consistent :
    (((broken 25).after (Script.say "hi" 4)).after (Script.say "ho" 4)).Consistent ∧
      (((broken 25).after (Script.say "hi" 4)).call (Script.say "ho" 4)).1.isOk = false := by
  refine ⟨run_consistent (Llama.scripted_lawful _) (broken_opened 25)
    (.tail (i := Event.request (Script.say "ho" 4))
      (.tail (i := Event.request (Script.say "hi" 4)) .start ?_) ?_), by decide⟩
  · show failsCleanly _ _ = true
    decide
  · show failsCleanly _ _ = true
    decide

/-- A reply that breaks off at its third token leaves two tokens in the cache that
the conversation does not list, and a position past a third. -/
theorem failed_reply_leaves_inconsistent :
    ¬ ∀ (L : Llama), L.Lawful → ∀ (c : Conversation L) (request : Request) (e : LlamaSessionError),
      c.Reachable → (c.call request).1 = .err e → (c.after request).Consistent := by
  intro h
  have hErr : ((broken 23).call (Script.say "hi" 4)).1 =
      .err (.decode "Decode Error 1: NoKvCacheSlot".toList) :=
    Outcome.eq_err_of_error (by decide)
  -- a context that fails from its 23rd cell on breaks off the third token of the reply
  have hTokens := (h _ (Llama.scripted_lawful _) (broken 23) (Script.say "hi" 4) _
    ⟨_, broken_opened 23, .start⟩ hErr).tokens
  have hLength : ((broken 23).after (Script.say "hi" 4)).tokens.length = 21 := by decide
  have hPos : ((broken 23).after (Script.say "hi" 4)).committedPos = 24 := by decide
  rw [hLength, hPos] at hTokens
  exact absurd hTokens (by decide)

end Conversation

end Rampipe
