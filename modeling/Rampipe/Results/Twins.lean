import Rampipe.Model.Contexts

/-!
# Rampipe — conversations that only their contexts tell apart

Two conversations over contexts that answer alike return the same from every call, and are
such two again behind it. A conversation that was saved and reopened is not quite the other
of such a pair: it has lost its opening, its system text and what it protects. Once a turn
is recorded the first two are not asked for, and the third is not as long as nothing is
evicted.

* `runGenerationLoop_beside` — the same reply is generated over the one context and the other.
* `call_twin`                — the same comes of a call, and the two are twins behind it.
-/

namespace Rampipe

open Machine Text

variable {L : Llama} {R : L.Ctx → L.Ctx → Prop}

/-! ## Prefill -/

/-- The chunks go through alike, or fail in the same one. -/
theorem decodeChunks_same (hR : Bisimulation L.perform R) (tokens : List LlamaToken) (nCur : Int)
    (starts : List Nat) (batch : L.Batch) {a b : L.Ctx} (h : R a b) :
    Same R (decodeChunks L tokens nCur starts batch a)
      (decodeChunks L tokens nCur starts batch b) := by
  -- on the chunks that are left; of all that is done only a decode sees the contexts
  induction starts generalizing batch a b with
  | nil => exact .intro _ h
  | cons start starts ih =>
    rw [decodeChunks, decodeChunks]
    cases addAll L (L.clear batch) (chunkEntries tokens nCur start) with
    | error e => exact .intro _ h
    | ok batch =>
      have hDecode : Same R (L.decode a batch) (L.decode b batch) := hR h (.decode batch)
      dsimp only
      generalize L.decode a batch = here at hDecode ⊢
      generalize L.decode b batch = there at hDecode ⊢
      cases hDecode with
      | intro outcome hNext =>
        cases outcome with
        | error source => exact .intro _ hNext
        | ok => exact ih batch hNext

/-- So does a prefill, and the position it gives back is the same. -/
theorem decodeChunked_same (hR : Bisimulation L.perform R) {a b : L.Ctx} (h : R a b)
    (batch : L.Batch) (tokens : List LlamaToken) (nCur : Int) :
    Same R (decodeChunked L a batch tokens nCur) (decodeChunked L b batch tokens nCur) := by
  have hChunks := decodeChunks_same hR tokens nCur (chunkStarts tokens.length) batch h
  unfold decodeChunked
  by_cases hEmpty : tokens.isEmpty = true
  · rw [if_pos hEmpty, if_pos hEmpty]
    exact .intro _ h
  rw [if_neg hEmpty, if_neg hEmpty]
  generalize decodeChunks L tokens nCur (chunkStarts tokens.length) batch a = here at hChunks ⊢
  generalize decodeChunks L tokens nCur (chunkStarts tokens.length) batch b = there at hChunks ⊢
  cases hChunks with
  | intro outcome hNext => cases outcome <;> exact .intro _ hNext

/-! ## Generation -/

namespace GenState

/-- The same variables over related contexts. -/
inductive Beside (R : L.Ctx → L.Ctx → Prop) (s : GenState L) : GenState L → Prop
  | intro {ctx : L.Ctx} : R s.ctx ctx → Beside R s { s with ctx }

/-- The same token is drawn, which leaves the context as it is. -/
theorem draw_beside (hR : Bisimulation L.perform R) (p : GenParams) {s : GenState L} {ctx : L.Ctx}
    (h : R s.ctx ctx) :
    draw p { s with ctx } = (s.draw p).map fun (token, s1) => (token, { s1 with ctx }) := by
  -- a sampler reads the context and leaves it
  have hSample : ∀ sampler index, L.sample sampler ctx index = L.sample sampler s.ctx index := by
    intro sampler index
    have hSame : Same R (L.sample sampler s.ctx index, s.ctx) (L.sample sampler ctx index, ctx) :=
      hR h (.sample sampler index)
    generalize L.sample sampler s.ctx index = here at hSame ⊢
    generalize L.sample sampler ctx index = there at hSame ⊢
    cases hSame
    rfl
  unfold draw
  cases s.sampler with
  | some sampler =>
    simp only [hSample]
    rfl
  | none =>
    cases buildChain L p.sampling p.grammar with
    | error e => rfl
    | ok sampler =>
      simp only [hSample]
      rfl

end GenState

open GenState in

/-- A token is fed into both caches, or into neither. -/
theorem feedAndContinue_beside (hR : Bisimulation L.perform R) (token : LlamaToken)
    {s : GenState L} {ctx : L.Ctx} (h : R s.ctx ctx) :
    Loop.Turn.Related (Beside R) (Same (Beside R)) (feedAndContinue token s)
      (feedAndContinue token { s with ctx }) := by
  unfold feedAndContinue feed
  dsimp only
  cases L.add (L.clear s.batch) { token, pos := s.nCur, logits := true } with
  | error source => exact .leave (.intro _ (.intro h))
  | ok batch =>
    have hDecode : Same R (L.decode s.ctx batch) (L.decode ctx batch) := hR h (.decode batch)
    dsimp only
    generalize L.decode s.ctx batch = here at hDecode ⊢
    generalize L.decode ctx batch = there at hDecode ⊢
    cases hDecode with
    | @intro outcome a b hNext =>
      cases outcome with
      | error source =>
        exact .leave (.intro _ (.intro (s := { s with ctx := a, batch, nCur := s.nCur + 1 }) hNext))
      | ok =>
        exact .again (.intro (s := { s with
          ctx := a, batch, nCur := s.nCur + 1, generated := s.generated ++ [token] }) hNext)

open GenState in
/-- One turn of the loop over related contexts. -/
theorem genTurn_beside (hR : Bisimulation L.perform R) (p : GenParams) (s s' : GenState L)
    (h : Beside R s s') :
    Loop.Turn.Related (Beside R) (Same (Beside R)) (genTurn p s) (genTurn p s') := by
  obtain ⟨h⟩ := h
  rename_i ctx
  unfold genTurn
  by_cases hLimit : s.AtLimit p
  · rw [if_pos hLimit, if_pos (show AtLimit p { s with ctx } from hLimit)]
    exact .leave (.intro _ (.intro h))
  rw [if_neg hLimit, if_neg (show ¬ AtLimit p { s with ctx } from hLimit), draw_beside hR p h]
  cases hDraw : s.draw p with
  | error e => exact .leave (.intro _ (.intro h))
  | ok drawn =>
    obtain ⟨token, s1⟩ := drawn
    have hNext : R s1.ctx ctx := by
      rw [(draw_ok hDraw).1]
      exact h
    dsimp only [Except.map]
    cases L.isEogToken token with
    | true =>
      cases insideOpenThink s1.text with
      | true => exact feedAndContinue_beside hR token hNext
      | false => exact .leave (.intro _ (.intro hNext))
    | false =>
      cases L.tokenToPiece token s1.decoder with
      | error source => exact .leave (.intro _ (.intro hNext))
      | ok read =>
        obtain ⟨piece, decoder⟩ := read
        have hPush : push piece decoder { s1 with ctx } = { s1.push piece decoder with ctx } := rfl
        have hPushed : R (s1.push piece decoder).ctx ctx := hNext
        dsimp only
        rw [hPush]
        generalize s1.push piece decoder = s2 at hPushed ⊢
        dsimp only
        -- what is asked of the text is the same text's answer
        cases isComplete p s2.text with
        | true => exact .leave (.intro _ (.intro hPushed))
        | false =>
          cases turnCut p s2.text with
          | some cut =>
            exact .leave (.intro _ (.intro (s := { s2 with text := s2.text.take cut }) hPushed))
          | none => exact feedAndContinue_beside hR token hPushed

open GenState in

/-- The two loops leave by the same way. -/
theorem genLoop_beside (hR : Bisimulation L.perform R) (p : GenParams) {s s' : GenState L}
    (h : Beside R s s') : Same (Beside R) (genLoop p s) (genLoop p s') := by
  -- both loops end, and the turns they leave in are related
  have hHere := (Option.some_get (genLoop_ends p s)).symm
  have hThere := (Option.some_get (genLoop_ends p s')).symm
  obtain ⟨exit', hRun, hExit⟩ := Loop.iterate_related (genTurn_beside hR p) h hHere
  obtain ⟨h⟩ := h
  cases hRun.symm.trans hThere
  exact hExit

open GenState in
/-- The same is generated over the one context and the other. -/
theorem runGenerationLoop_beside (hR : Bisimulation L.perform R) (p : GenParams) {a b : L.Ctx}
    (h : R a b) (batch : L.Batch) (nCur : Int) :
    Same (Beside R) (runGenerationLoop p a batch nCur) (runGenerationLoop p b batch nCur) := by
  have hInitial : ∀ sampler,
      Beside R (.initial a batch nCur sampler) (.initial b batch nCur sampler) :=
    fun sampler => .intro (s := .initial a batch nCur sampler) h
  unfold runGenerationLoop
  cases p.grammar with
  | some grammar => exact genLoop_beside hR p (hInitial none)
  | none =>
    cases buildChain L p.sampling none with
    | error e => exact .intro _ (hInitial none)
    | ok sampler => exact genLoop_beside hR p (hInitial (some sampler))

namespace Conversation

/-! ## Twins -/

/-- What a conversation is opened with, and how much of the cache it protects for that. -/
structure Start where
  opening : Text
  systemForFirstTurn : Option Text
  protectedPrefix : Int
  deriving DecidableEq

def start (c : Conversation L) : Start := ⟨c.opening, c.systemForFirstTurn, c.protectedPrefix⟩

/-- The conversation over another context and with another start. -/
def movedTo (c : Conversation L) (ctx : L.Ctx) (start : Start) : Conversation L :=
  { c with
    ctx
    opening := start.opening
    systemForFirstTurn := start.systemForFirstTurn
    protectedPrefix := start.protectedPrefix }

/-- The same conversation over related contexts. Where nothing is evicted the start of one
with a turn does not count. -/
inductive Twin (R : L.Ctx → L.Ctx → Prop) (evicts : Prop) (c : Conversation L) :
    Conversation L → Prop
  | intro (ctx : L.Ctx) (start : Start) : R c.ctx ctx →
      (start = c.start ∨ ¬ evicts ∧ c.turns ≠ []) → Twin R evicts c (c.movedTo ctx start)

variable {evicts : Prop} {c c' : Conversation L}

/-- Twins that evict alike are twins. -/
theorem Twin.of_start (h : Twin R True c c') : Twin R evicts c c' := by
  obtain ⟨_, _, hRel, hStart⟩ := h
  exact .intro _ _ hRel (.inl (hStart.resolve_right fun hNo => hNo.1 trivial))

/-- A conversation is its own twin, if its context looks like itself. -/
theorem Twin.refl (h : R c.ctx c.ctx) : Twin R evicts c c := .intro _ c.start h (.inl rfl)

/-! ### Making room -/

/-- What is removed from one cache is removed from the other. -/
theorem kvCacheSeqRm_related (hR : Bisimulation L.perform R) {a b : L.Ctx} (h : R a b)
    (p0 p1 : Nat) :
    (∃ source, L.kvCacheSeqRm a p0 p1 = .error source ∧ L.kvCacheSeqRm b p0 p1 = .error source) ∨
    ∃ removed a' b', L.kvCacheSeqRm a p0 p1 = .ok (removed, a') ∧
      L.kvCacheSeqRm b p0 p1 = .ok (removed, b') ∧ R a' b' :=
  Llama.orUnchanged_same (hR h (.kvCacheSeqRm p0 p1))

/-- What is shifted in one cache is shifted in the other. -/
theorem kvCacheSeqAdd_related (hR : Bisimulation L.perform R) {a b : L.Ctx} (h : R a b)
    (p0 : Nat) (delta : Int) :
    (∃ source, L.kvCacheSeqAdd a p0 delta = .error source ∧
      L.kvCacheSeqAdd b p0 delta = .error source) ∨
    ∃ a' b', L.kvCacheSeqAdd a p0 delta = .ok a' ∧ L.kvCacheSeqAdd b p0 delta = .ok b' ∧
      R a' b' := by
  have hSame := Llama.orUnchanged_same (hR h (.kvCacheSeqAdd p0 delta))
  generalize L.kvCacheSeqAdd a p0 delta = here at hSame ⊢
  generalize L.kvCacheSeqAdd b p0 delta = there at hSame ⊢
  rcases hSame with ⟨source, hHere, hThere⟩ | ⟨_, a', b', hHere, hThere, hNext⟩
  · rcases here with _ | _ <;> cases hHere
    rcases there with _ | _ <;> cases hThere
    exact .inl ⟨source, rfl, rfl⟩
  · rcases here with _ | _ <;> cases hHere
    rcases there with _ | _ <;> cases hThere
    exact .inr ⟨a', b', rfl, rfl, hNext⟩

/-- A span is cut out of both, or its removal fails in both. -/
theorem removeSpan_twin (hR : Bisimulation L.perform R) (h : Twin R True c c') (start stop : Int) :
    Same (Twin R True) (c.removeSpan start stop) (c'.removeSpan start stop) := by
  obtain ⟨ctx, _, hRel, hStart⟩ := h
  obtain rfl := hStart.resolve_right fun hNo => hNo.1 trivial
  unfold removeSpan
  -- a step that fails leaves both as far as they got
  dsimp only [movedTo]
  rcases kvCacheSeqRm_related hR hRel (asU32 start) (asU32 stop) with
    ⟨source, hHere, hThere⟩ | ⟨removed, a, b, hHere, hThere, hNext⟩
  · rw [hHere, hThere]
    exact .intro _ (.intro _ c.start hRel (.inl rfl))
  rw [hHere, hThere]
  dsimp only
  rcases kvCacheSeqAdd_related hR hNext (asU32 stop) (-(stop - start)) with
    ⟨source, hHere, hThere⟩ | ⟨a', b', hHere, hThere, hLast⟩
  · rw [hHere, hThere]
    exact .intro _ (.intro (c := { c with ctx := a }) _ c.start hNext (.inl rfl))
  rw [hHere, hThere]
  dsimp only
  cases drain (asUsize start) (asUsize stop) c.tokens with
  | none =>
    exact .intro _ (.intro (c := { c with
      ctx := a'
      turns := c.turns.map (·.shift (stop - start))
      committedPos := c.committedPos - (stop - start) }) _ c.start hLast (.inl rfl))
  | some tokens =>
    exact .intro _ (.intro (c := { c with
      ctx := a'
      turns := c.turns.map (·.shift (stop - start))
      committedPos := c.committedPos - (stop - start)
      tokens }) _ c.start hLast (.inl rfl))

/-- A conversation in the loop of the evictions, and how much that freed. -/
inductive Dropping (R : L.Ctx → L.Ctx → Prop) :
    Conversation L × Int → Conversation L × Int → Prop
  | intro {c c' : Conversation L} (freed : Int) : Twin R True c c' → Dropping R (c, freed) (c', freed)

/-- The drop loops of both look at the same turns, and leave together. -/
theorem dropTurn_twin (hR : Bisimulation L.perform R) (needed : Int)
    (s s' : Conversation L × Int) (h : Dropping R s s') :
    Loop.Turn.Related (Dropping R) (Same (Twin R True)) (dropTurn needed s) (dropTurn needed s') := by
  obtain @⟨c, c', freed, h⟩ := h
  obtain ⟨ctx, _, hRel, hStart⟩ := h
  -- the start of the span that goes is what the opening takes, so both must start alike
  obtain rfl := hStart.resolve_right fun hNo => hNo.1 trivial
  have hHere : Twin R True c (c.movedTo ctx c.start) := .intro _ _ hRel (.inl rfl)
  unfold dropTurn
  dsimp only
  by_cases hFits : i32 (i32 (c.committedPos + needed) - freed) < c.nCtx
  · rw [if_pos hFits, if_pos (show i32 (i32 ((c.movedTo ctx c.start).committedPos + needed) - freed) <
      (c.movedTo ctx c.start).nCtx from hFits)]
    exact .leave (.intro _ hHere)
  rw [if_neg hFits, if_neg (show ¬ i32 (i32 ((c.movedTo ctx c.start).committedPos + needed) - freed) <
    (c.movedTo ctx c.start).nCtx from hFits)]
  have hTurns : (c.movedTo ctx c.start).turns = c.turns := rfl
  rw [hTurns]
  rcases c.turns with _ | ⟨user, _ | ⟨assistant, rest⟩⟩
  · exact .leave (.intro _ hHere)
  · exact .leave (.intro _ hHere)
  dsimp only
  have hRest : Twin R True { c with turns := rest } { c.movedTo ctx c.start with turns := rest } :=
    .intro (c := { c with turns := rest }) _ c.start hRel (.inl rfl)
  have hEviction : evictionStart { c.movedTo ctx c.start with turns := rest } user =
      evictionStart { c with turns := rest } user := rfl
  rw [hEviction]
  by_cases hInside : assistant.endPos - evictionStart { c with turns := rest } user ≤ 0
  · rw [if_pos hInside, if_pos hInside]
    exact .leave (.intro _ hRest)
  rw [if_neg hInside, if_neg hInside]
  have hRemove := removeSpan_twin hR hRest (evictionStart { c with turns := rest } user)
    assistant.endPos
  generalize removeSpan { c with turns := rest } (evictionStart { c with turns := rest } user)
    assistant.endPos = here at hRemove ⊢
  generalize removeSpan { c.movedTo ctx c.start with turns := rest }
    (evictionStart { c with turns := rest } user) assistant.endPos = there at hRemove ⊢
  cases hRemove with
  | intro outcome hNext =>
    cases outcome with
    | ok => exact .again (.intro _ hNext)
    | err e => exact .leave (.intro _ hNext)
    | panicked => exact .leave (.intro _ hNext)
    | hangs => exact .leave (.intro _ hNext)

/-- They drop the same exchanges. -/
theorem dropOldestTurnsFor_twin (hR : Bisimulation L.perform R) (h : Twin R True c c')
    (needed : Int) :
    Same (Twin R True) (c.dropOldestTurnsFor needed) (c'.dropOldestTurnsFor needed) := by
  have hHere := (Option.some_get (dropLoop_ends c needed)).symm
  have hThere := (Option.some_get (dropLoop_ends c' needed)).symm
  obtain ⟨step, hRun, hStep⟩ :=
    Loop.iterate_related (dropTurn_twin hR needed) (.intro 0 h) hHere
  obtain ⟨_, _, hRel, -⟩ := h
  cases hRun.symm.trans hThere
  exact hStep

/-- Whatever happens for room happens to both, where nothing is evicted or both start alike. -/
theorem ensureRoomFor_twin (hR : Bisimulation L.perform R) (h : Twin R evicts c c') {needed : Int}
    (hSpares : ¬ evicts → c.overflow = .fail ∨ i32 (c.committedPos + needed) < c.nCtx) :
    Same (Twin R evicts) (c.ensureRoomFor needed) (c'.ensureRoomFor needed) := by
  obtain ⟨ctx, start, hRel, hStart⟩ := h
  have hHere : Twin R evicts c (c.movedTo ctx start) := .intro _ _ hRel hStart
  unfold ensureRoomFor
  by_cases hFits : i32 (c.committedPos + needed) < c.nCtx
  · rw [if_pos hFits, if_pos (show i32 ((c.movedTo ctx start).committedPos + needed) <
      (c.movedTo ctx start).nCtx from hFits)]
    exact .intro _ hHere
  rw [if_neg hFits, if_neg (show ¬ i32 ((c.movedTo ctx start).committedPos + needed) <
    (c.movedTo ctx start).nCtx from hFits)]
  have hPolicy : (c.movedTo ctx start).overflow = c.overflow := rfl
  rw [hPolicy]
  cases hOverflow : c.overflow with
  | fail => exact .intro _ hHere
  | dropOldestTurns =>
    -- something is evicted, so both start alike
    have hEvicts : evicts := by
      by_contra hNo
      rcases hSpares hNo with hFail | hRoom
      · rw [hOverflow] at hFail
        cases hFail
      · exact hFits hRoom
    have hSame : start = c.start := hStart.resolve_right fun hNo => hNo.1 hEvicts
    exact (dropOldestTurnsFor_twin hR (.intro _ _ hRel (.inl hSame)) needed).mono
      fun _ _ _ _ hTwin => hTwin.of_start

/-! ### Taking a turn -/

/-- A turn that both record keeps them twins. -/
theorem Twin.recordTurn {ctx : L.Ctx} (h : Twin R evicts c c') (role : Role) {ctx' : L.Ctx}
    (hRel : R ctx ctx') (pos : Int) (tokens : List LlamaToken) :
    Twin R evicts (c.recordTurn role ctx pos tokens) (c'.recordTurn role ctx' pos tokens) := by
  obtain ⟨_, _, -, hStart⟩ := h
  refine .intro (c := c.recordTurn role ctx pos tokens) _ _ hRel ?_
  exact hStart.imp_right fun hLater => ⟨hLater.1, List.append_ne_nil_of_right_ne_nil _ (by simp)⟩

/-- A message is decoded onto both. -/
theorem prefillUser_twin (hR : Bisimulation L.perform R) (h : Twin R evicts c c')
    (tokens : List LlamaToken) :
    Same (Twin R evicts) (c.prefillUser tokens) (c'.prefillUser tokens) := by
  have hTwin := h
  obtain ⟨ctx, start, hRel, hStart⟩ := h
  have hDecode := decodeChunked_same hR hRel (L.newBatch 512 1) tokens c.committedPos
  unfold prefillUser
  have hOver : (c.movedTo ctx start).ctx = ctx ∧ (c.movedTo ctx start).committedPos = c.committedPos :=
    ⟨rfl, rfl⟩
  rw [hOver.1, hOver.2]
  generalize decodeChunked L c.ctx (L.newBatch 512 1) tokens c.committedPos = here at hDecode ⊢
  generalize decodeChunked L ctx (L.newBatch 512 1) tokens c.committedPos = there at hDecode ⊢
  cases hDecode with
  | @intro outcome a b hNext =>
    obtain ⟨outcome, pos⟩ := outcome
    cases outcome with
    | error e =>
      exact .intro _ (.intro (c := { c with ctx := a, committedPos := pos }) _ start hNext hStart)
    | ok _ => exact .intro _ (hTwin.recordTurn .user hNext pos tokens)

/-- Both draw the same reply. -/
theorem generateAssistant_twin (hR : Bisimulation L.perform R) (h : Twin R evicts c c')
    (options : TurnOptions) (batch : L.Batch) :
    Same (Twin R evicts) (c.generateAssistant options batch)
      (c'.generateAssistant options batch) := by
  have hTwin := h
  obtain ⟨ctx, start, hRel, hStart⟩ := h
  have hLoop := runGenerationLoop_beside hR (c.genParams options) hRel batch c.committedPos
  unfold generateAssistant
  have hOver : (c.movedTo ctx start).genParams options = c.genParams options ∧
      (c.movedTo ctx start).ctx = ctx ∧ (c.movedTo ctx start).committedPos = c.committedPos :=
    ⟨rfl, rfl, rfl⟩
  rw [hOver.1, hOver.2.1, hOver.2.2]
  generalize runGenerationLoop (c.genParams options) c.ctx batch c.committedPos = here at hLoop ⊢
  generalize runGenerationLoop (c.genParams options) ctx batch c.committedPos = there at hLoop ⊢
  cases hLoop with
  | @intro outcome s s' hBeside =>
    obtain ⟨hNext⟩ := hBeside
    cases outcome with
    | error e =>
      exact .intro _ (.intro (c := { c with ctx := s.ctx, committedPos := s.nCur })
        _ start hNext hStart)
    | ok => exact .intro _ (hTwin.recordTurn .assistant hNext s.nCur s.generated)

/-- What goes on alike behind steps that are alike, is alike. -/
theorem andThen_twin {α β : Type} {here there : Step L α} (h : Same (Twin R evicts) here there)
    {next next' : α → Conversation L → Step L β}
    (hNext : ∀ value c c', Twin R evicts c c' →
      Same (Twin R evicts) (next value c) (next' value c')) :
    Same (Twin R evicts) (here.andThen next) (there.andThen next') := by
  cases h with
  | intro outcome h =>
    cases outcome with
    | ok value => exact hNext value _ _ h
    | err e => exact .intro _ h
    | panicked => exact .intro _ h
    | hangs => exact .intro _ h

/-- A prepared turn is run alike, as long as nothing is evicted where only one could. -/
theorem run_twin (hR : Bisimulation L.perform R) {turn : PreparedTurn L}
    (h : Twin R evicts turn.conversation c')
    (hSpares : ¬ evicts → turn.conversation.overflow = .fail ∨
      i32 (turn.conversation.committedPos + turn.needed) < turn.conversation.nCtx) :
    Same (Twin R evicts) turn.run { turn with conversation := c' }.run := by
  unfold PreparedTurn.run
  refine andThen_twin (ensureRoomFor_twin hR h hSpares) fun _ c c' hRoom => ?_
  refine andThen_twin (prefillUser_twin hR hRoom turn.tokens) fun batch c c' hPrefill => ?_
  refine andThen_twin (generateAssistant_twin hR hPrefill turn.options batch)
    fun generated c c' hGenerate => ?_
  -- what is reported is read off what both have alike
  have hReport : c'.report turn.formattedPrompt turn.assistantPrefill generated.1 generated.2 =
      c.report turn.formattedPrompt turn.assistantPrefill generated.1 generated.2 := by
    obtain ⟨_, _, -, -⟩ := hGenerate
    rfl
  dsimp only
  rw [hReport]
  exact .intro _ hGenerate

/-! ### Preparing one -/

/-- Both fail alike, or both have the same turn to run. -/
inductive PreparedTwins (R : L.Ctx → L.Ctx → Prop) (evicts : Prop) :
    Except LlamaSessionError (PreparedTurn L) → Except LlamaSessionError (PreparedTurn L) → Prop
  | failed (e : LlamaSessionError) : PreparedTwins R evicts (.error e) (.error e)
  | prepared (turn : PreparedTurn L) {c' : Conversation L} : Twin R evicts turn.conversation c' →
      PreparedTwins R evicts (.ok turn) (.ok { turn with conversation := c' })

/-- With a turn behind it, a message is rendered without the start. -/
theorem userText_movedTo (ctx : L.Ctx) {start : Start} (hBegun : start = c.start ∨ c.turns ≠ [])
    (message : Text) (assistantPrefill : Option Text) :
    (c.movedTo ctx start).userText message assistantPrefill = c.userText message assistantPrefill ∧
      (c.movedTo ctx start).nextOpening.2 = c.nextOpening.2 := by
  rcases hBegun with rfl | hTurns
  · exact ⟨rfl, rfl⟩
  · have hFalse : c.turns.isEmpty = false := by simpa using hTurns
    have hOver : (c.movedTo ctx start).turns = c.turns := rfl
    unfold userText nextOpening foldSystem
    rw [hOver, hFalse]
    cases c.systemForFirstTurn <;> cases (c.movedTo ctx start).systemForFirstTurn <;> exact ⟨rfl, rfl⟩

/-- The opening is measured alike: it is the template's, not the conversation's. -/
theorem protectOpening_twin {ctx : L.Ctx} {start : Start} (hRel : R c.ctx ctx)
    (hStart : start = c.start ∨ ¬ evicts ∧ c.turns ≠ []) (tokens : List LlamaToken) :
    (∃ e, c.protectOpening tokens = .error e ∧
      (c.movedTo ctx start).protectOpening tokens = .error e) ∨
    ∃ c1 c1', c.protectOpening tokens = .ok c1 ∧
      (c.movedTo ctx start).protectOpening tokens = .ok c1' ∧ Twin R evicts c1 c1' := by
  have hHere : Twin R evicts c (c.movedTo ctx start) := .intro _ _ hRel hStart
  by_cases hTurns : c.turns = []
  · -- before its first turn both start alike
    obtain rfl := hStart.resolve_right fun hLater => hLater.2 hTurns
    have hOver : (c.movedTo ctx c.start).nextOpening = c.nextOpening ∧
        (c.movedTo ctx c.start).turns = c.turns := ⟨rfl, rfl⟩
    unfold protectOpening
    rw [hOver.1, hOver.2]
    dsimp only
    split
    · cases L.strToToken c.nextOpening.1 c.nextOpening.2 with
      | error source => exact .inl ⟨_, rfl, rfl⟩
      | ok openingTokens =>
        dsimp only
        split
        · exact .inr ⟨_, _, rfl, rfl, .intro
            (c := { c with protectedPrefix := openingTokens.length })
            _ ⟨c.opening, c.systemForFirstTurn, openingTokens.length⟩ hRel (.inl rfl)⟩
        · exact .inr ⟨_, _, rfl, rfl, hHere⟩
    · exact .inr ⟨_, _, rfl, rfl, hHere⟩
  · -- a later turn protects nothing
    have hNone : ∀ c : Conversation L, c.turns ≠ [] → c.protectOpening tokens = .ok c := by
      intro c hTurns
      unfold protectOpening
      rw [show c.turns.isEmpty = false by simpa using hTurns]
      rfl
    exact .inr ⟨c, _, hNone c hTurns, hNone (c.movedTo ctx start) hTurns, hHere⟩

/-- A message is composed alike. -/
theorem prepareSend_twin (h : Twin R evicts c c') (message : Text) (assistantPrefill : Option Text)
    (options : TurnOptions) :
    PreparedTwins R evicts (c.prepareSend message assistantPrefill options)
      (c'.prepareSend message assistantPrefill options) := by
  obtain ⟨ctx, start, hRel, hStart⟩ := h
  obtain ⟨hText, hBos⟩ := userText_movedTo ctx (hStart.imp_right And.right) message assistantPrefill
  unfold prepareSend
  dsimp only
  rw [hText, hBos]
  cases L.strToToken (c.userText message assistantPrefill) c.nextOpening.2 with
  | error source => exact .failed _
  | ok tokens =>
    dsimp only
    rcases protectOpening_twin hRel hStart tokens with
      ⟨e, hHere, hThere⟩ | ⟨c1, c1', hHere, hThere, hTwin⟩
    · rw [hHere, hThere]
      exact .failed e
    · rw [hHere, hThere]
      exact .prepared ⟨c1, _, tokens, assistantPrefill, options⟩ hTwin

/-- So is any request. -/
theorem prepare_twin (h : Twin R evicts c c') (request : Request) :
    PreparedTwins R evicts (c.prepare request) (c'.prepare request) := by
  cases request with
  | send message assistantPrefill options =>
    exact prepareSend_twin h message assistantPrefill options
  | toolResults results options =>
    have hSpans : c'.toolResultSpans = c.toolResultSpans := by
      obtain ⟨_, _, -, -⟩ := h
      rfl
    unfold prepare prepareToolResults
    dsimp only
    rw [hSpans]
    cases c.toolResultSpans with
    | none => exact prepareSend_twin h _ none options
    | some spans =>
      dsimp only
      cases L.strToToken (spans.render results) .never with
      | error source => exact .failed _
      | ok tokens => exact .prepared ⟨c, spans.render results, tokens, none, options⟩ h

/-! ### One call -/

/-- The call evicts nothing: it has room, or the policy is to fail. -/
def Spares (c : Conversation L) (request : Request) : Prop :=
  ∀ turn, c.prepare request = .ok turn → turn.conversation.overflow = .fail ∨
    i32 (turn.conversation.committedPos + turn.needed) < turn.conversation.nCtx

/-- **One call.** The same comes of it, and the conversations behind it are twins again. -/
theorem call_twin (hR : Bisimulation L.perform R) (h : Twin R evicts c c') {request : Request}
    (hSpares : ¬ evicts → c.Spares request) :
    Same (Twin R evicts) (c.call request) (c'.call request) := by
  have hPrepare := prepare_twin h request
  rw [call_eq, call_eq]
  generalize hTurn : c.prepare request = here at hPrepare ⊢
  generalize c'.prepare request = there at hPrepare ⊢
  cases hPrepare with
  | failed e => exact .intro _ h
  | prepared turn hTwin => exact run_twin hR hTwin fun hNo => hSpares hNo turn hTurn

end Conversation

end Rampipe
