import Rampipe.Lib.Loop
import Rampipe.Model.Llama
import Rampipe.Model.ToolCalls

/-!
# Rampipe — prefill and generation

`decode_chunked` and `run_generation_loop`, with the sampler chain the loop
builds. The loop is `Loop.iterate` over one turn of its body; every turn that
goes round again advances `n_cur`, so `n_ctx - n_cur` turns are enough.

A prefill's positions are `i32` sums, which wrap; `n_cur` in the loop is below
`n_ctx` when it is advanced, so that one is exact.

Main facts: `decodeChunked_ok` — a prefill lays its tokens out behind the cache;
`genTurn_case` — what one turn of the loop can do; `runGenerationLoop_laid` —
however the loop ends, the tokens it records are the cells it filled.
-/

namespace Rampipe

open ListSearch Text

/-! ## Errors -/

/-- `LlamaSessionError`, the variants the modelled code returns. An error of
another library is its `Display` text. -/
inductive LlamaSessionError
  | contextLoad (source : Text)
  | contextAllocation (nCtx freeMib totalMib : Nat) (source : Text)
  | decode (source : Text)
  | tokenize (source : Text)
  | detokenize (source : Text)
  | batch (source : Text)
  | kvCache (source : Text)
  | conversationTemplateUnavailable
  | conversationContextFull (committedPos needed nCtx : Int)
  | conversationTooLargeToTrim
  | grammar (source : Text)
  | saveState (source : Text)
  | loadState (source : Text)
  | snapshotModelMismatch (saved current : Text)
  deriving DecidableEq

/-! ## Sampling -/

/-- `Penalties`; the default is fully disabled. -/
structure Penalties where
  lastN : Int := 0
  repeat_ : ℚ := 1
  freq : ℚ := 0
  present : ℚ := 0

inductive Sampling
  | greedy (penalties : Penalties)
  | temperature (temperature : ℚ) (topK : Int) (topP minP : ℚ) (seed : Nat)
      (penalties : Penalties)

variable (L : Llama)

/-- The penalties stage, unless its fields are all disabled. -/
def pushPenalties (penalties : Penalties) : List SamplerStage :=
  if penalties.repeat_ ≠ 1 ∨ penalties.freq ≠ 0 ∨ penalties.present ≠ 0 then
    [.penalties penalties.lastN penalties.repeat_ penalties.freq penalties.present]
  else []

/-- The stages behind the grammar, in llama.cpp's default order. -/
def samplingStages : Sampling → List SamplerStage
  | .greedy penalties => pushPenalties penalties ++ [.greedy]
  | .temperature temperature topK topP minP seed penalties =>
    pushPenalties penalties ++ [.topK topK] ++
      -- a stage that would keep everything is left out
      (if topP < 1 then [.topP topP 1] else []) ++
      (if 0 < minP then [.minP minP 1] else []) ++
      [.temp temperature, .dist seed]

def buildChain (sampling : Sampling) (grammar : Option Text) :
    Except LlamaSessionError L.Sampler := do
  let grammarStages ← match grammar with
    | some grammar => match L.grammar grammar "root".toList with
      | .ok stage => .ok [stage]
      | .error source => .error (.grammar source)
    | none => .ok []
  .ok (L.chainSimple (grammarStages ++ (samplingStages sampling).map L.stage))

/-! ## Prefill -/

/-- `batch.add(..)?` for each entry. -/
def addAll : L.Batch → List BatchEntry → Except LlamaSessionError L.Batch
  | batch, [] => .ok batch
  | batch, entry :: entries =>
    match L.add batch entry with
    | .ok batch => addAll batch entries
    | .error source => .error (.batch source)

/-- `(0..len).step_by(512)`. -/
def chunkStarts (len : Nat) : List Nat := (List.range' 0 ((len + 511) / 512)).map (· * 512)

/-- The entries of the chunk at `chunkStart`; only the last token of all of
`tokens` asks for logits. -/
def chunkEntries (tokens : List LlamaToken) (nCur : Int) (chunkStart : Nat) : List BatchEntry :=
  ((tokens.drop chunkStart).take 512).mapIdx fun offset token =>
    { token, pos := i32 (nCur + i32 (chunkStart + offset : Nat))
      logits := chunkStart + offset == tokens.length - 1 }

def decodeChunks (tokens : List LlamaToken) (nCur : Int) :
    List Nat → L.Batch → L.Ctx → Except LlamaSessionError L.Batch × L.Ctx
  | [], batch, ctx => (.ok batch, ctx)
  | chunkStart :: rest, batch, ctx =>
    match addAll L (L.clear batch) (chunkEntries tokens nCur chunkStart) with
    | .error e => (.error e, ctx)
    | .ok batch =>
      -- a chunk that fails leaves the chunks before it in the cache
      match L.decode ctx batch with
      | (.error source, ctx) => (.error (.decode source), ctx)
      | (.ok (), ctx) => decodeChunks tokens nCur rest batch ctx

/-- Decodes `tokens` onto the cache from `nCur` on, 512 at a time. Besides the batch
decoded last it gives back `nCur`, which moves only when every chunk went through. -/
def decodeChunked (ctx : L.Ctx) (batch : L.Batch) (tokens : List LlamaToken) (nCur : Int) :
    (Except LlamaSessionError L.Batch × Int) × L.Ctx :=
  if tokens.isEmpty then ((.ok batch, nCur), ctx)
  else
    match decodeChunks L tokens nCur (chunkStarts tokens.length) batch ctx with
    | (.error e, ctx) => ((.error e, nCur), ctx)
    | (.ok batch, ctx) => ((.ok batch, i32 (nCur + i32 tokens.length)), ctx)

/-! ## Generation -/

/-- What `run_generation_loop` is called with. -/
structure GenParams where
  nCtx : Int
  maxNewTokens : Int
  sampling : Sampling
  grammar : Option Text
  grammarComplete : Option (Text → Bool)
  turnEnd : Option TurnEnd

/-- The variables of the loop. `sampler` is `plain_sampler`. -/
structure GenState where
  ctx : L.Ctx
  batch : L.Batch
  nCur : Int
  decoder : L.Decoder
  sampler : Option L.Sampler
  accepted : List LlamaToken
  text : Text
  generated : List LlamaToken
  budgetUsed : Int

variable {L}

namespace GenState

/-- Samples one token: from the plain sampler, or from a chain built afresh and
replayed when there is a grammar. -/
def draw (p : GenParams) (s : GenState L) : Except LlamaSessionError (LlamaToken × GenState L) :=
  match s.sampler with
  | some sampler =>
    let (token, sampler) := L.sample sampler s.ctx (L.nTokens s.batch - 1)
    .ok (token, { s with sampler := some (L.accept sampler token) })
  -- with a grammar: a fresh chain, and every token so far replayed on it
  | none =>
    match buildChain L p.sampling p.grammar with
    | .error e => .error e
    | .ok sampler =>
      let (token, _) := L.sample (s.accepted.foldl L.accept sampler) s.ctx (L.nTokens s.batch - 1)
      .ok (token, { s with accepted := s.accepted ++ [token] })

/-- Feeds a sampled token back into the cache. `n_cur` moves before the decode
that may fail; the token is recorded after it. -/
def feed (token : LlamaToken) (s : GenState L) : Except LlamaSessionError Unit × GenState L :=
  match L.add (L.clear s.batch) { token, pos := s.nCur, logits := true } with
  | .error source => (.error (.batch source), s)
  | .ok batch =>
    match L.decode s.ctx batch with
    | (.error source, ctx) => (.error (.decode source), { s with ctx, batch, nCur := s.nCur + 1 })
    | (.ok (), ctx) =>
      (.ok (), { s with ctx, batch, nCur := s.nCur + 1, generated := s.generated ++ [token] })

def insideOpenThink (text : Text) : Bool :=
  contains text "<think>".toList && !contains text "</think>".toList

/-- Appends a piece; only tokens outside an open `<think>` use up the budget. -/
def push (piece : Text) (decoder : L.Decoder) (s : GenState L) : GenState L :=
  { s with
    text := s.text ++ piece, decoder
    budgetUsed := if insideOpenThink s.text then s.budgetUsed else s.budgetUsed + 1 }

/-- `*n_cur >= n_ctx || budget_used >= max_new_tokens`. -/
def AtLimit (p : GenParams) (s : GenState L) : Prop :=
  p.nCtx ≤ s.nCur ∨ p.maxNewTokens ≤ s.budgetUsed

instance (p : GenParams) (s : GenState L) : Decidable (s.AtLimit p) :=
  inferInstanceAs (Decidable (_ ∨ _))

/-- `grammar_complete`, when the caller supplied one. -/
def isComplete (p : GenParams) (text : Text) : Bool :=
  (p.grammarComplete.map (· text)).getD false

/-- Where the turn-end rule cuts the text. -/
def turnCut (p : GenParams) (text : Text) : Option Nat := p.turnEnd.bind (·.reached text)

end GenState

/-- How the loop ends, with the variables as they are then. -/
abbrev GenExit (L : Llama) := Except LlamaSessionError Unit × GenState L

/-- Feeds `token` back and goes round again, or leaves with the error. -/
def feedAndContinue (token : LlamaToken) (s : GenState L) : Loop.Turn (GenState L) (GenExit L) :=
  match s.feed token with
  | (.ok (), s) => .again s
  | (.error e, s) => .leave (.error e, s)

/-- One turn of the loop of `run_generation_loop`. -/
def genTurn (p : GenParams) (s : GenState L) : Loop.Turn (GenState L) (GenExit L) :=
  if s.AtLimit p then .leave (.ok (), s)
  else
    match s.draw p with
    | .error e => .leave (.error e, s)
    | .ok (token, s) =>
      -- an end of generation ends the turn, unless a `<think>` is still open
      if L.isEogToken token then
        if GenState.insideOpenThink s.text then feedAndContinue token s else .leave (.ok (), s)
      else
        match L.tokenToPiece token s.decoder with
        | .error source => .leave (.error (.detokenize source), s)
        | .ok (piece, decoder) =>
          -- the piece is in the text before its token is in the cache
          let s := s.push piece decoder
          if GenState.isComplete p s.text then .leave (.ok (), s)
          else
            match GenState.turnCut p s.text with
            -- whatever runs past the last call is cut off, and its token dropped
            | some cut => .leave (.ok (), { s with text := s.text.take cut })
            | none => feedAndContinue token s

/-! ## What one turn does -/

/-- What feeding a token back can do. -/
inductive Fed (token : LlamaToken) (s : GenState L) : Loop.Turn (GenState L) (GenExit L) → Prop
  | noRoom {source : Text} : Fed token s (.leave (.error (.batch source), s))
  | failed {source : Text} {batch : L.Batch} {ctx : L.Ctx}
      (hAdd : L.add (L.clear s.batch) { token, pos := s.nCur, logits := true } = .ok batch)
      (hDecode : L.decode s.ctx batch = (.error source, ctx)) :
      Fed token s (.leave (.error (.decode source), { s with ctx, batch, nCur := s.nCur + 1 }))
  | done {batch : L.Batch} {ctx : L.Ctx}
      (hAdd : L.add (L.clear s.batch) { token, pos := s.nCur, logits := true } = .ok batch)
      (hDecode : L.decode s.ctx batch = (.ok (), ctx)) :
      Fed token s (.again
        { s with ctx, batch, nCur := s.nCur + 1, generated := s.generated ++ [token] })

/-- A token is fed as `Fed` says. -/
theorem feedAndContinue_fed (token : LlamaToken) (s : GenState L) :
    Fed token s (feedAndContinue token s) := by
  unfold feedAndContinue GenState.feed
  cases hAdd : L.add (L.clear s.batch) { token, pos := s.nCur, logits := true } with
  | error source => exact .noRoom
  | ok batch =>
    rcases hDecode : L.decode s.ctx batch with ⟨result, ctx⟩
    dsimp only
    rw [hDecode]
    cases result with
    | error source => exact .failed hAdd hDecode
    | ok _ => exact .done hAdd hDecode

/-- Drawing a token touches the sampler and the replay list only. -/
theorem GenState.draw_ok {p : GenParams} {s s' : GenState L} {token : LlamaToken}
    (h : s.draw p = .ok (token, s')) :
    s'.ctx = s.ctx ∧ s'.nCur = s.nCur ∧ s'.decoder = s.decoder ∧ s'.text = s.text ∧
      s'.generated = s.generated ∧ s'.budgetUsed = s.budgetUsed := by
  unfold draw at h
  split at h
  · cases h
    exact ⟨rfl, rfl, rfl, rfl, rfl, rfl⟩
  · split at h
    · cases h
    · cases h
      exact ⟨rfl, rfl, rfl, rfl, rfl, rfl⟩

/-- The ways through one turn of the loop: each exit of the source, and the two
branches that feed the token back. -/
inductive TurnCase (p : GenParams) (s : GenState L) :
    Loop.Turn (GenState L) (GenExit L) → Prop
  | limit (hLimit : s.AtLimit p) : TurnCase p s (.leave (.ok (), s))
  | noDraw {e : LlamaSessionError} : TurnCase p s (.leave (.error e, s))
  | endOfGeneration {token : LlamaToken} {s1 : GenState L} (hLimit : ¬ s.AtLimit p)
      (hDraw : s.draw p = .ok (token, s1)) (hEog : L.isEogToken token = true)
      (hInside : GenState.insideOpenThink s.text = false) : TurnCase p s (.leave (.ok (), s1))
  | eogFed {token : LlamaToken} {s1 : GenState L} {t : Loop.Turn (GenState L) (GenExit L)}
      (hLimit : ¬ s.AtLimit p) (hDraw : s.draw p = .ok (token, s1))
      (hEog : L.isEogToken token = true) (hInside : GenState.insideOpenThink s.text = true)
      (hFed : Fed token s1 t) : TurnCase p s t
  | noPiece {token : LlamaToken} {s1 : GenState L} {source : Text}
      (hDraw : s.draw p = .ok (token, s1)) :
      TurnCase p s (.leave (.error (.detokenize source), s1))
  | complete {token : LlamaToken} {s1 : GenState L} {piece : Text} {decoder : L.Decoder}
      (hLimit : ¬ s.AtLimit p) (hDraw : s.draw p = .ok (token, s1))
      (hEog : L.isEogToken token = false)
      (hPiece : L.tokenToPiece token s.decoder = .ok (piece, decoder))
      (hComplete : GenState.isComplete p (s.text ++ piece) = true) :
      TurnCase p s (.leave (.ok (), s1.push piece decoder))
  | cut {token : LlamaToken} {s1 : GenState L} {piece : Text} {decoder : L.Decoder} {cut : Nat}
      (hLimit : ¬ s.AtLimit p) (hDraw : s.draw p = .ok (token, s1))
      (hEog : L.isEogToken token = false)
      (hPiece : L.tokenToPiece token s.decoder = .ok (piece, decoder))
      (hComplete : GenState.isComplete p (s.text ++ piece) = false)
      (hCut : GenState.turnCut p (s.text ++ piece) = some cut) :
      TurnCase p s (.leave (.ok (), { s1.push piece decoder with text := (s.text ++ piece).take cut }))
  | pieceFed {token : LlamaToken} {s1 : GenState L} {piece : Text} {decoder : L.Decoder}
      {t : Loop.Turn (GenState L) (GenExit L)}
      (hLimit : ¬ s.AtLimit p) (hDraw : s.draw p = .ok (token, s1))
      (hEog : L.isEogToken token = false)
      (hPiece : L.tokenToPiece token s.decoder = .ok (piece, decoder))
      (hComplete : GenState.isComplete p (s.text ++ piece) = false)
      (hCut : GenState.turnCut p (s.text ++ piece) = none)
      (hFed : Fed token (s1.push piece decoder) t) : TurnCase p s t

/-- Everything one turn can do, said once. -/
theorem genTurn_case (p : GenParams) (s : GenState L) : TurnCase p s (genTurn p s) := by
  unfold genTurn
  -- the branches are tried in the order the loop tries them
  by_cases hLimit : s.AtLimit p
  · rw [if_pos hLimit]
    exact .limit hLimit
  rw [if_neg hLimit]
  cases hDraw : s.draw p with
  | error e => exact .noDraw
  | ok drawn =>
    obtain ⟨token, s1⟩ := drawn
    obtain ⟨-, -, hDecoder, hText, -, -⟩ := GenState.draw_ok hDraw
    dsimp only
    rw [hText, hDecoder]
    cases hEog : L.isEogToken token with
    -- an end-of-generation token is fed back inside an open `<think>` only
    | true =>
      cases hInside : GenState.insideOpenThink s.text with
      | true => exact .eogFed hLimit hDraw hEog hInside (feedAndContinue_fed token s1)
      | false => exact .endOfGeneration hLimit hDraw hEog hInside
    | false =>
      cases hPiece : L.tokenToPiece token s.decoder with
      | error source => exact .noPiece hDraw
      | ok read =>
        obtain ⟨piece, decoder⟩ := read
        -- what follows looks at the text with the new piece behind it
        have hPushed : (s1.push piece decoder).text = s.text ++ piece := by
          simp only [GenState.push, hText]
        dsimp only
        rw [hPushed]
        cases hComplete : GenState.isComplete p (s.text ++ piece) with
        | true => exact .complete hLimit hDraw hEog hPiece hComplete
        | false =>
          cases hCut : GenState.turnCut p (s.text ++ piece) with
          | some cut => exact .cut hLimit hDraw hEog hPiece hComplete hCut
          | none =>
            exact .pieceFed hLimit hDraw hEog hPiece hComplete hCut
              (feedAndContinue_fed token _)

/-! ## The loop -/

/-- A turn that goes round again has advanced the position by one. -/
theorem genTurn_again_nCur {p : GenParams} {s s' : GenState L} (h : genTurn p s = .again s') :
    s.nCur < p.nCtx ∧ s'.nCur = s.nCur + 1 := by
  have hCase := genTurn_case p s
  rw [h] at hCase
  cases hCase with
  -- only a token fed back goes round again
  | eogFed hLimit hDraw _ _ hFed =>
    cases hFed
    simp only [GenState.AtLimit, not_or, not_le] at hLimit
    exact ⟨hLimit.1, by rw [← (GenState.draw_ok hDraw).2.1]⟩
  | pieceFed hLimit hDraw _ _ _ _ hFed =>
    cases hFed
    simp only [GenState.AtLimit, not_or, not_le] at hLimit
    exact ⟨hLimit.1, by rw [← (GenState.draw_ok hDraw).2.1]; rfl⟩

/-- The variables before the first turn. -/
def GenState.initial (ctx : L.Ctx) (batch : L.Batch) (nCur : Int) (sampler : Option L.Sampler) :
    GenState L where
  ctx := ctx
  batch := batch
  nCur := nCur
  decoder := L.newDecoder
  sampler := sampler
  accepted := []
  text := []
  generated := []
  budgetUsed := 0

/-- A position moves with every token, so the loop comes to its end. -/
theorem genLoop_ends (p : GenParams) (s : GenState L) :
    (Loop.iterate (genTurn p) ((p.nCtx - s.nCur).toNat + 1) s).isSome :=
  Loop.iterate_isSome (fun s => (p.nCtx - s.nCur).toNat)
    (fun s s' h => by have := genTurn_again_nCur h; omega) (Nat.lt_succ_self _)

/-- Runs the loop to its end. -/
def genLoop (p : GenParams) (s : GenState L) : GenExit L :=
  (Loop.iterate (genTurn p) ((p.nCtx - s.nCur).toNat + 1) s).get (genLoop_ends p s)

/-- `run_generation_loop`: the persistent chain is built up front when there is
no grammar. -/
def runGenerationLoop (p : GenParams) (ctx : L.Ctx) (batch : L.Batch) (nCur : Int) : GenExit L :=
  match p.grammar with
  | some _ => genLoop p (.initial ctx batch nCur none)
  | none =>
    match buildChain L p.sampling none with
    | .error e => (.error e, .initial ctx batch nCur none)
    | .ok sampler => genLoop p (.initial ctx batch nCur (some sampler))

/-- The loop leaves from a state it visited. -/
theorem genLoop_leaves (p : GenParams) (s : GenState L) :
    ∃ t, Loop.Visits (genTurn p) s t ∧ genTurn p t = .leave (genLoop p s) :=
  Loop.exists_leave_of_iterate (Option.some_get (genLoop_ends p s)).symm

/-- The variables `run_generation_loop` sets out with. -/
def GenState.start (p : GenParams) (ctx : L.Ctx) (batch : L.Batch) (nCur : Int) : GenState L :=
  .initial ctx batch nCur <|
    match p.grammar with
    | some _ => none
    | none => some (L.chainSimple ((samplingStages p.sampling).map L.stage))

/-- The loop of the code is the loop from its start. -/
theorem runGenerationLoop_eq (p : GenParams) (ctx : L.Ctx) (batch : L.Batch) (nCur : Int) :
    runGenerationLoop p ctx batch nCur = genLoop p (.start p ctx batch nCur) := by
  unfold runGenerationLoop GenState.start
  cases p.grammar with
  | some grammar => rfl
  | none => rfl

/-! ## What prefill and generation leave in the cache -/

/-- A batch that takes them all holds them in order. -/
theorem addAll_ok {batch batch' : L.Batch} {entries : List BatchEntry} (hL : L.Lawful)
    (h : addAll L batch entries = .ok batch') :
    L.entries batch' = L.entries batch ++ entries := by
  induction entries generalizing batch with
  | nil =>
    cases h
    simp
  | cons entry entries ih =>
    rw [addAll] at h
    split at h
    · rename_i batch1 hAdd
      rw [ih h, hL.entries_add hAdd, List.append_assoc]
      rfl
    · cases h

/-- What `decode_chunked` asks to have decoded: the tokens at consecutive positions,
logits for the last one. -/
def prefillEntries (tokens : List LlamaToken) (nCur : Int) : List BatchEntry :=
  tokens.mapIdx fun i token =>
    { token, pos := i32 (nCur + i32 i), logits := i == tokens.length - 1 }

@[simp] theorem length_prefillEntries (tokens : List LlamaToken) (nCur : Int) :
    (prefillEntries tokens nCur).length = tokens.length := List.length_mapIdx

/-- The `i`-th entry is the `i`-th token at the `i`-th position. -/
theorem prefillEntries_getElem? (tokens : List LlamaToken) (nCur : Int) (i : Nat) :
    (prefillEntries tokens nCur)[i]? = tokens[i]?.map fun token =>
      { token, pos := i32 (nCur + i32 i), logits := i == tokens.length - 1 } :=
  List.getElem?_mapIdx

/-- A chunk is cut out of the whole. -/
theorem chunkEntries_eq (tokens : List LlamaToken) (nCur : Int) (start : Nat) :
    chunkEntries tokens nCur start = ((prefillEntries tokens nCur).drop start).take 512 := by
  refine List.ext_getElem? fun k => ?_
  unfold chunkEntries
  rw [List.getElem?_mapIdx, List.getElem?_take, List.getElem?_take]
  by_cases hk : k < 512
  · rw [if_pos hk, if_pos hk, List.getElem?_drop, List.getElem?_drop, prefillEntries_getElem?]
  · rw [if_neg hk, if_neg hk]
    rfl

/-- Cutting a list into pieces of one size and putting them together again. -/
theorem flatten_pieces {α : Type} (xs : List α) (size n i : Nat) :
    ((List.range' i n).map fun k => (xs.drop (k * size)).take size).flatten =
      (xs.drop (i * size)).take (n * size) := by
  induction n generalizing i with
  | zero => simp
  | succ n ih =>
    rw [List.range'_succ, List.map_cons, List.flatten_cons, ih, Nat.succ_mul i, Nat.succ_mul n,
      Nat.add_comm (n * size), List.take_add, List.drop_drop]

/-- The chunks, one behind the other, are the whole. -/
theorem flatten_chunkEntries (tokens : List LlamaToken) (nCur : Int) :
    ((chunkStarts tokens.length).map (chunkEntries tokens nCur)).flatten =
      prefillEntries tokens nCur := by
  have hPieces := flatten_pieces (prefillEntries tokens nCur) 512 ((tokens.length + 511) / 512) 0
  rw [List.take_of_length_le (by simp only [List.length_drop, length_prefillEntries]; omega),
    Nat.zero_mul, List.drop_zero] at hPieces
  rw [← hPieces, chunkStarts, List.map_map]
  exact congrArg List.flatten (List.map_congr_left fun k _ => chunkEntries_eq tokens nCur (k * 512))

/-- A sum that is an `i32` is exact, whatever its summand wraps to. -/
theorem i32_add_exact {x : Int} {k : Nat} (hx : -2147483648 ≤ x) (hSum : x + k ≤ i32Max) :
    i32 (x + i32 k) = x + k := by
  unfold i32Max at hSum
  unfold i32
  omega

/-- Where no position overflows, the entries fill the cells behind `nCur`. -/
theorem prefillEntries_cells {tokens : List LlamaToken} {nCur : Int} (hStart : 0 ≤ nCur)
    (hFits : nCur + tokens.length ≤ i32Max) :
    (prefillEntries tokens nCur).map BatchEntry.cell = Cells.layout nCur tokens := by
  rw [Cells.layout_eq_mapIdx]
  refine List.ext_getElem? fun i => ?_
  rw [List.getElem?_map, prefillEntries_getElem?, List.getElem?_mapIdx, Option.map_map]
  rcases Nat.lt_or_ge i tokens.length with hi | hi
  · have hPos : i32 (nCur + i32 i) = nCur + i := i32_add_exact (by omega) (by omega)
    simp only [Function.comp_def, BatchEntry.cell, hPos]
  · rw [List.getElem?_eq_none hi]
    rfl

/-- Decoding chunks appends the cells of their entries. -/
theorem decodeChunks_ok {tokens : List LlamaToken} {nCur : Int} (hL : L.Lawful)
    {starts : List Nat} {batch batch' : L.Batch} {ctx ctx' : L.Ctx}
    (h : decodeChunks L tokens nCur starts batch ctx = (.ok batch', ctx')) :
    L.cells ctx' = L.cells ctx ++
      ((starts.map (chunkEntries tokens nCur)).flatten).map BatchEntry.cell := by
  induction starts generalizing batch ctx with
  | nil =>
    cases h
    simp
  | cons start starts ih =>
    rw [decodeChunks] at h
    split at h
    · cases h
    rename_i batch1 hAdd
    split at h
    · cases h
    rename_i ctx1 hDecode
    -- the batch is cleared first, so it holds this chunk and nothing else
    have hEntries : L.entries batch1 = chunkEntries tokens nCur start := by
      rw [addAll_ok hL hAdd, hL.entries_clear, List.nil_append]
    rw [ih h, hL.cells_decode_ok hDecode, hEntries, List.map_cons, List.flatten_cons,
      List.map_append, List.append_assoc]

/-- No cache grows past what an `i32` counts. -/
def Llama.Fits (L : Llama) (ctx : L.Ctx) : Prop := ((L.cells ctx).length : Int) ≤ i32Max

/-- A chunk that was decoded has been counted. -/
theorem decodeChunks_fits {tokens : List LlamaToken} {nCur : Int} (hL : L.Lawful)
    {starts : List Nat} {batch batch' : L.Batch} {ctx ctx' : L.Ctx}
    (hFits : L.Fits ctx ∨ starts ≠ [])
    (h : decodeChunks L tokens nCur starts batch ctx = (.ok batch', ctx')) : L.Fits ctx' := by
  induction starts generalizing batch ctx with
  | nil =>
    cases h
    exact hFits.resolve_right (fun hNone => hNone rfl)
  | cons start starts ih =>
    rw [decodeChunks] at h
    split at h
    · cases h
    split at h
    · cases h
    rename_i hDecode
    exact ih (.inl (hL.length_decode_ok hDecode)) h

/-- Tokens are decoded in at least one chunk. -/
theorem chunkStarts_ne_nil {tokens : List LlamaToken} (h : tokens ≠ []) :
    chunkStarts tokens.length ≠ [] := by
  have hPositive := List.length_pos_of_ne_nil h
  obtain ⟨n, hn⟩ : ∃ n, (tokens.length + 511) / 512 = n + 1 :=
    ⟨(tokens.length + 511) / 512 - 1, by omega⟩
  rw [chunkStarts, hn, List.range'_succ, List.map_cons]
  exact List.cons_ne_nil _ _

/-- What `decode_chunked` can do: nothing without tokens, and otherwise decode the
chunks, moving `nCur` when they all go through. -/
theorem decodeChunked_case (L : Llama) (ctx : L.Ctx) (batch : L.Batch) (tokens : List LlamaToken)
    (nCur : Int) :
    (tokens = [] ∧ decodeChunked L ctx batch tokens nCur = ((.ok batch, nCur), ctx)) ∨
    (tokens ≠ [] ∧ ∃ e ctx',
      decodeChunks L tokens nCur (chunkStarts tokens.length) batch ctx = (.error e, ctx') ∧
      decodeChunked L ctx batch tokens nCur = ((.error e, nCur), ctx')) ∨
    (tokens ≠ [] ∧ ∃ batch' ctx',
      decodeChunks L tokens nCur (chunkStarts tokens.length) batch ctx = (.ok batch', ctx') ∧
      decodeChunked L ctx batch tokens nCur =
        ((.ok batch', i32 (nCur + i32 tokens.length)), ctx')) := by
  unfold decodeChunked
  by_cases hEmpty : tokens = []
  · exact .inl ⟨hEmpty, by rw [if_pos (List.isEmpty_iff.mpr hEmpty)]⟩
  rw [if_neg (by rwa [List.isEmpty_iff])]
  rcases decodeChunks L tokens nCur (chunkStarts tokens.length) batch ctx with ⟨e | batch', ctx'⟩
  · exact .inr (.inl ⟨hEmpty, _, _, rfl, rfl⟩)
  · exact .inr (.inr ⟨hEmpty, _, _, rfl, rfl⟩)

/-- A failing `decode_chunked` leaves `nCur` where it was. -/
theorem decodeChunked_error {ctx ctx' : L.Ctx} {batch : L.Batch} {tokens : List LlamaToken}
    {nCur nCur' : Int} {e : LlamaSessionError}
    (h : decodeChunked L ctx batch tokens nCur = ((.error e, nCur'), ctx')) : nCur' = nCur := by
  rcases decodeChunked_case L ctx batch tokens nCur with
    ⟨-, hCase⟩ | ⟨-, _, _, -, hCase⟩ | ⟨-, _, _, -, hCase⟩
  · rw [h] at hCase
    cases hCase
  · rw [h] at hCase
    cases hCase
    rfl
  · rw [h] at hCase
    cases hCase

/-- **Prefill.** A successful `decode_chunked` behind the cells of a cache lays the
tokens out there and moves the position past them: no cache holds more cells than an
`i32` counts, so none of the positions overflows. -/
theorem decodeChunked_ok {ctx ctx' : L.Ctx} {batch batch' : L.Batch} {tokens : List LlamaToken}
    {nCur nCur' : Int} (hL : L.Lawful) (hStart : nCur = (L.cells ctx).length)
    (h : decodeChunked L ctx batch tokens nCur = ((.ok batch', nCur'), ctx')) :
    L.cells ctx' = L.cells ctx ++ Cells.layout nCur tokens ∧ nCur' = nCur + tokens.length ∧
      (L.Fits ctx → L.Fits ctx') := by
  rcases decodeChunked_case L ctx batch tokens nCur with
    ⟨rfl, hCase⟩ | ⟨-, _, _, -, hCase⟩ | ⟨hTokens, batch1, ctx1, hChunks, hCase⟩
  · rw [h] at hCase
    cases hCase
    simp
  · rw [h] at hCase
    cases hCase
  rw [h] at hCase
  cases hCase
  have hFits := decodeChunks_fits hL (.inr (chunkStarts_ne_nil hTokens)) hChunks
  have hCells := decodeChunks_ok hL hChunks
  rw [flatten_chunkEntries] at hCells
  have hSum : nCur + tokens.length ≤ i32Max := by
    have hLength := congrArg (fun cells => (cells.length : Int)) hCells
    simp only [List.length_append, List.length_map, length_prefillEntries, Nat.cast_add] at hLength
    rw [hStart, ← hLength]
    exact hFits
  have hNonneg : 0 ≤ nCur := by omega
  refine ⟨by rw [hCells, prefillEntries_cells hNonneg hSum], ?_, fun _ => hFits⟩
  exact i32_add_exact (by omega) hSum

/-- The loop's account of the cache: what it generated fills the positions from
where it started up to `n_cur`. -/
structure GenState.Laid (cells : List (Int × LlamaToken)) (start : Int) (s : GenState L) : Prop where
  nCur : s.nCur = start + s.generated.length
  cells : L.cells s.ctx = cells ++ Cells.layout start s.generated
  fits : L.Fits s.ctx

/-- Feeding a token back keeps the account. -/
theorem Fed.laid {token : LlamaToken} {s s' : GenState L} {cells : List (Int × LlamaToken)}
    {start : Int} (hL : L.Lawful) (hFed : Fed token s (.again s')) (h : s.Laid cells start) :
    s'.Laid cells start := by
  cases hFed with
  | done hAdd hDecode =>
    refine ⟨?_, ?_, hL.length_decode_ok hDecode⟩
    · simp only [List.length_append, List.length_singleton, h.nCur]
      omega
    · rw [hL.cells_decode_ok hDecode, hL.entries_add hAdd, hL.entries_clear, h.cells,
        Cells.layout_append, ← h.nCur, List.append_assoc]
      rfl

/-- So does drawing a token, and whatever leaves the cache alone after that. -/
theorem GenState.Laid.drawn {p : GenParams} {s s1 s2 : GenState L} {token : LlamaToken}
    {cells : List (Int × LlamaToken)} {start : Int} (h : s.Laid cells start)
    (hDraw : s.draw p = .ok (token, s1)) (hCtx : s2.ctx = s1.ctx) (hCur : s2.nCur = s1.nCur)
    (hGen : s2.generated = s1.generated) : s2.Laid cells start := by
  obtain ⟨hCtx1, hCur1, -, -, hGen1, -⟩ := GenState.draw_ok hDraw
  exact ⟨by rw [hCur, hGen, hCur1, hGen1, h.nCur], by rw [hCtx, hGen, hCtx1, hGen1, h.cells],
    by rw [hCtx, hCtx1]; exact h.fits⟩

/-- A turn of the loop that goes on keeps the cells laid. -/
theorem genTurn_laid {p : GenParams} {s s' : GenState L} {cells : List (Int × LlamaToken)}
    {start : Int} (hL : L.Lawful) (h : s.Laid cells start) (hTurn : genTurn p s = .again s') :
    s'.Laid cells start := by
  have hCase := genTurn_case p s
  rw [hTurn] at hCase
  cases hCase with
  | eogFed _ hDraw _ _ hFed => exact hFed.laid hL (h.drawn hDraw rfl rfl rfl)
  | pieceFed _ hDraw _ _ _ _ hFed => exact hFed.laid hL (h.drawn hDraw rfl rfl rfl)

/-- The account an exit of the loop leaves: a failing decode keeps the cells but
has moved the position past them. -/
structure LeftLaid (cells : List (Int × LlamaToken)) (start : Int) (r : GenExit L) : Prop where
  cells : L.cells r.2.ctx = cells ++ Cells.layout start r.2.generated
  nCur : r.2.nCur = start + r.2.generated.length ∨
    r.1 ≠ .ok () ∧ r.2.nCur = start + r.2.generated.length + 1
  fits : L.Fits r.2.ctx

/-- A token that fails to be fed leaves them laid, or one too many. -/
theorem Fed.leave_laid {token : LlamaToken} {s : GenState L} {r : GenExit L}
    {cells : List (Int × LlamaToken)} {start : Int} (hL : L.Lawful)
    (hFed : Fed token s (.leave r)) (h : s.Laid cells start) : LeftLaid cells start r := by
  cases hFed with
  | noRoom => exact ⟨h.cells, .inl h.nCur, h.fits⟩
  | failed _ hDecode =>
    have hCells := hL.cells_decode_err hDecode
    exact ⟨by rw [hCells, h.cells], .inr ⟨by simp, by simp only [h.nCur]⟩,
      by rw [Llama.Fits, hCells]; exact h.fits⟩

/-- However the loop is left. -/
theorem genTurn_leave_laid {p : GenParams} {s : GenState L} {r : GenExit L}
    {cells : List (Int × LlamaToken)} {start : Int} (hL : L.Lawful) (h : s.Laid cells start)
    (hTurn : genTurn p s = .leave r) : LeftLaid cells start r := by
  -- where nothing was decoded, what held before the turn still does
  have hStay : ∀ {e : Except LlamaSessionError Unit} {t : GenState L}, t.Laid cells start →
      LeftLaid cells start (e, t) := fun hLaid => ⟨hLaid.cells, .inl hLaid.nCur, hLaid.fits⟩
  have hCase := genTurn_case p s
  rw [hTurn] at hCase
  cases hCase with
  | limit => exact hStay h
  | noDraw => exact hStay h
  | endOfGeneration _ hDraw => exact hStay (h.drawn hDraw rfl rfl rfl)
  | noPiece hDraw => exact hStay (h.drawn hDraw rfl rfl rfl)
  | complete _ hDraw => exact hStay (h.drawn hDraw rfl rfl rfl)
  | cut _ hDraw => exact hStay (h.drawn hDraw rfl rfl rfl)
  | eogFed _ hDraw _ _ hFed => exact hFed.leave_laid hL (h.drawn hDraw rfl rfl rfl)
  | pieceFed _ hDraw _ _ _ _ hFed => exact hFed.leave_laid hL (h.drawn hDraw rfl rfl rfl)

/-- **Generation.** However `run_generation_loop` ends, the cache holds the
tokens it generated behind what was there; the position is right behind them,
except that a failing decode leaves it one further. -/
theorem runGenerationLoop_laid (hL : L.Lawful) (p : GenParams) {ctx : L.Ctx} (hFits : L.Fits ctx)
    (batch : L.Batch) (nCur : Int) : LeftLaid (L.cells ctx) nCur (runGenerationLoop p ctx batch nCur) := by
  -- `Laid` is what every turn keeps; the last one starts from it
  obtain ⟨t, hVisits, hLeave⟩ := genLoop_leaves p (.start p ctx batch nCur)
  have hStart : (GenState.start p ctx batch nCur).Laid (L.cells ctx) nCur :=
    ⟨by simp [GenState.start, GenState.initial], by simp [GenState.start, GenState.initial], hFits⟩
  rw [runGenerationLoop_eq]
  exact genTurn_leave_laid hL
    (hVisits.induction (fun t => t.Laid (L.cells ctx) nCur) hStart fun _ _ => genTurn_laid hL) hLeave

end Rampipe
