import Rampipe.Model.Session

/-!
# Rampipe — what is decoded, batch by batch

`decode` leaves a cache behind, and a cache does not say in which batches it was
filled or for which token logits were asked. `Llama.recording` is any backend with a
log in front of it: its contexts also hold the batches that were decoded on them. A
run against it is the run against the backend itself, its log erased
(`recording_decodeChunked`, `recording_runGenerationLoop`), so what is proved of the
log is a fact about the code.

`decodeChunked_batches` is what `decode_chunked` writes into the log.
-/

namespace Rampipe

variable {L : Llama}

/-- A backend whose contexts keep the batches decoded on them. -/
abbrev Llama.recording (L : Llama) : Llama where
  Ctx := L.Ctx × List (List BatchEntry)
  Sampler := L.Sampler
  Decoder := L.Decoder
  Batch := L.Batch
  StateFile := L.StateFile
  strToToken := L.strToToken
  isEogToken := L.isEogToken
  newDecoder := L.newDecoder
  tokenToPiece := L.tokenToPiece
  chatTemplate := L.chatTemplate
  ropeType := L.ropeType
  grammar := L.grammar
  stage := L.stage
  chainSimple := L.chainSimple
  sample sampler ctx i := L.sample sampler ctx.1 i
  accept := L.accept
  newBatch := L.newBatch
  clear := L.clear
  add := L.add
  nTokens := L.nTokens
  newContext params := (L.newContext params).map fun ctx => (ctx, [])
  nCtx ctx := L.nCtx ctx.1
  decode ctx batch :=
    ((L.decode ctx.1 batch).1, (L.decode ctx.1 batch).2, ctx.2 ++ [L.entries batch])
  kvCacheSeqRm ctx p0 p1 :=
    (L.kvCacheSeqRm ctx.1 p0 p1).map fun (removed, ctx') => (removed, ctx', ctx.2)
  kvCacheSeqAdd ctx p0 delta := (L.kvCacheSeqAdd ctx.1 p0 delta).map fun ctx' => (ctx', ctx.2)
  stateSaveFile ctx tokens := L.stateSaveFile ctx.1 tokens
  stateLoadFile ctx file max :=
    ((L.stateLoadFile ctx.1 file max).1, (L.stateLoadFile ctx.1 file max).2, ctx.2)
  gpuMemoryBytes := L.gpuMemoryBytes
  renderJson := L.renderJson
  fromStr := L.fromStr
  entries := L.entries
  cells ctx := L.cells ctx.1

/-! ## The log changes nothing -/

/-- Recording changes nothing about a batch. -/
theorem recording_addAll (batch : L.Batch) (entries : List BatchEntry) :
    addAll L.recording batch entries = addAll L batch entries := by
  induction entries generalizing batch with
  | nil => rfl
  | cons entry entries ih =>
    unfold addAll
    rcases L.add batch entry with source | batch'
    · rfl
    · exact ih batch'

/-- The chunks go through as they do unrecorded. -/
theorem recording_decodeChunks (tokens : List LlamaToken) (nCur : Int) (starts : List Nat)
    (batch : L.Batch) (ctx : L.Ctx) (log : List (List BatchEntry)) :
    ((decodeChunks L.recording tokens nCur starts batch (ctx, log)).1,
        (decodeChunks L.recording tokens nCur starts batch (ctx, log)).2.1) =
      decodeChunks L tokens nCur starts batch ctx := by
  induction starts generalizing batch ctx log with
  | nil => rfl
  | cons start starts ih =>
    unfold decodeChunks
    rw [recording_addAll]
    rcases addAll L (L.clear batch) (chunkEntries tokens nCur start) with e | batch'
    · rfl
    · dsimp only
      rcases L.decode ctx batch' with ⟨source | _, ctx'⟩
      · rfl
      · exact ih batch' ctx' _

/-- A recorded prefill is the prefill, its log erased. -/
theorem recording_decodeChunked (ctx : L.Ctx) (log : List (List BatchEntry)) (batch : L.Batch)
    (tokens : List LlamaToken) (nCur : Int) :
    ((decodeChunked L.recording (ctx, log) batch tokens nCur).1,
        (decodeChunked L.recording (ctx, log) batch tokens nCur).2.1) =
      decodeChunked L ctx batch tokens nCur := by
  have hChunks := recording_decodeChunks tokens nCur (chunkStarts tokens.length) batch ctx log
  unfold decodeChunked
  by_cases hEmpty : tokens.isEmpty = true
  · rw [if_pos hEmpty, if_pos hEmpty]
  rw [if_neg hEmpty, if_neg hEmpty, ← hChunks]
  rcases decodeChunks L.recording tokens nCur (chunkStarts tokens.length) batch (ctx, log) with
    ⟨_ | _, _⟩
  · rfl
  · rfl

/-- The variables of the loop without the log. -/
def GenState.erase (s : GenState L.recording) : GenState L where
  ctx := s.ctx.1
  batch := s.batch
  nCur := s.nCur
  decoder := s.decoder
  sampler := s.sampler
  accepted := s.accepted
  text := s.text
  generated := s.generated
  budgetUsed := s.budgetUsed

/-- A sampler chain is built the same. -/
theorem recording_buildChain (sampling : Sampling) (grammar : Option Text) :
    buildChain L.recording sampling grammar = buildChain L sampling grammar := by
  unfold buildChain
  rcases grammar with _ | grammar
  · rfl
  · dsimp only
    rcases L.grammar grammar "root".toList with source | stage
    · rfl
    · rfl

/-- The same token is drawn. -/
theorem recording_draw (p : GenParams) (s : GenState L.recording) :
    s.erase.draw p = (s.draw p).map fun (token, s') => (token, s'.erase) := by
  obtain ⟨ctx, batch, nCur, decoder, sampler, accepted, text, generated, budgetUsed⟩ := s
  unfold GenState.draw GenState.erase
  rcases sampler with _ | sampler
  · dsimp only
    rw [recording_buildChain]
    rcases buildChain L p.sampling p.grammar with e | chain
    · rfl
    · rfl
  · rfl

/-- It is fed into the cache the same. -/
theorem recording_feedAndContinue (token : LlamaToken) (s : GenState L.recording) :
    feedAndContinue token s.erase =
      (feedAndContinue token s).map GenState.erase fun r => (r.1, r.2.erase) := by
  unfold feedAndContinue GenState.feed GenState.erase
  dsimp only
  rcases L.add (L.clear s.batch) { token, pos := s.nCur, logits := true } with source | batch
  · rfl
  · dsimp only
    rcases L.decode s.ctx.1 batch with ⟨source | _, ctx⟩
    · rfl
    · rfl

/-- So a turn of the loop is the same. -/
theorem recording_genTurn (p : GenParams) (s : GenState L.recording) :
    genTurn p s.erase = (genTurn p s).map GenState.erase fun r => (r.1, r.2.erase) := by
  -- in the order of the turn: limit, draw, end of generation, piece, completion, cut, feed
  unfold genTurn
  by_cases hLimit : s.AtLimit p
  · rw [if_pos hLimit, if_pos (show s.erase.AtLimit p from hLimit)]
    rfl
  rw [if_neg hLimit, if_neg (show ¬ s.erase.AtLimit p from hLimit), recording_draw]
  rcases s.draw p with e | ⟨token, s1⟩
  · rfl
  dsimp only [Except.map]
  by_cases hEog : L.isEogToken token = true
  · rw [if_pos hEog, if_pos (show L.recording.isEogToken token = true from hEog)]
    by_cases hInside : GenState.insideOpenThink s1.text = true
    · rw [if_pos hInside, if_pos (show GenState.insideOpenThink s1.erase.text = true from hInside)]
      exact recording_feedAndContinue token s1
    · rw [if_neg hInside, if_neg (show ¬ GenState.insideOpenThink s1.erase.text = true from hInside)]
      rfl
  rw [if_neg hEog, if_neg (show ¬ L.recording.isEogToken token = true from hEog)]
  have hDecoder : s1.erase.decoder = s1.decoder := rfl
  rw [hDecoder]
  rcases L.tokenToPiece token s1.decoder with source | ⟨piece, decoder⟩
  · rfl
  let pushed : GenState L.recording := GenState.push (L := L.recording) piece decoder s1
  have hPush : s1.erase.push piece decoder = pushed.erase := rfl
  dsimp only
  rw [hPush]
  have hText : pushed.erase.text = pushed.text := rfl
  rw [hText]
  by_cases hComplete : GenState.isComplete p pushed.text = true
  · rw [if_pos hComplete, if_pos hComplete]
    rfl
  rw [if_neg hComplete, if_neg hComplete]
  rcases GenState.turnCut p pushed.text with _ | cut
  · exact recording_feedAndContinue token pushed
  · rfl

/-- A recorded generation is the generation, its log erased. -/
theorem recording_runGenerationLoop (p : GenParams) (ctx : L.Ctx) (log : List (List BatchEntry))
    (batch : L.Batch) (nCur : Int) :
    runGenerationLoop p ctx batch nCur =
      ((runGenerationLoop (L := L.recording) p (ctx, log) batch nCur).1,
        (runGenerationLoop (L := L.recording) p (ctx, log) batch nCur).2.erase) := by
  rw [runGenerationLoop_eq, runGenerationLoop_eq]
  have hStart : GenState.start p ctx batch nCur =
      (GenState.start (L := L.recording) p (ctx, log) batch nCur).erase := by
    unfold GenState.start
    rcases p.grammar with _ | grammar <;> rfl
  have hLoop := Loop.iterate_map (recording_genTurn (L := L) p)
    ((p.nCtx - nCur).toNat + 1) (GenState.start (L := L.recording) p (ctx, log) batch nCur)
  rw [← hStart] at hLoop
  have hSome := congrArg (Option.map fun r : GenExit L.recording => (r.1, r.2.erase)) (Option.some_get
    (genLoop_ends p (GenState.start (L := L.recording) p (ctx, log) batch nCur)))
  have hErased := Option.some_get (genLoop_ends p (GenState.start p ctx batch nCur))
  exact Option.some.inj (hErased.trans (hLoop.trans hSome.symm))

/-! ## The batches of a prefill -/

/-- A chunk that goes through is one batch, cleared before it is filled. -/
theorem decodeChunks_log (hL : L.Lawful) {tokens : List LlamaToken} {nCur : Int}
    {starts : List Nat} {batch batch' : L.Batch} {ctx ctx' : L.Ctx}
    {log log' : List (List BatchEntry)}
    (h : decodeChunks L.recording tokens nCur starts batch (ctx, log) = (.ok batch', ctx', log')) :
    log' = log ++ starts.map (chunkEntries tokens nCur) ∧
      (∀ last ∈ starts.getLast?, L.entries batch' = chunkEntries tokens nCur last) := by
  -- on the chunks that are left, with the log so far
  induction starts generalizing batch ctx log with
  | nil =>
    cases h
    simp
  | cons start starts ih =>
    unfold decodeChunks at h
    rw [recording_addAll] at h
    rcases hAdd : addAll L (L.clear batch) (chunkEntries tokens nCur start) with e | batch1
    · rw [hAdd] at h
      cases h
    rw [hAdd] at h
    dsimp only at h
    have hEntries : L.entries batch1 = chunkEntries tokens nCur start := by
      rw [addAll_ok hL hAdd, hL.entries_clear, List.nil_append]
    rcases hDecode : L.decode ctx batch1 with ⟨source | _, ctx1⟩
    · rw [hDecode] at h
      cases h
    rw [hDecode] at h
    obtain ⟨hLog, hLast⟩ := ih h
    refine ⟨?_, ?_⟩
    · rw [hLog, hEntries, List.map_cons, List.append_assoc]
      rfl
    · rcases starts with _ | ⟨next, starts⟩
      · -- this chunk is the last, and its batch is the one handed back
        cases h
        intro last hMem
        rw [List.getLast?_singleton, Option.mem_some_iff] at hMem
        rw [hEntries, hMem]
      · intro last hMem
        rw [List.getLast?_cons_cons] at hMem
        exact hLast last hMem

/-- The last chunk starts less than a chunk before the end. -/
theorem getLast_chunkStarts {len : Nat} (h : 0 < len) :
    ∃ last ∈ (chunkStarts len).getLast?, last < len ∧ len ≤ last + 512 := by
  obtain ⟨n, hn⟩ : ∃ n, (len + 511) / 512 = n + 1 := ⟨(len + 511) / 512 - 1, by omega⟩
  refine ⟨n * 512, ?_, by omega, by omega⟩
  rw [chunkStarts, hn, List.range'_concat, List.map_append, List.map_singleton,
    List.getLast?_concat]
  simp

/-- What `decode_chunked` has decoded, where it leaves the position, and which of the
last batch's entries the next sample reads. Positions are `i32`s; where none overflows
they are the integers from `nCur` on. -/
structure PrefillBatches (L : Llama) (tokens : List LlamaToken) (nCur : Int) (ctx' : L.Ctx)
    (batch' : L.Batch) (nCur' : Int) (log : List (List BatchEntry)) : Prop where
  sized : ∀ batch ∈ log, batch.length ≤ 512
  decoded : log.flatten = prefillEntries tokens nCur
  advanced : nCur' = i32 (nCur + i32 tokens.length)
  unwrapped : nCur + tokens.length ≤ i32Max → nCur' = nCur + tokens.length ∧
    ∀ (i : Nat) entry, log.flatten[i]? = some entry → entry.pos = nCur + i
  sampled : ∀ p, tokens ≠ [] → ∃ (i : Nat) (entry : BatchEntry),
    (i : Int) = L.nTokens (GenState.start p ctx' batch' nCur').batch - 1 ∧
      (L.entries batch')[i]? = some entry ∧ entry.logits = true ∧
      entry.pos = i32 (nCur + i32 (tokens.length - 1 : Nat)) ∧
      ∀ (j : Nat) other, (L.entries batch')[j]? = some other → other.logits = true → j = i

/-- The positions of a prefill that does not overflow. -/
theorem prefillEntries_pos {tokens : List LlamaToken} {nCur : Int}
    (hLow : -2147483648 ≤ nCur) (hFits : nCur + tokens.length ≤ i32Max) {i : Nat}
    {entry : BatchEntry}
    (h : (prefillEntries tokens nCur)[i]? = some entry) : entry.pos = nCur + i := by
  have hBefore : i < tokens.length := by
    have hIndex := (List.getElem?_eq_some_iff.mp h).1
    rwa [length_prefillEntries] at hIndex
  rw [prefillEntries_getElem?, Option.map_eq_some_iff] at h
  obtain ⟨token, -, rfl⟩ := h
  exact i32_add_exact hLow (by omega)

/-- The entry the first sample reads: the last of the last batch, and the only one with
logits there. -/
theorem prefill_sampled {tokens : List LlamaToken} {nCur : Int} {entries : List BatchEntry}
    (hTokens : tokens ≠ [])
    (hLast : ∀ last ∈ (chunkStarts tokens.length).getLast?, entries = chunkEntries tokens nCur last) :
    ∃ entry, entries ≠ [] ∧ entries[entries.length - 1]? = some entry ∧ entry.logits = true ∧
      entry.pos = i32 (nCur + i32 (tokens.length - 1 : Nat)) ∧
      ∀ (j : Nat) other, entries[j]? = some other → other.logits = true → j = entries.length - 1 := by
  have hPositive := List.length_pos_of_ne_nil hTokens
  obtain ⟨last, hMem, hBefore, hEnd⟩ := getLast_chunkStarts hPositive
  -- the last chunk is all that is left from where it starts
  have hAll : entries = (prefillEntries tokens nCur).drop last := by
    rw [hLast last hMem, chunkEntries_eq]
    refine List.take_of_length_le ?_
    rw [List.length_drop, length_prefillEntries]
    omega
  have hLength : entries.length = tokens.length - last := by
    rw [hAll, List.length_drop, length_prefillEntries]
  have hAt : ∀ j, entries[j]? = tokens[last + j]?.map fun token =>
      { token, pos := i32 (nCur + i32 (last + j : Nat))
        logits := last + j == tokens.length - 1 } := by
    intro j
    rw [hAll, List.getElem?_drop, prefillEntries_getElem?]
  have hFinal : last + (entries.length - 1) = tokens.length - 1 := by omega
  have hFound : entries[entries.length - 1]? =
      some ⟨tokens[tokens.length - 1], i32 (nCur + i32 (tokens.length - 1 : Nat)), true⟩ := by
    rw [hAt, hFinal, List.getElem?_eq_getElem (by omega), Option.map_some, beq_self_eq_true]
  refine ⟨_, List.ne_nil_of_length_pos (by omega), hFound, rfl, rfl, ?_⟩
  intro j other hOther hLogits
  rw [hAt, Option.map_eq_some_iff] at hOther
  obtain ⟨token, -, rfl⟩ := hOther
  have hIndex := eq_of_beq hLogits
  omega

/-- **Prefill, batch by batch.** A `decode_chunked` that succeeds has decoded the tokens
at consecutive positions in batches of at most 512, with logits for the last one only,
which is the one the first sample reads; one that fails gives back the position it was
called with, and so does a turn that breaks off in it. -/
theorem decodeChunked_batches (hL : L.Lawful)
    (hCount : ∀ batch, L.nTokens batch = (L.entries batch).length) (tokens : List LlamaToken)
    {nCur : Int} (hLow : -2147483648 ≤ nCur) (hHigh : nCur ≤ i32Max) :
    (∀ ctx batch batch' nCur' ctx' log,
      decodeChunked L.recording (ctx, []) batch tokens nCur = ((.ok batch', nCur'), ctx', log) →
        PrefillBatches L tokens nCur ctx' batch' nCur' log) ∧
    (∀ ctx batch e nCur' ctx' log,
      decodeChunked L.recording (ctx, []) batch tokens nCur = ((.error e, nCur'), ctx', log) →
        nCur' = nCur) ∧
    ∀ (c c' : Conversation L) e, c.prefillUser tokens = (.err e, c') →
      c'.committedPos = c.committedPos := by
  refine ⟨?_, fun ctx batch e nCur' ctx' log h => decodeChunked_error h, ?_⟩
  · intro ctx batch batch' nCur' ctx' log h
    rcases decodeChunked_case L.recording (ctx, []) batch tokens nCur with
      ⟨rfl, hCase⟩ | ⟨-, _, _, -, hCase⟩ | ⟨hTokens, batch1, ⟨ctx1, log1⟩, hChunks, hCase⟩
    · -- no tokens are no chunks, and the position stays
      rw [h] at hCase
      cases hCase
      have hSame : nCur = i32 (nCur + i32 ([] : List LlamaToken).length) := by
        rw [i32_add_exact hLow (by simpa using hHigh)]
        simp
      exact ⟨by simp, by simp [prefillEntries], hSame, by simp, fun _ h => absurd rfl h⟩
    · rw [h] at hCase
      cases hCase
    rw [h] at hCase
    cases hCase
    -- one batch for each chunk, and the last of them is handed back
    obtain ⟨hLog, hLast⟩ := decodeChunks_log hL hChunks
    rw [List.nil_append] at hLog
    have hDecoded : log.flatten = prefillEntries tokens nCur := by
      rw [hLog, flatten_chunkEntries]
    refine ⟨?_, hDecoded, rfl, ?_, ?_⟩
    · intro entries hMem
      rw [hLog, List.mem_map] at hMem
      obtain ⟨start, -, rfl⟩ := hMem
      rw [chunkEntries_eq]
      exact List.length_take_le _ _
    · intro hFits
      rw [hDecoded]
      exact ⟨i32_add_exact hLow hFits, fun i entry => prefillEntries_pos hLow hFits⟩
    · -- the sampler reads behind the last entry of that batch
      intro p hNone
      obtain ⟨entry, hSome, hFound, hLogits, hPos, hOnly⟩ := prefill_sampled hTokens hLast
      have hLength := List.length_pos_of_ne_nil hSome
      refine ⟨(L.entries batch').length - 1, entry, ?_, hFound, hLogits, hPos, hOnly⟩
      show _ = L.nTokens batch' - 1
      rw [hCount]
      omega
  · -- the conversation's position is set only behind a prefill that went through
    intro c c' e hFails
    rcases c.prefillUser_case tokens with ⟨_, _, -, hCase⟩ | ⟨_, _, _, -, hCase⟩
    · rw [hFails] at hCase
      cases hCase
      rfl
    · rw [hFails] at hCase
      cases hCase

/-! ## A backend that decodes whatever fits -/

/-- An entry that is taken, and the others behind it. -/
theorem addAll_cons {batch batch' : L.Batch} {entry : BatchEntry}
    (h : L.add batch entry = .ok batch') (entries : List BatchEntry) :
    addAll L batch (entry :: entries) = addAll L batch' entries := by
  rw [addAll, h]

/-- A chunk that goes through, and the others behind it. -/
theorem decodeChunks_cons {tokens : List LlamaToken} {nCur : Int} {start : Nat}
    {batch batch' : L.Batch} {ctx ctx' : L.Ctx}
    (hAdd : addAll L (L.clear batch) (chunkEntries tokens nCur start) = .ok batch')
    (hDecode : L.decode ctx batch' = (.ok (), ctx')) (starts : List Nat) :
    decodeChunks L tokens nCur (start :: starts) batch ctx =
      decodeChunks L tokens nCur starts batch' ctx' := by
  rw [decodeChunks, hAdd]
  dsimp only
  rw [hDecode]

/-- A scripted batch takes what its 512 slots hold. -/
theorem addAll_scripted (script : Script) (batch entries : List BatchEntry)
    (h : batch.length + entries.length ≤ 512) :
    addAll (Llama.scripted script) batch entries = .ok (batch ++ entries) := by
  induction entries generalizing batch with
  | nil =>
    rw [List.append_nil]
    rfl
  | cons entry entries ih =>
    rw [List.length_cons] at h
    have hRoom : (Llama.scripted script).add batch entry = .ok (batch ++ [entry]) :=
      if_pos (show batch.length < 512 by omega)
    have hRest := ih (batch ++ [entry])
      (by rw [List.length_append, List.length_singleton]; omega)
    rw [List.append_assoc, List.singleton_append] at hRest
    exact (addAll_cons hRoom entries).trans hRest

/-- A backend that never fails decodes the chunks that fit. -/
theorem decodeChunks_silent {tokens : List LlamaToken} {nCur : Int} {starts : List Nat}
    (batch : List BatchEntry) (ctx : ScriptedCtx)
    (h : ctx.cells.length + ((starts.map (chunkEntries tokens nCur)).flatten).length ≤
      min ctx.nCtx 2147483647) :
    ∃ (batch' : List BatchEntry) (ctx' : ScriptedCtx),
      decodeChunks (Llama.scripted Script.silent) tokens nCur starts batch ctx =
        (.ok batch', ctx') := by
  induction starts generalizing batch ctx with
  | nil => exact ⟨batch, ctx, rfl⟩
  | cons start starts ih =>
    rw [List.map_cons, List.flatten_cons, List.length_append] at h
    have hChunk : (chunkEntries tokens nCur start).length ≤ 512 := by
      rw [chunkEntries_eq]
      exact List.length_take_le _ _
    have hAdd := addAll_scripted Script.silent [] (chunkEntries tokens nCur start)
      (by rw [List.length_nil]; omega)
    have hDecode : (Llama.scripted Script.silent).decode ctx (chunkEntries tokens nCur start) =
        (.ok (), { ctx with cells := ctx.cells ++ (chunkEntries tokens nCur start).map BatchEntry.cell }) :=
      if_neg (by
        rintro (hFails | hFull)
        · cases hFails
        · omega)
    obtain ⟨batch', ctx', hRest⟩ := ih (chunkEntries tokens nCur start)
      ⟨ctx.nCtx, ctx.cells ++ (chunkEntries tokens nCur start).map BatchEntry.cell⟩ (by
        dsimp only
        rw [List.length_append, List.length_map]
        omega)
    exact ⟨batch', ctx', (decodeChunks_cons hAdd hDecode starts).trans hRest⟩

/-- A message of more than one batch. -/
def recital : List LlamaToken := List.replicate 600 (Script.tokenOf 'a')

/-- A context with five tokens in it. -/
def Script.greeted : ScriptedCtx :=
  ⟨1024, Cells.layout 0 ("hello".toList.map Script.tokenOf)⟩

/-- It goes through, and the position ends up behind all of it. -/
theorem recital_batches : ∃ batch ctx log,
    decodeChunked (Llama.scripted Script.silent).recording (Script.greeted, []) ([] : List BatchEntry)
      recital 5 = ((.ok batch, 605), ctx, log) ∧
    PrefillBatches (Llama.scripted Script.silent) recital 5 ctx batch 605 log := by
  have hFits : Script.greeted.cells.length +
      (((chunkStarts recital.length).map (chunkEntries recital 5)).flatten).length ≤
        min Script.greeted.nCtx 2147483647 := by
    rw [flatten_chunkEntries, length_prefillEntries, recital, List.length_replicate]
    decide
  obtain ⟨batch, ctx, hChunks⟩ := decodeChunks_silent [] Script.greeted hFits
  have hPlain : decodeChunked (Llama.scripted Script.silent) Script.greeted ([] : List BatchEntry)
      recital 5 = ((.ok batch, 605), ctx) := by
    rcases decodeChunked_case (Llama.scripted Script.silent) Script.greeted [] recital 5 with
      ⟨hNone, -⟩ | ⟨-, _, _, hFails, -⟩ | ⟨-, _, _, hDone, hCase⟩
    · cases hNone
    · rw [hChunks] at hFails
      cases hFails
    · rw [hChunks] at hDone
      cases hDone
      rw [hCase, recital, List.length_replicate]
      rfl
  have hRecorded := recording_decodeChunked (L := Llama.scripted Script.silent) Script.greeted []
    ([] : List BatchEntry) recital 5
  rw [hPlain] at hRecorded
  rcases hRun : decodeChunked (Llama.scripted Script.silent).recording (Script.greeted, [])
    ([] : List BatchEntry) recital 5 with ⟨⟨o, nCur⟩, ctx', log⟩
  rw [hRun] at hRecorded
  cases hRecorded
  exact ⟨batch, _, log, rfl,
    (decodeChunked_batches (Llama.scripted_lawful Script.silent) (fun _ => rfl) recital
      (by decide : (-2147483648 : Int) ≤ 5) (by decide)).1 _ _ _ _ _ _ hRun⟩

end Rampipe
