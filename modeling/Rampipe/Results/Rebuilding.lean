import Rampipe.Lib.Chain
import Rampipe.Results.GenerationLoop

/-!
# Rampipe — a chain for every token

With a grammar the generation loop builds its sampler chain anew for every token and
replays the tokens so far with `accept`. That brings back what `accept` had changed,
the grammar and the penalties, and nothing else: the generator of `dist` starts from
its seed again.

`SamplerSemantics` is what llama.cpp documents of its samplers, as a reading of them
as chains of stages. Under it the rebuilt chain draws what a kept one would exactly
when the setting is greedy, or the generator's numbers make no difference
(`rebuilding_iff`).
-/

namespace Rampipe

open Chain

variable {L : Llama}

/-- Samplers read as chains of stages. Grammars, penalties and filters keep no state but
what accepting a token changes; `dist` has a generator, started from its seed, of which
accepting a token knows nothing. -/
structure SamplerSemantics (L : Llama) where
  State : Type
  Candidates : Type
  logits : L.Ctx → Int → Candidates
  pick : Candidates → LlamaToken
  stages : L.Sampler → List (Stage State Candidates LlamaToken × State)
  dist : Stage State Candidates LlamaToken
  seeded : Nat → State
  stages_chainSimple : ∀ samplers, stages (L.chainSimple samplers) = samplers.flatMap stages
  stages_accept : ∀ sampler token, stages (L.accept sampler token) =
    Chain.accept (stages sampler) token
  sample_token : ∀ sampler ctx i, (L.sample sampler ctx i).1 =
    pick (Chain.apply (stages sampler) (logits ctx i)).1
  -- that drawing a token does not accept it is assumed; the loop accepts it in a call of its own
  sample_stages : ∀ sampler ctx i, stages (L.sample sampler ctx i).2 =
    (Chain.apply (stages sampler) (logits ctx i)).2
  grammar_replayable : ∀ {text root sampler}, L.grammar text root = .ok sampler →
    Replayable (stages sampler)
  stage_replayable : ∀ stage, (∀ seed, stage ≠ .dist seed) → Replayable (stages (L.stage stage))
  stage_dist : ∀ seed, stages (L.stage (.dist seed)) = [(dist, seeded seed)]
  dist_unaware : dist.Unaware

/-! ## The two strategies -/

/-- The tokens one sampler draws that is kept, each accepted before the next is drawn. -/
def keptTokens : L.Sampler → List (L.Ctx × Int) → List LlamaToken
  | _, [] => []
  | sampler, (ctx, i) :: readings =>
    let (token, sampler) := L.sample sampler ctx i
    token :: keptTokens (L.accept sampler token) readings

/-- The tokens samplers draw that are fresh every time, with the tokens `seen` replayed. -/
def rebuiltTokens (fresh : L.Sampler) : List LlamaToken → List (L.Ctx × Int) → List LlamaToken
  | _, [] => []
  | seen, (ctx, i) :: readings =>
    let token := (L.sample (seen.foldl L.accept fresh) ctx i).1
    token :: rebuiltTokens fresh (seen ++ [token]) readings

/-- Where the heads that draw read their logits. -/
def readings (p : GenParams) (heads : List (GenState L)) : List (L.Ctx × Int) :=
  (heads.filter fun s => ¬ s.AtLimit p).map fun s => (s.ctx, L.nTokens s.batch - 1)

/-- A run that is at its limit has one head, which reads and draws nothing. -/
theorem heads_of_limit {p : GenParams} {s : GenState L} (hLimit : s.AtLimit p) (fuel : Nat) :
    Loop.heads (genTurn p) (fuel + 1) s = [s] := by
  unfold Loop.heads genTurn
  rw [if_pos hLimit]

/-- At the limit nothing is read. -/
theorem readings_of_limit {p : GenParams} {s : GenState L} (hLimit : s.AtLimit p) :
    readings p [s] = [] := by
  unfold readings
  rw [List.filter_cons_of_neg (by simpa using hLimit)]
  rfl

/-- Before it the last position of the batch is. -/
theorem readings_cons {p : GenParams} {s : GenState L} (hLimit : ¬ s.AtLimit p)
    (heads : List (GenState L)) :
    readings p (s :: heads) = (s.ctx, L.nTokens s.batch - 1) :: readings p heads := by
  unfold readings
  rw [List.filter_cons_of_pos (by simpa using hLimit), List.map_cons]

/-- A chain that is kept has drawn the token and accepted it. -/
theorem genTurn_again_sampler {p : GenParams} {s s' : GenState L} {sampler : L.Sampler}
    (hSampler : s.sampler = some sampler) (h : genTurn p s = .again s') :
    let drawn := L.sample sampler s.ctx (L.nTokens s.batch - 1)
    s'.sampler = some (L.accept drawn.2 drawn.1) := by
  have hDrawn : ∀ {token : LlamaToken} {s1 : GenState L}, s.draw p = .ok (token, s1) →
      s1.sampler = some (L.accept (L.sample sampler s.ctx (L.nTokens s.batch - 1)).2
        (L.sample sampler s.ctx (L.nTokens s.batch - 1)).1) := by
    intro token s1 hDraw
    unfold GenState.draw at hDraw
    rw [hSampler] at hDraw
    cases hDraw
    rfl
  have hCase := genTurn_case p s
  rw [h] at hCase
  -- the two turns that go round again: an end while thinking, and a piece of text
  cases hCase with
  | eogFed _ hDraw _ _ hFed =>
    have hKept := hDrawn hDraw
    cases hFed
    exact hKept
  | pieceFed _ hDraw _ _ _ _ hFed =>
    have hKept := hDrawn hDraw
    cases hFed
    exact hKept

/-- With a grammar the loop's tokens are those of rebuilt chains. -/
theorem drawn_rebuilt {p : GenParams} {chain : L.Sampler}
    (hChain : buildChain L p.sampling p.grammar = .ok chain) (fuel : Nat) {s : GenState L}
    (hSampler : s.sampler = none) :
    (Loop.heads (genTurn p) fuel s).filterMap (·.drawn p) =
      rebuiltTokens chain s.accepted (readings p (Loop.heads (genTurn p) fuel s)) := by
  induction fuel generalizing s with
  | zero => rfl
  | succ fuel ih =>
    by_cases hLimit : s.AtLimit p
    · rw [heads_of_limit hLimit, readings_of_limit hLimit, List.filterMap_cons,
        GenState.drawn_of_limit hLimit]
      rfl
    · have hDrawn : s.drawn p =
          some (L.sample (s.accepted.foldl L.accept chain) s.ctx (L.nTokens s.batch - 1)).1 := by
        unfold GenState.drawn GenState.draw
        rw [if_neg hLimit, hSampler, hChain]
      unfold Loop.heads
      rw [List.filterMap_cons, hDrawn, readings_cons hLimit, rebuiltTokens]
      refine congrArg (List.cons _) ?_
      rcases hTurn : genTurn p s with s' | r
      · obtain ⟨hNone, hAccepted⟩ := genTurn_again_accepted hSampler hTurn
        rw [hDrawn, Option.toList_some] at hAccepted
        have hRest := ih hNone
        rw [hAccepted] at hRest
        exact hRest
      · rfl

/-- Without one they are those of the one chain the loop keeps. -/
theorem drawn_kept {p : GenParams} (fuel : Nat) {s : GenState L} {sampler : L.Sampler}
    (hSampler : s.sampler = some sampler) :
    (Loop.heads (genTurn p) fuel s).filterMap (·.drawn p) =
      keptTokens sampler (readings p (Loop.heads (genTurn p) fuel s)) := by
  induction fuel generalizing s sampler with
  | zero => rfl
  | succ fuel ih =>
    by_cases hLimit : s.AtLimit p
    · rw [heads_of_limit hLimit, readings_of_limit hLimit, List.filterMap_cons,
        GenState.drawn_of_limit hLimit]
      rfl
    · have hDrawn : s.drawn p =
          some (L.sample sampler s.ctx (L.nTokens s.batch - 1)).1 := by
        unfold GenState.drawn GenState.draw
        rw [if_neg hLimit, hSampler]
      unfold Loop.heads
      rw [List.filterMap_cons, hDrawn, readings_cons hLimit, keptTokens]
      refine congrArg (List.cons _) ?_
      rcases hTurn : genTurn p s with s' | r
      · exact ih (genTurn_again_sampler hSampler hTurn)
      · rfl

/-! ## The strategies on chains of stages -/

namespace SamplerSemantics

variable (S : SamplerSemantics L)

/-- The candidates each reading starts from. -/
def candidates (readings : List (L.Ctx × Int)) : List S.Candidates :=
  readings.map fun (ctx, i) => S.logits ctx i

/-- Replaying tokens replays them on every stage. -/
theorem stages_foldl_accept (fresh : L.Sampler) (seen : List LlamaToken) :
    S.stages (seen.foldl L.accept fresh) = seen.foldl Chain.accept (S.stages fresh) := by
  induction seen generalizing fresh with
  | nil => rfl
  | cons token seen ih => rw [List.foldl_cons, List.foldl_cons, ih, S.stages_accept]

/-- A kept sampler draws what its stages draw. -/
theorem keptTokens_eq (sampler : L.Sampler) (readings : List (L.Ctx × Int)) :
    keptTokens sampler readings = kept S.pick (S.stages sampler) (S.candidates readings) := by
  induction readings generalizing sampler with
  | nil => rfl
  | cons reading readings ih =>
    obtain ⟨ctx, i⟩ := reading
    unfold candidates
    rw [keptTokens, List.map_cons, kept]
    dsimp only
    rw [ih, S.stages_accept, S.sample_stages, S.sample_token]
    rfl

/-- A rebuilt one draws what fresh stages draw. -/
theorem rebuiltTokens_eq (fresh : L.Sampler) (seen : List LlamaToken)
    (readings : List (L.Ctx × Int)) :
    rebuiltTokens fresh seen readings =
      rebuilt S.pick (S.stages fresh) seen (S.candidates readings) := by
  induction readings generalizing seen with
  | nil => rfl
  | cons reading readings ih =>
    obtain ⟨ctx, i⟩ := reading
    unfold candidates
    rw [rebuiltTokens, List.map_cons, rebuilt]
    dsimp only
    rw [ih, S.sample_token, S.stages_foldl_accept]
    rfl

/-- Stages other than `dist` make a replayable chain. -/
theorem replayable_stages {stages : List SamplerStage}
    (h : ∀ stage ∈ stages, ∀ seed, stage ≠ .dist seed) :
    Replayable ((stages.map L.stage).flatMap S.stages) := by
  intro part hPart
  obtain ⟨sampler, hSampler, hMem⟩ := List.mem_flatMap.mp hPart
  obtain ⟨stage, hStage, rfl⟩ := List.mem_map.mp hSampler
  exact S.stage_replayable stage (h stage hStage) part hMem

end SamplerSemantics

/-- Penalties are no generator. -/
theorem pushPenalties_ne_dist {penalties : Penalties} :
    ∀ stage ∈ pushPenalties penalties, ∀ seed, stage ≠ .dist seed := by
  intro stage hStage seed
  unfold pushPenalties at hStage
  split at hStage
  · rw [List.mem_singleton.mp hStage]
    simp
  · cases hStage

/-- Of the stages of a setting only the last one can be `dist`. -/
theorem samplingStages_cases (sampling : Sampling) :
    (∃ penalties, sampling = .greedy penalties ∧
      ∀ stage ∈ samplingStages sampling, ∀ seed, stage ≠ .dist seed) ∨
    ∃ temperature topK topP minP seed penalties front,
      sampling = .temperature temperature topK topP minP seed penalties ∧
      samplingStages sampling = front ++ [.dist seed] ∧
        ∀ stage ∈ front, ∀ seed, stage ≠ .dist seed := by
  match sampling with
  | .greedy penalties =>
    refine .inl ⟨penalties, rfl, ?_⟩
    unfold samplingStages
    rw [List.forall_mem_append, List.forall_mem_singleton]
    exact ⟨pushPenalties_ne_dist, by simp⟩
  | .temperature temperature topK topP minP seed penalties =>
    refine .inr ⟨temperature, topK, topP, minP, seed, penalties, pushPenalties penalties ++ [.topK topK] ++
      (if topP < 1 then [.topP topP 1] else []) ++ (if 0 < minP then [.minP minP 1] else []) ++
      [.temp temperature], rfl, ?_, ?_⟩
    · simp [samplingStages]
    · simp only [List.forall_mem_append, List.forall_mem_singleton]
      refine ⟨⟨⟨⟨pushPenalties_ne_dist, by simp⟩, ?_⟩, ?_⟩, by simp⟩
      · -- `top_p`, where the card asks for it
        split <;> simp
      · -- `min_p`, where the card asks for it
        split <;> simp

/-- With a grammar, its stage is the first of the chain. -/
theorem buildChain_grammar {sampling : Sampling} {grammar : Text} {chain : L.Sampler}
    (h : buildChain L sampling (some grammar) = .ok chain) :
    ∃ stage, L.grammar grammar "root".toList = .ok stage ∧
      chain = L.chainSimple (stage :: (samplingStages sampling).map L.stage) := by
  unfold buildChain at h
  dsimp only at h
  rcases hGrammar : L.grammar grammar "root".toList with source | stage
  · rw [hGrammar] at h
    cases h
  · rw [hGrammar] at h
    cases h
    exact ⟨stage, rfl, rfl⟩

/-! ## When they draw the same -/

/-- Rebuilding makes no difference to the draws: there are none, or at every step the
generator's number picks what its first number would have picked. -/
def SameDraws (S : SamplerSemantics L) (sampling : Sampling) (chain : L.Sampler)
    (readings : List (L.Ctx × Int)) : Prop :=
  match sampling with
  | .greedy _ => True
  | .temperature _ _ _ _ seed _ =>
    SamePicks S.pick S.dist (S.seeded seed) (S.stages chain).dropLast (S.seeded seed)
      (S.candidates readings)

/-- The two draw alike exactly when the generator makes no difference. -/
theorem rebuiltTokens_iff (S : SamplerSemantics L) {sampling : Sampling} {grammar : Text}
    {chain : L.Sampler} (hChain : buildChain L sampling (some grammar) = .ok chain)
    (readings : List (L.Ctx × Int)) :
    rebuiltTokens chain [] readings = keptTokens chain readings ↔
      SameDraws S sampling chain readings := by
  obtain ⟨stage, hGrammar, rfl⟩ := buildChain_grammar hChain
  have hFirst := S.grammar_replayable hGrammar
  rw [S.rebuiltTokens_eq, S.keptTokens_eq, S.stages_chainSimple, List.flatMap_cons]
  rcases samplingStages_cases sampling with ⟨penalties, rfl, hFront⟩ |
      ⟨temperature, topK, topP, minP, seed, penalties, front, rfl, hStages, hFront⟩
  · -- nothing but accepting a token changes a greedy chain
    have hAll : Replayable (S.stages stage ++
        ((samplingStages (.greedy penalties)).map L.stage).flatMap S.stages) :=
      hFirst.append (S.replayable_stages hFront)
    exact iff_of_true (rebuilt_eq_kept S.pick hAll [] _) trivial
  · have hAll : Replayable (S.stages stage ++ (front.map L.stage).flatMap S.stages) :=
      hFirst.append (S.replayable_stages hFront)
    -- `dist` comes last, behind stages that may be rebuilt
    have hChain : S.stages stage ++ ((front ++ [SamplerStage.dist seed]).map L.stage).flatMap S.stages =
        (S.stages stage ++ (front.map L.stage).flatMap S.stages) ++ [(S.dist, S.seeded seed)] := by
      rw [List.map_append, List.flatMap_append, List.append_assoc]
      simp [S.stage_dist]
    unfold SameDraws
    dsimp only
    rw [S.stages_chainSimple, List.flatMap_cons, hStages, hChain, List.dropLast_concat]
    exact rebuilt_eq_kept_iff S.pick hAll S.dist_unaware (S.seeded seed) (S.seeded seed) [] _

/-- **A chain for every token.** With a grammar the loop draws what rebuilt chains draw
from the logits it reads. Rebuilding draws what one kept chain would have drawn exactly
when the generator makes no difference: on any logits, and on those of a run. -/
theorem rebuilding_iff (S : SamplerSemantics L) {p : GenParams} {grammar : Text}
    {chain : L.Sampler} (hGrammar : p.grammar = some grammar)
    (hChain : buildChain L p.sampling p.grammar = .ok chain) :
    (∀ readings, rebuiltTokens chain [] readings = keptTokens chain readings ↔
      SameDraws S p.sampling chain readings) ∧
    ∀ (ctx : L.Ctx) (batch : L.Batch) (nCur : Int),
      let run := genHeads p (.start p ctx batch nCur)
      run.filterMap (·.drawn p) = rebuiltTokens chain [] (readings p run) ∧
      (run.filterMap (·.drawn p) = keptTokens chain (readings p run) ↔
        SameDraws S p.sampling chain (readings p run)) := by
  have hBuilt : buildChain L p.sampling (some grammar) = .ok chain := by
    rw [← hGrammar, hChain]
  refine ⟨rebuiltTokens_iff S hBuilt, ?_⟩
  intro ctx batch nCur run
  have hSampler : (GenState.start p ctx batch nCur).sampler = none := by
    unfold GenState.start
    rw [hGrammar]
    rfl
  have hDrawn : run.filterMap (·.drawn p) = rebuiltTokens chain [] (readings p run) :=
    drawn_rebuilt hChain _ hSampler
  exact ⟨hDrawn, by rw [hDrawn, rebuiltTokens_iff S hBuilt]⟩

/-! ## A die -/

/-- Two candidates, the likelier one in front. -/
abbrev Pair := LlamaToken × LlamaToken

/-- `dist` as a die that is thrown in turn: every other throw swaps the candidates. -/
def die : Stage Nat Pair LlamaToken where
  apply n c := (if n % 2 = 0 then c else c.swap, n + 1)
  accept n _ := n

/-- A stage that keeps everything. -/
def still : Stage Nat Pair LlamaToken where
  apply n c := (c, n)
  accept n _ := n

/-- A backend whose samplers are their stages, and whose logits leave two candidates. -/
def Llama.dicing : Llama :=
  { Llama.scripted Script.silent with
    Sampler := List (Stage Nat Pair LlamaToken × Nat)
    grammar _ _ := .ok [(still, 0)]
    stage
      | .dist seed => [(die, seed)]
      | _ => [(still, 0)]
    chainSimple := List.flatten
    sample sampler _ _ :=
      let (c, sampler) := Chain.apply sampler (Script.tokenOf 'a', Script.tokenOf 'b')
      (c.1, sampler)
    accept := Chain.accept }

/-- A stage that does nothing can be replayed. -/
theorem replayable_still : Replayable [(still, 0)] := by
  intro part hPart
  rw [List.mem_singleton.mp hPart]
  exact fun _ _ => rfl

def dicingSemantics : SamplerSemantics Llama.dicing where
  State := Nat
  Candidates := Pair
  logits _ _ := (Script.tokenOf 'a', Script.tokenOf 'b')
  pick := Prod.fst
  stages sampler := sampler
  dist := die
  seeded seed := seed
  stages_chainSimple samplers := List.flatMap_id.symm
  stages_accept _ _ := rfl
  sample_token _ _ _ := rfl
  sample_stages _ _ _ := rfl
  grammar_replayable h := by
    cases h
    exact replayable_still
  stage_replayable stage hStage := by
    match stage with
    | .dist seed => exact absurd rfl (hStage seed)
    | .penalties _ _ _ _ | .greedy | .topK _ | .topP _ _ | .minP _ _ | .temp _ =>
      exact replayable_still
  stage_dist _ := rfl
  dist_unaware _ _ := rfl

/-- A short reply with a grammar, sampled by temperature. -/
def tempered : GenParams where
  nCtx := 64
  maxNewTokens := 2
  sampling := .temperature 1 40 1 0 0 {}
  grammar := some "root ::= [ab]+".toList
  grammarComplete := none
  turnEnd := none

/-- Its chain: the grammar, `top_k` and `temp`, and the die. -/
def temperedChain : Llama.dicing.Sampler := [(still, 0), (still, 0), (still, 0), (die, 0)]

/-- The tempered chain is built. -/
theorem tempered_chain : buildChain Llama.dicing tempered.sampling tempered.grammar =
    .ok temperedChain := by
  have hStages : samplingStages tempered.sampling = [.topK 40, .temp 1, .dist 0] := by
    simp [samplingStages, tempered, pushPenalties]
  unfold buildChain
  rw [hStages]
  rfl

/-- And it draws alike exactly when its throws do. -/
theorem tempered_rebuilding :
    (∀ readings, rebuiltTokens temperedChain [] readings = keptTokens temperedChain readings ↔
      SameDraws dicingSemantics tempered.sampling temperedChain readings) ∧
    ∀ (ctx : Llama.dicing.Ctx) (batch : Llama.dicing.Batch) (nCur : Int),
      let run := genHeads tempered (.start tempered ctx batch nCur)
      run.filterMap (·.drawn tempered) = rebuiltTokens temperedChain [] (readings tempered run) ∧
      (run.filterMap (·.drawn tempered) = keptTokens temperedChain (readings tempered run) ↔
        SameDraws dicingSemantics tempered.sampling temperedChain (readings tempered run)) :=
  rebuilding_iff dicingSemantics rfl tempered_chain

/-- Every token of the reply is the one the first throw picks. -/
theorem sameThrow_everyToken :
    ¬ ∀ (L : Llama) (_ : SamplerSemantics L) (p : GenParams) (chain : L.Sampler)
      (ctx : L.Ctx) (batch : L.Batch) (nCur : Int), p.grammar.isSome →
      buildChain L p.sampling p.grammar = .ok chain →
      (genHeads p (.start p ctx batch nCur)).filterMap (·.drawn p) =
        keptTokens chain (readings p (genHeads p (.start p ctx batch nCur))) := by
  intro h
  have hSame := h Llama.dicing dicingSemantics tempered temperedChain (⟨64, []⟩ : ScriptedCtx)
    ([] : List BatchEntry) 0 rfl tempered_chain
  revert hSame
  decide

end Rampipe
