import Mathlib.Data.List.Basic

/-!
# Chains of stages

A chain narrows candidates down stage by stage until one is picked, and is told of
every token that is accepted. A stage has a state, which applying it and accepting a
token may change; stages of several kinds share a type of states.

* A stage is **replayable** when only accepting a token changes its state, and
  **unaware** when accepting one does not.
* `kept` runs one chain over a sequence of candidates; `rebuilt` takes a fresh chain
  for every step and tells it of the tokens picked before.
* `rebuilt_eq_kept` — on replayable stages the two are the same.
* `rebuilt_eq_kept_iff` — with an unaware stage at the end they are the same as long
  as it picks in every state what it picks in its first.
-/

namespace Chain

/-- A stage: what applying it leaves of the candidates and of its state, and what
accepting a token makes of the state. -/
structure Stage (σ κ τ : Type*) where
  apply : σ → κ → κ × σ
  accept : σ → τ → σ

variable {σ κ τ : Type*}

/-- Only accepting a token changes the state. -/
def Stage.Replayable (stage : Stage σ κ τ) : Prop := ∀ s c, (stage.apply s c).2 = s

/-- Accepting a token does not change the state. -/
def Stage.Unaware (stage : Stage σ κ τ) : Prop := ∀ s t, stage.accept s t = s

/-- Applies the stages in turn; what one leaves is what the next one sees. -/
def apply : List (Stage σ κ τ × σ) → κ → κ × List (Stage σ κ τ × σ)
  | [], c => (c, [])
  | (stage, s) :: rest, c =>
    let (c, s) := stage.apply s c
    let (c, rest) := apply rest c
    (c, (stage, s) :: rest)

/-- Tells every stage of an accepted token. -/
def accept (chain : List (Stage σ κ τ × σ)) (t : τ) : List (Stage σ κ τ × σ) :=
  chain.map fun (stage, s) => (stage, stage.accept s t)

/-- Every stage of the chain is replayable. -/
def Replayable (chain : List (Stage σ κ τ × σ)) : Prop := ∀ part ∈ chain, part.1.Replayable

/-- The stages behind others get what those leave. -/
theorem apply_append (front back : List (Stage σ κ τ × σ)) (c : κ) :
    apply (front ++ back) c = ((apply back (apply front c).1).1,
      (apply front c).2 ++ (apply back (apply front c).1).2) := by
  induction front generalizing c with
  | nil => rfl
  | cons part front ih =>
    rw [List.cons_append, apply]
    dsimp only
    rw [ih]
    rfl

theorem accept_append (front back : List (Stage σ κ τ × σ)) (t : τ) :
    accept (front ++ back) t = accept front t ++ accept back t := List.map_append

/-- Applying replayable stages leaves them as they are. -/
theorem Replayable.apply_snd {chain : List (Stage σ κ τ × σ)} (h : Replayable chain) (c : κ) :
    (apply chain c).2 = chain := by
  induction chain generalizing c with
  | nil => rfl
  | cons part chain ih =>
    have hHead := h part List.mem_cons_self part.2 c
    have hTail := ih (fun p hp => h p (List.mem_cons_of_mem _ hp)) (part.1.apply part.2 c).1
    rw [apply]
    dsimp only
    rw [hHead, hTail]

/-- A chain that can be replayed can still be when a token was accepted. -/
theorem Replayable.accept {chain : List (Stage σ κ τ × σ)} (h : Replayable chain) (t : τ) :
    Replayable (accept chain t) := by
  intro part hPart
  obtain ⟨before, hBefore, rfl⟩ := List.mem_map.mp hPart
  exact h before hBefore

/-- Chains that can be replayed can be one behind the other. -/
theorem Replayable.append {front back : List (Stage σ κ τ × σ)} (hFront : Replayable front)
    (hBack : Replayable back) : Replayable (front ++ back) := by
  intro part hPart
  rcases List.mem_append.mp hPart with hPart | hPart
  · exact hFront part hPart
  · exact hBack part hPart

/-! ## Keeping and rebuilding -/

variable (pick : κ → τ)

/-- One chain, kept over all the steps. -/
def kept : List (Stage σ κ τ × σ) → List κ → List τ
  | _, [] => []
  | chain, c :: cs =>
    let (c, chain) := apply chain c
    pick c :: kept (accept chain (pick c)) cs

/-- A fresh chain for every step, told of the tokens `seen` so far. -/
def rebuilt (fresh : List (Stage σ κ τ × σ)) : List τ → List κ → List τ
  | _, [] => []
  | seen, c :: cs =>
    let t := pick (apply (seen.foldl accept fresh) c).1
    t :: rebuilt fresh (seen ++ [t]) cs

/-- A chain that can be replayed still can when tokens were. -/
theorem Replayable.foldl {chain : List (Stage σ κ τ × σ)} (h : Replayable chain) (seen : List τ) :
    Replayable (seen.foldl Chain.accept chain) := by
  induction seen generalizing chain with
  | nil => exact h
  | cons t seen ih => exact ih (h.accept t)

/-- Replayable stages may be rebuilt for every step. -/
theorem rebuilt_eq_kept {fresh : List (Stage σ κ τ × σ)} (h : Replayable fresh) (seen : List τ)
    (cs : List κ) : rebuilt pick fresh seen cs = kept pick (seen.foldl accept fresh) cs := by
  induction cs generalizing seen with
  | nil => rfl
  | cons c cs ih =>
    rw [rebuilt, kept]
    dsimp only
    rw [(h.foldl seen).apply_snd c, ih, List.foldl_append]
    rfl

/-- At every step of the kept chain `front ++ [last]`, the last stage picks in its
state `s` what it picks in its first state `s₀`. -/
def SamePicks (last : Stage σ κ τ) (s₀ : σ) : List (Stage σ κ τ × σ) → σ → List κ → Prop
  | _, _, [] => True
  | front, s, c :: cs =>
    let left := (apply front c).1
    pick (last.apply s left).1 = pick (last.apply s₀ left).1 ∧
      SamePicks last s₀ (accept front (pick (last.apply s left).1)) (last.apply s left).2 cs

/-- A last stage that knows nothing of tokens is left as it is. -/
theorem foldl_accept_last (front : List (Stage σ κ τ × σ)) {last : Stage σ κ τ}
    (hLast : last.Unaware) (s : σ) (seen : List τ) :
    seen.foldl accept (front ++ [(last, s)]) = seen.foldl accept front ++ [(last, s)] := by
  induction seen generalizing front with
  | nil => rfl
  | cons t seen ih =>
    have hStep : accept (front ++ [(last, s)]) t = accept front t ++ [(last, s)] := by
      rw [accept_append]
      show accept front t ++ [(last, last.accept s t)] = _
      rw [hLast]
    rw [List.foldl_cons, List.foldl_cons, hStep, ih]

/-- Where the last stage is unaware of what is accepted, a rebuilt chain starts it
from its first state every time, and this is the only difference. -/
theorem rebuilt_eq_kept_iff {front : List (Stage σ κ τ × σ)} (hFront : Replayable front)
    {last : Stage σ κ τ} (hLast : last.Unaware) (s₀ s : σ) (seen : List τ) (cs : List κ) :
    rebuilt pick (front ++ [(last, s₀)]) seen cs =
        kept pick (seen.foldl accept front ++ [(last, s)]) cs ↔
      SamePicks pick last s₀ (seen.foldl accept front) s cs := by
  induction cs generalizing seen s with
  | nil => simp [rebuilt, kept, SamePicks]
  | cons c cs ih =>
    have hNow := (hFront.foldl seen).apply_snd c
    have hKept : apply (seen.foldl accept front ++ [(last, s)]) c =
        ((last.apply s (apply (seen.foldl accept front) c).1).1, seen.foldl accept front ++
          [(last, (last.apply s (apply (seen.foldl accept front) c).1).2)]) := by
      rw [apply_append, hNow]
      rfl
    have hRebuilt : (apply (seen.foldl accept front ++ [(last, s₀)]) c).1 =
        (last.apply s₀ (apply (seen.foldl accept front) c).1).1 := by
      rw [apply_append]
      rfl
    rw [rebuilt, kept, SamePicks]
    dsimp only
    rw [foldl_accept_last front hLast, hRebuilt, hKept, List.cons.injEq]
    dsimp only
    generalize (apply (seen.foldl accept front) c).1 = left
    rw [eq_comm (a := pick (last.apply s₀ left).1)]
    refine and_congr_right fun hPick => ?_
    -- with the same token picked, the next step is reached with the same tokens seen
    have hNext := ih (last.apply s left).2 (seen ++ [pick (last.apply s₀ left).1])
    rw [List.foldl_append, List.foldl_cons, List.foldl_nil] at hNext
    rw [accept_append, hPick]
    show _ = kept pick (_ ++ [(last, last.accept _ _)]) cs ↔ _
    rw [hLast]
    exact hNext

end Chain
