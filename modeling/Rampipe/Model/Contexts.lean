import Rampipe.Lib.Machine
import Rampipe.Model.Session

/-!
# Rampipe — what is asked of a context

A context of llama.cpp as a machine: the operations that a conversation's calls have for it,
each with its answer and the context that is left. What is documented of state files is said
in these terms: a context that one was loaded into goes on as the one that it was saved from
would have.
-/

namespace Rampipe

open Machine

/-- An operation on a context. -/
inductive ContextOp (L : Llama)
  | decode (batch : L.Batch)
  | sample (sampler : L.Sampler) (index : Int)
  | kvCacheSeqRm (p0 p1 : Nat)
  | kvCacheSeqAdd (p0 : Nat) (delta : Int)

namespace Llama

variable (L : Llama)

def Answer : ContextOp L → Type
  | .decode _ => Except Text Unit
  | .sample _ _ => LlamaToken × L.Sampler
  | .kvCacheSeqRm _ _ => Except Text Bool
  | .kvCacheSeqAdd _ _ => Except Text Unit

variable {L} in
/-- A failed change to the cache leaves the context as it is. -/
def orUnchanged {α : Type} (ctx : L.Ctx) : Except Text (α × L.Ctx) → Except Text α × L.Ctx
  | .error source => (.error source, ctx)
  | .ok (value, ctx) => (.ok value, ctx)

def perform : (op : ContextOp L) → L.Ctx → L.Answer op × L.Ctx
  | .decode batch, ctx => L.decode ctx batch
  | .sample sampler index, ctx => (L.sample sampler ctx index, ctx)
  | .kvCacheSeqRm p0 p1, ctx => orUnchanged ctx (L.kvCacheSeqRm ctx p0 p1)
  | .kvCacheSeqAdd p0 delta, ctx =>
    orUnchanged ctx ((L.kvCacheSeqAdd ctx p0 delta).map fun ctx => ((), ctx))

/-- A context that was made with room for `n` tokens, whatever has become of it. -/
inductive Born (n : Nat) : L.Ctx → Prop
  | new {params : LlamaContextParams} {ctx : L.Ctx} :
      L.newContext params = .ok ctx → L.nCtx ctx = n → Born n ctx
  | performed {ctx : L.Ctx} (op : ContextOp L) : Born n ctx → Born n (L.perform op ctx).2
  | loaded {ctx ctx' : L.Ctx} {file : L.StateFile} {max : Nat} {tokens : List LlamaToken} :
      Born n ctx → L.stateLoadFile ctx file max = (.ok tokens, ctx') → Born n ctx'

/-- What llama.cpp documents of its state files: they hold all that a context goes on from. -/
structure Restores : Prop where
  alike : ∀ {n ctx tokens file params fresh max tokens' ctx'}, L.Born n ctx →
    L.stateSaveFile ctx tokens = .ok file → L.newContext params = .ok fresh → L.nCtx fresh = n →
    L.stateLoadFile fresh file max = (.ok tokens', ctx') → Alike L.perform ctx ctx'

variable {L}

theorem orUnchanged_same {α : Type} {R : L.Ctx → L.Ctx → Prop} {a b : L.Ctx}
    {here there : Except Text (α × L.Ctx)}
    (h : Same R (orUnchanged a here) (orUnchanged b there)) :
    (∃ source, here = .error source ∧ there = .error source) ∨
    ∃ value a' b', here = .ok (value, a') ∧ there = .ok (value, b') ∧ R a' b' := by
  rcases here with source | ⟨value, a'⟩ <;> rcases there with source' | ⟨value', b'⟩ <;> cases h
  · exact .inl ⟨source, rfl, rfl⟩
  · rename_i hNext
    exact .inr ⟨value, a', b', rfl, rfl, hNext⟩

/-- There was a context that reported the size. -/
theorem Born.sized {n : Nat} {ctx : L.Ctx} (h : L.Born n ctx) :
    ∃ params first, L.newContext params = .ok first ∧ L.nCtx first = n := by
  induction h with
  | new hNew hSize => exact ⟨_, _, hNew, hSize⟩
  | performed _ _ ih => exact ih
  | loaded _ _ ih => exact ih

end Llama

/-! ## The scripted model's -/

namespace Llama

/-- A scripted context keeps its size, and that is all it has beside its cells. -/
theorem scripted_born {script : Script} {n : Nat} {ctx : (scripted script).Ctx}
    (h : (scripted script).Born n ctx) : ScriptedCtx.nCtx ctx = n := by
  induction h with
  | @new params ctx hNew hSize =>
    simp only [scripted] at hNew hSize
    split at hNew
    · rename_i hRange
      cases hNew
      rw [if_pos hRange] at hSize
      exact hSize
    · cases hNew
  | @performed ctx op _ ih =>
    cases op with
    | decode batch =>
      simp only [perform, scripted]
      split
      · exact ih
      · exact ih
    | _ => exact ih
  | @loaded ctx ctx' file max tokens _ hLoad ih =>
    simp only [scripted] at hLoad
    split at hLoad
    · cases hLoad
      exact ih
    · cases hLoad

theorem scripted_restores (script : Script) : (scripted script).Restores where
  alike := by
    intro n ctx tokens file params fresh max tokens' ctx' hBorn hSave hNew hSize hLoad
    have hSame : ScriptedCtx.nCtx ctx = ScriptedCtx.nCtx fresh :=
      (scripted_born hBorn).trans (scripted_born (.new hNew hSize)).symm
    simp only [scripted] at hSave hLoad
    cases hSave
    split at hLoad
    · cases hLoad
      -- the restored context is the saved one
      have hEq : (ctx : ScriptedCtx) = { (fresh : ScriptedCtx) with cells := ctx.cells } := by
        cases ctx
        cases hSame
        rfl
      exact hEq ▸ Alike.refl (σ := ScriptedCtx) ctx
    · cases hLoad

end Llama

end Rampipe
