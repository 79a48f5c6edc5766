import Mathlib.Data.Rat.Defs
import Rampipe.Lib.Cells
import Rampipe.Model.ToolFormat

/-!
# Rampipe — what a session takes from outside

`llama.rs` drives a loaded model through `llama_cpp_2`, renders templates with
minijinja and reads JSON with serde_json. `Llama` is that surface as a
parameter: opaque types for the context, the sampler, the batch and the
detokeniser's state, and the operations the source calls on them. An error is
its `Display` text. `entries` and `cells` are not operations of the library:
they name what a batch and a cache hold, and `Lawful` states in their terms
what llama.cpp documents and the source relies on.

`Llama.scripted` is a concrete instance: one token per character, and a model
that continues every prefix the way a fixed transcript does.
-/

namespace Rampipe

/-- `LlamaToken`: a vocabulary index. -/
structure LlamaToken where
  id : Int
  deriving DecidableEq

inductive AddBos
  | always
  | never
  deriving DecidableEq

/-- The rope kinds `rope_type()` has a case for. -/
inductive RopeType
  | norm
  | neoX
  | mRope
  | vision
  deriving DecidableEq

/-- One `batch.add(token, pos, &[0], logits)`. -/
structure BatchEntry where
  token : LlamaToken
  pos : Int
  logits : Bool

/-- The cache cell an entry's decode fills. -/
def BatchEntry.cell (entry : BatchEntry) : Int × LlamaToken := (entry.pos, entry.token)

/-- The sampler constructors that cannot fail. A setting of type `f32` is the
rational it denotes. -/
inductive SamplerStage
  | penalties (lastN : Int) (repeat_ freq present : ℚ)
  | greedy
  | topK (k : Int)
  | topP (p : ℚ) (minKeep : Nat)
  | minP (p : ℚ) (minKeep : Nat)
  | temp (t : ℚ)
  | dist (seed : Nat)

/-- The `LlamaContextParams` a conversation sets. -/
structure LlamaContextParams where
  nCtx : Option Nat
  defragThold : ℚ

structure Llama where
  Ctx : Type
  Sampler : Type
  Decoder : Type
  Batch : Type
  StateFile : Type
  -- the model
  strToToken : Text → AddBos → Except Text (List LlamaToken)
  isEogToken : LlamaToken → Bool
  newDecoder : Decoder
  tokenToPiece : LlamaToken → Decoder → Except Text (Text × Decoder)
  /-- `chat_template(None)`, when there is one and it is UTF-8. -/
  chatTemplate : Option Text
  ropeType : Option RopeType
  -- samplers
  grammar : Text → Text → Except Text Sampler
  stage : SamplerStage → Sampler
  chainSimple : List Sampler → Sampler
  sample : Sampler → Ctx → Int → LlamaToken × Sampler
  accept : Sampler → LlamaToken → Sampler
  -- batches
  newBatch : Nat → Nat → Batch
  clear : Batch → Batch
  add : Batch → BatchEntry → Except Text Batch
  nTokens : Batch → Int
  -- contexts
  newContext : LlamaContextParams → Except Text Ctx
  nCtx : Ctx → Nat
  decode : Ctx → Batch → Except Text Unit × Ctx
  kvCacheSeqRm : Ctx → Nat → Nat → Except Text (Bool × Ctx)
  kvCacheSeqAdd : Ctx → Nat → Int → Except Text Ctx
  stateSaveFile : Ctx → List LlamaToken → Except Text StateFile
  stateLoadFile : Ctx → StateFile → Nat → Except Text (List LlamaToken) × Ctx
  /-- Free and total device memory, when there is a device. -/
  gpuMemoryBytes : Option (Nat × Nat)
  -- templates and JSON
  renderJson : Text → Json → Option Json → Bool → Option Text
  fromStr : Text → Option Json
  /-- What a batch holds. -/
  entries : Batch → List BatchEntry
  /-- The occupied cells of a context's cache, in the order they were decoded. -/
  cells : Ctx → List (Int × LlamaToken)

namespace Llama

/-- `probe_renderer()`: never adds a generation prompt. -/
def probeRenderer (L : Llama) : RenderFn := fun templateText messages tools =>
  L.renderJson templateText messages tools false

/-- What llama.cpp documents of its batches, caches and state files. -/
structure Lawful (L : Llama) : Prop where
  entries_newBatch : ∀ nTokens nSeqMax, L.entries (L.newBatch nTokens nSeqMax) = []
  entries_clear : ∀ batch, L.entries (L.clear batch) = []
  entries_add : ∀ {batch entry batch'}, L.add batch entry = .ok batch' →
    L.entries batch' = L.entries batch ++ [entry]
  cells_newContext : ∀ {params ctx}, L.newContext params = .ok ctx → L.cells ctx = []
  nCtx_pos : ∀ ctx, 0 < L.nCtx ctx
  nCtx_lt : ∀ ctx, L.nCtx ctx < 4294967296
  /-- Asking for the size a context reports gives a context that reports it. -/
  nCtx_again : ∀ {params params' ctx ctx'}, L.newContext params = .ok ctx →
    params'.nCtx = some (L.nCtx ctx) → L.newContext params' = .ok ctx' → L.nCtx ctx' = L.nCtx ctx
  cells_decode_ok : ∀ {ctx batch ctx'}, L.decode ctx batch = (.ok (), ctx') →
    L.cells ctx' = L.cells ctx ++ (L.entries batch).map BatchEntry.cell
  /-- Positions are `i32`s: no cache grows past what one counts. -/
  length_decode_ok : ∀ {ctx batch ctx'}, L.decode ctx batch = (.ok (), ctx') →
    ((L.cells ctx').length : Int) ≤ i32Max
  /-- A batch of at most 512 tokens is one micro-batch: a failed decode takes its
  cells back. -/
  cells_decode_err : ∀ {ctx batch e ctx'}, L.decode ctx batch = (.error e, ctx') →
    L.cells ctx' = L.cells ctx
  kvCacheSeqRm_ok : ∀ ctx (p0 p1 : Nat), (p0 : Int) ≤ i32Max → (p1 : Int) ≤ i32Max →
    ∃ removed ctx', L.kvCacheSeqRm ctx p0 p1 = .ok (removed, ctx') ∧
      L.cells ctx' = Cells.removeRange p0 p1 (L.cells ctx)
  kvCacheSeqAdd_ok : ∀ ctx (p0 : Nat) (delta : Int), (p0 : Int) ≤ i32Max →
    ∃ ctx', L.kvCacheSeqAdd ctx p0 delta = .ok ctx' ∧
      L.cells ctx' = Cells.shiftFrom p0 delta (L.cells ctx)
  /-- Loading a state file returns the tokens it was saved with, and its cells. -/
  stateLoadFile_ok : ∀ {ctx tokens file fresh max tokens' ctx'},
    L.stateSaveFile ctx tokens = .ok file → L.stateLoadFile fresh file max = (.ok tokens', ctx') →
    tokens' = tokens ∧ L.cells ctx' = L.cells ctx

end Llama

/-! ## A scripted model -/

/-- The context of a scripted model: its size and its cells. -/
structure ScriptedCtx where
  nCtx : Nat
  cells : List (Int × LlamaToken)

/-- What a scripted model does: the token that follows a cache of `n` cells, and
whether a decode onto one fails. -/
structure Script where
  next : Nat → LlamaToken
  fails : Nat → Bool

namespace Script

def bos : LlamaToken := ⟨1⟩
def eog : LlamaToken := ⟨2⟩

/-- One token per character. -/
def tokenOf (c : Char) : LlamaToken := ⟨c.toNat⟩

/-- Every message as `<role>content` and a newline, after the offered tools. -/
def renderJson (_templateText : Text) (messages : Json) (tools : Option Json) (_open : Bool) :
    Option Text :=
  let field (key : String) (value : Json) : Text := ((value.get key.toList).bind Json.asStr).getD []
  let items : Json → List Json
    | .array items => items
    | _ => []
  let offered := ((tools.map items).getD []).flatMap fun tool =>
    field "name" ((tool.get "function".toList).getD .null)
  some (offered ++ (items messages).flatMap fun message =>
    '<' :: field "role" message ++ '>' :: field "content" message ++ ['\n'])

end Script

open Script in
/-- The backend that plays a script. -/
def Llama.scripted (script : Script) : Llama where
  Ctx := ScriptedCtx
  Sampler := Unit
  Decoder := Unit
  Batch := List BatchEntry
  StateFile := List LlamaToken × List (Int × LlamaToken)
  strToToken text addBos :=
    .ok ((if addBos = .always then [bos] else []) ++ text.map tokenOf)
  isEogToken token := token = eog
  newDecoder := ()
  tokenToPiece token _ := .ok ([Char.ofNat token.id.toNat], ())
  chatTemplate := some "chat".toList
  ropeType := some .neoX
  grammar _ _ := .ok ()
  stage _ := ()
  chainSimple _ := ()
  sample _ ctx _ := (script.next ctx.cells.length, ())
  accept _ _ := ()
  newBatch _ _ := []
  clear _ := []
  add batch entry :=
    if batch.length < 512 then .ok (batch ++ [entry]) else .error "Insufficient Space of 512".toList
  nTokens batch := batch.length
  newContext params :=
    let n := params.nCtx.getD 512
    if 0 < n ∧ n < 4294967296 then .ok { nCtx := n, cells := [] }
    else .error "null reference from llama.cpp".toList
  nCtx ctx := if 0 < ctx.nCtx ∧ ctx.nCtx < 4294967296 then ctx.nCtx else 512
  decode ctx batch :=
    if script.fails ctx.cells.length ∨ min ctx.nCtx 2147483647 < ctx.cells.length + batch.length then
      (.error "Decode Error 1: NoKvCacheSlot".toList, ctx)
    else (.ok (), { ctx with cells := ctx.cells ++ batch.map BatchEntry.cell })
  kvCacheSeqRm ctx p0 p1 := .ok (true, { ctx with cells := Cells.removeRange p0 p1 ctx.cells })
  kvCacheSeqAdd ctx p0 delta := .ok { ctx with cells := Cells.shiftFrom p0 delta ctx.cells }
  stateSaveFile ctx tokens := .ok (tokens, ctx.cells)
  stateLoadFile ctx file max :=
    if file.1.length ≤ max then (.ok file.1, { ctx with cells := file.2 })
    else (.error "failed to load session file".toList, ctx)
  gpuMemoryBytes := none
  renderJson := Script.renderJson
  fromStr _ := none
  entries batch := batch
  cells ctx := ctx.cells

/-- The scripted backend keeps every law the results assume. -/
theorem Llama.scripted_lawful (script : Script) : (Llama.scripted script).Lawful where
  entries_newBatch _ _ := rfl
  entries_clear _ := rfl
  entries_add := by
    intro batch entry batch' h
    simp only [scripted] at h ⊢
    split at h
    · cases h
      rfl
    · cases h
  cells_newContext := by
    intro params ctx h
    simp only [scripted] at h ⊢
    split at h
    · cases h
      rfl
    · cases h
  nCtx_pos := by
    intro ctx
    simp only [scripted]
    split <;> omega
  nCtx_lt := by
    intro ctx
    simp only [scripted]
    split <;> omega
  -- a size once reported is in range, so asking for it again gives the same
  nCtx_again := by
    intro params params' ctx ctx' h hAsked h'
    simp only [scripted] at h hAsked h' ⊢
    split at h <;> cases h
    rename_i hRange
    simp only [hRange, and_self, if_true] at hAsked
    simp only [hAsked, Option.getD_some, hRange, and_self, if_true] at h'
    cases h'
    rfl
  cells_decode_ok := by
    intro ctx batch ctx' h
    simp only [scripted] at h ⊢
    split at h
    · cases h
    · cases h
      rfl
  -- a decode checks the size before it writes
  length_decode_ok := by
    intro (ctx : ScriptedCtx) (batch : List BatchEntry) (ctx' : ScriptedCtx) h
    simp only [scripted] at h ⊢
    split at h
    · cases h
    · rename_i hRoom
      cases h
      simp only [List.length_append, List.length_map, i32Max]
      omega
  cells_decode_err := by
    intro ctx batch e ctx' h
    simp only [scripted] at h ⊢
    split at h
    · cases h
      rfl
    · cases h
  kvCacheSeqRm_ok _ _ _ _ _ := ⟨_, _, rfl, rfl⟩
  kvCacheSeqAdd_ok _ _ _ _ := ⟨_, rfl, rfl⟩
  stateLoadFile_ok := by
    intro ctx tokens file fresh max tokens' ctx' hSave hLoad
    simp only [scripted] at hSave hLoad ⊢
    cases hSave
    split at hLoad
    · cases hLoad
      exact ⟨rfl, rfl⟩
    · cases hLoad

end Rampipe
