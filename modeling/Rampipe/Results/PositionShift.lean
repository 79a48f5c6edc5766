import Mathlib.Tactic.NormNum
import Rampipe.Model.Session

/-!
# Rampipe — models that take no position shift

llama.cpp aborts the process when positions are shifted on a model with more than
one position per token. Two mechanisms shift them, the eviction of old turns and the
automatic defragmentation of a context, and `open_conversation` turns both off when
the model's rope kind is not known to be ordinary. `open_conversation_from_state`
takes its policy from the sidecar and its threshold from a constant.

Beside each conversation of a session stands what its context was created with,
which the conversation itself does not keep.

* `openConversation_params`, `openConversationFromState_params` — the two ways in.
* `Live.neverShifts_step` — what a call leaves of it.
* `position_shift_iff`    — no conversation of a run shifts positions exactly when none
  of them was reopened from a snapshot.
-/

namespace Rampipe

open Conversation

variable {L : Llama}

/-! ## What a context is created with -/

namespace LlamaSession

/-- The parameters of a fresh conversation's context. -/
def openParams (L : Llama) (options : ConversationOptions) : LlamaContextParams where
  nCtx := some options.nCtx
  defragThold := if supportsKvCachePositionShift L then CONVERSATION_DEFRAG_THOLD else -1

/-- The parameters of a reopened one's. -/
def reopenParams (sidecar : ConversationSnapshotMeta) : LlamaContextParams where
  nCtx := nonZeroU32 (asU32 sidecar.nCtx)
  defragThold := CONVERSATION_DEFRAG_THOLD

/-- A context that is made is the one asked for. -/
theorem newContextReporting_ok {params : LlamaContextParams} {asked : Nat} {ctx : L.Ctx}
    (h : newContextReporting L params asked = .ok ctx) : L.newContext params = .ok ctx := by
  unfold newContextReporting at h
  split at h
  · rename_i hNew
    cases h
    exact hNew
  · split at h
    · cases h
    · cases h

/-- What a conversation was opened with, and what its policy became. -/
theorem openConversation_params {session : LlamaSession} {options : ConversationOptions}
    {c : Conversation L} (h : session.openConversation L options = .ok c) :
    L.newContext (openParams L options) = .ok c.ctx ∧
      c.overflow = if supportsKvCachePositionShift L then options.overflow else .fail := by
  unfold openConversation at h
  unfold openParams
  by_cases hRope : supportsKvCachePositionShift L = true
  · -- the caller's policy, and a threshold for defragmentation
    simp only [hRope, if_true] at h ⊢
    split at h
    · cases h
    rename_i ctx hCtx
    split at h
    · cases h
    · cases h
    · cases h
    cases h
    exact ⟨newContextReporting_ok hCtx, rfl⟩
  · -- both are switched off
    simp only [hRope, Bool.false_eq_true, if_false] at h ⊢
    split at h
    · cases h
    rename_i ctx hCtx
    split at h
    · cases h
    · cases h
    · cases h
    cases h
    exact ⟨newContextReporting_ok hCtx, rfl⟩

/-- The state file is loaded into the context that was created. -/
theorem openConversationFromState_params {session : LlamaSession} {snapshot : Snapshot L}
    {c : Conversation L} (h : session.openConversationFromState snapshot = .ok c) :
    (∃ ctx tokens, L.newContext (reopenParams snapshot.sidecar) = .ok ctx ∧
      L.stateLoadFile ctx snapshot.state (asUsize c.nCtx) = (.ok tokens, c.ctx)) ∧
      c.overflow = snapshot.sidecar.overflow := by
  unfold openConversationFromState at h
  unfold reopenParams
  dsimp only at h
  split at h
  · cases h
  split at h
  · cases h
  rename_i ctx hCtx
  split at h
  · cases h
  · cases h
  · cases h
  split at h
  · cases h
  rename_i tokens loaded hLoad
  cases h
  exact ⟨⟨ctx, tokens, newContextReporting_ok hCtx, hLoad⟩, rfl⟩

end LlamaSession

/-! ## The conversations of a session -/

/-- An open conversation, with what its context was created with. -/
structure Live (L : Llama) where
  conversation : Conversation L
  params : LlamaContextParams

namespace Live

/-- Neither mechanism is on: the room check leaves the conversation, and with it the
cache, as it is, and the context is not defragmented. -/
structure NeverShifts (live : Live L) : Prop where
  overflow : live.conversation.overflow = .fail
  room : ∀ needed, (live.conversation.ensureRoomFor needed).2 = live.conversation
  defragThold : live.params.defragThold < 0

/-- Without eviction and without defragmentation no position shifts. -/
theorem neverShifts_of_overflow {live : Live L} (hOverflow : live.conversation.overflow = .fail)
    (hDefrag : live.params.defragThold < 0) : live.NeverShifts where
  overflow := hOverflow
  room := by
    intro needed
    unfold ensureRoomFor
    rw [hOverflow]
    split
    · rfl
    · rfl
  defragThold := hDefrag

/-- A call on one of them. -/
def call (live : Live L) (request : Conversation.Request) : Live L :=
  { live with conversation := live.conversation.after request }

/-- A call changes nothing about that. -/
theorem neverShifts_call {live : Live L} (h : live.NeverShifts) (request : Conversation.Request) :
    (live.call request).NeverShifts := by
  refine neverShifts_of_overflow ?_ h.defragThold
  have hSetup := congrArg Setup.overflow (setup_after live.conversation request)
  exact hSetup.trans h.overflow

end Live

/-- What can happen on a session. A snapshot leaves every conversation as it is; what is
reopened is any snapshot, whoever wrote it. -/
inductive SessionEvent (L : Llama)
  | openConversation (options : ConversationOptions)
  | request (conversation : Nat) (request : Conversation.Request)
  | snapshot (conversation : Nat)
  | reopen (snapshot : Snapshot L)

namespace LlamaSession

/-- A conversation that was opened, beside those that are there; nothing where it was
not. -/
def opened (lives : List (Live L)) (params : LlamaContextParams) :
    Outcome (Conversation L) → List (Live L)
  | .ok conversation => lives ++ [{ conversation, params }]
  | _ => lives

def step (session : LlamaSession) (lives : List (Live L)) : SessionEvent L → List (Live L)
  | .openConversation options =>
    opened lives (openParams L options) (session.openConversation L options)
  | .request conversation request => lives.modify conversation (·.call request)
  | .snapshot _ => lives
  | .reopen snapshot =>
    opened lives (reopenParams snapshot.sidecar) (session.openConversationFromState snapshot)

def run (session : LlamaSession) (events : List (SessionEvent L)) : List (Live L) :=
  events.foldl session.step []

variable {session : LlamaSession} {lives : List (Live L)}

/-- What is open was open, or has just been opened. -/
theorem mem_opened {params : LlamaContextParams} {outcome : Outcome (Conversation L)}
    {live : Live L} (h : live ∈ opened lives params outcome) :
    live ∈ lives ∨ ∃ c, outcome = .ok c ∧ live = { conversation := c, params } := by
  match outcome, h with
  | .ok c, h =>
    rcases List.mem_append.mp h with h | h
    · exact Or.inl h
    · exact Or.inr ⟨c, rfl, List.mem_singleton.mp h⟩
  | .err _, h => exact Or.inl h
  | .panicked, h => exact Or.inl h
  | .hangs, h => exact Or.inl h

/-- On such a model every step but a reopening keeps both mechanisms off. -/
theorem neverShifts_step (hRope : supportsKvCachePositionShift L = false)
    (h : ∀ live ∈ lives, live.NeverShifts) {event : SessionEvent L}
    (hReopen : ∀ snapshot, event = .reopen snapshot →
      ∀ c, session.openConversationFromState snapshot ≠ .ok c) :
    ∀ live ∈ session.step lives event, live.NeverShifts := by
  intro live hLive
  match event, hReopen, hLive with
  | .openConversation options, _, hLive =>
    rcases mem_opened hLive with hLive | ⟨c, hOk, rfl⟩
    · exact h live hLive
    · obtain ⟨-, hOverflow⟩ := openConversation_params hOk
      rw [hRope] at hOverflow
      refine Live.neverShifts_of_overflow hOverflow ?_
      show (openParams L options).defragThold < 0
      norm_num [openParams, hRope]
  | .request conversation request, _, hLive =>
    -- one conversation is called, and the others stay
    obtain ⟨i, hi⟩ := List.mem_iff_getElem?.mp hLive
    rw [step, List.getElem?_modify] at hi
    obtain ⟨before, hBefore, rfl⟩ := Option.map_eq_some_iff.mp hi
    have hShifts := h before (List.mem_of_getElem? hBefore)
    split
    · exact Live.neverShifts_call hShifts request
    · exact hShifts
  | .snapshot _, _, hLive => exact h live hLive
  | .reopen snapshot, hReopen, hLive =>
    rcases mem_opened hLive with hLive | ⟨c, hOk, -⟩
    · exact h live hLive
    · exact absurd hOk (hReopen snapshot rfl c)

/-- The threshold a reopened conversation's context is created with turns
defragmentation on. -/
theorem not_neverShifts_reopened (sidecar : ConversationSnapshotMeta) (c : Conversation L) :
    ¬ ({ conversation := c, params := reopenParams sidecar } : Live L).NeverShifts := by
  intro h
  have hNegative : CONVERSATION_DEFRAG_THOLD < 0 := h.defragThold
  unfold CONVERSATION_DEFRAG_THOLD at hNegative
  norm_num at hNegative

/-- A snapshot that was reopened is among the conversations. -/
theorem mem_run_reopen (before : List (SessionEvent L)) {snapshot : Snapshot L}
    {c : Conversation L} (hOk : session.openConversationFromState snapshot = .ok c) :
    { conversation := c, params := reopenParams snapshot.sidecar } ∈
      session.run (before ++ [.reopen snapshot]) := by
  unfold run
  rw [List.foldl_append, List.foldl_cons, List.foldl_nil, step, hOk]
  exact List.mem_append_right _ (List.mem_singleton.mpr rfl)

end LlamaSession

/-- **No position shift.** On a model whose rope kind is not known to be ordinary, in
every state of a run no conversation evicts or defragments, exactly when no snapshot
is reopened in it. -/
theorem position_shift_iff (L : Llama) (session : LlamaSession)
    (hNorm : L.ropeType ≠ some .norm) (hNeOfX : L.ropeType ≠ some .neoX)
    (events : List (SessionEvent L)) :
    (∀ before after, events = before ++ after → ∀ live ∈ session.run before, live.NeverShifts) ↔
      ∀ snapshot, .reopen snapshot ∈ events →
        ∀ c, session.openConversationFromState snapshot ≠ .ok c := by
  have hRope : LlamaSession.supportsKvCachePositionShift L = false := by
    simp [LlamaSession.supportsKvCachePositionShift, hNorm, hNeOfX]
  constructor
  · intro h snapshot hMem c hOk
    obtain ⟨before, after, rfl⟩ := List.append_of_mem hMem
    exact LlamaSession.not_neverShifts_reopened snapshot.sidecar c
      (h (before ++ [.reopen snapshot]) after (by simp) _ (LlamaSession.mem_run_reopen before hOk))
  · intro h before after hEvents
    have hBefore : ∀ snapshot, .reopen snapshot ∈ before →
        ∀ c, session.openConversationFromState snapshot ≠ .ok c := by
      intro snapshot hMem
      exact h snapshot (by rw [hEvents]; exact List.mem_append_left _ hMem)
    clear hEvents h
    -- event by event, from the end
    induction before using List.reverseRecOn with
    | nil =>
      intro live hLive
      cases hLive
    | append_singleton before event ih =>
      have hEarlier := ih fun snapshot hMem => hBefore snapshot (List.mem_append_left _ hMem)
      unfold LlamaSession.run at hEarlier ⊢
      rw [List.foldl_append, List.foldl_cons, List.foldl_nil]
      refine LlamaSession.neverShifts_step hRope hEarlier ?_
      rintro snapshot rfl
      exact hBefore snapshot (List.mem_append_right _ (List.mem_singleton.mpr rfl))

/-! ## A model with several positions for each token -/

namespace Script

/-- The scripted model, with a rope kind that takes no shift. -/
def mRopeModel : Llama := { Llama.scripted silent with ropeType := some .mRope }

/-- A snapshot an older build may have left: with no turn yet, and eviction on. -/
def olderSnapshot : Snapshot mRopeModel where
  state := ([], [])
  sidecar := {
    modelPath := session.path
    nCtx := 64
    overflow := .dropOldestTurns
    turns := []
    tools := []
    toolFormat := none }

/-- The model opens a conversation. -/
theorem mRopeModel_opens :
    (session.openConversation mRopeModel (options 64 none [])).isOk = true := by
  decide

/-- The conversation that was opened afresh. -/
def mRopeConversation : Conversation mRopeModel :=
  (session.openConversation mRopeModel (options 64 none [])).get mRopeModel_opens

/-- It saves. -/
theorem mRopeConversation_saves : mRopeConversation.saveState.isOk = true := by
  decide

/-- Its snapshot reopens. -/
theorem mRopeConversation_reopens : (session.openConversationFromState
    (mRopeConversation.saveState.get mRopeConversation_saves)).isOk = true := by
  decide

/-- So does a snapshot of before the guard. -/
theorem olderSnapshot_reopens :
    (session.openConversationFromState olderSnapshot).isOk = true := by
  decide

end Script

open Script in
/-- Fresh conversations, calls and snapshots shift nothing. -/
theorem mRopeModel_neverShifts :
    (session.run [.openConversation (options 64 none []), .request 0 (say "hi" 8), .snapshot 0] :
      List (Live mRopeModel)).length = 1 ∧
    ∀ before after,
      [.openConversation (options 64 none []), .request 0 (say "hi" 8), .snapshot 0] =
          before ++ after →
        ∀ live ∈ (session.run before : List (Live mRopeModel)), live.NeverShifts :=
  ⟨by decide, (position_shift_iff mRopeModel session (by decide) (by decide) _).mpr (by simp)⟩

open Script in
/-- Reopened from the snapshot it has just left, the conversation is defragmented; from
an older one, it evicts too. -/
theorem mRopeModel_reopened_shifts :
    (∃ live ∈ session.run [.openConversation (options 64 none []), .snapshot 0,
        .reopen (mRopeConversation.saveState.get mRopeConversation_saves)],
      ¬ live.NeverShifts ∧ live.params.defragThold = 1 / 10) ∧
    ∃ live ∈ session.run [.reopen olderSnapshot],
      ¬ live.NeverShifts ∧ live.conversation.overflow = .dropOldestTurns := by
  constructor
  · have hOk := Outcome.eq_ok_get _ mRopeConversation_reopens
    exact ⟨_, LlamaSession.mem_run_reopen [.openConversation _, .snapshot 0] hOk,
      LlamaSession.not_neverShifts_reopened _ _, rfl⟩
  · have hOk := Outcome.eq_ok_get _ olderSnapshot_reopens
    obtain ⟨-, hOverflow⟩ := LlamaSession.openConversationFromState_params hOk
    exact ⟨_, LlamaSession.mem_run_reopen [] hOk,
      LlamaSession.not_neverShifts_reopened _ _, hOverflow⟩

end Rampipe
