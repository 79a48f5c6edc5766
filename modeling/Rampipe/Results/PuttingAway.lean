import Rampipe.Results.Hibernation
import Rampipe.Results.Twins

/-!
# Rampipe — a conversation that is put away

A host may save a conversation whenever it needs the room and reopen it for the next call.
The calls do not notice, however often that is done, as long as every token committed is in
the file and nothing is lost that would be missed: the start of a conversation, which a
turn makes unnecessary until turns are evicted.

* `reopened_movedTo`          — what a reopened conversation has of the one that was saved.
* `restored_alike`         — its context goes on as the saved one would have.
* `hibernations_unnoticed` — the replies of a history are those of its calls alone.
-/

namespace Rampipe

open Machine

variable {L : Llama}

def Event.isRequest : Event → Bool
  | .request _ => true
  | .hibernate _ => false

namespace Conversation

variable {c c' : Conversation L}

/-- What the calls of a history return. -/
def replies (c : Conversation L) : List Event → List (Outcome GenerationResult)
  | [] => []
  | .request request :: events => (c.call request).1 :: (c.after request).replies events
  | .hibernate session :: events => (c.step (.hibernate session)).replies events

/-- No call of the history evicts anything. -/
def Spared (c : Conversation L) : List Event → Prop
  | [] => True
  | .request request :: events => c.Spares request ∧ (c.after request).Spared events
  | .hibernate session :: events => (c.step (.hibernate session)).Spared events

/-- Nothing to open with, and nothing that is protected. -/
def Start.blank : Start := ⟨[], none, 0⟩

/-- Whenever the conversation is put away, its tokens are as many as its position says, and
it has no start to lose, or has no use for one: there is a turn, and there always will be. -/
def Undisturbed (c : Conversation L) : List Event → Prop
  | [] => True
  | .request request :: events => (c.after request).Undisturbed events
  | .hibernate session :: events =>
    (c.tokens.length : Int) = c.committedPos ∧
      (c.start = .blank ∨ c.turns ≠ [] ∧ (c.step (.hibernate session)).Spared events) ∧
      (c.step (.hibernate session)).Undisturbed events

/-! ## The room a context was made with -/

/-- The context was made with room for as many tokens as the conversation counts on. -/
def Housed (c : Conversation L) : Prop := ∃ n, L.Born n c.ctx ∧ c.nCtx = i32 n

/-- The contexts of twins are related. -/
theorem Twin.ctx {R : L.Ctx → L.Ctx → Prop} {evicts : Prop} (h : Twin R evicts c c') :
    R c.ctx c'.ctx := by
  obtain ⟨_, _, hRel, -⟩ := h
  exact hRel

/-- A call asks of its context what can be asked of it. -/
theorem Housed.request (h : c.Housed) (request : Request) : (c.after request).Housed := by
  obtain ⟨n, hBorn, hSize⟩ := h
  -- its own twin, over contexts that were made with that room
  have hR : Bisimulation L.perform fun a b => a = b ∧ L.Born n b :=
    bisimulation_eq.and fun op _ hBorn => hBorn.performed op
  have hTwin : Twin (fun a b => a = b ∧ L.Born n b) True (c.after request) (c.after request) :=
    (call_twin hR (.refl ⟨rfl, hBorn⟩) fun hNo => absurd trivial hNo).snd
  have hCtx : (c.after request).nCtx = c.nCtx := congrArg Setup.nCtx (setup_after c request)
  exact ⟨n, hTwin.ctx.2, hCtx.trans hSize⟩

/-- A reopened conversation is bound to the files it came from. -/
theorem reopened_housed {session : LlamaSession} {snapshot : Snapshot L}
    (h : session.openConversationFromState snapshot = .ok c) : c.Housed := by
  obtain ⟨-, -, -, -, -, -, -, -, -, -, ⟨fresh, params, hFresh, -, hSize, hLoad⟩, -⟩ :=
    openConversationFromState_ok h
  exact ⟨L.nCtx fresh, .loaded (.new hFresh rfl) hLoad, hSize⟩

/-- No event changes what a conversation is bound to. -/
theorem Housed.step (h : c.Housed) (event : Event) : (c.step event).Housed := by
  cases event with
  | request request => exact h.request request
  | hibernate session =>
    rw [Conversation.step]
    split
    · split
      · rename_i hOpen
        exact reopened_housed hOpen
      · exact h
    · exact h

/-- Every conversation that was ever opened is. -/
theorem reachable_housed (h : c.Reachable) : c.Housed := by
  obtain ⟨c0, ⟨session, options, hOpen⟩, hRun⟩ := h
  obtain ⟨-, -, -, -, ⟨params, hNew, hSize⟩, -⟩ := openConversation_ok hOpen
  exact hRun.induction Housed ⟨_, .new hNew rfl, hSize⟩ fun _ event h _ => h.step event

/-! ## One hibernation -/

/-- A reopened conversation is the saved one over another context and without a start. -/
theorem reopened_movedTo (hL : L.Lawful) (hFounded : Founded L c.setup) (hHoused : c.Housed)
    (hTokens : (c.tokens.length : Int) = c.committedPos) {session : LlamaSession}
    {snapshot : Snapshot L} (hSave : c.saveState = .ok snapshot)
    (hOpen : session.openConversationFromState snapshot = .ok c') :
    c' = c.movedTo c'.ctx .blank ∧ ∃ n file params fresh max, L.Born n c.ctx ∧
      L.stateSaveFile c.ctx c.tokens = .ok file ∧ L.newContext params = .ok fresh ∧
      L.nCtx fresh = n ∧ L.stateLoadFile fresh file max = (.ok c'.tokens, c'.ctx) := by
  obtain ⟨hFile, hSidecar⟩ := saveState_ok hSave
  obtain ⟨hModel, hPath, hTurns, hOverflow, hToolList, hConfigured, hCommitted, hOpening, hPrefix,
    hSystem, ⟨fresh, params, hFresh, hAsked, hSize, hLoad⟩, templateText, hTemplate, opening,
    systemForFirstTurn, hTools⟩ := openConversationFromState_ok hOpen
  obtain ⟨templateText0, hTemplate0, system0, opening0, systemForFirstTurn0, hTools0⟩ :=
    hFounded.derived
  obtain ⟨n, hBorn, hSized⟩ := hHoused
  obtain ⟨params0, first, hFirst, hFirstSize⟩ := hBorn.sized
  obtain ⟨hLoaded, -⟩ := hL.stateLoadFile_ok hFile hLoad
  rw [hSidecar] at hModel hTurns hOverflow hToolList hConfigured hAsked
  dsimp only at hModel hTurns hOverflow hToolList hConfigured hAsked
  simp only [setup] at hTemplate0 hTools0
  -- the template and the tool surface are derived from the same texts
  rw [hTemplate0] at hTemplate
  obtain ⟨hText, hSame⟩ := Prod.mk.inj (Outcome.ok.inj hTemplate)
  obtain ⟨hFormat, hSpans, hCapabilities⟩ :=
    prepareTools_system L templateText c'.template none system0 c'.tools c'.configuredToolFormat
  rw [hTools] at hFormat hSpans hCapabilities
  rw [hToolList, hConfigured, ← hSame, ← hText, hTools0] at hFormat hSpans hCapabilities
  -- the size asked for is the size the first context reported
  have hAgain : L.nCtx fresh = n := by
    have hPos := hL.nCtx_pos first
    have hBound := hL.nCtx_lt first
    rw [hFirstSize] at hPos hBound
    have hParams : params.nCtx = some (L.nCtx first) := by
      rw [hAsked, hSized, asU32_i32 hBound, nonZeroU32, if_neg (by omega), hFirstSize]
    rw [hL.nCtx_again hFirst hParams hFresh, hFirstSize]
  refine ⟨?_, n, snapshot.state, params, fresh, _, hBorn, hFile, hFresh, hAgain, hLoad⟩
  have hReported : c'.nCtx = c.nCtx := by rw [hSize, hAgain, hSized]
  have hCount : c'.committedPos = c.committedPos := by rw [hCommitted, hLoaded, hTokens]
  have hHere : c'.handlePath = c.handlePath := hPath.trans hModel.symm
  unfold movedTo Start.blank
  rw [Conversation.mk.injEq]
  exact ⟨rfl, hHere, hSame.symm, hCount, hReported, hTurns, hOverflow, hLoaded, hOpening, hPrefix,
    hSystem, hFormat, hSpans, hCapabilities, hToolList, hConfigured⟩

/-- What the reopened conversation's context is asked it answers as the saved one's would. -/
theorem restored_alike (hL : L.Lawful) (hRestores : L.Restores) (hFounded : Founded L c.setup)
    (hHoused : c.Housed) (hTokens : (c.tokens.length : Int) = c.committedPos)
    {session : LlamaSession} {snapshot : Snapshot L} (hSave : c.saveState = .ok snapshot)
    (hOpen : session.openConversationFromState snapshot = .ok c') :
    Alike L.perform c.ctx c'.ctx := by
  obtain ⟨-, n, file, params, fresh, max, hBorn, hFile, hFresh, hSize, hLoad⟩ :=
    reopened_movedTo hL hFounded hHoused hTokens hSave hOpen
  exact hRestores.alike hBorn hFile hFresh hSize hLoad

/-! ## Whole histories -/

/-- A hibernation that fails leaves the conversation as it is. -/
theorem hibernate_case (c : Conversation L) (session : LlamaSession) :
    c.step (.hibernate session) = c ∨ ∃ snapshot c1, c.saveState = .ok snapshot ∧
      session.openConversationFromState snapshot = .ok c1 ∧ c.step (.hibernate session) = c1 := by
  rw [Conversation.step]
  split
  · rename_i snapshot hSave
    split
    · rename_i c1 hOpen
      exact .inr ⟨snapshot, c1, hSave, hOpen, rfl⟩
    · exact .inl rfl
  · exact .inl rfl

/-- What is spared of one twin is spared of the other. -/
theorem Twin.spares {R : L.Ctx → L.Ctx → Prop} {evicts : Prop} (h : Twin R evicts c c')
    {request : Request} (hSpares : c'.Spares request) : c.Spares request := by
  have hPrepare := prepare_twin h request
  intro turn hTurn
  rw [hTurn] at hPrepare
  generalize hTurn' : c'.prepare request = there at hPrepare
  cases hPrepare with
  | prepared _ hTwin =>
    have hRoom := hSpares _ hTurn'
    obtain ⟨_, _, -, -⟩ := hTwin
    exact hRoom

/-- The twin of a conversation stays one while it is put away and taken up again. -/
theorem replies_twin (hL : L.Lawful) (hRestores : L.Restores) {evicts : Prop} {events : List Event}
    (h : Twin (Alike L.perform) evicts c c') (hFounded : Founded L c'.setup) (hHoused : c'.Housed)
    (hUndisturbed : c'.Undisturbed events) (hSpared : ¬ evicts → c'.Spared events) :
    c'.replies events = c.replies (events.filter Event.isRequest) := by
  -- on the history; the twin is the one that is put away
  induction events generalizing c c' evicts with
  | nil => rfl
  | cons event events ih =>
    cases event with
    | request request =>
      have hCall := call_twin bisimulation_alike h fun hNo => h.spares (hSpared hNo).1
      have hRest := ih hCall.snd (hFounded.step (.request request)) (hHoused.request request)
        hUndisturbed fun hNo => (hSpared hNo).2
      have hReply : (c.call request).1 = (c'.call request).1 := by
        generalize c.call request = here at hCall
        generalize c'.call request = there at hCall
        cases hCall
        rfl
      show (c'.call request).1 :: (c'.call request).2.replies events =
        (c.call request).1 :: (c.call request).2.replies (events.filter Event.isRequest)
      rw [hReply, hRest]
    | hibernate session =>
      obtain ⟨hTokens, hStart, hLater⟩ := hUndisturbed
      have hNext := hFounded.step (.hibernate session)
      have hRoom := hHoused.step (.hibernate session)
      show (c'.step (.hibernate session)).replies events =
        c.replies (events.filter Event.isRequest)
      rcases c'.hibernate_case session with hSame | ⟨snapshot, c1, hSave, hOpen, hStep⟩
      · -- it could not be put away, and goes on as it was
        rw [hSame] at hLater ⊢
        exact ih h hFounded hHoused hLater fun hNo => hSame ▸ hSpared hNo
      have hOver := (reopened_movedTo hL hFounded hHoused hTokens hSave hOpen).1
      have hRel := h.ctx.trans (restored_alike hL hRestores hFounded hHoused hTokens hSave hOpen)
      rw [hStep] at hStart hLater hNext hRoom ⊢
      have hAgain : c1 = c.movedTo c1.ctx .blank := by
        obtain ⟨_, _, -, -⟩ := h
        exact hOver
      rcases hStart with hBlank | ⟨hTurns, hSpares⟩
      · -- there was no start to lose
        have hTwin : Twin (Alike L.perform) evicts c c1 := by
          obtain ⟨_, _, -, hBegun⟩ := h
          rw [hAgain]
          exact .intro _ _ hRel (hBegun.imp_left fun hSame => hBlank.symm.trans hSame)
        exact ih hTwin hNext hRoom hLater fun hNo => hStep ▸ hSpared hNo
      · -- the start is lost, and not missed any more
        have hTwin : Twin (Alike L.perform) False c c1 := by
          have hHas : c.turns ≠ [] := by
            obtain ⟨_, _, -, -⟩ := h
            exact hTurns
          rw [hAgain]
          exact .intro _ _ hRel (.inr ⟨id, hHas⟩)
        exact ih hTwin hNext hRoom hLater fun _ => hSpares

/-- **Hibernations go unnoticed.** A history of calls, with the conversation saved and reopened
in between as often as its host likes, returns what the calls alone would have returned. -/
theorem hibernations_unnoticed (hL : L.Lawful) (hRestores : L.Restores) {c : Conversation L}
    (hReachable : c.Reachable) (events : List Event) (hUndisturbed : c.Undisturbed events) :
    c.replies events = c.replies (events.filter Event.isRequest) := by
  have hSelf : Twin (Alike L.perform) True c c := .refl (.refl c.ctx)
  exact replies_twin hL hRestores hSelf (reachable_founded hReachable) (reachable_housed hReachable)
    hUndisturbed fun hNo => absurd trivial hNo

/-! ### Put away twice -/

/-- A request whose turn has room evicts nothing. -/
theorem spares_of_prepare {request : Request} {turn : PreparedTurn L}
    (hTurn : c.prepare request = .ok turn)
    (hRoom : i32 (turn.conversation.committedPos + turn.needed) < turn.conversation.nCtx) :
    c.Spares request := by
  intro turn' hTurn'
  cases hTurn.symm.trans hTurn'
  exact .inr hRoom

/-- A model that says one letter, or nothing. -/
def Script.terse : Script :=
  ⟨fun cells => if cells % 2 = 0 then Script.eog else Script.tokenOf 'a', fun _ => false⟩

/-- A conversation with it in a context of 128 tokens, just opened. -/
def terse : Conversation (Llama.scripted Script.terse) :=
  (Script.session.openConversation _ (Script.options 128 none [])).get rfl

/-- The terse conversation was opened. -/
theorem terse_opened : terse.Opened := ⟨_, _, Outcome.eq_ok_get _ _⟩

/-- The same after one exchange. -/
def acquainted : Conversation (Llama.scripted Script.terse) := terse.after (Script.say "hi" 4)

/-- And it was talked to. -/
theorem acquainted_reachable : acquainted.Reachable :=
  terse_opened.reachable_after (.inl ⟨_, Outcome.eq_ok_get _ (by decide)⟩)

/-- Away before the next call, and before the one after it. -/
def twiceAway : List Event :=
  [.hibernate Script.session, .request (Script.say "x" 4), .hibernate Script.session,
    .request (Script.say "y" 4)]

set_option maxRecDepth 4096 in
/-- Nothing of it is evicted by what comes behind the first hibernation. -/
theorem acquainted_spared :
    (acquainted.step (.hibernate Script.session)).Spared (twiceAway.drop 1) :=
  ⟨spares_of_prepare rfl (by decide), spares_of_prepare rfl (by decide), trivial⟩

set_option maxRecDepth 4096 in
/-- So nothing disturbs the script. -/
theorem acquainted_undisturbed : acquainted.Undisturbed twiceAway :=
  ⟨by decide, .inr ⟨by decide, acquainted_spared⟩, by decide, .inl (by decide), trivial⟩

/-- Both calls are answered as if the conversation had stayed. -/
theorem acquainted_unnoticed :
    acquainted.replies twiceAway = acquainted.replies (twiceAway.filter Event.isRequest) :=
  hibernations_unnoticed (Llama.scripted_lawful _) (Llama.scripted_restores _) acquainted_reachable
    twiceAway acquainted_undisturbed

end Conversation

end Rampipe
