import Rampipe.Model.Session

/-!
# Rampipe — spans, roles and the well-formed conversation

The bookkeeping every result about a conversation rests on. Turns are spans that
follow each other without a gap (`Adjacent`) under alternating roles
(`Alternates`), and they end where the cache ends.

* `removeSpan_spec`  — inside a conversation's tokens, an eviction succeeds and
  takes exactly the span out of all four representations.
* `removeSpan_exchange`, `ensureRoomFor_case` — what dropping one exchange does,
  and what the whole room check can do, to a conversation whose books agree.
-/

namespace Rampipe

variable {L : Llama}

/-! ## Adjacent spans -/

/-- The spans follow each other from `a` to `b`. -/
def Adjacent : Int → List TurnBoundary → Int → Prop
  | a, [], b => a = b
  | a, turn :: turns, b => turn.startPos = a ∧ a ≤ turn.endPos ∧ Adjacent turn.endPos turns b

/-- Adjacent turns end behind where they begin. -/
theorem Adjacent.le {a b : Int} {turns : List TurnBoundary} (h : Adjacent a turns b) : a ≤ b := by
  induction turns generalizing a with
  | nil => exact le_of_eq h
  | cons turn turns ih => exact h.2.1.trans (ih h.2.2)

/-- A turn that begins where they end is adjacent to them. -/
theorem Adjacent.append {a b e : Int} {turns : List TurnBoundary} {role : Role}
    (h : Adjacent a turns b) (hLe : b ≤ e) : Adjacent a (turns ++ [⟨role, b, e⟩]) e := by
  induction turns generalizing a with
  | nil =>
    subst h
    exact ⟨rfl, hLe, rfl⟩
  | cons turn turns ih => exact ⟨h.1, h.2.1, ih h.2.2⟩

/-- Moved together they stay adjacent. -/
theorem Adjacent.shift {a b : Int} {turns : List TurnBoundary} (h : Adjacent a turns b) (d : Int) :
    Adjacent (a - d) (turns.map (·.shift d)) (b - d) := by
  induction turns generalizing a with
  | nil =>
    subst h
    rfl
  | cons turn turns ih =>
    obtain ⟨hStart, hLe, hRest⟩ := h
    refine ⟨by simp [hStart], ?_, ih hRest⟩
    simp only [TurnBoundary.shift_endPos]
    omega

/-- Spans that follow each other stay between the ends. -/
theorem Adjacent.mem_bounds {a b : Int} {turns : List TurnBoundary} (h : Adjacent a turns b) :
    ∀ turn ∈ turns, a ≤ turn.startPos ∧ turn.startPos ≤ turn.endPos ∧ turn.endPos ≤ b := by
  induction turns generalizing a with
  | nil => intro turn hTurn; cases hTurn
  | cons first turns ih =>
    obtain ⟨rfl, hLe, hRest⟩ := h
    intro turn hTurn
    rcases List.mem_cons.mp hTurn with rfl | hTurn
    · exact ⟨le_rfl, hLe, hRest.le⟩
    · obtain ⟨hStart, hSpan, hEnd⟩ := ih hRest turn hTurn
      exact ⟨by omega, hSpan, hEnd⟩

/-- The last span ends where the chain ends. -/
theorem Adjacent.getLast {a b : Int} {turns : List TurnBoundary} (h : Adjacent a turns b) :
    ∀ turn ∈ turns.getLast?, turn.endPos = b := by
  induction turns generalizing a with
  | nil => simp
  | cons turn turns ih =>
    cases turns with
    | nil =>
      intro last hLast
      simp only [List.getLast?_singleton, Option.mem_def, Option.some.injEq] at hLast
      rw [← hLast]
      exact h.2.2
    | cons turn' turns =>
      rw [List.getLast?_cons_cons]
      exact ih h.2.2

/-- Where the spans behind the first `k` begin: at the first one's start, or where the
last one of them ends. -/
theorem Adjacent.drop {a b : Int} {turns : List TurnBoundary} (h : Adjacent a turns b) (k : Nat)
    (hk : k ≤ turns.length) :
    ∃ m, a ≤ m ∧ Adjacent m (turns.drop k) b ∧ (k = 0 → m = a) ∧
      ∀ j turn, k = j + 1 → turns[j]? = some turn → m = turn.endPos := by
  induction turns generalizing a k with
  | nil =>
    obtain rfl : k = 0 := by simpa using hk
    exact ⟨a, le_rfl, h, fun _ => rfl, fun j turn hj => by omega⟩
  | cons first turns ih =>
    rcases k with _ | k
    · exact ⟨a, le_rfl, h, fun _ => rfl, fun j turn hj => by omega⟩
    obtain ⟨-, hLe, hRest⟩ := h
    rw [List.length_cons] at hk
    obtain ⟨m, hFrom, hAdj, hZero, hLast⟩ := ih hRest k (by omega)
    refine ⟨m, hLe.trans hFrom, hAdj, by omega, ?_⟩
    intro j turn hj hAt
    rcases j with _ | j
    · rw [List.getElem?_cons_zero, Option.some.injEq] at hAt
      rw [hZero (by omega), hAt]
    · rw [List.getElem?_cons_succ] at hAt
      exact hLast j turn (by omega) hAt

/-! ## Alternating roles -/

def Role.other : Role → Role
  | .user => .assistant
  | .assistant => .user

/-- The turns' roles alternate, starting with `role`. -/
def Alternates : Role → List TurnBoundary → Prop
  | _, [] => True
  | role, turn :: turns => turn.role = role ∧ Alternates role.other turns

/-- The role the next turn must have. -/
def expects : Role → List TurnBoundary → Role
  | role, [] => role
  | role, _ :: turns => expects role.other turns

/-- The turn that is expected keeps the roles alternating. -/
theorem Alternates.append {role : Role} {turns : List TurnBoundary} (h : Alternates role turns)
    {turn : TurnBoundary} (hRole : turn.role = expects role turns) :
    Alternates role (turns ++ [turn]) := by
  induction turns generalizing role with
  | nil => exact ⟨hRole, trivial⟩
  | cons t turns ih => exact ⟨h.1, ih h.2 hRole⟩

/-- Moving turns changes no role. -/
theorem Alternates.shift {role : Role} {turns : List TurnBoundary} (h : Alternates role turns)
    (d : Int) : Alternates role (turns.map (·.shift d)) := by
  induction turns generalizing role with
  | nil => trivial
  | cons turn turns ih => exact ⟨h.1, ih h.2⟩

/-- Behind a turn the other role is expected. -/
@[simp] theorem expects_append (role : Role) (turns : List TurnBoundary) (turn : TurnBoundary) :
    expects role (turns ++ [turn]) = (expects role turns).other := by
  induction turns generalizing role with
  | nil => rfl
  | cons t turns ih => exact ih role.other

/-- Moving turns changes nothing that is expected. -/
@[simp] theorem expects_map_shift (role : Role) (turns : List TurnBoundary) (d : Int) :
    expects role (turns.map (·.shift d)) = expects role turns := by
  induction turns generalizing role with
  | nil => rfl
  | cons t turns ih => exact ih role.other

/-- Roles go back and forth. -/
theorem expects_eq (role : Role) (turns : List TurnBoundary) :
    expects role turns = if turns.length % 2 = 0 then role else role.other := by
  induction turns generalizing role with
  | nil => rfl
  | cons t turns ih =>
    have hTwice : role.other.other = role := by cases role <;> rfl
    rw [expects, ih, hTwice, List.length_cons]
    split_ifs <;> first | rfl | omega

/-- A user turn comes next exactly when every exchange is complete. -/
theorem expects_user_iff (turns : List TurnBoundary) :
    expects .user turns = .user ↔ turns.length % 2 = 0 := by
  rw [expects_eq]
  split_ifs with hEven <;> simp [hEven, Role.other]

/-! ## Taking a span out -/

/-- A position inside the range is cast to itself. -/
theorem asU32_eq {x : Int} (h0 : 0 ≤ x) (h1 : x ≤ i32Max) : Conversation.asU32 x = x.toNat := by
  unfold i32Max at h1
  unfold Conversation.asU32
  rw [Int.emod_eq_of_lt h0 (by omega)]

/-- So is an index. -/
theorem asUsize_eq {x : Int} (h0 : 0 ≤ x) (h1 : x ≤ i32Max) :
    Conversation.asUsize x = x.toNat := by
  unfold i32Max at h1
  unfold Conversation.asUsize
  rw [Int.emod_eq_of_lt h0 (by omega)]

/-- The tokens without those in `[start, stop)`. -/
def cutTokens (tokens : List LlamaToken) (start stop : Int) : List LlamaToken :=
  tokens.take start.toNat ++ tokens.drop stop.toNat

/-- Cutting a span out shortens the tokens by it. -/
theorem length_cutTokens {tokens : List LlamaToken} {start stop : Int} (h0 : 0 ≤ start)
    (h1 : start ≤ stop) (h2 : stop ≤ tokens.length) :
    ((cutTokens tokens start stop).length : Int) = tokens.length - (stop - start) := by
  simp only [cutTokens, List.length_append, List.length_take, List.length_drop]
  omega

/-- Two cuts at one place are one cut. -/
theorem cutTokens_cutTokens {tokens : List LlamaToken} {start mid stop : Int} (h0 : 0 ≤ start)
    (h1 : start ≤ mid) (hMid : mid ≤ tokens.length) (h2 : start ≤ stop) :
    cutTokens (cutTokens tokens start mid) start stop =
      cutTokens tokens start (mid + (stop - start)) := by
  have hFront : (tokens.take start.toNat).length = start.toNat :=
    List.length_take_of_le (by omega)
  have hBack : (mid + (stop - start)).toNat = mid.toNat + (stop.toNat - start.toNat) := by omega
  unfold cutTokens
  rw [List.take_append_of_le_length hFront.ge, List.take_take, Nat.min_self, List.drop_append,
    List.drop_of_length_le (by omega), List.nil_append, hFront, List.drop_drop, hBack]

/-- Removing a span's cells and closing the gap leaves the layout of the other tokens. -/
theorem cells_cutTokens {tokens : List LlamaToken} {start stop : Int} (h0 : 0 ≤ start)
    (h1 : start ≤ stop) (h2 : stop ≤ tokens.length) :
    Cells.shiftFrom stop (-(stop - start)) (Cells.removeRange start stop (Cells.layout 0 tokens)) =
      Cells.layout 0 (cutTokens tokens start stop) := by
  have hShift := Cells.shiftFrom_removeRange_take_drop 0 tokens (i := start.toNat)
    (j := stop.toNat) (by omega) (by omega)
  rwa [zero_add, zero_add, Int.toNat_of_nonneg h0, Int.toNat_of_nonneg (h0.trans h1)] at hShift

namespace Conversation

/-- An eviction inside the tokens succeeds, and takes the span out of the cache,
the turns, the position and the tokens alike. -/
theorem removeSpan_spec (hL : L.Lawful) (c : Conversation L) {start stop : Int} (h0 : 0 ≤ start)
    (h1 : start ≤ stop) (h2 : stop ≤ c.tokens.length) (hSmall : (c.tokens.length : Int) ≤ i32Max) :
    ∃ ctx, c.removeSpan start stop = (.ok (), { c with
        ctx
        turns := c.turns.map (·.shift (stop - start))
        committedPos := c.committedPos - (stop - start)
        tokens := cutTokens c.tokens start stop }) ∧
      (L.cells c.ctx = Cells.layout 0 c.tokens →
        L.cells ctx = Cells.layout 0 (cutTokens c.tokens start stop)) := by
  -- no cast changes anything below `i32::MAX`
  have hStart : asU32 start = start.toNat := asU32_eq h0 (by omega)
  have hStop : asU32 stop = stop.toNat := asU32_eq (by omega) (by omega)
  have hDrain : drain (asUsize start) (asUsize stop) c.tokens =
      some (cutTokens c.tokens start stop) := by
    rw [asUsize_eq h0 (by omega), asUsize_eq (by omega) (by omega), drain,
      if_pos ⟨by omega, by omega⟩]
    rfl
  obtain ⟨removed, ctx1, hRm, hCells1⟩ := hL.kvCacheSeqRm_ok c.ctx start.toNat
    stop.toNat (by omega) (by omega)
  obtain ⟨ctx2, hAdd, hCells2⟩ := hL.kvCacheSeqAdd_ok ctx1 stop.toNat
    (-(stop - start)) (by omega)
  refine ⟨ctx2, ?_, fun hCells => ?_⟩
  · unfold removeSpan
    simp only [hStart, hStop, hRm, hAdd, hDrain]
  · have hStartNat : ((start.toNat : Nat) : Int) = start := by omega
    have hStopNat : ((stop.toNat : Nat) : Int) = stop := by omega
    -- removing and shifting back the cells is cutting the tokens
    rw [hCells2, hCells1, hCells, hStartNat, hStopNat, cells_cutTokens h0 h1 h2]

/-! ## Evicting one exchange -/

/-- The conversation once the span `[start, stop)` of its oldest exchange is out
and `rest` are the turns left. -/
def evicted (c : Conversation L) (ctx : L.Ctx) (start stop : Int) (rest : List TurnBoundary) :
    Conversation L :=
  { c with
    ctx
    turns := rest.map (·.shift (stop - start))
    committedPos := c.committedPos - (stop - start)
    tokens := cutTokens c.tokens start stop }

/-- Turns, position and tokens agree; the first span starts at `start`. -/
structure Bookkeeping (c : Conversation L) (start : Int) : Prop where
  start_nonneg : 0 ≤ start
  adjacent : Adjacent start c.turns c.committedPos
  tokens : c.committedPos = c.tokens.length
  prefix_nonneg : 0 ≤ c.protectedPrefix
  small : c.committedPos ≤ i32Max

/-- The position is right behind the cells of such a conversation. -/
theorem Bookkeeping.length_cells {c : Conversation L} {start : Int} (h : c.Bookkeeping start)
    (hCells : L.cells c.ctx = Cells.layout 0 c.tokens) :
    c.committedPos = (L.cells c.ctx).length := by
  rw [hCells, Cells.length_layout, h.tokens]

/-- The cache of such a conversation is no larger than an `i32` counts. -/
theorem Bookkeeping.fits {c : Conversation L} {start : Int} (h : c.Bookkeeping start)
    (hCells : L.cells c.ctx = Cells.layout 0 c.tokens) : L.Fits c.ctx := by
  have hSmall := h.small
  rw [h.tokens] at hSmall
  rwa [Llama.Fits, hCells, Cells.length_layout]

/-- Where the oldest exchange of a conversation stands. -/
theorem Bookkeeping.exchange {c : Conversation L} {start : Int} (h : c.Bookkeeping start)
    {user assistant : TurnBoundary} {rest : List TurnBoundary}
    (hTurns : c.turns = user :: assistant :: rest) :
    c.evictionStart user = max start c.protectedPrefix ∧ start ≤ assistant.endPos ∧
      Adjacent assistant.endPos rest c.committedPos ∧ assistant.endPos ≤ c.tokens.length := by
  have hAdj := h.adjacent
  rw [hTurns] at hAdj
  obtain ⟨hUser, hLe, hAssistant, hLe', hRest⟩ := hAdj
  have hEnd := hRest.le
  have hTokens := h.tokens
  exact ⟨by rw [evictionStart, hUser], by omega, hRest, by omega⟩

/-- **Dropping one exchange.** Of a conversation whose books agree, the oldest
exchange's tokens behind the opening go, from all four representations. -/
theorem removeSpan_exchange (hL : L.Lawful) {c : Conversation L} {start : Int}
    (h : c.Bookkeeping start) {user assistant : TurnBoundary} {rest : List TurnBoundary}
    (hTurns : c.turns = user :: assistant :: rest)
    (hOutside : c.evictionStart user < assistant.endPos) :
    ∃ ctx, removeSpan { c with turns := rest } (c.evictionStart user) assistant.endPos =
        (.ok (), c.evicted ctx (c.evictionStart user) assistant.endPos rest) ∧
      (L.cells c.ctx = Cells.layout 0 c.tokens →
        L.cells ctx = Cells.layout 0
          (cutTokens c.tokens (c.evictionStart user) assistant.endPos)) := by
  obtain ⟨hStart, -, -, hEnd⟩ := h.exchange hTurns
  have hPrefix := h.prefix_nonneg
  have hTokens := h.tokens
  have hSmall := h.small
  exact removeSpan_spec hL { c with turns := rest } (by omega) (by omega) hEnd (by dsimp only; omega)

/-- The books are right behind an eviction. -/
theorem Bookkeeping.evicted {c : Conversation L} {start : Int} (h : c.Bookkeeping start)
    {user assistant : TurnBoundary} {rest : List TurnBoundary}
    (hTurns : c.turns = user :: assistant :: rest)
    (hOutside : c.evictionStart user < assistant.endPos) (ctx : L.Ctx) :
    (c.evicted ctx (c.evictionStart user) assistant.endPos rest).Bookkeeping
      (c.evictionStart user) := by
  obtain ⟨hStart, -, hRest, hEnd⟩ := h.exchange hTurns
  have hPrefix := h.prefix_nonneg
  have hNonneg : 0 ≤ c.evictionStart user := by omega
  refine ⟨hNonneg, ?_, ?_, h.prefix_nonneg, ?_⟩
  · -- the rest moves down by as much as was cut
    have hShift := hRest.shift (assistant.endPos - c.evictionStart user)
    rwa [sub_sub_cancel] at hShift
  · simp only [Conversation.evicted, length_cutTokens hNonneg hOutside.le hEnd, h.tokens]
  · have hSmall := h.small
    simp only [Conversation.evicted]
    omega

/-! ## Making room -/

/-- A sum that wraps once has wrapped. -/
theorem i32_i32 (x : Int) : i32 (i32 x - 0) = i32 x := by
  unfold i32
  omega

/-- The loop leaves with the first run of exchanges that makes the check pass. -/
theorem ensureRoomFor_of_visits {c c1 : Conversation L} {needed freed : Int}
    (hPolicy : c.overflow = .dropOldestTurns)
    (hVisits : Loop.Visits (dropTurn needed) (c, 0) (c1, freed))
    (hFits : i32 (i32 (c1.committedPos + needed) - freed) < c1.nCtx) :
    c.ensureRoomFor needed = (.ok (), c1) := by
  have hLeave : dropTurn needed (c1, freed) = .leave (.ok (), c1) := by
    unfold dropTurn
    exact if_pos hFits
  unfold ensureRoomFor
  by_cases hFirst : i32 (c.committedPos + needed) < c.nCtx
  · -- with room at once, the loop's head is the only state there is
    have hHead : dropTurn needed (c, 0) = .leave (.ok (), c) := by
      unfold dropTurn
      exact if_pos (by rwa [i32_i32])
    rcases hVisits.cases_head with hSame | ⟨s, hAgain, -⟩
    · cases hSame
      rw [if_pos hFirst]
    · rw [hHead] at hAgain
      cases hAgain
  · rw [if_neg hFirst, hPolicy]
    obtain ⟨s, hSeen, hLeft⟩ := dropOldestTurnsFor_leaves c needed
    rcases (hSeen.of_leave hVisits hLeave).cases_head with hSame | ⟨s', hAgain, -⟩
    · rw [← hSame, hLeave] at hLeft
      exact (Loop.Turn.leave.inj hLeft).symm
    · rw [hLeft] at hAgain
      cases hAgain

/-- What the room check compares with `n_ctx` once `freed` positions are gone. -/
def roomSum (c : Conversation L) (needed freed : Int) : Int :=
  i32 (i32 (c.committedPos + needed) - freed)

/-- What the loop makes of a conversation before it leaves: oldest exchanges
evicted one after another, each while the loop's condition held. -/
inductive Trimmed (needed : Int) (c : Conversation L) : Conversation L → Prop
  | here : Trimmed needed c c
  | evict {c1 : Conversation L} {ctx : L.Ctx} {user assistant : TurnBoundary}
      {rest : List TurnBoundary} (hTrimmed : Trimmed needed c c1)
      (hFull : c.nCtx ≤ c1.roomSum needed (c.committedPos - c1.committedPos))
      (hTurns : c1.turns = user :: assistant :: rest)
      (hOutside : c1.evictionStart user < assistant.endPos)
      (hCells : L.cells c1.ctx = Cells.layout 0 c1.tokens →
        L.cells ctx = Cells.layout 0
          (cutTokens c1.tokens (c1.evictionStart user) assistant.endPos)) :
      Trimmed needed c (c1.evicted ctx (c1.evictionStart user) assistant.endPos rest)

/-- Trimming changes nothing about the context. -/
theorem Trimmed.nCtx {needed : Int} {c c1 : Conversation L} (h : Trimmed needed c c1) :
    c1.nCtx = c.nCtx := by
  induction h with
  | here => rfl
  | evict _ _ _ _ _ ih => exact ih

/-- And nothing about what is protected. -/
theorem Trimmed.protectedPrefix {needed : Int} {c c1 : Conversation L} (h : Trimmed needed c c1) :
    c1.protectedPrefix = c.protectedPrefix := by
  induction h with
  | here => rfl
  | evict _ _ _ _ _ ih => exact ih

/-- The books stay right. -/
theorem Trimmed.bookkeeping {needed start : Int} {c c1 : Conversation L}
    (h : Trimmed needed c c1) (hBooks : c.Bookkeeping start) : ∃ start1, c1.Bookkeeping start1 := by
  induction h with
  | here => exact ⟨start, hBooks⟩
  | evict _ _ hTurns hOutside _ ih =>
    obtain ⟨start1, hBooks1⟩ := ih
    exact ⟨_, hBooks1.evicted hTurns hOutside _⟩

/-- The ways through the room check of a conversation whose books agree. -/
inductive RoomCase (c : Conversation L) (needed : Int) : Step L Unit → Prop
  | room {c1 : Conversation L} (hTrimmed : Trimmed needed c c1)
      (hFits : c1.roomSum needed (c.committedPos - c1.committedPos) < c.nCtx) :
      RoomCase c needed (.ok (), c1)
  | full (hFull : c.nCtx ≤ c.roomSum needed 0) (hPolicy : c.overflow = .fail) :
      RoomCase c needed (.err (.conversationContextFull c.committedPos needed c.nCtx), c)
  | tooFew {c1 : Conversation L} (hTrimmed : Trimmed needed c c1)
      (hFull : c.nCtx ≤ c1.roomSum needed (c.committedPos - c1.committedPos))
      (hFew : c1.turns.length < 2) : RoomCase c needed (.err .conversationTooLargeToTrim, c1)
  | inside {c1 : Conversation L} {user assistant : TurnBoundary} {rest : List TurnBoundary}
      (hTrimmed : Trimmed needed c c1)
      (hFull : c.nCtx ≤ c1.roomSum needed (c.committedPos - c1.committedPos))
      (hTurns : c1.turns = user :: assistant :: rest)
      (hInside : assistant.endPos ≤ c1.evictionStart user) :
      RoomCase c needed (.err .conversationTooLargeToTrim, { c1 with turns := rest })

/-- What the drop loop's head sees of a conversation whose books agree. -/
theorem visits_trimmed (hL : L.Lawful) {c : Conversation L} {needed start : Int}
    (hBooks : c.Bookkeeping start) {s : Conversation L × Int}
    (h : Loop.Visits (dropTurn needed) (c, 0) s) :
    Trimmed needed c s.1 ∧ s.2 = c.committedPos - s.1.committedPos := by
  refine h.induction (fun s => Trimmed needed c s.1 ∧ s.2 = c.committedPos - s.1.committedPos)
    ⟨.here, by simp⟩ ?_
  rintro ⟨c1, freed⟩ s' ⟨hTrimmed, hFreed⟩ hTurn
  simp only at hTrimmed hFreed
  have hCase := dropTurn_case needed c1 freed
  rw [hTurn] at hCase
  cases hCase with
  | dropped hFull hTurns hOutside hRemove =>
    -- an eviction of a conversation whose books agree goes through
    obtain ⟨start1, hBooks1⟩ := hTrimmed.bookkeeping hBooks
    obtain ⟨ctx, hRemove', hCells⟩ := removeSpan_exchange hL hBooks1 hTurns hOutside
    rw [hRemove] at hRemove'
    cases hRemove'
    refine ⟨.evict hTrimmed ?_ hTurns hOutside hCells, ?_⟩
    · rw [roomSum, ← hFreed, ← hTrimmed.nCtx]
      exact hFull
    · simp only [Conversation.evicted]
      omega

/-- The room check does one of the things that `RoomCase` lists. -/
theorem ensureRoomFor_case (hL : L.Lawful) {c : Conversation L} {start : Int}
    (hBooks : c.Bookkeeping start) (needed : Int) :
    RoomCase c needed (c.ensureRoomFor needed) := by
  have hSum : c.roomSum needed 0 = i32 (c.committedPos + needed) := i32_i32 _
  unfold ensureRoomFor
  split
  · rename_i hFits
    exact .room .here (by rwa [sub_self, hSum])
  rename_i hFull
  split
  · rename_i hPolicy
    exact .full (by omega) hPolicy
  obtain ⟨⟨c1, freed⟩, hVisits, hLeave⟩ := dropOldestTurnsFor_leaves c needed
  -- the loop leaves from a trimmed conversation, with what that freed as its count
  obtain ⟨hTrimmed, hFreed⟩ := visits_trimmed hL hBooks hVisits
  simp only at hTrimmed hFreed
  have hCase := dropTurn_case needed c1 freed
  have hN := hTrimmed.nCtx
  rw [hLeave] at hCase
  generalize c.dropOldestTurnsFor needed = result at hCase
  subst hFreed
  cases hCase with
  | fits hFits => exact .room hTrimmed (by rwa [roomSum, ← hN])
  | tooFew hFull hFew => exact .tooFew hTrimmed (by rwa [roomSum, ← hN]) hFew
  | inside hFull hTurns hInside => exact .inside hTrimmed (by rwa [roomSum, ← hN]) hTurns hInside
  | stuck hFull hTurns hOutside hRemove hStuck =>
    obtain ⟨start1, hBooks1⟩ := hTrimmed.bookkeeping hBooks
    -- `remove_span` does not fail here, so the loop is never stuck
    obtain ⟨ctx, hRemove', -⟩ := removeSpan_exchange hL hBooks1 hTurns hOutside
    rw [hRemove] at hRemove'
    cases hRemove'
    exact absurd rfl hStuck

end Conversation

end Rampipe
