import Rampipe.Results.Probes

/-!
# Rampipe — reading back what was written

The part of `parse_tool_calls` the three families share. A reply is prose with
calls in it; `scanBodies` hands out the calls' bodies exactly when each opener
and each closer is completed where the call put it (`scanBodies_reply`). The
closer may be written in full or in one of the shorter forms `close_candidates`
accepts; `findClose_append` says which one is read.
-/

namespace Rampipe

open ListSearch Text

/-! ## Closers -/

section Closers

variable {callClose closer body rest : Text}

/-- A form that ends a tag is a proper beginning of the closer. -/
theorem tagEndingPrefixes_spec (h : closer ∈ tagEndingPrefixes callClose) :
    closer <+: callClose ∧ closer ≠ callClose ∧ closer ≠ [] := by
  rw [tagEndingPrefixes, List.mem_filter, List.mem_map] at h
  obtain ⟨⟨i, hi, rfl⟩, hNe⟩ := h
  rw [List.mem_filter, List.mem_reverse, List.mem_range] at hi
  refine ⟨List.take_prefix _ _, by simpa using hNe, ?_⟩
  intro hNil
  rcases List.take_eq_nil_iff.mp hNil with h0 | hClose
  · omega
  · rw [hClose, List.length_nil] at hi
    omega

/-- Every accepted form is a beginning of the closer. -/
theorem closeCandidates_spec (h : closer ∈ closeCandidates callClose) :
    closer <+: callClose ∧ closer ≠ [] := by
  rw [closeCandidates, List.mem_append] at h
  rcases h with h | h
  · split at h
    · cases h
    · rename_i hNe
      rw [List.mem_singleton.mp h]
      exact ⟨List.prefix_refl _, by simpa using hNe⟩
  · obtain ⟨hPre, -, hNe⟩ := tagEndingPrefixes_spec h
    exact ⟨hPre, hNe⟩

/-- A form of the closer the parsers accept: the whole of it, or a prefix that
ends a tag. -/
def ClosesAs (callClose closer : Text) : Prop :=
  closer = callClose ∨ closer <+: callClose ∧ closer.getLast? = some '>'

instance (callClose closer : Text) : Decidable (ClosesAs callClose closer) := by
  unfold ClosesAs
  infer_instance

/-- What closes as the closer does is accepted. -/
theorem mem_closeCandidates_of_closesAs (hNe : callClose ≠ []) (h : ClosesAs callClose closer) :
    closer ∈ closeCandidates callClose := by
  rw [closeCandidates, List.mem_append, if_neg (by simp [hNe])]
  by_cases hFull : closer = callClose
  · exact Or.inl (List.mem_singleton.mpr hFull)
  · obtain ⟨⟨rest, rfl⟩, hLast⟩ := h.resolve_left hFull
    -- the tag ends at the prefix's last character, which is where the cut is made
    obtain ⟨front, rfl⟩ : ∃ front, closer = front ++ ['>'] :=
      ⟨closer.dropLast, (List.dropLast_append_getLast? '>' hLast).symm⟩
    refine Or.inr (List.mem_filter.mpr ⟨List.mem_map.mpr ⟨front.length, ?_, ?_⟩, ?_⟩)
    · rw [List.mem_filter, List.mem_reverse, List.mem_range]
      constructor
      · simp only [List.length_append, List.length_singleton]
        omega
      · simp
    · have hLen : (front ++ ['>']).length = front.length + 1 := by simp
      rw [← hLen, List.take_left]
    · simpa using hFull

/-- And nothing else is. -/
theorem closesAs_of_mem (h : closer ∈ closeCandidates callClose) : ClosesAs callClose closer := by
  rw [closeCandidates, List.mem_append] at h
  rcases h with h | h
  · split at h
    · cases h
    · exact Or.inl (List.mem_singleton.mp h)
  · rw [tagEndingPrefixes, List.mem_filter, List.mem_map] at h
    obtain ⟨⟨i, hi, rfl⟩, -⟩ := h
    rw [List.mem_filter, List.mem_reverse, List.mem_range, beq_iff_eq] at hi
    refine Or.inr ⟨List.take_prefix _ _, ?_⟩
    rw [List.getLast?_eq_getElem?, List.length_take, Nat.min_eq_left (by omega),
      List.getElem?_take, if_pos (by omega), Nat.add_sub_cancel]
    exact hi.2

/-- Longest first. -/
theorem closeCandidates_pairwise (callClose : Text) :
    (closeCandidates callClose).Pairwise fun a b => b.length < a.length := by
  have hTags : (tagEndingPrefixes callClose).Pairwise fun a b => b.length < a.length := by
    refine List.Pairwise.filter _ (List.pairwise_map.mpr (List.Pairwise.filter _ ?_))
    -- the cuts run from the closer's end to its start
    have hCuts : (List.range callClose.length).reverse.Pairwise fun i j => j < i :=
      List.pairwise_reverse.mpr List.pairwise_lt_range
    refine hCuts.imp_of_mem ?_
    intro i j hi hj hJi
    rw [List.mem_reverse, List.mem_range] at hi hj
    rw [List.length_take, List.length_take]
    omega
  rw [closeCandidates]
  split
  · exact hTags
  · refine List.pairwise_cons.mpr ⟨?_, hTags⟩
    intro short hShort
    obtain ⟨hPre, hNe, -⟩ := tagEndingPrefixes_spec hShort
    exact Nat.lt_of_le_of_ne hPre.length_le (fun hLen => hNe (hPre.eq_of_length hLen))

/-- No closer is found where none of the forms occurs. -/
theorem findClose_eq_none_iff {text : Text} :
    findClose text callClose = none ↔ ∀ closer ∈ closeCandidates callClose, ¬ closer <:+: text := by
  rw [findClose, List.findSome?_eq_none_iff]
  refine forall₂_congr fun closer _ => ?_
  rw [Option.map_eq_none_iff, find_eq_none_iff]

/-- The longest accepted form that occurs anywhere is the one that is read. -/
theorem findClose_eq_some_iff {text : Text} {at_ len : Nat} :
    findClose text callClose = some (at_, len) ↔
      ∃ closer ∈ closeCandidates callClose, closer.length = len ∧ find closer text = some at_ ∧
        ∀ longer ∈ closeCandidates callClose, len < longer.length → ¬ longer <:+: text := by
  have hPair := closeCandidates_pairwise callClose
  rw [findClose, List.findSome?_eq_some_iff]
  constructor
  · rintro ⟨front, closer, back, hSplit, hFound, hFront⟩
    obtain ⟨i, hFind, hEq⟩ := Option.map_eq_some_iff.mp hFound
    obtain ⟨rfl, rfl⟩ := Prod.mk.injEq .. ▸ hEq
    rw [hSplit] at hPair ⊢
    refine ⟨closer, by simp, rfl, hFind, ?_⟩
    intro longer hMem hLen
    -- a longer form is tried earlier, and was not found
    have hEarlier : longer ∈ front := by
      rcases List.mem_append.mp hMem with h | h
      · exact h
      · rcases List.mem_cons.mp h with rfl | h
        · exact absurd hLen (Nat.lt_irrefl _)
        · have := (List.pairwise_cons.mp (List.pairwise_append.mp hPair).2.1).1 longer h
          omega
    have hNone := hFront longer hEarlier
    rwa [Option.map_eq_none_iff, find_eq_none_iff] at hNone
  · rintro ⟨closer, hMem, rfl, hFind, hLonger⟩
    obtain ⟨front, back, hSplit⟩ := List.append_of_mem hMem
    rw [hSplit] at hPair
    refine ⟨front, closer, back, hSplit, by rw [hFind]; rfl, ?_⟩
    intro longer hFront
    have hLen : closer.length < longer.length :=
      (List.pairwise_append.mp hPair).2.2 longer hFront closer List.mem_cons_self
    rw [Option.map_eq_none_iff, find_eq_none_iff]
    exact hLonger longer (hSplit ▸ List.mem_append_left _ hFront) hLen

/-- Of two accepted forms, the shorter one begins the longer one. -/
theorem closeCandidates_prefix {short long : Text} (hShort : short ∈ closeCandidates callClose)
    (hLong : long ∈ closeCandidates callClose) (hLen : short.length ≤ long.length) :
    short <+: long :=
  List.prefix_of_prefix_length_le (closeCandidates_spec hShort).1 (closeCandidates_spec hLong).1 hLen

/-- The shortest accepted form: the closer up to the end of its first tag, or the whole
of it when it ends none. -/
def shortestCloser (callClose : Text) : Text :=
  if '>' ∈ callClose then callClose.takeWhile (· != '>') ++ ['>'] else callClose

/-- A text that ends a tag goes past where the first one ends. -/
theorem takeWhile_ne_isPrefix (c : Char) (front rest : Text) :
    (front ++ c :: rest).takeWhile (· != c) <+: front := by
  induction front with
  | nil => simp
  | cons d front ih =>
    by_cases hd : d = c
    · simp [hd]
    · rw [List.cons_append, List.takeWhile_cons_of_pos (by simpa using hd)]
      exact List.cons_prefix_cons.mpr ⟨rfl, ih⟩

/-- A text goes up to its first `c` and past it. -/
theorem takeWhile_ne_append (c : Char) {s : Text} (h : c ∈ s) :
    s.takeWhile (· != c) ++ [c] <+: s := by
  induction s with
  | nil => cases h
  | cons d s ih =>
    by_cases hd : d = c
    · simp [hd]
    · rw [List.takeWhile_cons_of_pos (by simpa using hd)]
      have hRest : c ∈ s := (List.mem_cons.mp h).resolve_left fun hEq => hd hEq.symm
      exact List.cons_prefix_cons.mpr ⟨rfl, ih hRest⟩

/-- The shortest form begins the closer. -/
theorem shortestCloser_isPrefix (callClose : Text) : shortestCloser callClose <+: callClose := by
  unfold shortestCloser
  split
  · rename_i hMem
    exact takeWhile_ne_append '>' hMem
  · exact List.prefix_refl _

/-- It is one of the accepted forms. -/
theorem shortestCloser_mem (hNe : callClose ≠ []) :
    shortestCloser callClose ∈ closeCandidates callClose := by
  refine mem_closeCandidates_of_closesAs hNe ?_
  have hPre := shortestCloser_isPrefix callClose
  unfold shortestCloser at hPre ⊢
  split
  · rename_i hMem
    rw [if_pos hMem] at hPre
    exact Or.inr ⟨hPre, by simp⟩
  · exact Or.inl rfl

/-- Every accepted form begins with the shortest one. -/
theorem shortestCloser_isPrefix_closer (h : closer ∈ closeCandidates callClose) :
    shortestCloser callClose <+: closer := by
  rcases closesAs_of_mem h with rfl | ⟨hPre, hLast⟩
  · exact shortestCloser_isPrefix _
  · obtain ⟨front, rfl⟩ : ∃ front, closer = front ++ ['>'] :=
      ⟨closer.dropLast, (List.dropLast_append_getLast? '>' hLast).symm⟩
    obtain ⟨rest, rfl⟩ := hPre
    have hMem : '>' ∈ front ++ ['>'] ++ rest := by simp
    rw [shortestCloser, if_pos hMem]
    refine List.prefix_of_prefix_length_le (takeWhile_ne_append '>' hMem)
      (List.prefix_append _ _) ?_
    have hLen := (takeWhile_ne_isPrefix '>' front rest).length_le
    simp only [List.append_assoc, List.singleton_append, List.length_append,
      List.length_singleton] at hLen ⊢
    omega

/-- And it is not empty. -/
theorem shortestCloser_ne_nil (hNe : callClose ≠ []) : shortestCloser callClose ≠ [] :=
  (closeCandidates_spec (shortestCloser_mem hNe)).2

/-- The form of the closer that is read is the one written, unless a longer one
follows. -/
theorem findClose_append (hMem : closer ∈ closeCandidates callClose) (hEnds : EndsFirst closer body)
    (hLonger : ∀ longer ∈ closeCandidates callClose, closer.length < longer.length →
      ¬ longer <:+: closer ++ rest) :
    findClose (body ++ (closer ++ rest)) callClose = some (body.length, closer.length) := by
  have hFind : find closer (body ++ (closer ++ rest)) = some body.length := find_append hEnds rest
  refine findClose_eq_some_iff.mpr ⟨closer, hMem, rfl, hFind, ?_⟩
  intro longer hMem' hLen hInfix
  -- the longer form would start where the shorter one does, so after the body
  obtain ⟨i, hi⟩ := find_isSome_of_isInfix hInfix
  obtain ⟨-, hPre, -⟩ := find_eq_some_iff.mp hi
  have hLe : body.length ≤ i := by
    by_contra hLt
    have hExtends := closeCandidates_prefix hMem hMem' (Nat.le_of_lt hLen)
    exact (find_eq_some_iff.mp hFind).2.2 i (by omega) (hExtends.trans hPre)
  obtain ⟨d, rfl⟩ := Nat.exists_eq_add_of_le hLe
  rw [← List.drop_drop, List.drop_left] at hPre
  exact hLonger longer hMem' hLen (hPre.isInfix.trans (List.drop_suffix d _).isInfix)

/-- The whole closer has no longer form. -/
theorem findClose_full (hNe : callClose ≠ []) (hEnds : EndsFirst callClose body) (rest : Text) :
    findClose (body ++ (callClose ++ rest)) callClose = some (body.length, callClose.length) := by
  refine findClose_append (by simp [closeCandidates, hNe]) hEnds ?_
  intro longer hMem hLen
  have hLe := (closeCandidates_spec hMem).1.length_le
  omega

end Closers

/-! ## Scanning -/

section Scanning

variable {callOpen callClose : Text}

/-- Without an opener there is no body. -/
theorem scanBodies_of_not_isInfix {rest : Text} (h : ¬ callOpen <:+: rest) (fuel : Nat) :
    scanBodies callOpen callClose fuel rest = [] := by
  cases fuel with
  | zero => rfl
  | succ fuel => rw [scanBodies, find_eq_none_iff.mpr h]

/-- One call: its body is what stands between its opener and its closer. -/
theorem scanBodies_step {prose body closer rest : Text} (hOpen : EndsFirst callOpen prose)
    (hClose : findClose (body ++ (closer ++ rest)) callClose = some (body.length, closer.length))
    (fuel : Nat) :
    scanBodies callOpen callClose (fuel + 1) (prose ++ (callOpen ++ (body ++ (closer ++ rest)))) =
      body :: if rest.isEmpty then [] else scanBodies callOpen callClose fuel rest := by
  have hDrop : (prose ++ (callOpen ++ (body ++ (closer ++ rest)))).drop
      (prose.length + callOpen.length) = body ++ (closer ++ rest) := by
    rw [← List.drop_drop, List.drop_left, List.drop_left]
  have hSplit : splitBody (body ++ (closer ++ rest)) callClose = (body, rest) := by
    rw [splitBody, hClose]
    show (_, _) = _
    rw [List.take_left, ← List.drop_drop, List.drop_left, List.drop_left]
  rw [scanBodies, find_append hOpen]
  simp only [hDrop, hSplit]

/-- A call with no closer runs to the end of the reply. -/
theorem scanBodies_severed {prose body : Text} (hOpen : EndsFirst callOpen prose)
    (hClose : findClose body callClose = none) (fuel : Nat) :
    scanBodies callOpen callClose (fuel + 1) (prose ++ (callOpen ++ body)) = [body] := by
  have hDrop : (prose ++ (callOpen ++ body)).drop (prose.length + callOpen.length) = body := by
    rw [← List.drop_drop, List.drop_left, List.drop_left]
  have hSplit : splitBody body callClose = (body, []) := by
    rw [splitBody, hClose]
  rw [scanBodies, find_append hOpen]
  simp only [hDrop, hSplit, List.isEmpty_nil, if_true]

/-- A reply: each call's body after some prose, and what follows the last call. -/
def reply (callOpen callClose : Text) : List (Text × Text) → Text → Text
  | [], trailing => trailing
  | (prose, body) :: calls, trailing =>
    prose ++ (callOpen ++ (body ++ (callClose ++ reply callOpen callClose calls trailing)))

/-- Calls are written one behind the other. -/
theorem reply_append (front back : List (Text × Text)) (trailing : Text) :
    reply callOpen callClose (front ++ back) trailing =
      reply callOpen callClose front (reply callOpen callClose back trailing) := by
  induction front with
  | nil => rfl
  | cons call front ih => rw [List.cons_append, reply, reply, ih]

/-- What trails is written behind the last of them. -/
theorem reply_eq_append (calls : List (Text × Text)) (trailing : Text) :
    reply callOpen callClose calls trailing = reply callOpen callClose calls [] ++ trailing := by
  induction calls with
  | nil => rfl
  | cons call calls ih =>
    rw [reply, reply, ih]
    simp only [List.append_assoc]

/-- Every body is handed out, in order, when each opener and closer is completed
where it was written. -/
theorem scanBodies_reply (hClose : callClose ≠ []) {calls : List (Text × Text)} {trailing : Text}
    (hProse : ∀ call ∈ calls, EndsFirst callOpen call.1)
    (hBody : ∀ call ∈ calls, EndsFirst callClose call.2) (hTrailing : ¬ callOpen <:+: trailing)
    {fuel : Nat} (hFuel : calls.length < fuel) :
    scanBodies callOpen callClose fuel (reply callOpen callClose calls trailing) =
      calls.map Prod.snd := by
  induction calls generalizing fuel with
  | nil => exact scanBodies_of_not_isInfix hTrailing fuel
  | cons call calls ih =>
    obtain ⟨prose, body⟩ := call
    -- each call costs one unit of fuel
    obtain ⟨fuel, rfl⟩ : ∃ n, fuel = n + 1 := ⟨fuel - 1, by simp at hFuel; omega⟩
    have hRest := ih (fun call hCall => hProse call (List.mem_cons_of_mem _ hCall))
      (fun call hCall => hBody call (List.mem_cons_of_mem _ hCall)) (Nat.lt_of_succ_lt_succ hFuel)
    rw [reply, scanBodies_step (hProse _ List.mem_cons_self)
      (findClose_full hClose (hBody _ List.mem_cons_self) _), hRest, List.map_cons]
    split
    · -- nothing left, so no call either
      rename_i hEmpty
      cases calls with
      | nil => rfl
      | cons call calls =>
        simp only [reply, List.isEmpty_iff, List.append_eq_nil_iff] at hEmpty
        exact absurd (hEmpty.2.1 ▸ List.nil_infix) hTrailing
    · rfl

/-- A reply is at least as long as it has calls. -/
theorem length_le_reply (callOpen : Text) (hClose : callClose ≠ [])
    (calls : List (Text × Text)) (trailing : Text) :
    calls.length ≤ (reply callOpen callClose calls trailing).length := by
  have hPos := List.length_pos_iff.mpr hClose
  induction calls with
  | nil => exact Nat.zero_le _
  | cons call calls ih =>
    simp only [reply, List.length_cons, List.length_append]
    omega

/-- Reading bodies one after another, when each reads. -/
theorem mapM_map_eq_some {Call Body Result : Type} {read : Body → Option Result}
    {calls : List Call} (body : Call → Body) (result : Call → Result)
    (h : ∀ call ∈ calls, read (body call) = some (result call)) :
    (calls.map body).mapM read = some (calls.map result) := by
  induction calls with
  | nil => rfl
  | cons call calls ih =>
    rw [List.map_cons, List.mapM_cons, h call List.mem_cons_self,
      ih fun call hCall => h call (List.mem_cons_of_mem _ hCall)]
    rfl

/-- `scan_calls` reads each body once, in order. -/
theorem scanCalls_reply {Call : Type} (body : Call → Text) {toolCall : Call → ToolCall}
    {readBody : Text → Option (Option ToolCall)} (hClose : callClose ≠ [])
    {calls : List (Text × Call)} {trailing : Text}
    (hProse : ∀ call ∈ calls, EndsFirst callOpen call.1)
    (hBody : ∀ call ∈ calls, EndsFirst callClose (body call.2))
    (hRead : ∀ call ∈ calls, readBody (body call.2) = some (some (toolCall call.2)))
    (hTrailing : ¬ callOpen <:+: trailing) :
    scanCalls (reply callOpen callClose (calls.map fun call => (call.1, body call.2)) trailing)
      callOpen callClose readBody = some (calls.map fun call => toolCall call.2) := by
  -- the length of the reply is fuel enough
  have hFuel := Nat.lt_succ_of_le
    (length_le_reply callOpen hClose (calls.map fun call => (call.1, body call.2)) trailing)
  have hBodies := scanBodies_reply hClose (List.forall_mem_map.mpr hProse)
    (List.forall_mem_map.mpr hBody) hTrailing hFuel
  have hMapM := mapM_map_eq_some (fun call : Text × Call => body call.2)
    (fun call => some (toolCall call.2)) hRead
  rw [scanCalls, hBodies, List.map_map]
  show ((calls.map fun call => body call.2).mapM readBody).map _ = _
  rw [hMapM, Option.map_some, List.filterMap_map]
  exact congrArg some (congrFun List.filterMap_eq_map calls)

/-- A reply with one call, closed by any form of the closer. -/
theorem scanCalls_single {prose body closer rest : Text} {toolCall : ToolCall}
    {readBody : Text → Option (Option ToolCall)} (hOpen : EndsFirst callOpen prose)
    (hClose : findClose (body ++ (closer ++ rest)) callClose = some (body.length, closer.length))
    (hRead : readBody body = some (some toolCall)) (hRest : rest = [] ∨ ¬ callOpen <:+: rest) :
    scanCalls (prose ++ (callOpen ++ (body ++ (closer ++ rest)))) callOpen callClose readBody =
      some [toolCall] := by
  -- what follows the call holds no opener, so no further body is read
  have hLast : (if rest.isEmpty then []
      else scanBodies callOpen callClose (prose ++ (callOpen ++ (body ++ (closer ++ rest)))).length
        rest) = [] := by
    rcases hRest with rfl | hNot
    · rfl
    · rw [scanBodies_of_not_isInfix hNot, ite_self]
  rw [scanCalls, scanBodies_step hOpen hClose, hLast, List.mapM_cons, hRead]
  rfl

/-- So does one whose format has no closer at all. -/
theorem scanCalls_unclosed {prose body : Text} {toolCall : ToolCall}
    {readBody : Text → Option (Option ToolCall)} (hOpen : EndsFirst callOpen prose)
    (hRead : readBody body = some (some toolCall)) :
    scanCalls (prose ++ (callOpen ++ body)) callOpen [] readBody = some [toolCall] := by
  rw [scanCalls, scanBodies_severed hOpen rfl, List.mapM_cons, hRead]
  rfl

end Scanning

/-! ## Calls -/

/-- A call as a model means it: a trimmed, non-empty name, and string arguments
under distinct trimmed names. -/
structure TextCall where
  name : Text
  args : List (Text × Text)
  name_ne : name ≠ []
  name_trim : trim name = name
  keys_trim : ∀ arg ∈ args, trim arg.1 = arg.1
  keys_nodup : (args.map Prod.fst).Nodup

namespace TextCall

/-- The arguments as the JSON object the protocol carries. -/
def arguments (call : TextCall) : Json :=
  .obj (call.args.map fun (key, value) => (key, .string value))

def toolCall (call : TextCall) : ToolCall := { name := call.name, arguments := call.arguments }

/-- What the parsers make of a name and the pairs they read. -/
theorem named_argumentMap (call : TextCall) :
    named call.name (argumentMap call.args) = some call.toolCall := by
  rw [named, if_neg (by simpa using call.name_ne)]
  rfl

/-- Every argument is in the object, verbatim, under its own name. -/
theorem get_arguments (call : TextCall) {key value : Text} (h : (key, value) ∈ call.args) :
    call.toolCall.arguments.get key = some (.string value) := by
  have hKeys : (call.args.map fun (key, value) => (key, Json.string value)).map Prod.fst =
      call.args.map Prod.fst := by
    rw [List.map_map]
    rfl
  refine Map.get_ofEntries (hKeys ▸ call.keys_nodup) ?_
  exact List.mem_map.mpr ⟨(key, value), h, rfl⟩

end TextCall

/-- The call of the two-argument probe. -/
def probeCall : TextCall where
  name := ToolFormat.NAME
  args := [(ToolFormat.ARG1, ToolFormat.VAL1), (ToolFormat.ARG2, ToolFormat.VAL2)]
  name_ne := by decide
  name_trim := by decide
  keys_trim := by decide
  keys_nodup := by decide

/-- The call of the probe without arguments. -/
def noArgsCall : TextCall where
  name := ToolFormat.NAME
  args := []
  name_ne := by decide
  name_trim := by decide
  keys_trim := by decide
  keys_nodup := by decide

/-! ## A stub renderer -/

/-- The one call an assistant message makes. -/
def callOf (reply : Json) : Option (Text × Map Json) := do
  let calls ← reply.get "tool_calls".toList
  match calls with
  | .array [call] =>
    let function ← call.get "function".toList
    let name ← (← function.get "name".toList).asStr
    let arguments ← (← function.get "arguments".toList).asObject
    some (name, arguments)
  | _ => none

/-- A renderer that frames the assistant's turn and writes its call with `write`. -/
def stubRender (before after : Text) (write : Text → Map Json → Text) : RenderFn :=
  fun _ messages _ =>
    match messages with
    | .array [_, reply] =>
      match callOf reply with
      | some (name, arguments) => some (before ++ (write name arguments ++ after))
      | none =>
        ((reply.get "content".toList).bind Json.asStr).map fun content =>
          before ++ (content ++ after)
    | _ => none

/-- The arguments that are strings, as a template that knows no others sees them. -/
def stringArgs (arguments : Map Json) : List (Text × Text) :=
  arguments.filterMap fun (key, value) => value.asStr.map fun value => (key, value)

def textStub (before after : Text) (write : Text → List (Text × Text) → Text) : RenderFn :=
  stubRender before after fun name arguments => write name (stringArgs arguments)

open ToolFormat

/-- The stub keeps the framing apart from what the assistant says. -/
def stubFraming (before after : Text) (write : Text → Map Json → Text) :
    Framing (stubRender before after write) [] where
  before := before
  after := after
  rendersPlain := fun _ => rfl

/-- The stub writes one call as it was told to. -/
theorem stubFraming_renders (before after : Text) (write : Text → Map Json → Text) (name : Text)
    (arguments : Map Json) :
    (stubFraming before after write).Renders (callMessage name (.object arguments))
      (write name arguments) := rfl

/-- Arguments in order are an object as they stand. -/
theorem arguments_eq {call : TextCall} (h : Map.Ordered call.args) :
    call.arguments = .object (call.args.map fun (key, value) => (key, .string value)) :=
  congrArg Json.object (Map.ofEntries_of_ordered (List.pairwise_map.mpr h))

/-- Strings are read back from their values. -/
theorem stringArgs_map (args : List (Text × Text)) :
    stringArgs (args.map fun (key, value) => (key, .string value)) = args := by
  rw [stringArgs, List.filterMap_map]
  exact List.filterMap_some

/-- The text stub writes one call of strings. -/
theorem textStub_renders (before after : Text) (write : Text → List (Text × Text) → Text)
    {call : TextCall} (h : Map.Ordered call.args) :
    (stubFraming before after fun name arguments => write name (stringArgs arguments)).Renders
      (callMessage call.name call.arguments) (write call.name call.args) := by
  have hRenders := stubFraming_renders before after
    (fun name arguments => write name (stringArgs arguments)) call.name
    (call.args.map fun (key, value) => (key, .string value))
  rwa [stringArgs_map, ← arguments_eq h] at hRenders

end Rampipe
