import Rampipe.Lib.Loop
import Rampipe.Results.Scanning

/-!
# Rampipe — the loops of the tool-call parser

`parse_tool_calls` runs one loop over the text and, for two of the families, one
over the arguments of every call it finds there. Here each is a loop that may run
forever (`scanTurn`, `splitTurn`, `argTurn`), and what the fuelled functions of the
model return is what the loop leaves with.

* `scanTurn_shrinks`, `splitTurn_shrinks` — these two shorten the text in every
  iteration, whatever the spans are.
* `argTurn_shrinks_iff`, `argTurn_ends_iff` — the third one needs a span that is not
  empty, or nothing to read.
* `parseToolCalls_terminates_iff` — when a whole parse comes to its end.
-/

namespace Rampipe

open ListSearch Text

/-! ## The three loops -/

/-- One iteration of `scan_calls`, over what is left of the text and the bodies
handed out so far. -/
def scanTurn (callOpen callClose : Text) :
    Text × List Text → Loop.Turn (Text × List Text) (List Text)
  | (rest, bodies) =>
    match find callOpen rest with
    | none => .leave bodies
    | some start =>
      let (body, remainder) := splitBody (rest.drop (start + callOpen.length)) callClose
      if remainder.isEmpty then .leave (bodies ++ [body]) else .again (remainder, bodies ++ [body])

/-- One iteration of `split_args`. -/
def splitTurn (argNameClose valueOpen argClose argSep : Text) :
    Text × List (Text × Text) → Loop.Turn (Text × List (Text × Text)) (List (Text × Text))
  | (rest, out) =>
    if rest.isEmpty then .leave out
    else
      match find argNameClose rest with
      | none => .leave out
      | some at_ =>
        let key := trim (rest.take at_)
        let (value, remainder) :=
          splitValue (rest.drop (at_ + argNameClose.length)) valueOpen argClose argSep
        let next :=
          match findSep remainder argSep with
          | some sepAt => remainder.drop (sepAt + argSep.length)
          | none => []
        .again (next, out ++ if key.isEmpty then [] else [(key, value)])

/-- One iteration of the argument loop of `parse_delimited_calls`. -/
def argTurn (argOpen argNameClose argClose : Text) :
    Text × List (Text × Text) → Loop.Turn (Text × List (Text × Text)) (List (Text × Text))
  | (argsRest, pairs) =>
    match find argOpen argsRest with
    | none => .leave pairs
    | some argStart =>
      let afterArgOpen := argsRest.drop (argStart + argOpen.length)
      match find argNameClose afterArgOpen with
      | none => .leave pairs
      | some argNameEnd =>
        let argName := trim (afterArgOpen.take argNameEnd)
        let afterName := afterArgOpen.drop (argNameEnd + argNameClose.length)
        let (value, next) :=
          match find argClose afterName with
          | some valueEnd => (afterName.take valueEnd, afterName.drop (valueEnd + argClose.length))
          | none => (afterName, [])
        if next.isEmpty then .leave (pairs ++ [(argName, value)])
        else .again (next, pairs ++ [(argName, value)])

/-! ## The fuelled functions are these loops -/

/-- The scan, when its loop ends, gives what the recursion gives. -/
theorem scanBodies_of_iterate {callOpen callClose : Text} {fuel : Nat} {rest : Text}
    {bodies result : List Text}
    (h : Loop.iterate (scanTurn callOpen callClose) fuel (rest, bodies) = some result) :
    result = bodies ++ scanBodies callOpen callClose fuel rest := by
  induction fuel generalizing rest bodies with
  | zero => cases h
  | succ fuel ih =>
    rw [Loop.iterate, scanTurn] at h
    rw [scanBodies]
    cases hFind : find callOpen rest with
    | none =>
      rw [hFind] at h
      cases h
      exact (List.append_nil _).symm
    | some start =>
      rw [hFind] at h
      dsimp only at h ⊢
      by_cases hEmpty : (splitBody (rest.drop (start + callOpen.length)) callClose).2.isEmpty = true
      · rw [if_pos hEmpty] at h ⊢
        cases h
        rfl
      · rw [if_neg hEmpty] at h ⊢
        exact (ih h).trans (List.append_assoc _ _ _)

/-- So does the splitting of arguments. -/
theorem splitArgs_of_iterate {argNameClose valueOpen argClose argSep : Text} {fuel : Nat}
    {rest : Text} {out result : List (Text × Text)}
    (h : Loop.iterate (splitTurn argNameClose valueOpen argClose argSep) fuel (rest, out) =
      some result) :
    result = out ++ splitArgs argNameClose valueOpen argClose argSep fuel rest := by
  induction fuel generalizing rest out with
  | zero => cases h
  | succ fuel ih =>
    rw [Loop.iterate, splitTurn] at h
    rw [splitArgs]
    by_cases hEmpty : rest.isEmpty = true
    · rw [if_pos hEmpty] at h ⊢
      cases h
      exact (List.append_nil _).symm
    · rw [if_neg hEmpty] at h ⊢
      cases hFind : find argNameClose rest with
      | none =>
        rw [hFind] at h
        cases h
        exact (List.append_nil _).symm
      | some at_ =>
        rw [hFind] at h
        dsimp only at h ⊢
        exact (ih h).trans (List.append_assoc _ _ _)

/-- The argument loop and its fuelled form run out of fuel together. -/
theorem iterate_argTurn (argOpen argNameClose argClose : Text) (fuel : Nat) (argsRest : Text)
    (pairs : List (Text × Text)) :
    Loop.iterate (argTurn argOpen argNameClose argClose) fuel (argsRest, pairs) =
      (delimitedArgs argOpen argNameClose argClose fuel argsRest).map (pairs ++ ·) := by
  -- the loop pushes what the recursion puts in front
  induction fuel generalizing argsRest pairs with
  | zero => rfl
  | succ fuel ih =>
    rw [Loop.iterate, argTurn, delimitedArgs]
    cases find argOpen argsRest with
    | none => simp
    | some argStart =>
      dsimp only
      cases find argNameClose (argsRest.drop (argStart + argOpen.length)) with
      | none => simp
      | some argNameEnd =>
        dsimp only
        rcases find argClose ((argsRest.drop (argStart + argOpen.length)).drop
            (argNameEnd + argNameClose.length)) with _ | valueEnd
        · rfl
        · dsimp only
          by_cases hEmpty : (((argsRest.drop (argStart + argOpen.length)).drop
              (argNameEnd + argNameClose.length)).drop (valueEnd + argClose.length)).isEmpty = true
          · rw [if_pos hEmpty, if_pos hEmpty]
            rfl
          · rw [if_neg hEmpty, if_neg hEmpty]
            dsimp only
            rw [ih, Option.map_map]
            refine congrArg (Option.map · _) ?_
            funext more
            exact List.append_assoc _ _ _

/-! ## What an iteration leaves of the text -/

/-- What is left of the text at the head of a loop. -/
def textLeft {ρ : Type} (s : Text × ρ) : Nat := s.1.length

/-- A call that is closed takes at least its closer off the text. -/
theorem splitBody_length {afterOpen callClose : Text}
    (h : (splitBody afterOpen callClose).2 ≠ []) :
    (splitBody afterOpen callClose).2.length < afterOpen.length := by
  unfold splitBody at h ⊢
  rcases hClose : findClose afterOpen callClose with _ | ⟨end_, len⟩
  · rw [hClose] at h
    exact absurd rfl h
  · obtain ⟨closer, hCloser, rfl, hFind, -⟩ := findClose_eq_some_iff.mp hClose
    -- an empty closer is no candidate
    have hPositive := List.length_pos_of_ne_nil (closeCandidates_spec hCloser).2
    have hFits := find_add_length_le hFind
    show (afterOpen.drop (end_ + closer.length)).length < afterOpen.length
    rw [List.length_drop]
    omega

/-- Each turn of the scan leaves less text. -/
theorem scanTurn_again {callOpen callClose : Text} {s s' : Text × List Text}
    (h : scanTurn callOpen callClose s = .again s') : textLeft s' < textLeft s := by
  obtain ⟨rest, bodies⟩ := s
  unfold scanTurn at h
  dsimp only at h
  rcases hFind : find callOpen rest with _ | start
  · rw [hFind] at h
    cases h
  · rw [hFind] at h
    dsimp only at h
    by_cases hEmpty : (splitBody (rest.drop (start + callOpen.length)) callClose).2.isEmpty = true
    · rw [if_pos hEmpty] at h
      cases h
    · rw [if_neg hEmpty] at h
      cases h
      refine Nat.lt_of_lt_of_le (splitBody_length fun hNil => hEmpty ?_) ?_
      · rw [hNil]
        rfl
      · rw [List.length_drop]
        exact Nat.sub_le _ _

/-- So the scan shrinks what it scans. -/
theorem scanTurn_shrinks (callOpen callClose text : Text) (bodies : List Text) :
    Loop.Shrinks (scanTurn callOpen callClose) textLeft (text, bodies) :=
  fun _ _ _ h => scanTurn_again h

/-- The scan is its loop, with fuel enough. -/
theorem iterate_scanTurn (callOpen callClose text : Text) :
    Loop.iterate (scanTurn callOpen callClose) (text.length + 1) (text, []) =
      some (scanBodies callOpen callClose (text.length + 1) text) := by
  have hEnds : (Loop.iterate (scanTurn callOpen callClose) (text.length + 1) (text, [])).isSome :=
    (scanTurn_shrinks callOpen callClose text []).iterate_isSome (Nat.lt_succ_self _)
  obtain ⟨bodies, hBodies⟩ := Option.isSome_iff_exists.mp hEnds
  rw [hBodies, scanBodies_of_iterate hBodies, List.nil_append]

/-- A value is cut out of the text, never added to it. -/
theorem splitValue_length (afterName valueOpen argClose argSep : Text) :
    (splitValue afterName valueOpen argClose argSep).2.length ≤ afterName.length := by
  have hBare : ∀ found : Option Nat, (match found with
      | some end_ => (trim (afterName.take end_), afterName.drop end_)
      | none => (trim afterName, [])).2.length ≤ afterName.length := by
    rintro (_ | end_)
    · exact Nat.zero_le _
    · exact (List.drop_sublist _ _).length_le
  unfold splitValue
  rcases hStrip : stripPrefix valueOpen afterName with _ | inner
  · exact hBare _
  · dsimp only
    by_cases hOpen : valueOpen.isEmpty = true
    · rw [if_pos hOpen]
      exact hBare _
    · -- a value in its own delimiters
      rw [if_neg hOpen]
      have hInner : inner.length ≤ afterName.length := by
        rw [stripPrefix_eq_some_iff.mp hStrip, List.length_append]
        omega
      rcases find argClose inner with _ | end_
      · exact Nat.zero_le _
      · exact ((List.drop_sublist _ _).length_le).trans hInner

/-- Each turn of the splitting leaves less text. -/
theorem splitTurn_again {argNameClose valueOpen argClose argSep : Text}
    {s s' : Text × List (Text × Text)}
    (h : splitTurn argNameClose valueOpen argClose argSep s = .again s') :
    textLeft s' < textLeft s := by
  obtain ⟨rest, out⟩ := s
  unfold splitTurn at h
  dsimp only at h
  by_cases hEmpty : rest.isEmpty = true
  · rw [if_pos hEmpty] at h
    cases h
  · rw [if_neg hEmpty] at h
    have hPositive : 0 < rest.length :=
      List.length_pos_of_ne_nil fun hNil => hEmpty (List.isEmpty_iff.mpr hNil)
    rcases hName : find argNameClose rest with _ | at_
    · rw [hName] at h
      cases h
    · rw [hName] at h
      cases h
      generalize hValue : splitValue (rest.drop (at_ + argNameClose.length)) valueOpen argClose
        argSep = cut
      have hCut : cut.2.length ≤ rest.length := by
        rw [← hValue]
        exact (splitValue_length ..).trans (List.drop_sublist _ _).length_le
      show (match findSep cut.2 argSep with
        | some sepAt => cut.2.drop (sepAt + argSep.length)
        | none => []).length < rest.length
      rcases hSep : findSep cut.2 argSep with _ | sepAt
      · exact hPositive
      · -- the separator that was found is not empty
        unfold findSep at hSep
        split at hSep
        · cases hSep
        · rename_i hSome
          have hSepPositive : 0 < argSep.length :=
            List.length_pos_of_ne_nil fun hNil => hSome (List.isEmpty_iff.mpr hNil)
          have hFits := find_add_length_le hSep
          show (cut.2.drop (sepAt + argSep.length)).length < rest.length
          rw [List.length_drop]
          omega

/-- So it shrinks what it splits. -/
theorem splitTurn_shrinks (argNameClose valueOpen argClose argSep args : Text)
    (out : List (Text × Text)) :
    Loop.Shrinks (splitTurn argNameClose valueOpen argClose argSep) textLeft (args, out) :=
  fun _ _ _ h => splitTurn_again h

/-- So is the split of the arguments. -/
theorem iterate_splitTurn (argNameClose valueOpen argClose argSep args : Text) :
    Loop.iterate (splitTurn argNameClose valueOpen argClose argSep) (args.length + 1) (args, []) =
      some (splitArgs argNameClose valueOpen argClose argSep (args.length + 1) args) := by
  have hEnds : (Loop.iterate (splitTurn argNameClose valueOpen argClose argSep) (args.length + 1)
      (args, [])).isSome :=
    (splitTurn_shrinks argNameClose valueOpen argClose argSep args []).iterate_isSome
      (Nat.lt_succ_self _)
  obtain ⟨out, hOut⟩ := Option.isSome_iff_exists.mp hEnds
  rw [hOut, splitArgs_of_iterate hOut, List.nil_append]

section Arguments

variable {argOpen argNameClose argClose : Text}

/-- One of the three spans of an argument takes something off the text. -/
def ArgsAdvance (argOpen argNameClose argClose : Text) : Prop :=
  argOpen ≠ [] ∨ argNameClose ≠ [] ∨ argClose ≠ []

instance : Decidable (ArgsAdvance argOpen argNameClose argClose) := by
  unfold ArgsAdvance
  infer_instance

/-- Where arguments advance, some span is not empty. -/
theorem ArgsAdvance.length_pos (h : ArgsAdvance argOpen argNameClose argClose) :
    0 < argOpen.length + argNameClose.length + argClose.length := by
  rcases h with h | h | h
  all_goals
    have hPositive := List.length_pos_of_ne_nil h
    omega

/-- Then each turn of the argument loop leaves less text. -/
theorem argTurn_again (hAdvance : ArgsAdvance argOpen argNameClose argClose)
    {s s' : Text × List (Text × Text)} (h : argTurn argOpen argNameClose argClose s = .again s') :
    textLeft s' < textLeft s := by
  obtain ⟨argsRest, pairs⟩ := s
  have hPositive := hAdvance.length_pos
  unfold argTurn at h
  dsimp only at h
  rcases hStart : find argOpen argsRest with _ | argStart
  · rw [hStart] at h
    cases h
  · rw [hStart] at h
    dsimp only at h
    rcases hName : find argNameClose (argsRest.drop (argStart + argOpen.length)) with _ | argNameEnd
    · rw [hName] at h
      cases h
    · rw [hName] at h
      dsimp only at h
      have hOpenFits := find_add_length_le hStart
      have hNameFits := find_add_length_le hName
      rcases hValue : find argClose ((argsRest.drop (argStart + argOpen.length)).drop
          (argNameEnd + argNameClose.length)) with _ | valueEnd
      · -- an argument that nothing closes is the last one
        rw [hValue] at h
        cases h
      · rw [hValue] at h
        dsimp only at h
        have hCloseFits := find_add_length_le hValue
        split at h
        · cases h
        · cases h
          show (((argsRest.drop _).drop _).drop (valueEnd + argClose.length)).length <
            argsRest.length
          simp only [List.length_drop] at hNameFits hCloseFits ⊢
          omega

/-- With three empty spans every search succeeds at once and nothing is taken off. -/
theorem argTurn_stuck {argsRest : Text} (hRest : argsRest ≠ []) (pairs : List (Text × Text)) :
    argTurn [] [] [] (argsRest, pairs) = .again (argsRest, pairs ++ [([], [])]) := by
  have hFind : find [] argsRest = some 0 := find_of_isPrefix List.nil_prefix
  unfold argTurn
  simp [hFind, hRest, trim, trimStart, trimEnd]

variable (argOpen argNameClose argClose) in
/-- Nothing to read is left at once. -/
theorem argTurn_nil (pairs : List (Text × Text)) :
    ∃ result, argTurn argOpen argNameClose argClose ([], pairs) = .leave result := by
  unfold argTurn
  dsimp only
  rcases find argOpen [] with _ | argStart
  · exact ⟨_, rfl⟩
  · dsimp only
    rcases find argNameClose (([] : Text).drop (argStart + argOpen.length)) with _ | argNameEnd
    · exact ⟨_, rfl⟩
    · dsimp only
      rw [List.drop_nil, List.drop_nil]
      rcases find argClose [] with _ | valueEnd
      · exact ⟨_, rfl⟩
      · exact ⟨_, if_pos (List.isEmpty_iff.mpr List.drop_nil)⟩

/-- The argument loop shrinks its text exactly then, or when there is none. -/
theorem argTurn_shrinks_iff (args : Text) (pairs : List (Text × Text)) :
    Loop.Shrinks (argTurn argOpen argNameClose argClose) textLeft (args, pairs) ↔
      ArgsAdvance argOpen argNameClose argClose ∨ args = [] := by
  constructor
  · intro hShrinks
    by_contra hStuck
    rw [not_or] at hStuck
    obtain ⟨hSpans, hArgs⟩ := hStuck
    simp only [ArgsAdvance, not_or, not_not] at hSpans
    obtain ⟨rfl, rfl, rfl⟩ := hSpans
    exact Nat.lt_irrefl args.length (hShrinks _ _ .here (argTurn_stuck hArgs pairs))
  · rintro (hAdvance | rfl)
    · exact fun _ _ _ h => argTurn_again hAdvance h
    · intro t t' hVisits hAgain
      obtain ⟨result, hLeave⟩ := argTurn_nil argOpen argNameClose argClose pairs
      rcases hVisits.cases_head with rfl | ⟨s, hFirst, -⟩
      · rw [hLeave] at hAgain
        cases hAgain
      · rw [hLeave] at hFirst
        cases hFirst

/-- And so it ends exactly then. -/
theorem argTurn_ends_iff (args : Text) (pairs : List (Text × Text)) :
    Loop.Ends (argTurn argOpen argNameClose argClose) (args, pairs) ↔
      ArgsAdvance argOpen argNameClose argClose ∨ args = [] := by
  constructor
  · intro hEnds
    by_contra hStuck
    rw [not_or] at hStuck
    obtain ⟨hSpans, hArgs⟩ := hStuck
    simp only [ArgsAdvance, not_or, not_not] at hSpans
    obtain ⟨rfl, rfl, rfl⟩ := hSpans
    refine Loop.not_ends (fun t => t.1 = args) rfl ?_ hEnds
    rintro ⟨rest, found⟩ rfl
    exact ⟨_, argTurn_stuck hArgs found, rfl⟩
  · intro h
    exact ⟨_, ((argTurn_shrinks_iff args pairs).mpr h).iterate_isSome (Nat.lt_succ_self _)⟩

/-- The fuel of `delimitedArgs` runs out where the loop does not end. -/
theorem delimitedArgs_isSome_iff (args : Text) :
    (delimitedArgs argOpen argNameClose argClose (args.length + 1) args).isSome ↔
      ArgsAdvance argOpen argNameClose argClose ∨ args = [] := by
  have hLoop := iterate_argTurn argOpen argNameClose argClose (args.length + 1) args []
  have hFuelled : (Loop.iterate (argTurn argOpen argNameClose argClose) (args.length + 1)
      (args, [])).isSome = (delimitedArgs argOpen argNameClose argClose (args.length + 1)
      args).isSome := by
    rw [hLoop, Option.isSome_map]
  rw [← hFuelled]
  constructor
  · exact fun hSome => (argTurn_ends_iff args []).mp ⟨_, hSome⟩
  · exact fun h => ((argTurn_shrinks_iff args []).mpr h).iterate_isSome (Nat.lt_succ_self _)

end Arguments

/-! ## A whole parse -/

/-- `P` of every loop a parse of `text` runs, from where it starts it: the scan over
the text, and the argument loop of every call whose name is closed. -/
def EveryLoop (P : {ρ : Type} → (Text × ρ → Loop.Turn (Text × ρ) ρ) → Text × ρ → Prop)
    (text : Text) (format : ToolFormat) : Prop :=
  P (scanTurn format.callOpen format.callClose) (text, []) ∧
    ∀ body ∈ scanBodies format.callOpen format.callClose (text.length + 1) text,
      match format with
      | .json .. => True
      | .delimited _ nameClose argOpen argNameClose argClose _ =>
        ∀ nameEnd, find nameClose body = some nameEnd →
          P (argTurn argOpen argNameClose argClose)
            (body.drop (nameEnd + nameClose.length), [])
      | .separated _ nameClose argNameClose valueOpen argClose argSep _ =>
        ∀ nameEnd, find nameClose body = some nameEnd →
          P (splitTurn argNameClose valueOpen argClose argSep)
            (body.drop (nameEnd + nameClose.length), [])

/-- A delimited format whose argument spans are all empty, and a text with a call
that has something behind its name. -/
def HoldsStuckCall (text : Text) : ToolFormat → Prop
  | .delimited callOpen nameClose argOpen argNameClose argClose callClose =>
    ¬ ArgsAdvance argOpen argNameClose argClose ∧
      ∃ body ∈ scanBodies callOpen callClose (text.length + 1) text,
        ∃ nameEnd, find nameClose body = some nameEnd ∧
          body.drop (nameEnd + nameClose.length) ≠ []
  | _ => False

/-- The loops of a parse, when the argument loop of the delimited family is the only one
that may fail `P`. -/
theorem everyLoop_iff
    (P : {ρ : Type} → (Text × ρ → Loop.Turn (Text × ρ) ρ) → Text × ρ → Prop)
    (hScan : ∀ callOpen callClose text, P (scanTurn callOpen callClose) (text, []))
    (hSplit : ∀ argNameClose valueOpen argClose argSep args,
      P (splitTurn argNameClose valueOpen argClose argSep) (args, []))
    (hArgs : ∀ argOpen argNameClose argClose args,
      P (argTurn argOpen argNameClose argClose) (args, []) ↔
        ArgsAdvance argOpen argNameClose argClose ∨ args = [])
    (text : Text) (format : ToolFormat) :
    EveryLoop P text format ↔ ¬ HoldsStuckCall text format := by
  unfold EveryLoop
  match format with
  | .json .. => exact ⟨fun _ => id, fun _ => ⟨hScan .., fun _ _ => trivial⟩⟩
  | .separated .. => exact ⟨fun _ => id, fun _ => ⟨hScan .., fun _ _ _ _ => hSplit ..⟩⟩
  | .delimited callOpen nameClose argOpen argNameClose argClose callClose =>
    unfold HoldsStuckCall
    constructor
    · rintro ⟨-, hBodies⟩ ⟨hSpans, body, hBody, nameEnd, hName, hRest⟩
      rcases (hArgs ..).mp (hBodies body hBody nameEnd hName) with hAdvance | hNil
      · exact hSpans hAdvance
      · exact hRest hNil
    · intro hNone
      refine ⟨hScan .., fun body hBody nameEnd hName => (hArgs ..).mpr ?_⟩
      by_contra hStuck
      rw [not_or] at hStuck
      exact hNone ⟨hStuck.1, body, hBody, nameEnd, hName, hStuck.2⟩

/-- All are read when each is. -/
theorem mapM_isSome_iff {α β : Type} {f : α → Option β} {l : List α} :
    (l.mapM f).isSome ↔ ∀ a ∈ l, (f a).isSome := by
  induction l with
  | nil => simp
  | cons a l ih =>
    rw [List.forall_mem_cons, ← ih, List.mapM_cons]
    rcases f a with _ | b
    · simp
    · rcases l.mapM f with _ | bs <;> simp

/-- The parser's fuel runs out exactly where one of its loops does not end. -/
theorem parseToolCalls_isSome_iff (fromStr : Text → Option Json) (text : Text)
    (format : ToolFormat) :
    (parseToolCalls fromStr text format).isSome ↔ ¬ HoldsStuckCall text format := by
  rw [parseToolCalls_eq, scanCalls, Option.isSome_map, mapM_isSome_iff]
  cases format with
  | json => exact ⟨fun _ => id, fun _ _ _ => rfl⟩
  | separated => exact ⟨fun _ => id, fun _ _ _ => rfl⟩
  | delimited callOpen nameClose argOpen argNameClose argClose callClose =>
    -- the reader is stuck in a body with a name, and something behind it
    have hRead : ∀ body, (readDelimitedBody nameClose argOpen argNameClose argClose body).isSome ↔
        ∀ nameEnd, find nameClose body = some nameEnd →
          ArgsAdvance argOpen argNameClose argClose ∨
            body.drop (nameEnd + nameClose.length) = [] := by
      intro body
      unfold readDelimitedBody
      rcases find nameClose body with _ | nameEnd
      · simp
      · dsimp only
        rw [Option.isSome_map, delimitedArgs_isSome_iff]
        simp
    unfold HoldsStuckCall ToolFormat.readBody
    constructor
    · rintro hSome ⟨hSpans, body, hBody, nameEnd, hName, hRest⟩
      rcases (hRead body).mp (hSome body hBody) nameEnd hName with hAdvance | hNil
      · exact hSpans hAdvance
      · exact hRest hNil
    · intro hNone body hBody
      refine (hRead body).mpr fun nameEnd hName => ?_
      by_contra hStuck
      rw [not_or] at hStuck
      exact hNone ⟨hStuck.1, body, hBody, nameEnd, hName, hStuck.2⟩

/-- **Termination of the parser.** Every loop of a parse ends, and every iteration
that does not end its loop shortens the text, exactly when the parse does not walk
the arguments of a call under three empty argument spans. -/
theorem parseToolCalls_terminates_iff (fromStr : Text → Option Json) (text : Text)
    (format : ToolFormat) :
    ((parseToolCalls fromStr text format).isSome ↔ ¬ HoldsStuckCall text format) ∧
      (EveryLoop Loop.Ends text format ↔ ¬ HoldsStuckCall text format) ∧
      (EveryLoop (fun body => Loop.Shrinks body textLeft) text format ↔
        ¬ HoldsStuckCall text format) := by
  have hEnds : ∀ {ρ : Type} {body : Text × ρ → Loop.Turn (Text × ρ) ρ} {s : Text × ρ},
      Loop.Shrinks body textLeft s → Loop.Ends body s :=
    fun hShrinks => ⟨_, hShrinks.iterate_isSome (Nat.lt_succ_self _)⟩
  refine ⟨parseToolCalls_isSome_iff .., everyLoop_iff _ ?_ ?_ ?_ .., everyLoop_iff _ ?_ ?_ ?_ ..⟩
  · exact fun callOpen callClose text => hEnds (scanTurn_shrinks callOpen callClose text [])
  · exact fun nameClose valueOpen close sep args =>
      hEnds (splitTurn_shrinks nameClose valueOpen close sep args [])
  · exact fun _ _ _ args => argTurn_ends_iff args []
  · exact fun callOpen callClose text => scanTurn_shrinks callOpen callClose text []
  · exact fun nameClose valueOpen close sep args =>
      splitTurn_shrinks nameClose valueOpen close sep args []
  · exact fun _ _ _ args => argTurn_shrinks_iff args []

/-- A host's format with three empty argument spans, and the text of one call. -/
def emptySpans : ToolFormat :=
  .delimited "<call>".toList ">".toList [] [] [] "</call>".toList

/-- The parser does not come back from this call. -/
theorem emptySpans_diverge :
    ¬ ∀ (fromStr : Text → Option Json) (text : Text) (format : ToolFormat),
      (parseToolCalls fromStr text format).isSome ∧
        EveryLoop (fun body => Loop.Shrinks body textLeft) text format := by
  intro h
  have hSome := (h (fun _ => none) "<call>ls>x</call>".toList emptySpans).1
  revert hSome
  decide

end Rampipe
