import Mathlib.Data.List.Basic
import Mathlib.Data.List.Infix

/-!
# Searching a list for a pattern

First and last occurrences of a pattern in a list, the relation "the pattern
completes its first occurrence exactly here", occurrences across the seam of two
lists, and their longest common prefix. Nothing in this module knows what the lists hold.

A scanner that splits its input at the first occurrence of a delimiter reads
back what a writer put there exactly when `EndsFirst` holds of the delimiter
and the text before it. `find_append` is the rule such proofs use.
-/

namespace ListSearch

variable {α : Type*} [DecidableEq α]

/-! ## Searching -/

/-- Offset of the first occurrence of `pat`. -/
def find (pat : List α) : List α → Option Nat
  | [] => if pat = [] then some 0 else none
  | c :: cs => if pat.isPrefixOf (c :: cs) then some 0 else (find pat cs).map (· + 1)

/-- Offset of the last occurrence of `pat`. -/
def rfind (pat : List α) : List α → Option Nat
  | [] => if pat = [] then some 0 else none
  | c :: cs =>
    match rfind pat cs with
    | some i => some (i + 1)
    | none => if pat.isPrefixOf (c :: cs) then some 0 else none

/-- `pat` occurs in `s`. -/
def contains (s pat : List α) : Bool := (find pat s).isSome

/-- What follows `pat`, when `s` starts with it. -/
def stripPrefix (pat s : List α) : Option (List α) :=
  if pat.isPrefixOf s then some (s.drop pat.length) else none

/-- What precedes `pat`, when `s` ends with it. -/
def stripSuffix (pat s : List α) : Option (List α) :=
  if pat.isSuffixOf s then some (s.take (s.length - pat.length)) else none

/-- The half-open slice `[i, j)`, when it is one. -/
def slice (s : List α) (i j : Nat) : Option (List α) :=
  if i ≤ j ∧ j ≤ s.length then some ((s.take j).drop i) else none

/-- What a text begins with is found at its start. -/
theorem find_of_isPrefix {pat s : List α} (h : pat <+: s) : find pat s = some 0 := by
  cases s with
  | nil => simp [find, List.prefix_nil.mp h]
  | cons c cs => simp [find, List.isPrefixOf_iff_prefix.mpr h]

/-- What it does not begin with is looked for behind its first element. -/
theorem find_cons_of_not_isPrefix {pat cs : List α} {c : α} (h : ¬ pat <+: c :: cs) :
    find pat (c :: cs) = (find pat cs).map (· + 1) := by
  have : pat.isPrefixOf (c :: cs) = false := by
    rw [Bool.eq_false_iff, ne_eq, List.isPrefixOf_iff_prefix]
    exact h
  simp [find, this]

/-- `find` returns the least offset at which the pattern starts. -/
theorem find_eq_some_iff {pat s : List α} {i : Nat} :
    find pat s = some i ↔
      i ≤ s.length ∧ pat <+: s.drop i ∧ ∀ j < i, ¬ pat <+: s.drop j := by
  induction s generalizing i with
  | nil =>
    -- an empty list holds the empty pattern only
    by_cases hp : pat = []
    · subst hp
      simp only [find, List.length_nil, Nat.le_zero, List.drop_nil, List.nil_prefix, not_true]
      constructor
      · rintro ⟨⟩
        exact ⟨rfl, trivial, fun j hj => absurd hj (Nat.not_lt_zero j)⟩
      · rintro ⟨rfl, -, -⟩
        rfl
    · simp only [find, if_neg hp, List.drop_nil, List.prefix_nil]
      constructor
      · rintro ⟨⟩
      · rintro ⟨-, h, -⟩
        exact absurd h hp
  | cons c cs ih =>
    by_cases hp : pat <+: c :: cs
    · rw [find_of_isPrefix hp]
      constructor
      · rintro ⟨⟩
        exact ⟨Nat.zero_le _, hp, fun j hj => absurd hj (Nat.not_lt_zero j)⟩
      · rintro ⟨-, -, hMin⟩
        rcases Nat.eq_zero_or_pos i with rfl | hi
        · rfl
        · exact absurd hp (hMin 0 hi)
    · rw [find_cons_of_not_isPrefix hp]
      cases i with
      | zero =>
        constructor
        · intro h
          cases hf : find pat cs <;> simp [hf] at h
        · rintro ⟨-, h, -⟩
          exact absurd h hp
      | succ i =>
        have hStep : (find pat cs).map (· + 1) = some (i + 1) ↔ find pat cs = some i := by
          cases find pat cs <;> simp
        rw [hStep, ih]
        simp only [List.length_cons, List.drop_succ_cons, Nat.add_le_add_iff_right]
        refine and_congr_right fun _ => and_congr_right fun _ => ?_
        constructor
        · intro h j hj
          cases j with
          | zero => exact hp
          | succ j => exact h j (by omega)
        · intro h j hj
          exact h (j + 1) (by omega)

/-- What is not found does not occur. -/
theorem find_eq_none_iff {pat s : List α} : find pat s = none ↔ ¬ pat <:+: s := by
  induction s with
  | nil =>
    by_cases hp : pat = [] <;> simp [find, hp]
  | cons c cs ih =>
    by_cases hp : pat <+: c :: cs
    · simp [find_of_isPrefix hp, hp.isInfix]
    · rw [find_cons_of_not_isPrefix hp, Option.map_eq_none_iff, ih, List.infix_cons_iff]
      tauto

/-- `contains` decides whether a word occurs. -/
theorem contains_iff {s pat : List α} : contains s pat = true ↔ pat <:+: s := by
  rw [contains, ← not_iff_not, Bool.not_eq_true, Option.isSome_eq_false_iff,
    Option.isNone_iff_eq_none, find_eq_none_iff]

/-- A found offset splits the list around the pattern. -/
theorem append_of_find {pat s : List α} {i : Nat} (h : find pat s = some i) :
    s = s.take i ++ pat ++ s.drop (i + pat.length) := by
  obtain ⟨-, ⟨rest, hRest⟩, -⟩ := find_eq_some_iff.mp h
  have hDrop : s.drop (i + pat.length) = rest := by
    rw [← List.drop_drop, ← hRest, List.drop_left]
  rw [hDrop, List.append_assoc, hRest, List.take_append_drop]

/-- What is found lies inside the text. -/
theorem find_add_length_le {pat s : List α} {i : Nat} (h : find pat s = some i) :
    i + pat.length ≤ s.length := by
  obtain ⟨hi, hPre, -⟩ := find_eq_some_iff.mp h
  have := hPre.length_le
  rw [List.length_drop] at this
  omega

/-- What occurs is found. -/
theorem find_isSome_of_isInfix {pat s : List α} (h : pat <:+: s) : ∃ i, find pat s = some i := by
  cases hf : find pat s with
  | none => exact absurd h (find_eq_none_iff.mp hf)
  | some i => exact ⟨i, rfl⟩

/-! ## Last occurrence -/

/-- From behind nothing is found either where a word does not occur. -/
theorem rfind_eq_none_iff {pat s : List α} : rfind pat s = none ↔ ¬ pat <:+: s := by
  induction s with
  | nil =>
    by_cases hp : pat = [] <;> simp [rfind, hp]
  | cons c cs ih =>
    rw [List.infix_cons_iff, not_or, ← ih, rfind]
    cases hCs : rfind pat cs with
    | some i => simp
    | none =>
      by_cases hp : pat <+: c :: cs
      · simp [hp]
      · simp [hp]

/-- What is found from behind is the last occurrence. -/
theorem rfind_spec {pat s : List α} {i : Nat} (h : rfind pat s = some i) :
    i ≤ s.length ∧ pat <+: s.drop i ∧ ∀ j ≤ s.length, i < j → ¬ pat <+: s.drop j := by
  induction s generalizing i with
  | nil =>
    -- an empty list holds the empty pattern only
    rw [rfind] at h
    split at h
    · rename_i hp
      cases h
      exact ⟨Nat.le_refl _, hp ▸ List.nil_prefix, fun j hj hLt => absurd hj (Nat.not_le.mpr hLt)⟩
    · cases h
  | cons c cs ih =>
    rw [rfind] at h
    cases hCs : rfind pat cs with
    | some k =>
      -- an occurrence behind the first character is later than one at it
      rw [hCs] at h
      cases h
      obtain ⟨hk, hPre, hMax⟩ := ih hCs
      refine ⟨Nat.succ_le_succ hk, hPre, ?_⟩
      intro j hj hLt
      cases j with
      | zero => omega
      | succ j => exact hMax j (Nat.le_of_succ_le_succ hj) (Nat.lt_of_succ_lt_succ hLt)
    | none =>
      rw [hCs] at h
      have hNone := rfind_eq_none_iff.mp hCs
      by_cases hp : pat <+: c :: cs
      · rw [if_pos (List.isPrefixOf_iff_prefix.mpr hp)] at h
        cases h
        refine ⟨Nat.zero_le _, hp, ?_⟩
        intro j _ hLt hPre
        cases j with
        | zero => omega
        | succ j => exact hNone (hPre.isInfix.trans (List.drop_suffix j cs).isInfix)
      · rw [if_neg (by simpa [List.isPrefixOf_iff_prefix] using hp)] at h
        cases h

/-- `rfind` returns the greatest offset at which the pattern starts. -/
theorem rfind_eq_some_iff {pat s : List α} {i : Nat} :
    rfind pat s = some i ↔
      i ≤ s.length ∧ pat <+: s.drop i ∧ ∀ j ≤ s.length, i < j → ¬ pat <+: s.drop j := by
  constructor
  · exact rfind_spec
  · rintro ⟨hi, hPre, hMax⟩
    cases hFound : rfind pat s with
    | none =>
      exact absurd (hPre.isInfix.trans (List.drop_suffix i s).isInfix)
        (rfind_eq_none_iff.mp hFound)
    | some k =>
      -- two last occurrences are the same one
      obtain ⟨hk, hPre', hMax'⟩ := rfind_spec hFound
      have hLe : ¬ i < k := fun hLt => hMax k hk hLt hPre'
      have hGe : ¬ k < i := fun hLt => hMax' i hi hLt hPre
      rw [Nat.le_antisymm (Nat.le_of_not_lt hLe) (Nat.le_of_not_lt hGe)]

/-! ## Skipping -/

/-- Text that cannot start the pattern is skipped whole. -/
theorem find_skip {c : α} {pat s : List α} (h : c ∉ s) (rest : List α) :
    find (c :: pat) (s ++ rest) = (find (c :: pat) rest).map (· + s.length) := by
  induction s with
  | nil => simp
  | cons d s ih =>
    rw [List.mem_cons, not_or] at h
    have hNot : ¬ c :: pat <+: d :: (s ++ rest) := by
      intro hPre
      exact h.1 (List.cons_prefix_cons.mp hPre).1
    rw [List.cons_append, find_cons_of_not_isPrefix hNot, ih h.2, Option.map_map]
    rfl

/-- A word whose first element does not occur is not found. -/
theorem find_cons_eq_none {c : α} {pat s : List α} (h : c ∉ s) : find (c :: pat) s = none := by
  have hSkip : find (c :: pat) (s ++ []) = _ := find_skip h []
  rw [List.append_nil] at hSkip
  rw [hSkip]
  simp [find]

/-- Nor is an element that does not occur. -/
theorem rfind_singleton_eq_none {c : α} {s : List α} (h : c ∉ s) : rfind [c] s = none := by
  induction s with
  | nil => simp [rfind]
  | cons d s ih =>
    rw [List.mem_cons, not_or] at h
    simp [rfind, ih h.2, h.1]

/-- The last occurrence of a character is the one with none after it. -/
theorem rfind_singleton_append {c : α} {t : List α} (h : c ∉ t) (s : List α) :
    rfind [c] (s ++ c :: t) = some s.length := by
  induction s with
  | nil => simp [rfind, rfind_singleton_eq_none h]
  | cons d s ih => simp [rfind, ih]

/-- An element is found behind a text without it. -/
theorem find_singleton_append {c : α} {s : List α} (h : c ∉ s) (t : List α) :
    find [c] (s ++ c :: t) = some s.length := by
  rw [find_skip h, find_of_isPrefix (by simp)]
  simp

/-! ## Across a seam -/

/-- `pat` begins in `s` and ends in `t`, where `t` follows `s`. -/
def Straddles (pat s t : List α) : Prop :=
  ∃ begun rest, pat = begun ++ rest ∧ begun ≠ [] ∧ rest ≠ [] ∧ begun <:+ s ∧ rest <+: t

instance (pat s t : List α) : Decidable (Straddles pat s t) :=
  decidable_of_iff
    (∃ n < pat.length, 0 < n ∧ pat.take n <:+ s ∧ pat.drop n <+: t) (by
      constructor
      · rintro ⟨n, hn, hPos, hs, ht⟩
        refine ⟨_, _, (List.take_append_drop n pat).symm, ?_, ?_, hs, ht⟩
        · rw [← List.length_pos_iff, List.length_take]
          omega
        · rw [← List.length_pos_iff, List.length_drop]
          omega
      · rintro ⟨begun, rest, rfl, hBegun, hRest, hs, ht⟩
        have hPos := List.length_pos_iff.mpr hBegun
        have hPos' := List.length_pos_iff.mpr hRest
        refine ⟨begun.length, ?_, hPos, ?_, ?_⟩
        · rw [List.length_append]
          omega
        · rwa [List.take_left]
        · rwa [List.drop_left])

omit [DecidableEq α] in
/-- What occurs in two lists joined occurs in one of them, or across the seam. -/
theorem isInfix_append_iff {pat s t : List α} :
    pat <:+: s ++ t ↔ pat <:+: s ∨ pat <:+: t ∨ Straddles pat s t := by
  constructor
  · rintro ⟨front, back, hSplit⟩
    rcases List.append_eq_append_iff.mp hSplit with ⟨y, rfl, -⟩ | ⟨y, hy, rfl⟩
    · exact Or.inl ⟨front, y, rfl⟩
    -- it ends behind the seam
    rcases List.append_eq_append_iff.mp hy with ⟨z, rfl, rfl⟩ | ⟨z, rfl, rfl⟩
    · by_cases hz : z = []
      · exact Or.inr (Or.inl ⟨[], back, by simp [hz]⟩)
      by_cases hRest : y = []
      · exact Or.inl ⟨front, [], by simp [hRest]⟩
      · exact Or.inr (Or.inr ⟨z, y, rfl, hz, hRest, List.suffix_append _ _, List.prefix_append _ _⟩)
    · exact Or.inr (Or.inl ⟨z, back, rfl⟩)
  · rintro (h | h | ⟨begun, rest, rfl, -, -, ⟨front, rfl⟩, ⟨back, rfl⟩⟩)
    · exact h.trans (List.prefix_append s t).isInfix
    · exact h.trans (List.suffix_append s t).isInfix
    · exact ⟨front, back, by simp only [List.append_assoc]⟩

/-! ## Completing the first occurrence -/

/-- Writing `pat` after `s` completes the first occurrence of `pat`: there is
none inside `s`, and none that starts in `s` and runs into the pattern. -/
def EndsFirst (pat s : List α) : Prop := find pat (s ++ pat) = some s.length

instance (pat s : List α) : Decidable (EndsFirst pat s) := by
  unfold EndsFirst
  infer_instance

/-- A word ends first where it stands at no position before. -/
theorem endsFirst_iff {pat s : List α} :
    EndsFirst pat s ↔ ∀ j < s.length, ¬ pat <+: (s ++ pat).drop j := by
  rw [EndsFirst, find_eq_some_iff]
  constructor
  · exact fun h => h.2.2
  · exact fun h => ⟨by simp, by simp, h⟩

/-- In front of nothing it does. -/
@[simp] theorem endsFirst_nil (pat : List α) : EndsFirst pat [] :=
  endsFirst_iff.mpr fun j hj => absurd hj (Nat.not_lt_zero j)

/-- The reading rule: whatever follows, the first occurrence is the one written. -/
theorem find_append {pat s : List α} (h : EndsFirst pat s) (rest : List α) :
    find pat (s ++ (pat ++ rest)) = some s.length := by
  rw [endsFirst_iff] at h
  refine find_eq_some_iff.mpr ⟨by simp, by simp, fun j hj hPre => h j hj ?_⟩
  -- an occurrence that starts inside `s` ends before the written pattern does
  have hFits : pat.length ≤ ((s ++ pat).drop j).length := by
    simp only [List.length_drop, List.length_append]
    omega
  rw [← List.append_assoc, List.drop_append_of_le_length (by simp; omega)] at hPre
  exact List.prefix_of_prefix_length_le hPre (List.prefix_append _ _) hFits

/-- A found offset is where a piece ends that completes the pattern nowhere else. -/
theorem find_eq_some_iff_append {pat s : List α} {i : Nat} :
    find pat s = some i ↔
      ∃ front rest, s = front ++ (pat ++ rest) ∧ front.length = i ∧ EndsFirst pat front := by
  constructor
  · intro h
    have hSplit := append_of_find h
    have hLe := find_add_length_le h
    refine ⟨s.take i, s.drop (i + pat.length), ?_, ?_, ?_⟩
    · rw [← List.append_assoc]
      exact hSplit
    · rw [List.length_take]
      omega
    · have hMin := (find_eq_some_iff.mp h).2.2
      refine endsFirst_iff.mpr fun j hj hPre => hMin j ?_ ?_
      · rw [List.length_take] at hj
        omega
      · rw [hSplit]
        rw [List.drop_append_of_le_length (by simp at hj ⊢; omega)]
        exact hPre.trans (List.prefix_append _ _)
  · rintro ⟨front, rest, rfl, rfl, hEnds⟩
    exact find_append hEnds rest

/-! ## Words between two marks -/

/-- A word with a mark in front of it and one behind it. -/
def framed (front back : α) (word : List α) : List α := front :: (word ++ [back])

section Framed

variable {front back mark : α} {word other span rest : List α}

omit [DecidableEq α] in
/-- The marks make a word two longer. -/
theorem length_framed : (framed front back word).length = word.length + 2 := by
  rw [framed, List.length_cons, List.length_append, List.length_singleton]

omit [DecidableEq α] in
/-- A word ends where the mark behind it first stands. -/
theorem eq_of_prefix_mark (hWord : back ∉ word) (hOther : back ∉ other)
    (h : word ++ [back] <+: other ++ back :: rest) : word = other := by
  induction word generalizing other with
  | nil =>
    cases other with
    | nil => rfl
    | cons a other =>
      obtain ⟨rfl, -⟩ := List.cons_prefix_cons.mp h
      exact absurd List.mem_cons_self hOther
  | cons a word ih =>
    rw [List.mem_cons, not_or] at hWord
    cases other with
    | nil =>
      obtain ⟨rfl, -⟩ := List.cons_prefix_cons.mp h
      exact absurd rfl hWord.1
    | cons b other =>
      rw [List.mem_cons, not_or] at hOther
      obtain ⟨rfl, hRest⟩ := List.cons_prefix_cons.mp h
      rw [ih hWord.2 hOther.2 hRest]

/-- Behind the front mark, the search for a word passes over another one. -/
theorem find_skip_word (hWord : back ∉ word) (hOther : back ∉ other) (hNe : word ≠ other)
    (hFront : front ∉ other) (rest : List α) :
    find (framed front back word) (front :: (other ++ back :: rest)) =
      (find (framed front back word) (back :: rest)).map (· + (other.length + 1)) := by
  have hNot : ¬ framed front back word <+: front :: (other ++ back :: rest) := fun hPre =>
    hNe (eq_of_prefix_mark hWord hOther (List.cons_prefix_cons.mp hPre).2)
  rw [find_cons_of_not_isPrefix hNot, framed, find_skip hFront, Option.map_map]
  rfl

/-- Marks that differ: the search passes over a framed word. -/
theorem find_skip_framed (hMarks : front ≠ back) (hWord : back ∉ word) (hOther : back ∉ other)
    (hNe : word ≠ other) (hFront : front ∉ other) (rest : List α) :
    find (framed front back word) (framed front back other ++ rest) =
      (find (framed front back word) rest).map (· + (framed front back other).length) := by
  have hAssoc : framed front back other ++ rest = front :: (other ++ back :: rest) := by
    simp [framed]
  have hBack : find (framed front back word) ([back] ++ rest) =
      (find (framed front back word) rest).map (· + 1) := find_skip (by simpa using hMarks) rest
  rw [List.singleton_append] at hBack
  rw [hAssoc, find_skip_word hWord hOther hNe hFront, hBack, Option.map_map, length_framed]
  refine congrFun (congrArg _ (funext fun i => ?_)) _
  show i + 1 + (other.length + 1) = i + (other.length + 2)
  omega

/-- One mark on both sides: the search passes over a framed word and the span up to the
next one, when neither is the word. -/
theorem find_skip_framed_span (hWord : mark ∉ word) (hOther : mark ∉ other) (hSpan : mark ∉ span)
    (hNe : word ≠ other) (hNe' : word ≠ span) (next rest : List α) :
    find (framed mark mark word) (framed mark mark other ++ (span ++ (framed mark mark next ++ rest))) =
      (find (framed mark mark word) (framed mark mark next ++ rest)).map
        (· + ((framed mark mark other).length + span.length)) := by
  have hAssoc : framed mark mark other ++ (span ++ (framed mark mark next ++ rest)) =
      mark :: (other ++ mark :: (span ++ mark :: (next ++ mark :: rest))) := by
    simp [framed]
  have hNext : mark :: (next ++ mark :: rest) = framed mark mark next ++ rest := by
    simp [framed]
  rw [hAssoc, find_skip_word hWord hOther hNe hOther, find_skip_word hWord hSpan hNe' hSpan,
    Option.map_map, length_framed, hNext]
  refine congrFun (congrArg _ (funext fun i => ?_)) _
  show i + (span.length + 1) + (other.length + 1) = i + (other.length + 2 + span.length)
  omega

/-- A framed word overlaps with no copy of itself: where it does not occur, writing it
completes its first occurrence. -/
theorem endsFirst_framed (hMarks : front ≠ back) (hWord : front ∉ word) {s : List α}
    (h : ¬ framed front back word <:+: s) : EndsFirst (framed front back word) s := by
  refine endsFirst_iff.mpr fun j hj hPre => ?_
  rw [List.drop_append_of_le_length (Nat.le_of_lt hj)] at hPre
  have hInside : ¬ framed front back word <+: s.drop j := fun hPre' =>
    h (hPre'.isInfix.trans (List.drop_suffix j s).isInfix)
  obtain ⟨a, head, hHead⟩ : ∃ a head, s.drop j = a :: head :=
    List.exists_cons_of_ne_nil (by simpa using hj)
  rcases List.prefix_or_prefix_of_prefix hPre (List.prefix_append _ _) with hPre' | ⟨tail, hTail⟩
  · exact hInside hPre'
  · -- the word would go on with a tail of its own that starts like it
    rw [← hTail, List.prefix_append_right_inj, hTail] at hPre
    cases tail with
    | nil =>
      rw [List.append_nil] at hTail
      exact hInside (hTail ▸ List.prefix_refl _)
    | cons b tail =>
      obtain ⟨rfl, -⟩ := List.cons_prefix_cons.mp hPre
      rw [hHead, List.cons_append, framed, List.cons.injEq] at hTail
      have hMem : b ∈ word ++ [back] := hTail.2 ▸ by simp
      rcases List.mem_append.mp hMem with hMem | hMem
      · exact hWord hMem
      · exact hMarks (List.mem_singleton.mp hMem)

end Framed

/-! ## Common prefixes -/

/-- The longest common prefix. -/
def commonPrefix : List α → List α → List α
  | a :: as, b :: bs => if a = b then a :: commonPrefix as bs else []
  | _, _ => []

@[simp] theorem commonPrefix_nil (b : List α) : commonPrefix [] b = [] := by
  cases b <;> rfl

/-- What two texts share begins the first. -/
theorem commonPrefix_isPrefix_left (a b : List α) : commonPrefix a b <+: a := by
  induction a generalizing b with
  | nil => simp [commonPrefix]
  | cons x as ih =>
    cases b with
    | nil => simp [commonPrefix]
    | cons y bs =>
      by_cases h : x = y
      · simpa [commonPrefix, h] using ih bs
      · simp [commonPrefix, h]

/-- They share the same either way round. -/
theorem commonPrefix_comm (a b : List α) : commonPrefix a b = commonPrefix b a := by
  induction a generalizing b with
  | nil => cases b <;> rfl
  | cons x as ih =>
    cases b with
    | nil => rfl
    | cons y bs =>
      by_cases h : x = y
      · simp [commonPrefix, h, ih]
      · simp [commonPrefix, h, Ne.symm h]

/-- So it begins the second. -/
theorem commonPrefix_isPrefix_right (a b : List α) : commonPrefix a b <+: b :=
  commonPrefix_comm a b ▸ commonPrefix_isPrefix_left b a

/-- What both begin with is shared. -/
@[simp] theorem commonPrefix_append_append (p a b : List α) :
    commonPrefix (p ++ a) (p ++ b) = p ++ commonPrefix a b := by
  induction p with
  | nil => rfl
  | cons x p ih => simp [commonPrefix, ih]

/-- Two lists split after their common prefix into tails that share nothing. -/
theorem commonPrefix_split (a b : List α) :
    ∃ s t, a = commonPrefix a b ++ s ∧ b = commonPrefix a b ++ t ∧ commonPrefix s t = [] := by
  obtain ⟨s, hs⟩ := commonPrefix_isPrefix_left a b
  obtain ⟨t, ht⟩ := commonPrefix_isPrefix_right a b
  refine ⟨s, t, hs.symm, ht.symm, ?_⟩
  have hSelf : commonPrefix a b ++ commonPrefix s t = commonPrefix a b ++ [] := by
    rw [← commonPrefix_append_append, hs, ht, List.append_nil]
  exact List.append_cancel_left hSelf

/-! ## Stripping -/

@[simp] theorem stripPrefix_append (pat s : List α) : stripPrefix pat (pat ++ s) = some s := by
  simp [stripPrefix]

/-- What is left of a text without its beginning. -/
theorem stripPrefix_eq_some_iff {pat s rest : List α} :
    stripPrefix pat s = some rest ↔ s = pat ++ rest := by
  constructor
  · intro h
    rw [stripPrefix] at h
    split at h
    · rename_i hp
      obtain ⟨t, rfl⟩ := List.isPrefixOf_iff_prefix.mp hp
      simpa using h
    · cases h
  · rintro rfl
    exact stripPrefix_append pat rest

/-- Nothing is stripped of a text that begins otherwise. -/
theorem stripPrefix_eq_none_iff {pat s : List α} : stripPrefix pat s = none ↔ ¬ pat <+: s := by
  rw [stripPrefix]
  split
  · rename_i hp
    simpa using List.isPrefixOf_iff_prefix.mp hp
  · rename_i hp
    simpa [List.isPrefixOf_iff_prefix] using hp

/-- What is left of a text without its end. -/
theorem eq_of_stripSuffix {pat s rest : List α} (h : stripSuffix pat s = some rest) :
    s = rest ++ pat := by
  rw [stripSuffix] at h
  split at h
  · rename_i hp
    obtain ⟨t, rfl⟩ := List.isSuffixOf_iff_suffix.mp hp
    simpa using h
  · cases h

@[simp] theorem stripSuffix_append (s pat : List α) : stripSuffix pat (s ++ pat) = some s := by
  simp [stripSuffix]

omit [DecidableEq α] in
/-- The slice between two written pieces. -/
theorem slice_append (a b c : List α) {i j : Nat} (hi : i = a.length)
    (hj : j = a.length + b.length) : slice (a ++ (b ++ c)) i j = some b := by
  subst hi hj
  rw [slice, if_pos (by simp), ← List.append_assoc, ← List.length_append, List.take_left,
    List.drop_left]

end ListSearch
