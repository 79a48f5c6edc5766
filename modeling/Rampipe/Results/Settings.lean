import Rampipe.Model.Settings
import Mathlib.Data.Char
import Mathlib.Data.List.Lex

/-!
# Rampipe — which settings a model gets

A key stands for a model, and a model ships as many files, in any directory. What a path is
given depends on its last component alone, and on the one key that is the longest of those
in it.

* `fileName_dir`      — the last component of a path, wherever it lies.
* `maxByKey_eq_some_iff` — what a search for the last maximum finds.
* `entryFor_longest`  — the entry of a file, by its name.
-/

namespace Rampipe

open Text ListSearch

/-! ## File names -/

/-- A name that a directory entry can have. -/
structure PlainName (name : Text) : Prop where
  slash : '/' ∉ name
  ne_nil : name ≠ []
  ne_dot : name ≠ ['.']
  ne_dots : name ≠ ['.', '.']

/-- A name behind a slash is a component of its own. -/
theorem splitOn_dir (dir : Path) {name : Text} (hSlash : '/' ∉ name) :
    (dir ++ '/' :: name).splitOn '/' = dir.splitOn '/' ++ [name] := by
  have hCut := List.splitOnP_append_cons (p := (· == '/')) dir name (beq_self_eq_true '/')
  rw [List.splitOn_eq_splitOnP, hCut, ← List.splitOn_eq_splitOnP, ← List.splitOn_eq_splitOnP,
    List.splitOn_eq_singleton hSlash]

/-- A plain name is the file's, wherever it lies. -/
theorem fileName_dir (dir : Path) {name : Text} (hName : PlainName name) :
    fileName (dir ++ '/' :: name) = some name := by
  unfold fileName
  rw [splitOn_dir dir hName.slash, List.filter_append,
    List.filter_cons_of_pos (by simp [hName.ne_nil, hName.ne_dot]), List.filter_nil,
    List.getLast?_concat]
  split
  · rename_i hDots
    exact absurd (Option.some.inj hDots) hName.ne_dots
  · rfl

/-! ## The last maximum -/

section

variable {α : Type} {key : α → Nat}

/-- The last of the maxima is found. -/
theorem maxByKey_snoc (key : α → Nat) (l : List α) (a : α) :
    (maxByKey key l = none ∧ maxByKey key (l ++ [a]) = some a) ∨
    ∃ b, maxByKey key l = some b ∧
      maxByKey key (l ++ [a]) = if key b ≤ key a then some a else some b := by
  unfold maxByKey
  rw [List.foldl_append]
  cases l.foldl _ none with
  | none => exact .inl ⟨rfl, rfl⟩
  | some b => exact .inr ⟨b, rfl, rfl⟩

/-- Nothing is found where there is nothing. -/
theorem maxByKey_eq_none_iff {l : List α} : maxByKey key l = none ↔ l = [] := by
  constructor
  · intro h
    rcases List.eq_nil_or_concat l with rfl | ⟨before, last, rfl⟩
    · rfl
    · rcases maxByKey_snoc key before last with ⟨-, hLast⟩ | ⟨b, -, hLast⟩
      · rw [List.concat_eq_append, hLast] at h
        cases h
      · rw [List.concat_eq_append, hLast] at h
        split at h <;> cases h
  · rintro rfl
    rfl

/-- It is a member with none larger, and none as large behind it. -/
theorem maxByKey_some {l : List α} {a : α} (h : maxByKey key l = some a) :
    ∃ before behind, l = before ++ a :: behind ∧ (∀ b ∈ before, key b ≤ key a) ∧
      ∀ b ∈ behind, key b < key a := by
  -- on the list, from its end: the last member takes over or is passed
  induction l using List.reverseRecOn generalizing a with
  | nil => cases h
  | append_singleton l last ih =>
    rcases maxByKey_snoc key l last with ⟨hNone, hLast⟩ | ⟨b, hSome, hLast⟩
    · rw [hLast] at h
      cases h
      rw [maxByKey_eq_none_iff.mp hNone]
      exact ⟨[], [], rfl, by simp, by simp⟩
    · obtain ⟨before, behind, rfl, hBefore, hBehind⟩ := ih hSome
      rw [hLast] at h
      split at h
      · rename_i hLarger
        cases h
        refine ⟨before ++ b :: behind, [], rfl, ?_, by simp⟩
        intro c hc
        rcases List.mem_append.mp hc with hc | hc
        · exact (hBefore c hc).trans hLarger
        · rcases List.mem_cons.mp hc with rfl | hc
          · exact hLarger
          · exact (hBehind c hc).le.trans hLarger
      · rename_i hSmaller
        cases h
        refine ⟨before, behind ++ [last], by simp, hBefore, ?_⟩
        intro c hc
        rcases List.mem_append.mp hc with hc | hc
        · exact hBehind c hc
        · rw [List.mem_singleton.mp hc]
          omega

section

variable {κ ν : Type} [LinearOrder κ] {l : List (κ × ν)}

/-- A key that ascends strictly has one value. -/
theorem value_unique (hAscending : l.Pairwise fun a b => a.1 < b.1) {k : κ} {v w : ν}
    (hv : (k, v) ∈ l) (hw : (k, w) ∈ l) : v = w := by
  have hNodup : (l.map Prod.fst).Nodup := List.pairwise_map.mpr (hAscending.imp ne_of_lt)
  exact congrArg Prod.snd (List.inj_on_of_nodup_map hNodup hv hw rfl)

/-- Where the keys ascend strictly, the last maximum is the one with the greatest key among
the longest. -/
theorem maxByKey_eq_some_iff (size : κ → Nat) (hAscending : l.Pairwise fun a b => a.1 < b.1)
    {k : κ} {v : ν} :
    maxByKey (fun entry => size entry.1) l = some (k, v) ↔
      (k, v) ∈ l ∧ ∀ other ∈ l, size other.1 < size k ∨ size other.1 = size k ∧ other.1 ≤ k := by
  have hMax : ∀ {k : κ} {v : ν}, maxByKey (fun entry => size entry.1) l = some (k, v) →
      (k, v) ∈ l ∧ ∀ other ∈ l, size other.1 < size k ∨ size other.1 = size k ∧ other.1 ≤ k := by
    intro k v h
    obtain ⟨before, behind, rfl, hBefore, hBehind⟩ := maxByKey_some h
    refine ⟨by simp, ?_⟩
    intro other hOther
    rcases List.mem_append.mp hOther with hOther | hOther
    · have hLess : other.1 < k := (List.pairwise_append.mp hAscending).2.2 other hOther (k, v)
        List.mem_cons_self
      rcases (hBefore other hOther).lt_or_eq with hSmaller | hSame
      · exact .inl hSmaller
      · exact .inr ⟨hSame, hLess.le⟩
    · rcases List.mem_cons.mp hOther with rfl | hOther
      · exact .inr ⟨rfl, le_rfl⟩
      · exact .inl (hBehind other hOther)
  refine ⟨hMax, ?_⟩
  rintro ⟨hMem, hLargest⟩
  cases hFound : maxByKey (fun entry => size entry.1) l with
  | none =>
    rw [maxByKey_eq_none_iff.mp hFound] at hMem
    cases hMem
  | some found =>
    -- what was found is as large, and so it is the same
    obtain ⟨k', v'⟩ := found
    obtain ⟨hMem', hLargest'⟩ := hMax hFound
    have hKey : k' = k := by
      have hOver := hLargest _ hMem'
      have hUnder := hLargest' _ hMem
      dsimp only at hOver hUnder
      rcases hOver with hLess | ⟨hSame, hLe⟩
      · omega
      · rcases hUnder with hLess' | ⟨-, hLe'⟩
        · omega
        · exact le_antisymm hLe hLe'
    subst hKey
    rw [value_unique hAscending hMem' hMem]

end

end

/-! ## Entries -/

/-- The key that is looked for in a name is the longest of those in it. -/
theorem longest_iff (settings : ModelSettings) (name : Text) (entry : Entry) :
    ((maxByKey (fun model => (asBytes model.1).length)
      (settings.models.filter fun model => contains name model.1)).map Prod.snd).or
        settings.default = some entry ↔
      (∃ key, (key, entry) ∈ settings.models ∧ key <:+: name ∧
        ∀ other ∈ settings.models, other.1 <:+: name →
          (asBytes other.1).length < (asBytes key).length ∨
            (asBytes other.1).length = (asBytes key).length ∧ other.1 ≤ key) ∨
      (∀ other ∈ settings.models, ¬ other.1 <:+: name) ∧ settings.default = some entry := by
  have hAscending : (settings.models.filter fun model => contains name model.1).Pairwise
      fun a b => a.1 < b.1 := settings.ascending.filter _
  have hMem : ∀ model, model ∈ settings.models.filter (fun model => contains name model.1) ↔
      model ∈ settings.models ∧ model.1 <:+: name := by
    intro model
    rw [List.mem_filter, contains_iff]
  let size : Text → Nat := fun key => (asBytes key).length
  cases hFound : maxByKey (fun model : Text × Entry => size model.1)
      (settings.models.filter fun model => contains name model.1) with
  | none =>
    -- no key is in the name, so the default decides
    have hNone : ∀ other ∈ settings.models, ¬ other.1 <:+: name := by
      intro other hOther hInside
      have hHere := (hMem other).mpr ⟨hOther, hInside⟩
      rw [maxByKey_eq_none_iff.mp hFound] at hHere
      cases hHere
    constructor
    · intro hDefault
      exact .inr ⟨hNone, hDefault⟩
    · rintro (⟨key, hKey, hInside, -⟩ | ⟨-, hDefault⟩)
      · exact absurd hInside (hNone _ hKey)
      · exact hDefault
  | some model =>
    obtain ⟨key, found⟩ := model
    obtain ⟨hHere, hLargest⟩ := (maxByKey_eq_some_iff size hAscending).mp hFound
    obtain ⟨hKey, hInside⟩ := (hMem _).mp hHere
    have hAll : ∀ other ∈ settings.models, other.1 <:+: name →
        (asBytes other.1).length < (asBytes key).length ∨
          (asBytes other.1).length = (asBytes key).length ∧ other.1 ≤ key :=
      fun other hOther hIn => hLargest other ((hMem other).mpr ⟨hOther, hIn⟩)
    constructor
    · rintro ⟨⟩
      exact .inl ⟨key, hKey, hInside, hAll⟩
    · rintro (⟨key', hKey', hInside', hAll'⟩ | ⟨hNone, -⟩)
      · -- both are what the search finds
        have hFound' := (maxByKey_eq_some_iff size hAscending (k := key') (v := entry)).mpr
          ⟨(hMem _).mpr ⟨hKey', hInside'⟩, fun other hOther =>
            hAll' other ((hMem other).mp hOther).1 ((hMem other).mp hOther).2⟩
        rw [hFound] at hFound'
        cases hFound'
        rfl
      · exact absurd hInside (hNone _ hKey)

/-- **The longest match wins, wherever the file lies.** A path whose last component is a
name has the settings of the one key that is in the name and longer than every other such
key, the greatest of them where several are as long; without one they are the default's. A
path without a name has none. -/
theorem entryFor_longest (settings : ModelSettings) (path : Path) (entry : Entry) :
    settings.entryFor path = some entry ↔ ∃ name, fileName path = some name ∧
      ((∃ key, (key, entry) ∈ settings.models ∧ key <:+: name ∧
        ∀ other ∈ settings.models, other.1 <:+: name →
          (asBytes other.1).length < (asBytes key).length ∨
            (asBytes other.1).length = (asBytes key).length ∧ other.1 ≤ key) ∨
      (∀ other ∈ settings.models, ¬ other.1 <:+: name) ∧ settings.default = some entry) := by
  unfold ModelSettings.entryFor
  cases hName : fileName path with
  | none => simp
  | some name =>
    simp only [Option.some.injEq, exists_eq_left']
    exact longest_iff settings name entry

/-- What a card says that only bounds a turn. -/
def shortEntry (maxNewTokens : Int) : Entry where
  temperature := none
  topK := none
  topP := none
  minP := none
  seed := none
  repeatPenalty := 1
  frequencyPenalty := 0
  presencePenalty := 0
  penaltyLastN := 64
  maxNewTokens := some maxNewTokens

/-- A family and one model of it. -/
def familySettings : ModelSettings where
  default := none
  models := [("q".toList, shortEntry 64), ("q-1".toList, shortEntry 128)]
  ascending := by decide

/-- The longer key wins over the one it starts with. -/
theorem familySettings_longest :
    familySettings.entryFor ("/m".toList ++ '/' :: "q-1.gguf".toList) = some (shortEntry 128) :=
  (entryFor_longest familySettings _ (shortEntry 128)).mpr ⟨"q-1.gguf".toList,
    fileName_dir _ ⟨by decide, by decide, by decide, by decide⟩,
    .inl ⟨"q-1".toList, by simp [familySettings], by decide, by
      intro other hOther hIn
      simp only [familySettings, List.mem_cons, List.not_mem_nil, or_false] at hOther
      rcases hOther with rfl | rfl
      · exact .inl (by decide)
      · exact .inr ⟨rfl, le_rfl⟩⟩⟩

end Rampipe
