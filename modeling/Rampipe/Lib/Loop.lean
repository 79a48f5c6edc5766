import Mathlib.Logic.Relation

/-!
# Loops and runs

Two ways a program takes step after step, over arbitrary states.

* A **loop** repeats its body until the body leaves. `Loop.iterate` runs it on
  fuel; `iterate_isSome` says that a measure which every turn decreases is
  enough fuel, `not_ends` that an invariant under which the body never leaves is
  enough to run forever, and `Visits.induction` is the rule for an invariant of
  the body: it holds in every state that a turn starts from.
  `iterate_map` carries a loop over to a view of its states.
* A **run** takes a system through a list of inputs, each admitted by a guard on
  the state before it. `Reaches.induction` is the invariant rule, and
  `Reaches.simulates` the forward-simulation rule: when every guarded step is
  matched by an abstract path, every run is. Where a step may be impossible, the
  run is a `foldlM` in `Option`: `foldlM_invariant` is its invariant rule, and
  `foldlM_total` says that a run goes through when the invariant makes every
  step possible.
-/

namespace Loop

variable {σ ρ : Type*}

/-- What one turn of a loop does: go round again, or leave with a result. -/
inductive Turn (σ ρ : Type*)
  | again (s : σ)
  | leave (r : ρ)

/-- Runs the loop; `none` when the fuel is used up first. -/
def iterate (body : σ → Turn σ ρ) : Nat → σ → Option ρ
  | 0, _ => none
  | fuel + 1, s =>
    match body s with
    | .again s' => iterate body fuel s'
    | .leave r => some r

theorem iterate_succ_leave {body : σ → Turn σ ρ} {s : σ} {r : ρ} (h : body s = .leave r)
    (fuel : Nat) : iterate body (fuel + 1) s = some r := by
  rw [iterate, h]

/-- A measure that every turn decreases bounds the fuel a loop needs. -/
theorem iterate_isSome {body : σ → Turn σ ρ} (measure : σ → Nat)
    (hDecr : ∀ s s', body s = .again s' → measure s' < measure s) :
    ∀ {fuel : Nat} {s : σ}, measure s < fuel → (iterate body fuel s).isSome := by
  intro fuel
  induction fuel with
  | zero => intro s h; omega
  | succ fuel ih =>
    intro s h
    rw [iterate]
    split
    · rename_i s' hBody
      exact ih (by have := hDecr s s' hBody; omega)
    · rfl

/-- The states a loop passes through at its head. -/
inductive Visits (body : σ → Turn σ ρ) (s : σ) : σ → Prop
  | here : Visits body s s
  | next {s' s'' : σ} : Visits body s s' → body s' = .again s'' → Visits body s s''

theorem Visits.trans {body : σ → Turn σ ρ} {s t u : σ} (ht : Visits body s t)
    (hu : Visits body t u) : Visits body s u := by
  induction hu with
  | here => exact ht
  | next _ hAgain ih => exact .next ih hAgain

/-- The first step of a visit. -/
theorem Visits.cases_head {body : σ → Turn σ ρ} {s t : σ} (h : Visits body s t) :
    t = s ∨ ∃ s', body s = .again s' ∧ Visits body s' t := by
  induction h with
  | here => exact .inl rfl
  | @next t t' _ hAgain ih =>
    rcases ih with rfl | ⟨s', hFirst, hRest⟩
    · exact .inr ⟨t', hAgain, .here⟩
    · exact .inr ⟨s', hFirst, .next hRest hAgain⟩

/-- A loop is deterministic: of two states it visits, one comes behind the other. -/
theorem Visits.total {body : σ → Turn σ ρ} {s t u : σ} (ht : Visits body s t)
    (hu : Visits body s u) : Visits body t u ∨ Visits body u t := by
  induction ht with
  | here => exact .inl hu
  | @next t t' _ hAgain ih =>
    rcases ih with hBehind | hBefore
    · rcases hBehind.cases_head with rfl | ⟨t'', hAgain', hRest⟩
      · exact .inr (.next .here hAgain)
      · rw [hAgain] at hAgain'
        cases hAgain'
        exact .inl hRest
    · exact .inr (.next hBefore hAgain)

/-- The state a loop leaves from comes last. -/
theorem Visits.of_leave {body : σ → Turn σ ρ} {s t u : σ} {r : ρ} (ht : Visits body s t)
    (hu : Visits body s u) (hLeave : body u = .leave r) : Visits body t u := by
  rcases ht.total hu with h | h
  · exact h
  · rcases h.cases_head with rfl | ⟨u', hAgain, -⟩
    · exact .here
    · rw [hLeave] at hAgain
      cases hAgain

/-- A loop that ends leaves from a state it visited. -/
theorem exists_leave_of_iterate {body : σ → Turn σ ρ} {fuel : Nat} {s : σ} {r : ρ}
    (h : iterate body fuel s = some r) : ∃ s', Visits body s s' ∧ body s' = .leave r := by
  induction fuel generalizing s with
  | zero => cases h
  | succ fuel ih =>
    rw [iterate] at h
    split at h
    · rename_i s' hBody
      obtain ⟨t, hVisits, hLeave⟩ := ih h
      exact ⟨t, (Visits.next .here hBody).trans hVisits, hLeave⟩
    · rename_i r' hBody
      cases h
      exact ⟨s, .here, hBody⟩

/-- An invariant of the body holds at every visit of the loop's head. -/
theorem Visits.induction {body : σ → Turn σ ρ} {s s' : σ} (P : σ → Prop) (h0 : P s)
    (hAgain : ∀ t t', P t → body t = .again t' → P t') (h : Visits body s s') : P s' := by
  induction h with
  | here => exact h0
  | next _ hBody ih => exact hAgain _ _ ih hBody

/-- The heads of a run, in the order they are passed. -/
def heads (body : σ → Turn σ ρ) : Nat → σ → List σ
  | 0, _ => []
  | fuel + 1, s =>
    s :: match body s with
      | .again s' => heads body fuel s'
      | .leave _ => []

section Simulation

variable {σ' ρ' : Type*}

/-- A turn, seen through a view of the state and of the result. -/
def Turn.map (view : σ → σ') (result : ρ → ρ') : Turn σ ρ → Turn σ' ρ'
  | .again s => .again (view s)
  | .leave r => .leave (result r)

/-- What every turn of a loop commutes with, the loop commutes with. -/
theorem iterate_map {body : σ → Turn σ ρ} {body' : σ' → Turn σ' ρ'} {view : σ → σ'}
    {result : ρ → ρ'} (h : ∀ s, body' (view s) = (body s).map view result) (fuel : Nat) (s : σ) :
    iterate body' fuel (view s) = (iterate body fuel s).map result := by
  induction fuel generalizing s with
  | zero => rfl
  | succ fuel ih =>
    rw [iterate, iterate, h]
    rcases body s with s' | r
    · exact ih s'
    · rfl

end Simulation

/-- Some amount of fuel is enough. -/
def Ends (body : σ → Turn σ ρ) (s : σ) : Prop := ∃ fuel, (iterate body fuel s).isSome

/-- Every turn of the loop that goes round again has made the state smaller. -/
def Shrinks (body : σ → Turn σ ρ) (size : σ → Nat) (s : σ) : Prop :=
  ∀ t t', Visits body s t → body t = .again t' → size t' < size t

/-- A loop that shrinks its state ends, on as many turns as the state is large. -/
theorem Shrinks.iterate_isSome {body : σ → Turn σ ρ} {size : σ → Nat} {s : σ}
    (h : Shrinks body size s) {fuel : Nat} (hFuel : size s < fuel) :
    (iterate body fuel s).isSome := by
  induction fuel generalizing s with
  | zero => omega
  | succ fuel ih =>
    rw [iterate]
    split
    · rename_i s' hBody
      have hLess := h s s' .here hBody
      exact ih (fun t t' hVisits => h t t' ((Visits.next .here hBody).trans hVisits)) (by omega)
    · rfl

/-- A loop that can always go round again never ends. -/
theorem not_ends {body : σ → Turn σ ρ} {s : σ} (P : σ → Prop) (h0 : P s)
    (hAgain : ∀ t, P t → ∃ t', body t = .again t' ∧ P t') : ¬ Ends body s := by
  rintro ⟨fuel, hSome⟩
  induction fuel generalizing s with
  | zero => cases hSome
  | succ fuel ih =>
    obtain ⟨s', hBody, hNext⟩ := hAgain s h0
    rw [iterate, hBody] at hSome
    exact ih hNext hSome

end Loop

/-! ## Runs of a guarded system -/

section Runs

variable {σ ι α : Type*}

/-- The states reached by feeding inputs to `step`, each one admitted by `guard`. -/
inductive Reaches (step : σ → ι → σ) (guard : σ → ι → Prop) (s : σ) : σ → Prop
  | start : Reaches step guard s s
  | tail {s' : σ} {i : ι} : Reaches step guard s s' → guard s' i →
      Reaches step guard s (step s' i)

namespace Reaches

variable {step : σ → ι → σ} {guard : σ → ι → Prop} {s s' : σ}

/-- What the start satisfies and every admitted step preserves holds of every
state reached. -/
theorem induction (P : σ → Prop) (h0 : P s)
    (hStep : ∀ t i, P t → guard t i → P (step t i)) (h : Reaches step guard s s') : P s' := by
  induction h with
  | start => exact h0
  | tail _ hGuard ih => exact hStep _ _ ih hGuard

/-- **Forward simulation.** If `R` relates the starts, and every admitted step
from related states is matched by an abstract path to a related state, then
every state reached is related to one reached abstractly. -/
theorem simulates {abstract : α → α → Prop} (R : σ → α → Prop) {a : α} (h0 : R s a)
    (hStep : ∀ t i b, R t b → guard t i →
      ∃ b', Relation.ReflTransGen abstract b b' ∧ R (step t i) b')
    (h : Reaches step guard s s') : ∃ b, Relation.ReflTransGen abstract a b ∧ R s' b := by
  induction h with
  | start => exact ⟨a, .refl, h0⟩
  | tail _ hGuard ih =>
    obtain ⟨b, hPath, hRel⟩ := ih
    obtain ⟨b', hPath', hRel'⟩ := hStep _ _ b hRel hGuard
    exact ⟨b', hPath.trans hPath', hRel'⟩

end Reaches

/-- What the start satisfies and every step of the run preserves holds at its end. -/
theorem foldlM_invariant {step : σ → ι → Option σ} (P : σ → Prop) {inputs : List ι} {s s' : σ}
    (h0 : P s) (hStep : ∀ t i t', i ∈ inputs → P t → step t i = some t' → P t')
    (h : inputs.foldlM step s = some s') : P s' := by
  induction inputs generalizing s with
  | nil =>
    cases h
    exact h0
  | cons i inputs ih =>
    rw [List.foldlM_cons] at h
    obtain ⟨t, hFirst, hRest⟩ := Option.bind_eq_some_iff.mp h
    refine ih (hStep s i t List.mem_cons_self h0 hFirst) ?_ hRest
    intro t j t' hj hP hNext
    exact hStep t j t' (List.mem_cons_of_mem _ hj) hP hNext

/-- What the start satisfies and every guarded step preserves holds at the end of a
run whose steps all meet the guard. -/
theorem foldlM_invariant_of_guard {step : σ → ι → Option σ} (guard : σ → ι → Prop) (P : σ → Prop)
    {inputs : List ι} {s s' : σ} (h0 : P s)
    (hGuard : ∀ before i after t, inputs = before ++ i :: after →
      before.foldlM step s = some t → guard t i)
    (hStep : ∀ t i t', P t → guard t i → step t i = some t' → P t')
    (h : inputs.foldlM step s = some s') : P s' := by
  induction inputs generalizing s with
  | nil =>
    cases h
    exact h0
  | cons i inputs ih =>
    rw [List.foldlM_cons] at h
    obtain ⟨t, hFirst, hRest⟩ := Option.bind_eq_some_iff.mp h
    refine ih (hStep s i t h0 (hGuard [] i inputs s rfl rfl) hFirst) ?_ hRest
    intro before j after u hInputs hBefore
    refine hGuard (i :: before) j after u (congrArg (i :: ·) hInputs) ?_
    rw [List.foldlM_cons, hFirst]
    exact hBefore

/-- A run goes through when the invariant makes every step possible. -/
theorem foldlM_total {step : σ → ι → Option σ} (P : σ → Prop)
    (hStep : ∀ t i, P t → ∃ t', step t i = some t' ∧ P t') (inputs : List ι) {s : σ} (h0 : P s) :
    ∃ s', inputs.foldlM step s = some s' ∧ P s' := by
  induction inputs generalizing s with
  | nil => exact ⟨s, rfl, h0⟩
  | cons i inputs ih =>
    obtain ⟨t, hFirst, hP⟩ := hStep s i h0
    obtain ⟨s', hRest, hP'⟩ := ih hP
    refine ⟨s', ?_, hP'⟩
    rw [List.foldlM_cons, hFirst]
    exact hRest

end Runs
