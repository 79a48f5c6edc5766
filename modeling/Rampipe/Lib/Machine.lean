import Rampipe.Lib.Loop

/-!
# States that cannot be told apart

A machine takes operations: it answers one and goes on in another state. Two states are
alike when whatever is asked of the one and of the other is answered the same, now and ever
after. What a program does with a machine it does the same with an alike one, and the rule
for its loops is here too.

* `bisimulation_alike`  — alike states answer alike and stay alike.
* `Alike.trans`         — and so do those that a third is alike to.
* `Loop.iterate_related` — a loop whose turns are related from related states.
-/

namespace Machine

variable {σ Op : Type} {Answer : Op → Type} (perform : (op : Op) → σ → Answer op × σ)

/-- The same answer, and related states. -/
inductive Same {α τ : Type} (R : τ → τ → Prop) : α × τ → α × τ → Prop
  | intro (answer : α) {a b : τ} : R a b → Same R (answer, a) (answer, b)

/-- Related states answer alike and stay related. -/
def Bisimulation (R : σ → σ → Prop) : Prop :=
  ∀ {a b}, R a b → ∀ op, Same R (perform op a) (perform op b)

/-- Nothing tells the states apart. -/
def Alike (a b : σ) : Prop := ∃ R, Bisimulation perform R ∧ R a b

variable {perform}

/-- What comes to the same leaves related states. -/
theorem Same.snd {α τ : Type} {R : τ → τ → Prop} {x y : α × τ} (h : Same R x y) : R x.2 y.2 := by
  cases h with
  | intro _ h => exact h

/-- A weaker relation holds too. -/
theorem Same.mono {α τ : Type} {R Q : τ → τ → Prop} {x y : α × τ} (h : Same R x y)
    (hSub : ∀ a b, x.2 = a → y.2 = b → R a b → Q a b) : Same Q x y := by
  cases h with
  | intro answer h => exact .intro answer (hSub _ _ rfl rfl h)

/-- Equal states cannot be told apart. -/
theorem bisimulation_eq : Bisimulation perform Eq := by
  rintro a _ rfl op
  exact .intro _ rfl

/-- States that are alike cannot be told apart either. -/
theorem bisimulation_alike : Bisimulation perform (Alike perform) := by
  rintro a b ⟨R, hR, hRel⟩ op
  exact (hR hRel op).mono fun _ _ _ _ hNext => ⟨R, hR, hNext⟩

/-- A state is like itself. -/
theorem Alike.refl (a : σ) : Alike perform a a := ⟨Eq, bisimulation_eq, rfl⟩

/-- What is like a state that is like another is like that one. -/
theorem Alike.trans {a b c : σ} (h : Alike perform a b) (h' : Alike perform b c) :
    Alike perform a c := by
  -- the relation goes by way of a state between the two, which moves along
  refine ⟨fun a c => ∃ b, Alike perform a b ∧ Alike perform b c, ?_, b, h, h'⟩
  rintro a c ⟨b, hFirst, hSecond⟩ op
  have hAnswer := bisimulation_alike hFirst op
  have hAnswer' := bisimulation_alike hSecond op
  generalize perform op a = x at hAnswer ⊢
  generalize perform op b = y at hAnswer hAnswer'
  generalize perform op c = z at hAnswer' ⊢
  cases hAnswer with
  | intro answer hNext =>
    cases hAnswer' with
    | intro _ hNext' => exact .intro answer ⟨_, hNext, hNext'⟩

/-- What every operation keeps may be asked of one side. -/
theorem Bisimulation.and {R : σ → σ → Prop} {P : σ → Prop} (hR : Bisimulation perform R)
    (hP : ∀ op a, P a → P (perform op a).2) : Bisimulation perform fun a b => R a b ∧ P b := by
  rintro a b ⟨hRel, hHere⟩ op
  refine (hR hRel op).mono fun a' b' _ hAfter hNext => ⟨hNext, ?_⟩
  rw [← hAfter]
  exact hP op b hHere

end Machine

namespace Loop

variable {σ ρ : Type}

/-- Both turns go round again or both leave, and related either way. -/
inductive Turn.Related (R : σ → σ → Prop) (Q : ρ → ρ → Prop) : Turn σ ρ → Turn σ ρ → Prop
  | again {s s' : σ} : R s s' → Turn.Related R Q (.again s) (.again s')
  | leave {r r' : ρ} : Q r r' → Turn.Related R Q (.leave r) (.leave r')

/-- Related loops end alike, on the same fuel. -/
theorem iterate_related {body : σ → Turn σ ρ} {R : σ → σ → Prop} {Q : ρ → ρ → Prop}
    (hBody : ∀ s s', R s s' → Turn.Related R Q (body s) (body s')) {fuel : Nat} {s s' : σ}
    {r : ρ} (hStart : R s s') (h : iterate body fuel s = some r) :
    ∃ r', iterate body fuel s' = some r' ∧ Q r r' := by
  induction fuel generalizing s s' with
  | zero => cases h
  | succ fuel ih =>
    rw [iterate] at h ⊢
    have hTurns := hBody s s' hStart
    generalize body s = turn at h hTurns
    generalize body s' = turn' at hTurns ⊢
    cases hTurns with
    | again hNext => exact ih hNext h
    | leave hResult =>
      cases h
      exact ⟨_, rfl, hResult⟩

end Loop
