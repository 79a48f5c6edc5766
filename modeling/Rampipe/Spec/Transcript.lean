import Mathlib.Data.List.TakeDrop
import Mathlib.Logic.Relation

/-!
# Rampipe — transcripts

What a conversation is for, without its cache: an opening, and behind it a list
of exchanges. New exchanges are committed at the back; when room is needed whole
exchanges are evicted from the front. The opening is part of the first exchange
until that exchange goes, and is kept when it does: `front` is what has been kept,
`keep` how many tokens of it there have to be.

A transcript carries its own well-formedness: either nothing has been kept yet,
and then the first exchange still covers what must be, or exactly `keep` tokens
have.
-/

namespace Rampipe

variable {α : Type*}

/-- A user turn and the assistant's reply to it. -/
structure Exchange (α : Type*) where
  user : List α
  assistant : List α

def Exchange.tokens (e : Exchange α) : List α := e.user ++ e.assistant

structure Transcript (α : Type*) where
  keep : Nat
  front : List α
  exchanges : List (Exchange α)
  front_length : front = [] ∨ front.length = keep
  covered : front = [] → ∀ e ∈ exchanges.head?, keep ≤ e.tokens.length

namespace Transcript

def tokens (t : Transcript α) : List α := t.front ++ t.exchanges.flatMap Exchange.tokens

def empty : Transcript α where
  keep := 0
  front := []
  exchanges := []
  front_length := .inl rfl
  covered := by simp

/-- Learns, while there is no exchange, how long the opening is. -/
def protect (t : Transcript α) (k : Nat) (hNone : t.exchanges = [])
    (hFront : t.front = [] ∨ t.keep = k) : Transcript α where
  keep := k
  front := t.front
  exchanges := t.exchanges
  front_length := by
    rcases hFront with h | rfl
    · exact .inl h
    · exact t.front_length
  covered := by simp [hNone]

/-- Commits an exchange; the first one has to bring the opening. -/
def commit (t : Transcript α) (e : Exchange α)
    (hCovers : t.front = [] → t.exchanges = [] → t.keep ≤ e.tokens.length) : Transcript α where
  keep := t.keep
  front := t.front
  exchanges := t.exchanges ++ [e]
  front_length := t.front_length
  covered := by
    intro hFront first hFirst
    rcases hNil : t.exchanges with _ | ⟨e', rest⟩
    · simp only [hNil, List.nil_append, List.head?_cons, Option.mem_def, Option.some.injEq] at hFirst
      rw [← hFirst]
      exact hCovers hFront hNil
    · refine t.covered hFront first ?_
      simpa [hNil] using hFirst

/-- With the front, the first exchange reaches at least to the end of what is kept. -/
theorem keep_le (t : Transcript α) {e : Exchange α} {rest : List (Exchange α)}
    (h : t.exchanges = e :: rest) : t.keep ≤ (t.front ++ e.tokens).length := by
  rw [List.length_append]
  rcases t.front_length with hFront | hFront
  · have := t.covered hFront e (by simp [h])
    omega
  · omega

/-- Evicts the oldest exchange, up to what has to be kept of it. -/
def evict (t : Transcript α) {e : Exchange α} {rest : List (Exchange α)}
    (h : t.exchanges = e :: rest) : Transcript α where
  keep := t.keep
  front := (t.front ++ e.tokens).take t.keep
  exchanges := rest
  front_length := .inr (List.length_take_of_le (t.keep_le h))
  covered := by
    intro hFront first _
    have hLength := congrArg List.length hFront
    rw [List.length_take_of_le (t.keep_le h), List.length_nil] at hLength
    omega

@[simp] theorem evict_keep (t : Transcript α) {e : Exchange α} {rest : List (Exchange α)}
    (h : t.exchanges = e :: rest) : (t.evict h).keep = t.keep := rfl

@[simp] theorem evict_front (t : Transcript α) {e : Exchange α} {rest : List (Exchange α)}
    (h : t.exchanges = e :: rest) :
    (t.evict h).front = (t.front ++ e.tokens).take t.keep := rfl

@[simp] theorem evict_exchanges (t : Transcript α) {e : Exchange α} {rest : List (Exchange α)}
    (h : t.exchanges = e :: rest) : (t.evict h).exchanges = rest := rfl

inductive Step : Transcript α → Transcript α → Prop
  | protect (t : Transcript α) (k : Nat) (hNone : t.exchanges = [])
      (hFront : t.front = [] ∨ t.keep = k) : Step t (t.protect k hNone hFront)
  | commit (t : Transcript α) (e : Exchange α)
      (hCovers : t.front = [] → t.exchanges = [] → t.keep ≤ e.tokens.length) :
      Step t (t.commit e hCovers)
  | evict (t : Transcript α) {e : Exchange α} {rest : List (Exchange α)}
      (h : t.exchanges = e :: rest) : Step t (t.evict h)

@[simp] theorem tokens_protect (t : Transcript α) (k : Nat) (hNone : t.exchanges = [])
    (hFront : t.front = [] ∨ t.keep = k) : (t.protect k hNone hFront).tokens = t.tokens := rfl

@[simp] theorem tokens_commit (t : Transcript α) (e : Exchange α)
    (hCovers : t.front = [] → t.exchanges = [] → t.keep ≤ e.tokens.length) :
    (t.commit e hCovers).tokens = t.tokens ++ e.tokens := by
  simp [tokens, commit]

/-- An eviction takes out exactly what of the first exchange lies behind the kept
tokens. -/
theorem tokens_evict (t : Transcript α) {e : Exchange α} {rest : List (Exchange α)}
    (h : t.exchanges = e :: rest) :
    (t.evict h).tokens =
      t.tokens.take t.keep ++ t.tokens.drop (t.front.length + e.tokens.length) := by
  have hAll : t.tokens = (t.front ++ e.tokens) ++ rest.flatMap Exchange.tokens := by
    rw [tokens, h, List.flatMap_cons, List.append_assoc]
  rw [hAll, List.take_append_of_le_length (t.keep_le h), ← List.length_append, List.drop_left]
  rfl

/-- Once something has been evicted, an empty front has nothing to keep. -/
theorem keep_eq_zero_of_evict (t : Transcript α) {e : Exchange α} {rest : List (Exchange α)}
    (h : t.exchanges = e :: rest) (hFront : (t.evict h).front = []) : t.keep = 0 := by
  rcases (t.evict h).front_length with _ | hLength
  · have := congrArg List.length hFront
    simp only [evict, List.length_take_of_le (t.keep_le h), List.length_nil] at this
    exact this
  · rw [hFront] at hLength
    exact hLength.symm

/-! ## Trimming -/

/-- Evictions only, any number of them. -/
inductive Trim (t : Transcript α) : Transcript α → Prop
  | refl : Trim t t
  | evict {t1 : Transcript α} {e : Exchange α} {rest : List (Exchange α)} (hTrim : Trim t t1)
      (h : t1.exchanges = e :: rest) : Trim t (t1.evict h)

/-- Trimming is a path of steps. -/
theorem Trim.steps {t t1 : Transcript α} (h : Trim t t1) : Relation.ReflTransGen Step t t1 := by
  induction h with
  | refl => exact .refl
  | evict _ h ih => exact ih.tail (.evict _ h)

/-- It keeps as much as before. -/
theorem Trim.keep {t t1 : Transcript α} (h : Trim t t1) : t1.keep = t.keep := by
  induction h with
  | refl => rfl
  | evict _ _ ih => exact ih

/-- What is kept of a transcript stays at the front of it. -/
theorem Trim.kept {t t1 : Transcript α} (h : Trim t t1) : t.tokens.take t.keep <+: t1.tokens := by
  induction h with
  | refl => exact List.take_prefix _ _
  | evict hTrim h ih =>
    have hTake := List.prefix_take_iff.mpr ⟨ih, List.length_take_le _ _⟩
    rw [tokens_evict, hTrim.keep]
    exact hTake.trans (List.prefix_append _ _)

/-- An exchange that starts with `n` tokens may be committed. -/
def Ready (t : Transcript α) (n : Nat) : Prop :=
  t.front = [] → t.exchanges = [] → t.keep ≤ n

/-- What was ready for a turn still is. -/
theorem Trim.ready {t t1 : Transcript α} {n : Nat} (h : Trim t t1) (hReady : t.Ready n) :
    t1.Ready n := by
  induction h with
  | refl => exact hReady
  | @evict t1 e rest hTrim h _ =>
    intro hFront _
    have hKeep := t1.keep_eq_zero_of_evict h hFront
    rw [evict_keep, hKeep]
    exact Nat.zero_le n

/-! ## Against the log of everything committed -/

/-- The transcript against the log of all exchanges ever committed: the exchanges
are the log without its oldest ones, and the front is what was kept of one of
those. -/
structure Logged (log : List (Exchange α)) (t : Transcript α) : Prop where
  exists_drop : ∃ n ≤ log.length, t.exchanges = log.drop n ∧
    (t.front = [] ∨ t.front.length = t.keep ∧ ∃ e ∈ log.take n, t.front = e.tokens.take t.keep)

/-- An empty transcript is logged by nothing. -/
theorem logged_empty : Logged ([] : List (Exchange α)) empty := ⟨0, Nat.le_refl 0, rfl, .inl rfl⟩

/-- Protecting commits nothing, so nothing is logged. -/
theorem Logged.protect {log : List (Exchange α)} {t : Transcript α} (h : Logged log t) (k : Nat)
    (hNone : t.exchanges = []) (hFront : t.front = [] ∨ t.keep = k) :
    Logged log (t.protect k hNone hFront) := by
  obtain ⟨n, hn, hDrop, hKept⟩ := h.exists_drop
  refine ⟨n, hn, hDrop, ?_⟩
  rcases hFront with hNil | rfl
  · exact .inl hNil
  · exact hKept

/-- What is committed is logged. -/
theorem Logged.commit {log : List (Exchange α)} {t : Transcript α} (h : Logged log t)
    (e : Exchange α) (hCovers : t.front = [] → t.exchanges = [] → t.keep ≤ e.tokens.length) :
    Logged (log ++ [e]) (t.commit e hCovers) := by
  obtain ⟨n, hn, hDrop, hKept⟩ := h.exists_drop
  refine ⟨n, by simp only [List.length_append]; omega, ?_, ?_⟩
  · rw [List.drop_append_of_le_length hn, ← hDrop]
    rfl
  · rw [List.take_append_of_le_length hn]
    exact hKept

/-- The log remembers what was trimmed away. -/
theorem Trim.logged {log : List (Exchange α)} {t t1 : Transcript α} (h : Trim t t1)
    (hLogged : Logged log t) : Logged log t1 := by
  induction h with
  | refl => exact hLogged
  | @evict t1 e rest hTrim h ih =>
    obtain ⟨n, hn, hDrop, hKept⟩ := ih.exists_drop
    -- the exchange that goes is the first the log has left
    have hCut : log.drop n = e :: rest := by rw [← hDrop, h]
    have hLt : n < log.length := by
      by_contra hGe
      rw [List.drop_of_length_le (Nat.not_lt.mp hGe)] at hCut
      cases hCut
    have hHead : log[n] = e := by
      rw [List.drop_eq_getElem_cons hLt] at hCut
      exact (List.cons.inj hCut).1
    have hTake : log.take (n + 1) = log.take n ++ [e] := by
      rw [List.take_succ_eq_append_getElem hLt, hHead]
    refine ⟨n + 1, hLt, ?_, .inr ⟨List.length_take_of_le (t1.keep_le h), ?_⟩⟩
    · rw [List.drop_eq_getElem_cons hLt] at hCut
      exact (List.cons.inj hCut).2.symm
    · rw [hTake]
      -- what is kept comes from it, unless something was kept before
      rcases hKept with hNil | ⟨hLength, e', hMem, hEq⟩
      · refine ⟨e, by simp, ?_⟩
        simp only [evict_front, evict_keep, hNil, List.nil_append]
      · refine ⟨e', List.mem_append_left _ hMem, ?_⟩
        rw [evict_front, evict_keep, ← hEq, ← hLength, List.take_left]

end Transcript

end Rampipe
