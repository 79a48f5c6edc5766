import Rampipe.Model.Connection

/-!
# Rampipe — per-model settings

`model_settings.rs`: what a model is sampled with and how much it may generate in one
turn, when a caller did not say. The entries are keyed by a substring of the model's file
name, and the longest key that matches wins. The settings are taken as toml has read them.

A `note` is for whoever reads the file; no function reads it, and it is left out.
-/

namespace Rampipe

open Text ListSearch

/-- What one model's card says. -/
structure Entry where
  temperature : Option ℚ
  topK : Option Int
  topP : Option ℚ
  minP : Option ℚ
  seed : Option Nat
  repeatPenalty : ℚ
  frequencyPenalty : ℚ
  presencePenalty : ℚ
  penaltyLastN : Int
  maxNewTokens : Option Int

/-- The entry as the daemon applies it. -/
def Entry.sampling (entry : Entry) : Sampling :=
  let penalties : Penalties := {
    lastN := entry.penaltyLastN
    repeat_ := entry.repeatPenalty
    freq := entry.frequencyPenalty
    present := entry.presencePenalty }
  match entry.temperature with
  | some temperature =>
    .temperature temperature (entry.topK.getD 40) (entry.topP.getD 1) (entry.minP.getD 0)
      (entry.seed.getD 0) penalties
  | none => .greedy penalties

/-- What a config file says about models. The keys of a `BTreeMap` ascend; they compare by
their bytes, which is by their characters. -/
structure ModelSettings where
  default : Option Entry
  models : List (Text × Entry)
  ascending : models.Pairwise fun a b => a.1 < b.1

/-- `Path::file_name`: the last component, when it is a name. Empty components and `.` are
none. -/
def fileName (path : Path) : Option Text :=
  match ((path.splitOn '/').filter fun name => name ≠ [] && name ≠ ['.']).getLast? with
  | some ['.', '.'] => none
  | last => last

/-- `max_by_key`: of several maxima the last. -/
def maxByKey {α : Type} (key : α → Nat) (l : List α) : Option α :=
  l.foldl (fun best a =>
    match best with
    | some b => if key b ≤ key a then some a else some b
    | none => some a) none

namespace ModelSettings

/-- A host that has never written a file. -/
def empty : ModelSettings where
  default := none
  models := []
  ascending := .nil

def entryFor (settings : ModelSettings) (modelPath : Path) : Option Entry :=
  match fileName modelPath with
  | none => none
  | some name =>
    ((maxByKey (fun model => (asBytes model.1).length)
      (settings.models.filter fun model => contains name model.1)).map Prod.snd).or
        settings.default

def maxNewTokensFor (settings : ModelSettings) (modelPath : Path) : Option Int :=
  (settings.entryFor modelPath).bind Entry.maxNewTokens

def samplingFor (settings : ModelSettings) (modelPath : Path) : Sampling :=
  match settings.entryFor modelPath with
  | some entry => entry.sampling
  | none => .greedy {}

end ModelSettings

end Rampipe
