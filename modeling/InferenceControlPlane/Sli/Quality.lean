import InferenceControlPlane.Sli.Aggregator

/-!
# Completion-length anomalies

Each baseline group keeps a bounded reservoir of completion lengths. A window is
scored with robust z-scores whose baseline leaves the scored value out: one by one
for ordinary groups, half against half for very large ones.
-/
namespace InferenceControlPlane.Sli
open Python Normalize

/-- `0.6745` and `1.2533`. -/
def madToSigma : ℚ := 6745 / 10000
def meanAdToSigma : ℚ := 12533 / 10000

inductive QualityStatus where
  | ok
  | coldStart
  | degenerateConstantBaseline
  deriving DecidableEq, Repr

def QualityStatus.text : QualityStatus → String
  | .ok => "ok"
  | .coldStart => "cold_start"
  | .degenerateConstantBaseline => "degenerate_constant_baseline"

structure GroupResult where
  status : QualityStatus
  anomalyCount : ℕ
  maxAbsZ : Option ℚ
  deriving DecidableEq

structure QualityKey where
  route : String
  modelFamily : Option String
  deriving DecidableEq

def QualityKey.asDict (key : QualityKey) : Dict String String :=
  match key.modelFamily with
  | none => Dict.ofList [("route", key.route)]
  | some family => Dict.ofList [("route", key.route), ("model_family", family)]

/-- `"|".join(key.as_dict().values())`. -/
def QualityKey.label (key : QualityKey) : String :=
  join "|" (key.asDict.entries.map Prod.snd)

/-- `z >= threshold`: a threshold that is not a number is never reached. -/
def breaches (cfg : AnomalyConfig) (z : ℚ) : Bool := cfg.threshold.le (.finite z)

/-- One scored value: status, `abs(z)` where it is finite, and the anomaly flag. -/
structure Score where
  status : QualityStatus
  absZ : Option ℚ
  anomaly : Bool

/-- The inner `score` of `score_group`: the deviation from the median by the median deviation, or
by the mean one where that is zero. -/
def score (cfg : AnomalyConfig) (value : ℕ) (baseline : List ℕ) : Except PyErr Score := do
  let data := baseline.map fun n : ℕ => Number.int n
  let med ← median data
  let deviations ← data.mapM fun x => do return (← x.sub med).abs
  let mad ← median deviations
  if 0 < mad.value then
    let z ← (← (Number.int value).sub med).div (← mad.div (.float madToSigma))
    return ⟨.ok, some |z.value|, breaches cfg |z.value|⟩
  let meanAd ← (← Number.sum deviations).div (.int baseline.length)
  if 0 < meanAd.value then
    let z ← (← (Number.int value).sub med).div (.float (meanAdToSigma * meanAd.value))
    return ⟨.ok, some |z.value|, breaches cfg |z.value|⟩
  if (value : ℚ) = med.value then return ⟨.degenerateConstantBaseline, some 0, false⟩
  return ⟨.degenerateConstantBaseline, none, true⟩

/-- `lengths[::2]` and `lengths[1::2]`: two halves by position, each of which is scored against
the other. -/
def evens {α : Type*} : List α → List α
  | [] => []
  | [a] => [a]
  | a :: _ :: rest => a :: evens rest

def odds {α : Type*} : List α → List α
  | [] => []
  | [_] => []
  | _ :: b :: rest => b :: odds rest

/-- Groups above this size are cross-fitted. -/
def exactLimit : ℕ := 2000

/-- Each value against the lengths without its own position. -/
def leaveOneOut (cfg : AnomalyConfig) (lengths : List ℕ) : Except PyErr (List Score) :=
  lengths.zipIdx.mapM fun e => score cfg e.1 (lengths.eraseIdx e.2)

/-- Each half against the other. -/
def crossFit (cfg : AnomalyConfig) (lengths : List ℕ) : Except PyErr (List Score) :=
  lengths.zipIdx.mapM fun e =>
    score cfg e.1 (if e.2 % 2 = 0 then odds lengths else evens lengths)

def summarize (scored : List Score) : GroupResult where
  status := if scored.any (·.status == .ok) then .ok else .degenerateConstantBaseline
  anomalyCount := scored.countP (·.anomaly)
  maxAbsZ := (scored.filterMap Score.absZ).max?

/-- `score_group`: nothing below the least sample, each value against all others up to the exact
limit, and two halves against each other beyond it. -/
def scoreGroup (cfg : AnomalyConfig) (lengths : List ℕ) : Except PyErr GroupResult :=
  if lengths.length < cfg.minSample then .ok ⟨.coldStart, 0, none⟩
  else if lengths.length ≤ exactLimit then do return summarize (← leaveOneOut cfg lengths)
  else if evens lengths = [] ∨ odds lengths = [] then .ok ⟨.coldStart, 0, none⟩
  else do return summarize (← crossFit cfg lengths)

def baselineKey [Runtime] (obs : Observation) (cfg : Config) : QualityKey :=
  match cfg.anomaly.baselineGrouping with
  | .routeModel => ⟨route obs cfg, some (modelFamily obs.providedModel)⟩
  | .route => ⟨route obs cfg, none⟩

/-! ## The accumulator -/

def sampleCap : ℕ := 50000

/-- The outcomes of `randint(0, hi)`, draw by draw: any sequence of them, as nothing is assumed of
the generator. -/
abbrev Rng : Type := (draw hi : ℕ) → Fin (hi + 1)

structure QualityAccumulator where
  groups : Dict QualityKey (List TokenCount)
  emptyCounts : Dict QualityKey ℕ
  seen : Dict QualityKey ℕ
  draws : ℕ

namespace QualityAccumulator

def new : QualityAccumulator := ⟨.empty, .empty, .empty, 0⟩

/-- Algorithm R: keep every value up to the cap, then replace a random slot. -/
def add [Runtime] (rng : Rng) (cap : ℕ) (cfg : Config) (acc : QualityAccumulator)
    (obs : Observation) : QualityAccumulator :=
  if obs.isError then acc
  else
    let key := baselineKey obs cfg
    if obs.outputTokens.val = 0 then
      { acc with emptyCounts := acc.emptyCounts.modify key 0 (· + 1) }
    else
      let bucket := acc.groups.getD key []
      let seen := acc.seen.getD key 0
      if bucket.length < cap then
        { acc with
          groups := acc.groups.set key (bucket ++ [obs.outputTokens])
          seen := acc.seen.set key (seen + 1) }
      else
        let j := (rng acc.draws seen).val
        { acc with
          groups := acc.groups.set key
            (if j < cap then bucket.set j obs.outputTokens else bucket)
          seen := acc.seen.set key (seen + 1)
          draws := acc.draws + 1 }

def results (cfg : Config) (acc : QualityAccumulator) :
    Except PyErr (List (QualityKey × GroupResult)) :=
  acc.groups.entries.mapM fun e => do
    return (e.1, ← scoreGroup cfg.anomaly (e.2.map Subtype.val))

end QualityAccumulator
end InferenceControlPlane.Sli
