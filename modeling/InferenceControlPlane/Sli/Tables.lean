import InferenceControlPlane.Python.Grouping
import InferenceControlPlane.Sli.Accounting
import Mathlib.Algebra.Order.BigOperators.Group.List

/-!
# The tables of the aggregator

Each table of the aggregator is a grouped fold of the observations, independent of
the other tables. What a backend reads for a metric, over any selection of its
series, is therefore a sum of contributions of single observations.
-/
namespace InferenceControlPlane.Sli
open Python Normalize

namespace Aggregator
variable [Runtime]

/-- The aggregator after a whole window. -/
def addAll (cfg : Config) (observations : List Observation) : Aggregator :=
  observations.foldl (add cfg) new

/-! ## Keys -/

def durationKey (cfg : Config) (obs : Observation) : Option PrimaryDims :=
  some (primaryDims obs cfg)

def ttftKey (cfg : Config) (obs : Observation) : Option PrimaryDims :=
  obs.ttftMs.map fun _ => primaryDims obs cfg

def errorKey (cfg : Config) (obs : Observation) : Option (PrimaryDims × String) :=
  if obs.isError then some (primaryDims obs cfg, (errorCategory obs).getD Sli.unknown) else none

def addDuration (obs : Observation) (acc : HistAcc) : HistAcc := acc.add obs.latencyMs

def addTtft (obs : Observation) (acc : HistAcc) : HistAcc :=
  match obs.ttftMs with
  | none => acc
  | some t => acc.add t

/-- The record has no cost, and no invalid one either. -/
def lacksCost (obs : Observation) : Bool := !obs.costInvalid && obs.costTotal.isNone

theorem addAll_concat (cfg : Config) (observations : List Observation) (obs : Observation) :
    addAll cfg (observations ++ [obs]) = (addAll cfg observations).add cfg obs := by
  rw [addAll, List.foldl_append]
  rfl

/-! ## Every table is a grouped fold -/

theorem addAll_dur (cfg : Config) (observations : List Observation) :
    (addAll cfg observations).dur =
      Dict.group (durationKey cfg) (.new cfg.latencyBucketsMs) addDuration observations := by
  induction observations using List.reverseRecOn with
  | nil => rfl
  | append_singleton xs obs ih =>
    rw [addAll_concat, Dict.group_concat, ← ih]
    rfl

theorem addAll_ttft (cfg : Config) (observations : List Observation) :
    (addAll cfg observations).ttft =
      Dict.group (ttftKey cfg) (.new cfg.latencyBucketsMs) addTtft observations := by
  induction observations using List.reverseRecOn with
  | nil => rfl
  | append_singleton xs obs ih =>
    rw [addAll_concat, Dict.group_concat, ← ih]
    cases h : obs.ttftMs with
    | none => simp [add, ttftKey, h]
    | some t =>
      have ht : addTtft obs = fun acc => acc.add t := by funext acc; simp [addTtft, h]
      simp [add, ttftKey, h, ht]

theorem addAll_counts (cfg : Config) (observations : List Observation) :
    (addAll cfg observations).counts =
      Dict.group (durationKey cfg) ⟨0, 0⟩ addOutcome observations := by
  induction observations using List.reverseRecOn with
  | nil => rfl
  | append_singleton xs obs ih =>
    rw [addAll_concat, Dict.group_concat, ← ih]
    rfl

theorem addAll_errcat (cfg : Config) (observations : List Observation) :
    (addAll cfg observations).errcat =
      Dict.group (errorKey cfg) 0 (fun _ n => n + 1) observations := by
  induction observations using List.reverseRecOn with
  | nil => rfl
  | append_singleton xs obs ih =>
    rw [addAll_concat, Dict.group_concat, ← ih]
    by_cases h : obs.isError
    · simp [add, errorKey, h]
    · simp [add, errorKey, h]

theorem addAll_cost (cfg : Config) (observations : List Observation) :
    (addAll cfg observations).cost =
      Dict.group (fun obs => some (costKey cfg obs)) emptyCost addCost observations := by
  induction observations using List.reverseRecOn with
  | nil => rfl
  | append_singleton xs obs ih =>
    rw [addAll_concat, Dict.group_concat, ← ih]
    rfl

theorem add_unknown (cfg : Config) (agg : Aggregator) (obs : Observation) :
    (agg.add cfg obs).unknown = (foldedDimensions obs cfg).foldl
      (fun d dim => d.modify dim 0 (· + 1)) agg.unknown := by
  simp only [add]

theorem addAll_unknown (cfg : Config) (observations : List Observation) :
    (addAll cfg observations).unknown = Dict.group some 0 (fun _ n => n + 1)
      (observations.flatMap (foldedDimensions · cfg)) := by
  induction observations using List.reverseRecOn with
  | nil => rfl
  | append_singleton xs obs ih =>
    rw [addAll_concat, add_unknown, ih, List.flatMap_append, List.flatMap_singleton, Dict.group,
      Dict.group, List.foldl_append]

/-- The counters next to the tables: each is the number of the observations that it counts. -/
theorem addAll_counters (cfg : Config) (observations : List Observation) :
    (addAll cfg observations).observations = observations.length ∧
      (addAll cfg observations).costMissing = observations.countP lacksCost ∧
      (addAll cfg observations).costInvalid = observations.countP Observation.costInvalid := by
  induction observations using List.reverseRecOn with
  | nil => exact ⟨rfl, rfl, rfl⟩
  | append_singleton xs obs ih =>
    obtain ⟨h1, h2, h3⟩ := ih
    refine ⟨?_, ?_, ?_⟩
    · rw [addAll_concat, List.length_append, ← h1]
      rfl
    · rw [addAll_concat, List.countP_append, ← h2]
      by_cases h : lacksCost obs
      · have h' : (!obs.costInvalid && obs.costTotal.isNone) = true := h
        simp [add, h, h']
      · have h' : ¬(!obs.costInvalid && obs.costTotal.isNone) = true := h
        simp only [add, if_neg h', List.countP_cons, List.countP_nil, h]
        simp
    · rw [addAll_concat, List.countP_append, ← h3]
      by_cases h : obs.costInvalid
      · simp [add, h]
      · simp [add, h]

end Aggregator

/-! ## Reading points back -/

/-- What a counter point adds to its series. -/
def MetricPoint.increment (p : MetricPoint) : ℚ :=
  match p.type, p.value with
  | .counter, some v => v.value
  | _, _ => 0

@[simp] theorem increment_counter (name : String) (n : ℕ) (dims : Dict String String) :
    (counter name n dims).increment = n := by
  simp [MetricPoint.increment, counter]

/-- The observations behind a histogram point. -/
def MetricPoint.sampleCount (p : MetricPoint) : ℚ :=
  (p.histogram.map fun h => (h.count : ℚ)).getD 0

/-- The sum of a quantity over the series of a metric that a selector admits. -/
def sumOver (v : MetricPoint → ℚ) (name : String) (sel : Dict String String → Bool)
    (points : List MetricPoint) : ℚ :=
  ((points.filter fun p => p.name == name && sel p.dims).map v).sum

def total (points : List MetricPoint) (name : String) (sel : Dict String String → Bool) : ℚ :=
  sumOver MetricPoint.increment name sel points

def samples (points : List MetricPoint) (name : String) (sel : Dict String String → Bool) : ℚ :=
  sumOver MetricPoint.sampleCount name sel points

section Reading
variable (v : MetricPoint → ℚ) (name : String) (sel : Dict String String → Bool)

@[simp] theorem sumOver_nil : sumOver v name sel [] = 0 := rfl

@[simp] theorem sumOver_append (a b : List MetricPoint) :
    sumOver v name sel (a ++ b) = sumOver v name sel a + sumOver v name sel b := by
  simp [sumOver]

theorem sumOver_cons (p : MetricPoint) (ps : List MetricPoint) :
    sumOver v name sel (p :: ps) =
      (if p.name = name ∧ sel p.dims then v p else 0) + sumOver v name sel ps := by
  by_cases h : p.name = name ∧ sel p.dims
  · simp [sumOver, h]
  · have h' : (p.name == name && sel p.dims) = false := by simpa using h
    simp [sumOver, h, h']

theorem sumOver_counter (m : String) (n : ℕ) (dims : Dict String String)
    (ps : List MetricPoint) :
    sumOver MetricPoint.increment name sel (counter m n dims :: ps) =
      (if m = name ∧ sel dims then (n : ℚ) else 0) +
        sumOver MetricPoint.increment name sel ps := by
  rw [sumOver_cons, increment_counter]
  rfl

theorem sumOver_counterIf (m : String) (n : ℕ) (dims : Dict String String) :
    sumOver MetricPoint.increment name sel (counterIf m n dims) =
      if m = name ∧ sel dims then (n : ℚ) else 0 := by
  by_cases h : n = 0
  · simp [counterIf, h]
  · rw [counterIf, if_neg h, sumOver_counter, sumOver_nil, add_zero]

theorem sumOver_flatMap {α : Type} (xs : List α) (g : α → List MetricPoint) :
    sumOver v name sel (xs.flatMap g) = (xs.map fun x => sumOver v name sel (g x)).sum := by
  induction xs with
  | nil => rfl
  | cons x xs ih => simp [ih]

/-- Points with other names do not matter. -/
theorem sumOver_of_named {names : List String} {points : List MetricPoint}
    (h : Named names points) (hn : name ∉ names) : sumOver v name sel points = 0 := by
  have hf : points.filter (fun p => p.name == name && sel p.dims) = [] := by
    rw [List.filter_eq_nil_iff]
    intro p hp heq
    rw [Bool.and_eq_true, beq_iff_eq] at heq
    exact hn (heq.1 ▸ h p hp)
  rw [sumOver, hf]
  rfl

end Reading

/-- The reading of a section with one group of points for each entry. -/
theorem sumOver_entries {κ ν : Type} (v : MetricPoint → ℚ) (name : String)
    (sel : Dict String String → Bool) (d : Dict κ ν) (g : κ × ν → List MetricPoint)
    (p : κ → Bool) (w : ν → ℚ)
    (h : ∀ e ∈ d.entries, sumOver v name sel (g e) = if p e.1 then w e.2 else 0) :
    sumOver v name sel (d.entries.flatMap g) = d.weightWhere p w := by
  rw [sumOver_flatMap, Dict.weightWhere_eq_sum]
  exact congrArg List.sum (List.map_congr_left h)

/-! ## Sections in terms of their tables -/

def outcomeDims (pk : PrimaryDims) (outcome : String) : Dict String String :=
  pk.asDict.set "outcome" outcome

def categoryDims (key : PrimaryDims × String) : Dict String String :=
  key.1.asDict.set "error_category" key.2

theorem samples_histogramPoints (name : String) (sel : Dict String String → Bool)
    (src : Dict PrimaryDims HistAcc) :
    samples (Aggregator.histogramPoints name src) name sel =
      src.weightWhere (fun pk => sel pk.asDict) fun acc => (acc.count : ℚ) := by
  have hsection : Aggregator.histogramPoints name src =
      src.entries.flatMap fun e => if e.2.count = 0 then [] else [e.2.toPoint name e.1.asDict] := by
    rw [Aggregator.histogramPoints]
    induction src.entries with
    | nil => rfl
    | cons e es ih =>
      by_cases h : e.2.count = 0
      · simp [h, ih]
      · simp [h, ih]
  rw [hsection]
  refine sumOver_entries _ _ _ _ _ _ _ fun e _ => ?_
  by_cases h : e.2.count = 0
  · simp [h]
  · simp [h, sumOver_cons, HistAcc.toPoint, MetricPoint.sampleCount]

theorem total_countPoints (sel : Dict String String → Bool)
    (counts : Dict PrimaryDims OutcomeCounts) :
    total (Aggregator.countPoints counts) "gateway.request.count" sel =
      counts.weightWhere (fun pk => sel (outcomeDims pk "success")) (fun c => (c.success : ℚ)) +
      counts.weightWhere (fun pk => sel (outcomeDims pk "error")) (fun c => (c.error : ℚ)) := by
  rw [total, Aggregator.countPoints, sumOver_flatMap, Dict.weightWhere_eq_sum,
    Dict.weightWhere_eq_sum, ← List.sum_map_add]
  refine congrArg List.sum (List.map_congr_left fun e _ => ?_)
  by_cases h : e.2.error = 0
  · simp only [sumOver_counter, h, if_true, sumOver_nil, true_and, Nat.cast_zero, ite_self]
    rfl
  · simp only [sumOver_counter, h, if_false, sumOver_nil, true_and, add_zero]
    rfl

theorem total_errorPoints (sel : Dict String String → Bool)
    (errcat : Dict (PrimaryDims × String) ℕ) :
    total (Aggregator.errorPoints errcat) "gateway.request.errors" sel =
      errcat.weightWhere (fun key => sel (categoryDims key)) fun n : ℕ => (n : ℚ) := by
  rw [Aggregator.errorPoints, List.map_eq_flatMap]
  refine sumOver_entries _ _ _ _ _ _ _ fun e _ => ?_
  simp only [sumOver_counter, sumOver_nil, true_and, add_zero]
  rfl

/-- The integer counters of a cost series. -/
def costCounters : List (String × (CostEntry → ℕ)) :=
  [("gateway.cost.request_count", CostEntry.count), ("gateway.tokens.input", CostEntry.input),
    ("gateway.tokens.output", CostEntry.output),
    ("gateway.cache.read_tokens", CostEntry.cacheRead),
    ("gateway.cache.hit_count", CostEntry.cacheHits),
    ("gateway.cost.records_missing", CostEntry.missing),
    ("gateway.cost.records_invalid", CostEntry.invalid)]

/-- Without a hit no tokens were read from the cache. -/
def CostEntry.Coherent (c : CostEntry) : Prop := c.cacheHits = 0 → c.cacheRead = 0

theorem total_costSeries (dims : Dict String String) {c : CostEntry} (ratio : Option ℚ)
    (hc : c.Coherent) (sel : Dict String String → Bool) {name : String} {w : CostEntry → ℕ}
    (hn : (name, w) ∈ costCounters) :
    total (costSeries dims c ratio) name sel = if sel dims then (w c : ℚ) else 0 := by
  have hmoney : "gateway.cost.usd" ≠ name := by
    rintro rfl
    simp [costCounters] at hn
  have hratio : sumOver MetricPoint.increment name sel (ratioPoints dims ratio) = 0 := by
    cases ratio with
    | none => rfl
    | some r => simp [ratioPoints, sumOver_cons, MetricPoint.increment]
  have hcache : sumOver MetricPoint.increment name sel (cachePoints dims c) =
      (if "gateway.cache.read_tokens" = name ∧ sel dims then (c.cacheRead : ℚ) else 0) +
      if "gateway.cache.hit_count" = name ∧ sel dims then (c.cacheHits : ℚ) else 0 := by
    by_cases hh : c.cacheHits = 0
    · simp [cachePoints, hh, hc hh]
    · rw [cachePoints, if_neg hh, sumOver_counter, sumOver_counter, sumOver_nil, add_zero]
  simp only [total, costSeries, sumOver_append, hratio, hcache, sumOver_counterIf, sumOver_cons,
    hmoney, false_and, if_false, sumOver_nil, increment_counter, add_zero, zero_add]
  simp only [costCounters, List.mem_cons, Prod.mk.injEq, List.not_mem_nil, or_false] at hn
  rcases hn with ⟨rfl, rfl⟩ | ⟨rfl, rfl⟩ | ⟨rfl, rfl⟩ | ⟨rfl, rfl⟩ | ⟨rfl, rfl⟩ | ⟨rfl, rfl⟩ |
    ⟨rfl, rfl⟩ <;> simp [counter]

/-! Each section only matters to its own names. -/

section Sections
variable {v : MetricPoint → ℚ} {name : String} {sel : Dict String String → Bool}

@[simp] theorem sumOver_histogramPoints_ne {m : String} (hn : name ≠ m)
    (src : Dict PrimaryDims HistAcc) :
    sumOver v name sel (Aggregator.histogramPoints m src) = 0 :=
  sumOver_of_named _ _ _ (named_histogramPoints m src) (by simpa using hn)

@[simp] theorem sumOver_countPoints_ne (hn : name ≠ "gateway.request.count")
    (counts : Dict PrimaryDims OutcomeCounts) :
    sumOver v name sel (Aggregator.countPoints counts) = 0 :=
  sumOver_of_named _ _ _ (named_countPoints counts) (by simpa using hn)

@[simp] theorem sumOver_errorPoints_ne (hn : name ≠ "gateway.request.errors")
    (errcat : Dict (PrimaryDims × String) ℕ) :
    sumOver v name sel (Aggregator.errorPoints errcat) = 0 :=
  sumOver_of_named _ _ _ (named_errorPoints errcat) (by simpa using hn)

@[simp] theorem sumOver_countIf_ne {m : String} (hn : name ≠ m) (n : ℕ) :
    sumOver v name sel (countIf m n) = 0 :=
  sumOver_of_named _ _ _ (named_countIf m n) (by simpa using hn)

@[simp] theorem sumOver_unknownPoints_ne (hn : name ≠ "gateway.pipeline.unknown_dimension")
    (unknownDims : Dict String ℕ) :
    sumOver v name sel (Aggregator.unknownPoints unknownDims) = 0 :=
  sumOver_of_named _ _ _ (named_unknownPoints unknownDims) (by simpa using hn)

variable (v sel) in
theorem sumOver_costPoints_ne {cfg : Config} {cost : Dict CostKey CostEntry}
    {points : List MetricPoint} (h : Aggregator.costPoints cfg cost = .ok points)
    (hn : name ∉ costNames) : sumOver v name sel points = 0 :=
  sumOver_of_named _ _ _ (named_costPoints h) hn

end Sections

/-! ## Metrics as sums over the observations -/

section Window
variable [Runtime]

def requestDims (cfg : Config) (obs : Observation) : Dict String String :=
  outcomeDims (primaryDims obs cfg) (if obs.isError then "error" else "success")

def errorDims (cfg : Config) (obs : Observation) : Dict String String :=
  categoryDims (primaryDims obs cfg, (errorCategory obs).getD unknown)

variable {cfg : Config} {observations : List Observation} {malformed duplicates : ℕ}
  {points : List MetricPoint} (sel : Dict String String → Bool)

theorem samples_duration
    (h : (Aggregator.addAll cfg observations).buildPoints cfg malformed duplicates = .ok points) :
    samples points "gateway.request.duration" sel =
      (observations.map fun obs =>
        if sel (primaryDims obs cfg).asDict then (1 : ℚ) else 0).sum := by
  obtain ⟨cost, hc, rfl⟩ := buildPoints_ok h
  have hcost := sumOver_costPoints_ne MetricPoint.sampleCount sel hc
    (show "gateway.request.duration" ∉ costNames by decide)
  have hsection := samples_histogramPoints "gateway.request.duration" sel
    (Aggregator.addAll cfg observations).dur
  rw [Aggregator.addAll_dur, Dict.weightWhere_group _ _ _ _ _ (fun _ => 1) (by simp [HistAcc.new])
    (fun obs acc => by simp [Aggregator.addDuration, HistAcc.add])] at hsection
  have hterm : ∀ obs : Observation,
      (if (Aggregator.durationKey cfg obs).any (fun pk => sel pk.asDict) then (1 : ℚ) else 0) =
      if sel (primaryDims obs cfg).asDict then 1 else 0 := fun _ => rfl
  simp only [hterm] at hsection
  simpa [samples, hcost, Aggregator.addAll_dur] using hsection

theorem samples_ttft
    (h : (Aggregator.addAll cfg observations).buildPoints cfg malformed duplicates = .ok points) :
    samples points "gateway.request.ttft" sel =
      (observations.map fun obs =>
        if obs.ttftMs.isSome ∧ sel (primaryDims obs cfg).asDict then (1 : ℚ) else 0).sum := by
  obtain ⟨cost, hc, rfl⟩ := buildPoints_ok h
  have hcost := sumOver_costPoints_ne MetricPoint.sampleCount sel hc
    (show "gateway.request.ttft" ∉ costNames by decide)
  have hsection := samples_histogramPoints "gateway.request.ttft" sel
    (Aggregator.addAll cfg observations).ttft
  rw [Aggregator.addAll_ttft, Dict.weightWhere_group _ _ _ _ _
    (fun obs => if obs.ttftMs.isSome then 1 else 0) (by simp [HistAcc.new])
    (fun obs acc => by cases ht : obs.ttftMs <;> simp [Aggregator.addTtft, ht, HistAcc.add])]
    at hsection
  have hterm : ∀ obs : Observation,
      (if (Aggregator.ttftKey cfg obs).any (fun pk => sel pk.asDict) then
        (if obs.ttftMs.isSome then (1 : ℚ) else 0) else 0) =
      if obs.ttftMs.isSome ∧ sel (primaryDims obs cfg).asDict then 1 else 0 := by
    intro obs
    cases ht : obs.ttftMs <;> simp [Aggregator.ttftKey, ht]
  simp only [hterm] at hsection
  simpa [samples, hcost, Aggregator.addAll_ttft] using hsection

theorem total_requests
    (h : (Aggregator.addAll cfg observations).buildPoints cfg malformed duplicates = .ok points) :
    total points "gateway.request.count" sel =
      (observations.map fun obs => if sel (requestDims cfg obs) then (1 : ℚ) else 0).sum := by
  obtain ⟨cost, hc, rfl⟩ := buildPoints_ok h
  have hcost := sumOver_costPoints_ne MetricPoint.increment sel hc
    (show "gateway.request.count" ∉ costNames by decide)
  have hsection := total_countPoints sel (Aggregator.addAll cfg observations).counts
  rw [Aggregator.addAll_counts,
    Dict.weightWhere_group _ _ _ _ _ (fun obs => if obs.isError then 0 else 1) (by simp)
      (fun obs c => by by_cases he : obs.isError <;> simp [Aggregator.addOutcome, he]),
    Dict.weightWhere_group _ _ _ _ _ (fun obs => if obs.isError then 1 else 0) (by simp)
      (fun obs c => by by_cases he : obs.isError <;> simp [Aggregator.addOutcome, he]),
    ← List.sum_map_add] at hsection
  have hterm : ∀ obs : Observation,
      (if (Aggregator.durationKey cfg obs).any (fun pk => sel (outcomeDims pk "success")) then
        (if obs.isError then (0 : ℚ) else 1) else 0) +
      (if (Aggregator.durationKey cfg obs).any (fun pk => sel (outcomeDims pk "error")) then
        (if obs.isError then (1 : ℚ) else 0) else 0) =
      if sel (requestDims cfg obs) then 1 else 0 := by
    intro obs
    by_cases he : obs.isError <;> simp [Aggregator.durationKey, requestDims, he]
  simp only [hterm] at hsection
  simpa [total, hcost, Aggregator.addAll_counts] using hsection

theorem total_errors
    (h : (Aggregator.addAll cfg observations).buildPoints cfg malformed duplicates = .ok points) :
    total points "gateway.request.errors" sel =
      (observations.map fun obs =>
        if obs.isError ∧ sel (errorDims cfg obs) then (1 : ℚ) else 0).sum := by
  obtain ⟨cost, hc, rfl⟩ := buildPoints_ok h
  have hcost := sumOver_costPoints_ne MetricPoint.increment sel hc
    (show "gateway.request.errors" ∉ costNames by decide)
  have hsection := total_errorPoints sel (Aggregator.addAll cfg observations).errcat
  rw [Aggregator.addAll_errcat, Dict.weightWhere_group _ _ _ _ _ (fun _ => 1) (by simp)
    (fun obs n => by simp)] at hsection
  have hterm : ∀ obs : Observation,
      (if (Aggregator.errorKey cfg obs).any (fun key => sel (categoryDims key)) then (1 : ℚ)
        else 0) = if obs.isError ∧ sel (errorDims cfg obs) then 1 else 0 := by
    intro obs
    by_cases he : obs.isError <;> simp [Aggregator.errorKey, errorDims, he]
  simp only [hterm] at hsection
  simpa [total, hcost, Aggregator.addAll_errcat] using hsection

omit [Runtime] in
/-- Each observation moves each counter of its cost series by a fixed amount, whatever the series
held before. -/
theorem addCost_counter {name : String} {w : CostEntry → ℕ} (hn : (name, w) ∈ costCounters)
    (obs : Observation) (c : CostEntry) :
    w (Aggregator.addCost obs c) = w c + w (Aggregator.addCost obs Aggregator.emptyCost) := by
  simp only [costCounters, List.mem_cons, Prod.mk.injEq, List.not_mem_nil, or_false] at hn
  rcases hn with ⟨-, rfl⟩ | ⟨-, rfl⟩ | ⟨-, rfl⟩ | ⟨-, rfl⟩ | ⟨-, rfl⟩ | ⟨-, rfl⟩ | ⟨-, rfl⟩
  · simp [Aggregator.addCost, Aggregator.emptyCost]
  · simp [Aggregator.addCost, Aggregator.emptyCost]
  · simp [Aggregator.addCost, Aggregator.emptyCost]
  · simp [Aggregator.addCost, Aggregator.emptyCost]
  · by_cases hh : obs.isCacheHit <;> simp [Aggregator.addCost, Aggregator.emptyCost, hh]
  · by_cases hm : (!obs.costInvalid && obs.costTotal.isNone) = true
    · simp [Aggregator.addCost, Aggregator.emptyCost, hm]
    · simp only [Aggregator.addCost, Aggregator.emptyCost, hm, Bool.false_eq_true, if_false,
        add_zero]
  · by_cases hi : obs.costInvalid <;> simp [Aggregator.addCost, Aggregator.emptyCost, hi]

omit [Runtime] in
theorem CostEntry.Coherent.add {c : CostEntry} (hc : c.Coherent) (obs : Observation) :
    (Aggregator.addCost obs c).Coherent := by
  intro hh
  simp only [Aggregator.addCost] at hh ⊢
  by_cases hhit : obs.isCacheHit
  · simp [hhit] at hh
  · simp only [hhit, Bool.false_eq_true, if_false] at hh
    have hzero : obs.cacheReadTokens.val = 0 := by simpa [Observation.isCacheHit] using hhit
    rw [hc hh, hzero]

omit [Runtime] in
/-- A fold of cost records is coherent, as each of its steps keeps it so: cached tokens come with
a hit. -/
theorem coherent_foldl (observations : List Observation) :
    (observations.foldl (fun c obs => Aggregator.addCost obs c) Aggregator.emptyCost).Coherent := by
  induction observations using List.reverseRecOn with
  | nil => exact fun _ => rfl
  | append_singleton xs obs ih =>
    rw [List.foldl_append]
    exact ih.add obs

theorem coherent_cost {e : CostKey × CostEntry}
    (he : e ∈ (Aggregator.addAll cfg observations).cost.entries) : e.2.Coherent := by
  rw [Aggregator.addAll_cost, Dict.mem_entries, Dict.get?_group] at he
  split_ifs at he
  rw [← Option.some.inj he]
  exact coherent_foldl _

theorem total_cost {name : String} {w : CostEntry → ℕ} (hn : (name, w) ∈ costCounters)
    (h : (Aggregator.addAll cfg observations).buildPoints cfg malformed duplicates = .ok points) :
    total points name sel =
      (observations.map fun obs =>
        if sel (Aggregator.costDims cfg (Aggregator.costKey cfg obs)) then
        (w (Aggregator.addCost obs Aggregator.emptyCost) : ℚ) else 0).sum := by
  obtain ⟨cost, hc, rfl⟩ := buildPoints_ok h
  obtain ⟨ratio, _, rfl⟩ := costPoints_ok hc
  have hsection := sumOver_entries MetricPoint.increment name sel
    (Aggregator.addAll cfg observations).cost
    (fun e => costSeries (Aggregator.costDims cfg e.1) e.2 (ratio e.2))
    (fun key => sel (Aggregator.costDims cfg key)) (fun c => (w c : ℚ))
    (fun e he => total_costSeries _ _ (coherent_cost he) sel hn)
  have hzero : w Aggregator.emptyCost = 0 := by
    simp only [costCounters, List.mem_cons, Prod.mk.injEq, List.not_mem_nil, or_false] at hn
    rcases hn with ⟨-, rfl⟩ | ⟨-, rfl⟩ | ⟨-, rfl⟩ | ⟨-, rfl⟩ | ⟨-, rfl⟩ | ⟨-, rfl⟩ |
      ⟨-, rfl⟩ <;> rfl
  rw [Aggregator.addAll_cost, Dict.weightWhere_group _ _ _ _ _
    (fun obs => (w (Aggregator.addCost obs Aggregator.emptyCost) : ℚ)) (by simp [hzero])
    (fun obs c => by rw [addCost_counter hn, Nat.cast_add])] at hsection
  have hother : name ∉ ["gateway.request.duration", "gateway.request.ttft",
      "gateway.request.count", "gateway.request.errors", "gateway.pipeline.malformed_records",
      "gateway.pipeline.duplicate_records", "gateway.pipeline.unknown_dimension"] := by
    simp only [costCounters, List.mem_cons, Prod.mk.injEq, List.not_mem_nil, or_false] at hn
    rcases hn with ⟨rfl, -⟩ | ⟨rfl, -⟩ | ⟨rfl, -⟩ | ⟨rfl, -⟩ | ⟨rfl, -⟩ | ⟨rfl, -⟩ | ⟨rfl, -⟩ <;>
      decide
  simp only [List.mem_cons, List.not_mem_nil, or_false, not_or] at hother
  obtain ⟨h1, h2, h3, h4, h5, h6, h7⟩ := hother
  simpa [total, h1, h2, h3, h4, h5, h6, h7, Aggregator.addAll_cost] using hsection

end Window
end InferenceControlPlane.Sli
