import InferenceControlPlane.Python.Numbers
import InferenceControlPlane.Sli.Normalize

/-!
# Aggregation

Observations are folded one at a time into per-series accumulators, from which
`build` materializes the metric points. Histograms keep one count per bucket and
running statistics, never the observations.
-/
namespace InferenceControlPlane.Sli
open Python Normalize

/-! ## Metric points -/

/-- A histogram as it is emitted, with the counts in the order of the bounds and the overflow
apart. -/
structure HistogramValue where
  bounds : List PyFloat
  bucketCounts : List ℕ
  overflow : ℕ
  sum : ℚ
  count : ℕ
  min : Option ℚ
  max : Option ℚ
  p50 : Option PyFloat
  p95 : Option PyFloat
  p99 : Option PyFloat

structure MetricPoint where
  name : String
  type : MetricType
  unit : String
  dims : Dict String String
  value : Option Number
  histogram : Option HistogramValue

def counter (name : String) (value : ℤ) (dims : Dict String String) : MetricPoint :=
  ⟨name, .counter, "1", dims, some (.int value), none⟩

def gauge (name : String) (value : ℚ) (unit : String) : MetricPoint :=
  ⟨name, .gauge, unit, .empty, some (.float value), none⟩

/-! ## Streaming histograms -/

/-- `_HistAcc`: sums and extremes of the values so far, and the bucket counts, which run parallel
to the bounds. -/
structure HistAcc where
  bounds : List PyFloat
  counts : List ℕ
  inf : ℕ
  sum : ℚ
  count : ℕ
  min : Option ℚ
  max : Option ℚ
  parallel : counts.length = bounds.length

/-- Increment the count of the first bound that is at least `v`; the flag tells
whether there is one. -/
def bumpBucket (v : ℚ) : List PyFloat → List ℕ → List ℕ × Bool
  | b :: bs, c :: cs =>
    if (PyFloat.finite v).le b then ((c + 1) :: cs, true)
    else let (cs', found) := bumpBucket v bs cs; (c :: cs', found)
  | _, cs => (cs, false)

lemma length_bumpBucket (v : ℚ) (bs : List PyFloat) (cs : List ℕ) :
    (bumpBucket v bs cs).1.length = cs.length := by
  induction bs generalizing cs with
  | nil => simp [bumpBucket]
  | cons b bs ih =>
    cases cs with
    | nil => simp [bumpBucket]
    | cons c cs =>
      by_cases h : (PyFloat.finite v).le b
      · simp [bumpBucket, h]
      · simp [bumpBucket, h, ih]

namespace HistAcc

def new (bounds : List PyFloat) : HistAcc where
  bounds := bounds
  counts := bounds.map fun _ => 0
  inf := 0
  sum := 0
  count := 0
  min := none
  max := none
  parallel := List.length_map _

def add (acc : HistAcc) (v : ℚ) : HistAcc where
  bounds := acc.bounds
  counts := (bumpBucket v acc.bounds acc.counts).1
  inf := if (bumpBucket v acc.bounds acc.counts).2 then acc.inf else acc.inf + 1
  sum := acc.sum + v
  count := acc.count + 1
  min := some (match acc.min with | none => v | some m => if v < m then v else m)
  max := some (match acc.max with | none => v | some m => if m < v then v else m)
  parallel := (length_bumpBucket v _ _).trans acc.parallel

/-- The bucket loop of `_hist_percentile`; `none` falls through to the overflow. -/
def bucketEstimate (minimum maximum : Option ℚ) (target : ℚ) :
    List (PyFloat × ℕ) → ℚ → PyFloat → Option PyFloat
  | [], _, _ => none
  | (b, c) :: rest, cum, prev =>
    if 0 < c ∧ target ≤ cum + c then
      let frac := (target - cum) / c
      let lower := match minimum with
        | some m => if cum = 0 then prev.max (.finite m) else prev
        | none => prev
      let upper := match maximum with
        | some m => b.min (.finite m)
        | none => b
      some (lower.interpolate (lower.max upper) frac)
    else bucketEstimate minimum maximum target rest (cum + c) b

/-- `_hist_percentile`: the value at a share of the count, interpolated within its bucket, whose
first lower end is the least value seen and whose overflow ends at the greatest. -/
def percentile (acc : HistAcc) (q : ℚ) : Option PyFloat :=
  if acc.count = 0 then none
  else if acc.count = 1 then acc.min.map PyFloat.finite
  else
    let first := (acc.min.map PyFloat.finite).getD (.finite 0)
    match bucketEstimate acc.min acc.max (q / 100 * acc.count) (acc.bounds.zip acc.counts) 0
        first with
    | some estimate => some estimate
    | none => some ((acc.max.map PyFloat.finite).getD ((acc.bounds.getLast?).getD first))

/-- `_acc_to_point`: the accumulator as a histogram point, with its percentiles. -/
def toPoint (acc : HistAcc) (name : String) (dims : Dict String String) : MetricPoint :=
  ⟨name, .histogram, "ms", dims, none, some
    ⟨acc.bounds, acc.counts, acc.inf, acc.sum, acc.count, acc.min, acc.max,
      acc.percentile 50, acc.percentile 95, acc.percentile 99⟩⟩

end HistAcc

/-! ## The aggregator -/

structure AggregationStats where
  observations : ℕ
  malformed : ℕ
  duplicates : ℕ
  crossRunDuplicates : ℕ
  errors : ℕ
  ttftEligible : ℕ
  costMissing : ℕ
  costInvalid : ℕ
  recordsRead : ℕ
  quarantined : ℕ
  exportOk : Bool
  heartbeatOk : Bool
  exportError : Option String
  freshnessSeconds : Option ℚ
  readTruncated : Bool
  checkpointConflict : Bool
  sourceOk : Bool
  sourceError : Option String
  unknownDims : Dict String ℕ

structure OutcomeCounts where
  success : ℕ
  error : ℕ

structure CostEntry where
  usd : ℚ
  count : ℕ
  missing : ℕ
  invalid : ℕ
  input : ℕ
  output : ℕ
  cacheRead : ℕ
  cacheHits : ℕ

/-- Team, route, model family and provider region. -/
abbrev CostKey : Type := String × String × String × String

structure Aggregator where
  dur : Dict PrimaryDims HistAcc
  ttft : Dict PrimaryDims HistAcc
  counts : Dict PrimaryDims OutcomeCounts
  errcat : Dict (PrimaryDims × String) ℕ
  cost : Dict CostKey CostEntry
  unknown : Dict String ℕ
  observations : ℕ
  errors : ℕ
  ttftEligible : ℕ
  costMissing : ℕ
  costInvalid : ℕ

namespace Aggregator

def new : Aggregator :=
  ⟨.empty, .empty, .empty, .empty, .empty, .empty, 0, 0, 0, 0, 0⟩

section Add
variable [Runtime]

def costKey (cfg : Config) (obs : Observation) : CostKey :=
  let pk := primaryDims obs cfg
  (pk.team, pk.route, pk.modelFamily,
    if cfg.includeProviderRegion then providerRegion obs else "n/a")

/-- What one observation adds to its cost series. -/
def addCost (obs : Observation) (entry : CostEntry) : CostEntry where
  usd := match obs.costInvalid, obs.costTotal with
    | false, some usd => entry.usd + usd.val
    | _, _ => entry.usd
  count := entry.count + 1
  missing := if !obs.costInvalid && obs.costTotal.isNone then entry.missing + 1 else entry.missing
  invalid := if obs.costInvalid then entry.invalid + 1 else entry.invalid
  input := entry.input + obs.inputTokens.val
  output := entry.output + obs.outputTokens.val
  cacheRead := entry.cacheRead + obs.cacheReadTokens.val
  cacheHits := if obs.isCacheHit then entry.cacheHits + 1 else entry.cacheHits

def emptyCost : CostEntry := ⟨0, 0, 0, 0, 0, 0, 0, 0⟩

def addOutcome (obs : Observation) (c : OutcomeCounts) : OutcomeCounts :=
  if obs.isError then { c with error := c.error + 1 } else { c with success := c.success + 1 }

def add (cfg : Config) (agg : Aggregator) (obs : Observation) : Aggregator :=
  let pk := primaryDims obs cfg
  { dur := agg.dur.modify pk (.new cfg.latencyBucketsMs) (·.add obs.latencyMs)
    ttft := match obs.ttftMs with
      | none => agg.ttft
      | some t => agg.ttft.modify pk (.new cfg.latencyBucketsMs) (·.add t)
    counts := agg.counts.modify pk ⟨0, 0⟩ (addOutcome obs)
    errcat := if obs.isError then
        agg.errcat.modify (pk, (errorCategory obs).getD Sli.unknown) 0 (· + 1)
      else agg.errcat
    cost := agg.cost.modify (costKey cfg obs) emptyCost (addCost obs)
    unknown := (foldedDimensions obs cfg).foldl (fun d dim => d.modify dim 0 (· + 1)) agg.unknown
    observations := agg.observations + 1
    errors := if obs.isError then agg.errors + 1 else agg.errors
    ttftEligible := if obs.ttftMs.isSome then agg.ttftEligible + 1 else agg.ttftEligible
    costMissing := if !obs.costInvalid && obs.costTotal.isNone then agg.costMissing + 1
      else agg.costMissing
    costInvalid := if obs.costInvalid then agg.costInvalid + 1 else agg.costInvalid }

end Add

/-! ### Materializing the points -/

def histogramPoints (name : String) (src : Dict PrimaryDims HistAcc) : List MetricPoint :=
  (src.entries.filter fun e => e.2.count != 0).map fun e => e.2.toPoint name e.1.asDict

def countPoints (counts : Dict PrimaryDims OutcomeCounts) : List MetricPoint :=
  counts.entries.flatMap fun e =>
    counter "gateway.request.count" e.2.success (e.1.asDict.set "outcome" "success") ::
      if e.2.error = 0 then []
      else [counter "gateway.request.count" e.2.error (e.1.asDict.set "outcome" "error")]

def errorPoints (errcat : Dict (PrimaryDims × String) ℕ) : List MetricPoint :=
  errcat.entries.map fun e =>
    counter "gateway.request.errors" e.2 (e.1.1.asDict.set "error_category" e.1.2)

def costDims (cfg : Config) (key : CostKey) : Dict String String :=
  let dims := Dict.ofList [("team", key.1), ("route", key.2.1), ("model_family", key.2.2.1)]
  if cfg.includeProviderRegion then dims.set "provider_region" key.2.2.2 else dims

/-- `c["out"] / c["in"]`, guarded against a zero divisor only. -/
def completionRatio (c : CostEntry) : Except PyErr (Option ℚ) :=
  if 0 < c.input then do
    let ratio ← (Number.int c.output).div (.int c.input)
    return some (roundTo 4 ratio.value)
  else .ok none

def costPointsOf (cfg : Config) (key : CostKey) (c : CostEntry) :
    Except PyErr (List MetricPoint) := do
  let dims := costDims cfg key
  let ratio ← completionRatio c
  return [⟨"gateway.cost.usd", .counter, "USD", dims, some (.float (roundTo 6 c.usd)), none⟩,
      counter "gateway.cost.request_count" c.count dims,
      counter "gateway.tokens.input" c.input dims,
      counter "gateway.tokens.output" c.output dims] ++
    (match ratio with
      | some r =>
        [⟨"gateway.tokens.completion_ratio", .gauge, "ratio", dims, some (.float r), none⟩]
      | none => []) ++
    (if c.cacheHits = 0 then []
      else [counter "gateway.cache.read_tokens" c.cacheRead dims,
        counter "gateway.cache.hit_count" c.cacheHits dims]) ++
    (if c.missing = 0 then [] else [counter "gateway.cost.records_missing" c.missing dims]) ++
    (if c.invalid = 0 then [] else [counter "gateway.cost.records_invalid" c.invalid dims])

def costPoints (cfg : Config) (cost : Dict CostKey CostEntry) : Except PyErr (List MetricPoint) :=
  return (← cost.entries.mapM fun e => costPointsOf cfg e.1 e.2).flatten

def unknownPoints (unknownDims : Dict String ℕ) : List MetricPoint :=
  (unknownDims.entries.insertionSort fun a b => a.1 ≤ b.1).map fun e =>
    counter "gateway.pipeline.unknown_dimension" e.2 (Dict.ofList [("dimension", e.1)])

def buildStats (agg : Aggregator) (malformed duplicates : ℕ) : AggregationStats where
  observations := agg.observations
  malformed := malformed
  duplicates := duplicates
  crossRunDuplicates := 0
  errors := agg.errors
  ttftEligible := agg.ttftEligible
  costMissing := agg.costMissing
  costInvalid := agg.costInvalid
  recordsRead := 0
  quarantined := 0
  exportOk := true
  heartbeatOk := true
  exportError := none
  freshnessSeconds := none
  readTruncated := false
  checkpointConflict := false
  sourceOk := true
  sourceError := none
  unknownDims := agg.unknown

def buildPoints (cfg : Config) (agg : Aggregator) (malformed duplicates : ℕ) :
    Except PyErr (List MetricPoint) := do
  let cost ← costPoints cfg agg.cost
  return histogramPoints "gateway.request.duration" agg.dur ++
    histogramPoints "gateway.request.ttft" agg.ttft ++ countPoints agg.counts ++
    errorPoints agg.errcat ++ cost ++
    (if malformed = 0 then []
      else [counter "gateway.pipeline.malformed_records" malformed .empty]) ++
    (if duplicates = 0 then []
      else [counter "gateway.pipeline.duplicate_records" duplicates .empty]) ++
    unknownPoints agg.unknown

/-- `build`: the points of a window and its statistics, from the tables as they stand. -/
def build (cfg : Config) (agg : Aggregator) (malformed duplicates : ℕ) :
    Except PyErr (List MetricPoint × AggregationStats) :=
  return (← agg.buildPoints cfg malformed duplicates, agg.buildStats malformed duplicates)

end Aggregator
end InferenceControlPlane.Sli
