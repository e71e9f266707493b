import InferenceControlPlane.Distribution
import InferenceControlPlane.Sli.Governed
import Mathlib.Tactic.Ring

/-!
# DELTA additivity

The points of a window are read as a map from name and dimensions to a value, with
missing counters as 0 and missing histograms as empty. Under this view the points
of two windows add up to the points of the concatenated window: integer counters and
histograms exactly, money up to the rounding of each window.
-/
namespace InferenceControlPlane.Sli
open Python Normalize

/-! ## Histograms as distributions -/

/-- The bucket of a value: the first bound that is not below it. `none` is the overflow. -/
def bucketOf (bounds : List PyFloat) (v : ℚ) : Option ℕ :=
  bounds.findIdx? fun b => (PyFloat.finite v).le b

def HistAcc.distribution (acc : HistAcc) : Distribution ℚ :=
  ⟨fun i => acc.counts.getD i 0, acc.inf, acc.sum, acc.count, acc.min, acc.max⟩

def HistogramValue.distribution (h : HistogramValue) : Distribution ℚ :=
  ⟨fun i => h.bucketCounts.getD i 0, h.overflow, h.sum, h.count, h.min, h.max⟩

lemma bumpBucket_spec (v : ℚ) {bs : List PyFloat} {cs : List ℕ} (h : cs.length = bs.length) :
    ((bumpBucket v bs cs).2 = (bucketOf bs v).isSome) ∧ ∀ i,
      (bumpBucket v bs cs).1.getD i 0 = cs.getD i 0 + if bucketOf bs v = some i then 1 else 0 := by
  induction bs generalizing cs with
  | nil =>
    rw [List.length_eq_zero_iff.mp h]
    simp [bumpBucket, bucketOf]
  | cons b bs ih =>
    cases cs with
    | nil => cases h
    | cons c cs =>
      obtain ⟨hflag, hcounts⟩ := ih (Nat.succ.inj h)
      by_cases hb : (PyFloat.finite v).le b
      · refine ⟨by simp [bumpBucket, bucketOf, hb, List.findIdx?_cons], fun i => ?_⟩
        cases i <;> simp [bumpBucket, bucketOf, hb, List.findIdx?_cons]
      · have hidx : bucketOf (b :: bs) v = (bucketOf bs v).map (· + 1) := by
          simp [bucketOf, hb, List.findIdx?_cons]
        refine ⟨by simp [bumpBucket, hb, hidx, hflag], fun i => ?_⟩
        cases i with
        | zero => simp [bumpBucket, hb, hidx]
        | succ i => simpa [bumpBucket, hb, hidx] using hcounts i

theorem HistAcc.distribution_new (bounds : List PyFloat) :
    (HistAcc.new bounds).distribution = 0 := by
  refine Distribution.ext ?_ rfl rfl rfl rfl rfl
  funext i
  change (bounds.map fun _ => 0).getD i 0 = 0
  rw [List.getD_eq_getElem?_getD, List.getElem?_map]
  cases bounds[i]? <;> rfl

/-- Adding a value adds its distribution, so that an accumulator is the sum of its values. -/
theorem HistAcc.distribution_add (acc : HistAcc) (v : ℚ) :
    (acc.add v).distribution = acc.distribution + .single (bucketOf acc.bounds v) v := by
  obtain ⟨hflag, hcounts⟩ := bumpBucket_spec v acc.parallel
  refine Distribution.ext (funext hcounts) ?_ rfl rfl ?_ ?_
  · change (if (bumpBucket v acc.bounds acc.counts).2 then acc.inf else acc.inf + 1) =
      acc.inf + if bucketOf acc.bounds v = none then 1 else 0
    rw [hflag]
    cases bucketOf acc.bounds v <;> simp
  · change some _ = Option.merge Min.min acc.min (some v)
    cases acc.min with
    | none => rfl
    | some m =>
      simp only [Option.merge_some_some, Option.some.injEq, min_def]
      split_ifs <;> linarith
  · change some _ = Option.merge Max.max acc.max (some v)
    cases acc.max with
    | none => rfl
    | some m =>
      simp only [Option.merge_some_some, Option.some.injEq, max_def]
      split_ifs <;> linarith

/-- A distribution and its bounds determine the accumulator, and so the point that it becomes. -/
theorem HistAcc.eq_of_distribution {acc acc' : HistAcc} (hb : acc.bounds = acc'.bounds)
    (h : acc.distribution = acc'.distribution) : acc = acc' := by
  have hcounts : acc.counts = acc'.counts := by
    refine List.ext_getElem (by rw [acc.parallel, acc'.parallel, hb]) fun i h1 h2 => ?_
    have hi : acc.counts.getD i 0 = acc'.counts.getD i 0 :=
      congrFun (congrArg Distribution.bucket h) i
    simpa [List.getD_eq_getElem?_getD, List.getElem?_eq_getElem h1,
      List.getElem?_eq_getElem h2] using hi
  have hinf : acc.inf = acc'.inf := congrArg Distribution.overflow h
  have hsum : acc.sum = acc'.sum := congrArg Distribution.sum h
  have hcount : acc.count = acc'.count := congrArg Distribution.count h
  have hmin : acc.min = acc'.min := congrArg Distribution.least h
  have hmax : acc.max = acc'.max := congrArg Distribution.greatest h
  cases acc
  cases acc'
  simp_all

/-- Values may be added in any order. -/
theorem HistAcc.add_comm (acc : HistAcc) (v w : ℚ) : (acc.add v).add w = (acc.add w).add v := by
  refine HistAcc.eq_of_distribution rfl ?_
  rw [HistAcc.distribution_add, HistAcc.distribution_add, HistAcc.distribution_add,
    HistAcc.distribution_add]
  exact add_right_comm _ _ _

/-! ## Reading the points as a map -/

/-- The point of a series: `none` where the window emitted nothing for it. -/
def pointAt (points : List MetricPoint) (name : String) (dims : Dict String String) :
    Option MetricPoint :=
  points.find? fun p => p.name == name && p.dims.same dims

/-- The value of a counter, 0 where it is missing. -/
def counterAt (points : List MetricPoint) (name : String) (dims : Dict String String) : ℚ :=
  ((pointAt points name dims).map MetricPoint.increment).getD 0

/-- The distribution of a histogram, empty where it is missing. -/
def distributionAt (points : List MetricPoint) (name : String) (dims : Dict String String) :
    Distribution ℚ :=
  (((pointAt points name dims).bind MetricPoint.histogram).map
    HistogramValue.distribution).getD 0

/-- The points of one window are those of two others together: counters and distributions add up
exactly, costs up to their rounding, and percentiles are left out. -/
structure Additive (left right whole : List MetricPoint) : Prop where
  counters : ∀ name dims, name ≠ "gateway.cost.usd" →
    counterAt whole name dims = counterAt left name dims + counterAt right name dims
  histograms : ∀ name dims,
    distributionAt whole name dims = distributionAt left name dims + distributionAt right name dims
  money : ∀ dims, |counterAt whole "gateway.cost.usd" dims -
    (counterAt left "gateway.cost.usd" dims + counterAt right "gateway.cost.usd" dims)| ≤
      15 / 10 ^ 7

/-- Among distinct points the view sums over at most one of them. -/
theorem counterAt_eq_total {points : List MetricPoint}
    (hd : points.Pairwise fun p q => p.name = q.name → p.dims.same q.dims = false)
    (name : String) (dims : Dict String String) :
    counterAt points name dims = total points name (·.same dims) := by
  rw [total]
  induction points with
  | nil => rfl
  | cons p ps ih =>
    obtain ⟨hp, hps⟩ := List.pairwise_cons.mp hd
    rw [sumOver_cons]
    by_cases h : p.name = name ∧ p.dims.same dims = true
    · have hrest : sumOver MetricPoint.increment name (·.same dims) ps = 0 := by
        have hnone : ps.filter (fun q => q.name == name && q.dims.same dims) = [] := by
          rw [List.filter_eq_nil_iff]
          intro q hq heq
          rw [Bool.and_eq_true, beq_iff_eq] at heq
          have hsame : p.dims.same q.dims = true := by
            rw [Dict.same_iff]
            intro k
            rw [Dict.same_iff.mp h.2 k, Dict.same_iff.mp heq.2 k]
          rw [hp q hq (h.1.trans heq.1.symm)] at hsame
          cases hsame
        rw [sumOver, hnone]
        rfl
      have hfind : pointAt (p :: ps) name dims = some p :=
        List.find?_cons_of_pos (by simp [h])
      rw [if_pos h, hrest, counterAt, hfind, add_zero]
      rfl
    · have hfind : pointAt (p :: ps) name dims = pointAt ps name dims :=
        List.find?_cons_of_neg (by simpa using h)
      rw [if_neg h, zero_add, ← ih hps, counterAt, hfind]
      rfl

/-! ## Counters are linear in the observations -/

section Linear
variable [Runtime] {cfg : Config}

/-- A metric that is a sum of contributions of the observations, of the malformed
and of the duplicate records. -/
def Linear (cfg : Config) (name : String) (sel : Dict String String → Bool) : Prop :=
  ∃ (δ : Observation → ℚ) (a b : ℚ), ∀ observations malformed duplicates points,
    (Aggregator.addAll cfg observations).buildPoints cfg malformed duplicates = .ok points →
    total points name sel = (observations.map δ).sum + malformed * a + duplicates * b

lemma linear_of_sum {name : String} {sel : Dict String String → Bool} (δ : Observation → ℚ)
    (h : ∀ observations malformed duplicates points,
      (Aggregator.addAll cfg observations).buildPoints cfg malformed duplicates = .ok points →
      total points name sel = (observations.map δ).sum) : Linear cfg name sel :=
  ⟨δ, 0, 0, fun observations malformed duplicates points hb => by
    rw [h observations malformed duplicates points hb, mul_zero, mul_zero, add_zero, add_zero]⟩

lemma linear_zero {name : String} {sel : Dict String String → Bool}
    (h : ∀ observations malformed duplicates points,
      (Aggregator.addAll cfg observations).buildPoints cfg malformed duplicates = .ok points →
      total points name sel = 0) : Linear cfg name sel :=
  linear_of_sum (fun _ => 0) fun observations malformed duplicates points hb => by
    rw [h observations malformed duplicates points hb]
    simp

omit [Runtime] in
lemma total_countIf (name : String) (sel : Dict String String → Bool) (n : ℕ) :
    sumOver MetricPoint.increment name sel (countIf name n) =
      n * if sel .empty then 1 else 0 := by
  have h := sumOver_counterIf name sel name n .empty
  rw [show counterIf name n .empty = countIf name n from rfl] at h
  rw [h]
  by_cases hs : sel .empty <;> simp [hs]

lemma linear_malformed (sel : Dict String String → Bool) :
    Linear cfg "gateway.pipeline.malformed_records" sel := by
  refine ⟨fun _ => 0, if sel .empty then 1 else 0, 0, fun observations malformed duplicates points
    h => ?_⟩
  obtain ⟨cost, hc, rfl⟩ := buildPoints_ok h
  have hcost := sumOver_costPoints_ne MetricPoint.increment sel hc
    (show "gateway.pipeline.malformed_records" ∉ costNames by decide)
  simp [total, hcost, total_countIf]

lemma linear_duplicates (sel : Dict String String → Bool) :
    Linear cfg "gateway.pipeline.duplicate_records" sel := by
  refine ⟨fun _ => 0, 0, if sel .empty then 1 else 0, fun observations malformed duplicates points
    h => ?_⟩
  obtain ⟨cost, hc, rfl⟩ := buildPoints_ok h
  have hcost := sumOver_costPoints_ne MetricPoint.increment sel hc
    (show "gateway.pipeline.duplicate_records" ∉ costNames by decide)
  simp [total, hcost, total_countIf]

omit [Runtime] in
lemma total_unknownPoints (sel : Dict String String → Bool) (unknownDims : Dict String ℕ) :
    total (Aggregator.unknownPoints unknownDims) "gateway.pipeline.unknown_dimension" sel =
      unknownDims.weightWhere (fun dim => sel (Dict.ofList [("dimension", dim)]))
        fun n : ℕ => (n : ℚ) := by
  rw [total, Aggregator.unknownPoints, List.map_eq_flatMap, sumOver_flatMap,
    Dict.weightWhere_eq_sum, ((List.perm_insertionSort _ _).map _).sum_eq]
  refine congrArg List.sum (List.map_congr_left fun e _ => ?_)
  simp only [sumOver_counter, sumOver_nil, true_and, add_zero]

lemma linear_unknown (sel : Dict String String → Bool) :
    Linear cfg "gateway.pipeline.unknown_dimension" sel := by
  refine linear_of_sum (fun obs => ((foldedDimensions obs cfg).map fun dim =>
    if sel (Dict.ofList [("dimension", dim)]) then 1 else 0).sum)
    fun observations malformed duplicates points h => ?_
  obtain ⟨cost, hc, rfl⟩ := buildPoints_ok h
  have hcost := sumOver_costPoints_ne MetricPoint.increment sel hc
    (show "gateway.pipeline.unknown_dimension" ∉ costNames by decide)
  have hsection := total_unknownPoints sel (Aggregator.addAll cfg observations).unknown
  rw [Aggregator.addAll_unknown, Dict.weightWhere_group _ _ _ _ _ (fun _ => 1) (by simp)
    (fun _ n => by simp), ← Aggregator.addAll_unknown, List.map_flatMap, List.flatMap_def,
    List.sum_flatten,
    List.map_map] at hsection
  refine Eq.trans ?_ (hsection.trans ?_)
  · simp [total, hcost]
  · simp only [Function.comp_def, Option.any_some]

omit [Runtime] in
/-- Histograms and gauges do not count. -/
lemma total_eq_zero {points : List MetricPoint} {name : String} {sel : Dict String String → Bool}
    (h : ∀ p ∈ points, p.name = name → p.increment = 0) : total points name sel = 0 := by
  rw [total, sumOver]
  refine List.sum_eq_zero fun x hx => ?_
  obtain ⟨p, hp, rfl⟩ := List.mem_map.mp hx
  rw [List.mem_filter, Bool.and_eq_true, beq_iff_eq] at hp
  exact h p hp.1 hp.2.1

omit [Runtime] in
lemma type_of_assertPoint {p : MetricPoint} {d : MetricDefinition} (h : assertPoint p = .ok ())
    (hl : metricRegistry.lookup p.name = some d) : p.type = d.type := by
  unfold assertPoint at h
  simp only [hl] at h
  by_contra hne
  rw [if_pos (Or.inl hne)] at h
  cases h

/-- Metrics that are registered as something else than counters do not count. -/
lemma linear_of_type {name : String} {sel : Dict String String → Bool} {d : MetricDefinition}
    (hl : metricRegistry.lookup name = some d) (hd : d.type ≠ .counter) :
    Linear cfg name sel := by
  refine linear_zero fun observations malformed duplicates points h => total_eq_zero ?_
  rintro p hp rfl
  have htype := type_of_assertPoint ((sound_buildPoints h).governed p hp) hl
  unfold MetricPoint.increment
  split
  · next hcounter _ => exact absurd (htype.symm.trans hcounter) hd
  · rfl

variable (cfg) in
/-- Every metric but the money is linear: its total over two lists is the sum of its totals. -/
theorem linear_of_ne {name : String} (hname : name ≠ "gateway.cost.usd")
    (sel : Dict String String → Bool) : Linear cfg name sel := by
  by_cases hn : name ∈ buildNames
  · have hcost : ∀ w, (name, w) ∈ costCounters → Linear cfg name sel := fun w hw =>
      linear_of_sum _ fun observations malformed duplicates points h => total_cost sel hw h
    simp only [buildNames, List.mem_cons, List.not_mem_nil, or_false] at hn
    rcases hn with rfl | rfl | rfl | rfl | rfl | rfl | rfl | rfl | rfl | rfl | rfl | rfl | rfl |
      rfl | rfl | rfl
    · exact linear_of_type (d := ⟨.histogram, "ms", primaryDimensions⟩) rfl (by decide)
    · exact linear_of_type (d := ⟨.histogram, "ms", primaryDimensions⟩) rfl (by decide)
    · exact linear_of_sum _ fun observations malformed duplicates points h => total_requests sel h
    · exact linear_of_sum _ fun observations malformed duplicates points h => total_errors sel h
    · exact absurd rfl hname
    · exact hcost CostEntry.count (by simp [costCounters])
    · exact hcost CostEntry.input (by simp [costCounters])
    · exact hcost CostEntry.output (by simp [costCounters])
    · exact linear_of_type (d := ⟨.gauge, "ratio", costDimensions⟩) rfl (by decide)
    · exact hcost CostEntry.cacheRead (by simp [costCounters])
    · exact hcost CostEntry.cacheHits (by simp [costCounters])
    · exact hcost CostEntry.missing (by simp [costCounters])
    · exact hcost CostEntry.invalid (by simp [costCounters])
    · exact linear_malformed sel
    · exact linear_duplicates sel
    · exact linear_unknown sel
  · exact linear_zero fun observations malformed duplicates points h =>
      sumOver_of_named _ _ _ (named_buildPoints h) hn

end Linear

/-! ## Money -/

section Money
variable [Runtime] {cfg : Config} {observations : List Observation} {malformed duplicates : ℕ}
  {points : List MetricPoint}

/-- What one observation costs, if it carries a valid cost. -/
def paid (obs : Observation) : ℚ := (Aggregator.addCost obs Aggregator.emptyCost).usd

omit [Runtime] in
lemma usd_addCost (obs : Observation) (c : CostEntry) :
    (Aggregator.addCost obs c).usd = c.usd + paid obs := by
  unfold paid Aggregator.addCost Aggregator.emptyCost
  cases obs.costInvalid <;> cases obs.costTotal <;> simp

omit [Runtime] in
lemma usd_foldl (xs : List Observation) :
    (xs.foldl (fun c obs => Aggregator.addCost obs c) Aggregator.emptyCost).usd =
      (xs.map paid).sum := by
  induction xs using List.reverseRecOn with
  | nil => rfl
  | append_singleton xs obs ih =>
    rw [List.foldl_append, List.map_append, List.sum_append, ← ih]
    simpa using usd_addCost obs _

omit [Runtime] in
lemma total_usd_costSeries (dims : Dict String String) (c : CostEntry) (ratio : Option ℚ)
    (sel : Dict String String → Bool) :
    total (costSeries dims c ratio) "gateway.cost.usd" sel =
      if sel dims then roundTo 6 c.usd else 0 := by
  have hratio :
      sumOver MetricPoint.increment "gateway.cost.usd" sel (ratioPoints dims ratio) = 0 := by
    cases ratio with
    | none => rfl
    | some r => simp [ratioPoints, sumOver_cons]
  have hcache : sumOver MetricPoint.increment "gateway.cost.usd" sel (cachePoints dims c) = 0 := by
    unfold cachePoints
    split_ifs <;> simp [sumOver_counter]
  simp [total, costSeries, hratio, hcache, sumOver_counterIf, sumOver_cons, counter,
    MetricPoint.increment]

/-- A window whose observations have no cost series with these dimensions. -/
lemma weight_usd_none {dims : Dict String String} (hnone : ∀ obs ∈ observations,
      (Aggregator.costDims cfg (Aggregator.costKey cfg obs)).same dims = false) :
    (Aggregator.addAll cfg observations).cost.weightWhere
      (fun key => (Aggregator.costDims cfg key).same dims) (fun c => roundTo 6 c.usd) = 0 := by
  rw [Aggregator.addAll_cost, Dict.weightWhere_eq_sum]
  refine List.sum_eq_zero fun x hx => ?_
  obtain ⟨e, he, rfl⟩ := List.mem_map.mp hx
  obtain ⟨obs, hobs, hkey⟩ := Dict.mem_group.mp (Dict.mem_def.mpr (List.mem_map_of_mem he))
  rw [← Option.some.inj hkey, hnone obs hobs]
  rfl

/-- The one entry of a cost series holds the money of all its observations. -/
lemma weight_usd_some {dims : Dict String String} {obs : Observation} (hobs : obs ∈ observations)
    (hsame : (Aggregator.costDims cfg (Aggregator.costKey cfg obs)).same dims = true) :
    (Aggregator.addAll cfg observations).cost.weightWhere
        (fun key => (Aggregator.costDims cfg key).same dims) (fun c => roundTo 6 c.usd) =
      roundTo 6 (observations.map fun obs =>
        if (Aggregator.costDims cfg (Aggregator.costKey cfg obs)).same dims then paid obs
        else 0).sum := by
  have hiff : ∀ obs' : Observation,
      (Aggregator.costDims cfg (Aggregator.costKey cfg obs')).same dims = true ↔
        Aggregator.costKey cfg obs' = Aggregator.costKey cfg obs := by
    intro obs'
    constructor
    · intro hsame'
      refine costDims_injective fun k => ?_
      rw [Dict.same_iff.mp hsame' k, Dict.same_iff.mp hsame k]
    · intro heq
      rw [heq, hsame]
  rw [Aggregator.addAll_cost, Dict.weightWhere_key _ (Aggregator.costKey cfg obs), Dict.get?_group,
    if_neg]
  · rw [Option.map_some, Option.getD_some, usd_foldl, Dict.sum_withKey]
    refine congrArg _ (congrArg List.sum (List.map_congr_left fun obs' _ => ?_))
    simp only [Option.some.injEq, ← hiff]
  · rw [Dict.withKey, List.filter_eq_nil_iff]
    exact fun hall => hall obs hobs (by simp)
  · intro key hkey
    obtain ⟨obs', _, heq⟩ := Dict.mem_group.mp hkey
    rw [← Option.some.inj heq]
    exact hiff obs'

/-- The money of one series: the observations of its key, added up exactly and rounded once. -/
theorem total_usd (dims : Dict String String)
    (h : (Aggregator.addAll cfg observations).buildPoints cfg malformed duplicates = .ok points) :
    total points "gateway.cost.usd" (·.same dims) = roundTo 6 (observations.map fun obs =>
      if (Aggregator.costDims cfg (Aggregator.costKey cfg obs)).same dims then paid obs
      else 0).sum := by
  obtain ⟨cost, hc, rfl⟩ := buildPoints_ok h
  obtain ⟨ratio, _, rfl⟩ := costPoints_ok hc
  have hsection := sumOver_entries MetricPoint.increment "gateway.cost.usd" (·.same dims)
    (Aggregator.addAll cfg observations).cost
    (fun e => costSeries (Aggregator.costDims cfg e.1) e.2 (ratio e.2))
    (fun key => (Aggregator.costDims cfg key).same dims) (fun c => roundTo 6 c.usd)
    (fun e _ => total_usd_costSeries _ _ _ _)
  refine Eq.trans (by simp [total]) (hsection.trans ?_)
  by_cases hex : ∃ obs ∈ observations,
      (Aggregator.costDims cfg (Aggregator.costKey cfg obs)).same dims = true
  · obtain ⟨obs, hobs, hsame⟩ := hex
    exact weight_usd_some hobs hsame
  · have hnone : ∀ obs ∈ observations,
        (Aggregator.costDims cfg (Aggregator.costKey cfg obs)).same dims = false := by
      intro obs hobs
      rw [Bool.eq_false_iff]
      exact fun hsame => hex ⟨obs, hobs, hsame⟩
    have hzero : (observations.map fun obs =>
        if (Aggregator.costDims cfg (Aggregator.costKey cfg obs)).same dims then paid obs
        else 0).sum = 0 := by
      refine List.sum_eq_zero fun x hx => ?_
      obtain ⟨obs, hobs, rfl⟩ := List.mem_map.mp hx
      rw [hnone obs hobs]
      rfl
    rw [weight_usd_none hnone, hzero, roundTo_zero]

end Money

/-! ## Histograms are sums of single values -/

section Histograms
variable [Runtime] {cfg : Config} {observations : List Observation} {malformed duplicates : ℕ}
  {points : List MetricPoint}

/-- The key of an observation in a histogram of some of its values. -/
def valueKey (cfg : Config) (value : Observation → Option ℚ) (obs : Observation) :
    Option PrimaryDims :=
  (value obs).map fun _ => primaryDims obs cfg

def addValue (value : Observation → Option ℚ) (obs : Observation) (acc : HistAcc) : HistAcc :=
  match value obs with
  | none => acc
  | some v => acc.add v

/-- The distribution of one observation in the series of the given dimensions. -/
def contribution (cfg : Config) (value : Observation → Option ℚ) (dims : Dict String String)
    (obs : Observation) : Distribution ℚ :=
  match value obs with
  | none => 0
  | some v => if (primaryDims obs cfg).asDict.same dims then
      .single (bucketOf cfg.latencyBucketsMs v) v else 0

omit [Runtime] in
/-- A grouped accumulator holds the distribution of its observations. -/
lemma distribution_foldl (value : Observation → Option ℚ) (bounds : List PyFloat)
    (xs : List Observation) :
    (xs.foldl (fun acc obs => addValue value obs acc) (.new bounds)).bounds = bounds ∧
      (xs.foldl (fun acc obs => addValue value obs acc) (.new bounds)).distribution =
        (xs.map fun obs => match value obs with
          | none => 0
          | some v => .single (bucketOf bounds v) v).sum := by
  induction xs using List.reverseRecOn with
  | nil => exact ⟨rfl, HistAcc.distribution_new bounds⟩
  | append_singleton xs obs ih =>
    obtain ⟨hb, hd⟩ := ih
    rw [List.foldl_append, List.map_append, List.sum_append, ← hd]
    simp only [List.foldl_cons, List.foldl_nil, List.map_cons, List.map_nil, List.sum_cons,
      List.sum_nil, add_zero]
    generalize xs.foldl (fun acc obs => addValue value obs acc) (.new bounds) = acc at hb
    cases hv : value obs with
    | none => simp [addValue, hv, hb]
    | some v =>
      simp only [addValue, hv]
      exact ⟨hb, by rw [HistAcc.distribution_add, hb]⟩

omit [Runtime] in
lemma count_foldl (value : Observation → Option ℚ) (bounds : List PyFloat)
    (xs : List Observation) :
    (xs.foldl (fun acc obs => addValue value obs acc) (.new bounds)).count =
      xs.countP fun obs => (value obs).isSome := by
  induction xs using List.reverseRecOn with
  | nil => rfl
  | append_singleton xs obs ih =>
    rw [List.foldl_append, List.countP_append, ← ih]
    cases hv : value obs with
    | none => simp [addValue, hv]
    | some v => simp [addValue, hv, HistAcc.add]

omit [Runtime] in
lemma primaryDims_same {pk pk' : PrimaryDims} {dims : Dict String String}
    (h : pk.asDict.same dims = true) (h' : pk'.asDict.same dims = true) : pk = pk' :=
  primaryDims_eq (labels_asDict pk) (labels_asDict pk') fun k => by
    rw [Dict.same_iff.mp h k, Dict.same_iff.mp h' k]

omit [Runtime] in
/-- A series without observations has no point with a histogram. -/
lemma distributionAt_none {name : String} {dims : Dict String String}
    (h : ∀ p ∈ points, p.name = name → p.dims.same dims = true → p.histogram = none) :
    distributionAt points name dims = 0 := by
  unfold distributionAt
  cases hp : pointAt points name dims with
  | none => rfl
  | some p =>
    have hmem := List.mem_of_find?_eq_some hp
    have hprop := List.find?_some hp
    rw [Bool.and_eq_true, beq_iff_eq] at hprop
    rw [Option.bind_some, h p hmem hprop.1 hprop.2]
    rfl

omit [Runtime] in
/-- Among distinct points, the view finds the point of a series. -/
lemma pointAt_of_mem
    (hd : points.Pairwise fun p q => p.name = q.name → p.dims.same q.dims = false)
    {p : MetricPoint} (hp : p ∈ points) {dims : Dict String String}
    (hsame : p.dims.same dims = true) : pointAt points p.name dims = some p := by
  induction points with
  | nil => cases hp
  | cons q qs ih =>
    obtain ⟨hq, hqs⟩ := List.pairwise_cons.mp hd
    rcases List.mem_cons.mp hp with rfl | hp
    · exact List.find?_cons_of_pos (by simp [hsame])
    · refine (List.find?_cons_of_neg ?_).trans (ih hqs hp)
      intro heq
      rw [Bool.and_eq_true, beq_iff_eq] at heq
      have hqp : q.dims.same p.dims = true := by
        rw [Dict.same_iff]
        intro k
        rw [Dict.same_iff.mp heq.2 k, Dict.same_iff.mp hsame k]
      rw [hq p hp heq.1] at hqp
      cases hqp

lemma valueKey_eq_some {value : Observation → Option ℚ} {obs : Observation} {pk : PrimaryDims} :
    valueKey cfg value obs = some pk ↔ (value obs).isSome ∧ primaryDims obs cfg = pk := by
  cases hv : value obs <;> simp [valueKey, hv]

/-- The accumulator of a series with observations: it is emitted, and holds the
distribution of all of them. -/
lemma group_value {value : Observation → Option ℚ} {dims : Dict String String} {obs : Observation}
    (hobs : obs ∈ observations) (hsome : (value obs).isSome)
    (hsame : (primaryDims obs cfg).asDict.same dims = true) :
    ∃ acc, (Dict.group (valueKey cfg value) (.new cfg.latencyBucketsMs) (addValue value)
        observations).get? (primaryDims obs cfg) = some acc ∧ acc.count ≠ 0 ∧
      acc.distribution = (observations.map (contribution cfg value dims)).sum := by
  have hmem : obs ∈ Dict.withKey (valueKey cfg value) (primaryDims obs cfg) observations :=
    List.mem_filter.mpr ⟨hobs, decide_eq_true (valueKey_eq_some.mpr ⟨hsome, rfl⟩)⟩
  refine ⟨_, (Dict.get?_group _ _ _ _ _).trans (if_neg (List.ne_nil_of_mem hmem)), ?_, ?_⟩
  · rw [count_foldl]
    exact (List.countP_pos_iff.mpr ⟨obs, hmem, hsome⟩).ne'
  · rw [(distribution_foldl value cfg.latencyBucketsMs _).2, Dict.sum_withKey]
    refine congrArg List.sum (List.map_congr_left fun obs' _ => ?_)
    rw [contribution]
    cases hv : value obs' with
    | none => simp
    | some v =>
      have hiff : valueKey cfg value obs' = some (primaryDims obs cfg) ↔
          (primaryDims obs' cfg).asDict.same dims = true := by
        rw [valueKey_eq_some, hv]
        constructor
        · rintro ⟨-, heq⟩
          rw [heq, hsame]
        · exact fun h => ⟨rfl, primaryDims_same h hsame⟩
      simp only [hiff]

/-- A histogram is the sum of the distributions of the observations. -/
lemma distributionAt_section {name : String} {value : Observation → Option ℚ}
    {dims : Dict String String} {d : Dict PrimaryDims HistAcc}
    (hd : points.Pairwise fun p q => p.name = q.name → p.dims.same q.dims = false)
    (htable : d = Dict.group (valueKey cfg value) (.new cfg.latencyBucketsMs) (addValue value)
      observations)
    (hin : ∀ p ∈ Aggregator.histogramPoints name d, p ∈ points)
    (hout : ∀ p ∈ points, p.name = name → ∀ hist, p.histogram = some hist →
      ∃ e ∈ d.entries, p.dims = e.1.asDict) :
    distributionAt points name dims = (observations.map (contribution cfg value dims)).sum := by
  by_cases hex : ∃ obs ∈ observations, (value obs).isSome ∧
      (primaryDims obs cfg).asDict.same dims = true
  · obtain ⟨obs, hobs, hsome, hsame⟩ := hex
    obtain ⟨acc, hget, hcount, hdist⟩ := group_value hobs hsome hsame
    rw [← htable] at hget
    have hpoint : acc.toPoint name (primaryDims obs cfg).asDict ∈ points := by
      refine hin _ (List.mem_map.mpr ⟨(primaryDims obs cfg, acc), ?_, rfl⟩)
      exact List.mem_filter.mpr ⟨Dict.mem_entries.mpr hget, by simpa using hcount⟩
    have hfind : pointAt points name dims =
        some (acc.toPoint name (primaryDims obs cfg).asDict) := pointAt_of_mem hd hpoint hsame
    rw [distributionAt, hfind, ← hdist]
    rfl
  · have hnone : ∀ obs ∈ observations, contribution cfg value dims obs = 0 := by
      intro obs hobs
      rw [contribution]
      cases hv : value obs with
      | none => rfl
      | some v => exact if_neg fun hsame => hex ⟨obs, hobs, by rw [hv]; rfl, hsame⟩
    rw [List.map_congr_left hnone, List.map_const', List.sum_replicate, nsmul_zero]
    refine distributionAt_none fun p hp hname hsame => ?_
    cases hh : p.histogram with
    | none => rfl
    | some hist =>
      obtain ⟨e, he, hdims⟩ := hout p hp hname hist hh
      rw [htable] at he
      obtain ⟨obs, hobs, hkey⟩ := Dict.mem_group.mp (Dict.mem_def.mpr (List.mem_map_of_mem he))
      obtain ⟨hsome, hpk⟩ := valueKey_eq_some.mp hkey
      rw [hdims, ← hpk] at hsame
      exact absurd ⟨obs, hobs, hsome, hsame⟩ hex

variable (cfg) in
/-- Every histogram is the sum of one contribution for each observation, in whatever order they
came. -/
theorem distributionAt_eq_sum (name : String) (dims : Dict String String) :
    ∃ δ : Observation → Distribution ℚ, ∀ observations malformed duplicates points,
      (Aggregator.addAll cfg observations).buildPoints cfg malformed duplicates = .ok points →
      distributionAt points name dims = (observations.map δ).sum := by
  by_cases hdur : name = "gateway.request.duration"
  · refine ⟨contribution cfg (fun obs => some obs.latencyMs) dims,
      fun observations malformed duplicates points h => ?_⟩
    refine distributionAt_section (sound_buildPoints h).distinct
      (Aggregator.addAll_dur cfg observations) (fun p hp => ?_) fun p hp hname hist hh => ?_
    · obtain ⟨cost, hc, rfl⟩ := buildPoints_ok h
      simp only [List.mem_append]
      exact Or.inl (Or.inl (Or.inl (Or.inl (Or.inl (Or.inl (Or.inl (hdur ▸ hp)))))))
    · obtain ⟨e, ⟨_, he⟩ | ⟨hother, _⟩, _, hpe⟩ := histogram_of_mem_buildPoints h hp hh
      · exact ⟨e, he, congrArg MetricPoint.dims hpe⟩
      · rw [hname, hdur] at hother
        exact absurd hother (by decide)
  · by_cases httft : name = "gateway.request.ttft"
    · refine ⟨contribution cfg Observation.ttftMs dims,
        fun observations malformed duplicates points h => ?_⟩
      refine distributionAt_section (sound_buildPoints h).distinct
        (Aggregator.addAll_ttft cfg observations) (fun p hp => ?_) fun p hp hname hist hh => ?_
      · obtain ⟨cost, hc, rfl⟩ := buildPoints_ok h
        simp only [List.mem_append]
        exact Or.inl (Or.inl (Or.inl (Or.inl (Or.inl (Or.inl (Or.inr (httft ▸ hp)))))))
      · obtain ⟨e, ⟨hother, _⟩ | ⟨_, he⟩, _, hpe⟩ := histogram_of_mem_buildPoints h hp hh
        · rw [hname, httft] at hother
          exact absurd hother (by decide)
        · exact ⟨e, he, congrArg MetricPoint.dims hpe⟩
    · refine ⟨fun _ => 0, fun observations malformed duplicates points h => ?_⟩
      rw [List.map_const', List.sum_replicate, nsmul_zero]
      refine distributionAt_none fun p hp hname _ => ?_
      cases hh : p.histogram with
      | none => rfl
      | some hist =>
        obtain ⟨e, ⟨hn, _⟩ | ⟨hn, _⟩, _⟩ := histogram_of_mem_buildPoints h hp hh
        · exact absurd (hname ▸ hn) hdur
        · exact absurd (hname ▸ hn) httft

end Histograms

/-! ## Order of the observations -/

section Order
variable [Runtime] {cfg : Config} {xs ys : List Observation}

omit [Runtime] in
lemma addValue_comm (value : Observation → Option ℚ) (a b : Observation) (acc : HistAcc) :
    addValue value a (addValue value b acc) = addValue value b (addValue value a acc) := by
  unfold addValue
  cases value a <;> cases value b <;> simp only [HistAcc.add_comm]

omit [Runtime] in
lemma addOutcome_comm (a b : Observation) (c : OutcomeCounts) :
    Aggregator.addOutcome a (Aggregator.addOutcome b c) =
      Aggregator.addOutcome b (Aggregator.addOutcome a c) := by
  unfold Aggregator.addOutcome
  by_cases ha : a.isError <;> by_cases hb : b.isError <;> simp [ha, hb]

omit [Runtime] in
/-- The money and the counters determine an entry. -/
lemma costEntry_eq {c c' : CostEntry} (husd : c.usd = c'.usd)
    (h : ∀ name w, (name, w) ∈ costCounters → w c = w c') : c = c' := by
  have h1 := h "gateway.cost.request_count" CostEntry.count (by simp [costCounters])
  have h2 := h "gateway.tokens.input" CostEntry.input (by simp [costCounters])
  have h3 := h "gateway.tokens.output" CostEntry.output (by simp [costCounters])
  have h4 := h "gateway.cache.read_tokens" CostEntry.cacheRead (by simp [costCounters])
  have h5 := h "gateway.cache.hit_count" CostEntry.cacheHits (by simp [costCounters])
  have h6 := h "gateway.cost.records_missing" CostEntry.missing (by simp [costCounters])
  have h7 := h "gateway.cost.records_invalid" CostEntry.invalid (by simp [costCounters])
  cases c
  cases c'
  simp_all

omit [Runtime] in
lemma addCost_comm (a b : Observation) (c : CostEntry) :
    Aggregator.addCost a (Aggregator.addCost b c) =
      Aggregator.addCost b (Aggregator.addCost a c) := by
  refine costEntry_eq ?_ fun name w hn => ?_
  · rw [usd_addCost, usd_addCost, usd_addCost, usd_addCost, add_right_comm]
  · have hab := addCost_counter hn a (Aggregator.addCost b c)
    have hba := addCost_counter hn b (Aggregator.addCost a c)
    have ha := addCost_counter hn a c
    have hb := addCost_counter hn b c
    omega

variable (cfg) in
/-- The tables of a window hold the same entries in whatever order it is folded. -/
lemma perm_tables (h : xs.Perm ys) :
    (Aggregator.addAll cfg xs).dur.entries.Perm (Aggregator.addAll cfg ys).dur.entries ∧
      (Aggregator.addAll cfg xs).ttft.entries.Perm (Aggregator.addAll cfg ys).ttft.entries ∧
      (Aggregator.addAll cfg xs).counts.entries.Perm (Aggregator.addAll cfg ys).counts.entries ∧
      (Aggregator.addAll cfg xs).errcat.entries.Perm (Aggregator.addAll cfg ys).errcat.entries ∧
      (Aggregator.addAll cfg xs).cost.entries.Perm (Aggregator.addAll cfg ys).cost.entries ∧
      (Aggregator.addAll cfg xs).unknown.entries.Perm
        (Aggregator.addAll cfg ys).unknown.entries := by
  refine ⟨?_, ?_, ?_, ?_, ?_, ?_⟩
  · rw [Aggregator.addAll_dur, Aggregator.addAll_dur]
    exact Dict.entries_perm (Dict.get?_group_perm _ _ _
      (fun a b acc => HistAcc.add_comm acc b.latencyMs a.latencyMs) h)
  · rw [Aggregator.addAll_ttft, Aggregator.addAll_ttft]
    exact Dict.entries_perm (Dict.get?_group_perm _ _ _ (addValue_comm Observation.ttftMs) h)
  · rw [Aggregator.addAll_counts, Aggregator.addAll_counts]
    exact Dict.entries_perm (Dict.get?_group_perm _ _ _ addOutcome_comm h)
  · rw [Aggregator.addAll_errcat, Aggregator.addAll_errcat]
    exact Dict.entries_perm (Dict.get?_group_perm _ _ _ (fun _ _ _ => rfl) h)
  · rw [Aggregator.addAll_cost, Aggregator.addAll_cost]
    exact Dict.entries_perm (Dict.get?_group_perm _ _ _ addCost_comm h)
  · rw [Aggregator.addAll_unknown, Aggregator.addAll_unknown]
    exact Dict.entries_perm (Dict.get?_group_perm _ _ _ (fun _ _ _ => rfl) (h.flatMap_right _))

/-- The points of a window do not depend on the order of its observations, but for the order in
which they are listed. -/
theorem perm_buildPoints (h : xs.Perm ys) {malformed duplicates : ℕ} {points : List MetricPoint}
    (hb : (Aggregator.addAll cfg xs).buildPoints cfg malformed duplicates = .ok points) :
    ∃ points', (Aggregator.addAll cfg ys).buildPoints cfg malformed duplicates = .ok points' ∧
      points'.Perm points := by
  obtain ⟨hdur, httft, hcounts, herrcat, hcost, hunknown⟩ := perm_tables cfg h
  obtain ⟨cost, hc, rfl⟩ := buildPoints_ok hb
  obtain ⟨ratio, hratio, rfl⟩ := costPoints_ok hc
  have hratio' : ∀ e ∈ (Aggregator.addAll cfg ys).cost.entries,
      Aggregator.completionRatio e.2 = .ok (ratio e.2) :=
    fun e he => hratio e (hcost.mem_iff.mpr he)
  have hc' := costPoints_eq cfg hratio'
  refine ⟨_, by rw [Aggregator.buildPoints, hc']; rfl, ?_⟩
  refine List.Perm.append (List.Perm.append (List.Perm.append (List.Perm.append (List.Perm.append
    (List.Perm.append (List.Perm.append ?_ ?_) ?_) ?_) ?_) (List.Perm.refl _))
    (List.Perm.refl _)) ?_
  · exact (hdur.symm.filter _).map _
  · exact (httft.symm.filter _).map _
  · exact hcounts.symm.flatMap_right _
  · exact herrcat.symm.map _
  · exact hcost.symm.flatMap_right _
  · exact (((List.perm_insertionSort _ _).trans hunknown.symm).trans
      (List.perm_insertionSort _ _).symm).map _

end Order

/-! ## The main result -/

/-- Rounding the parts and rounding the whole differ by three half units at most. -/
lemma abs_roundTo_add_le (a b : ℚ) :
    |roundTo 6 (a + b) - (roundTo 6 a + roundTo 6 b)| ≤ 15 / 10 ^ 7 := by
  obtain ⟨h1, h2⟩ := abs_le.mp (abs_roundTo_sub_le 6 (a + b))
  obtain ⟨h3, h4⟩ := abs_le.mp (abs_roundTo_sub_le 6 a)
  obtain ⟨h5, h6⟩ := abs_le.mp (abs_roundTo_sub_le 6 b)
  norm_num at h1 h2 h3 h4 h5 h6 ⊢
  rw [abs_le]
  constructor <;> linarith

lemma buildPoints_of_build {cfg : Config} {agg : Aggregator} {malformed duplicates : ℕ}
    {points : List MetricPoint} {stats : AggregationStats}
    (h : agg.build cfg malformed duplicates = .ok (points, stats)) :
    agg.buildPoints cfg malformed duplicates = .ok points := by
  unfold Aggregator.build at h
  obtain ⟨ps, hps, h⟩ := bind_eq_ok h
  cases h
  exact hps

/-- The points of two windows add up to the points of the window of all their
observations, in whatever order these are folded. -/
theorem windows_additive [Runtime] (cfg : Config) (xs ys : List Observation)
    (malformed malformed' duplicates duplicates' : ℕ) (left right whole : List MetricPoint)
    (s s' s'' : AggregationStats)
    (hx : (xs.foldl (Aggregator.add cfg) .new).build cfg malformed duplicates = .ok (left, s))
    (hy : (ys.foldl (Aggregator.add cfg) .new).build cfg malformed' duplicates' =
      .ok (right, s'))
    (hxy : ((xs ++ ys).foldl (Aggregator.add cfg) .new).build cfg (malformed + malformed')
      (duplicates + duplicates') = .ok (whole, s'')) :
    Additive left right whole ∧
      ∀ zs : List Observation, zs.Perm (xs ++ ys) → ∃ points stats,
        (zs.foldl (Aggregator.add cfg) .new).build cfg (malformed + malformed')
          (duplicates + duplicates') = .ok (points, stats) ∧ points.Perm whole := by
  have hl : (Aggregator.addAll cfg xs).buildPoints cfg malformed duplicates = .ok left :=
    buildPoints_of_build hx
  have hr : (Aggregator.addAll cfg ys).buildPoints cfg malformed' duplicates' = .ok right :=
    buildPoints_of_build hy
  have hw : (Aggregator.addAll cfg (xs ++ ys)).buildPoints cfg (malformed + malformed')
      (duplicates + duplicates') = .ok whole := buildPoints_of_build hxy
  have hread : ∀ name dims,
      counterAt left name dims = total left name (·.same dims) ∧
        counterAt right name dims = total right name (·.same dims) ∧
        counterAt whole name dims = total whole name (·.same dims) := fun name dims =>
    ⟨counterAt_eq_total (sound_buildPoints hl).distinct name dims,
      counterAt_eq_total (sound_buildPoints hr).distinct name dims,
      counterAt_eq_total (sound_buildPoints hw).distinct name dims⟩
  refine ⟨⟨?_, ?_, ?_⟩, ?_⟩
  · intro name dims hname
    obtain ⟨h1, h2, h3⟩ := hread name dims
    obtain ⟨δ, a, b, hlin⟩ := linear_of_ne cfg hname (·.same dims)
    rw [h1, h2, h3, hlin _ _ _ _ hl, hlin _ _ _ _ hr, hlin _ _ _ _ hw, List.map_append,
      List.sum_append, Nat.cast_add, Nat.cast_add]
    ring
  · intro name dims
    obtain ⟨δ, hsum⟩ := distributionAt_eq_sum cfg name dims
    rw [hsum _ _ _ _ hl, hsum _ _ _ _ hr, hsum _ _ _ _ hw, List.map_append, List.sum_append]
  · intro dims
    obtain ⟨h1, h2, h3⟩ := hread "gateway.cost.usd" dims
    rw [h1, h2, h3, total_usd dims hl, total_usd dims hr, total_usd dims hw, List.map_append,
      List.sum_append]
    exact abs_roundTo_add_le _ _
  · intro zs hzs
    obtain ⟨points, hpoints, hperm⟩ := perm_buildPoints hzs.symm hw
    refine ⟨points, (Aggregator.addAll cfg zs).buildStats (malformed + malformed')
      (duplicates + duplicates'), ?_, hperm⟩
    change ((Aggregator.addAll cfg zs).build cfg _ _) = _
    rw [Aggregator.build, hpoints]
    rfl

theorem windows_additive_sample :
    letI := Runtime.ascii
    let build (observations : List Observation) (malformed duplicates : ℕ) :=
      (observations.foldl (Aggregator.add .default) .new).build .default malformed duplicates
    ∃ left s right s' whole s'', build sampleObservations 1 0 = .ok (left, s) ∧
      build (sampleObservations.take 2) 0 2 = .ok (right, s') ∧
      build (sampleObservations ++ sampleObservations.take 2) (1 + 0) (0 + 2) = .ok (whole, s'') ∧
      Additive left right whole ∧
      ∀ zs : List Observation, zs.Perm (sampleObservations ++ sampleObservations.take 2) →
        ∃ points stats,
        build zs (1 + 0) (0 + 2) = .ok (points, stats) ∧ points.Perm whole := by
  let := Runtime.ascii
  intro build
  obtain ⟨⟨left, s⟩, hx⟩ := exists_ok_of_isOk (x := build sampleObservations 1 0)
    (by decide +kernel)
  obtain ⟨⟨right, s'⟩, hy⟩ := exists_ok_of_isOk (x := build (sampleObservations.take 2) 0 2)
    (by decide +kernel)
  obtain ⟨⟨whole, s''⟩, hxy⟩ := exists_ok_of_isOk
    (x := build (sampleObservations ++ sampleObservations.take 2) (1 + 0) (0 + 2))
    (by decide +kernel)
  exact ⟨left, s, right, s', whole, s'', hx, hy, hxy,
    windows_additive _ _ _ _ _ _ _ _ _ _ _ _ _ hx hy hxy⟩

end InferenceControlPlane.Sli
