import InferenceControlPlane.Sli.Tables

/-!
# Reconciliation of the emitted views

One observation is folded into six tables under different keys. The points that
are read off these tables agree with each other over every selection of series:
counts with histograms and cost series, error categories with error outcomes, and
the cost record classes with the counters of the statistics.
-/
namespace InferenceControlPlane.Sli
open Python Normalize

/-! ## Histograms -/

/-- The buckets account for every value of a histogram, and one with values has its least and its
greatest. -/
structure HistAcc.Balanced (acc : HistAcc) : Prop where
  counts : acc.counts.sum + acc.inf = acc.count
  range : (acc.count = 0 ∧ acc.min = none ∧ acc.max = none) ∨
    ∃ lo hi, acc.min = some lo ∧ acc.max = some hi ∧ lo ≤ hi

lemma sum_bumpBucket (v : ℚ) (bs : List PyFloat) (cs : List ℕ) :
    (bumpBucket v bs cs).1.sum = cs.sum + if (bumpBucket v bs cs).2 then 1 else 0 := by
  induction bs generalizing cs with
  | nil => simp [bumpBucket]
  | cons b bs ih =>
    cases cs with
    | nil => simp [bumpBucket]
    | cons c cs =>
      by_cases h : (PyFloat.finite v).le b
      · simp only [bumpBucket, h, if_true, List.sum_cons]
        omega
      · have hrest := ih cs
        simp only [bumpBucket, h, Bool.false_eq_true, if_false, List.sum_cons]
        omega

theorem HistAcc.balanced_new (bounds : List PyFloat) : (HistAcc.new bounds).Balanced where
  counts := by simp [HistAcc.new]
  range := Or.inl ⟨rfl, rfl, rfl⟩

theorem HistAcc.Balanced.add {acc : HistAcc} (h : acc.Balanced) (v : ℚ) : (acc.add v).Balanced where
  counts := by
    have hsum := sum_bumpBucket v acc.bounds acc.counts
    have hcounts := h.counts
    simp only [HistAcc.add]
    split_ifs at hsum ⊢ <;> omega
  range := by
    refine Or.inr ⟨_, _, rfl, rfl, ?_⟩
    rcases h.range with ⟨-, hmin, hmax⟩ | ⟨lo, hi, hmin, hmax, hle⟩
    · simp only [hmin, hmax, le_refl]
    · simp only [hmin, hmax]
      split_ifs with h1 h2 h2
      · exact le_refl v
      · exact h1.le.trans hle
      · exact (not_lt.mp h1).trans (le_refl v)
      · exact hle

/-- Every accumulator of a grouped fold of values is balanced: its buckets and its overflow add up
to its count. -/
theorem balanced_group {κ : Type} [DecidableEq κ] {key : Observation → Option κ}
    {bounds : List PyFloat} {f : Observation → HistAcc → HistAcc}
    (hf : ∀ obs acc, acc.Balanced → (f obs acc).Balanced) {observations : List Observation}
    {e : κ × HistAcc} (he : e ∈ (Dict.group key (.new bounds) f observations).entries) :
    e.2.Balanced := by
  rw [Dict.mem_entries, Dict.get?_group] at he
  split_ifs at he
  rw [← Option.some.inj he]
  induction Dict.withKey key e.1 observations using List.reverseRecOn with
  | nil => exact HistAcc.balanced_new bounds
  | append_singleton xs obs ih =>
    rw [List.foldl_append]
    exact hf obs _ ih

/-! Histograms come from the two histogram sections. -/

def Plain (points : List MetricPoint) : Prop := ∀ p ∈ points, p.histogram = none

theorem Plain.append {a b : List MetricPoint} (ha : Plain a) (hb : Plain b) : Plain (a ++ b) :=
  fun p hp => (List.mem_append.mp hp).elim (ha p) (hb p)

theorem plain_countIf (name : String) (n : ℕ) : Plain (countIf name n) := by
  unfold countIf
  split_ifs <;> simp [Plain, counter]

theorem plain_countPoints (counts : Dict PrimaryDims OutcomeCounts) :
    Plain (Aggregator.countPoints counts) := by
  intro p hp
  obtain ⟨e, _, hp⟩ := List.mem_flatMap.mp hp
  by_cases h : e.2.error = 0
  · simp only [h, if_true, List.mem_singleton] at hp
    rw [hp]
    rfl
  · simp only [h, if_false, List.mem_cons, List.not_mem_nil, or_false] at hp
    rcases hp with rfl | rfl <;> rfl

theorem plain_costSeries (dims : Dict String String) (c : CostEntry) (ratio : Option ℚ) :
    Plain (costSeries dims c ratio) := by
  refine (((Plain.append ?_ ?_).append ?_).append ?_).append ?_
  · simp [Plain, counter]
  · cases ratio <;> simp [Plain, ratioPoints]
  · unfold cachePoints
    split_ifs <;> simp [Plain, counter]
  · unfold counterIf
    split_ifs <;> simp [Plain, counter]
  · unfold counterIf
    split_ifs <;> simp [Plain, counter]

theorem histogram_of_mem_buildPoints {cfg : Config} {agg : Aggregator} {malformed duplicates : ℕ}
    {points : List MetricPoint} (h : agg.buildPoints cfg malformed duplicates = .ok points)
    {p : MetricPoint} (hp : p ∈ points) {hist : HistogramValue} (hh : p.histogram = some hist) :
    ∃ e, ((p.name = "gateway.request.duration" ∧ e ∈ agg.dur.entries) ∨
        (p.name = "gateway.request.ttft" ∧ e ∈ agg.ttft.entries)) ∧
      e.2.count ≠ 0 ∧ p = e.2.toPoint p.name e.1.asDict := by
  obtain ⟨cost, hc, rfl⟩ := buildPoints_ok h
  obtain ⟨ratio, _, rfl⟩ := costPoints_ok hc
  have hsection : ∀ {name src}, p ∈ Aggregator.histogramPoints name src →
      ∃ e ∈ src.entries, e.2.count ≠ 0 ∧ p = e.2.toPoint name e.1.asDict := by
    intro name src hp
    obtain ⟨e, he, rfl⟩ := List.mem_map.mp hp
    rw [List.mem_filter] at he
    exact ⟨e, he.1, by simpa using he.2, rfl⟩
  have hplain : ∀ {ps}, Plain ps → p ∉ ps := by
    intro ps hps hmem
    rw [hps p hmem] at hh
    cases hh
  simp only [List.mem_append] at hp
  rcases hp with ((((((hp | hp) | hp) | hp) | hp) | hp) | hp) | hp
  · obtain ⟨e, he, h0, rfl⟩ := hsection hp
    exact ⟨e, Or.inl ⟨rfl, he⟩, h0, rfl⟩
  · obtain ⟨e, he, h0, rfl⟩ := hsection hp
    exact ⟨e, Or.inr ⟨rfl, he⟩, h0, rfl⟩
  · exact absurd hp (hplain (plain_countPoints _))
  · obtain ⟨e, _, rfl⟩ := List.mem_map.mp hp
    cases hh
  · obtain ⟨e, _, hp⟩ := List.mem_flatMap.mp hp
    exact absurd hp (hplain (plain_costSeries _ _ _))
  · exact absurd hp (hplain (plain_countIf _ _))
  · exact absurd hp (hplain (plain_countIf _ _))
  · obtain ⟨e, _, rfl⟩ := List.mem_map.mp hp
    cases hh

/-! ## The views -/

/-- The series that carry all of the given labels. -/
def carrying (labels : List (String × String)) (dims : Dict String String) : Bool :=
  labels.all fun l => dims.get? l.1 == some l.2

def primaryLabels (pk : PrimaryDims) : List (String × String) :=
  [("team", pk.team), ("route", pk.route), ("model_family", pk.modelFamily), ("env", pk.env)]

/-- The points and the statistics of one window agree with each other: the ways of counting the
same observations, by metric, by dimension or in all, come to the same numbers, and a part is
never more than its whole. -/
structure Reconciled (observations : List Observation) (points : List MetricPoint)
    (stats : AggregationStats) : Prop where
  requests : total points "gateway.request.count" (carrying []) = observations.length
  durations : samples points "gateway.request.duration" (carrying []) = observations.length
  costed : total points "gateway.cost.request_count" (carrying []) = observations.length
  errors : ∀ pk : PrimaryDims,
    total points "gateway.request.errors" (carrying (primaryLabels pk)) =
      total points "gateway.request.count" (carrying (("outcome", "error") :: primaryLabels pk))
  firstTokens : ∀ pk : PrimaryDims,
    samples points "gateway.request.ttft" (carrying (primaryLabels pk)) ≤
      total points "gateway.request.count" (carrying (("outcome", "success") :: primaryLabels pk))
  workloads : ∀ team route family : String,
    let labels := [("team", team), ("route", route), ("model_family", family)]
    total points "gateway.request.count" (carrying labels) =
      total points "gateway.cost.request_count" (carrying labels)
  histograms : ∀ p ∈ points, ∀ hist, p.histogram = some hist →
    hist.bucketCounts.sum + hist.overflow = hist.count ∧
      ∃ lo hi, hist.min = some lo ∧ hist.max = some hi ∧ lo ≤ hi
  classes : ∀ labels : List (String × String),
    total points "gateway.cost.records_missing" (carrying labels) +
        total points "gateway.cost.records_invalid" (carrying labels) ≤
      total points "gateway.cost.request_count" (carrying labels)
  hits : ∀ labels : List (String × String),
    total points "gateway.cache.hit_count" (carrying labels) ≤
      total points "gateway.cost.request_count" (carrying labels)
  missing : total points "gateway.cost.records_missing" (carrying []) = stats.costMissing
  invalid : total points "gateway.cost.records_invalid" (carrying []) = stats.costInvalid

/-! ## Labels of an observation -/

theorem get?_asDict (pk : PrimaryDims) (k : String) :
    pk.asDict.get? k =
      if "env" = k then some pk.env else if "model_family" = k then some pk.modelFamily
      else if "route" = k then some pk.route else if "team" = k then some pk.team else none := by
  simp [PrimaryDims.asDict, Dict.ofList, Dict.update]

theorem get?_costDims (cfg : Config) (key : CostKey) (k : String) :
    (Aggregator.costDims cfg key).get? k =
      if cfg.includeProviderRegion ∧ "provider_region" = k then some key.2.2.2
      else if "model_family" = k then some key.2.2.1 else if "route" = k then some key.2.1
      else if "team" = k then some key.1 else none := by
  unfold Aggregator.costDims
  by_cases hr : cfg.includeProviderRegion
  · simp [hr, Dict.ofList, Dict.update]
  · simp [hr, Dict.ofList, Dict.update]

theorem carrying_primaryLabels {pk pk' : PrimaryDims} {dims : Dict String String}
    (h : ∀ l ∈ primaryLabels pk', dims.get? l.1 = some l.2) :
    carrying (primaryLabels pk) dims = true ↔ pk' = pk := by
  simp only [primaryLabels, List.forall_mem_cons, List.not_mem_nil, false_imp_iff,
    implies_true, and_true] at h
  obtain ⟨h1, h2, h3, h4⟩ := h
  cases pk
  cases pk'
  simp only [carrying, primaryLabels, List.all_cons, h1, h2, h3, h4, List.all_nil, Bool.and_true,
    Bool.and_eq_true, beq_iff_eq, Option.some.injEq, PrimaryDims.mk.injEq]

section
variable [Runtime]

theorem carrying_errorDims (cfg : Config) (obs : Observation) (pk : PrimaryDims) :
    carrying (primaryLabels pk) (errorDims cfg obs) = true ↔ primaryDims obs cfg = pk :=
  carrying_primaryLabels (by
    simp [primaryLabels, errorDims, categoryDims, get?_asDict])

theorem carrying_requestDims (cfg : Config) (obs : Observation) (pk : PrimaryDims) :
    carrying (primaryLabels pk) (requestDims cfg obs) = true ↔ primaryDims obs cfg = pk :=
  carrying_primaryLabels (by
    simp [primaryLabels, requestDims, outcomeDims, get?_asDict])

omit [Runtime] in
theorem carrying_asDict (pk pk' : PrimaryDims) :
    carrying (primaryLabels pk) pk'.asDict = true ↔ pk' = pk :=
  carrying_primaryLabels (by simp [primaryLabels, get?_asDict])

theorem carrying_outcome (cfg : Config) (obs : Observation) (outcome : String)
    (labels : List (String × String)) :
    carrying (("outcome", outcome) :: labels) (requestDims cfg obs) =
      ((if obs.isError then "error" else "success") == outcome &&
        carrying labels (requestDims cfg obs)) := by
  simp [carrying, requestDims, outcomeDims]

/-- Requests and cost series carry the same workload labels, so that one view can be joined with
the other. -/
theorem carrying_workload (cfg : Config) (obs : Observation) (team route family : String) :
    carrying [("team", team), ("route", route), ("model_family", family)] (requestDims cfg obs) =
      carrying [("team", team), ("route", route), ("model_family", family)]
        (Aggregator.costDims cfg (Aggregator.costKey cfg obs)) := by
  simp [carrying, requestDims, outcomeDims, get?_asDict, get?_costDims, Aggregator.costKey]

end

lemma sum_indicator {α : Type} (p : α → Bool) (xs : List α) :
    (xs.map fun x => if p x then (1 : ℚ) else 0).sum = xs.countP p := by
  induction xs with
  | nil => simp
  | cons x xs ih =>
    by_cases h : p x <;> simp [h, ih, add_comm]

/-! ## The cost record classes -/

section Classes
variable [Runtime] {cfg : Config} {observations : List Observation} {malformed duplicates : ℕ}
  {points : List MetricPoint} (sel : Dict String String → Bool)

/-- The observations of the selected cost series that satisfy a test. -/
def costed (cfg : Config) (sel : Dict String String → Bool) (test : Observation → Bool)
    (obs : Observation) : Bool :=
  test obs && sel (Aggregator.costDims cfg (Aggregator.costKey cfg obs))

lemma costed_all (test : Observation → Bool) : costed cfg (carrying []) test = test := by
  funext obs
  simp [costed, carrying]

/-- A counter of records that satisfy a test. -/
lemma total_class {name : String} {w : CostEntry → ℕ} (hn : (name, w) ∈ costCounters)
    (test : Observation → Bool)
    (hw : ∀ obs, w (Aggregator.addCost obs Aggregator.emptyCost) = if test obs then 1 else 0)
    (h : (Aggregator.addAll cfg observations).buildPoints cfg malformed duplicates = .ok points) :
    total points name sel = observations.countP (costed cfg sel test) := by
  rw [total_cost sel hn h, ← sum_indicator]
  refine congrArg List.sum (List.map_congr_left fun obs _ => ?_)
  rw [hw, costed]
  by_cases ht : test obs <;> simp [ht]

lemma total_costRequests
    (h : (Aggregator.addAll cfg observations).buildPoints cfg malformed duplicates = .ok points) :
    total points "gateway.cost.request_count" sel =
      observations.countP (costed cfg sel fun _ => true) :=
  total_class sel (w := CostEntry.count) (by simp [costCounters]) _ (fun _ => rfl) h

lemma total_costMissing
    (h : (Aggregator.addAll cfg observations).buildPoints cfg malformed duplicates = .ok points) :
    total points "gateway.cost.records_missing" sel =
      observations.countP (costed cfg sel Aggregator.lacksCost) :=
  total_class sel (w := CostEntry.missing) (by simp [costCounters]) _ (fun _ => rfl) h

lemma total_costInvalid
    (h : (Aggregator.addAll cfg observations).buildPoints cfg malformed duplicates = .ok points) :
    total points "gateway.cost.records_invalid" sel =
      observations.countP (costed cfg sel Observation.costInvalid) :=
  total_class sel (w := CostEntry.invalid) (by simp [costCounters]) _ (fun _ => rfl) h

lemma total_cacheHits
    (h : (Aggregator.addAll cfg observations).buildPoints cfg malformed duplicates = .ok points) :
    total points "gateway.cache.hit_count" sel =
      observations.countP (costed cfg sel Observation.isCacheHit) :=
  total_class sel (w := CostEntry.cacheHits) (by simp [costCounters]) _ (fun _ => rfl) h

/-- No record lacks its cost and has an invalid one. -/
lemma countP_classes_le :
    observations.countP (costed cfg sel Aggregator.lacksCost) +
        observations.countP (costed cfg sel Observation.costInvalid) ≤
      observations.countP (costed cfg sel fun _ => true) := by
  induction observations with
  | nil => simp
  | cons obs rest ih =>
    simp only [List.countP_cons, costed, Aggregator.lacksCost] at ih ⊢
    by_cases hs : sel (Aggregator.costDims cfg (Aggregator.costKey cfg obs))
    · by_cases hi : obs.costInvalid
      · simp only [hs, hi, Bool.not_true, Bool.false_and, Bool.true_and,
        Bool.false_eq_true, if_true, if_false]
        omega
      · simp only [hs, hi, Bool.true_and, Bool.false_and, Bool.false_eq_true, if_true, if_false]
        split_ifs <;> omega
    · simp only [hs, Bool.and_false, Bool.false_eq_true, if_false]
      omega

end Classes

/-! ## The main result -/

/-- Every window's points and statistics reconcile, whatever observations are folded and in
whatever order: the totals of the counters, of the histograms, of the costs and of the statistics
are those of the observations. -/
theorem views_reconcile [Runtime] (cfg : Config) (observations : List Observation)
    (malformed duplicates : ℕ) (points : List MetricPoint) (stats : AggregationStats)
    (h : (observations.foldl (Aggregator.add cfg) .new).build cfg malformed duplicates =
      .ok (points, stats)) :
    Reconciled observations points stats := by
  unfold Aggregator.build at h
  obtain ⟨ps, hps, h⟩ := bind_eq_ok h
  cases h
  have hb : (Aggregator.addAll cfg observations).buildPoints cfg malformed duplicates =
    .ok points := hps
  obtain ⟨-, hmissing, hinvalid⟩ := Aggregator.addAll_counters cfg observations
  constructor
  case requests =>
    rw [total_requests _ hb]
    simp [carrying]
  case durations =>
    rw [samples_duration _ hb]
    simp [carrying]
  case costed =>
    rw [total_costRequests _ hb]
    simp [costed, carrying]
  case errors =>
    intro pk
    rw [total_errors _ hb, total_requests _ hb]
    refine congrArg List.sum (List.map_congr_left fun obs _ => ?_)
    by_cases he : obs.isError
    · simp [carrying_outcome, carrying_errorDims, carrying_requestDims, he]
    · simp [carrying_outcome, he]
  case firstTokens =>
    intro pk
    rw [samples_ttft _ hb, total_requests _ hb]
    refine List.sum_le_sum fun obs _ => ?_
    by_cases he : obs.isError
    · have hnone : obs.ttftMs = none := by
        unfold Observation.ttftMs
        cases obs.completionStart <;> simp [he]
      simp [hnone, carrying_outcome, he]
    · simp only [carrying_outcome, he, Bool.false_eq_true, if_false, beq_self_eq_true,
        Bool.true_and, carrying_requestDims, carrying_asDict]
      split_ifs with h1 h2 h2
      · exact le_refl _
      · exact absurd h1.2 h2
      · exact zero_le_one
      · exact le_refl _
  case workloads =>
    intro team route family
    simp only
    rw [total_requests _ hb, total_costRequests _ hb, ← sum_indicator]
    refine congrArg List.sum (List.map_congr_left fun obs _ => ?_)
    simp only [costed, Bool.true_and, carrying_workload]
  case histograms =>
    intro p hp hist hh
    obtain ⟨e, he, h0, hpe⟩ := histogram_of_mem_buildPoints hb hp hh
    have hbal : e.2.Balanced := by
      rcases he with ⟨-, he⟩ | ⟨-, he⟩
      · rw [Aggregator.addAll_dur] at he
        exact balanced_group (fun obs acc hacc => hacc.add obs.latencyMs) he
      · rw [Aggregator.addAll_ttft] at he
        refine balanced_group (fun obs acc hacc => ?_) he
        unfold Aggregator.addTtft
        cases obs.ttftMs with
        | none => exact hacc
        | some t => exact hacc.add t
    rw [hpe] at hh
    cases hh
    exact ⟨hbal.counts, hbal.range.resolve_left fun hzero => h0 hzero.1⟩
  case classes =>
    intro labels
    rw [total_costMissing _ hb, total_costInvalid _ hb, total_costRequests _ hb]
    exact_mod_cast countP_classes_le (carrying labels)
  case hits =>
    intro labels
    rw [total_cacheHits _ hb, total_costRequests _ hb]
    refine Nat.cast_le.mpr (List.countP_mono_left fun obs _ hobs => ?_)
    rw [costed, Bool.and_eq_true] at hobs
    simpa [costed] using hobs.2
  case missing =>
    rw [total_costMissing _ hb]
    rw [costed_all, ← hmissing]
    rfl
  case invalid =>
    rw [total_costInvalid _ hb]
    rw [costed_all, ← hinvalid]
    rfl

/-- Two successful requests, one of them with a cost, and a failed one. -/
def sampleObservations [Runtime] : List Observation :=
  [sampleRecord "a" "03:04:05" "03:04:06.5",
    .obj [("id", .str "b"), ("startTime", .str "2024-01-02T03:00:00Z"),
      ("endTime", .str "2024-01-02T03:00:02Z"), ("costDetails", .obj [("total", .int 1)]),
      ("traceMetadata", .obj [("team", .str "KYC")])],
    .obj [("id", .str "c"), ("level", .str "ERROR"), ("startTime", .str "2024-01-02T03:00:00Z"),
      ("endTime", .str "2024-01-02T03:01:00Z")]].filterMap fun raw =>
    (parseObservation raw).toOption

theorem views_reconcile_sample :
    letI := Runtime.ascii
    ∃ points stats, (sampleObservations.foldl (Aggregator.add .default) .new).build .default 2 1 =
      .ok (points, stats) ∧ Reconciled sampleObservations points stats := by
  let := Runtime.ascii
  obtain ⟨⟨points, stats⟩, h⟩ := exists_ok_of_isOk
    (x := (sampleObservations.foldl (Aggregator.add .default) .new).build .default 2 1)
    (by decide +kernel)
  exact ⟨points, stats, h, views_reconcile _ _ _ _ _ _ h⟩

end InferenceControlPlane.Sli
