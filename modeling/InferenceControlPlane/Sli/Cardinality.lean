import InferenceControlPlane.Sli.Governed
import Mathlib.Data.List.ProdSigma

/-!
# The cardinality ceiling

Each table of the aggregator is keyed by tuples of governed values, so it has at most
as many entries as there are tuples. Counting the points that an entry emits bounds the
workload series of a window by the ceiling that the governance contract derives.
-/
namespace InferenceControlPlane.Sli
open Python Normalize

/-! ## The ceiling -/

/-- `_vocab`: the number of values of a dimension, the factor by which it multiplies a series. -/
def vocab (name : String) : ℕ := ((vocabularyOf name).getD []).length

/-- The vocabularies are sets: their lengths count values. -/
theorem registry_nodup : ∀ d ∈ registry, d.vocabulary.Nodup := by decide

def estimatedMaxTotalSeries : ℕ :=
  let primary := vocab "team" * vocab "route" * vocab "model_family" * vocab "env"
  let costGroup := vocab "team" * vocab "route" * vocab "model_family" * vocab "provider_region"
  let durationTtft := 2 * primary
  let requestCount := primary * vocab "outcome"
  let requestErrors := primary * vocab "error_category"
  let costPoints := costGroup * 9
  durationTtft + requestCount + requestErrors + costPoints

example : estimatedMaxTotalSeries = 17920 := by decide

/-! ## Tuples of governed values -/

/-- The registered values of a dimension. -/
def valuesOf (name : String) : List String := (vocabularyOf name).getD []

lemma mem_valuesOf {name value : String} : value ∈ valuesOf name ↔ Registered name value := Iff.rfl

lemma length_valuesOf (name : String) : (valuesOf name).length = vocab name := rfl

attribute [irreducible] valuesOf vocab

def primarySeries : List PrimaryDims :=
  (valuesOf "team" ×ˢ valuesOf "route" ×ˢ valuesOf "model_family" ×ˢ valuesOf "env").map
    fun key => ⟨key.1, key.2.1, key.2.2.1, key.2.2.2⟩

def errorSeries : List (PrimaryDims × String) := primarySeries ×ˢ valuesOf "error_category"

/-- Without the region, every key has the placeholder. -/
def costGroups (cfg : Config) : List CostKey :=
  valuesOf "team" ×ˢ valuesOf "route" ×ˢ valuesOf "model_family" ×ˢ
    if cfg.includeProviderRegion then valuesOf "provider_region" else ["n/a"]

lemma length_primarySeries :
    primarySeries.length = vocab "team" * vocab "route" * vocab "model_family" * vocab "env" := by
  simp only [primarySeries, List.length_map, List.length_product, length_valuesOf, mul_assoc]

lemma length_errorSeries :
    errorSeries.length = primarySeries.length * vocab "error_category" := by
  rw [errorSeries, List.length_product, length_valuesOf]

lemma length_costGroups_le (cfg : Config) : (costGroups cfg).length ≤
    vocab "team" * vocab "route" * vocab "model_family" * vocab "provider_region" := by
  have hregions : (if cfg.includeProviderRegion then valuesOf "provider_region"
      else ["n/a"]).length ≤ vocab "provider_region" := by
    split_ifs
    · exact (length_valuesOf _).le
    · rw [← length_valuesOf]
      exact List.length_pos_of_mem (mem_valuesOf.mpr
        (by decide : Registered "provider_region" other))
  simp only [costGroups, List.length_product, length_valuesOf]
  rw [← mul_assoc, ← mul_assoc]
  exact Nat.mul_le_mul_left _ hregions

/-! ## Keys are governed -/

lemma mem_primarySeries {pk : PrimaryDims} (hteam : Registered "team" pk.team)
    (hroute : Registered "route" pk.route) (hfamily : Registered "model_family" pk.modelFamily)
    (henv : Registered "env" pk.env) : pk ∈ primarySeries := by
  rw [← mem_valuesOf] at hteam hroute hfamily henv
  apply List.mem_map.mpr
  refine ⟨(pk.team, pk.route, pk.modelFamily, pk.env), ?_, rfl⟩
  exact List.pair_mem_product.mpr ⟨hteam, List.pair_mem_product.mpr ⟨hroute,
    List.pair_mem_product.mpr ⟨hfamily, henv⟩⟩⟩

lemma mem_costGroups {cfg : Config} {key : CostKey} (hteam : Registered "team" key.1)
    (hroute : Registered "route" key.2.1) (hfamily : Registered "model_family" key.2.2.1)
    (hregion : key.2.2.2 ∈
      if cfg.includeProviderRegion then valuesOf "provider_region" else ["n/a"]) :
    key ∈ costGroups cfg := by
  rw [← mem_valuesOf] at hteam hroute hfamily
  exact List.pair_mem_product.mpr ⟨hteam, List.pair_mem_product.mpr ⟨hroute,
    List.pair_mem_product.mpr ⟨hfamily, hregion⟩⟩⟩

section Keys
variable [Runtime]

theorem primaryDims_mem (obs : Observation) (cfg : Config) :
    primaryDims obs cfg ∈ primarySeries := by
  apply mem_primarySeries <;> simp only [primaryDims]
  · exact team_registered obs cfg
  · exact route_registered obs cfg
  · exact modelFamily_registered obs.providedModel
  · exact env_registered obs

theorem errorKey_mem {obs : Observation} {cfg : Config} {key : PrimaryDims × String}
    (h : Aggregator.errorKey cfg obs = some key) : key ∈ errorSeries := by
  unfold Aggregator.errorKey at h
  split_ifs at h
  rw [← Option.some.inj h]
  apply List.pair_mem_product.mpr
  exact ⟨primaryDims_mem obs cfg, mem_valuesOf.mpr (errorCategory_registered obs)⟩

theorem costKey_mem (obs : Observation) (cfg : Config) :
    Aggregator.costKey cfg obs ∈ costGroups cfg := by
  apply mem_costGroups <;> simp only [Aggregator.costKey, primaryDims]
  · exact team_registered obs cfg
  · exact route_registered obs cfg
  · exact modelFamily_registered obs.providedModel
  · split_ifs
    · exact mem_valuesOf.mpr (providerRegion_registered obs)
    · exact List.mem_singleton_self _

end Keys

/-! ## Points of an entry -/

/-- A section adds at most `k` points for each entry. -/
lemma length_flatMap_le {α β : Type} {xs : List α} {g : α → List β} {k : ℕ}
    (h : ∀ x ∈ xs, (g x).length ≤ k) : (xs.flatMap g).length ≤ xs.length * k := by
  induction xs with
  | nil => simp
  | cons x xs ih =>
    have hx := h x List.mem_cons_self
    have hxs := ih fun y hy => h y (List.mem_cons_of_mem x hy)
    rw [List.flatMap_cons, List.length_append, List.length_cons, Nat.succ_mul]
    omega

lemma length_histogramPoints_le (name : String) (src : Dict PrimaryDims HistAcc) :
    (Aggregator.histogramPoints name src).length ≤ src.entries.length := by
  rw [Aggregator.histogramPoints, List.length_map]
  exact List.length_filter_le _ _

/-- The successes of a series are always emitted, its errors when there are any. -/
lemma length_countPoints_le (counts : Dict PrimaryDims OutcomeCounts) :
    (Aggregator.countPoints counts).length ≤ counts.entries.length * vocab "outcome" := by
  have htwo : vocab "outcome" = 2 := by
    unfold vocab
    decide
  rw [htwo]
  apply length_flatMap_le
  intro e _
  split_ifs <;> simp

/-- Four points of a cost series are always emitted, five more on a condition. -/
lemma length_costSeries_le (dims : Dict String String) (c : CostEntry) (ratio : Option ℚ) :
    (costSeries dims c ratio).length ≤ 9 := by
  have hratio : (ratioPoints dims ratio).length ≤ 1 := by cases ratio <;> simp [ratioPoints]
  have hcache : (cachePoints dims c).length ≤ 2 := by
    unfold cachePoints
    split_ifs <;> simp
  have hif : ∀ name n, (counterIf name n dims).length ≤ 1 := by
    intro name n
    unfold counterIf
    split_ifs <;> simp
  have hmissing := hif "gateway.cost.records_missing" c.missing
  have hinvalid := hif "gateway.cost.records_invalid" c.invalid
  simp only [costSeries, List.length_append, List.length_cons, List.length_nil]
  omega

/-! ## Workload points -/

lemma not_isWorkload {names : List String} {points : List MetricPoint} (h : Named names points)
    (hn : ∀ name ∈ names, startsWith name "gateway.pipeline." = true ∨
      startsWith name "gateway.quality." = true) : ∀ p ∈ points, isWorkload p = false := by
  intro p hp
  rcases hn p.name (h p hp) with hname | hname <;> simp [isWorkload, hname]

lemma countP_of_named {names : List String} {points : List MetricPoint} (h : Named names points)
    (hn : ∀ name ∈ names, startsWith name "gateway.pipeline." = true ∨
      startsWith name "gateway.quality." = true) : points.countP isWorkload = 0 := by
  rw [List.countP_eq_zero]
  intro p hp
  rw [not_isWorkload h hn p hp]
  exact Bool.false_ne_true

section Build
variable [Runtime]

/-- The workload points of a window are at most as many as the contract derives. -/
theorem seriesEmitted_buildPoints_le {cfg : Config} {observations : List Observation}
    {malformed duplicates : ℕ} {points : List MetricPoint}
    (h : (Aggregator.addAll cfg observations).buildPoints cfg malformed duplicates = .ok points) :
    seriesEmitted points ≤ estimatedMaxTotalSeries := by
  obtain ⟨cost, hcost, rfl⟩ := buildPoints_ok h
  obtain ⟨ratio, -, rfl⟩ := costPoints_ok hcost
  have hduration : (Aggregator.addAll cfg observations).dur.entries.length ≤
      primarySeries.length := by
    rw [Aggregator.addAll_dur]
    apply Dict.length_group_le
    intro obs _ pk hpk
    exact Option.some.inj hpk ▸ primaryDims_mem obs cfg
  have httft : (Aggregator.addAll cfg observations).ttft.entries.length ≤
      primarySeries.length := by
    rw [Aggregator.addAll_ttft]
    apply Dict.length_group_le
    intro obs _ pk hpk
    obtain ⟨_, _, rfl⟩ := Option.map_eq_some_iff.mp hpk
    exact primaryDims_mem obs cfg
  have hcounts : (Aggregator.addAll cfg observations).counts.entries.length ≤
      primarySeries.length := by
    rw [Aggregator.addAll_counts]
    apply Dict.length_group_le
    intro obs _ pk hpk
    exact Option.some.inj hpk ▸ primaryDims_mem obs cfg
  have herrors : (Aggregator.addAll cfg observations).errcat.entries.length ≤
      primarySeries.length * vocab "error_category" := by
    rw [Aggregator.addAll_errcat, ← length_errorSeries]
    apply Dict.length_group_le
    intro obs _ key hkey
    exact errorKey_mem hkey
  have hgroups : (Aggregator.addAll cfg observations).cost.entries.length ≤
      (costGroups cfg).length := by
    rw [Aggregator.addAll_cost]
    apply Dict.length_group_le
    intro obs _ key hkey
    exact Option.some.inj hkey ▸ costKey_mem obs cfg
  -- the workload points of a section are at most its points
  have hle : ∀ points : List MetricPoint, points.countP isWorkload ≤ points.length :=
    fun points => List.countP_le_length
  have h1 := (hle _).trans (length_histogramPoints_le "gateway.request.duration"
    (Aggregator.addAll cfg observations).dur)
  have h2 := (hle _).trans (length_histogramPoints_le "gateway.request.ttft"
    (Aggregator.addAll cfg observations).ttft)
  have h3 := ((hle _).trans (length_countPoints_le
    (Aggregator.addAll cfg observations).counts)).trans
    (Nat.mul_le_mul_right _ hcounts)
  have hlength : (Aggregator.errorPoints (Aggregator.addAll cfg observations).errcat).length =
      (Aggregator.addAll cfg observations).errcat.entries.length := List.length_map _
  have h4 := hle (Aggregator.errorPoints (Aggregator.addAll cfg observations).errcat)
  have hseries : ∀ e ∈ (Aggregator.addAll cfg observations).cost.entries,
      (costSeries (Aggregator.costDims cfg e.1) e.2 (ratio e.2)).length ≤ 9 :=
    fun e _ => length_costSeries_le _ _ _
  have h5 := (hle _).trans (length_flatMap_le hseries)
  have h6 := countP_of_named (named_countIf "gateway.pipeline.malformed_records" malformed)
    (by decide)
  have h7 := countP_of_named (named_countIf "gateway.pipeline.duplicate_records" duplicates)
    (by decide)
  have h8 := countP_of_named (named_unknownPoints (Aggregator.addAll cfg observations).unknown)
    (by decide)
  have hcosts := length_costGroups_le cfg
  rw [length_primarySeries] at *
  simp only [seriesEmitted, List.countP_append, h6, h7, h8, estimatedMaxTotalSeries]
  omega

end Build

/-! ## Every run -/

def seriesName : String := "gateway.pipeline.series_emitted"

/-- The points report the number of their workload series once, and it is under the
ceiling. -/
def ReportsSeries (points : List MetricPoint) : Prop :=
  points.filter (·.name == seriesName) = [gauge seriesName (seriesEmitted points) "1"] ∧
    seriesEmitted points ≤ estimatedMaxTotalSeries

/-- Health points neither count nor report series. -/
lemma ReportsSeries.append {points : List MetricPoint} (h : ReportsSeries points)
    {health : List MetricPoint} (hnamed : Named heartbeatNames health) :
    ReportsSeries (points ++ health) := by
  have hcount : seriesEmitted (points ++ health) = seriesEmitted points := by
    rw [seriesEmitted, List.countP_append, countP_of_named hnamed (by decide), Nat.add_zero]
    rfl
  refine ⟨?_, hcount ▸ h.2⟩
  rw [List.filter_append, h.1, hnamed.filter seriesName (by decide), List.append_nil, hcount]

/-- The names of the points that stand between the workload and the number of its series. -/
def supportNames : List String :=
  ["gateway.quality.completion_length_anomalies", "gateway.quality.completion_length_max_zscore",
    "gateway.quality.empty_completion_count", "gateway.pipeline.clock_skew_seconds",
    "gateway.pipeline.freshness_seconds"] ++ trustNames ++ sourceNames

lemma named_support (results : List (QualityKey × GroupResult)) (emptyCounts : Dict QualityKey ℕ)
    (stream : Stream) (stats : AggregationStats) (source : Option SourceStats) (raw : Option ℚ) :
    Named supportNames (results.flatMap (fun e => qualityPointsOf e.1 e.2) ++
      emptyPoints emptyCounts ++ trustPoints stream stats ++ sourcePoints source ++
      freshnessPoints raw) := by
  have hquality : Named supportNames (results.flatMap fun e => qualityPointsOf e.1 e.2) := by
    apply named_flatMap
    intro e _
    apply named_ite (named_nil _)
    cases e.2.maxAbsZ <;> simp [Named, counter, supportNames]
  have hempty : Named supportNames (emptyPoints emptyCounts) :=
    (named_map "gateway.quality.empty_completion_count" fun _ => rfl).mono (by simp [supportNames])
  have htrust := (sound_trustPoints stream stats).named.mono
    (List.Subset.trans (List.subset_append_right _ _) (List.subset_append_left _ sourceNames) :
      trustNames ⊆ supportNames)
  have hsource := (sound_sourcePoints source).named.mono
    (List.subset_append_right _ sourceNames : sourceNames ⊆ supportNames)
  have hfresh := (sound_freshnessPoints raw).named.mono
    (show _ ⊆ supportNames by simp [supportNames])
  exact (((hquality.append hempty).append htrust).append hsource).append hfresh

/-- No support point counts as a workload series. -/
lemma supportNames_support : ∀ name ∈ supportNames, startsWith name "gateway.pipeline." = true ∨
    startsWith name "gateway.quality." = true := by decide +kernel

/-- The points that a run prepares: those of the aggregator, support points, and the
number of series. -/
lemma prepared_points [Runtime] {args : RunArgs} {source : Source} {env : Env} {hasStore : Bool}
    {checkpoint : Option Checkpoint} {p : Prepared}
    (h : prepare args source env hasStore checkpoint = .ok p) :
    ∃ workload rest, p.stream.state.aggregator.buildPoints args.cfg p.stream.state.malformed
        p.stream.state.duplicates = .ok workload ∧ Named supportNames rest ∧
      p.points = workload ++ rest ++ [gauge seriesName (seriesEmitted workload) "1"] := by
  obtain ⟨_, workload, results, _, _, hw, _, _, points, hpoints, hp⟩ := prepare_ok h
  have hsupport := named_support results p.stream.state.quality.emptyCounts p.stream p.stats
    source.stats (rawFreshness args.windowEnd p.stream.state.maxEnd)
  simp only [List.append_assoc] at hpoints hsupport
  refine ⟨workload, _, hw, hsupport, ?_⟩
  have hseries : seriesEmitted points = seriesEmitted workload := by
    rw [hpoints, seriesEmitted, List.countP_append, countP_of_named hsupport supportNames_support,
      Nat.add_zero]
    rfl
  rw [hp, hseries, hpoints]
  rfl

/-- The prepared points report the number of their series once, and it is under the ceiling. -/
theorem prepared_reportsSeries [Runtime] {args : RunArgs} {source : Source} {env : Env}
    {hasStore : Bool} {checkpoint : Option Checkpoint} {p : Prepared}
    (h : prepare args source env hasStore checkpoint = .ok p) : ReportsSeries p.points := by
  obtain ⟨cutoff, _, _, _, hstream, _⟩ := prepare_ok h
  obtain ⟨workload, rest, hw, hsupport, hp⟩ := prepared_points h
  obtain ⟨read, _, hd, _⟩ := streamFrom_deduplicated (streamEnv args env hasStore checkpoint cutoff)
    args.maxRecords source.failure source.records
  rw [← hstream] at hd
  rw [hd.aggregated] at hw
  have hseries : seriesEmitted p.points = seriesEmitted workload := by
    rw [hp, seriesEmitted, List.countP_append, List.countP_append,
      countP_of_named hsupport supportNames_support,
      countP_of_named (named_gauge seriesName _ _) (by decide)]
    rfl
  refine ⟨?_, ?_⟩
  · rw [hseries, hp, List.filter_append, List.filter_append,
      (named_buildPoints hw).filter seriesName (by decide),
      hsupport.filter seriesName (by decide)]
    rfl
  · rw [hseries]
    exact seriesEmitted_buildPoints_le hw

/-- Every export of a run and the points of its result report the number of their workload
series, and it never exceeds the ceiling that the governed vocabularies give. -/
theorem run_series_le_ceiling [Runtime] {ε σ : Type} (exporter : Option (Exporter ε))
    (store : Option (CheckpointStore σ)) (args : RunArgs) (source : Source) (env : Env)
    (w : World ε σ) :
    (∃ effects, (run exporter store args source env w).2.effects = w.effects ++ effects ∧
      ∀ points error, Effect.exported points error ∈ effects → ReportsSeries points) ∧
    ∀ result, (run exporter store args source env w).1 = .ok result →
      ReportsSeries result.points := by
  have hload := (loadCheckpoint_effects store w).1
  rcases run_cases exporter store args source env w with ⟨e, he⟩ |
    ⟨checkpoint, p, stats, health, final, exported, announced, saved, closed, w', _, hp, hpub, hcon⟩
  · refine ⟨⟨[], ?_, by simp⟩, ?_⟩
    · rw [he, List.append_nil]
      exact hload
    · intro result hresult
      rw [he] at hresult
      cases hresult
  · obtain ⟨s, rfl⟩ := hpub.health_eq
    obtain ⟨elapsed, s', rfl⟩ := hcon.final_eq
    have hpoints := prepared_reportsSeries hp
    refine ⟨⟨_, hcon.effects.trans (by rw [hpub.effects, hload, List.append_assoc]), ?_⟩, ?_⟩
    · intro points error heffect
      simp only [List.mem_append, Option.mem_toList, Option.map_eq_some_iff] at heffect
      rcases heffect with (⟨_, _, heq⟩ | ⟨_, _, heq⟩) | (⟨_, _, heq⟩ | ⟨_, _, heq⟩)
      · cases heq
        exact hpoints
      · cases heq
      · cases heq
      · cases heq
    · intro result hresult
      rw [(hcon.reported result hresult).points]
      exact (hpoints.append (named_healthPoints s)).append (named_finalHealth elapsed s')

/-- A delivered window of two requests and a malformed record, without a checkpoint. -/
theorem run_series_le_ceiling_sample :
    letI := Runtime.ascii
    let out := run (some acceptingExporter) none ⟨.default, none, .finite 10, none⟩
      ⟨[sampleRecord "a" "03:04:05" "03:04:06.5", sampleRecord "b" "03:05:00" "03:06:00", .null],
        none, none⟩ sampleEnv (⟨(), (), []⟩ : World Unit Unit)
    (∃ effects, out.2.effects = [] ++ effects ∧
      ∀ points error, Effect.exported points error ∈ effects → ReportsSeries points) ∧
    ∃ result, out.1 = .ok result ∧ ReportsSeries result.points := by
  let := Runtime.ascii
  obtain ⟨heffects, hpoints⟩ := run_series_le_ceiling (some acceptingExporter) none
    ⟨.default, none, .finite 10, none⟩ ⟨[sampleRecord "a" "03:04:05" "03:04:06.5",
      sampleRecord "b" "03:05:00" "03:06:00", .null], none, none⟩ sampleEnv ⟨(), (), []⟩
  refine ⟨heffects, ?_⟩
  exact (exists_ok_of_isOk (by decide +kernel)).imp fun result h => ⟨h, hpoints result h⟩

end InferenceControlPlane.Sli
