import InferenceControlPlane.Sli.Delivery

/-!
# Record accounting

Every record the loop reads leaves through one of its six exits, and each exit
moves exactly one of the counters. The counters are emitted under fixed names, so
the trust points can be read back from the result.
-/
namespace InferenceControlPlane.Sli
open Python

/-! ## The counters of the read loop -/

/-- The counters of the loop add up to the records read: each record is processed, malformed,
quarantined, repeated in this run, or known from an earlier one. -/
structure Accounted (st : StreamState) : Prop where
  read : st.recordsRead = st.processed + st.malformed + st.quarantined + st.duplicates +
    st.crossRunDuplicates
  folded : st.aggregator.observations = st.processed
  reasons : st.malformedByReason.weightWhere (fun _ => true) id = st.malformed + st.quarantined

theorem code_ne_unexpected (reason : MalformedReason) :
    reason.code ≠ StreamState.unexpectedError := by
  cases reason <;> decide

theorem malformed_reject (st : StreamState) (reason : String) :
    (st.reject reason).malformed =
      st.malformed + if reason = StreamState.unexpectedError then 0 else 1 := by
  rw [StreamState.malformed, StreamState.reject, Dict.weightWhere_count, StreamState.malformed]
  by_cases h : reason = StreamState.unexpectedError <;> simp [h]

theorem reasons_reject (st : StreamState) (reason : String) :
    (st.reject reason).malformedByReason.weightWhere (fun _ => true) id =
      st.malformedByReason.weightWhere (fun _ => true) id + 1 := by
  rw [StreamState.reject, Dict.weightWhere_count, if_pos rfl]

/-- A rejection with a bounded reason counts one malformed record. -/
theorem Accounted.reject {st : StreamState} (h : Accounted st) {reason : String}
    (hr : reason ≠ StreamState.unexpectedError) : Accounted (st.counted.reject reason) where
  read := by
    have hm := malformed_reject st.counted reason
    rw [if_neg hr] at hm
    have hread := h.read
    simp only [StreamState.malformed, StreamState.reject, StreamState.counted] at hm hread ⊢
    omega
  folded := h.folded
  reasons := by
    have hm := malformed_reject st.counted reason
    rw [if_neg hr] at hm
    rw [reasons_reject, hm]
    have hs := h.reasons
    simp only [StreamState.malformed, StreamState.reject, StreamState.counted] at hs ⊢
    omega

theorem Accounted.step [Runtime] {st : StreamState} (h : Accounted st) (env : StreamEnv)
    (raw : Json) : Accounted (st.step env raw) := by
  have hv := st.verdict env raw
  generalize st.step env raw = st' at hv
  cases hv with
  | malformed reason _ => exact h.reject (code_ne_unexpected reason)
  | quarantined e _ =>
    have hm := malformed_reject { st.counted with quarantined := st.quarantined + 1 }
      StreamState.unexpectedError
    rw [if_pos rfl] at hm
    have hread := h.read
    have hs := h.reasons
    refine ⟨?_, h.folded, ?_⟩
    · rw [hm]
      simp only [StreamState.malformed, StreamState.reject, StreamState.counted] at hread ⊢
      omega
    · rw [reasons_reject, hm]
      simp only [StreamState.malformed, StreamState.reject, StreamState.counted] at hs ⊢
      omega
  | blank obs _ _ => exact h.reject (code_ne_unexpected .missingObservationId)
  | duplicate obs _ _ _ =>
    refine ⟨?_, h.folded, h.reasons⟩
    have hread := h.read
    simp only [StreamState.malformed, StreamState.counted] at hread ⊢
    omega
  | crossRun obs _ _ _ _ =>
    refine ⟨?_, h.folded, h.reasons⟩
    have hread := h.read
    simp only [StreamState.malformed, StreamState.admitted, StreamState.counted] at hread ⊢
    omega
  | folded obs _ _ _ _ =>
    have hread := h.read
    have hf := h.folded
    refine ⟨?_, ?_, h.reasons⟩
    · simp only [StreamState.malformed, StreamState.fold, StreamState.admitted,
        StreamState.counted] at hread ⊢
      omega
    · simp only [StreamState.fold, StreamState.admitted, StreamState.counted, Aggregator.add]
      omega

theorem accounted_new : Accounted .new := ⟨rfl, rfl, rfl⟩

/-- The records that a source yields before it fails or the limit is reached. -/
def readable (maxRecords : Option ℤ) (records : List Json) : List Json :=
  match maxRecords with
  | none => records
  | some limit => records.take limit.toNat

/-- Every record that is yielded up to the limit passes through the loop body once. -/
theorem recordsRead_streamFrom [Runtime] (env : StreamEnv) (maxRecords : Option ℤ)
    (failure : Option PyErr) (records : List Json) (st : StreamState) :
    (streamFrom env maxRecords failure records st).state.recordsRead =
      st.recordsRead + (readable (maxRecords.map (· - st.recordsRead)) records).length := by
  induction records generalizing st with
  | nil => cases maxRecords <;> simp [streamFrom, readable]
  | cons raw rest ih =>
    cases maxRecords with
    | none =>
      simp only [streamFrom, atLimit, Bool.false_eq_true, if_false, ih, readable, Option.map_none,
        step_recordsRead, List.length_cons]
      omega
    | some limit =>
      by_cases hlimit : limit ≤ st.recordsRead
      · have hzero : (limit - st.recordsRead).toNat = 0 := by omega
        simp [streamFrom, atLimit, hlimit, readable, hzero]
      · have hsucc : (limit - st.recordsRead).toNat =
            (limit - ((st.recordsRead + 1 : ℕ) : ℤ)).toNat + 1 := by omega
        simp only [streamFrom, atLimit, hlimit, decide_false, Bool.false_eq_true, if_false, ih,
          readable, Option.map_some, step_recordsRead, hsucc, List.take_succ_cons,
          List.length_cons]
        omega

/-- However the read ends, its counters add up: every record that was read went into exactly one
of them. -/
theorem streamFrom_accounted [Runtime] (env : StreamEnv) (maxRecords : Option ℤ)
    (failure : Option PyErr) (records : List Json) :
    Accounted (streamFrom env maxRecords failure records .new).state :=
  streamFrom_invariant accounted_new fun _ raw h => h.step env raw

/-! ## The names of the emitted points -/

def Named (names : List String) (points : List MetricPoint) : Prop :=
  ∀ p ∈ points, p.name ∈ names

theorem Named.filter {names : List String} {points : List MetricPoint} (h : Named names points)
    (name : String) (hn : name ∉ names) : points.filter (·.name == name) = [] := by
  rw [List.filter_eq_nil_iff]
  intro p hp heq
  exact hn (beq_iff_eq.mp heq ▸ h p hp)

theorem Named.append {names : List String} {a b : List MetricPoint} (ha : Named names a)
    (hb : Named names b) : Named names (a ++ b) := fun p hp =>
  (List.mem_append.mp hp).elim (ha p) (hb p)

theorem Named.mono {names names' : List String} {points : List MetricPoint}
    (h : Named names points) (hs : names ⊆ names') : Named names' points := fun p hp => hs (h p hp)

theorem named_ite {names : List String} {c : Prop} [Decidable c] {a b : List MetricPoint}
    (ha : Named names a) (hb : Named names b) : Named names (if c then a else b) := by
  split_ifs
  · exact ha
  · exact hb

theorem named_nil (names : List String) : Named names [] := by simp [Named]

theorem named_counter (name : String) (value : ℤ) (dims : Dict String String) :
    Named [name] [counter name value dims] := by simp [Named, counter]

theorem named_gauge (name : String) (value : ℚ) (unit : String) :
    Named [name] [gauge name value unit] := by simp [Named, gauge]

theorem named_countIf (name : String) (n : ℕ) : Named [name] (countIf name n) :=
  named_ite (named_nil _) (named_counter _ _ _)

theorem named_flatMap {α : Type} {names : List String} {xs : List α}
    {f : α → List MetricPoint} (h : ∀ x ∈ xs, Named names (f x)) : Named names (xs.flatMap f) := by
  intro p hp
  obtain ⟨x, hx, hp⟩ := List.mem_flatMap.mp hp
  exact h x hx p hp

theorem named_map {α : Type} (name : String) {xs : List α} {f : α → MetricPoint}
    (h : ∀ x, (f x).name = name) : Named [name] (xs.map f) := by
  intro p hp
  obtain ⟨x, _, rfl⟩ := List.mem_map.mp hp
  rw [h x]
  exact List.mem_singleton_self _

/-- The names that `build` emits, whatever was aggregated; a name outside the list comes from the
pipeline itself. -/
def buildNames : List String :=
  ["gateway.request.duration", "gateway.request.ttft", "gateway.request.count",
    "gateway.request.errors", "gateway.cost.usd", "gateway.cost.request_count",
    "gateway.tokens.input", "gateway.tokens.output", "gateway.tokens.completion_ratio",
    "gateway.cache.read_tokens", "gateway.cache.hit_count", "gateway.cost.records_missing",
    "gateway.cost.records_invalid", "gateway.pipeline.malformed_records",
    "gateway.pipeline.duplicate_records", "gateway.pipeline.unknown_dimension"]

def costNames : List String :=
  ["gateway.cost.usd", "gateway.cost.request_count", "gateway.tokens.input",
    "gateway.tokens.output", "gateway.tokens.completion_ratio", "gateway.cache.read_tokens",
    "gateway.cache.hit_count", "gateway.cost.records_missing", "gateway.cost.records_invalid"]

theorem named_histogramPoints (name : String) (src : Dict Normalize.PrimaryDims HistAcc) :
    Named [name] (Aggregator.histogramPoints name src) := named_map name fun _ => rfl

theorem named_countPoints (counts : Dict Normalize.PrimaryDims OutcomeCounts) :
    Named ["gateway.request.count"] (Aggregator.countPoints counts) := by
  refine named_flatMap fun e _ => ?_
  intro p hp
  rcases List.mem_cons.mp hp with rfl | hp
  · simp [counter]
  · exact named_ite (named_nil _) (named_counter _ _ _) p hp

theorem named_errorPoints (errcat : Dict (Normalize.PrimaryDims × String) ℕ) :
    Named ["gateway.request.errors"] (Aggregator.errorPoints errcat) := named_map _ fun _ => rfl

theorem named_unknownPoints (unknownDims : Dict String ℕ) :
    Named ["gateway.pipeline.unknown_dimension"] (Aggregator.unknownPoints unknownDims) :=
  named_map _ fun _ => rfl

/-! The groups of points of one cost series. -/

def ratioPoints (dims : Dict String String) : Option ℚ → List MetricPoint
  | none => []
  | some r => [⟨"gateway.tokens.completion_ratio", .gauge, "ratio", dims, some (.float r), none⟩]

def cachePoints (dims : Dict String String) (c : CostEntry) : List MetricPoint :=
  if c.cacheHits = 0 then []
  else [counter "gateway.cache.read_tokens" c.cacheRead dims,
    counter "gateway.cache.hit_count" c.cacheHits dims]

def counterIf (name : String) (n : ℕ) (dims : Dict String String) : List MetricPoint :=
  if n = 0 then [] else [counter name n dims]

def costSeries (dims : Dict String String) (c : CostEntry) (ratio : Option ℚ) : List MetricPoint :=
  [⟨"gateway.cost.usd", .counter, "USD", dims, some (.float (roundTo 6 c.usd)), none⟩,
    counter "gateway.cost.request_count" c.count dims,
    counter "gateway.tokens.input" c.input dims,
    counter "gateway.tokens.output" c.output dims] ++
  ratioPoints dims ratio ++ cachePoints dims c ++
  counterIf "gateway.cost.records_missing" c.missing dims ++
  counterIf "gateway.cost.records_invalid" c.invalid dims

/-- A cost series fails with its ratio only. -/
theorem costPointsOf_eq (cfg : Config) (key : CostKey) (c : CostEntry) :
    Aggregator.costPointsOf cfg key c =
      (Aggregator.completionRatio c).map (costSeries (Aggregator.costDims cfg key) c) := by
  unfold Aggregator.costPointsOf
  cases Aggregator.completionRatio c with
  | error e => rfl
  | ok ratio => cases ratio <;> rfl

theorem named_costSeries (dims : Dict String String) (c : CostEntry) (ratio : Option ℚ) :
    Named costNames (costSeries dims c ratio) := by
  refine (((Named.append ?_ ?_).append ?_).append ?_).append ?_
  · simp [Named, counter, costNames]
  · cases ratio <;> simp [Named, ratioPoints, costNames]
  · exact named_ite (named_nil _) (by simp [Named, counter, costNames])
  · exact named_ite (named_nil _) ((named_counter _ _ _).mono (by simp [costNames]))
  · exact named_ite (named_nil _) ((named_counter _ _ _).mono (by simp [costNames]))

/-- The cost section when every ratio exists: one group for each entry. -/
theorem costPoints_eq (cfg : Config) {cost : Dict CostKey CostEntry} {ratio : CostEntry → Option ℚ}
    (h : ∀ e ∈ cost.entries, Aggregator.completionRatio e.2 = .ok (ratio e.2)) :
    Aggregator.costPoints cfg cost = .ok (cost.entries.flatMap fun e =>
      costSeries (Aggregator.costDims cfg e.1) e.2 (ratio e.2)) := by
  have hmap := mapM_eq_ok cost.entries
    (f := fun e => Aggregator.costPointsOf cfg e.1 e.2)
    (g := fun e => costSeries (Aggregator.costDims cfg e.1) e.2 (ratio e.2)) fun e he => by
      rw [costPointsOf_eq, h e he]
      rfl
  rw [Aggregator.costPoints, hmap, List.flatMap_def]
  rfl

theorem costPoints_ok {cfg : Config} {cost : Dict CostKey CostEntry} {points : List MetricPoint}
    (h : Aggregator.costPoints cfg cost = .ok points) :
    ∃ ratio : CostEntry → Option ℚ,
      (∀ e ∈ cost.entries, Aggregator.completionRatio e.2 = .ok (ratio e.2)) ∧
      points = cost.entries.flatMap fun e =>
        costSeries (Aggregator.costDims cfg e.1) e.2 (ratio e.2) := by
  let ratio (c : CostEntry) : Option ℚ :=
    match Aggregator.completionRatio c with
    | .ok r => r
    | .error _ => none
  have hratio : ∀ e ∈ cost.entries, Aggregator.completionRatio e.2 = .ok (ratio e.2) := by
    obtain ⟨groups, hg, -⟩ := bind_eq_ok h
    intro e he
    obtain ⟨ps, hps⟩ := (mapM_ok_iff _ _).mp ⟨groups, hg⟩ e he
    rw [costPointsOf_eq] at hps
    cases hr : Aggregator.completionRatio e.2 with
    | error err => rw [hr] at hps; cases hps
    | ok r => simp only [ratio, hr]
  rw [costPoints_eq cfg hratio] at h
  exact ⟨ratio, hratio, (Except.ok.inj h).symm⟩

theorem named_costPoints {cfg : Config} {cost : Dict CostKey CostEntry}
    {points : List MetricPoint} (h : Aggregator.costPoints cfg cost = .ok points) :
    Named costNames points := by
  obtain ⟨ratio, _, rfl⟩ := costPoints_ok h
  exact named_flatMap fun e _ => named_costSeries _ _ _

/-- The sections of `build`, in order, when no ratio of a cost series raises. -/
theorem buildPoints_ok {cfg : Config} {agg : Aggregator} {malformed duplicates : ℕ}
    {points : List MetricPoint} (h : agg.buildPoints cfg malformed duplicates = .ok points) :
    ∃ cost, Aggregator.costPoints cfg agg.cost = .ok cost ∧
      points = Aggregator.histogramPoints "gateway.request.duration" agg.dur ++
        Aggregator.histogramPoints "gateway.request.ttft" agg.ttft ++
        Aggregator.countPoints agg.counts ++ Aggregator.errorPoints agg.errcat ++ cost ++
        countIf "gateway.pipeline.malformed_records" malformed ++
        countIf "gateway.pipeline.duplicate_records" duplicates ++
        Aggregator.unknownPoints agg.unknown := by
  unfold Aggregator.buildPoints at h
  obtain ⟨cost, hc, h⟩ := bind_eq_ok h
  cases h
  exact ⟨cost, hc, rfl⟩

theorem named_buildPoints {cfg : Config} {agg : Aggregator} {malformed duplicates : ℕ}
    {points : List MetricPoint} (h : agg.buildPoints cfg malformed duplicates = .ok points) :
    Named buildNames points := by
  obtain ⟨cost, hc, rfl⟩ := buildPoints_ok h
  refine (((((((named_histogramPoints _ _).mono ?_).append
    ((named_histogramPoints _ _).mono ?_)).append ((named_countPoints _).mono ?_)).append
    ((named_errorPoints _).mono ?_)).append ((named_costPoints hc).mono ?_)).append
    ((named_countIf _ _).mono ?_)).append ((named_countIf _ _).mono ?_) |>.append
    ((named_unknownPoints _).mono ?_) <;> simp [buildNames, costNames]

/-- The names that the quality, source and freshness points carry. -/
def sideNames : List String :=
  ["gateway.quality.completion_length_anomalies", "gateway.quality.completion_length_max_zscore",
    "gateway.quality.empty_completion_count", "gateway.pipeline.source_requests",
    "gateway.pipeline.source_retries", "gateway.pipeline.source_pages",
    "gateway.pipeline.source_latency_seconds", "gateway.pipeline.clock_skew_seconds",
    "gateway.pipeline.freshness_seconds", "gateway.pipeline.series_emitted"]

theorem named_qualityPointsOf (key : QualityKey) (result : GroupResult) :
    Named sideNames (qualityPointsOf key result) := by
  refine named_ite (named_nil _) ?_
  cases result.maxAbsZ <;> simp [Named, counter, sideNames]

theorem named_sourcePoints (stats : Option SourceStats) : Named sideNames (sourcePoints stats) := by
  cases stats with
  | none => exact named_nil _
  | some s =>
    refine ((Named.append ?_ ?_).append ?_).append ?_ <;>
      exact named_ite (named_nil _) (by simp [Named, counter, gauge, sideNames])

theorem named_freshnessPoints (raw : Option ℚ) : Named sideNames (freshnessPoints raw) := by
  cases raw with
  | none => exact named_nil _
  | some q =>
    refine Named.append (named_ite ?_ (named_nil _)) ?_ <;> simp [Named, gauge, sideNames]

/-- The names of the heartbeat points. -/
def heartbeatNames : List String :=
  ["gateway.pipeline.export_success", "gateway.pipeline.source_success",
    "gateway.pipeline.run_duration_seconds", "gateway.pipeline.checkpoint_conflicts"]

theorem named_healthPoints (stats : AggregationStats) :
    Named heartbeatNames (healthPoints stats) := by
  intro p hp
  rcases List.mem_cons.mp hp with rfl | hp
  · simp [gauge, heartbeatNames]
  · exact named_ite (named_nil _) ((named_gauge _ _ _).mono (by simp [heartbeatNames])) p hp

theorem named_finalHealth (elapsed : ℚ) (stats : AggregationStats) :
    Named heartbeatNames (finalHealth elapsed stats) := by
  intro p hp
  rcases List.mem_cons.mp hp with rfl | hp
  · simp [gauge, heartbeatNames]
  · exact named_ite ((named_counter _ _ _).mono (by simp [heartbeatNames])) (named_nil _) p hp

def processedName : String := "gateway.pipeline.records_processed"

/-- The trust points hold the number of processed records, once, as the number of folded
observations. -/
theorem trustPoints_processed (stream : Stream) (stats : AggregationStats) :
    (trustPoints stream stats).filter (·.name == processedName) =
      [counter processedName stream.state.processed .empty] := by
  have hcount : ∀ name n, name ≠ processedName →
      (countIf name n).filter (·.name == processedName) = [] := fun name n hn =>
    (named_countIf name n).filter _ (by simpa using Ne.symm hn)
  have htrunc : (if stream.truncated then [gauge "gateway.pipeline.read_truncated" 1 "1"]
      else []).filter (·.name == processedName) = [] :=
    (named_ite (named_gauge _ _ _) (named_nil _)).filter _ (by decide)
  simp only [trustPoints, List.filter_append, htrunc, List.append_nil,
    hcount _ _ (show "gateway.pipeline.cross_run_duplicate_records" ≠ processedName by decide),
    hcount _ _ (show "gateway.pipeline.quarantined_records" ≠ processedName by decide),
    hcount _ _ (show "gateway.pipeline.records_missing_cost" ≠ processedName by decide),
    hcount _ _ (show "gateway.pipeline.records_invalid_cost" ≠ processedName by decide)]
  rfl

/-- The prepared points hold the number of processed records, once. -/
theorem prepared_processed [Runtime] {args : RunArgs} {source : Source} {env : Env}
    {hasStore : Bool} {checkpoint : Option Checkpoint} {p : Prepared}
    (h : prepare args source env hasStore checkpoint = .ok p) :
    p.points.filter (·.name == processedName) =
      [counter processedName p.stream.state.processed .empty] := by
  obtain ⟨_, workload, results, _, _, hw, _, _, points, hpoints, hp⟩ := prepare_ok h
  have hwork := (named_buildPoints hw).filter processedName (by decide)
  have hquality : Named sideNames (results.flatMap fun e => qualityPointsOf e.1 e.2) :=
    named_flatMap fun e _ => named_qualityPointsOf e.1 e.2
  have hqual := hquality.filter processedName (by decide)
  have hempty : (emptyPoints p.stream.state.quality.emptyCounts).filter
      (·.name == processedName) = [] :=
    (named_map "gateway.quality.empty_completion_count" fun _ => rfl).filter _ (by decide)
  have hsource := (named_sourcePoints source.stats).filter processedName (by decide)
  have hfresh := (named_freshnessPoints (rawFreshness args.windowEnd
    p.stream.state.maxEnd)).filter processedName (by decide)
  have hseries : [gauge "gateway.pipeline.series_emitted" (seriesEmitted points) "1"].filter
      (·.name == processedName) = [] := (named_gauge _ _ _).filter _ (by decide)
  rw [hp, List.filter_append, hseries, List.append_nil, hpoints]
  simp only [List.filter_append, hwork, hqual, hempty, hsource, hfresh, trustPoints_processed,
    List.nil_append, List.append_nil]

/-! ## The whole run -/

/-- Whenever a run returns, it has read every record that the source yielded before it failed
or the limit was reached, and each of them has left through one exit: the counters add up to
their number. The emitted number of processed records is the number of observations, and the
reasons account for every malformed and every quarantined record. -/
theorem run_records_accounted [Runtime] {ε σ : Type} (exporter : Option (Exporter ε))
    (store : Option (CheckpointStore σ)) (args : RunArgs) (source : Source) (env : Env)
    (w : World ε σ) (result : PipelineResult)
    (h : (run exporter store args source env w).1 = .ok result) :
    result.stats.recordsRead = (readable args.maxRecords source.records).length ∧
      result.stats.recordsRead = result.stats.observations + result.stats.malformed +
        result.stats.quarantined + result.stats.duplicates + result.stats.crossRunDuplicates ∧
      result.points.filter (·.name == "gateway.pipeline.records_processed") =
        [counter "gateway.pipeline.records_processed" result.stats.observations .empty] ∧
      (result.malformedByReason.entries.map Prod.snd).sum =
        result.stats.malformed + result.stats.quarantined := by
  rcases run_cases exporter store args source env w with ⟨e, he⟩ |
    ⟨checkpoint, p, stats, health, final, exported, announced, saved, closed, w', _, hp, hpub, hcon⟩
  · rw [he] at h
    cases h
  · obtain ⟨cutoff, _, _, _, hstream, _, _, hstats, _⟩ := prepare_ok hp
    have hrep := hcon.reported result h
    have hacc := streamFrom_accounted (streamEnv args env store.isSome checkpoint cutoff)
      args.maxRecords source.failure source.records
    rw [← hstream] at hacc
    obtain ⟨_, _, _, _, hfinal⟩ := hpub.update.trans hrep.update
    obtain ⟨s, hhealth⟩ := hpub.health_eq
    obtain ⟨elapsed, s', hfin⟩ := hcon.final_eq
    have hread := recordsRead_streamFrom (streamEnv args env store.isSome checkpoint cutoff)
      args.maxRecords source.failure source.records .new
    rw [← hstream] at hread
    refine ⟨?_, ?_, ?_, ?_⟩
    · rw [hfinal, hstats]
      simp only [preparedStats]
      rw [hread]
      cases args.maxRecords <;> simp [StreamState.new]
    · rw [hfinal, hstats]
      simp only [preparedStats, Aggregator.buildStats]
      rw [hacc.folded]
      exact hacc.read
    · change result.points.filter (·.name == processedName) = _
      rw [hrep.points, List.filter_append, List.filter_append, prepared_processed hp, hhealth, hfin,
        (named_healthPoints s).filter _ (by decide),
        (named_finalHealth elapsed s').filter _ (by decide),
        List.append_nil, List.append_nil, hfinal, hstats]
      simp only [preparedStats, Aggregator.buildStats, hacc.folded]
      rfl
    · rw [hrep.reasons, hfinal, hstats]
      simp only [preparedStats, Aggregator.buildStats]
      have hreasons := hacc.reasons
      simp only [Dict.weightWhere, List.filter_true, id_eq] at hreasons
      exact hreasons

/-- A record of one request on 2 January 2024, with its times of day. -/
def sampleRecord (id start stop : String) : Json :=
  .obj [("id", .str id), ("startTime", .str ("2024-01-02T" ++ start ++ "Z")),
    ("endTime", .str ("2024-01-02T" ++ stop ++ "Z")),
    ("usageDetails", .obj [("input", .int 12), ("output", .int 30)])]

def sampleEnv : Env := ⟨fun _ _ => 0, 2⟩

/-- An exporter that accepts everything, on both channels. -/
def acceptingExporter : Exporter Unit :=
  ⟨fun s _ => (.ok (), s), some fun s _ => (.ok (), s)⟩

/-- A truncated read of an accepted, a cross-run, a repeated and a malformed record: four of the
five records are read. -/
theorem run_records_accounted_sample :
    letI := Runtime.ascii
    ∃ result,
      (run (none : Option (Exporter Unit)) (some (fileStore fun _ => none))
        ⟨.default, none, .finite 10, some 4⟩
        ⟨[sampleRecord "a" "03:04:05" "03:04:06.5", sampleRecord "b" "03:05:00" "03:06:00",
          sampleRecord "a" "03:04:05" "03:04:06.5", .null, .null], none, none⟩ sampleEnv
        ⟨(), .written ⟨some "2024-01-02T03:00:00+00:00", Dict.ofList [("b", "")]⟩, []⟩).1 =
          .ok result ∧
      result.stats.recordsRead = 4 ∧
      result.stats.recordsRead = result.stats.observations + result.stats.malformed +
        result.stats.quarantined + result.stats.duplicates + result.stats.crossRunDuplicates ∧
      result.points.filter (·.name == "gateway.pipeline.records_processed") =
        [counter "gateway.pipeline.records_processed" result.stats.observations .empty] ∧
      (result.malformedByReason.entries.map Prod.snd).sum =
        result.stats.malformed + result.stats.quarantined := by
  let := Runtime.ascii
  exact (exists_ok_of_isOk (by decide +kernel)).imp fun result h =>
    ⟨h, run_records_accounted _ _ _ _ _ _ result h⟩

end InferenceControlPlane.Sli
