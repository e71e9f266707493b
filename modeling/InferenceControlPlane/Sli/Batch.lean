import InferenceControlPlane.Sli.Cardinality

/-!
# The batch specification

`_dedup` and `aggregate` work on a whole list of observations. The streaming run
de-duplicates inline and drops the ids of earlier runs; it folds the unique
observations of the list that are not among those ids.
-/
namespace InferenceControlPlane.Sli
open Python

/-! ## De-duplication of a list -/

/-- The locals of `_dedup`: the ids seen so far, the observations kept, and the number of those
left out. -/
structure Dedup where
  seen : List String
  unique : List Observation
  duplicates : ℕ

namespace Dedup

/-- One iteration; a blank id is never seen. -/
def step (d : Dedup) (obs : Observation) : Dedup :=
  if obs.obsId ≠ "" ∧ obs.obsId ∈ d.seen then { d with duplicates := d.duplicates + 1 }
  else
    { d with
      seen := if obs.obsId ≠ "" then obs.obsId :: d.seen else d.seen
      unique := d.unique ++ [obs] }

def run (observations : List Observation) : Dedup := observations.foldl step ⟨[], [], 0⟩

theorem run_concat (observations : List Observation) (obs : Observation) :
    run (observations ++ [obs]) = (run observations).step obs := by
  rw [run, List.foldl_append]
  rfl

end Dedup

/-- `_dedup`: of the observations with one id the first is kept; those without an id are all
kept. -/
def dedup (observations : List Observation) : List Observation × ℕ :=
  ((Dedup.run observations).unique, (Dedup.run observations).duplicates)

lemma dedup_concat_duplicate {observations : List Observation} {obs : Observation}
    (hid : obs.obsId ≠ "") (hseen : obs.obsId ∈ (Dedup.run observations).seen) :
    Dedup.run (observations ++ [obs]) =
      { Dedup.run observations with duplicates := (Dedup.run observations).duplicates + 1 } := by
  rw [Dedup.run_concat, Dedup.step, if_pos ⟨hid, hseen⟩]

lemma dedup_concat_new {observations : List Observation} {obs : Observation}
    (hid : obs.obsId ≠ "") (hseen : obs.obsId ∉ (Dedup.run observations).seen) :
    Dedup.run (observations ++ [obs]) =
      ⟨obs.obsId :: (Dedup.run observations).seen, (Dedup.run observations).unique ++ [obs],
        (Dedup.run observations).duplicates⟩ := by
  rw [Dedup.run_concat, Dedup.step, if_neg fun h => hseen h.2, if_pos hid]

section
variable [Runtime]

/-! ## Aggregation of a list -/

/-- The locals of `aggregate`, which de-duplicates while it folds, where a streaming run keeps
them in its state. -/
structure Batch where
  aggregator : Aggregator
  seen : List String
  duplicates : ℕ

/-- One iteration of `aggregate`: a known id is counted as a duplicate, and any other observation
is aggregated. -/
def Batch.step (cfg : Config) (b : Batch) (obs : Observation) : Batch :=
  if obs.obsId ≠ "" ∧ obs.obsId ∈ b.seen then { b with duplicates := b.duplicates + 1 }
  else
    { b with
      seen := if obs.obsId ≠ "" then obs.obsId :: b.seen else b.seen
      aggregator := b.aggregator.add cfg obs }

/-- `aggregate`: the batch counterpart of a streaming run, from a list of observations to the
points and statistics of its window. -/
def aggregate (observations : List Observation) (malformed : ℕ) (cfg : Config) (duplicates : ℕ) :
    Except PyErr (List MetricPoint × AggregationStats) :=
  let b := observations.foldl (Batch.step cfg) ⟨.new, [], duplicates⟩
  b.aggregator.build cfg malformed b.duplicates

/-- The loop of `aggregate` folds what `_dedup` keeps. -/
lemma batch_foldl (cfg : Config) (duplicates : ℕ) (observations : List Observation) :
    observations.foldl (Batch.step cfg) ⟨.new, [], duplicates⟩ =
      ⟨Aggregator.addAll cfg (Dedup.run observations).unique, (Dedup.run observations).seen,
        duplicates + (Dedup.run observations).duplicates⟩ := by
  induction observations using List.reverseRecOn with
  | nil => rfl
  | append_singleton xs obs ih =>
    rw [List.foldl_append, ih, Dedup.run_concat]
    simp only [List.foldl_cons, List.foldl_nil, Batch.step, Dedup.step]
    split_ifs
    · rfl
    · rw [Aggregator.addAll_concat]
    · rw [Aggregator.addAll_concat]

/-- `aggregate` is `_dedup` and then the aggregator: its loop may be cut into the two. -/
theorem aggregate_eq (observations : List Observation) (malformed : ℕ) (cfg : Config)
    (duplicates : ℕ) : aggregate observations malformed cfg duplicates =
      (Aggregator.addAll cfg (dedup observations).1).build cfg malformed
        (duplicates + (dedup observations).2) := by
  rw [aggregate, batch_foldl]
  rfl

/-! ## The streaming loop -/

/-- The observations that parse and have an id, in order. -/
def identified (records : List Json) : List Observation :=
  (records.filterMap fun raw => (parseObservation raw).toOption).filter (·.obsId ≠ "")

lemma identified_concat (records : List Json) (raw : Json) : identified (records ++ [raw]) =
    identified records ++ ((parseObservation raw).toOption.toList.filter (·.obsId ≠ "")) := by
  rw [identified, List.filterMap_append, List.filter_append]
  cases h : (parseObservation raw).toOption <;> simp [identified, h]

/-- The read loop is in step with `_dedup` over the observations met so far. -/
structure InStep (env : StreamEnv) (observations folded : List Observation) (st : StreamState) :
    Prop where
  seen : st.seenBatch = (Dedup.run observations).seen
  folded : folded = (dedup observations).1.filter (·.obsId ∉ env.priorSeen)
  duplicates : st.duplicates = (dedup observations).2
  crossRun : st.crossRunDuplicates = (dedup observations).1.countP (·.obsId ∈ env.priorSeen)

/-- One record keeps the loop in step: a record without an id is not in the list, and
the three exits for the others are those of `_dedup` and of the prior ids. -/
theorem InStep.step {env : StreamEnv} {read : List Json} {folded : List Observation}
    {st : StreamState} (h : InStep env (identified read) folded st) (raw : Json) :
    InStep env (identified (read ++ [raw])) (folded ++ (st.contributes env raw).toList)
      (st.step env raw) := by
  have hv := st.verdict env raw
  rw [identified_concat]
  generalize st.step env raw = st' at hv
  cases hv with
  | malformed reason hp =>
    simp only [StreamState.contributes, hp, Except.toOption, Option.toList_none, List.filter_nil,
      List.append_nil]
    exact ⟨h.seen, h.folded, h.duplicates, h.crossRun⟩
  | quarantined e hp =>
    simp only [StreamState.contributes, hp, Except.toOption, Option.toList_none, List.filter_nil,
      List.append_nil]
    exact ⟨h.seen, h.folded, h.duplicates, h.crossRun⟩
  | blank obs hp hid =>
    simp only [StreamState.contributes, hp, Except.toOption, hid, true_or, if_true,
      Option.toList_none, Option.toList_some, ne_eq, not_true_eq_false, decide_false,
      List.filter_cons, Bool.false_eq_true, if_false, List.filter_nil, List.append_nil]
    exact ⟨h.seen, h.folded, h.duplicates, h.crossRun⟩
  | duplicate obs hp hid hbatch =>
    have hrun := dedup_concat_duplicate hid (h.seen ▸ hbatch)
    simp only [StreamState.contributes, hp, Except.toOption, hbatch, true_or, or_true, if_true,
      Option.toList_none, Option.toList_some, hid, ne_eq, not_false_eq_true, decide_true,
      List.filter_cons, List.filter_nil, List.append_nil]
    refine ⟨?_, ?_, ?_, ?_⟩
    · rw [hrun]
      exact h.seen
    · rw [dedup, hrun]
      exact h.folded
    · rw [dedup, hrun]
      exact congrArg (· + 1) h.duplicates
    · rw [dedup, hrun]
      exact h.crossRun
  | crossRun obs hp hid hbatch hprior =>
    have hrun := dedup_concat_new hid (h.seen ▸ hbatch)
    simp only [StreamState.contributes, hp, Except.toOption, hprior, or_true, if_true,
      Option.toList_none, Option.toList_some, hid, ne_eq, not_false_eq_true, decide_true,
      List.filter_cons, List.filter_nil, List.append_nil]
    refine ⟨?_, ?_, ?_, ?_⟩
    · rw [hrun]
      exact congrArg (obs.obsId :: ·) h.seen
    · rw [dedup, hrun]
      simpa [hprior, dedup] using h.folded
    · rw [dedup, hrun]
      exact h.duplicates
    · rw [dedup, hrun]
      simpa [hprior, dedup] using h.crossRun
  | folded obs hp hid hbatch hprior =>
    have hrun := dedup_concat_new hid (h.seen ▸ hbatch)
    simp only [StreamState.contributes, hp, Except.toOption, hid, hbatch, hprior, or_self, if_false,
      Option.toList_some, ne_eq, not_false_eq_true, decide_true, if_true,
      List.filter_cons, List.filter_nil]
    refine ⟨?_, ?_, ?_, ?_⟩
    · rw [hrun]
      exact congrArg (obs.obsId :: ·) h.seen
    · rw [dedup, hrun]
      simpa [hprior, dedup] using h.folded
    · rw [dedup, hrun]
      exact h.duplicates
    · rw [dedup, hrun]
      change st.crossRunDuplicates = _
      simpa [hprior, dedup] using h.crossRun

/-- A read that was not truncated folds what `_dedup` keeps and no earlier run has seen. -/
theorem streamFrom_inStep (env : StreamEnv) (maxRecords : Option ℤ) (failure : Option PyErr)
    (records : List Json)
    (hall : (streamFrom env maxRecords failure records .new).truncated = false) :
    InStep env (identified records) (foldedFrom env maxRecords records .new)
      (streamFrom env maxRecords failure records .new).state := by
  have hrule : ∃ read, read <+: records ∧
      InStep env (identified read) (foldedFrom env maxRecords records .new)
        (streamFrom env maxRecords failure records .new).state ∧
      ((streamFrom env maxRecords failure records .new).truncated = false → read = records) :=
    streamFrom_rule (fun read folded st => InStep env (identified read) folded st) [] []
      ⟨rfl, rfl, rfl, rfl⟩ (fun _ _ _ raw _ h => h.step raw)
  obtain ⟨read, -, h, hread⟩ := hrule
  rw [hread hall] at h
  exact h

end

/-! ## Whole runs -/

/-- The statistics as `build` fills them: the fields that the run sets are as they were. -/
def AggregationStats.built (s : AggregationStats) : AggregationStats :=
  { s with
    crossRunDuplicates := 0
    recordsRead := 0
    quarantined := 0
    exportOk := true
    heartbeatOk := true
    exportError := none
    freshnessSeconds := none
    readTruncated := false
    checkpointConflict := false
    sourceOk := true
    sourceError := none }

lemma built_preparedStats (args : RunArgs) (stream : Stream) (agg : Aggregator)
    (malformed duplicates : ℕ) :
    (preparedStats args stream (agg.buildStats malformed duplicates)).built =
      agg.buildStats malformed duplicates := rfl

lemma HealthUpdate.built {s t : AggregationStats} (h : HealthUpdate s t) : t.built = s.built := by
  obtain ⟨_, _, _, _, rfl⟩ := h
  rfl

/-- Without truncation. -/
lemma not_truncated [Runtime] {env : StreamEnv} {maxRecords : Option ℤ}
    {failure : Option PyErr} {records : List Json} {st : StreamState}
    (h : ∀ limit, maxRecords = some limit → (st.recordsRead + records.length : ℤ) ≤ limit) :
    (streamFrom env maxRecords failure records st).truncated = false := by
  induction records generalizing st with
  | nil => rfl
  | cons raw rest ih =>
    have hlimit : ¬atLimit maxRecords st.recordsRead = true := by
      cases maxRecords with
      | none => simp [atLimit]
      | some limit =>
        have := h limit rfl
        rw [List.length_cons] at this
        simp only [atLimit, decide_eq_true_eq]
        omega
    rw [streamFrom, if_neg hlimit]
    apply ih
    intro limit heq
    have := h limit heq
    rw [List.length_cons] at this
    rw [step_recordsRead]
    omega

/-- A run that reads every record folds, in order, the unique observations that no
earlier run has seen, counts the others, and without earlier ids returns the points
and the statistics of `aggregate`. -/
theorem run_eq_batch [Runtime] {ε σ : Type} (exporter : Option (Exporter ε))
    (store : Option (CheckpointStore σ)) (args : RunArgs) (source : Source) (env : Env)
    (w : World ε σ) (checkpoint : Option Checkpoint)
    (hload : (loadCheckpoint store w).1 = .ok checkpoint)
    (hall : ∀ limit, args.maxRecords = some limit → (source.records.length : ℤ) ≤ limit) :
    let prior := (checkpoint.map Checkpoint.seen).getD .empty
    let observations := identified source.records
    let unique := (dedup observations).1
    let fresh := unique.filter (·.obsId ∉ prior)
    (∀ cutoff, readCutoff args = .ok cutoff →
      let st := (streamFrom (streamEnv args env store.isSome checkpoint cutoff) args.maxRecords
        source.failure source.records .new).state
      st.aggregator = fresh.foldl (Aggregator.add args.cfg) .new ∧
        st.quality = fresh.foldl (QualityAccumulator.add env.rng sampleCap args.cfg) .new ∧
        st.processed = fresh.length) ∧
    ∀ result, (run exporter store args source env w).1 = .ok result →
      result.stats.observations = fresh.length ∧
        result.stats.duplicates = (dedup observations).2 ∧
        result.stats.crossRunDuplicates = unique.countP (·.obsId ∈ prior) ∧
        ((∀ id, id ∉ prior) → ∃ points stats rest,
          aggregate observations result.stats.malformed args.cfg 0 = .ok (points, stats) ∧
            result.points = points ++ rest ∧ (∀ p ∈ rest, isWorkload p = false) ∧
            result.stats.built = stats) := by
  intro prior observations unique fresh
  have hstream : ∀ cutoff, InStep (streamEnv args env store.isSome checkpoint cutoff) observations
      (foldedFrom (streamEnv args env store.isSome checkpoint cutoff) args.maxRecords
        source.records .new)
      (streamFrom (streamEnv args env store.isSome checkpoint cutoff) args.maxRecords
        source.failure source.records .new).state := by
    intro cutoff
    apply streamFrom_inStep
    apply not_truncated
    intro limit heq
    simpa [StreamState.new] using hall limit heq
  refine ⟨?_, ?_⟩
  · intro cutoff _
    obtain ⟨_, _, hd, _⟩ := streamFrom_deduplicated
      (streamEnv args env store.isSome checkpoint cutoff) args.maxRecords source.failure
      source.records
    have hfolded := (hstream cutoff).folded
    rw [hfolded] at hd
    exact ⟨hd.aggregated, hd.sampled, hd.processed⟩
  · intro result hresult
    rcases run_cases exporter store args source env w with ⟨e, he⟩ |
      ⟨checkpoint', p, stats, health, final, _, _, _, _, w', hload', hp, hpub, hcon⟩
    · rw [he] at hresult
      cases hresult
    · obtain rfl : checkpoint = checkpoint' := Except.ok.inj (hload.symm.trans hload')
      obtain ⟨cutoff, _, _, _, hs, _, _, hstats, _⟩ := prepare_ok hp
      obtain ⟨workload, rest, hw, hsupport, hpoints⟩ := prepared_points hp
      have hrep := hcon.reported result hresult
      obtain ⟨s, rfl⟩ := hpub.health_eq
      obtain ⟨elapsed, s', rfl⟩ := hcon.final_eq
      have hsame := hstream cutoff
      rw [← hs] at hsame
      obtain ⟨_, _, hd, _⟩ := streamFrom_deduplicated
        (streamEnv args env store.isSome checkpoint cutoff) args.maxRecords source.failure
        source.records
      rw [← hs, hsame.folded] at hd
      have hagg : p.stream.state.aggregator = Aggregator.addAll args.cfg fresh := hd.aggregated
      have hbuilt := (hpub.update.trans hrep.update).built
      rw [hstats, built_preparedStats] at hbuilt
      obtain ⟨_, _, _, _, hfinal⟩ := hpub.update.trans hrep.update
      have hmalformed : result.stats.malformed = p.stream.state.malformed := by
        rw [hfinal, hstats]
        rfl
      refine ⟨?_, ?_, ?_, ?_⟩
      · rw [hfinal, hstats]
        simp only [preparedStats, Aggregator.buildStats, hagg]
        exact (Aggregator.addAll_counters args.cfg fresh).1
      · rw [hfinal, hstats]
        exact hsame.duplicates
      · rw [hfinal, hstats]
        exact hsame.crossRun
      · intro hprior
        have hfresh : fresh = unique := by
          rw [List.filter_eq_self]
          intro obs _
          simpa using hprior obs.obsId
        rw [hfresh] at hagg
        refine ⟨workload, p.stream.state.aggregator.buildStats p.stream.state.malformed
          p.stream.state.duplicates, rest ++ [gauge seriesName (seriesEmitted workload) "1"] ++
            healthPoints s ++ finalHealth elapsed s', ?_, ?_, ?_, hbuilt⟩
        · rw [aggregate_eq, hmalformed, Nat.zero_add, ← hsame.duplicates, ← hagg,
          Aggregator.build, hw]
          rfl
        · rw [hrep.points, hpoints]
          simp only [List.append_assoc]
        · intro point hpoint
          rcases List.mem_append.mp hpoint with hpoint | hpoint
          · rcases List.mem_append.mp hpoint with hpoint | hpoint
            · rcases List.mem_append.mp hpoint with hpoint | hpoint
              · exact not_isWorkload hsupport supportNames_support point hpoint
              · exact not_isWorkload (named_gauge seriesName _ _) (by decide) point hpoint
            · exact not_isWorkload (named_healthPoints s) (by decide) point hpoint
          · exact not_isWorkload (named_finalHealth elapsed s') (by decide) point hpoint

/-- Two requests, one of them twice, and a malformed record. -/
def repeatedRecords : List Json :=
  [sampleRecord "a" "03:04:05" "03:04:06.5", sampleRecord "b" "03:05:00" "03:06:00",
    sampleRecord "a" "03:04:05" "03:04:06.5", .null]

/-- A checkpoint file that has seen "b". -/
def seenBefore : World Unit FileState :=
  ⟨(), .written ⟨some "2024-01-02T03:00:00+00:00",
    Dict.ofList [("b", "2024-01-02T03:06:00+00:00")]⟩, []⟩

/-- A first run of the four records is their batch; a run whose checkpoint has seen "b" folds
"a" alone, and counts one repeated and one earlier request. -/
theorem run_eq_batch_sample :
    letI := Runtime.ascii
    let args : RunArgs := ⟨.default, none, .finite 10, none⟩
    let source : Source := ⟨repeatedRecords, none, none⟩
    (∃ result, (run (some acceptingExporter) none args source sampleEnv
          (⟨(), (), []⟩ : World Unit Unit)).1 = .ok result ∧
        ∃ points stats rest,
          aggregate (identified repeatedRecords) result.stats.malformed .default 0 =
            .ok (points, stats) ∧
          result.points = points ++ rest ∧ (∀ p ∈ rest, isWorkload p = false) ∧
          result.stats.built = stats) ∧
      ∃ result, (run (some acceptingExporter) (some (fileStore fun _ => none)) args source
          sampleEnv seenBefore).1 = .ok result ∧ result.stats.observations = 1 ∧
        result.stats.duplicates = 1 ∧ result.stats.crossRunDuplicates = 1 := by
  let := Runtime.ascii
  intro args source
  constructor
  · obtain ⟨-, hresult⟩ := run_eq_batch (some acceptingExporter) none args source sampleEnv
      (⟨(), (), []⟩ : World Unit Unit) none rfl (fun _ h => nomatch h)
    obtain ⟨result, hok⟩ : ∃ result, (run (some acceptingExporter) none args source sampleEnv
        (⟨(), (), []⟩ : World Unit Unit)).1 = .ok result := exists_ok_of_isOk (by decide +kernel)
    obtain ⟨-, -, -, hbatch⟩ := hresult result hok
    exact ⟨result, hok, hbatch fun id => Dict.not_mem_empty id⟩
  · obtain ⟨checkpoint, hload⟩ : ∃ checkpoint,
        (loadCheckpoint (some (fileStore fun _ => none)) seenBefore).1 = .ok checkpoint :=
      exists_ok_of_isOk (by decide +kernel)
    have hseen : (checkpoint.map Checkpoint.seen).getD .empty =
        Dict.ofList [("b", "2024-01-02T03:06:00+00:00")] := by
      have hprior : (loadCheckpoint (some (fileStore fun _ => none)) seenBefore).1.map
          (fun found => (found.map Checkpoint.seen).getD .empty) =
            .ok (Dict.ofList [("b", "2024-01-02T03:06:00+00:00")]) := by decide +kernel
      rw [hload] at hprior
      exact Except.ok.inj hprior
    obtain ⟨-, hresult⟩ := run_eq_batch (some acceptingExporter) (some (fileStore fun _ => none))
      args source sampleEnv seenBefore checkpoint hload (fun _ h => nomatch h)
    obtain ⟨result, hok⟩ : ∃ result, (run (some acceptingExporter) (some (fileStore fun _ => none))
        args source sampleEnv seenBefore).1 = .ok result := exists_ok_of_isOk (by decide +kernel)
    obtain ⟨hobservations, hduplicates, hcrossRun, -⟩ := hresult result hok
    rw [hseen] at hobservations hcrossRun
    refine ⟨result, hok, hobservations.trans ?_, hduplicates.trans ?_, hcrossRun.trans ?_⟩
    · decide +kernel
    · decide +kernel
    · decide +kernel

end InferenceControlPlane.Sli
