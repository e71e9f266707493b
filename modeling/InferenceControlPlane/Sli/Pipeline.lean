import InferenceControlPlane.Sli.Checkpoint
import InferenceControlPlane.Sli.Emit

/-!
# The pipeline run

One run loads the checkpoint, streams the source, assembles the points, flushes
them, sends the health heartbeat, commits the checkpoint, and closes with a final
heartbeat. The run is cut at these stages. Effects on the exporter and the store
are logged in order in the world that the run threads through.
-/
namespace InferenceControlPlane.Sli
open Python

/-! ## Inputs and outputs -/

structure SourceStats where
  requests : ℤ
  retries : ℤ
  pages : ℤ
  latencySeconds : ℚ

/-- What a source does when it is read: the records it yields, the exception it
raises after the last of them, and the counters it exposes. -/
structure Source where
  records : List Json
  failure : Option PyErr
  stats : Option SourceStats

structure RunArgs where
  cfg : Config
  windowEnd : Option DateTime
  overlapMinutes : PyFloat
  maxRecords : Option ℤ

/-- What a run takes from its surroundings beside source, exporter and store: the random draws of
the reservoir, and the monotonic time that it takes. -/
structure Env where
  rng : Rng
  elapsed : ℚ

structure PipelineResult where
  points : List MetricPoint
  stats : AggregationStats
  quality : Dict String QualityStatus
  malformedByReason : Dict String ℕ

inductive Effect where
  | exported (points : List MetricPoint) (error : Option PyErr)
  | heartbeat (points : List MetricPoint) (error : Option PyErr)
  | saved (cp : Checkpoint) (error : Option SaveError)

/-- The states of the exporter and of the store, and the list of what was done to them so far,
with what each call returned or raised. -/
structure World (ε σ : Type) where
  exporter : ε
  store : σ
  effects : List Effect

/-! ## Streaming -/

structure StreamState where
  aggregator : Aggregator
  quality : QualityAccumulator
  currentSeen : Dict String DateTime
  malformedByReason : Dict String ℕ
  quarantined : ℕ
  duplicates : ℕ
  crossRunDuplicates : ℕ
  recordsRead : ℕ
  processed : ℕ
  maxEnd : Option DateTime
  seenBatch : List String

/-- What the loop body reads: the configuration, the prior seen map, and the cutoff
from which ends are collected, if they are collected at all. -/
structure StreamEnv where
  cfg : Config
  rng : Rng
  priorSeen : Dict String String
  seenCutoff : Option DateTime

namespace StreamState

def new : StreamState :=
  ⟨.new, .new, .empty, .empty, 0, 0, 0, 0, 0, none, []⟩

def reject (st : StreamState) (reason : String) : StreamState :=
  { st with malformedByReason := st.malformedByReason.modify reason 0 (· + 1) }

/-- Whether the end of an observation enters the seen map of this run. -/
def collects (env : StreamEnv) (obs : Observation) : Bool :=
  match env.seenCutoff with
  | none => false
  | some cutoff => cutoff.instant ≤ obs.endTime.instant

def laterEnd (maxEnd : Option DateTime) (endTime : DateTime) : DateTime :=
  match maxEnd with
  | none => endTime
  | some latest => if latest.instant < endTime.instant then endTime else latest

section Step
variable [Runtime]

/-- The tail of the loop body, for an observation that is folded. -/
def fold (env : StreamEnv) (st : StreamState) (obs : Observation) : StreamState :=
  { st with
    aggregator := st.aggregator.add env.cfg obs
    quality := st.quality.add env.rng sampleCap env.cfg obs
    processed := st.processed + 1
    maxEnd := some (laterEnd st.maxEnd obs.endTime)
    currentSeen := if collects env obs then st.currentSeen.set obs.obsId obs.endTime
      else st.currentSeen }

def unexpectedError : String := "unexpected_error"

/-- The loop body after the truncation check. -/
def step (env : StreamEnv) (st : StreamState) (raw : Json) : StreamState :=
  let st := { st with recordsRead := st.recordsRead + 1 }
  match parseObservation raw with
  | .error (.malformed reason) => st.reject reason.code
  | .error (.escaped _) =>
    { st with quarantined := st.quarantined + 1 }.reject unexpectedError
  | .ok obs =>
    if obs.obsId = "" then st.reject MalformedReason.missingObservationId.code
    else if obs.obsId ∈ st.seenBatch then { st with duplicates := st.duplicates + 1 }
    else
      let st := { st with seenBatch := obs.obsId :: st.seenBatch }
      if obs.obsId ∈ env.priorSeen then
        { st with crossRunDuplicates := st.crossRunDuplicates + 1 }
      else st.fold env obs

end Step

/-- `malformed`: every reason except the quarantine, whose records failed in a way that no reason
names. -/
def malformed (st : StreamState) : ℕ :=
  st.malformedByReason.weightWhere (· != unexpectedError) id

end StreamState

/-- How the read loop ended: its state, whether the record limit cut it off, and the type of the
exception that ended it. -/
structure Stream where
  state : StreamState
  truncated : Bool
  error : Option String

def atLimit (maxRecords : Option ℤ) (recordsRead : ℕ) : Bool :=
  match maxRecords with
  | none => false
  | some limit => limit ≤ recordsRead

/-- The read loop over `guarded_records()`: it ends with the records, at the limit, or with the
failure of the source. -/
def streamFrom [Runtime] (env : StreamEnv) (maxRecords : Option ℤ) (failure : Option PyErr) :
    List Json → StreamState → Stream
  | [], st => ⟨st, false, failure.map PyErr.typeName⟩
  | raw :: rest, st =>
    if atLimit maxRecords st.recordsRead then ⟨st, true, none⟩
    else streamFrom env maxRecords failure rest (st.step env raw)

/-! ## Assembling the points -/

def qualityPointsOf (key : QualityKey) (result : GroupResult) : List MetricPoint :=
  if result.status = .coldStart then []
  else
    counter "gateway.quality.completion_length_anomalies" result.anomalyCount key.asDict ::
      match result.maxAbsZ with
      | none => []
      | some z =>
        [⟨"gateway.quality.completion_length_max_zscore", .gauge, "score", key.asDict,
          some (.float (roundTo 4 z)), none⟩]

def emptyPoints (emptyCounts : Dict QualityKey ℕ) : List MetricPoint :=
  emptyCounts.entries.map fun e =>
    counter "gateway.quality.empty_completion_count" e.2 e.1.asDict

def sourcePoints : Option SourceStats → List MetricPoint
  | none => []
  | some s =>
    (if s.requests = 0 then []
      else [counter "gateway.pipeline.source_requests" s.requests .empty]) ++
    (if s.retries = 0 then []
      else [counter "gateway.pipeline.source_retries" s.retries .empty]) ++
    (if s.pages = 0 then [] else [counter "gateway.pipeline.source_pages" s.pages .empty]) ++
    (if s.latencySeconds = 0 then []
      else [gauge "gateway.pipeline.source_latency_seconds" s.latencySeconds "s"])

/-- `(window_end - max_end).total_seconds()`, when both exist; negative when a record ends after
the window. -/
def rawFreshness (windowEnd maxEnd : Option DateTime) : Option ℚ := do
  return (← windowEnd).secondsSince (← maxEnd)

def freshnessPoints : Option ℚ → List MetricPoint
  | none => []
  | some raw =>
    (if raw < 0 then [gauge "gateway.pipeline.clock_skew_seconds" (-raw) "s"] else []) ++
      [gauge "gateway.pipeline.freshness_seconds" (max 0 raw) "s"]

def countIf (name : String) (n : ℕ) : List MetricPoint :=
  if n = 0 then [] else [counter name n .empty]

def trustPoints (stream : Stream) (stats : AggregationStats) : List MetricPoint :=
  [counter "gateway.pipeline.records_read" stream.state.recordsRead .empty,
    counter "gateway.pipeline.records_processed" stream.state.processed .empty] ++
  countIf "gateway.pipeline.cross_run_duplicate_records" stream.state.crossRunDuplicates ++
  countIf "gateway.pipeline.quarantined_records" stream.state.quarantined ++
  (if stream.truncated then [gauge "gateway.pipeline.read_truncated" 1 "1"] else []) ++
  countIf "gateway.pipeline.records_missing_cost" stats.costMissing ++
  countIf "gateway.pipeline.records_invalid_cost" stats.costInvalid

/-- The points that count as workload series. -/
def isWorkload (p : MetricPoint) : Bool :=
  startsWith p.name "gateway." && !startsWith p.name "gateway.pipeline." &&
    !startsWith p.name "gateway.quality."

def seriesEmitted (points : List MetricPoint) : ℕ := points.countP isWorkload

/-- The statistics as they stand before the main flush. -/
def preparedStats (args : RunArgs) (stream : Stream) (stats : AggregationStats) :
    AggregationStats :=
  { stats with
    crossRunDuplicates := stream.state.crossRunDuplicates
    recordsRead := stream.state.recordsRead
    quarantined := stream.state.quarantined
    readTruncated := stream.truncated
    sourceOk := stream.error.isNone
    sourceError := stream.error
    exportOk := stream.error.isNone
    exportError := stream.error.map fun _ => "skipped_source_failure"
    freshnessSeconds := (rawFreshness args.windowEnd stream.state.maxEnd).map (max 0) }

/-- Everything a run has computed before it touches the exporter. Up to here nothing outside the
process has changed. -/
structure Prepared where
  stream : Stream
  points : List MetricPoint
  stats : AggregationStats
  quality : Dict String QualityStatus

section Prepare
variable [Runtime]

/-- `window_end - timedelta(minutes=overlap_minutes)`: ids whose records end before the cutoff are
forgotten. -/
def cutoffOf (overlapMinutes : PyFloat) (windowEnd : DateTime) : Except PyErr DateTime := do
  windowEnd.sub (← timedeltaMinutes overlapMinutes)

omit [Runtime] in
/-- The cutoff computed before the read, whether or not a store is configured. -/
def readCutoff (args : RunArgs) : Except PyErr (Option DateTime) :=
  match args.windowEnd with
  | none => .ok none
  | some windowEnd => do return some (← cutoffOf args.overlapMinutes windowEnd)

def streamEnv (args : RunArgs) (env : Env) (hasStore : Bool) (checkpoint : Option Checkpoint)
    (cutoff : Option DateTime) : StreamEnv where
  cfg := args.cfg
  rng := env.rng
  priorSeen := (checkpoint.map Checkpoint.seen).getD .empty
  seenCutoff := if hasStore then cutoff else none

def assemble (args : RunArgs) (source : Source) (stream : Stream) : Except PyErr Prepared := do
  let st := stream.state
  let (workload, built) ← st.aggregator.build args.cfg st.malformed st.duplicates
  let stats := preparedStats args stream built
  let results ← st.quality.results args.cfg
  let points := workload ++ results.flatMap (fun e => qualityPointsOf e.1 e.2) ++
    emptyPoints st.quality.emptyCounts ++ trustPoints stream stats ++
    sourcePoints source.stats ++ freshnessPoints (rawFreshness args.windowEnd st.maxEnd)
  return {
    stream, stats
    points := points ++ [gauge "gateway.pipeline.series_emitted" (seriesEmitted points) "1"]
    quality := Dict.ofList (results.map fun e => (e.1.label, e.2.status)) }

/-- The run from the loaded checkpoint up to the main flush. -/
def prepare (args : RunArgs) (source : Source) (env : Env) (hasStore : Bool)
    (checkpoint : Option Checkpoint) : Except PyErr Prepared := do
  let cutoff ← readCutoff args
  assemble args source <| streamFrom (streamEnv args env hasStore checkpoint cutoff)
    args.maxRecords source.failure source.records .new

end Prepare

/-! ## Delivery -/

section Deliver
variable {ε σ : Type}

def errorOfResult {α β : Type} : Except α β → Option α
  | .ok _ => none
  | .error e => some e

theorem ok_of_errorOfResult {α : Type} {x : Except α Unit} (h : errorOfResult x = none) :
    x = .ok () := by
  cases x with
  | ok u => rfl
  | error e => cases h

theorem eq_error_of_errorOfResult {α β : Type} {x : Except α β} {e : α}
    (h : errorOfResult x = some e) : x = .error e := by
  cases x with
  | ok b => cases h
  | error e' => exact congrArg Except.error (Option.some.inj h)

def World.send (w : World ε σ) (x : Exporter ε) (points : List MetricPoint) :
    Option PyErr × World ε σ :=
  let (result, exporter) := x.exportPoints w.exporter points
  (errorOfResult result,
    { w with exporter, effects := w.effects ++ [.exported points (errorOfResult result)] })

def World.beat (w : World ε σ) (channel : ε → List MetricPoint → Except PyErr Unit × ε)
    (points : List MetricPoint) : Option PyErr × World ε σ :=
  let (result, exporter) := channel w.exporter points
  (errorOfResult result,
    { w with exporter, effects := w.effects ++ [.heartbeat points (errorOfResult result)] })

/-- The guarded main flush, skipped after a source failure. -/
def flush (exporter : Option (Exporter ε)) (points : List MetricPoint) (stats : AggregationStats)
    (w : World ε σ) : AggregationStats × World ε σ :=
  match exporter with
  | none => (stats, w)
  | some x =>
    if stats.sourceOk then
      match w.send x points with
      | (none, w) => (stats, w)
      | (some e, w) => ({ stats with exportOk := false, exportError := some e.typeName }, w)
    else (stats, w)

/-- A guarded heartbeat, where the exporter has the channel. -/
def sendHeartbeat (exporter : Option (Exporter ε)) (points : List MetricPoint)
    (stats : AggregationStats) (w : World ε σ) : AggregationStats × World ε σ :=
  match exporter.bind Exporter.heartbeat with
  | none => (stats, w)
  | some channel =>
    match w.beat channel points with
    | (none, w) => (stats, w)
    | (some e, w) =>
      ({ stats with
          heartbeatOk := false, exportError := stats.exportError.or (some e.typeName) }, w)

def healthPoints (stats : AggregationStats) : List MetricPoint :=
  gauge "gateway.pipeline.export_success" (if stats.exportOk then 1 else 0) "1" ::
    if stats.sourceOk then [] else [gauge "gateway.pipeline.source_success" 0 "1"]

def finalHealth (elapsed : ℚ) (stats : AggregationStats) : List MetricPoint :=
  gauge "gateway.pipeline.run_duration_seconds" (max 0 elapsed) "s" ::
    if stats.checkpointConflict then [counter "gateway.pipeline.checkpoint_conflicts" 1 .empty]
    else []

/-- The guard of the commit. -/
def mayCommit (stats : AggregationStats) : Bool :=
  stats.exportOk && stats.heartbeatOk && !stats.readTruncated

/-- The seen map that a commit writes. -/
def committedSeen [Runtime] (args : RunArgs) (windowEnd : DateTime)
    (checkpoint : Option Checkpoint) (currentSeen : Dict String DateTime) :
    Except PyErr (Dict String String) := do
  let cutoff ← cutoffOf args.overlapMinutes windowEnd
  pruneSeen ((checkpoint.map Checkpoint.seen).getD .empty) currentSeen.entries cutoff

def World.save [Runtime] (w : World ε σ) (store : CheckpointStore σ) (cp : Checkpoint) :
    Option SaveError × World ε σ :=
  let (result, state) := store.save w.store cp
  (errorOfResult result,
    { w with store := state, effects := w.effects ++ [.saved cp (errorOfResult result)] })

/-- The commit: only after a clean export and heartbeat of a complete window. -/
def commit [Runtime] (store : Option (CheckpointStore σ)) (args : RunArgs)
    (checkpoint : Option Checkpoint) (currentSeen : Dict String DateTime)
    (stats : AggregationStats) (w : World ε σ) : Except PyErr AggregationStats × World ε σ :=
  match store, args.windowEnd with
  | some st, some windowEnd =>
    if mayCommit stats then
      match committedSeen args windowEnd checkpoint currentSeen with
      | .error e => (.error e, w)
      | .ok seen =>
        match w.save st ⟨some windowEnd, seen⟩ with
        | (none, w) => (.ok stats, w)
        | (some .conflict, w) => (.ok { stats with checkpointConflict := true }, w)
        | (some (.failed e), w) => (.error e, w)
    else (.ok stats, w)
  | _, _ => (.ok stats, w)

/-- The main flush and the health heartbeat. -/
def publish (exporter : Option (Exporter ε)) (p : Prepared) (w : World ε σ) :
    AggregationStats × List MetricPoint × World ε σ :=
  let (stats, w) := flush exporter p.points p.stats w
  let health := healthPoints stats
  let (stats, w) := sendHeartbeat exporter health stats w
  (stats, health, w)

/-- Commit and final heartbeat, after the points have been published. -/
def conclude [Runtime] (exporter : Option (Exporter ε)) (store : Option (CheckpointStore σ))
    (args : RunArgs) (env : Env) (checkpoint : Option Checkpoint) (p : Prepared)
    (stats : AggregationStats) (health : List MetricPoint) (w : World ε σ) :
    Except PyErr PipelineResult × World ε σ :=
  match commit store args checkpoint p.stream.state.currentSeen stats w with
  | (.error e, w) => (.error e, w)
  | (.ok stats, w) =>
    let final := finalHealth env.elapsed stats
    let (stats, w) := sendHeartbeat exporter final stats w
    (.ok ⟨p.points ++ health ++ final, stats, p.quality, p.stream.state.malformedByReason⟩, w)

def deliver [Runtime] (exporter : Option (Exporter ε)) (store : Option (CheckpointStore σ))
    (args : RunArgs) (env : Env) (checkpoint : Option Checkpoint) (p : Prepared)
    (w : World ε σ) : Except PyErr PipelineResult × World ε σ :=
  let (stats, health, w) := publish exporter p w
  conclude exporter store args env checkpoint p stats health w

def loadCheckpoint [Runtime] (store : Option (CheckpointStore σ)) (w : World ε σ) :
    Except PyErr (Option Checkpoint) × World ε σ :=
  match store with
  | none => (.ok none, w)
  | some st =>
    let (result, state) := st.load w.store
    (result, { w with store := state })

/-- `run`: the checkpoint is loaded, the records of the window are read and folded, the points and
the health metrics are exported, and the checkpoint is saved when all of that went well. -/
def run [Runtime] (exporter : Option (Exporter ε)) (store : Option (CheckpointStore σ))
    (args : RunArgs) (source : Source) (env : Env) (w : World ε σ) :
    Except PyErr PipelineResult × World ε σ :=
  match loadCheckpoint store w with
  | (.error e, w) => (.error e, w)
  | (.ok checkpoint, w) =>
    match prepare args source env store.isSome checkpoint with
    | .error e => (.error e, w)
    | .ok p => deliver exporter store args env checkpoint p w

end Deliver
end InferenceControlPlane.Sli
