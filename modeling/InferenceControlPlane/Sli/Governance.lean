import Mathlib.Tactic.Common

/-!
# Metric governance contract

Every dimension has a closed vocabulary and every metric a fixed type, unit and
dimension set. The registries below are the contract the exporters check points
against; the allowlists of the configuration are derived from them.
-/
namespace InferenceControlPlane.Sli

/-! ## Fold tokens and vocabularies -/

def other : String := "other"
def unknown : String := "unknown"
def unattributed : String := "unattributed"

def modelFamilies : List String :=
  ["claude-sonnet", "claude-haiku", "claude-opus", "gpt-5", "gpt-5-mini", "gpt-4o"]

def errorCategories : List String :=
  ["throttling", "timeout", "provider_error", "auth", "invalid_request", "content_filter"]

def envs : List String := ["prod", "staging", "dev"]
def providerRegions : List String := ["bedrock_eu", "bedrock_us", "external_zdr"]
def outcomes : List String := ["success", "error"]

/-- A governed dimension: its name and the values it may take. Every value that is not among them
is folded into one that is. -/
structure Dimension where
  name : String
  vocabulary : List String

def workloadDimensions : List Dimension :=
  [⟨"team", ["AdvisorChat", "KYC", "DevAgent", "DigestBot", "Research", "Marketing", other,
    unattributed]⟩,
   ⟨"route", ["advisorchat-turn", "digestbot-summary", "devagent-task", other]⟩,
   ⟨"model_family", modelFamilies ++ [other]⟩,
   ⟨"env", envs ++ [other]⟩,
   ⟨"outcome", outcomes⟩,
   ⟨"error_category", errorCategories ++ [unknown]⟩,
   ⟨"provider_region", providerRegions ++ [other]⟩]

def pipelineDimensions : List Dimension :=
  [⟨"dimension", ["team", "route", "model_family", "env", "provider_region"]⟩]

def registry : List Dimension := workloadDimensions ++ pipelineDimensions

/-- The registered vocabulary of a dimension. -/
def vocabularyOf (name : String) : Option (List String) :=
  (registry.find? (·.name == name)).map Dimension.vocabulary

/-- `REGISTRY["team"].vocabulary - {OTHER, UNATTRIBUTED}`. -/
def registeredTeams : List String :=
  ["AdvisorChat", "KYC", "DevAgent", "DigestBot", "Research", "Marketing"]

/-- `REGISTRY["route"].vocabulary - {OTHER}`. -/
def registeredRoutes : List String := ["advisorchat-turn", "digestbot-summary", "devagent-task"]

theorem registeredTeams_eq :
    vocabularyOf "team" = some (registeredTeams ++ [other, unattributed]) := by decide

theorem registeredRoutes_eq : vocabularyOf "route" = some (registeredRoutes ++ [other]) := by
  decide

/-! ## Metrics -/

inductive MetricType where
  | histogram
  | counter
  | gauge
  deriving DecidableEq, Repr

def MetricType.text : MetricType → String
  | .histogram => "histogram"
  | .counter => "counter"
  | .gauge => "gauge"

structure MetricDefinition where
  type : MetricType
  unit : String
  allowedDimensions : List String

def primaryDimensions : List String := ["team", "route", "model_family", "env"]
def costDimensions : List String := ["team", "route", "model_family", "provider_region"]
def qualityDimensions : List String := ["route", "model_family"]

def metricRegistry : List (String × MetricDefinition) :=
  [("gateway.request.duration", ⟨.histogram, "ms", primaryDimensions⟩),
   ("gateway.request.ttft", ⟨.histogram, "ms", primaryDimensions⟩),
   ("gateway.request.count", ⟨.counter, "1", primaryDimensions ++ ["outcome"]⟩),
   ("gateway.request.errors", ⟨.counter, "1", primaryDimensions ++ ["error_category"]⟩),
   ("gateway.cost.usd", ⟨.counter, "USD", costDimensions⟩),
   ("gateway.cost.request_count", ⟨.counter, "1", costDimensions⟩),
   ("gateway.cost.records_missing", ⟨.counter, "1", costDimensions⟩),
   ("gateway.cost.records_invalid", ⟨.counter, "1", costDimensions⟩),
   ("gateway.tokens.input", ⟨.counter, "1", costDimensions⟩),
   ("gateway.tokens.output", ⟨.counter, "1", costDimensions⟩),
   ("gateway.tokens.completion_ratio", ⟨.gauge, "ratio", costDimensions⟩),
   ("gateway.cache.read_tokens", ⟨.counter, "1", costDimensions⟩),
   ("gateway.cache.hit_count", ⟨.counter, "1", costDimensions⟩),
   ("gateway.quality.completion_length_anomalies", ⟨.counter, "1", qualityDimensions⟩),
   ("gateway.quality.completion_length_max_zscore", ⟨.gauge, "score", qualityDimensions⟩),
   ("gateway.quality.empty_completion_count", ⟨.counter, "1", qualityDimensions⟩),
   ("gateway.pipeline.unknown_dimension", ⟨.counter, "1", ["dimension"]⟩),
   ("gateway.pipeline.malformed_records", ⟨.counter, "1", []⟩),
   ("gateway.pipeline.duplicate_records", ⟨.counter, "1", []⟩),
   ("gateway.pipeline.records_read", ⟨.counter, "1", []⟩),
   ("gateway.pipeline.records_processed", ⟨.counter, "1", []⟩),
   ("gateway.pipeline.cross_run_duplicate_records", ⟨.counter, "1", []⟩),
   ("gateway.pipeline.quarantined_records", ⟨.counter, "1", []⟩),
   ("gateway.pipeline.read_truncated", ⟨.gauge, "1", []⟩),
   ("gateway.pipeline.records_missing_cost", ⟨.counter, "1", []⟩),
   ("gateway.pipeline.records_invalid_cost", ⟨.counter, "1", []⟩),
   ("gateway.pipeline.freshness_seconds", ⟨.gauge, "s", []⟩),
   ("gateway.pipeline.clock_skew_seconds", ⟨.gauge, "s", []⟩),
   ("gateway.pipeline.series_emitted", ⟨.gauge, "1", []⟩),
   ("gateway.pipeline.run_duration_seconds", ⟨.gauge, "s", []⟩),
   ("gateway.pipeline.source_requests", ⟨.counter, "1", []⟩),
   ("gateway.pipeline.source_retries", ⟨.counter, "1", []⟩),
   ("gateway.pipeline.source_pages", ⟨.counter, "1", []⟩),
   ("gateway.pipeline.source_latency_seconds", ⟨.gauge, "s", []⟩),
   ("gateway.pipeline.export_success", ⟨.gauge, "1", []⟩),
   ("gateway.pipeline.source_success", ⟨.gauge, "1", []⟩),
   ("gateway.pipeline.checkpoint_conflicts", ⟨.counter, "1", []⟩)]

def allowedAttributeKeys : List String := registry.map Dimension.name

end InferenceControlPlane.Sli
