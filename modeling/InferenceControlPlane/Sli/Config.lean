import InferenceControlPlane.Sli.Governance
import InferenceControlPlane.Python.Values

/-!
# Configuration

The validity checks of `__post_init__` are fields, so a configuration that would
be rejected at construction cannot be built.
-/
namespace InferenceControlPlane.Sli
open Python

inductive BaselineGrouping where
  | route
  | routeModel
  deriving DecidableEq, Repr

/-- Completion-length anomaly detection. -/
structure AnomalyConfig where
  minSample : ℕ
  threshold : PyFloat
  baselineGrouping : BaselineGrouping
  minSample_pos : 1 ≤ minSample
  threshold_pos : threshold.le (.finite 0) = false

structure Config where
  latencyBucketsMs : List PyFloat
  anomaly : AnomalyConfig
  includeProviderRegion : Bool
  knownTeams : List String
  knownRoutes : List String
  buckets_nonempty : latencyBucketsMs ≠ []
  buckets_pos : ∀ b ∈ latencyBucketsMs, b.le (.finite 0) = false
  buckets_sorted : latencyBucketsMs.IsChain fun a b => b.lt a = false
  buckets_distinct : latencyBucketsMs.Pairwise fun a b => a.eq b = false
  teams_nonempty : knownTeams ≠ []
  teams_registered : knownTeams ⊆ registeredTeams
  routes_registered : knownRoutes ⊆ registeredRoutes

def defaultLatencyBucketsMs : List PyFloat :=
  [50, 100, 200, 300, 500, 750, 1000, 1500, 2000, 3000, 5000, 10000, 30000].map PyFloat.finite

/-- `AnomalyConfig()`. -/
def AnomalyConfig.default : AnomalyConfig where
  minSample := 30
  threshold := .finite (7 / 2)
  baselineGrouping := .route
  minSample_pos := by decide
  threshold_pos := by decide +kernel

/-- `Config()`. -/
def Config.default : Config where
  latencyBucketsMs := defaultLatencyBucketsMs
  anomaly := .default
  includeProviderRegion := true
  knownTeams := registeredTeams
  knownRoutes := registeredRoutes
  buckets_nonempty := by decide
  buckets_pos := by decide +kernel
  buckets_sorted := by decide +kernel
  buckets_distinct := by decide +kernel
  teams_nonempty := by decide
  teams_registered := List.Subset.refl _
  routes_registered := List.Subset.refl _

end InferenceControlPlane.Sli
