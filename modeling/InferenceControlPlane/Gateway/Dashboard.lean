import InferenceControlPlane.Gateway.Reports
import InferenceControlPlane.Moments

/-!
# The dashboard, select by select

The four figures of the dashboard come from four selects, one after the other, while other
requests insert rows. Each figure is thus of a table of its own, and the tables only grow from
one to the next. How the database averages latencies is left open: `average` is any function.
-/
namespace InferenceControlPlane.Gateway
open Python Program

/-- The four aggregates that a dashboard selects, one after the other, with rows inserted between
them by other requests. -/
inductive Aggregate where
  | requests
  | cost
  | hits
  | latency

@[reducible] def Aggregate.Value : Aggregate → Type
  | requests => ℕ
  | cost => ℚ
  | hits => ℕ
  | latency => ℚ

/-- `WHERE created_at >= since`. -/
def rowsSince (since : DateTime) (table : List RequestLog) : List RequestLog :=
  table.filter fun row => since.instant ≤ row.createdAt.instant

/-- What a select gives over a table. Costs are decimals, which are summed exactly; `average`
is what the database makes of floats. -/
def Aggregate.of (average : List ℚ → ℚ) (since : DateTime) (table : List RequestLog) :
    (aggregate : Aggregate) → aggregate.Value
  | requests => (rowsSince since table).length
  | cost => ((rowsSince since table).map RequestLog.cost).sum
  | hits => ((rowsSince since table).filter RequestLog.cacheHit).length
  | latency =>
    let rows := rowsSince since table
    if rows = [] then 0 else average (rows.map RequestLog.latencyMs)

inductive DashboardOp where
  | now
  | select (aggregate : Aggregate) (since : DateTime)

@[reducible] def DashboardOp.Reply : DashboardOp → Type
  | now => DateTime
  | select aggregate _ => Except PyErr aggregate.Value

/-- Between two selects, other requests insert rows; no row is changed or deleted. -/
def Inserts (table table' : List RequestLog) : Prop := table <+: table'

/-! ## The selects of a dashboard -/

variable {average : List ℚ → ℚ}

section Run
variable {ι : Type} [DecidableEq ι]
  {init pool : Pool ι DashboardOp DashboardOp.Reply (Except PyErr (List DashboardMetric))
    (List RequestLog)}
  {acts : List (Act ι DashboardOp DashboardOp.Reply)}

end Run

/-- The average of a list. -/
def mean (xs : List ℚ) : ℚ := xs.sum / xs.length

end InferenceControlPlane.Gateway
