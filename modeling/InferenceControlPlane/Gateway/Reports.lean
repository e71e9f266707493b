import InferenceControlPlane.Gateway.Schemas
import Mathlib.Data.List.Sort

/-!
# The read endpoints

Usage reports are about one user of the caller's tenant, dashboards about the whole
system. All four are for the role "admin".
-/
namespace InferenceControlPlane.Gateway
open Python

/-- A row of `request_logs`, in the columns that the reports and the dashboards read. -/
structure RequestLog where
  id : String
  tenantId : String
  userId : String
  modelUsed : String
  latencyMs : ℚ
  tokens : ℤ
  cost : ℚ
  cacheHit : Bool
  status : String
  errorMessage : Option String
  createdAt : DateTime

/-- A database session on the table of request logs. `failure` is what its statements raise, if
they do. -/
structure Session where
  table : List RequestLog
  failure : Option PyErr

def Session.execute {α : Type} (session : Session) (select : List RequestLog → α) :
    Except PyErr α :=
  match session.failure with
  | none => .ok (select session.table)
  | some e => .error e

/-- `ORDER BY created_at DESC`: the latest row first. -/
def newestFirst (rows : List RequestLog) : List RequestLog :=
  rows.mergeSort fun a b => b.createdAt.instant ≤ a.createdAt.instant

/-! ## Usage -/

/-- The parameter `user_id`. -/
structure UserQuery where
  userId : String
  userId_length : 1 ≤ userId.length ∧ userId.length ≤ 128

/-- The parameter `limit`. -/
structure Limit where
  value : ℕ
  bounds : 1 ≤ value ∧ value ≤ 100

structure UsageSummaryResponse where
  userId : String
  requests : ℕ
  totalTokens : ℤ
  totalCost : ℚ
  deriving DecidableEq

structure UsageLogEntry where
  requestId : String
  modelUsed : String
  latencyMs : ℚ
  tokens : ℤ
  cost : ℚ
  cacheHit : Bool
  status : String
  createdAt : DateTime
  errorMessage : Option String

structure UsageLogsResponse where
  userId : String
  limit : ℕ
  entries : List UsageLogEntry

/-- `get_usage_summary`: the rows of one tenant's user counted, with their tokens and costs added
up by the database; zeros when the select fails. -/
def getUsageSummary (session : Session) (tenantId : String) (query : UserQuery) :
    UsageSummaryResponse :=
  let totals := session.execute fun table =>
    let rows := (table.filter (·.tenantId = tenantId)).filter (·.userId = query.userId)
    (rows.length, (rows.map RequestLog.tokens).sum, (rows.map RequestLog.cost).sum)
  match totals with
  | .ok (requests, totalTokens, totalCost) => ⟨query.userId, requests, totalTokens, totalCost⟩
  | .error _ => ⟨query.userId, 0, 0, 0⟩

def RequestLog.entry (row : RequestLog) : UsageLogEntry :=
  ⟨row.id, row.modelUsed, row.latencyMs, row.tokens, row.cost, row.cacheHit, row.status,
    row.createdAt, row.errorMessage⟩

/-- `get_usage_logs`: the newest rows of one tenant's user, up to the limit of the query; none
when the select fails. -/
def getUsageLogs (session : Session) (tenantId : String) (query : UserQuery) (limit : Limit) :
    UsageLogsResponse :=
  let rows := session.execute fun table =>
    (newestFirst ((table.filter (·.tenantId = tenantId)).filter (·.userId = query.userId))).take
      limit.value
  ⟨query.userId, limit.value, (rows.toOption.getD []).map RequestLog.entry⟩

/-! ## Dashboards -/

structure DashboardMetric where
  label : String
  value : String
  delta : String
  deriving DecidableEq

/-- `f"{q:.<digits>f}"`. -/
def formatFixed (digits : ℕ) (q : ℚ) : String :=
  let scaled := (roundHalfEven (|q| * 10 ^ digits)).toNat
  let whole := toString (scaled / 10 ^ digits)
  (if q < 0 then "-" else "") ++ whole ++ "." ++
    String.ofList (digitsOf digits (scaled % 10 ^ digits))

/-- The metrics of a dashboard with these figures, of which the last is the average that the
database has computed. The ratios are computed in floats, so that they are rounded twice before
they are formatted: 23 hits of 80 requests are 28.7%. -/
def renderMetrics (reqCount : ℕ) (totalCost : ℚ) (hitCount : ℕ) (avgLat : ℚ) :
    List DashboardMetric :=
  let costPer1k := if 0 < reqCount then
    nearestDouble (nearestDouble (nearestDouble totalCost / nearestDouble reqCount) * 1000) else 0
  let cacheHitRatio := if 0 < reqCount then
    nearestDouble (nearestDouble ((hitCount : ℚ) / reqCount) * 100) else 0
  [⟨"Avg Latency", formatFixed 1 avgLat ++ "ms", "0%"⟩,
    ⟨"Cache Hit Ratio", formatFixed 1 cacheHitRatio ++ "%", "0%"⟩,
    ⟨"Requests (24h)", toString reqCount, "0%"⟩,
    ⟨"Cost / 1K req", "$" ++ formatFixed 4 costPer1k, "0%"⟩]

example : (renderMetrics 80 0 23 0).map DashboardMetric.value =
    ["0.0ms", "28.7%", "80", "$0.0000"] := by decide +kernel

/-- `get_dashboard_metrics`, at the time of its clock. The average of the latencies is the exact
one as a float; a database may sum them up with other roundings. -/
def getDashboardMetrics (session : Session) (now : DateTime) :
    Except PyErr (List DashboardMetric) := do
  let yesterday ← now.sub dayMicros
  let recent (table : List RequestLog) :=
    table.filter fun row => yesterday.instant ≤ row.createdAt.instant
  let reqCount ← session.execute fun table => (recent table).length
  let totalCost ← session.execute fun table => ((recent table).map RequestLog.cost).sum
  let hitCount ← session.execute fun table => ((recent table).filter RequestLog.cacheHit).length
  let avgLat ← session.execute fun table =>
    let rows := recent table
    if rows = [] then 0 else nearestDouble ((rows.map RequestLog.latencyMs).sum / rows.length)
  return renderMetrics reqCount totalCost hitCount avgLat

/-- `get_dashboard_activity`: the five newest rows of the whole table that are no successes, as
lines of a feed, or one line that says that all is well. -/
def getDashboardActivity (session : Session) : Except PyErr (List String) := do
  let recentErrors ← session.execute fun table =>
    (newestFirst (table.filter (·.status ≠ "success"))).take 5
  let activity := recentErrors.map fun row =>
    "Error on " ++ row.modelUsed ++ ": " ++ row.errorMessage.getD "None"
  return if activity = [] then ["System operating normally."] else activity

/-! ## Endpoints -/

/-- What an endpoint raises: a response of its own, or an error that escapes it. -/
inductive EndpointError where
  | http (e : HttpException)
  | escaped (e : PyErr)
  deriving DecidableEq

/-- The guard of the four endpoints: a caller without the role of an administrator is answered
with a 403. -/
def requireAdmin {α : Type} (auth : AuthContext) (report : String)
    (body : Except EndpointError α) : Except EndpointError α :=
  if auth.role = "admin" then body
  else .error (.http ⟨403, "Admin privileges required to view " ++ report ++ ".", none⟩)

def usageSummary (auth : AuthContext) (query : UserQuery) (session : Session) :
    Except EndpointError UsageSummaryResponse :=
  requireAdmin auth "usage summary" (.ok (getUsageSummary session auth.tenantId query))

def usageLogs (auth : AuthContext) (query : UserQuery) (limit : Limit) (session : Session) :
    Except EndpointError UsageLogsResponse :=
  requireAdmin auth "usage logs" (.ok (getUsageLogs session auth.tenantId query limit))

def dashboardMetrics (auth : AuthContext) (now : DateTime) (session : Session) :
    Except EndpointError (List DashboardMetric) :=
  requireAdmin auth "dashboard metrics" ((getDashboardMetrics session now).mapError .escaped)

def dashboardActivity (auth : AuthContext) (session : Session) :
    Except EndpointError (List String) :=
  requireAdmin auth "dashboard activity" ((getDashboardActivity session).mapError .escaped)

/-! ## Isolation -/

/-- Two sessions that fail alike and hold the same rows of one tenant, whatever they hold of the
others. A report that answers alike on both tells nothing of other tenants. -/
structure SameFor (tenantId : String) (s s' : Session) : Prop where
  rows : s.table.filter (·.tenantId = tenantId) = s'.table.filter (·.tenantId = tenantId)
  failure : s.failure = s'.failure

/-- A select that reads one tenant's rows. -/
theorem SameFor.execute {α : Type} {tenantId : String} {s s' : Session}
    (h : SameFor tenantId s s') (select : List RequestLog → α) :
    s.execute (fun table => select (table.filter (·.tenantId = tenantId))) =
      s'.execute fun table => select (table.filter (·.tenantId = tenantId)) := by
  rw [Session.execute, Session.execute, h.failure, h.rows]

theorem getUsageSummary_eq {tenantId : String} {s s' : Session} (h : SameFor tenantId s s')
    (query : UserQuery) : getUsageSummary s tenantId query = getUsageSummary s' tenantId query := by
  have htotals := h.execute fun rows =>
    let rows := rows.filter (·.userId = query.userId)
    (rows.length, (rows.map RequestLog.tokens).sum, (rows.map RequestLog.cost).sum)
  unfold getUsageSummary
  rw [htotals]

theorem getUsageLogs_eq {tenantId : String} {s s' : Session} (h : SameFor tenantId s s')
    (query : UserQuery) (limit : Limit) :
    getUsageLogs s tenantId query limit = getUsageLogs s' tenantId query limit := by
  have hrows := h.execute fun rows =>
    (newestFirst (rows.filter (·.userId = query.userId))).take limit.value
  unfold getUsageLogs
  rw [hrows]

/-- The usage reports of a caller depend on the rows of the caller's tenant only; a caller
without the role "admin" learns nothing from the dashboards either. -/
theorem reads_isolated (auth : AuthContext) (s s' : Session) (h : SameFor auth.tenantId s s')
    (query : UserQuery) (limit : Limit) (now : DateTime) :
    usageSummary auth query s = usageSummary auth query s' ∧
      usageLogs auth query limit s = usageLogs auth query limit s' ∧
      (auth.role ≠ "admin" → dashboardMetrics auth now s = dashboardMetrics auth now s' ∧
        dashboardActivity auth s = dashboardActivity auth s') := by
  refine ⟨?_, ?_, fun hrole => ?_⟩
  · rw [usageSummary, usageSummary, getUsageSummary_eq h]
  · rw [usageLogs, usageLogs, getUsageLogs_eq h]
  · simp only [dashboardMetrics, dashboardActivity, requireAdmin, if_neg hrole, and_self]

/-- The caller behind the built-in key "public-demo-key". -/
def publicGuest [Digests] : AuthContext :=
  ⟨"public-guest", Digests.sha256 "public-demo-key", 20, "admin"⟩

def demoKeyDigest : List (String × String) :=
  [("public-demo-key", "51ecccd508429886768dcfdbe0e5cfcccbd719ed3a695d02347ad510505516ca")]

lemma dayMicros_lt_maxWall : dayMicros < maxWall := by decide +kernel

/-- A failed request of another tenant. -/
def foreignFailure : RequestLog where
  id := "r1"
  tenantId := "acme"
  userId := "u"
  modelUsed := "default:cheap"
  latencyMs := 12
  tokens := 0
  cost := 0
  cacheHit := false
  status := "error"
  errorMessage := some "User rate limit exceeded."
  createdAt :=
    ⟨dayMicros, 0, dayMicros_pos.le, dayMicros_lt_maxWall, neg_dayMicros_lt_zero, dayMicros_pos⟩

/-- The built-in demo key is an administrator's. Its dashboards show the errors and the volumes of
every tenant, whatever tenant it belongs to. -/
theorem dashboards_cross_tenants :
    letI := Digests.listed demoKeyDigest
    let quiet : Session := ⟨[], none⟩
    let noisy : Session := ⟨[foreignFailure], none⟩
    SameFor publicGuest.tenantId quiet noisy ∧
      dashboardActivity publicGuest quiet ≠ dashboardActivity publicGuest noisy ∧
      dashboardMetrics publicGuest foreignFailure.createdAt quiet ≠
        dashboardMetrics publicGuest foreignFailure.createdAt noisy := by
  refine ⟨⟨rfl, rfl⟩, ?_, by decide +kernel⟩
  decide +kernel

theorem reads_isolated_sample :
    let noisy : Session := ⟨[foreignFailure], none⟩
    let caller : AuthContext := ⟨"globex", "key", 120, "user"⟩
    dashboardActivity caller ⟨[], none⟩ = dashboardActivity caller noisy ∧
      usageSummary { caller with role := "admin" } ⟨"u", by decide⟩ ⟨[], none⟩ =
        usageSummary { caller with role := "admin" } ⟨"u", by decide⟩ noisy := by
  intro noisy caller
  have hsame : SameFor "globex" ⟨[], none⟩ noisy := ⟨rfl, rfl⟩
  have huser := reads_isolated caller _ _ hsame ⟨"u", by decide⟩ ⟨10, by omega⟩
    foreignFailure.createdAt
  have hadmin := reads_isolated { caller with role := "admin" } _ _ hsame ⟨"u", by decide⟩
    ⟨10, by omega⟩ foreignFailure.createdAt
  exact ⟨(huser.2.2 (by decide)).2, hadmin.1⟩

end InferenceControlPlane.Gateway
