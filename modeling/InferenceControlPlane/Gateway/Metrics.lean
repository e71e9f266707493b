import InferenceControlPlane.Gateway.Pricing
import InferenceControlPlane.Interleaving
import InferenceControlPlane.Python.Dict
import Mathlib.Data.List.Basic
import Mathlib.Tactic.Linarith

/-!
# The exported metrics

Requests that interleave update one set of counters. The counters are kept apart, yet they
agree: up to the requests in flight, every request is a rejection, a hit or a miss, and
every completion of a miss is one use of a model. The amounts agree exactly, once what the
requests in flight have recorded so far is added to what the others returned.
-/
namespace InferenceControlPlane.Gateway
open Python Program

/-! ## The instruments -/

/-- The buckets of `LATENCY_HISTOGRAM`. -/
def latencyBuckets : List ℚ := [5, 10, 25, 50, 100, 200, 500, 1000, 2500, 5000, 10000]

/-- A child of `LATENCY_HISTOGRAM`: the sum and the counts of its buckets, of which the last one
is above all bounds. -/
structure LatencyHistogram where
  sum : ℚ
  buckets : List ℕ

namespace LatencyHistogram

def empty : LatencyHistogram := ⟨0, List.replicate (latencyBuckets.length + 1) 0⟩

/-- `observe`: the first bound that is not below the amount gets it. -/
def observe (histogram : LatencyHistogram) (amount : ℚ) : LatencyHistogram :=
  ⟨histogram.sum + amount,
    histogram.buckets.modify (latencyBuckets.findIdx fun bound => amount ≤ bound) (· + 1)⟩

def count (histogram : LatencyHistogram) : ℕ := histogram.buckets.sum

end LatencyHistogram

/-- The globals of `metrics.py`; a labelled metric holds one value for each label set. -/
structure Metrics where
  requestCount : Dict (String × Status × Bool) ℕ
  latencyHistogramMs : Dict (String × Status) LatencyHistogram
  cacheHitsTotal : ℕ
  cacheMissesTotal : ℕ
  cacheHitRatio : ℚ
  modelUsageCount : Dict String ℕ
  rateLimitRejectionsTotal : Dict RateScope ℕ
  modelCostUsdTotal : Dict String PyFloat
  cacheHits : ℕ
  cacheMisses : ℕ

namespace Metrics

/-- The metrics of a process that starts: no label has been used, and every sum is zero. -/
def fresh : Metrics := ⟨.empty, .empty, 0, 0, 0, .empty, .empty, .empty, 0, 0⟩

/-- `record_cache_result`: one lookup more, as a hit or as a miss, and the ratio that follows from
the two counts. -/
def recordCacheResult (metrics : Metrics) (hit : Bool) : Metrics :=
  let counted := if hit then
      { metrics with
        cacheHits := metrics.cacheHits + 1
        cacheHitsTotal := metrics.cacheHitsTotal + 1 }
    else
      { metrics with
        cacheMisses := metrics.cacheMisses + 1
        cacheMissesTotal := metrics.cacheMissesTotal + 1 }
  let total := counted.cacheHits + counted.cacheMisses
  { counted with
    cacheHitRatio := if 0 < total then (counted.cacheHits : ℚ) / (total : ℚ) else 0 }

/-- `record_request`: one request more under its model, its status and whether it was a hit, and
its latency in the histogram of model and status. -/
def recordRequest (metrics : Metrics) (model : String) (status : Status) (latencyMs : ℚ)
    (cacheHit : Bool) : Metrics :=
  { metrics with
    requestCount := metrics.requestCount.modify (model, status, cacheHit) 0 (· + 1)
    latencyHistogramMs := metrics.latencyHistogramMs.modify (model, status) .empty
      (·.observe (max latencyMs 0)) }

/-- `record_model_usage`: one use more of the model, which is recorded for completions only. -/
def recordModelUsage (metrics : Metrics) (model : String) : Metrics :=
  { metrics with modelUsageCount := metrics.modelUsageCount.modify model 0 (· + 1) }

/-- `record_rate_limit_rejection`: one rejection more under the scope whose limit denied the
request. -/
def recordRateLimitRejection (metrics : Metrics) (scope : RateScope) : Metrics :=
  { metrics with
    rateLimitRejectionsTotal := metrics.rateLimitRejectionsTotal.modify scope 0 (· + 1) }

/-- `record_cost`: the spend on a model grows by the amount, or by zero when the amount is
negative. -/
def recordCost (metrics : Metrics) (model : String) (costUsd : PyFloat) : Metrics :=
  { metrics with
    modelCostUsdTotal := metrics.modelCostUsdTotal.modify model 0 (· + costUsd.max (.finite 0)) }

def record (metrics : Metrics) : Metric → Metrics
  | .cacheResult hit => metrics.recordCacheResult hit
  | .request model status latencyMs cacheHit =>
    metrics.recordRequest model status latencyMs cacheHit
  | .modelUsage model => metrics.recordModelUsage model
  | .rateLimitRejection scope => metrics.recordRateLimitRejection scope
  | .cost model usd => metrics.recordCost model usd

/-! ### What the instruments say -/

/-- The requests with labels in `p`. -/
def requests (metrics : Metrics) (p : String × Status × Bool → Bool) : ℕ :=
  metrics.requestCount.weightWhere p id

/-- The uses of the models in `p`. -/
def usage (metrics : Metrics) (p : String → Bool) : ℕ := metrics.modelUsageCount.weightWhere p id

/-- The rejections in the scopes in `p`. -/
def rejections (metrics : Metrics) (p : RateScope → Bool) : ℕ :=
  metrics.rateLimitRejectionsTotal.weightWhere p id

/-- The spend on the models in `p`. -/
def spend (metrics : Metrics) (p : String → Bool) : PyFloat :=
  metrics.modelCostUsdTotal.weightWhere p id

/-- The latencies of the requests with labels in `p`, added up. -/
def latency (metrics : Metrics) (p : String × Status → Bool) : ℚ :=
  metrics.latencyHistogramMs.weightWhere p LatencyHistogram.sum

/-- Instruments that are kept apart and must show the same: the two ways in which hits and misses
are counted, the ratio gauge, and the observations of the latency histogram. -/
structure Sound (metrics : Metrics) : Prop where
  hits : metrics.cacheHitsTotal = metrics.cacheHits
  misses : metrics.cacheMissesTotal = metrics.cacheMisses
  ratio : metrics.cacheHitRatio = if 0 < metrics.cacheHits + metrics.cacheMisses then
    (metrics.cacheHits : ℚ) / ((metrics.cacheHits + metrics.cacheMisses : ℕ) : ℚ) else 0
  buckets : ∀ labels, (metrics.latencyHistogramMs.getD labels .empty).buckets.length =
    latencyBuckets.length + 1
  observed : ∀ model status, (metrics.latencyHistogramMs.getD (model, status) .empty).count =
    metrics.requestCount.getD (model, status, true) 0 +
      metrics.requestCount.getD (model, status, false) 0

end Metrics

lemma sum_modify_succ {xs : List ℕ} {i : ℕ} (h : i < xs.length) :
    (xs.modify i (· + 1)).sum = xs.sum + 1 := by
  induction xs generalizing i with
  | nil => exact absurd h (Nat.not_lt_zero i)
  | cons x xs ih =>
    cases i with
    | zero =>
      rw [List.modify_zero_cons, List.sum_cons, List.sum_cons]
      omega
    | succ i =>
      rw [List.modify_succ_cons, List.sum_cons, List.sum_cons, ih (Nat.lt_of_succ_lt_succ h)]
      omega

namespace LatencyHistogram

lemma length_observe (histogram : LatencyHistogram) (amount : ℚ) :
    (histogram.observe amount).buckets.length = histogram.buckets.length :=
  List.length_modify ..

/-- Every amount has a bucket. -/
lemma count_observe {histogram : LatencyHistogram} (amount : ℚ)
    (h : histogram.buckets.length = latencyBuckets.length + 1) :
    (histogram.observe amount).count = histogram.count + 1 := by
  apply sum_modify_succ
  have hindex : (latencyBuckets.findIdx fun bound => amount ≤ bound) ≤ latencyBuckets.length :=
    List.findIdx_le_length
  omega

end LatencyHistogram

namespace Metrics

/-! ## One record -/

theorem sound_fresh : fresh.Sound := by
  constructor
  · rfl
  · rfl
  · rfl
  · intro labels
    rfl
  · intro model status
    rfl

lemma Sound.recordCacheResult {metrics : Metrics} (h : metrics.Sound) (hit : Bool) :
    (metrics.recordCacheResult hit).Sound := by
  cases hit with
  | true => exact ⟨congrArg (· + 1) h.hits, h.misses, rfl, h.buckets, h.observed⟩
  | false => exact ⟨h.hits, congrArg (· + 1) h.misses, rfl, h.buckets, h.observed⟩

lemma Sound.recordRequest {metrics : Metrics} (h : metrics.Sound) (model : String)
    (status : Status) (latencyMs : ℚ) (cacheHit : Bool) :
    (metrics.recordRequest model status latencyMs cacheHit).Sound := by
  refine ⟨h.hits, h.misses, h.ratio, fun labels => ?_, fun model' status' => ?_⟩
  · show (Dict.getD (metrics.latencyHistogramMs.modify _ _ _) labels .empty).buckets.length = _
    rw [Dict.getD_modify]
    split_ifs with hlabels
    · rw [LatencyHistogram.length_observe]
      exact h.buckets _
    · exact h.buckets labels
  · show (Dict.getD (metrics.latencyHistogramMs.modify _ _ _) _ .empty).count =
      Dict.getD (metrics.requestCount.modify _ _ _) _ 0 +
        Dict.getD (metrics.requestCount.modify _ _ _) _ 0
    rw [Dict.getD_modify, Dict.getD_modify, Dict.getD_modify]
    have hobserved := h.observed model' status'
    by_cases hlabels : (model, status) = (model', status')
    · obtain ⟨rfl, rfl⟩ := Prod.mk.inj hlabels
      rw [if_pos rfl, LatencyHistogram.count_observe _ (h.buckets _), hobserved]
      cases cacheHit with
      | true =>
        rw [if_pos rfl, if_neg (by simp)]
        omega
      | false =>
        rw [if_neg (by simp), if_pos rfl]
        omega
    · have hother : ∀ hit : Bool, (model, status, cacheHit) ≠ (model', status', hit) := by
        intro hit heq
        obtain ⟨rfl, hrest⟩ := Prod.mk.inj heq
        obtain ⟨rfl, -⟩ := Prod.mk.inj hrest
        exact hlabels rfl
      rw [if_neg hlabels, if_neg (hother true), if_neg (hother false)]
      exact hobserved

/-- Every record keeps the instruments in agreement. -/
theorem Sound.record {metrics : Metrics} (h : metrics.Sound) (metric : Metric) :
    (metrics.record metric).Sound := by
  cases metric with
  | cacheResult hit => exact h.recordCacheResult hit
  | request model status latencyMs cacheHit =>
    exact h.recordRequest model status latencyMs cacheHit
  | modelUsage model => exact ⟨h.hits, h.misses, h.ratio, h.buckets, h.observed⟩
  | rateLimitRejection scope => exact ⟨h.hits, h.misses, h.ratio, h.buckets, h.observed⟩
  | cost model usd => exact ⟨h.hits, h.misses, h.ratio, h.buckets, h.observed⟩

end Metrics

/-! ### What a record adds -/

namespace Metric

/-- A request with labels in `p`. -/
def isRequest (p : String × Status × Bool → Bool) : Metric → ℕ
  | request model status _ cacheHit => if p (model, status, cacheHit) then 1 else 0
  | _ => 0

/-- A use of a model in `p`. -/
def isUsage (p : String → Bool) : Metric → ℕ
  | modelUsage model => if p model then 1 else 0
  | _ => 0

/-- A rejection in a scope in `p`. -/
def isRejection (p : RateScope → Bool) : Metric → ℕ
  | rateLimitRejection scope => if p scope then 1 else 0
  | _ => 0

/-- The cost of a model in `p`. -/
def spend (p : String → Bool) : Metric → PyFloat
  | cost model usd => if p model then usd.max (.finite 0) else 0
  | _ => 0

/-- The latency of a request with labels in `p`. -/
def latency (p : String × Status → Bool) : Metric → ℚ
  | request model status latencyMs _ => if p (model, status) then max latencyMs 0 else 0
  | _ => 0

/-- A lookup with the given result. -/
def isLookup (found : Bool) : Metric → ℕ
  | cacheResult hit => if hit = found then 1 else 0
  | _ => 0

end Metric

namespace Metrics

lemma requests_record (p : String × Status × Bool → Bool) (metrics : Metrics) (metric : Metric) :
    (metrics.record metric).requests p = metrics.requests p + metric.isRequest p := by
  cases metric with
  | request model status latencyMs cacheHit => exact Dict.weightWhere_count p _ _
  | cacheResult hit => cases hit <;> rfl
  | modelUsage model => rfl
  | rateLimitRejection scope => rfl
  | cost model usd => rfl

lemma usage_record (p : String → Bool) (metrics : Metrics) (metric : Metric) :
    (metrics.record metric).usage p = metrics.usage p + metric.isUsage p := by
  cases metric with
  | modelUsage model => exact Dict.weightWhere_count p _ _
  | cacheResult hit => cases hit <;> rfl
  | request model status latencyMs cacheHit => rfl
  | rateLimitRejection scope => rfl
  | cost model usd => rfl

lemma rejections_record (p : RateScope → Bool) (metrics : Metrics) (metric : Metric) :
    (metrics.record metric).rejections p = metrics.rejections p + metric.isRejection p := by
  cases metric with
  | rateLimitRejection scope => exact Dict.weightWhere_count p _ _
  | cacheResult hit => cases hit <;> rfl
  | request model status latencyMs cacheHit => rfl
  | modelUsage model => rfl
  | cost model usd => rfl

lemma spend_record (p : String → Bool) (metrics : Metrics) (metric : Metric) :
    (metrics.record metric).spend p = metrics.spend p + metric.spend p := by
  cases metric with
  | cost model usd =>
    apply Dict.weightWhere_modify
    · exact fun _ => rfl
    · rfl
  | cacheResult hit => cases hit <;> exact (add_zero _).symm
  | request model status latencyMs cacheHit => exact (add_zero _).symm
  | modelUsage model => exact (add_zero _).symm
  | rateLimitRejection scope => exact (add_zero _).symm

lemma latency_record (p : String × Status → Bool) (metrics : Metrics) (metric : Metric) :
    (metrics.record metric).latency p = metrics.latency p + metric.latency p := by
  cases metric with
  | request model status latencyMs cacheHit =>
    apply Dict.weightWhere_modify
    · exact fun _ => rfl
    · rfl
  | cacheResult hit => cases hit <;> exact (add_zero _).symm
  | modelUsage model => exact (add_zero _).symm
  | rateLimitRejection scope => exact (add_zero _).symm
  | cost model usd => exact (add_zero _).symm

lemma cacheHits_record (metrics : Metrics) (metric : Metric) :
    (metrics.record metric).cacheHits = metrics.cacheHits + metric.isLookup true := by
  cases metric with
  | cacheResult hit => cases hit <;> rfl
  | request model status latencyMs cacheHit => rfl
  | modelUsage model => rfl
  | rateLimitRejection scope => rfl
  | cost model usd => rfl

lemma cacheMisses_record (metrics : Metrics) (metric : Metric) :
    (metrics.record metric).cacheMisses = metrics.cacheMisses + metric.isLookup false := by
  cases metric with
  | cacheResult hit => cases hit <;> rfl
  | request model status latencyMs cacheHit => rfl
  | modelUsage model => rfl
  | rateLimitRejection scope => rfl
  | cost model usd => rfl

end Metrics

/-! ## What one request records -/

/-- The metric that a call records; all other calls leave the registry as it is. -/
def Op.metric : Op → Option Metric
  | record metric => some metric
  | _ => none

def metricsOf (events : List (Event Op Op.Reply)) : List Metric :=
  events.filterMap fun e => e.op.metric

/-- The scope whose limit an exception is about. -/
def HttpException.scope (e : HttpException) : Option RateScope :=
  if e.statusCode ≠ 429 then none
  else if e.detail = "API key rate limit exceeded." then some .apiKey
  else if e.detail = "User rate limit exceeded." then some .user
  else none

/-- The records of a request that has ended, where errors count under the model `key`: a
rejection, a hit, a miss that was not completed, or one that was. -/
inductive Metered (key : String) : List Metric → Except HttpException GenerateResponse → Prop
  | denied {scope : RateScope} {latencyMs : ℚ} {e : HttpException} (h : e.scope = some scope) :
      Metered key [.rateLimitRejection scope, .request key .error latencyMs false] (.error e)
  | hit {model : String} {latencyMs : ℚ} {response : GenerateResponse}
      (h : response.cached = true ∧ response.modelUsed = model ∧ response.latencyMs = latencyMs) :
      Metered key [.cacheResult true, .request model .success latencyMs true] (.ok response)
  | failed {latencyMs : ℚ} :
      Metered key [.cacheResult false, .request key .error latencyMs false] (.error badGateway)
  | generated {model : String} {usd : PyFloat} {latencyMs : ℚ} {response : GenerateResponse}
      (h : response.cached = false ∧ response.modelUsed = model ∧ response.latencyMs = latencyMs)
      (hcost : response.cost.max (.finite 0) = usd.max (.finite 0)) :
      Metered key [.cacheResult false, .modelUsage model, .cost model usd,
        .request model .success latencyMs false] (.ok response)

lemma metricsOf_append (before events : List (Event Op Op.Reply)) :
    metricsOf (before ++ events) = metricsOf before ++ metricsOf events := List.filterMap_append

lemma metricsOf_eq_nil {events : List (Event Op Op.Reply)} (h : ∀ e ∈ events, e.op.metric = none) :
    metricsOf events = [] := List.filterMap_eq_nil_iff.mpr h

/-- The stages without records. -/
lemma metric_of_stage {op : Op} {stage : Stage} (h : op.stage = stage)
    (hadmission : stage ≠ .admission)
    (hmetric : stage ≠ .metric) : op.metric = none := by
  cases op with
  | record metric =>
    cases metric with
    | rateLimitRejection scope => exact absurd h.symm hadmission
    | cacheResult hit => exact absurd h.symm hmetric
    | request model status latencyMs cacheHit => exact absurd h.symm hmetric
    | modelUsage model => exact absurd h.symm hmetric
    | cost model usd => exact absurd h.symm hmetric
  | _ => rfl

lemma metricsOf_of_stage {events : List (Event Op Op.Reply)} {stage : Stage}
    (h : ∀ e ∈ events, e.op.stage = stage) (hadmission : stage ≠ .admission)
    (hmetric : stage ≠ .metric) : metricsOf events = [] :=
  metricsOf_eq_nil fun e he => metric_of_stage (h e he) hadmission hmetric

/-- The records of the admission: a rejection is recorded exactly when a limit denies the request,
under its scope. -/
def AdmissionMetered (events : List (Event Op Op.Reply)) : Except HttpException Unit → Prop
  | .ok _ => metricsOf events = []
  | .error e => ∃ scope, e.scope = some scope ∧ metricsOf events = [.rateLimitRejection scope]

lemma enforceRateLimits_metered (hasRedis : Bool) (settings : Settings) (auth : AuthContext)
    (userId : String) : (enforceRateLimits hasRedis settings auth userId).Ensures
      fun events result => AdmissionMetered events result := by
  have hcheck : ∀ scope identifier limit, (checkRateLimit hasRedis scope identifier limit
      settings.rateLimitWindowSeconds).Always fun op => op.metric = none :=
    fun _ _ _ => checkRateLimit_always _ _ _ _ _ rfl (fun _ => rfl) fun _ => rfl
  unfold enforceRateLimits
  refine (hcheck _ _ _).ensures.bind fun keyEvents keyResult hkey => ?_
  refine (hcheck _ _ _).ensures.bind fun userEvents userResult huser => ?_
  have hnone : metricsOf (keyEvents ++ userEvents) = [] :=
    metricsOf_eq_nil (List.forall_mem_append.mpr ⟨hkey, huser⟩)
  have hdenied : ∀ scope reply, metricsOf
      (keyEvents ++ (userEvents ++ [⟨.record (.rateLimitRejection scope), reply⟩])) =
        [.rateLimitRejection scope] := by
    intro scope reply
    rw [← List.append_assoc, metricsOf_append, hnone]
    rfl
  split_ifs
  · exact fun reply => ⟨.apiKey, rfl, hdenied .apiKey reply⟩
  · exact fun reply => ⟨.user, rfl, hdenied .user reply⟩
  · show metricsOf (keyEvents ++ (userEvents ++ [])) = []
    rw [List.append_nil]
    exact hnone

section
variable [Runtime] [Digests]

/-- The records of the `try` block: those of the whole request if it answers, and all but
the last one if it raises. -/
def ServeMetered (key : String) (events : List (Event Op Op.Reply)) :
    Except Raised (GenerateResponse × List Task) → Prop
  | .ok answer => Metered key (metricsOf events) (.ok answer.1)
  | .error (.http e) =>
    ∃ scope, e.scope = some scope ∧ metricsOf events = [.rateLimitRejection scope]
  | .error (.other _) => metricsOf events = [.cacheResult false]

lemma serve_metered (key : String) (hasRedis : Bool) (settings : Settings)
    (payload : GenerateRequest) (auth : AuthContext) (started : ℚ) (requestId : String) :
    (serve hasRedis settings payload auth started requestId).Ensures
      fun events result => ServeMetered key events result := by
  refine serve_rule (enforceRateLimits_metered _ _ _ _) (getCachedResponse_always _ _ _).ensures
    (completeFor_always _ _).ensures ?_ ?_ ?_ ?_
  · intro admitting e hadmitted
    exact hadmitted
  · intro admitting looking cached hadmitted hlooked finished now _ _
    show Metered key (metricsOf (admitting ++ (looking ++ _))) _
    rw [metricsOf_append, metricsOf_append, hadmitted,
      metricsOf_of_stage hlooked (by decide) (by decide)]
    exact .hit ⟨rfl, rfl, rfl⟩
  · intro admitting looking completing e hadmitted hlooked hcompleted
    show metricsOf (admitting ++ (looking ++ ([_] ++ completing))) = _
    rw [metricsOf_append, metricsOf_append, metricsOf_append, hadmitted,
      metricsOf_of_stage hlooked (by decide) (by decide),
      metricsOf_of_stage hcompleted (by decide) (by decide)]
    rfl
  · intro admitting looking completing modelUsed text hadmitted hlooked hcompleted
      finished now _ _ _
    show Metered key (metricsOf (admitting ++ (looking ++ ([_] ++ (completing ++ _))))) _
    rw [metricsOf_append, metricsOf_append, metricsOf_append, metricsOf_append, hadmitted,
      metricsOf_of_stage hlooked (by decide) (by decide),
      metricsOf_of_stage hcompleted (by decide) (by decide)]
    exact .generated ⟨rfl, rfl, rfl⟩ (PyFloat.max_max_self _ _).symm

lemma handleGenerateRequest_metered (hasRedis : Bool) (settings : Settings)
    (payload : GenerateRequest) (auth : AuthContext) :
    (handleGenerateRequest hasRedis settings payload auth).Ensures
      fun events handled =>
        Metered (cacheModelKey (chooseModel payload settings)) (metricsOf events) handled.1 := by
  refine handleGenerateRequest_rule (serve_metered (cacheModelKey (chooseModel payload settings))
    _ _ _ _) ?_ ?_
  · intro started requestId serving response tasks hserved
    exact hserved
  · intro started requestId serving raised hserved finished _
    show Metered _ (metricsOf ([_, _] ++ (serving ++ _))) _
    rw [metricsOf_append, metricsOf_append]
    cases raised with
    | http e =>
      obtain ⟨scope, hscope, hmetrics⟩ := hserved
      rw [hmetrics]
      exact .denied hscope
    | other e =>
      replace hserved : metricsOf serving = [.cacheResult false] := hserved
      rw [hserved]
      exact .failed

/-- The background tasks of a request record nothing. -/
theorem generate_metered (hasRedis : Bool) (settings : Settings) (payload : GenerateRequest)
    (auth : AuthContext) : (generate hasRedis settings payload auth).Ensures
      fun events outcome =>
        Metered (cacheModelKey (chooseModel payload settings)) (metricsOf events) outcome := by
  have hquiet : ∀ tasks, (runTasks hasRedis tasks).Always fun op => op.metric = none := by
    intro tasks
    induction tasks with
    | nil => exact always_done _ _
    | cons task tasks ih =>
      refine Always.bind ?_ fun _ => ih
      cases task with
      | persistRequestLog log => exact always_perform rfl
      | setCachedResponse prompt model entry ttlSeconds =>
        cases hasRedis with
        | false => exact always_done _ _
        | true =>
          exact Always.bind (P := fun op : Op => op.metric = none) (always_perform rfl) fun _ =>
            always_done _ _
  unfold generate
  refine (handleGenerateRequest_metered _ _ _ _).bind fun handling handled hhandled => ?_
  obtain ⟨outcome, tasks⟩ := handled
  cases outcome with
  | error e =>
    show Metered _ (metricsOf (handling ++ [])) _
    rw [List.append_nil]
    exact hhandled
  | ok response =>
    refine (hquiet tasks).ensures.bind fun running _ hrunning => ?_
    show Metered _ (metricsOf (handling ++ (running ++ []))) _
    rw [metricsOf_append, List.append_nil, metricsOf_eq_nil hrunning, List.append_nil]
    exact hhandled

end

/-! ## Requests that interleave -/

section Pool
variable {ι σ : Type} [DecidableEq ι]

/-- What is shared besides the metrics answers as before; a record goes to the metrics. -/
def metered (answers : σ → (op : Op) → op.Reply → σ → Prop) (s : σ × Metrics) (op : Op)
    (r : op.Reply) (s' : σ × Metrics) : Prop :=
  answers s.1 op r s'.1 ∧ s'.2 = op.metric.elim s.2 s.2.record

/-- What happens between the calls of requests leaves the metrics as they are: nothing but records
moves them. -/
def unmetered (drift : σ → σ → Prop) (s s' : σ × Metrics) : Prop := drift s.1 s'.1 ∧ s'.2 = s.2

variable {answers : σ → (op : Op) → op.Reply → σ → Prop} {drift : σ → σ → Prop} {α : Type}
  {init pool : Pool ι Op Op.Reply α (σ × Metrics)} {acts : List (Act ι Op Op.Reply)}

/-- The metrics are what the records of the run make of them. -/
lemma run_metrics (hrun : Run (Pool.Step (metered answers) (unmetered drift)) init acts pool) :
    pool.shared.2 = (metricsOf (Pool.calls acts)).foldl Metrics.record init.shared.2 := by
  induction hrun with
  | nil => rfl
  | @snoc acts before after act _ hstep ih =>
    have hcalls : Pool.calls (acts ++ [act]) = Pool.calls acts ++ Pool.calls [act] :=
      List.filterMap_append
    rw [hcalls, metricsOf_append, List.foldl_append, ← ih]
    cases hstep with
    | drifted h => exact h.2
    | @called i op next reply s hmember hanswer =>
      rw [hanswer.2]
      cases op with
      | record metric => rfl
      | _ => rfl

omit [DecidableEq ι] in
lemma sound_foldl {metrics : Metrics} (h : metrics.Sound) (records : List Metric) :
    (records.foldl Metrics.record metrics).Sound := by
  induction records generalizing metrics with
  | nil => exact h
  | cons metric records ih => exact ih (h.record metric)

omit [DecidableEq ι] in
/-- A reading to which every record adds its own weight. -/
lemma reading_foldl {M : Type} [AddCommMonoid M] {reading : Metrics → M} {weight : Metric → M}
    (h : ∀ metrics metric, reading (metrics.record metric) = reading metrics + weight metric)
    (metrics : Metrics) (records : List Metric) :
    reading (records.foldl Metrics.record metrics) =
      reading metrics + (records.map weight).sum := by
  induction records generalizing metrics with
  | nil => exact (add_zero _).symm
  | cons metric records ih =>
    rw [List.foldl_cons, ih, h, List.map_cons, List.sum_cons]
    exact add_assoc _ _ _

/-- The weight of a call. -/
def callWeight {M : Type} [AddCommMonoid M] (weight : Metric → M) (event : Event Op Op.Reply) : M :=
  event.op.metric.elim 0 weight

omit [DecidableEq ι] in
lemma sum_callWeight {M : Type} [AddCommMonoid M] (weight : Metric → M)
    (events : List (Event Op Op.Reply)) :
    (events.map (callWeight weight)).sum = ((metricsOf events).map weight).sum := by
  induction events with
  | nil => rfl
  | cons event events ih =>
    rw [List.map_cons, List.sum_cons, ih, metricsOf, metricsOf, List.filterMap_cons, callWeight]
    cases event.op.metric with
    | none => exact zero_add _
    | some metric => rfl

instance replyNonempty (op : Op) : Nonempty op.Reply := ⟨op.idle⟩

/-- A weight that the records of an ended request add up to, whose errors count under a model
and which has an outcome. -/
def Weighs {M : Type} [AddCommMonoid M] (weight : Metric → M)
    (value : String → Except HttpException GenerateResponse → M) : Prop :=
  ∀ key records outcome, Metered key records outcome →
    (records.map weight).sum = value key outcome

/-- One for an outcome in `q`. -/
def one (q : String → Except HttpException GenerateResponse → Bool) (key : String)
    (outcome : Except HttpException GenerateResponse) : ℕ :=
  if q key outcome then 1 else 0

end Pool

section History
variable [Runtime] [Digests]
variable {ι σ : Type} [DecidableEq ι] {answers : σ → (op : Op) → op.Reply → σ → Prop}
  {drift : σ → σ → Prop}
  {init pool : Pool ι Op Op.Reply (Except HttpException GenerateResponse) (σ × Metrics)}
  {acts : List (Act ι Op Op.Reply)} {hasRedis : Bool} {settings : Settings}
  {requests : ι → GenerateRequest × AuthContext}

/-- Requests that run together from a fresh start of the process, in any surroundings, with every
record of theirs entered into the process's metrics. -/
structure Serving (hasRedis : Bool) (settings : Settings)
    (requests : ι → GenerateRequest × AuthContext)
    (answers : σ → (op : Op) → op.Reply → σ → Prop) (drift : σ → σ → Prop)
    (init pool : Pool ι Op Op.Reply (Except HttpException GenerateResponse) (σ × Metrics))
    (acts : List (Act ι Op Op.Reply)) : Prop where
  start : ∀ i, init.members i = generate hasRedis settings (requests i).1 (requests i).2
  fresh : init.shared.2 = .fresh
  run : Run (Pool.Step (metered answers) (unmetered drift)) init acts pool

/-- The model under which the errors of a request count. -/
def errorModel (settings : Settings) (request : GenerateRequest × AuthContext) : String :=
  cacheModelKey (chooseModel request.1 settings)

lemma Serving.ended (h : Serving hasRedis settings requests answers drift init pool acts)
    {M : Type} [AddCommMonoid M] {weight : Metric → M}
    {value : String → Except HttpException GenerateResponse → M} (hweight : Weighs weight value)
    (i : ι) (outcome : Except HttpException GenerateResponse)
    (hdone : pool.members i = .done outcome) :
    ((Pool.callsOf i acts).map (callWeight weight)).sum =
      value (errorModel settings (requests i)) outcome := by
  have hreach := Pool.reaches h.run i
  rw [h.start i, hdone] at hreach
  rw [sum_callWeight]
  exact hweight _ _ _ ((generate_metered _ _ _ _).of_done hreach)

lemma Serving.open_le (h : Serving hasRedis settings requests answers drift init pool acts)
    {weight : Metric → ℕ} {q : String → Except HttpException GenerateResponse → Bool}
    (hweight : Weighs weight (one q)) (i : ι) :
    ((Pool.callsOf i acts).map (callWeight weight)).sum ≤ 1 := by
  have hreach := Pool.reaches h.run i
  rw [h.start i] at hreach
  refine Program.Ensures.sum_le ((generate_metered _ _ _ _).mono fun events outcome hmetered => ?_)
    hreach
  rw [sum_callWeight, hweight _ _ _ hmetered, one]
  split_ifs
  · exact le_rfl
  · exact Nat.zero_le 1

/-- The requests that have returned an outcome of `q`, which is what the counters are reconciled
with. -/
def ended [Fintype ι] (q : ι → Except HttpException GenerateResponse → Bool)
    (pool : Pool ι Op Op.Reply (Except HttpException GenerateResponse) (σ × Metrics)) : ℕ :=
  ∑ i, (pool.members i).returned.elim 0 fun outcome => if q i outcome then 1 else 0

/-- A counter stands between the outcomes of `q` and those with all requests in flight. -/
def Counts [Fintype ι] (q : ι → Except HttpException GenerateResponse → Bool)
    (pool : Pool ι Op Op.Reply (Except HttpException GenerateResponse) (σ × Metrics))
    (counter : ℕ) :
    Prop :=
  ended q pool ≤ counter ∧ counter ≤ ended q pool + pool.inFlight

/-- A total is what the outcomes of the ended requests are worth, and what the requests in
flight have recorded so far. -/
def AddsUp [Fintype ι] {M : Type} [AddCommMonoid M] (weight : Metric → M)
    (value : Except HttpException GenerateResponse → M) (acts : List (Act ι Op Op.Reply))
    (pool : Pool ι Op Op.Reply (Except HttpException GenerateResponse) (σ × Metrics)) (total : M) :
    Prop :=
  total = ∑ i, (pool.members i).returned.elim
    ((Pool.callsOf i acts).map (callWeight weight)).sum value

/-- The labels that an outcome counts under: the model of the response and whether it was cached,
or the model key of the route for an error. -/
def labelsOf (key : String) : Except HttpException GenerateResponse → String × Status × Bool
  | .ok response => (response.modelUsed, .success, response.cached)
  | .error _ => (key, .error, false)

/-- A rejection in one of the scopes. -/
def rejects (p : RateScope → Bool) : Except HttpException GenerateResponse → Bool
  | .ok _ => false
  | .error e => e.scope.any p

/-- An answer from the cache. -/
def hits : Except HttpException GenerateResponse → Bool
  | .ok response => response.cached
  | .error _ => false

/-- Whatever is neither a rejection nor an answer from the cache. -/
def misses : Except HttpException GenerateResponse → Bool
  | .ok response => !response.cached
  | .error e => e.scope.isNone

/-- A completion by one of the models. -/
def generates (p : String → Bool) : Except HttpException GenerateResponse → Bool
  | .ok response => !response.cached && p response.modelUsed
  | .error _ => false

/-- What the completion of an outcome costs, if one of the models made it. -/
def chargeOf (p : String → Bool) : Except HttpException GenerateResponse → PyFloat
  | .ok response =>
    if !response.cached && p response.modelUsed then response.cost.max (.finite 0) else 0
  | .error _ => 0

/-- The latency that an answer states, if it comes from one of the models. -/
def latencyOf (p : String → Bool) : Except HttpException GenerateResponse → ℚ
  | .ok response => if p response.modelUsed then max response.latencyMs 0 else 0
  | .error _ => 0

/-- The counters agree with what the requests returned up to the requests in flight, each for
any selection of its labels; the amounts agree exactly, with what the requests in flight have
recorded. -/
structure CountersAgree [Fintype ι] (settings : Settings)
    (requests : ι → GenerateRequest × AuthContext) (acts : List (Act ι Op Op.Reply))
    (pool : Pool ι Op Op.Reply (Except HttpException GenerateResponse) (σ × Metrics)) : Prop where
  requests : ∀ p, Counts (fun i outcome => p (labelsOf (errorModel settings (requests i)) outcome))
    pool (pool.shared.2.requests p)
  rejections : ∀ p, Counts (fun _ => rejects p) pool (pool.shared.2.rejections p)
  hits : Counts (fun _ => hits) pool pool.shared.2.cacheHits
  misses : Counts (fun _ => misses) pool pool.shared.2.cacheMisses
  usage : ∀ p, Counts (fun _ => generates p) pool (pool.shared.2.usage p)
  spend : ∀ p, AddsUp (Metric.spend p) (chargeOf p) acts pool (pool.shared.2.spend p)
  latency : ∀ p, AddsUp (Metric.latency fun labels => labels.2 = .success && p labels.1)
    (latencyOf p) acts pool (pool.shared.2.latency fun labels => labels.2 = .success && p labels.1)

/-! ### What each counter counts -/

omit [Runtime] [Digests] [DecidableEq ι]

lemma weighs_requests (p : String × Status × Bool → Bool) :
    Weighs (Metric.isRequest p) (one fun key outcome => p (labelsOf key outcome)) := by
  intro key records outcome h
  cases h with
  | denied h => exact Nat.zero_add _
  | hit h => simp [Metric.isRequest, one, labelsOf, h]
  | failed => exact Nat.zero_add _
  | generated h hcost => simp [Metric.isRequest, one, labelsOf, h]

lemma weighs_rejections (p : RateScope → Bool) :
    Weighs (Metric.isRejection p) (one fun _ => rejects p) := by
  intro key records outcome h
  cases h with
  | denied h => simp [Metric.isRejection, one, rejects, h]
  | hit h => simp [Metric.isRejection, one, rejects]
  | failed => rfl
  | generated h hcost => simp [Metric.isRejection, one, rejects]

lemma weighs_hits : Weighs (Metric.isLookup true) (one fun _ => hits) := by
  intro key records outcome h
  cases h with
  | denied h => simp [Metric.isLookup, one, hits]
  | hit h => simp [Metric.isLookup, one, hits, h]
  | failed => rfl
  | generated h hcost => simp [Metric.isLookup, one, hits, h]

lemma weighs_misses : Weighs (Metric.isLookup false) (one fun _ => misses) := by
  intro key records outcome h
  cases h with
  | denied h => simp [Metric.isLookup, one, misses, h]
  | hit h => simp [Metric.isLookup, one, misses, h]
  | failed => rfl
  | generated h hcost => simp [Metric.isLookup, one, misses, h]

lemma weighs_usage (p : String → Bool) : Weighs (Metric.isUsage p) (one fun _ => generates p) := by
  intro key records outcome h
  cases h with
  | denied h => simp [Metric.isUsage, one, generates]
  | hit h => simp [Metric.isUsage, one, generates, h]
  | failed => rfl
  | generated h hcost => simp [Metric.isUsage, one, generates, h]

lemma weighs_spend (p : String → Bool) : Weighs (Metric.spend p) fun _ => chargeOf p := by
  intro key records outcome h
  cases h with
  | denied h => simp [Metric.spend, chargeOf]
  | hit h => simp [Metric.spend, chargeOf, h]
  | failed => simp [Metric.spend, chargeOf]
  | generated h hcost => simp [Metric.spend, chargeOf, h, hcost]

lemma weighs_latency (p : String → Bool) :
    Weighs (Metric.latency fun labels => labels.2 = .success && p labels.1)
      fun _ => latencyOf p := by
  intro key records outcome h
  cases h with
  | denied h => simp [Metric.latency, latencyOf]
  | hit h => simp [Metric.latency, latencyOf, h]
  | failed => simp [Metric.latency, latencyOf]
  | generated h hcost => simp [Metric.latency, latencyOf, h]

end History

section Totals
variable [Runtime] [Digests]
variable {ι σ : Type} [DecidableEq ι] [Fintype ι] {answers : σ → (op : Op) → op.Reply → σ → Prop}
  {drift : σ → σ → Prop} {acts : List (Act ι Op Op.Reply)} {hasRedis : Bool} {settings : Settings}
  {init pool : Pool ι Op Op.Reply (Except HttpException GenerateResponse) (σ × Metrics)}
  {requests : ι → GenerateRequest × AuthContext}

omit [Fintype ι] in
/-- What a reading shows is what the calls of the run weigh. -/
lemma Serving.reading_eq (h : Serving hasRedis settings requests answers drift init pool acts)
    {M : Type} [AddCommMonoid M] (reading : Metrics → M) {weight : Metric → M}
    (hrecord : ∀ metrics metric, reading (metrics.record metric) = reading metrics + weight metric)
    (hfresh : reading .fresh = 0) :
    reading pool.shared.2 = ((Pool.calls acts).map (callWeight weight)).sum := by
  rw [run_metrics h.run, h.fresh, reading_foldl hrecord, hfresh, zero_add, ← sum_callWeight]

/-- A counter counts the outcomes that its weight adds up to. -/
lemma Serving.counts (h : Serving hasRedis settings requests answers drift init pool acts)
    (reading : Metrics → ℕ) {weight : Metric → ℕ}
    {q : String → Except HttpException GenerateResponse → Bool} (hweight : Weighs weight (one q))
    (hrecord : ∀ metrics metric, reading (metrics.record metric) = reading metrics + weight metric)
    (hfresh : reading .fresh = 0) :
    Counts (fun i => q (errorModel settings (requests i))) pool (reading pool.shared.2) := by
  rw [h.reading_eq reading hrecord hfresh]
  exact Pool.sum_calls_within (h.ended hweight) (h.open_le hweight)

/-- An amount is what the outcomes are worth that its weight adds up to. -/
lemma Serving.addsUp (h : Serving hasRedis settings requests answers drift init pool acts)
    {M : Type} [AddCommMonoid M] (reading : Metrics → M) {weight : Metric → M}
    {value : Except HttpException GenerateResponse → M} (hweight : Weighs weight fun _ => value)
    (hrecord : ∀ metrics metric, reading (metrics.record metric) = reading metrics + weight metric)
    (hfresh : reading .fresh = 0) : AddsUp weight value acts pool (reading pool.shared.2) := by
  rw [AddsUp, h.reading_eq reading hrecord hfresh,
    Pool.sum_calls _ acts Finset.univ fun i _ _ => Finset.mem_univ i]
  apply Finset.sum_congr rfl
  intro i _
  cases hi : (pool.members i).returned with
  | none => rfl
  | some outcome => exact h.ended hweight i outcome (Program.returned_eq_some.mp hi)

/-- At any moment of any interleaving, the counters agree with the outcomes of the requests
up to those in flight, the spend and the latencies are exactly those of the outcomes and of
what is in flight, the gauge is the ratio of the hits, and the latency histogram has observed
the counted requests. -/
theorem counters_reconcile (h : Serving hasRedis settings requests answers drift init pool acts) :
    CountersAgree settings requests acts pool ∧ pool.shared.2.Sound := by
  constructor
  · constructor
    · intro p
      exact h.counts (·.requests p) (weighs_requests p) (Metrics.requests_record p) rfl
    · intro p
      exact h.counts (·.rejections p) (weighs_rejections p) (Metrics.rejections_record p) rfl
    · exact h.counts Metrics.cacheHits weighs_hits Metrics.cacheHits_record rfl
    · exact h.counts Metrics.cacheMisses weighs_misses Metrics.cacheMisses_record rfl
    · intro p
      exact h.counts (·.usage p) (weighs_usage p) (Metrics.usage_record p) rfl
    · intro p
      exact h.addsUp (·.spend p) (weighs_spend p) (Metrics.spend_record p) rfl
    · intro p
      exact h.addsUp (·.latency _) (weighs_latency p) (Metrics.latency_record _) rfl
  · rw [run_metrics h.run, h.fresh]
    exact sound_foldl Metrics.sound_fresh _

end Totals

/-- A provider that answers "hi" and a Redis that counts every call as the first of its window,
both metered. -/
def meteredAnswers : World Op Op.Reply (Unit × Metrics) :=
  fun op s => ((answering op ()).1, (), op.metric.elim s.2 s.2.record)

lemma greeting_length : 1 ≤ "hello".length ∧ "hello".length ≤ 20000 := by decide

lemma caller_length : 1 ≤ "u".length ∧ "u".length ≤ 128 := by decide

def greeting : GenerateRequest := .plain "hello" "u" greeting_length caller_length

/-- The same question with a key that admits sixty requests a minute, and with one that
admits none. -/
def greeters : Bool → GenerateRequest × AuthContext
  | false => (greeting, ⟨"t", "h", 60, "tenant"⟩)
  | true => (greeting, ⟨"t", "h2", 0, "tenant"⟩)

/-- One request is answered, and the other one denied. -/
theorem counters_reconcile_sample :
    letI := Runtime.ascii
    letI := Digests.listed helloDigest
    ∃ acts pool, Serving true .live greeters (fun _ op r _ => r = (answering op ()).1)
        (fun _ _ => False) (⟨((), .fresh),
          fun i => generate true .live (greeters i).1 (greeters i).2⟩ :
          Pool Bool _ _ _ _) pool acts ∧
      pool.inFlight = 0 ∧ pool.shared.2.spend (fun _ => true) = .finite (20 / 10 ^ 6) ∧
      pool.shared.2.rejections (· = .apiKey) = 1 ∧ CountersAgree .live greeters acts pool := by
  let := Runtime.ascii
  let := Digests.listed helloDigest
  let init : Pool Bool Op Op.Reply (Except HttpException GenerateResponse) (Unit × Metrics) :=
    ⟨((), .fresh), fun i => generate true .live (greeters i).1 (greeters i).2⟩
  have hworld : ∀ op (s : Unit × Metrics), True →
      metered (fun _ op r _ => r = (answering op ()).1) s op (meteredAnswers op s).1
        (meteredAnswers op s).2 ∧ True := fun op s _ => ⟨⟨rfl, rfl⟩, trivial⟩
  have hfirst : Run (Pool.Step (metered fun _ op r _ => r = (answering op ()).1)
      (unmetered fun _ _ => False)) init _ _ :=
    Pool.run_alone meteredAnswers hworld .nil trivial false _ rfl
  have hboth := Pool.run_alone meteredAnswers hworld hfirst trivial true
    (generate true .live (greeters true).1 (greeters true).2) (by simp [init])
  have hserving : Serving true .live greeters (fun _ op r _ => r = (answering op ()).1)
      (fun _ _ => False) init _ _ := ⟨fun _ => rfl, rfl, hboth⟩
  refine ⟨_, _, hserving, ?_, ?_, ?_, (counters_reconcile hserving).1⟩
  · rw [Pool.inFlight, Finset.card_eq_zero, Finset.filter_eq_empty_iff]
    intro i _
    cases i with
    | false => simp [Program.returned]
    | true => simp [Program.returned]
  · decide +kernel
  · decide +kernel

end InferenceControlPlane.Gateway
