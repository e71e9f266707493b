import InferenceControlPlane.Programs
import InferenceControlPlane.Python.DateTime
import Mathlib.Data.NNRat.Floor

/-!
# Requests, settings, and the calls of the gateway

The field limits of the schemas are fields, so a payload or a setting that would be
rejected at validation cannot be built. Everything outside the process is a call: the
clocks, Redis, the circuit breakers that requests share, the provider, the metrics and
the database.
-/
namespace InferenceControlPlane.Gateway
open Python

inductive Priority where
  | low
  | high
  deriving DecidableEq, Repr

structure GenerateRequest where
  prompt : String
  userId : String
  priority : Priority
  modelOverride : Option String
  providerOverride : Option String
  providerApiKey : Option String
  prompt_length : 1 ≤ prompt.length ∧ prompt.length ≤ 20000
  userId_length : 1 ≤ userId.length ∧ userId.length ≤ 128
  modelOverride_length : ∀ model, modelOverride = some model → model.length ≤ 128
  providerOverride_length : ∀ provider, providerOverride = some provider → provider.length ≤ 128

structure GenerateResponse where
  requestId : String
  modelUsed : String
  response : String
  cached : Bool
  latencyMs : ℚ
  tokens : ℤ
  cost : PyFloat
  timestamp : DateTime

structure AuthContext where
  tenantId : String
  apiKeyHash : String
  rateLimitPerMinute : ℤ
  role : String
  deriving DecidableEq

structure HttpException where
  statusCode : ℕ
  detail : String
  retryAfter : Option String
  deriving DecidableEq

inductive LlmMode where
  | simulated
  | openaiCompatible
  | multiProvider
  deriving DecidableEq, Repr

/-- The settings that a request reads, with the bounds of their fields: a rate that `ge=0`
accepts is a number. -/
structure Settings where
  cacheTtlSeconds : ℕ
  rateLimitWindowSeconds : ℕ
  userRateLimitPerMinute : ℕ
  cheapModelName : String
  premiumModelName : String
  routerTokenThreshold : ℕ
  cheapModelCostPer1kTokens : PyFloat
  premiumModelCostPer1kTokens : PyFloat
  llmMode : LlmMode
  openrouterApiKey : Option String
  openrouterBaseUrl : String
  openrouterCheapModel : String
  openrouterPremiumModel : String
  llmMaxRetries : ℕ
  llmMaxOutputTokens : ℕ
  cacheTtl_bounds : 1 ≤ cacheTtlSeconds ∧ cacheTtlSeconds ≤ 86400
  window_bounds : 1 ≤ rateLimitWindowSeconds ∧ rateLimitWindowSeconds ≤ 3600
  userRateLimit_pos : 1 ≤ userRateLimitPerMinute
  threshold_pos : 1 ≤ routerTokenThreshold
  cheapCost_nonneg : (PyFloat.finite 0).le cheapModelCostPer1kTokens = true
  premiumCost_nonneg : (PyFloat.finite 0).le premiumModelCostPer1kTokens = true
  maxRetries_le : llmMaxRetries ≤ 5
  maxOutputTokens_bounds : 1 ≤ llmMaxOutputTokens ∧ llmMaxOutputTokens ≤ 8192

/-- `Settings()`. -/
def Settings.default : Settings where
  cacheTtlSeconds := 300
  rateLimitWindowSeconds := 60
  userRateLimitPerMinute := 60
  cheapModelName := "cheap-model"
  premiumModelName := "premium-model"
  routerTokenThreshold := 1200
  cheapModelCostPer1kTokens := .finite (8 / 10000)
  premiumModelCostPer1kTokens := .finite (1 / 100)
  llmMode := .simulated
  openrouterApiKey := some "dummy-key"
  openrouterBaseUrl := "https://text.pollinations.ai/openai"
  openrouterCheapModel := "openai"
  openrouterPremiumModel := "openai"
  llmMaxRetries := 2
  llmMaxOutputTokens := 1024
  cacheTtl_bounds := by omega
  window_bounds := by omega
  userRateLimit_pos := by omega
  threshold_pos := by omega
  cheapCost_nonneg := by decide +kernel
  premiumCost_nonneg := by decide +kernel
  maxRetries_le := by omega
  maxOutputTokens_bounds := by omega

/-- `hashlib`, as hexadecimal digests of a text's UTF-8 bytes. What is proved holds of any two
such functions, where it does not ask more of them. -/
class Digests where
  sha256 : String → String
  sha1 : String → String

/-- The SHA-256 digests of listed texts. -/
@[reducible] def Digests.listed (table : List (String × String)) : Digests where
  sha256 text := (table.lookup text).getD ""
  sha1 _ := ""

/-- The outcome of a request, as it is recorded in the metrics and stored in the row. -/
inductive Status where
  | success
  | error
  deriving DecidableEq, Repr

def Status.text : Status → String
  | success => "success"
  | error => "error"

inductive RateScope where
  | apiKey
  | user
  deriving DecidableEq, Repr

def RateScope.text : RateScope → String
  | apiKey => "api_key"
  | user => "user"

inductive Metric where
  | cacheResult (hit : Bool)
  | request (model : String) (status : Status) (latencyMs : ℚ) (cacheHit : Bool)
  | modelUsage (model : String)
  | rateLimitRejection (scope : RateScope)
  | cost (model : String) (usd : PyFloat)

/-- The arguments of `_persist_request_log`: what the handler has decided about the row of a
request when it queues the task that stores it. -/
structure LogTask where
  tenantId : String
  userId : String
  apiKeyHash : String
  prompt : String
  response : String
  modelUsed : String
  latencyMs : ℚ
  tokens : ℤ
  cost : PyFloat
  cacheHit : Bool
  status : Status
  errorMessage : Option String

/-- The row that is added to the session: the arguments, clamped to what the columns of the table
take. -/
def LogTask.row (log : LogTask) : LogTask :=
  { log with
    latencyMs := max log.latencyMs 0
    tokens := max log.tokens 0
    cost := log.cost.max (.finite 0) }

/-- One `POST` to a chat-completions endpoint: where it goes, on whose account, and what it asks
of which model. -/
structure CompletionRequest where
  endpoint : String
  authorization : Option String
  model : String
  maxTokens : ℕ
  prompt : String

/-- What comes of it: no client, a transport failure, a response, or another exception. -/
inductive PostOutcome where
  | noClient
  | timeout
  | requestError
  | response (status : ℕ) (body : Text)
  | raised (e : PyErr)

inductive Op where
  | perfCounter
  | time
  | now
  | requestId
  | incrTtl (key : String)
  | expire (key : String) (seconds : ℕ)
  | get (key : String)
  | set (key : String) (value : Text) (ex : ℕ)
  | isAllowed (provider : String)
  | recordSuccess (provider : String)
  | recordFailure (provider : String)
  | post (request : CompletionRequest)
  | record (metric : Metric)
  | persist (row : LogTask)

/-- What a call returns; a Redis call may raise. `time` counts from the epoch. -/
@[reducible] def Op.Reply : Op → Type
  | perfCounter => ℚ
  | time => ℚ≥0
  | now => DateTime
  | requestId => String
  | incrTtl _ => Except PyErr (ℤ × ℤ)
  | expire _ _ => Except PyErr Unit
  | get _ => Except PyErr (Option Text)
  | set _ _ _ => Except PyErr Unit
  | isAllowed _ => Bool
  | recordSuccess _ => Unit
  | recordFailure _ => Unit
  | post _ => PostOutcome
  | record _ => Unit
  | persist _ => Unit

/-- What the gateway's coroutines are: programs that make their calls one at a time, so that
others may run between two of them. -/
abbrev Coroutine (α : Type) : Type := Program Op Op.Reply α

/-- Surroundings in which nothing is stored, refused, or reachable. -/
def Op.idle : (op : Op) → op.Reply
  | perfCounter => (0 : ℚ)
  | time => (0 : ℚ≥0)
  | now => (⟨0, 0, le_rfl, maxWall_pos, neg_dayMicros_lt_zero, dayMicros_pos⟩ : DateTime)
  | requestId => ""
  | incrTtl _ => (.ok (1, -1) : Except PyErr (ℤ × ℤ))
  | expire _ _ => (.ok () : Except PyErr Unit)
  | get _ => (.ok none : Except PyErr (Option Text))
  | set _ _ _ => (.ok () : Except PyErr Unit)
  | isAllowed _ => true
  | recordSuccess _ => ()
  | recordFailure _ => ()
  | post _ => PostOutcome.noClient
  | record _ => ()
  | persist _ => ()

/-! ## Calls -/

namespace Call
open Program

abbrev perfCounter : Coroutine ℚ := perform Op.perfCounter
abbrev time : Coroutine ℚ≥0 := perform Op.time
abbrev now : Coroutine DateTime := perform Op.now
abbrev requestId : Coroutine String := perform Op.requestId
abbrev incrTtl (key : String) : Coroutine (Except PyErr (ℤ × ℤ)) := perform (Op.incrTtl key)
abbrev expire (key : String) (seconds : ℕ) : Coroutine (Except PyErr Unit) :=
  perform (Op.expire key seconds)
abbrev get (key : String) : Coroutine (Except PyErr (Option Text)) := perform (Op.get key)
abbrev set (key : String) (value : Text) (ex : ℕ) : Coroutine (Except PyErr Unit) :=
  perform (Op.set key value ex)
abbrev isAllowed (provider : String) : Coroutine Bool := perform (Op.isAllowed provider)
abbrev recordSuccess (provider : String) : Coroutine Unit := perform (Op.recordSuccess provider)
abbrev recordFailure (provider : String) : Coroutine Unit := perform (Op.recordFailure provider)
abbrev post (request : CompletionRequest) : Coroutine PostOutcome := perform (Op.post request)
abbrev record (metric : Metric) : Coroutine Unit := perform (Op.record metric)
abbrev persist (row : LogTask) : Coroutine Unit := perform (Op.persist row)

end Call
end InferenceControlPlane.Gateway
