import InferenceControlPlane.Gateway.Cache
import InferenceControlPlane.Gateway.LlmClient
import InferenceControlPlane.Gateway.RateLimiter

/-!
# The generate endpoint

`handle_generate_request` admits, looks up, generates and accounts for a request. What
it stores and logs is queued as background tasks, which the framework runs once the
endpoint has returned, and drops when it raises.
-/
namespace InferenceControlPlane.Gateway
open Python Program

/-- A background task with its arguments. The framework runs the queued tasks after the response
has been sent, and not at all when the handler raises. -/
inductive Task where
  | setCachedResponse (prompt model : String) (entry : CachedResponse) (ttlSeconds : ℕ)
  | persistRequestLog (log : LogTask)

/-- What the statements of the handler's `try` block raise, by the `except` branch that takes
it. -/
inductive Raised where
  | http (e : HttpException)
  | other (e : LlmError)

/-! ## Admission -/

def tooManyRequests (detail : String) (retryAfterSeconds : ℤ) : HttpException :=
  ⟨429, detail, some (toString retryAfterSeconds)⟩

def badGateway : HttpException := ⟨502, "Failed to generate response from upstream model.", none⟩

/-- `_enforce_rate_limits`. The two checks are gathered; the replies that they get are
arbitrary, so they are made one after the other here. -/
def enforceRateLimits (hasRedis : Bool) (settings : Settings) (auth : AuthContext)
    (userId : String) : Coroutine (Except HttpException Unit) := do
  let keyResult ← checkRateLimit hasRedis .apiKey auth.apiKeyHash auth.rateLimitPerMinute
    settings.rateLimitWindowSeconds
  let userResult ← checkRateLimit hasRedis .user (auth.tenantId ++ ":" ++ userId)
    settings.userRateLimitPerMinute settings.rateLimitWindowSeconds
  if keyResult.allowed = false then
    Call.record (.rateLimitRejection .apiKey)
    return .error (tooManyRequests "API key rate limit exceeded." keyResult.retryAfterSeconds)
  else if userResult.allowed = false then
    Call.record (.rateLimitRejection .user)
    return .error (tooManyRequests "User rate limit exceeded." userResult.retryAfterSeconds)
  else return .ok ()

/-! ## The handler -/

/-- `_estimate_cost`: the rate per thousand tokens is the cheap one for the cheap model's name and
the premium one for every other name. -/
def estimateCost (model : String) (tokens : ℤ) (settings : Settings) : PyFloat :=
  let rate := if model = settings.cheapModelName then settings.cheapModelCostPer1kTokens
    else settings.premiumModelCostPer1kTokens
  rate.scale ((max tokens 0 : ℤ) / 1000)

/-- `cache_model_key`: the model override if there is one, else the provider override (or
"default") and the tier, joined by a colon. Failed requests are logged under it too. -/
def cacheModelKey (route : RouteDecision) : String :=
  (truthyText route.modelOverride).getD
    ((truthyText route.providerOverride).getD "default" ++ ":" ++ route.modelTier)

/-- `_queue_request_log`: the background task that stores the row of a request once its response
has been sent. When the handler raises, no queued task runs. -/
def requestLog (payload : GenerateRequest) (auth : AuthContext) (prompt response : String)
    (modelUsed : String) (latencyMs : ℚ) (tokens : ℤ) (cost : PyFloat) (cacheHit : Bool)
    (status : Status) (errorMessage : Option String) : Task :=
  .persistRequestLog ⟨auth.tenantId, payload.userId, auth.apiKeyHash, prompt, response, modelUsed,
    latencyMs, tokens, cost, cacheHit, status, errorMessage⟩

section
variable [Runtime] [Digests]

/-- The branch of a cache hit: the hit is recorded and logged at the price of the entry, and
nothing is added to the spend. -/
def respondCached (payload : GenerateRequest) (auth : AuthContext) (started : ℚ)
    (requestId : String) (cached : CachedResponse) : Coroutine (GenerateResponse × List Task) := do
  let latencyMs := ((← Call.perfCounter) - started) * 1000
  let timestamp ← Call.now
  Call.record (.cacheResult true)
  Call.record (.request cached.modelUsed .success latencyMs true)
  return ({
      requestId := requestId
      modelUsed := cached.modelUsed
      response := cached.response
      cached := true
      latencyMs := latencyMs
      tokens := cached.tokens
      cost := cached.cost
      timestamp := timestamp },
    [requestLog payload auth (redactPii payload.prompt) cached.response cached.modelUsed latencyMs
      cached.tokens cached.cost true .success none])

/-- The tokens of a prompt and its completion. -/
def totalTokens (payload : GenerateRequest) (text : String) : ℕ :=
  estimateTokens (redactPii payload.prompt ++ " " ++ text)

/-- The branch of a completion: usage and cost are recorded, the answer is cached, and its log is
queued. -/
def respondGenerated (settings : Settings) (payload : GenerateRequest) (auth : AuthContext)
    (started : ℚ) (requestId modelUsed text : String) :
    Coroutine (GenerateResponse × List Task) := do
  let safePrompt := redactPii payload.prompt
  let tokens : ℤ := totalTokens payload text
  let cost := estimateCost modelUsed tokens settings
  let latencyMs := ((← Call.perfCounter) - started) * 1000
  let timestamp ← Call.now
  Call.record (.modelUsage modelUsed)
  Call.record (.cost modelUsed (cost.max (.finite 0)))
  Call.record (.request modelUsed .success latencyMs false)
  return ({
      requestId := requestId
      modelUsed := modelUsed
      response := text
      cached := false
      latencyMs := latencyMs
      tokens := tokens
      cost := cost
      timestamp := timestamp },
    [.setCachedResponse safePrompt (cacheModelKey (chooseModel payload settings))
        ⟨text, modelUsed, tokens, cost⟩ settings.cacheTtlSeconds,
      requestLog payload auth safePrompt text modelUsed latencyMs tokens cost false .success none])

/-- The completion for the route of a request, on the model and through the provider that were
chosen for it. -/
def completeFor (settings : Settings) (payload : GenerateRequest) :
    Coroutine (Except LlmError (String × String)) :=
  let route := chooseModel payload settings
  generateCompletion settings (redactPii payload.prompt) route.modelTier route.modelOverride
    route.providerOverride payload.providerApiKey

/-- The `try` block of the handler: the rate limits, the lookup, and then the cached or the
generated answer. -/
def serve (hasRedis : Bool) (settings : Settings) (payload : GenerateRequest) (auth : AuthContext)
    (started : ℚ) (requestId : String) :
    Coroutine (Except Raised (GenerateResponse × List Task)) := do
  match ← enforceRateLimits hasRedis settings auth payload.userId with
  | .error e => return .error (.http e)
  | .ok () =>
    match ← getCachedResponse hasRedis (redactPii payload.prompt)
        (cacheModelKey (chooseModel payload settings)) with
    | some cached => return .ok (← respondCached payload auth started requestId cached)
    | none =>
      Call.record (.cacheResult false)
      match ← completeFor settings payload with
      | .error e => return .error (.other e)
      | .ok (modelUsed, text) =>
        return .ok (← respondGenerated settings payload auth started requestId modelUsed text)

/-- What both `except` branches do before they raise: the error is counted and its log queued as a
background task. -/
def accountFailure (settings : Settings) (payload : GenerateRequest) (auth : AuthContext)
    (started : ℚ) (errorMessage : String) : Coroutine (List Task) := do
  let modelKey := cacheModelKey (chooseModel payload settings)
  let latencyMs := ((← Call.perfCounter) - started) * 1000
  Call.record (.request modelKey .error latencyMs false)
  return [requestLog payload auth (redactPii payload.prompt) "" modelKey latencyMs 0 (.finite 0)
    false .error (some errorMessage)]

/-- `handle_generate_request`: what it returns or raises, and the tasks that it queued. -/
def handleGenerateRequest (hasRedis : Bool) (settings : Settings) (payload : GenerateRequest)
    (auth : AuthContext) : Coroutine (Except HttpException GenerateResponse × List Task) := do
  let started ← Call.perfCounter
  let requestId ← Call.requestId
  match ← serve hasRedis settings payload auth started requestId with
  | .ok (response, tasks) => return (.ok response, tasks)
  | .error (.http e) =>
    return (.error e, ← accountFailure settings payload auth started e.detail)
  | .error (.other _) =>
    return (.error badGateway,
      ← accountFailure settings payload auth started "Internal error during generation.")

/-! ## The endpoint -/

omit [Runtime] in
def Task.run (hasRedis : Bool) : Task → Coroutine Unit
  | .setCachedResponse prompt model entry ttlSeconds =>
    Gateway.setCachedResponse hasRedis prompt model entry ttlSeconds
  | .persistRequestLog log => Call.persist log.row

omit [Runtime] in
def runTasks (hasRedis : Bool) : List Task → Coroutine Unit
  | [] => return
  | task :: tasks => do
    task.run hasRedis
    runTasks hasRedis tasks

/-- `generate`, with the tasks that the framework runs after it. They run when a response is
returned, and are dropped when it raises. -/
def generate (hasRedis : Bool) (settings : Settings) (payload : GenerateRequest)
    (auth : AuthContext) : Coroutine (Except HttpException GenerateResponse) := do
  match ← handleGenerateRequest hasRedis settings payload auth with
  | (.ok response, tasks) =>
    runTasks hasRedis tasks
    return .ok response
  | (.error e, _) => return .error e

end
end InferenceControlPlane.Gateway
