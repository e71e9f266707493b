import InferenceControlPlane.Gateway.Ledger

/-!
# The phases of a request

A handled request is denied, found in the cache, or completed. Each end is spelled out
once: what is returned or raised, and what is queued.
-/
namespace InferenceControlPlane.Gateway
open Python Program

variable [Runtime] [Digests]

/-- The `try` block up to the completion: the request is denied, or its cache entry is
read. -/
def lookFor (hasRedis : Bool) (settings : Settings) (payload : GenerateRequest)
    (auth : AuthContext) : Coroutine (Except HttpException (Option CachedResponse)) := do
  match ← enforceRateLimits hasRedis settings auth payload.userId with
  | .error e => return .error e
  | .ok () =>
    match ← getCachedResponse hasRedis (redactPii payload.prompt)
        (cacheModelKey (chooseModel payload settings)) with
    | some cached => return .ok (some cached)
    | none =>
      Call.record (.cacheResult false)
      return .ok none

/-- The `try` block from there on: the answer for what was found, or the completion that takes its
place. -/
def answerFor (settings : Settings) (payload : GenerateRequest) (auth : AuthContext) (started : ℚ)
    (requestId : String) : Except HttpException (Option CachedResponse) →
      Coroutine (Except Raised (GenerateResponse × List Task))
  | .error e => return .error (.http e)
  | .ok (some cached) => do
    return .ok (← respondCached payload auth started requestId cached)
  | .ok none => do
    match ← completeFor settings payload with
    | .error e => return .error (.other e)
    | .ok (modelUsed, text) =>
      return .ok (← respondGenerated settings payload auth started requestId modelUsed text)

theorem serve_eq (hasRedis : Bool) (settings : Settings) (payload : GenerateRequest)
    (auth : AuthContext) (started : ℚ) (requestId : String) :
    serve hasRedis settings payload auth started requestId =
      lookFor hasRedis settings payload auth >>=
        answerFor settings payload auth started requestId := by
  unfold serve lookFor
  rw [Program.bind_assoc]
  congr 1
  funext admitted
  cases admitted with
  | error e => rfl
  | ok _ =>
    dsimp only
    rw [Program.bind_assoc]
    congr 1
    funext cached
    cases cached with
    | some cached => rfl
    | none => rfl

lemma lookFor_ensures (hasRedis : Bool) (settings : Settings) (payload : GenerateRequest)
    (auth : AuthContext) : (lookFor hasRedis settings payload auth).Ensures fun _ looked =>
      ∀ e, looked = .error e → e.statusCode = 429 := by
  unfold lookFor
  refine (enforceRateLimits_ensures _ _ _ _).bind fun admitting admitted hadmission => ?_
  cases admitted with
  | error denied =>
    rintro e ⟨⟩
    exact hadmission.statusCode _ rfl
  | ok _ =>
    refine (getCachedResponse_always _ _ _).ensures.bind fun looking cached _ => ?_
    cases cached with
    | some cached => rintro e ⟨⟩
    | none => rintro _ e ⟨⟩

/-! ## Runs -/

/-- The log of a request that is not answered, which a background task would store if it were
run. -/
def failureLog (settings : Settings) (payload : GenerateRequest) (auth : AuthContext)
    (latencyMs : ℚ) (errorMessage : String) : Task :=
  requestLog payload auth (redactPii payload.prompt) ""
    (cacheModelKey (chooseModel payload settings)) latencyMs 0 (.finite 0) false .error
    (some errorMessage)

section World
variable {σ : Type} (w : World Op Op.Reply σ) (s : σ)

/-- The surroundings when the handler has its clock and its identifier. -/
def afterEntry : σ := (w .requestId (w .perfCounter s).2).2

variable (hasRedis : Bool) (settings : Settings) (payload : GenerateRequest) (auth : AuthContext)

/-- What the request finds in the cache, as a function of the surroundings in which it looks. -/
def lookedUp : Except HttpException (Option CachedResponse) :=
  (lookFor hasRedis settings payload auth).result w (afterEntry w s)

/-- The surroundings when its completion begins. -/
def afterLookup : σ := (lookFor hasRedis settings payload auth).final w (afterEntry w s)

/-- What the completion on its route comes to, when it finds nothing: the text, or the error that
ends the request. -/
def routedCompletion : Except LlmError (String × String) :=
  (completeFor settings payload).result w (afterLookup w s hasRedis settings payload auth)

variable {hasRedis settings payload auth}

/-- The result of the handler is that of its `try` block, and its log where that raises. -/
lemma handled_of_served {result : Except Raised (GenerateResponse × List Task)}
    (h : (answerFor settings payload auth (w .perfCounter s).1
      (w .requestId (w .perfCounter s).2).1 (lookedUp w s hasRedis settings payload auth)).result w
        (afterLookup w s hasRedis settings payload auth) = result) :
    (∀ answer, result = .ok answer →
      (handleGenerateRequest hasRedis settings payload auth).result w s =
        (.ok answer.1, answer.2)) ∧
    ∀ raised, result = .error raised → ∃ latencyMs,
      (handleGenerateRequest hasRedis settings payload auth).result w s =
        (.error raised.exception, [failureLog settings payload auth latencyMs raised.message]) := by
  have hserve : (serve hasRedis settings payload auth (w .perfCounter s).1
      (w .requestId (w .perfCounter s).2).1).result w (w .requestId (w .perfCounter s).2).2 =
        result := by
    rw [serve_eq, result_bind]
    exact h
  unfold handleGenerateRequest
  simp only [perform_bind, result_call, result_bind]
  rw [hserve]
  cases result with
  | ok answer =>
    refine ⟨?_, by rintro _ ⟨⟩⟩
    rintro _ ⟨⟩
    rfl
  | error raised =>
    refine ⟨by rintro _ ⟨⟩, ?_⟩
    rintro _ ⟨⟩
    cases raised with
    | http e => exact ⟨_, rfl⟩
    | other e => exact ⟨_, rfl⟩

theorem handled_of_denied {e : HttpException}
    (h : lookedUp w s hasRedis settings payload auth = .error e) :
    e.statusCode = 429 ∧ ∃ latencyMs,
      (handleGenerateRequest hasRedis settings payload auth).result w s =
        (.error e, [failureLog settings payload auth latencyMs e.detail]) := by
  refine ⟨(lookFor_ensures hasRedis settings payload auth).run w _ e h, ?_⟩
  apply (handled_of_served w s rfl).2 (.http e)
  rw [h]
  rfl

theorem handled_of_hit {cached : CachedResponse}
    (h : lookedUp w s hasRedis settings payload auth = .ok (some cached)) :
    ∃ response latencyMs, (handleGenerateRequest hasRedis settings payload auth).result w s =
      (.ok response, [requestLog payload auth (redactPii payload.prompt) cached.response
        cached.modelUsed latencyMs cached.tokens cached.cost true .success none]) := by
  have hserved := (handled_of_served w s rfl).1 ((respondCached payload auth (w .perfCounter s).1
    (w .requestId (w .perfCounter s).2).1 cached).result w
      (afterLookup w s hasRedis settings payload auth)) (by
    rw [h]
    rfl)
  exact ⟨_, _, hserved⟩

theorem handled_of_failed {e : LlmError}
    (h : lookedUp w s hasRedis settings payload auth = .ok none)
    (hrouted : routedCompletion w s hasRedis settings payload auth = .error e) :
    ∃ latencyMs, (handleGenerateRequest hasRedis settings payload auth).result w s =
      (.error badGateway, [failureLog settings payload auth latencyMs
        "Internal error during generation."]) := by
  apply (handled_of_served w s rfl).2 (.other e)
  rw [routedCompletion] at hrouted
  rw [h, answerFor, result_bind, hrouted]
  rfl

theorem handled_of_completed {modelUsed text : String}
    (h : lookedUp w s hasRedis settings payload auth = .ok none)
    (hrouted : routedCompletion w s hasRedis settings payload auth = .ok (modelUsed, text)) :
    let tokens : ℤ := totalTokens payload text
    let cost := estimateCost modelUsed tokens settings
    ∃ response latencyMs, (handleGenerateRequest hasRedis settings payload auth).result w s =
      (.ok response, [.setCachedResponse (redactPii payload.prompt)
          (cacheModelKey (chooseModel payload settings)) ⟨text, modelUsed, tokens, cost⟩
          settings.cacheTtlSeconds,
        requestLog payload auth (redactPii payload.prompt) text modelUsed latencyMs tokens cost
          false .success none]) := by
  intro tokens cost
  rw [routedCompletion] at hrouted
  have hserved := (handled_of_served w s rfl).1 ((respondGenerated settings payload auth
    (w .perfCounter s).1 (w .requestId (w .perfCounter s).2).1 modelUsed text).result w
      ((completeFor settings payload).final w
        (afterLookup w s hasRedis settings payload auth))) (by
    rw [h, answerFor, result_bind, hrouted]
    rfl)
  exact ⟨_, _, hserved⟩

end World
end InferenceControlPlane.Gateway
