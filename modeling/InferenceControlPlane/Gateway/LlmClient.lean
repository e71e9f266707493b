import InferenceControlPlane.Gateway.Router

/-!
# The provider client

A completion goes to an OpenAI-compatible endpoint behind the provider's circuit
breaker, which all requests of the process share. Retryable failures are attempted
again, and one breaker event closes the request.
-/
namespace InferenceControlPlane.Gateway
open Python Program

/-! ## Circuit breaker -/

inductive BreakerState where
  | closed
  | opened
  | halfOpen
  deriving DecidableEq, Repr

structure CircuitBreaker where
  failureThreshold : ℕ
  recoveryTimeout : ℚ
  failureCount : ℕ
  lastFailureTime : ℚ
  state : BreakerState
  deriving DecidableEq

namespace CircuitBreaker

def new (failureThreshold : ℕ) (recoveryTimeout : ℚ) : CircuitBreaker :=
  ⟨failureThreshold, recoveryTimeout, 0, 0, .closed⟩

/-- `CircuitBreaker()`. -/
def default : CircuitBreaker := new 5 30

def recordFailure (cb : CircuitBreaker) (time : ℚ) : CircuitBreaker :=
  { cb with
    failureCount := cb.failureCount + 1
    lastFailureTime := time
    state := if cb.failureThreshold ≤ cb.failureCount + 1 then .opened else cb.state }

def recordSuccess (cb : CircuitBreaker) : CircuitBreaker :=
  { cb with failureCount := 0, state := .closed }

def isAllowed (cb : CircuitBreaker) (time : ℚ) : Bool × CircuitBreaker :=
  match cb.state with
  | .closed => (true, cb)
  | .opened =>
    if cb.recoveryTimeout < time - cb.lastFailureTime then (true, { cb with state := .halfOpen })
    else (false, cb)
  | .halfOpen => (true, cb)

end CircuitBreaker

/-! ## Errors -/

/-- What a completion raises: the errors of the client, of which two kinds are retried, the
refusal of the breaker, and what escapes. `viaOpenRouter` wraps the error that it reports. -/
inductive LlmError where
  | client (message : String)
  | retryable (message : String)
  | timeout
  | circuitOpen (provider : String)
  | viaOpenRouter (cause : LlmError)
  | escaped (e : PyErr)

/-- `LLMClientRetryableError` and its subclass for timeouts: the errors after which another
attempt is made. -/
def LlmError.isRetryable : LlmError → Bool
  | retryable _ => true
  | timeout => true
  | _ => false

/-- `_coerce_retryable_error` for a status that is not a success: a server error may be tried
again, any other is final. -/
def statusError (status : ℕ) : LlmError :=
  if 500 ≤ status ∧ status < 600 then .retryable "LLM provider returned a server error."
  else .client ("LLM provider returned status " ++ toString status ++ ".")

/-- The exceptions that `_execute` reports as a payload it cannot parse. -/
def isParseError : PyErr → Bool
  | .valueError => true
  | .keyError => true
  | .typeError => true
  | .raised name => name == "IndexError"
  | _ => false

def unparsable : LlmError := .client "Unable to parse LLM response payload."

def parseFailure (e : PyErr) : LlmError := if isParseError e then unparsable else .escaped e

/-! ## Payloads -/

/-- `choices[0]` of a truthy value. -/
def firstItem : Json → Except PyErr Json
  | .arr (item :: _) => .ok item
  | .str s => .ok (.str (String.ofList (s.toList.take 1)))
  | .obj _ => .error .keyError
  | _ => .error .typeError

/-- `value.get(key, default)`. -/
def getKey (value : Json) (key : String) (dflt : Json) : Except PyErr Json :=
  match value with
  | .obj fields => .ok ((fields.lookup key).getD dflt)
  | _ => .error .attributeError

section
variable [Runtime]

/-- `_extract_message_text`: the content of the first choice's message, or the choice's text when
the message has no content. What is found is passed to `str`, whatever it is. -/
def extractMessageText (payload : Json) : Except LlmError String :=
  match getKey payload "choices" (.arr []) with
  | .error e => .error (parseFailure e)
  | .ok choices =>
    if choices.truthy = false then .error unparsable
    else
      match firstItem choices with
      | .error e => .error (parseFailure e)
      | .ok firstChoice =>
        match firstChoice with
        | .obj choice =>
          match (choice.lookup "message").getD (.obj []) with
          | .obj message =>
            match message.lookup "content" with
            | some content => (toStr content).mapError parseFailure
            | none => textOf choice
          | _ => textOf choice
        | _ => .error (parseFailure .attributeError)
where
  /-- `first_choice["text"]`, if it is there. -/
  textOf (choice : List (String × Json)) : Except LlmError String :=
    match choice.lookup "text" with
    | some text => (toStr text).mapError parseFailure
    | none => .error unparsable

/-- `_execute`, from the outcome of the post on: every way a post can end is a text or one of the
client's errors, of which only two kinds are retried. -/
def completionOf : PostOutcome → Except LlmError String
  | .noClient => .error unparsable
  | .timeout => .error .timeout
  | .requestError => .error (.retryable "LLM request failed due to a network error.")
  | .raised e => .error (parseFailure e)
  | .response status body =>
    if 200 ≤ status ∧ status < 300 then
      match body with
      | .json payload => extractMessageText payload
      | .failing e => .error (parseFailure e)
      | _ => .error unparsable
    else .error (statusError status)

/-! ## Requests -/

omit [Runtime] in
/-- The attempts of `_request_with_retry`, with those that are left: the breaker is told of the
success, or of the last failure only. -/
def attempts (provider : String) (request : Coroutine (Except LlmError String)) :
    ℕ → Coroutine (Except LlmError String)
  | 0 => return .error (.client "LLM request failed unexpectedly.")
  | left + 1 => do
    match ← request with
    | .ok text =>
      Call.recordSuccess provider
      return .ok text
    | .error e =>
      if e.isRetryable && left != 0 then attempts provider request left
      else
        Call.recordFailure provider
        return .error e

omit [Runtime] in
/-- `_request_with_retry`: the provider's breaker is asked once, before the first attempt; a
request that it refuses posts nothing. -/
def requestWithRetry (settings : Settings) (provider : String)
    (request : Coroutine (Except LlmError String)) : Coroutine (Except LlmError String) := do
  if ← Call.isAllowed provider then attempts provider request (settings.llmMaxRetries + 1)
  else return .error (.circuitOpen provider)

def endsWith (text tail : String) : Bool := tail.toList.isSuffixOf text.toList

/-- `text.rstrip('/')`. -/
def rstripSlash (text : String) : String :=
  String.ofList (text.toList.reverse.dropWhile (· == '/')).reverse

def completionsEndpoint (baseUrl : String) : String :=
  let endpoint := rstripSlash baseUrl
  if endsWith endpoint "/chat/completions" then endpoint
  else if endsWith endpoint "/v1" then endpoint ++ "/chat/completions"
  else endpoint ++ "/v1" ++ "/chat/completions"

/-- `_request_openai_compatible`: a request without a key fails before the breaker is asked;
otherwise the completion is posted with retries. -/
def requestOpenaiCompatible (settings : Settings) (provider prompt model baseUrl : String)
    (apiKey : Option String) : Coroutine (Except LlmError String) :=
  match truthyText apiKey with
  | none => return .error (.client "API Key is required for this provider.")
  | some apiKey =>
    let request : CompletionRequest := {
      endpoint := completionsEndpoint baseUrl
      authorization := if apiKey = "dummy-key" then none else some ("Bearer " ++ apiKey)
      model := model
      maxTokens := settings.llmMaxOutputTokens
      prompt := prompt }
    requestWithRetry settings provider do return completionOf (← Call.post request)

/-- `_simulated_response`: the model, the beginning of the prompt and a digest of it, in place of
a provider's answer. -/
def simulatedResponse [Digests] (prompt model : String) : String :=
  let preview := (strip prompt).toList.map fun c => if c = '\n' then ' ' else c
  "[" ++ model ++ "] simulated response :: " ++ String.ofList (preview.take 180) ++ " :: id=" ++
    String.ofList ((Digests.sha1 prompt).toList.take 8)

/-- `generate_completion`: the model and the text for a prompt and a model; the tier that it is
given is not read. -/
def generateCompletion [Digests] (settings : Settings) (prompt _modelTier : String)
    (modelOverride providerOverride providerApiKey : Option String) :
    Coroutine (Except LlmError (String × String)) :=
  if settings.llmMode = .simulated then
    let exactModel := (truthyText modelOverride).getD "simulated-model"
    return .ok (exactModel, simulatedResponse prompt exactModel)
  else
    let provider := (truthyText providerOverride).getD "openrouter"
    if provider = "openrouter" then do
      let exactModel := (truthyText modelOverride).getD settings.openrouterCheapModel
      match ← requestOpenaiCompatible settings provider prompt exactModel
          settings.openrouterBaseUrl ((truthyText providerApiKey).or settings.openrouterApiKey) with
      | .ok text => return .ok (exactModel, text)
      | .error e => return .error (.viaOpenRouter e)
    else
      return .error (.client ("Provider " ++ provider ++ " not implemented in fallback demo."))

end
end InferenceControlPlane.Gateway
