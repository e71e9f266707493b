import InferenceControlPlane.Inclusion
import InferenceControlPlane.Gateway.Authentication
import InferenceControlPlane.Gateway.Inference
import InferenceControlPlane.Python.Dict

/-!
# The HTTP service

A request names an endpoint and may carry a request id and an API key. The dependencies of
an endpoint authenticate the key before the endpoint runs; what an endpoint or a dependency
raises becomes an error response; and the outermost middleware marks every response with
the id of its request.
-/
namespace InferenceControlPlane.Gateway
open Python Program

/-! ## The calls of a service -/

/-- A call of the service: for a fresh id, of authentication, of the generate endpoint, for
the rows of a report, of the clock, or of the health and metrics endpoints. -/
inductive ServiceOp where
  | uuid
  | auth (op : AuthOp)
  | serve (op : Op)
  | session
  | clock
  | selectOne
  | pingRedis
  | generateLatest

@[reducible] def ServiceOp.Reply : ServiceOp → Type
  | uuid => String
  | auth op => op.Reply
  | serve op => op.Reply
  | session => Session
  | clock => DateTime
  | selectOne => Except PyErr Unit
  | pingRedis => Bool
  | generateLatest => String

abbrev ServiceCoroutine (α : Type) : Type := Program ServiceOp ServiceOp.Reply α

def authCalls : Inclusion AuthOp AuthOp.Reply ServiceOp ServiceOp.Reply where
  toOp := .auth
  reply _ r := r

def serveCalls : Inclusion Op Op.Reply ServiceOp ServiceOp.Reply where
  toOp := .serve
  reply _ r := r

/-! ## Requests and responses -/

/-- What the framework makes of a request's parameters: text that is no JSON, input that
fails its schema, or the validated value. An error is the dictionary that `errors()` has. -/
inductive Input (α : Type) where
  | malformed (errors : List (List (String × Json)))
  | invalid (errors : List (List (String × Json)))
  | valid (a : α)

inductive Endpoint where
  | generate (payload : Input GenerateRequest)
  | usageSummary (query : Input UserQuery)
  | usageLogs (query : Input (UserQuery × Limit))
  | dashboardMetrics
  | dashboardActivity
  | healthLive
  | healthReady
  | metrics

/-- A request to one of the endpoints, with the two headers that the service reads: `x-request-id`
and `x-api-key`. -/
structure HttpRequest where
  requestId : Option String
  apiKey : Option String
  endpoint : Endpoint

/-- The content of a response. -/
inductive Content where
  | generated (response : GenerateResponse)
  | usageSummary (response : UsageSummaryResponse)
  | usageLogs (response : UsageLogsResponse)
  | dashboardMetrics (response : List DashboardMetric)
  | dashboardActivity (response : List String)
  | status (text : String)
  | exposition (text : String)
  | error (code message requestId : String) (details : Option Json)

structure HttpResponse where
  statusCode : ℕ
  headers : Dict String String
  content : Content

/-! ## Errors -/

/-- The `detail` of an exception. -/
inductive Detail where
  | text (s : String)
  | fields (fields : List (String × Json))

/-- What an endpoint or a dependency raises, by the exception handler that answers it. -/
inductive Failure where
  | http (statusCode : ℕ) (detail : Detail) (headers : List (String × String))
  | validation (errors : List (List (String × Json)))
  | unhandled (e : PyErr)

def HttpException.failure (e : HttpException) : Failure :=
  .http e.statusCode (.text e.detail) (e.retryAfter.toList.map fun text => ("Retry-After", text))

def EndpointError.failure : EndpointError → Failure
  | .http e => e.failure
  | .escaped e => .unhandled e

/-- `_normalize_detail`: an exception's detail is a text, which is the message, or a mapping,
which is passed on and may hold the message. -/
def normalizeDetail : Detail → String × Option Json
  | .text s => (s, none)
  | .fields fields =>
    match fields.lookup "message" with
    | some (.str message) => (message, some (.obj fields))
    | _ => ("Request failed.", some (.obj fields))

/-- The code of a status. -/
def errorCode (statusCode : ℕ) : String :=
  if statusCode = 401 then "UNAUTHORIZED"
  else if statusCode = 403 then "FORBIDDEN"
  else if statusCode = 404 then "NOT_FOUND"
  else if statusCode = 422 then "VALIDATION_ERROR"
  else if statusCode = 429 then "RATE_LIMITED"
  else if 500 ≤ statusCode ∧ statusCode < 600 then "UPSTREAM_ERROR"
  else "HTTP_ERROR"

/-- What the response to invalid input says of an error. -/
def redactError (error : List (String × Json)) : Json :=
  .obj [("loc", (error.lookup "loc").getD .null), ("msg", .str "Invalid input."),
    ("type", (error.lookup "type").getD .null)]

/-- `_error_response`: the envelope of every error: a code for its status, a message, and the id
of the request. -/
def errorResponse (statusCode : ℕ) (code message requestId : String) (details : Option Json) :
    HttpResponse :=
  ⟨statusCode, .empty, .error code message requestId details⟩

def HttpResponse.withHeader (response : HttpResponse) (name value : String) : HttpResponse :=
  { response with headers := response.headers.set name value }

/-- The three exception handlers: of HTTP exceptions, of invalid input, and of whatever else is
raised. -/
def handleFailure (requestId : String) : Failure → HttpResponse
  | .http statusCode detail headers =>
    let (message, details) := normalizeDetail detail
    let response := headers.foldl (fun response e => response.withHeader e.1 e.2)
      (errorResponse statusCode (errorCode statusCode) message requestId details)
    response.withHeader "x-request-id" requestId
  | .validation errors =>
    (errorResponse 422 "VALIDATION_ERROR" "Request validation failed." requestId
      (some (.arr (errors.map redactError)))).withHeader "x-request-id" requestId
  | .unhandled _ =>
    (errorResponse 500 "INTERNAL_ERROR" "An internal error occurred." requestId
      none).withHeader "x-request-id" requestId

/-! ## Endpoints -/

/-- The settings of a service, and whether it has a Redis client. They do not change while it
serves. -/
structure Service where
  settings : Settings
  authSettings : AuthSettings
  hasRedis : Bool

/-- The text that a value is; the gateway itself caches texts only. -/
def textOrEmpty : Json → String
  | .str s => s
  | _ => ""

/-- The context as the endpoints read it. The cache may hold any JSON, but what the gateway wrote
there are texts. -/
def LoadedContext.typed (context : LoadedContext) : AuthContext :=
  ⟨textOrEmpty context.tenantId, context.apiKeyHash, context.rateLimitPerMinute,
    textOrEmpty context.role⟩

/-- `extract_api_key`: a missing or empty header is a 401 before anything is looked up. -/
def extractApiKey : Option String → Except Failure String
  | none => .error (.http 401 (.text "Missing API key. Provide x-api-key header.") [])
  | some apiKey =>
    if apiKey = "" then .error (.http 401 (.text "Missing API key. Provide x-api-key header.") [])
    else .ok apiKey

def notReady (database redis : Bool) : Failure :=
  .http 503 (.fields [("status", .str "not-ready"), ("database", .bool database),
    ("redis", .bool redis)]) []

/-- `health_ready`: the database must answer a select, and Redis a ping; otherwise the service is
not ready, which is a 503 that says which of them is missing. -/
def healthReady : ServiceCoroutine (Except Failure Content) := do
  match ← perform ServiceOp.selectOne with
  | .error _ => return .error (notReady false false)
  | .ok () =>
    let redisReady ← perform ServiceOp.pingRedis
    if redisReady then return .ok (.status "ready")
    else return .error (notReady true false)

/-- A report for administrators, from the rows that a session shows: the guard first, then the
figures. -/
def report (auth : AuthContext) (name : String)
    (read : Session → Except EndpointError Content) :
      ServiceCoroutine (Except Failure Content) := do
  match requireAdmin auth name (.ok ()) with
  | .error e => return .error e.failure
  | .ok () => return (read (← perform ServiceOp.session)).mapError EndpointError.failure

section
variable [Runtime] [Digests]

/-- `get_auth_context`: the key is taken from its header and validated, and the body of the
endpoint gets the context that it stands for. -/
def getAuthContext (service : Service) (apiKey : Option String) :
    ServiceCoroutine (Except Failure AuthContext) := do
  match extractApiKey apiKey with
  | .error f => return .error f
  | .ok apiKey =>
    match ← (validateApiKey apiKey service.authSettings service.hasRedis).within authCalls with
    | .error e => return .error e.failure
    | .ok context => return .ok context.typed

/-- An endpoint behind authentication. The framework parses the body first, then solves the
dependencies, and validates the parameters last. -/
def guarded {α : Type} (service : Service) (apiKey : Option String) (input : Input α)
    (body : AuthContext → α → ServiceCoroutine (Except Failure Content)) :
    ServiceCoroutine (Except Failure Content) :=
  match input with
  | .malformed errors => return .error (.validation errors)
  | .invalid errors => do
    match ← getAuthContext service apiKey with
    | .error f => return .error f
    | .ok _ => return .error (.validation errors)
  | .valid a => do
    match ← getAuthContext service apiKey with
    | .error f => return .error f
    | .ok auth => body auth a

/-- `generate`: the handler, and the background tasks that it queued, which run only when it has
returned a response. -/
def generateEndpoint (service : Service) (auth : AuthContext) (payload : GenerateRequest) :
    ServiceCoroutine (Except Failure Content) := do
  match ← (generate service.hasRedis service.settings payload auth).within serveCalls with
  | .error e => return .error e.failure
  | .ok response => return .ok (.generated response)

/-- `dashboard_metrics`, at the time of its clock. -/
def dashboardMetricsEndpoint (auth : AuthContext) : ServiceCoroutine (Except Failure Content) := do
  match requireAdmin auth "dashboard metrics" (.ok ()) with
  | .error e => return .error e.failure
  | .ok () =>
    let now ← perform ServiceOp.clock
    report auth "dashboard metrics" fun session =>
      (dashboardMetrics auth now session).map .dashboardMetrics

/-- The endpoint of a request, with its own guard and handler. -/
def HttpRequest.call (service : Service) (request : HttpRequest) :
    ServiceCoroutine (Except Failure Content) :=
  match request.endpoint with
  | .generate payload => guarded service request.apiKey payload (generateEndpoint service)
  | .usageSummary query => guarded service request.apiKey query fun auth query =>
    report auth "usage summary" fun session => (usageSummary auth query session).map .usageSummary
  | .usageLogs query => guarded service request.apiKey query fun auth query =>
    report auth "usage logs" fun session =>
      (usageLogs auth query.1 query.2 session).map .usageLogs
  | .dashboardMetrics => guarded service request.apiKey (.valid ()) fun auth _ =>
    dashboardMetricsEndpoint auth
  | .dashboardActivity => guarded service request.apiKey (.valid ()) fun auth _ =>
    report auth "dashboard activity" fun session =>
      (dashboardActivity auth session).map .dashboardActivity
  | .healthLive => return .ok (.status "ok")
  | .healthReady => healthReady
  | .metrics => do return .ok (.exposition (← perform ServiceOp.generateLatest))

/-! ## The middleware -/

omit [Runtime] [Digests] in
/-- `request.headers.get("x-request-id") or str(uuid.uuid4())`. -/
def HttpRequest.identify (request : HttpRequest) : ServiceCoroutine String :=
  match request.requestId with
  | some id => if id = "" then perform ServiceOp.uuid else return id
  | none => perform ServiceOp.uuid

omit [Runtime] [Digests] in
/-- The response for what the endpoint returned or raised. What nothing handles passes the
middleware, and is answered outside of it. -/
def answer (requestId : String) : Except Failure Content → HttpResponse
  | .ok content => (HttpResponse.mk 200 .empty content).withHeader "x-request-id" requestId
  | .error (.unhandled e) => handleFailure requestId (.unhandled e)
  | .error f => (handleFailure requestId f).withHeader "x-request-id" requestId

/-- `RequestIdMiddleware.dispatch` around the endpoint and the handlers of its exceptions. -/
def respond (service : Service) (request : HttpRequest) : ServiceCoroutine HttpResponse := do
  let requestId ← request.identify
  return answer requestId (← request.call service)

end
end InferenceControlPlane.Gateway
