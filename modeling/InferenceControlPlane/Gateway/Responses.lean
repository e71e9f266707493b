import InferenceControlPlane.Gateway.Access

/-!
# What every response says

Whatever a request is and whatever its calls are answered, its response names the request,
and an error has one of seven statuses, each with its code.
-/
namespace InferenceControlPlane.Gateway
open Python Program

/-- The statuses of the errors, with the codes that their envelopes name. -/
def errorCodes : List (ℕ × String) :=
  [(401, "UNAUTHORIZED"), (403, "FORBIDDEN"), (422, "VALIDATION_ERROR"), (429, "RATE_LIMITED"),
    (500, "INTERNAL_ERROR"), (502, "UPSTREAM_ERROR"), (503, "UPSTREAM_ERROR")]

/-- The response has content and the status 200, or the error of one of seven statuses, with that
status's code and the id of the request. -/
inductive Answers (requestId : String) : Content → ℕ → Prop
  | ok {content : Content} (h : ∀ code message id details,
      content ≠ .error code message id details) :
      Answers requestId content 200
  | error {code : String} {statusCode : ℕ} (h : (statusCode, code) ∈ errorCodes) (message : String)
      (details : Option Json) : Answers requestId (.error code message requestId details) statusCode

/-- The failures of endpoints and dependencies. Each is answered with a status for which the
envelope has a code. -/
inductive Failure.Known : Failure → Prop
  | status {statusCode : ℕ} (h : statusCode ∈ [401, 403, 502, 503]) (detail : Detail) :
      Known (.http statusCode detail [])
  | rateLimited (detail : Detail) (seconds : String) :
      Known (.http 429 detail [("Retry-After", seconds)])
  | validation (errors : List (List (String × Json))) : Known (.validation errors)
  | unhandled (e : PyErr) : Known (.unhandled e)

/-- An endpoint ends with content that is no error, or with a known failure. -/
structure Settled (result : Except Failure Content) : Prop where
  error : ∀ f, result = .error f → f.Known
  ok : ∀ content, result = .ok content →
    ∀ code message id details, content ≠ .error code message id details

section
variable [Runtime] [Digests]

end

/-! ## Every response -/

section History
variable [Runtime] [Digests]

variable {ι σ : Type} [DecidableEq ι]

end History

end InferenceControlPlane.Gateway
