import InferenceControlPlane.Gateway.Schemas
import InferenceControlPlane.Python.Regex

/-!
# Routing and redaction

`choose_model` turns a payload into a route decision, `redact_pii` its prompt into
the prompt that is sent, cached and logged.
-/
namespace InferenceControlPlane.Gateway
open Python

structure RouteDecision where
  modelTier : String
  estimatedTokens : ℕ
  modelOverride : Option String
  providerOverride : Option String
  deriving DecidableEq

/-- `max(1, math.ceil(len(text) / 4))`: a quarter of the characters, and never nothing. -/
def estimateTokens (text : String) : ℕ := max 1 ((text.length + 3) / 4)

/-- An optional text that is truthy. -/
def truthyText (text : Option String) : Option String := text.filter (· != "")

/-- `choose_model`: a model override settles the route; else the tier is premium for a high
priority or a long prompt, and cheap for the others. The provider override is passed on. -/
def chooseModel (request : GenerateRequest) (settings : Settings) : RouteDecision :=
  let estimatedTokens := estimateTokens request.prompt
  let providerOverride := (truthyText request.providerOverride).map strip
  match truthyText request.modelOverride with
  | some model => ⟨"override", estimatedTokens, some (strip model), providerOverride⟩
  | none =>
    ⟨if request.priority = .high ∨ settings.routerTokenThreshold < estimatedTokens then "premium"
      else "cheap", estimatedTokens, none, providerOverride⟩

/-! ## Redaction -/

def isAsciiLetter (c : Char) : Bool := c.toNat < 128 && c.isAlpha

def isAsciiDigit (c : Char) : Bool := c.isDigit

section
variable [Runtime]

open Regex in
/-- `[a-zA-Z0-9._%+-]+@[a-zA-Z0-9.-]+\.[a-zA-Z]{2,}` -/
def emailPattern : Regex :=
  concat [
    plus (char fun c => isAsciiLetter c || isAsciiDigit c || c ∈ ['.', '_', '%', '+', '-']),
    lit "@",
    plus (char fun c => isAsciiLetter c || isAsciiDigit c || c ∈ ['.', '-']),
    lit ".",
    seq (times (char isAsciiLetter) 2) (star (char isAsciiLetter))]

open Regex in
/-- `\b(?:\+\d{1,2}\s)?\(?\d{3}\)?[\s.-]?\d{3}[\s.-]?\d{4}\b` -/
def phonePattern : Regex :=
  let digit := char Runtime.isDecimal
  let separator := opt (char fun c => isSpace c || c == '.' || c == '-')
  concat [
    boundary Runtime.isWord,
    opt (concat [lit "+", seq digit (upTo digit 1), char isSpace]),
    opt (lit "("), times digit 3, opt (lit ")"), separator,
    times digit 3, separator, times digit 4,
    boundary Runtime.isWord]

/-- `redact_pii`: first the email addresses and then the telephone numbers of a text are replaced
by their labels. -/
def redactPii (text : String) : String :=
  phonePattern.sub "[REDACTED_PHONE]" (emailPattern.sub "[REDACTED_EMAIL]" text)

end
end InferenceControlPlane.Gateway
