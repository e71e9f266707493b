import InferenceControlPlane.Python.Dict
import InferenceControlPlane.Python.Regex
import InferenceControlPlane.Sli.Config
import InferenceControlPlane.Sli.Models

/-!
# Normalization

Labels are mapped into the governed vocabularies. Unknown values fold to `other`,
a blank team to `unattributed`, so the aggregation only keys on bounded values.
-/
namespace InferenceControlPlane.Sli.Normalize
open Python

variable [Runtime]

/-! ## Model family -/

/-- The lower-case character that `re.I` compares with: ASCII, and the four
non-ASCII characters that fold to an ASCII letter. -/
def foldAscii (c : Char) : Char :=
  if c.toNat = 0x17f then 's'
  else if c.toNat = 0x212a then 'k'
  else if c.toNat = 0x130 ∨ c.toNat = 0x131 then 'i'
  else c.toLower

/-- A literal under `re.I`. -/
def litIgnoreCase (text : String) : Regex :=
  Regex.concat (text.toList.map fun a => .char fun c => foldAscii c == a)

/-- `_MODEL_RULES` without the two families that are matched explicitly. -/
def modelRules : List (Regex × String) :=
  [(litIgnoreCase "claude-sonnet", "claude-sonnet"),
   (litIgnoreCase "claude-haiku", "claude-haiku"),
   (litIgnoreCase "claude-opus", "claude-opus"),
   (litIgnoreCase "gpt-4o", "gpt-4o")]

/-- `gpt-5(?:[.-]\d+)*`. -/
def gpt5Version : Regex :=
  .seq (Regex.lit "gpt-5")
    (.star (.seq (.char fun c => c == '.' || c == '-') (Regex.plus (.char Runtime.isDecimal))))

/-- `gpt-5(?:[.-]\d+)*(?:[-.].*mini)$`. -/
def gpt5Mini : Regex :=
  Regex.concat [gpt5Version, .char fun c => c == '.' || c == '-', .star (.char (· != '\n')),
    Regex.lit "mini", .eol]

def modelFamily (providedModel : String) : String :=
  let value := Runtime.lower providedModel
  let claude := isSubtext "claude" value
  if claude && isSubtext "sonnet" value then "claude-sonnet"
  else if claude && isSubtext "haiku" value then "claude-haiku"
  else if claude && isSubtext "opus" value then "claude-opus"
  else if gpt5Mini.isMatch value then "gpt-5-mini"
  else if (Regex.seq gpt5Version .eol).isMatch value then "gpt-5"
  else ((modelRules.find? fun rule => rule.1.isMatch providedModel).map Prod.snd).getD other

/-! ## Error category -/

def errorTypeMap : List (String × String) :=
  [("throttlingexception", "throttling"), ("ratelimiterror", "throttling"),
   ("ratelimitexception", "throttling"), ("timeouterror", "timeout"),
   ("timeoutexception", "timeout"), ("serviceunavailable", "provider_error"),
   ("serviceunavailableexception", "provider_error"),
   ("internalservererror", "provider_error"), ("modelerrorexception", "provider_error"),
   ("authenticationerror", "auth"), ("accessdeniedexception", "auth"),
   ("badrequesterror", "invalid_request"), ("validationexception", "invalid_request"),
   ("contentpolicyviolation", "content_filter")]

def errorCategory (obs : Observation) : Option String :=
  if obs.isError then
    match obs.error with
    | some errorType =>
      if errorType = "" then some unknown
      else some ((errorTypeMap.lookup (Runtime.lower errorType)).getD unknown)
    | none => some unknown
  else none

/-! ## Environment, team, route and region -/

def envMap : List (String × String) :=
  [("production", "prod"), ("prod", "prod"), ("staging", "staging"), ("stage", "staging"),
   ("dev", "dev"), ("development", "dev")]

def env (obs : Observation) : String := (envMap.lookup (Runtime.lower obs.envRaw)).getD other

/-- `{value.lower(): value for value in values}`: the spelling that a known value is reported
in. -/
def canonical (values : List String) : Dict String String :=
  Dict.ofList (values.map fun value => (Runtime.lower value, value))

def team (obs : Observation) (cfg : Config) : String :=
  let raw := strip obs.team
  if raw = "" then unattributed
  else (canonical cfg.knownTeams).getD (Runtime.lower raw) other

def isRouteChar (c : Char) : Bool :=
  let c := foldAscii c
  c.isLower || c.isDigit

/-- `^[a-z0-9][a-z0-9._-]{0,63}$` under `re.I`. -/
def routeRx : Regex :=
  Regex.concat [.char isRouteChar,
    Regex.upTo (.char fun c => isRouteChar c || c == '.' || c == '_' || c == '-') 63, .eol]

def route (obs : Observation) (cfg : Config) : String :=
  let r := strip obs.route
  if routeRx.isMatch r then (canonical cfg.knownRoutes).getD (Runtime.lower r) other else other

def providerMap : List (String × String) :=
  [("eu.anthropic", "bedrock_eu"), ("us.anthropic", "bedrock_us"), ("external", "external_zdr")]

omit [Runtime] in
def providerRegion (obs : Observation) : String :=
  ((providerMap.find? fun rule => startsWith obs.internalModel rule.1).map Prod.snd).getD other

/-- The governed dimensions that folded a non-blank value. -/
def foldedDimensions (obs : Observation) (cfg : Config) : List String :=
  (if strip obs.team ≠ "" ∧ team obs cfg = other then ["team"] else []) ++
  (if strip obs.route ≠ "" ∧ route obs cfg = other then ["route"] else []) ++
  (if strip obs.providedModel ≠ "" ∧ modelFamily obs.providedModel = other then ["model_family"]
    else []) ++
  (if strip obs.envRaw ≠ "" ∧ env obs = other then ["env"] else []) ++
  (if strip obs.internalModel ≠ "" ∧ providerRegion obs = other then ["provider_region"] else [])

/-- The one dimension set of the latency, first-token and count metrics. Its values are governed,
so that the series of a window are bounded. -/
structure PrimaryDims where
  team : String
  route : String
  modelFamily : String
  env : String
  deriving DecidableEq

def PrimaryDims.asDict (pk : PrimaryDims) : Dict String String :=
  Dict.ofList [("team", pk.team), ("route", pk.route), ("model_family", pk.modelFamily),
    ("env", pk.env)]

def primaryDims (obs : Observation) (cfg : Config) : PrimaryDims :=
  ⟨team obs cfg, route obs cfg, modelFamily obs.providedModel, env obs⟩

end InferenceControlPlane.Sli.Normalize
