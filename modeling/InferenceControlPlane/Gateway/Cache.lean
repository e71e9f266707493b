import InferenceControlPlane.Gateway.Schemas

/-!
# The response cache

Entries live in Redis under a digest of the model key and the redacted prompt. Every
failure, of Redis or of the stored payload, reads as a miss.
-/
namespace InferenceControlPlane.Gateway
open Python Program

structure CachedResponse where
  response : String
  modelUsed : String
  tokens : ℤ
  cost : PyFloat
  deriving DecidableEq

/-- The text that the key is a digest of: model key and redacted prompt, with nothing of the
tenant or the user in it. -/
def cacheText (prompt model : String) : String := model ++ ":" ++ prompt

/-- `_cache_key`: the digest of the model key and the redacted prompt, joined by a colon that
neither of them escapes. -/
def cacheKey [Digests] (prompt model : String) : String :=
  "cache:inference:" ++ Digests.sha256 (cacheText prompt model)

lemma toList_cacheKey [Digests] (prompt model : String) : (cacheKey prompt model).toList =
    "cache:inference:".toList ++ (Digests.sha256 (cacheText prompt model)).toList :=
  String.toList_append

/-- `payload[key]`. -/
def subscript (payload : Json) (key : String) : Except PyErr Json :=
  match payload with
  | .obj fields => (fields.lookup key).elim (.error .keyError) .ok
  | _ => .error .typeError

/-- The entry in a stored payload. -/
def CachedResponse.ofPayload [Runtime] (payload : Json) : Except PyErr CachedResponse := do
  let response ← toStr (← subscript payload "response")
  let modelUsed ← toStr (← subscript payload "model_used")
  let tokens ← toInt (← subscript payload "tokens")
  let cost ← toFloat (← subscript payload "cost")
  return ⟨response, modelUsed, tokens, cost⟩

/-- The payload that is stored. -/
def CachedResponse.payload (entry : CachedResponse) : Json :=
  .obj [("response", .str entry.response), ("model_used", .str entry.modelUsed),
    ("tokens", .int entry.tokens), ("cost", .float entry.cost)]

/-- What is stored is what is read. -/
@[simp] theorem CachedResponse.ofPayload_payload [Runtime] (entry : CachedResponse) :
    ofPayload entry.payload = .ok entry := rfl

/-- The entry that a reply of Redis holds. -/
def cachedOf [Runtime] : Except PyErr (Option Text) → Option CachedResponse
  | .ok (some (.json payload)) => (CachedResponse.ofPayload payload).toOption
  | _ => none

/-- `get_cached_response`: the entry under the key of prompt and model; nothing without Redis,
when the call fails, and when the entry does not decode. -/
def getCachedResponse [Runtime] [Digests] (hasRedis : Bool) (prompt model : String) :
    Coroutine (Option CachedResponse) :=
  if hasRedis then do
    return cachedOf (← Call.get (cacheKey prompt model))
  else return none

/-- `set_cached_response`: the entry is stored for so many seconds; without Redis nothing happens,
and a failing call is only logged. -/
def setCachedResponse [Digests] (hasRedis : Bool) (prompt model : String)
    (entry : CachedResponse) (ttlSeconds : ℕ) : Coroutine Unit :=
  if hasRedis then do
    let _ ← Call.set (cacheKey prompt model) (.json entry.payload) ttlSeconds
  else return

end InferenceControlPlane.Gateway
