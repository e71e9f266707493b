import InferenceControlPlane.Gateway.Schemas

/-!
# Rate limiting

`check_rate_limit` counts the calls of one time bucket in Redis. The counter and its
time to live are read in one transaction; the caller that saw count one sets the
expiry in a second step. A failing Redis admits every call.
-/
namespace InferenceControlPlane.Gateway
open Python Program

structure RateLimitResult where
  allowed : Bool
  remaining : ℤ
  retryAfterSeconds : ℤ
  deriving DecidableEq

/-- `int(time.time()) // window_seconds`: the windows are fixed buckets of the clock, not the last
seconds before a call. -/
def bucketOf (windowSeconds : ℕ) (time : ℚ≥0) : ℕ := ⌊time⌋₊ / windowSeconds

/-- `_bucket_key`, for the bucket of the clock: the buckets of one identifier are fixed slices of
time. -/
def bucketKey (scope : RateScope) (identifier : String) (bucket : ℕ) : String :=
  "rate:" ++ scope.text ++ ":" ++ identifier ++ ":" ++ toString bucket

/-- The answer when there is no Redis, or when it raised. -/
def failOpen (limit : ℤ) : RateLimitResult := ⟨true, limit, 0⟩

/-- The answer to a count and a time to live: allowed up to the limit, and how long to wait beyond
it. -/
def limitResult (limit count ttl : ℤ) : RateLimitResult :=
  if count ≤ limit then ⟨true, max (limit - count) 0, 0⟩
  else ⟨false, max (limit - count) 0, max ttl 1⟩

/-- `check_rate_limit`: the counter of the current bucket is incremented and its expiry read in
one transaction; the call that finds itself the first sets the expiry. Without Redis, or when a
call to it fails, the request is allowed. -/
def checkRateLimit (hasRedis : Bool) (scope : RateScope) (identifier : String) (limit : ℤ)
    (windowSeconds : ℕ) : Coroutine RateLimitResult :=
  if hasRedis then do
    let key := bucketKey scope identifier (bucketOf windowSeconds (← Call.time))
    match ← Call.incrTtl key with
    | .error _ => return failOpen limit
    | .ok (count, ttl) =>
      if count = 1 then
        match ← Call.expire key windowSeconds with
        | .error _ => return failOpen limit
        | .ok _ => return limitResult limit count windowSeconds
      else return limitResult limit count ttl
  else return failOpen limit

/-! ## Keys -/

lemma toString_nat_injective {m n : ℕ} (h : toString m = toString n) : m = n := by
  have hdigits : Nat.toDigits 10 m = Nat.toDigits 10 n := by
    rw [Nat.toString_eq_repr, Nat.toString_eq_repr] at h
    rw [← Nat.toList_repr, ← Nat.toList_repr, h]
  rw [← Nat.ofDigitChars_ten_toDigits (n := m), hdigits, Nat.ofDigitChars_ten_toDigits]

/-- Two buckets of one identifier are counted apart. -/
theorem bucketKey_injective {scope : RateScope} {identifier : String} {b b' : ℕ}
    (h : bucketKey scope identifier b = bucketKey scope identifier b') : b = b' := by
  have hsuffix := congrArg String.toList h
  simp only [bucketKey, String.toList_append, List.append_cancel_left_eq] at hsuffix
  exact toString_nat_injective (String.toList_inj.mp hsuffix)

/-- A bucket is the span of its multiples of the window. -/
lemma bucketOf_eq_iff {windowSeconds b : ℕ} (hw : 0 < windowSeconds) (time : ℚ≥0) :
    bucketOf windowSeconds time = b ↔
      ((b * windowSeconds : ℕ) : ℚ≥0) ≤ time ∧ time < (((b + 1) * windowSeconds : ℕ) : ℚ≥0) := by
  rw [bucketOf, Nat.div_eq_iff hw, ← Nat.le_floor_iff zero_le, ← Nat.floor_lt zero_le]
  have hsucc : (b + 1) * windowSeconds = b * windowSeconds + windowSeconds := Nat.succ_mul _ _
  omega

/-! ## Redis counters -/

structure Counter where
  count : ℤ
  deadline : Option ℚ≥0
  deriving DecidableEq

/-- What the limiter sees of Redis and of the clock that they share: the counters by key, each
with its count and, once it is set, its expiry. -/
structure CounterState where
  clock : ℚ≥0
  counters : String → Option Counter

namespace CounterState

/-- The counter of a key, unless it has expired. -/
def live (s : CounterState) (key : String) : Option Counter :=
  (s.counters key).filter fun c => c.deadline.all (s.clock < ·)

def put (s : CounterState) (key : String) (c : Counter) : CounterState :=
  { s with counters := Function.update s.counters key (some c) }

/-- `TTL`: the seconds that are left, to the nearest second; -1 without an expiry. -/
def ttl (s : CounterState) (c : Counter) : ℤ :=
  match c.deadline with
  | none => -1
  | some deadline => ⌊(deadline : ℚ) - s.clock + 1 / 2⌋

/-- `INCR` and `TTL` in one transaction: the new count, and the seconds left to the counter. A new
counter has no expiry yet. -/
def incrTtl (s : CounterState) (key : String) : (ℤ × ℤ) × CounterState :=
  let c : Counter := match s.live key with
    | none => ⟨1, none⟩
    | some c => { c with count := c.count + 1 }
  ((c.count, s.ttl c), s.put key c)

/-- `EXPIRE`: the counter that is there, if it still is, ends so many seconds from now. -/
def expire (s : CounterState) (key : String) (seconds : ℕ) : CounterState :=
  match s.live key with
  | none => s
  | some c => s.put key { c with deadline := some (s.clock + seconds) }

/-- While its deadline lies ahead, a counter is live. -/
lemma live_eq {s : CounterState} {key : String} {c : Counter} (h : s.counters key = some c)
    (hahead : ∀ d, c.deadline = some d → s.clock < d) : s.live key = some c := by
  rw [live, h, Option.filter_some, if_pos]
  cases hd : c.deadline with
  | none => rfl
  | some d => simpa using hahead d hd

lemma live_eq_none {s : CounterState} {key : String} (h : s.counters key = none) :
    s.live key = none := by
  rw [live, h]
  rfl

lemma incrTtl_fresh {s : CounterState} {key : String} (h : s.live key = none) :
    s.incrTtl key = ((1, -1), s.put key ⟨1, none⟩) := by
  unfold incrTtl
  rw [h]
  rfl

lemma incrTtl_live {s : CounterState} {key : String} {c : Counter} (h : s.live key = some c) :
    ∃ ttl, s.incrTtl key = ((c.count + 1, ttl), s.put key { c with count := c.count + 1 }) := by
  unfold incrTtl
  rw [h]
  exact ⟨_, rfl⟩

lemma expire_live {s : CounterState} {key : String} {c : Counter} (h : s.live key = some c)
    (seconds : ℕ) :
    s.expire key seconds = s.put key { c with deadline := some (s.clock + seconds) } := by
  unfold expire
  rw [h]

/-- Redis and the clock as they answer the calls of the limiter. The other calls get
`rest` and change nothing. -/
def answer (rest : (op : Op) → Op.Reply op) : World Op Op.Reply CounterState
  | .time, s => (s.clock, s)
  | .incrTtl key, s => (.ok (s.incrTtl key).1, (s.incrTtl key).2)
  | .expire key seconds, s => (.ok (), s.expire key seconds)
  | op, s => (rest op, s)

end CounterState
end InferenceControlPlane.Gateway
