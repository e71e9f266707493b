import InferenceControlPlane.Gateway.Reports
import InferenceControlPlane.Gateway.Cache
import InferenceControlPlane.Interleaving

/-!
# Authentication

`validate_api_key` reads the context of a key from Redis, or selects its row and writes
the context there. Calls interleave, rows change, and Redis may fail at any step, so a
context may be stale. It is never older than the lifetime of its cache entry.
-/
namespace InferenceControlPlane.Gateway
open Python Program

/-! ## Keys and their contexts -/

/-- A row of `api_keys`, in the columns that are read. The key itself is nowhere in it, only its
hash. -/
structure APIKey where
  keyHash : String
  tenantId : String
  rateLimitPerMinute : ℤ
  role : String
  isActive : Bool
  deriving DecidableEq

/-- The table `api_keys`. Its `key_hash` column is unique, so that at most one row answers for a
key. -/
structure KeyTable where
  rows : List APIKey
  unique : (rows.map APIKey.keyHash).Nodup

def KeyTable.find (table : KeyTable) (keyHash : String) : Option APIKey :=
  table.rows.find? (·.keyHash = keyHash)

/-- The setting that authentication reads, the lifetime of a cached context, within the bounds of
its field. -/
structure AuthSettings where
  authCacheTtlSeconds : ℕ
  authCacheTtl_bounds : 60 ≤ authCacheTtlSeconds ∧ authCacheTtlSeconds ≤ 86400

/-- An `AuthContext` as it is made. The dataclass checks no types, so a context that is read from
the cache may hold any JSON value as its tenant and its role. -/
structure LoadedContext where
  tenantId : Json
  apiKeyHash : String
  rateLimitPerMinute : ℤ
  role : Json

def AuthContext.loaded (auth : AuthContext) : LoadedContext :=
  ⟨.str auth.tenantId, auth.apiKeyHash, auth.rateLimitPerMinute, .str auth.role⟩

/-- The context of a row. -/
def APIKey.context (row : APIKey) : AuthContext :=
  ⟨row.tenantId, row.keyHash, row.rateLimitPerMinute, row.role⟩

/-- The payload of a row. -/
def APIKey.payload (row : APIKey) : Json :=
  .obj [("tenant_id", .str row.tenantId), ("rate_limit_per_minute", .int row.rateLimitPerMinute),
    ("is_active", .bool row.isActive), ("role", .str row.role)]

def invalidApiKey : HttpException := ⟨401, "Invalid API key.", none⟩

/-! ## The calls of a validation -/

inductive AuthOp where
  | get (key : String)
  | select (keyHash : String)
  | set (key : String) (value : Text) (ex : ℕ)

@[reducible] def AuthOp.Reply : AuthOp → Type
  | get _ => Except PyErr (Option Text)
  | select _ => Except PyErr (Option APIKey)
  | set _ _ _ => Except PyErr Unit

abbrev AuthCoroutine (α : Type) : Type := Program AuthOp AuthOp.Reply α

namespace AuthCall

abbrev get (key : String) : AuthCoroutine (Except PyErr (Option Text)) := perform (AuthOp.get key)
abbrev select (keyHash : String) : AuthCoroutine (Except PyErr (Option APIKey)) :=
  perform (AuthOp.select keyHash)
abbrev set (key : String) (value : Text) (ex : ℕ) : AuthCoroutine (Except PyErr Unit) :=
  perform (AuthOp.set key value ex)

end AuthCall

/-- `hash_api_key`: the hexadecimal SHA-256 digest under which a key is stored, cached and rate
limited; the key itself is never kept. -/
def hashApiKey [Digests] (apiKey : String) : String := Digests.sha256 apiKey

/-- `_auth_cache_key`: the Redis key under which the context of an API key is cached, by the hash
of the key. -/
def authCacheKey (apiKeyHash : String) : String := "auth:key:" ++ apiKeyHash

theorem authCacheKey_injective : Function.Injective authCacheKey := by
  intro a b h
  have htexts := congrArg String.toList h
  simp only [authCacheKey, String.toList_append, List.append_cancel_left_eq] at htexts
  exact String.toList_inj.mp htexts

section
variable [Runtime]

/-- The context in a cached payload, unless it is inactive. An active payload without a tenant or
a rate limit raises, as the code indexes it. -/
def LoadedContext.ofPayload (payload : Json) (apiKeyHash : String) :
    Except PyErr (Option LoadedContext) :=
  match payload with
  | .obj fields =>
    if ((fields.lookup "is_active").getD (.bool false)).truthy then do
      let tenantId ← subscript payload "tenant_id"
      let rateLimitPerMinute ← toInt (← subscript payload "rate_limit_per_minute")
      return some ⟨tenantId, apiKeyHash, rateLimitPerMinute,
        (fields.lookup "role").getD (.str "tenant")⟩
    else .ok none
  | _ => .error .attributeError

/-- What is made of a reply of Redis. -/
def LoadedContext.ofReply (apiKeyHash : String) :
    Except PyErr (Option Text) → Except PyErr (Option LoadedContext)
  | .error e => .error e
  | .ok none => .ok none
  | .ok (some .empty) => .ok none
  | .ok (some (.json payload)) => ofPayload payload apiKeyHash
  | .ok (some (.malformed _)) => .error .valueError
  | .ok (some (.failing e)) => .error e

/-- `_load_cached_auth_context`: what Redis holds for the key, decoded: nothing when the entry is
missing, empty or inactive; a failing call and an entry that does not decode raise. -/
def loadCachedAuthContext (apiKeyHash : String) :
    AuthCoroutine (Except PyErr (Option LoadedContext)) := do
  return LoadedContext.ofReply apiKeyHash (← AuthCall.get (authCacheKey apiKeyHash))

omit [Runtime] in
/-- `_store_cached_auth_context`: the row that was selected is written to Redis for
`auth_cache_ttl_seconds`. -/
def storeCachedAuthContext (apiKey : APIKey) (settings : AuthSettings) :
    AuthCoroutine (Except PyErr Unit) :=
  AuthCall.set (authCacheKey apiKey.keyHash) (.json apiKey.payload) settings.authCacheTtlSeconds

omit [Runtime] in
/-- `validate_api_key` from its select on: a row that is missing or inactive is a 401, and the
context of an active one is cached, whether or not Redis takes it. -/
def validateSelected (apiKeyHash : String) (settings : AuthSettings) (hasRedis : Bool) :
    AuthCoroutine (Except EndpointError LoadedContext) := do
  match ← AuthCall.select apiKeyHash with
  | .error e => return .error (.escaped e)
  | .ok none => return .error (.http invalidApiKey)
  | .ok (some keyRecord) =>
    if keyRecord.isActive = false then return .error (.http invalidApiKey)
    else if hasRedis then do
      let _ ← storeCachedAuthContext keyRecord settings
      return .ok keyRecord.context.loaded
    else return .ok keyRecord.context.loaded

variable [Digests]

/-- `validate_api_key`: the built-in demo key is let in as it is, a cached context is taken
without asking the database, and otherwise the row decides. A failing Redis counts as an empty
one. -/
def validateApiKey (apiKey : String) (settings : AuthSettings) (hasRedis : Bool) :
    AuthCoroutine (Except EndpointError LoadedContext) := do
  if apiKey = "public-demo-key" then return .ok publicGuest.loaded
  let apiKeyHash := hashApiKey apiKey
  if hasRedis then
    match ← loadCachedAuthContext apiKeyHash with
    | .ok (some cachedContext) => return .ok cachedContext
    | _ => validateSelected apiKeyHash settings hasRedis
  else validateSelected apiKeyHash settings hasRedis

end

/-! ## The database and Redis -/

structure AuthEntry where
  value : Text
  deadline : ℚ≥0

/-- What the calls of all validations share: the rows of `api_keys`, the cached contexts with
their deadlines, and the clock by which Redis lets them expire. -/
structure AuthState where
  clock : ℚ≥0
  table : KeyTable
  entries : String → Option AuthEntry

namespace AuthState

/-- The value of a key, unless it has expired: an entry counts until its deadline, and is gone
from then on. -/
def live (s : AuthState) (key : String) : Option Text :=
  ((s.entries key).filter fun entry => s.clock < entry.deadline).map AuthEntry.value

def put (s : AuthState) (key : String) (value : Text) (ex : ℕ) : AuthState :=
  { s with entries := Function.update s.entries key (some ⟨value, s.clock + ex⟩) }

theorem put_self (s : AuthState) (key : String) (value : Text) (ex : ℕ) :
    (s.put key value ex).entries key = some ⟨value, s.clock + ex⟩ := Function.update_self ..

theorem put_other (s : AuthState) {key key' : String} (h : key' ≠ key) (value : Text) (ex : ℕ) :
    (s.put key value ex).entries key' = s.entries key' := Function.update_of_ne h ..

theorem live_put (s : AuthState) (key : String) (value : Text) {ex : ℕ} (h : 0 < ex) :
    (s.put key value ex).live key = some value := by
  have halive : (s.put key value ex).clock < s.clock + ex :=
    lt_add_of_pos_right s.clock (by exact_mod_cast h)
  rw [live, put_self, Option.filter_some, if_pos (decide_eq_true halive)]
  rfl

/-- What may be answered, and what is then shared. A call that raises may have had its
effect. -/
def Answers (s : AuthState) : (op : AuthOp) → op.Reply → AuthState → Prop
  | .get key, reply, s' => s' = s ∧ ((∃ e, reply = .error e) ∨ reply = .ok (s.live key))
  | .select keyHash, reply, s' =>
    s' = s ∧ ((∃ e, reply = .error e) ∨ reply = .ok (s.table.find keyHash))
  | .set key value ex, reply, s' => s' = s.put key value ex ∨ ((∃ e, reply = .error e) ∧ s' = s)

/-- Between two calls, time passes, rows change in any way, and contexts expire or are evicted; no
context appears by itself. -/
def Drifts (s s' : AuthState) : Prop :=
  s.clock ≤ s'.clock ∧ ∀ apiKeyHash, s'.entries (authCacheKey apiKeyHash) =
    s.entries (authCacheKey apiKeyHash) ∨ s'.entries (authCacheKey apiKeyHash) = none

end AuthState

/-! ## The phases of a validation -/

/-- A validation that writes the row that it selected. -/
def storing (row : APIKey) (settings : AuthSettings) :
    AuthCoroutine (Except EndpointError LoadedContext) :=
  .call (.set (authCacheKey row.keyHash) (.json row.payload) settings.authCacheTtlSeconds)
    fun _ => .done (.ok row.context.loaded)

/-- A validation whose select was answered. -/
def afterSelect (settings : AuthSettings) (hasRedis : Bool) :
    Except PyErr (Option APIKey) → AuthCoroutine (Except EndpointError LoadedContext)
  | .error e => .done (.error (.escaped e))
  | .ok none => .done (.error (.http invalidApiKey))
  | .ok (some row) =>
    if row.isActive = false then .done (.error (.http invalidApiKey))
    else if hasRedis then storing row settings
    else .done (.ok row.context.loaded)

/-- A validation that is about to select. -/
def selecting (apiKeyHash : String) (settings : AuthSettings) (hasRedis : Bool) :
    AuthCoroutine (Except EndpointError LoadedContext) :=
  .call (.select apiKeyHash) (afterSelect settings hasRedis)

lemma validateSelected_eq (apiKeyHash : String) (settings : AuthSettings) (hasRedis : Bool) :
    validateSelected apiKeyHash settings hasRedis = selecting apiKeyHash settings hasRedis := by
  rfl

section
variable [Runtime]

/-- A validation whose read was answered. -/
def afterGet (apiKeyHash : String) (settings : AuthSettings) (reply : Except PyErr (Option Text)) :
    AuthCoroutine (Except EndpointError LoadedContext) :=
  match LoadedContext.ofReply apiKeyHash reply with
  | .ok (some cachedContext) => .done (.ok cachedContext)
  | _ => selecting apiKeyHash settings true

/-- A validation that is about to read the cache. -/
def lookingUp (apiKeyHash : String) (settings : AuthSettings) :
    AuthCoroutine (Except EndpointError LoadedContext) :=
  .call (.get (authCacheKey apiKeyHash)) (afterGet apiKeyHash settings)

theorem validateApiKey_eq [Digests] {apiKey : String} (h : apiKey ≠ "public-demo-key")
    (settings : AuthSettings) (hasRedis : Bool) : validateApiKey apiKey settings hasRedis =
      if hasRedis then lookingUp (hashApiKey apiKey) settings
      else selecting (hashApiKey apiKey) settings false := by
  unfold validateApiKey
  rw [if_neg h]
  cases hasRedis with
  | false => exact validateSelected_eq _ _ _
  | true =>
    simp only [if_true, loadCachedAuthContext, lookingUp, perform_bind, call_bind]
    rfl

/-- What was cached for an active row is its context. -/
lemma ofReply_payload {row : APIKey} (h : row.isActive = true) :
    LoadedContext.ofReply row.keyHash (.ok (some (.json row.payload))) =
      .ok (some row.context.loaded) := by
  simp [LoadedContext.ofReply, LoadedContext.ofPayload, APIKey.payload, h, Json.truthy, subscript,
    toInt, APIKey.context, AuthContext.loaded]
  rfl

end

/-! ## Histories -/

section History
variable {ι : Type}

/-- The calls of a history, with Redis's time before each of them, by which the age of a cached
context is measured. -/
abbrev AuthHistory (ι : Type) : Type := List (ℚ≥0 × Act ι AuthOp AuthOp.Reply)

/-- The validation `i` selected an active row: what it answers, and what it writes to the cache,
rests on the database itself. -/
def SelectedBy (labels : AuthHistory ι) (i : ι) (row : APIKey) : Prop :=
  row.isActive = true ∧
    ∃ time, (time, .called i ⟨.select row.keyHash, .ok (some row)⟩) ∈ labels

/-- By `labels`, a validation has selected the row and written its context at `written`. -/
def WrittenAt (settings : AuthSettings) (labels : AuthHistory ι) (row : APIKey) (written : ℚ≥0) :
    Prop :=
  ∃ j reply, SelectedBy labels j row ∧ (written, .called j ⟨.set (authCacheKey row.keyHash)
    (.json row.payload) settings.authCacheTtlSeconds, reply⟩) ∈ labels

/-- Before the validation `i` read the cache, the row was selected, and its context written
less than the lifetime of an entry before. -/
def CachedFor (settings : AuthSettings) (labels : AuthHistory ι) (i : ι) (row : APIKey) : Prop :=
  ∃ before read reply written,
    before ++ [(read, .called i ⟨.get (authCacheKey row.keyHash), reply⟩)] <+: labels ∧
      WrittenAt settings before row written ∧ written ≤ read ∧
      read < written + settings.authCacheTtlSeconds

/-- What a validation's outcome rests on: a context, on a row that it selected itself or that was
cached at most one time to live ago; a refusal, on a select that found no active row. -/
structure Justified (settings : AuthSettings) (labels : AuthHistory ι) (i : ι) (apiKeyHash : String)
    (outcome : Except EndpointError LoadedContext) : Prop where
  granted : ∀ auth, outcome = .ok auth → ∃ row : APIKey, row.keyHash = apiKeyHash ∧
    auth = row.context.loaded ∧ (SelectedBy labels i row ∨ CachedFor settings labels i row)
  refused : ∀ e, outcome = .error (.http e) → e = invalidApiKey ∧ ∃ time found,
    (time, .called i ⟨.select apiKeyHash, .ok found⟩) ∈ labels ∧
      ∀ row, found = some row → row.isActive = false

/-! ### Longer histories -/

lemma SelectedBy.mono {labels labels' : AuthHistory ι} {i : ι} {row : APIKey}
    (h : SelectedBy labels i row) (hsub : labels ⊆ labels') : SelectedBy labels' i row := by
  obtain ⟨hactive, time, hselect⟩ := h
  exact ⟨hactive, time, hsub hselect⟩

lemma WrittenAt.mono {settings : AuthSettings} {labels labels' : AuthHistory ι} {row : APIKey}
    {written : ℚ≥0} (h : WrittenAt settings labels row written) (hsub : labels ⊆ labels') :
    WrittenAt settings labels' row written := by
  obtain ⟨j, reply, hselected, hset⟩ := h
  exact ⟨j, reply, hselected.mono hsub, hsub hset⟩

lemma Justified.mono {settings : AuthSettings} {labels labels' : AuthHistory ι} {i : ι}
    {apiKeyHash : String} {outcome : Except EndpointError LoadedContext}
    (h : Justified settings labels i apiKeyHash outcome) (hearlier : labels <+: labels') :
    Justified settings labels' i apiKeyHash outcome := by
  constructor
  · intro auth hauth
    obtain ⟨row, hhash, hcontext, hselected | hcached⟩ := h.granted auth hauth
    · exact ⟨row, hhash, hcontext, .inl (hselected.mono hearlier.subset)⟩
    · obtain ⟨before, read, reply, written, hread, hwritten, hle, hlt⟩ := hcached
      exact ⟨row, hhash, hcontext,
        .inr ⟨before, read, reply, written, hread.trans hearlier, hwritten, hle, hlt⟩⟩
  · intro e he
    obtain ⟨hinvalid, time, found, hselect, hfound⟩ := h.refused e he
    exact ⟨hinvalid, time, found, hearlier.subset hselect, hfound⟩

/-! ### The invariant -/

variable [Runtime]

/-- Where a validation stands between its calls, and what it has done to get there. One
constructor stands for each point at which it waits for a reply. -/
inductive Phase (settings : AuthSettings) (labels : AuthHistory ι) (i : ι) (apiKeyHash : String) :
    AuthCoroutine (Except EndpointError LoadedContext) → Prop
  | looking : Phase settings labels i apiKeyHash (lookingUp apiKeyHash settings)
  | selecting (hasRedis : Bool) :
      Phase settings labels i apiKeyHash (selecting apiKeyHash settings hasRedis)
  | storing {row : APIKey} (hhash : row.keyHash = apiKeyHash) (h : SelectedBy labels i row) :
      Phase settings labels i apiKeyHash (storing row settings)
  | ended {outcome : Except EndpointError LoadedContext}
      (h : Justified settings labels i apiKeyHash outcome) :
      Phase settings labels i apiKeyHash (.done outcome)

lemma Phase.mono {settings : AuthSettings} {labels labels' : AuthHistory ι} {i : ι}
    {apiKeyHash : String} {p : AuthCoroutine (Except EndpointError LoadedContext)}
    (h : Phase settings labels i apiKeyHash p) (hearlier : labels <+: labels') :
    Phase settings labels' i apiKeyHash p := by
  cases h with
  | looking => exact .looking
  | selecting hasRedis => exact .selecting hasRedis
  | storing hhash h => exact .storing hhash (h.mono hearlier.subset)
  | ended h => exact .ended (h.mono hearlier)

/-- Every entry was written for a row that a validation had selected, and lives from then
on as long as the setting says. -/
def EntriesWritten (settings : AuthSettings) (labels : AuthHistory ι) (s : AuthState) : Prop :=
  ∀ apiKeyHash entry, s.entries (authCacheKey apiKeyHash) = some entry →
    ∃ (row : APIKey) (written : ℚ≥0), row.keyHash = apiKeyHash ∧ entry.value = .json row.payload ∧
      entry.deadline = written + settings.authCacheTtlSeconds ∧ written ≤ s.clock ∧
      WrittenAt settings labels row written

omit [Runtime] in
lemma EntriesWritten.mono {settings : AuthSettings} {labels labels' : AuthHistory ι} {s : AuthState}
    (h : EntriesWritten settings labels s) (hsub : labels ⊆ labels') :
    EntriesWritten settings labels' s := by
  intro apiKeyHash entry hentry
  obtain ⟨row, written, hhash, hvalue, hdeadline, hle, hwritten⟩ := h apiKeyHash entry hentry
  exact ⟨row, written, hhash, hvalue, hdeadline, hle, hwritten.mono hsub⟩

/-- A read finds the context of a row that was selected, and written less than the
lifetime of an entry before. -/
lemma phase_of_get {settings : AuthSettings} {labels : AuthHistory ι} {s : AuthState} {i : ι}
    {apiKeyHash : String} {reply : Except PyErr (Option Text)}
    (hentries : EntriesWritten settings labels s)
    (hreply : (∃ e, reply = .error e) ∨ reply = .ok (s.live (authCacheKey apiKeyHash))) :
    Phase settings
      (labels ++ [(s.clock, .called i ⟨.get (authCacheKey apiKeyHash), reply⟩)]) i apiKeyHash
      (afterGet apiKeyHash settings reply) := by
  rcases hreply with ⟨e, rfl⟩ | rfl
  · exact .selecting true
  cases hlive : s.live (authCacheKey apiKeyHash) with
  | none => exact .selecting true
  | some value =>
    obtain ⟨entry, hentry, rfl⟩ := Option.map_eq_some_iff.mp hlive
    obtain ⟨hstored, halive⟩ := Option.filter_eq_some_iff.mp hentry
    obtain ⟨row, written, rfl, hvalue, hdeadline, hle, hwritten⟩ := hentries _ _ hstored
    have hactive : row.isActive = true := by
      obtain ⟨j, _, hselected, -⟩ := hwritten
      exact hselected.1
    rw [hvalue, afterGet, ofReply_payload hactive]
    refine .ended ⟨fun auth hauth => ?_, nofun⟩
    cases hauth
    refine ⟨row, rfl, rfl, .inr ⟨labels, s.clock, _, written, List.prefix_rfl, hwritten, hle, ?_⟩⟩
    rw [← hdeadline]
    simpa using halive

omit [Runtime] in
lemma justified_of_error {settings : AuthSettings} {labels : AuthHistory ι} {i : ι}
    {apiKeyHash : String} (e : PyErr) :
    Justified settings labels i apiKeyHash (.error (.escaped e)) :=
  ⟨nofun, nofun⟩

/-- A select finds an active row, or the validation ends with 401. -/
lemma phase_of_select {settings : AuthSettings} {labels : AuthHistory ι} {s : AuthState} {i : ι}
    {apiKeyHash : String} {hasRedis : Bool} {reply : Except PyErr (Option APIKey)}
    (hreply : (∃ e, reply = .error e) ∨ reply = .ok (s.table.find apiKeyHash)) :
    Phase settings (labels ++ [(s.clock, .called i ⟨.select apiKeyHash, reply⟩)]) i apiKeyHash
      (afterSelect settings hasRedis reply) := by
  rcases hreply with ⟨e, rfl⟩ | rfl
  · exact .ended (justified_of_error e)
  have hlast : ∀ found : Option APIKey, (s.clock, .called i ⟨.select apiKeyHash, .ok found⟩) ∈
      labels ++ [(s.clock, .called i ⟨.select apiKeyHash, .ok found⟩)] :=
    fun found => List.mem_append_right _ List.mem_cons_self
  have hrefused : ∀ found : Option APIKey, (∀ row, found = some row → row.isActive = false) →
      Justified settings (labels ++ [(s.clock, .called i ⟨.select apiKeyHash, .ok found⟩)]) i
        apiKeyHash (.error (.http invalidApiKey)) := by
    intro found hfound
    refine ⟨nofun, fun e he => ?_⟩
    cases he
    exact ⟨rfl, s.clock, found, hlast found, hfound⟩
  cases hfind : s.table.find apiKeyHash with
  | none => exact .ended (hrefused none nofun)
  | some row =>
    have hhash : row.keyHash = apiKeyHash := by
      have hfound := List.find?_some hfind
      simpa using hfound
    subst hhash
    simp only [afterSelect]
    by_cases hactive : row.isActive = false
    · rw [if_pos hactive]
      refine .ended (hrefused (some row) fun found h => ?_)
      cases h
      exact hactive
    · rw [if_neg hactive]
      have hselected : SelectedBy
          (labels ++ [(s.clock, .called i ⟨.select row.keyHash, .ok (some row)⟩)]) i row :=
        ⟨by simpa using hactive, s.clock, hlast (some row)⟩
      split_ifs
      · exact .storing rfl hselected
      · refine .ended ⟨fun auth hauth => ?_, nofun⟩
        cases hauth
        exact ⟨row, rfl, rfl, .inl hselected⟩

omit [Runtime] in
/-- A write stores the context of the row that its validation selected. -/
lemma entries_of_set {settings : AuthSettings} {labels : AuthHistory ι} {s s' : AuthState} {i : ι}
    {row : APIKey} {reply : Except PyErr Unit} (hentries : EntriesWritten settings labels s)
    (hselected : SelectedBy labels i row)
    (hanswer : s' = s.put (authCacheKey row.keyHash) (.json row.payload)
      settings.authCacheTtlSeconds ∨ (∃ e, reply = .error e) ∧ s' = s) :
    EntriesWritten settings (labels ++ [(s.clock, .called i ⟨.set (authCacheKey row.keyHash)
      (.json row.payload) settings.authCacheTtlSeconds, reply⟩)]) s' := by
  have hold : EntriesWritten settings (labels ++ [(s.clock, .called i
      ⟨.set (authCacheKey row.keyHash) (.json row.payload) settings.authCacheTtlSeconds,
        reply⟩)]) s :=
    hentries.mono (List.subset_append_left _ _)
  rcases hanswer with rfl | ⟨-, rfl⟩
  · intro apiKeyHash entry hentry
    by_cases hkey : authCacheKey apiKeyHash = authCacheKey row.keyHash
    · have hhash := authCacheKey_injective hkey
      rw [hkey, AuthState.put_self] at hentry
      cases hentry
      exact ⟨row, s.clock, hhash.symm, rfl, rfl, le_rfl, i, reply,
        hselected.mono (List.subset_append_left _ _),
        List.mem_append_right _ List.mem_cons_self⟩
    · rw [AuthState.put_other s hkey] at hentry
      exact hold apiKeyHash entry hentry
  · exact hold

/-- What a validation's own call leads to. -/
lemma called_step {settings : AuthSettings} {labels : AuthHistory ι} {s s' : AuthState} {i : ι}
    {apiKeyHash : String} {op : AuthOp}
    {next : op.Reply → AuthCoroutine (Except EndpointError LoadedContext)} {reply : op.Reply}
    (hphase : Phase settings labels i apiKeyHash (.call op next))
    (hentries : EntriesWritten settings labels s) (hanswer : s.Answers op reply s') :
    Phase settings (labels ++ [(s.clock, .called i ⟨op, reply⟩)]) i apiKeyHash (next reply) ∧
      EntriesWritten settings (labels ++ [(s.clock, .called i ⟨op, reply⟩)]) s' := by
  have hkept := hentries.mono (List.subset_append_left labels [(s.clock, .called i ⟨op, reply⟩)])
  generalize hp : (call op next : AuthCoroutine _) = p at hphase
  cases hphase with
  | looking =>
    cases hp
    obtain ⟨rfl, hreply⟩ := hanswer
    exact ⟨phase_of_get hentries hreply, hkept⟩
  | selecting hasRedis =>
    cases hp
    obtain ⟨rfl, hreply⟩ := hanswer
    exact ⟨phase_of_select hreply, hkept⟩
  | @storing row hhash hselected =>
    cases hp
    have hlater : SelectedBy (labels ++ [(s.clock, .called i ⟨.set (authCacheKey row.keyHash)
        (.json row.payload) settings.authCacheTtlSeconds, reply⟩)]) i row :=
      hselected.mono (List.subset_append_left _ _)
    refine ⟨.ended ⟨fun auth hauth => ?_, nofun⟩, entries_of_set hentries hselected hanswer⟩
    cases hauth
    exact ⟨row, hhash, rfl, .inl hlater⟩
  | ended h => cases hp

/-! ### Every interleaving -/

variable [Digests] [DecidableEq ι]

/-- Validations before they start, on a Redis that holds no cached context. Every context that is
read later was written within the history. -/
structure Validating (settings : AuthSettings) (apiKeys : ι → String) (hasRedis : ι → Bool)
    (pool : Pool ι AuthOp AuthOp.Reply (Except EndpointError LoadedContext) AuthState) : Prop where
  members : ∀ i, pool.members i = validateApiKey (apiKeys i) settings (hasRedis i)
  empty : ∀ apiKeyHash, pool.shared.entries (authCacheKey apiKeyHash) = none

/-- The invariant of every history of validations: each stands in one of its phases, and each
cached context was written by a validation that had found its row active. -/
structure Tracked (settings : AuthSettings) (apiKeys : ι → String) (labels : AuthHistory ι)
    (pool : Pool ι AuthOp AuthOp.Reply (Except EndpointError LoadedContext) AuthState) : Prop where
  demo : ∀ i, apiKeys i = "public-demo-key" → ∃ outcome, pool.members i = .done outcome
  phase : ∀ i, apiKeys i ≠ "public-demo-key" →
    Phase settings labels i (hashApiKey (apiKeys i)) (pool.members i)
  entries : EntriesWritten settings labels pool.shared

omit [DecidableEq ι] in
lemma tracked_start {settings : AuthSettings} {apiKeys : ι → String} {hasRedis : ι → Bool}
    {pool : Pool ι AuthOp AuthOp.Reply (Except EndpointError LoadedContext) AuthState}
    (h : Validating settings apiKeys hasRedis pool) : Tracked settings apiKeys [] pool := by
  refine ⟨fun i hi => ?_, fun i hi => ?_, fun apiKeyHash entry hentry => ?_⟩
  · rw [h.members i, validateApiKey, if_pos hi]
    exact ⟨_, rfl⟩
  · rw [h.members i, validateApiKey_eq hi]
    split_ifs
    · exact .looking
    · exact .selecting false
  · rw [h.empty apiKeyHash] at hentry
    cases hentry

theorem tracked_step {settings : AuthSettings} {apiKeys : ι → String} {labels : AuthHistory ι}
    {pool pool' : Pool ι AuthOp AuthOp.Reply (Except EndpointError LoadedContext) AuthState}
    {label : ℚ≥0 × Act ι AuthOp AuthOp.Reply} (h : Tracked settings apiKeys labels pool)
    (hstep : Pool.Stamped AuthState.clock (Pool.Step AuthState.Answers AuthState.Drifts) pool label
      pool') : Tracked settings apiKeys (labels ++ [label]) pool' := by
  obtain ⟨time, act⟩ := label
  obtain ⟨rfl, hstep⟩ := hstep
  have hearlier : labels <+: labels ++ [(pool.shared.clock, act)] := List.prefix_append _ _
  cases hstep with
  | drifted hdrift =>
    refine ⟨h.demo, fun i hi => (h.phase i hi).mono hearlier, fun apiKeyHash entry hentry => ?_⟩
    rcases hdrift.2 apiKeyHash with hsame | hgone
    · obtain ⟨row, written, hhash, hvalue, hdeadline, hle, hwritten⟩ :=
        h.entries apiKeyHash entry (hsame ▸ hentry)
      exact ⟨row, written, hhash, hvalue, hdeadline, hle.trans hdrift.1,
        hwritten.mono hearlier.subset⟩
    · rw [hgone] at hentry
      cases hentry
  | @called i op next r s hmember hanswer =>
    have hcaller : apiKeys i ≠ "public-demo-key" := by
      intro hi
      obtain ⟨outcome, hdone⟩ := h.demo i hi
      rw [hdone] at hmember
      cases hmember
    obtain ⟨hphase, hentries⟩ := called_step (hmember ▸ h.phase i hcaller) h.entries hanswer
    refine ⟨fun j hj => ?_, fun j hj => ?_, hentries⟩
    · have hne : j ≠ i := fun heq => hcaller (heq ▸ hj)
      simpa [hne] using h.demo j hj
    · rcases eq_or_ne j i with rfl | hne
      · simpa using hphase
      · simpa [hne] using (h.phase j hj).mono hearlier

/-- Whatever happens between the steps of the validations, each outcome is justified: a
context by a row that this validation selected or whose context was written less than the
lifetime of an entry before it was read, and a 401 by this validation's own select. -/
theorem staleness_bounded (settings : AuthSettings) (apiKeys : ι → String) (hasRedis : ι → Bool)
    (init pool : Pool ι AuthOp AuthOp.Reply (Except EndpointError LoadedContext) AuthState)
    (labels : AuthHistory ι) (hinit : Validating settings apiKeys hasRedis init)
    (hrun : Run (Pool.Stamped AuthState.clock (Pool.Step AuthState.Answers AuthState.Drifts)) init
      labels pool) (i : ι) (hkey : apiKeys i ≠ "public-demo-key")
    (outcome : Except EndpointError LoadedContext) (hdone : pool.members i = .done outcome) :
    Justified settings labels i (hashApiKey (apiKeys i)) outcome := by
  have htracked : Tracked settings apiKeys labels pool :=
    hrun.invariant (tracked_start hinit) fun _ _ _ _ h hstep => tracked_step h hstep
  have hphase := htracked.phase i hkey
  generalize hp : pool.members i = p at hphase
  cases hphase with
  | looking => cases hp.symm.trans hdone
  | selecting hasRedis => cases hp.symm.trans hdone
  | storing hhash h => cases hp.symm.trans hdone
  | ended h =>
    cases hp.symm.trans hdone
    exact h

end History

/-! ## Two validations, one after the other -/

/-- A database and a Redis that never fail. -/
def authWorld : World AuthOp AuthOp.Reply AuthState
  | .get key, s => (.ok (s.live key), s)
  | .select keyHash, s => (.ok (s.table.find keyHash), s)
  | .set key value ex, s => (.ok (), s.put key value ex)

lemma authWorld_answers (op : AuthOp) (s : AuthState) :
    s.Answers op (authWorld op s).1 (authWorld op s).2 := by
  cases op with
  | get key => exact ⟨rfl, .inr rfl⟩
  | select keyHash => exact ⟨rfl, .inr rfl⟩
  | set key value ex => exact .inl rfl

/-- The digest of "dev-inference-key". -/
def devKeyDigest : List (String × String) :=
  [("dev-inference-key", "2d60d876439b95e976c1e92c315822dd79f200a70965bda341064a8fb42ed0ee")]

def devKey : APIKey where
  keyHash := "2d60d876439b95e976c1e92c315822dd79f200a70965bda341064a8fb42ed0ee"
  tenantId := "acme"
  rateLimitPerMinute := 120
  role := "tenant"
  isActive := true

/-- One active key, at the start of the clock. -/
def devState : AuthState where
  clock := 0
  table := ⟨[devKey], List.nodup_singleton _⟩
  entries _ := none

/-- `Settings()`. -/
def AuthSettings.default : AuthSettings := ⟨600, by omega⟩

/-- The second validation is answered from the cache, as the first one found the row. -/
theorem staleness_bounded_sample :
    letI := Runtime.ascii
    letI := Digests.listed devKeyDigest
    ∃ labels : AuthHistory Bool, labels.length = 4 ∧
      Justified .default labels true devKey.keyHash (.ok devKey.context.loaded) := by
  let ascii := Runtime.ascii
  let digests := Digests.listed devKeyDigest
  let validation := validateApiKey "dev-inference-key" .default true
  let init : Pool Bool AuthOp AuthOp.Reply _ AuthState := ⟨devState, fun _ => validation⟩
  have hworld : ∀ op (s : AuthState), True →
      s.Answers op (authWorld op s).1 (authWorld op s).2 ∧ True :=
    fun op s _ => ⟨authWorld_answers op s, trivial⟩
  have hfirst := Pool.run_alone authWorld hworld
    (Run.nil : Run (Pool.Step AuthState.Answers AuthState.Drifts) init [] init) trivial false
    validation rfl
  have hsecond := Pool.run_alone authWorld hworld hfirst trivial true validation (by simp [init])
  have hlooking : validation = lookingUp devKey.keyHash .default :=
    validateApiKey_eq (by decide) .default true
  have hwritten : validation.final authWorld devState =
      devState.put (authCacheKey devKey.keyHash) (.json devKey.payload) 600 := rfl
  have hcontext : validation.result authWorld (validation.final authWorld devState) =
      .ok devKey.context.loaded := by
    rw [hwritten, hlooking, lookingUp, result_call]
    simp only [authWorld, AuthState.live_put devState _ _ (show 0 < 600 by decide), afterGet]
    have hload := ofReply_payload (rfl : devKey.isActive = true)
    rw [hload]
    rfl
  obtain ⟨labels, hacts, hrun⟩ := Pool.run_stamped AuthState.clock hsecond
  refine ⟨labels, ?_, staleness_bounded .default (fun _ => "dev-inference-key") (fun _ => true)
    init _ labels ⟨fun _ => rfl, fun _ => rfl⟩ hrun true (by decide) _ ?_⟩
  · rw [← List.length_map Prod.snd, hacts]
    decide +kernel
  · exact congrArg done hcontext

end InferenceControlPlane.Gateway
