import InferenceControlPlane.Gateway.CacheKeys
import InferenceControlPlane.Gateway.Ledger

/-!
# Whose quota a request counts on

The counters of users are named by their tenant and their id, joined by a colon. Two
users of different names share their counters exactly when the one's tenant id goes on,
after a colon, with what the other's user id begins with.
-/
namespace InferenceControlPlane.Gateway
open Python Program

/-- A user of a tenant, within the length limits of both names. Rate limits are meant to be
counted for each of them apart. -/
structure Principal where
  tenantId : String
  userId : String
  tenantId_length : 1 ≤ tenantId.length ∧ tenantId.length ≤ 128
  userId_length : 1 ≤ userId.length ∧ userId.length ≤ 128

namespace Principal

/-- `user_key`: tenant and user joined by a colon, which both may contain. The counter of the
user's rate limit is kept under it. -/
def userKey (p : Principal) : String := p.tenantId ++ ":" ++ p.userId

/-- The tenant of `q` is that of `p`, a colon, and the text before a colon in the user id
of `p`; what follows there is the user id of `q`. -/
def Shifted (p q : Principal) : Prop := CutLater p.tenantId p.userId q.tenantId q.userId

theorem userKey_eq_iff (p q : Principal) :
    p.userKey = q.userKey ↔ p = q ∨ Shifted p q ∨ Shifted q p := by
  have hsame : p = q ↔ p.tenantId = q.tenantId ∧ p.userId = q.userId := by
    cases p
    cases q
    simp
  rw [hsame]
  exact colon_eq_iff _ _ _ _

end Principal

/-! ## Counter keys -/

lemma colon_not_mem_toString (n : ℕ) : ':' ∉ (toString n).toList := by
  rw [Nat.toString_eq_repr, Nat.toList_repr]
  intro h
  have hdigit := Nat.isDigit_of_mem_toDigits (by decide) (by decide) h
  cases hdigit

/-- A scope and what follows it can be told apart. -/
lemma scope_eq_iff (scope scope' : RateScope) (identifier identifier' : String) :
    "rate:" ++ scope.text ++ ":" ++ identifier = "rate:" ++ scope'.text ++ ":" ++ identifier' ↔
      scope = scope' ∧ identifier = identifier' := by
  rw [← String.toList_inj]
  cases scope with
  | apiKey => cases scope' <;> simp [RateScope.text, String.toList_inj]
  | user => cases scope' <;> simp [RateScope.text, String.toList_inj]

/-- The key tells the scope, the identifier and the bucket. -/
theorem bucketKey_eq_iff (scope scope' : RateScope) (identifier identifier' : String) (b b' : ℕ) :
    bucketKey scope identifier b = bucketKey scope' identifier' b' ↔
      scope = scope' ∧ identifier = identifier' ∧ b = b' := by
  -- the last colon stands before the bucket, whose digits have none
  have hcut : bucketKey scope identifier b = bucketKey scope' identifier' b' ↔
      "rate:" ++ scope.text ++ ":" ++ identifier = "rate:" ++ scope'.text ++ ":" ++ identifier' ∧
        toString b = toString b' := by
    rw [bucketKey, bucketKey, colon_eq_iff, or_iff_left]
    exact not_or.mpr ⟨not_cutLater (colon_not_mem_toString b),
      not_cutLater (colon_not_mem_toString b')⟩
  rw [hcut, scope_eq_iff, and_assoc]
  refine and_congr_right fun _ => and_congr_right fun _ => ⟨toString_nat_injective, ?_⟩
  intro h
  rw [h]

/-! ## Isolation -/

/-- The counter that a call is on. Two principals share their quota when their calls are on one
counter. -/
def Op.counter : Op → Option String
  | incrTtl key => some key
  | expire key _ => some key
  | _ => none

/-- The counters of a principal are its own: they are not those of `q`, nor of any API key,
and whatever is answered, no request of `q` makes a call on them. -/
structure QuotaIsolated (p q : Principal) : Prop where
  keys : ∀ b b', bucketKey .user p.userKey b ≠ bucketKey .user q.userKey b'
  scopes : ∀ apiKeyHash b b', bucketKey .user p.userKey b ≠ bucketKey .apiKey apiKeyHash b'
  calls : ∀ (hasRedis : Bool) (settings : Settings) (auth : AuthContext),
    auth.tenantId = q.tenantId → (enforceRateLimits hasRedis settings auth q.userId).Always
      fun op => ∀ b, op.counter ≠ some (bucketKey .user p.userKey b)

/-- A check makes calls on the counters of its identifier only. -/
lemma checkRateLimit_counter (hasRedis : Bool) (scope : RateScope) (identifier : String)
    (limit : ℤ) (windowSeconds : ℕ) {key : ℕ → String}
    (h : ∀ b b', key b ≠ bucketKey scope identifier b') :
    (checkRateLimit hasRedis scope identifier limit windowSeconds).Always
      fun op => ∀ b, op.counter ≠ some (key b) := by
  apply checkRateLimit_always
  · exact fun b => by simp [Op.counter]
  · exact fun b' b hkey => h b b' (Option.some.inj hkey).symm
  · exact fun b' b hkey => h b b' (Option.some.inj hkey).symm

lemma enforceRateLimits_counter {p q : Principal} (hasRedis : Bool) (settings : Settings)
    (auth : AuthContext) (htenant : auth.tenantId = q.tenantId)
    (hkeys : ∀ b b', bucketKey .user p.userKey b ≠ bucketKey .user q.userKey b')
    (hscopes : ∀ apiKeyHash b b',
      bucketKey .user p.userKey b ≠ bucketKey .apiKey apiKeyHash b') :
    (enforceRateLimits hasRedis settings auth q.userId).Always
      fun op => ∀ b, op.counter ≠ some (bucketKey .user p.userKey b) := by
  unfold enforceRateLimits
  rw [htenant]
  refine (checkRateLimit_counter _ _ _ _ _ (hscopes _)).bind fun keyResult => ?_
  refine (checkRateLimit_counter _ _ _ _ _ hkeys).bind fun userResult => ?_
  split_ifs
  · exact ⟨fun b => by simp [Op.counter], fun _ => trivial⟩
  · exact ⟨fun b => by simp [Op.counter], fun _ => trivial⟩
  · exact always_done _ _

/-- Two principals are isolated exactly when neither is the other one with the colon of its
user key read at another place: then their user keys are apart, as keys of different scopes
always are. -/
theorem quotaIsolated_iff (p q : Principal) (h : p ≠ q) :
    QuotaIsolated p q ↔ ¬ p.Shifted q ∧ ¬ q.Shifted p := by
  have hshared : p.userKey = q.userKey ↔ p.Shifted q ∨ q.Shifted p := by
    rw [p.userKey_eq_iff q, or_iff_right h]
  constructor
  · intro hisolated
    rw [← not_or, ← hshared]
    intro hkey
    exact hisolated.keys 0 0 (by rw [hkey])
  · intro hapart
    rw [← not_or, ← hshared] at hapart
    have hkeys : ∀ b b', bucketKey .user p.userKey b ≠ bucketKey .user q.userKey b' :=
      fun b b' hkey => hapart ((bucketKey_eq_iff _ _ _ _ _ _).mp hkey).2.1
    have hscopes : ∀ apiKeyHash b b',
        bucketKey .user p.userKey b ≠ bucketKey .apiKey apiKeyHash b' := by
      intro apiKeyHash b b' hkey
      cases ((bucketKey_eq_iff _ _ _ _ _ _).mp hkey).1
    exact ⟨hkeys, hscopes, fun hasRedis settings auth htenant =>
      enforceRateLimits_counter hasRedis settings auth htenant hkeys hscopes⟩

/-- The user "eu:bob" of the tenant "acme". -/
def acmeUser : Principal := ⟨"acme", "eu:bob", by decide, by decide⟩

/-- The user "bob" of the tenant "acme:eu". -/
def regionUser : Principal := ⟨"acme:eu", "bob", by decide, by decide⟩

/-- One request per user and minute. -/
def Settings.oneEach : Settings :=
  { Settings.default with
    userRateLimitPerMinute := 1
    userRateLimit_pos := le_rfl }

/-- User "eu:bob" of tenant "acme" and user "bob" of tenant "acme:eu" share one counter: the one
request of the first uses up the quota of the second, who is denied. -/
theorem quota_shared_across_tenants :
    let first := enforceRateLimits true .oneEach ⟨"acme", "key-1", 120, "user"⟩ "eu:bob"
    let second := enforceRateLimits true .oneEach ⟨"acme:eu", "key-2", 120, "user"⟩ "bob"
    let fresh : CounterState := ⟨0, fun _ => none⟩
    acmeUser ≠ regionUser ∧ ¬ QuotaIsolated regionUser acmeUser ∧
      second.result (CounterState.answer Op.idle) fresh = .ok () ∧
      second.result (CounterState.answer Op.idle)
        (first.final (CounterState.answer Op.idle) fresh) =
          .error (tooManyRequests "User rate limit exceeded." 60) := by
  intro first second fresh
  refine ⟨fun h => ?_, fun h => ?_, ?_, ?_⟩
  · have htenant := congrArg Principal.tenantId h
    revert htenant
    decide
  · exact h.keys 0 0 (by decide +kernel)
  · decide +kernel
  · decide +kernel

theorem quotaIsolated_iff_sample :
    QuotaIsolated acmeUser ⟨"globex", "bob", by decide, by decide⟩ := by
  refine (quotaIsolated_iff acmeUser ⟨"globex", "bob", by decide, by decide⟩ fun h => ?_).mpr ?_
  · have htenant := congrArg Principal.tenantId h
    revert htenant
    decide
  · refine ⟨fun h => ?_, not_cutLater (by decide)⟩
    obtain ⟨between, htenant, -⟩ := h
    have hhead := congrArg (fun text => text.toList.head?) htenant
    simp [acmeUser] at hhead

end InferenceControlPlane.Gateway
