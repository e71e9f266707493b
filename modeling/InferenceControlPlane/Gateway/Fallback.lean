import InferenceControlPlane.Gateway.Extraction
import InferenceControlPlane.Gateway.Phases

/-!
# Falling back

The source pairs the cheap and the premium model, and completes a request on one model. A
completion on the other one is run here from where the failed completion leaves the
surroundings, and compared with what the handler returns.
-/
namespace InferenceControlPlane.Gateway
open Python Program

/-- `_fallback_model`: the premium model for the cheap one, the cheap one for the premium one, and
nothing for any other. No code calls it. -/
def fallbackModel (model : String) (settings : Settings) : Option String :=
  if model = settings.cheapModelName then some settings.premiumModelName
  else if model = settings.premiumModelName then some settings.cheapModelName
  else none

section
variable [Runtime] [Digests]

/-- The completion of a request on a model of its choice: what a fallback would call with the
other model. -/
def completeOn (settings : Settings) (payload : GenerateRequest) (model : String) :
    Coroutine (Except LlmError (String × String)) :=
  let route := chooseModel payload settings
  generateCompletion settings (redactPii payload.prompt) route.modelTier (some model)
    route.providerOverride payload.providerApiKey

section World
variable {σ : Type} (w : World Op Op.Reply σ) (s : σ) (hasRedis : Bool) (settings : Settings)
  (payload : GenerateRequest) (auth : AuthContext)

/-- What a completion on another model would come to, after the one on the route. -/
def otherCompletion (model : String) : Except LlmError (String × String) :=
  (completeOn settings payload model).result w
    ((completeFor settings payload).final w (afterLookup w s hasRedis settings payload auth))

/-- A 502 says that a request found nothing and its completion failed. -/
lemma badGateway_iff :
    ((handleGenerateRequest hasRedis settings payload auth).result w s).1 = .error badGateway ↔
      lookedUp w s hasRedis settings payload auth = .ok none ∧
        ∃ e, routedCompletion w s hasRedis settings payload auth = .error e := by
  cases hlooked : lookedUp w s hasRedis settings payload auth with
  | error e =>
    obtain ⟨hcode, latencyMs, hresult⟩ := handled_of_denied w s hlooked
    rw [hresult]
    refine iff_of_false ?_ (by rintro ⟨⟨⟩, -⟩)
    rintro ⟨⟩
    exact absurd hcode (by decide)
  | ok found =>
    cases found with
    | some cached =>
      obtain ⟨response, latencyMs, hresult⟩ := handled_of_hit w s hlooked
      rw [hresult]
      exact iff_of_false (by rintro ⟨⟩) (by rintro ⟨⟨⟩, -⟩)
    | none =>
      cases hrouted : routedCompletion w s hasRedis settings payload auth with
      | error e =>
        obtain ⟨latencyMs, hresult⟩ := handled_of_failed w s hlooked hrouted
        rw [hresult]
        exact iff_of_true rfl ⟨rfl, e, rfl⟩
      | ok completion =>
        obtain ⟨response, latencyMs, hresult⟩ := handled_of_completed w s hlooked hrouted
        rw [hresult]
        exact iff_of_false (by rintro ⟨⟩) (by rintro ⟨-, e, ⟨⟩⟩)

/-- When the routed completion fails and the one on the counterpart would succeed, the
counterpart's text is answered, as its; a 502 needs both to fail. -/
structure FallsBack (counterpart : String) (outcome : Except HttpException GenerateResponse) :
    Prop where
  answered : lookedUp w s hasRedis settings payload auth = .ok none → ∀ e model text,
    routedCompletion w s hasRedis settings payload auth = .error e → e.isClientError = true →
      otherCompletion w s hasRedis settings payload auth counterpart = .ok (model, text) →
        ∃ response, outcome = .ok response ∧ response.response = text ∧
          response.modelUsed = counterpart
  failed : outcome = .error badGateway →
    (∃ e, routedCompletion w s hasRedis settings payload auth = .error e) ∧
      ∃ e, otherCompletion w s hasRedis settings payload auth counterpart = .error e

/-- Whatever the counterpart is, a request falls back on it exactly if it never comes to
that: nothing is to be completed, the route succeeds, or the counterpart would fail too. -/
theorem fallsBack_iff (counterpart : String) :
    FallsBack w s hasRedis settings payload auth counterpart
        ((handleGenerateRequest hasRedis settings payload auth).result w s).1 ↔
      (lookedUp w s hasRedis settings payload auth = .ok none →
        (∃ answer, routedCompletion w s hasRedis settings payload auth = .ok answer) ∨
          ∃ e, otherCompletion w s hasRedis settings payload auth counterpart = .error e) := by
  constructor
  · intro h hlooked
    cases hrouted : routedCompletion w s hasRedis settings payload auth with
    | ok answer => exact .inl ⟨answer, rfl⟩
    | error e =>
      have hfailed := (badGateway_iff w s hasRedis settings payload auth).mpr ⟨hlooked, e, hrouted⟩
      exact .inr (h.failed hfailed).2
  · intro h
    constructor
    · intro hlooked e model text hrouted _ hother
      rcases h hlooked with ⟨answer, hanswer⟩ | ⟨e', hfailed⟩
      · rw [hrouted] at hanswer
        cases hanswer
      · rw [hother] at hfailed
        cases hfailed
    · intro hfailed
      obtain ⟨hlooked, e, hrouted⟩ :=
        (badGateway_iff w s hasRedis settings payload auth).mp hfailed
      refine ⟨⟨e, hrouted⟩, ?_⟩
      rcases h hlooked with ⟨answer, hanswer⟩ | hother
      · rw [hrouted] at hanswer
        cases hanswer
      · exact hother

end World
end

/-! ## One model down -/

/-- Every post fails that is not for this model. -/
def servingOnly (model : String) : World Op Op.Reply Unit
  | .post request, s =>
    if request.model = model then (.response 200 (.json (messagePayload (.str "hi"))), s)
    else (.response 500 .empty, s)
  | op, s => (op.idle, s)

/-- The routed model fails with a client error, a completion on its counterpart would succeed from
where the failed one leaves the provider, and the request still fails. -/
theorem counterpart_not_tried :
    letI := Runtime.ascii
    letI := Digests.listed helloDigest
    let payload := GenerateRequest.plain "hello" "u" (by decide) (by decide)
    let auth : AuthContext := ⟨"acme", "key-hash", 120, "user"⟩
    let w := servingOnly "premium-model"
    payload.modelOverride = none ∧ (chooseModel payload .live).modelTier = "cheap" ∧
      fallbackModel Settings.live.cheapModelName .live = some "premium-model" ∧
      lookedUp w () true .live payload auth = .ok none ∧
      (∃ e, routedCompletion w () true .live payload auth = .error e ∧ e.isClientError = true) ∧
      otherCompletion w () true .live payload auth "premium-model" = .ok ("premium-model", "hi") ∧
      ¬ FallsBack w () true .live payload auth "premium-model"
        ((handleGenerateRequest true .live payload auth).result w ()).1 := by
  let ascii := Runtime.ascii
  let digests := Digests.listed helloDigest
  refine ⟨rfl, rfl, by decide, rfl, ⟨_, rfl, rfl⟩, rfl, fun h => ?_⟩
  obtain ⟨-, e, he⟩ := h.failed rfl
  cases he

end InferenceControlPlane.Gateway
