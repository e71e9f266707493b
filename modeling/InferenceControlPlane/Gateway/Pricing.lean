import InferenceControlPlane.Gateway.Ledger
import Mathlib.Tactic.Positivity

/-!
# The model that is called and the price that is charged

The router decides a tier, the client sends one model whatever the tier, and the price
is read off the model's name. The three agree only for some settings.
-/
namespace InferenceControlPlane.Gateway
open Python Program

/-! ## Rates -/

lemma scale_injective {k : ℚ} (hk : 0 < k) {x y : PyFloat} (h : x.scale k = y.scale k) :
    x = y := by
  cases x with
  | finite p =>
    cases y with
    | finite q =>
      have hpq : p * k = q * k := by simpa [PyFloat.scale] using h
      rw [mul_right_cancel₀ hk.ne' hpq]
    | _ => simp [PyFloat.scale, hk, hk.ne'] at h
  | _ => cases y <;> simp_all [PyFloat.scale, hk.ne']

lemma one_le_estimateTokens (text : String) : 1 ≤ estimateTokens text := le_max_left _ _

/-- The price of a positive number of tokens tells the rate. -/
lemma estimateCost_eq_iff (model : String) {tokens : ℕ} (htokens : 1 ≤ tokens)
    (settings : Settings) (rate : PyFloat) :
    estimateCost model tokens settings = rate.scale (tokens / 1000) ↔
      (if model = settings.cheapModelName then settings.cheapModelCostPer1kTokens
        else settings.premiumModelCostPer1kTokens) = rate := by
  have hmax : max (tokens : ℤ) 0 = tokens := max_eq_left (Int.natCast_nonneg tokens)
  have hpos : (0 : ℚ) < tokens := by exact_mod_cast htokens
  simp only [estimateCost, hmax, Int.cast_natCast]
  constructor
  · exact scale_injective (by positivity)
  · intro h
    rw [h]

/-! ## The model that is sent -/

/-- The models of a run's requests to the provider, retries included. -/
def modelsSent (events : List (Event Op Op.Reply)) : List String :=
  events.filterMap fun e => match e.op with
    | .post request => some request.model
    | _ => none

lemma modelsSent_append (before events : List (Event Op Op.Reply)) :
    modelsSent (before ++ events) = modelsSent before ++ modelsSent events :=
  List.filterMap_append

/-- Only the completion sends a model. -/
lemma modelsSent_eq_nil {events : List (Event Op Op.Reply)} {stage : Stage}
    (h : ∀ e ∈ events, e.op.stage = stage) (hstage : stage ≠ .completion) :
    modelsSent events = [] := by
  refine filterMap_of_stage (fun e he => ?_) h hstage
  obtain ⟨op, reply⟩ := e
  cases op with
  | post request => rfl
  | _ => exact absurd rfl he

/-- A run sends one model in all its requests, and sends it at least once when it succeeds. -/
def SendsOnly {α : Type} (model : String) (events : List (Event Op Op.Reply))
    (result : Except LlmError α) : Prop :=
  (∀ sent ∈ modelsSent events, sent = model) ∧ ∀ a, result = .ok a → modelsSent events ≠ []

/-- After one request, whatever more of the same is sent. -/
lemma sendsOnly_append {α : Type} {model : String} {before events : List (Event Op Op.Reply)}
    (hbefore : modelsSent before = [model]) (hevents : ∀ sent ∈ modelsSent events, sent = model)
    (result : Except LlmError α) : SendsOnly model (before ++ events) result := by
  rw [SendsOnly, modelsSent_append, hbefore]
  exact ⟨List.forall_mem_cons.mpr ⟨rfl, hevents⟩, fun _ _ => by simp⟩

lemma attempts_ensures (provider model : String) {request : Coroutine (Except LlmError String)}
    (hrequest : request.Ensures fun events _ => modelsSent events = [model]) (left : ℕ) :
    (attempts provider request left).Ensures (SendsOnly model) := by
  induction left with
  | zero => exact ⟨by simp [modelsSent], by rintro _ ⟨⟩⟩
  | succ left ih =>
    refine hrequest.bind fun events outcome hsent => ?_
    cases outcome with
    | ok text => exact fun _ => sendsOnly_append hsent (by simp [modelsSent]) _
    | error e =>
      dsimp only
      split_ifs
      · exact ih.mono fun rest result hrest => sendsOnly_append hsent hrest.1 result
      · exact fun _ => sendsOnly_append hsent (by simp [modelsSent]) _

section
variable [Runtime]

lemma requestOpenaiCompatible_ensures (settings : Settings)
    (provider prompt model baseUrl : String) (apiKey : Option String) :
    (requestOpenaiCompatible settings provider prompt model baseUrl apiKey).Ensures
      (SendsOnly model) := by
  have hrefused : ∀ (e : LlmError) (events : List (Event Op Op.Reply)), modelsSent events = [] →
      SendsOnly model events (.error e : Except LlmError String) := by
    intro e events hnone
    exact ⟨by simp [hnone], by rintro _ ⟨⟩⟩
  unfold requestOpenaiCompatible
  cases truthyText apiKey with
  | none => exact hrefused _ _ rfl
  | some apiKey =>
    intro allowed
    cases allowed with
    | false => exact hrefused _ _ rfl
    | true =>
      refine (attempts_ensures provider model ?_ _).mono fun events result h => h
      exact fun reply => rfl

/-- The OpenRouter models: an override, else the cheap one. -/
lemma generateCompletion_ensures [Digests] (settings : Settings) (prompt modelTier : String)
    (modelOverride providerOverride providerApiKey : Option String)
    (hmode : settings.llmMode ≠ .simulated)
    (hprovider : (truthyText providerOverride).getD "openrouter" = "openrouter") :
    let model := (truthyText modelOverride).getD settings.openrouterCheapModel
    (generateCompletion settings prompt modelTier modelOverride providerOverride
      providerApiKey).Ensures fun events result =>
        SendsOnly model events result ∧ ∀ answer, result = .ok answer → answer.1 = model := by
  intro model
  unfold generateCompletion
  rw [if_neg hmode, if_pos hprovider]
  refine (requestOpenaiCompatible_ensures _ _ _ _ _ _).bind fun events outcome hsent => ?_
  cases outcome with
  | ok text =>
    refine ⟨⟨?_, ?_⟩, ?_⟩
    · simpa using hsent.1
    · simpa using hsent.2 text rfl
    · rintro _ ⟨⟩
      rfl
  | error e =>
    refine ⟨⟨?_, ?_⟩, ?_⟩
    · simpa using hsent.1
    · rintro _ ⟨⟩
    · rintro _ ⟨⟩

/-! ## What a completed request is answered -/

variable [Digests]

/-- The provider that a request's completion goes to. -/
def providerFor (settings : Settings) (payload : GenerateRequest) : String :=
  (truthyText (chooseModel payload settings).providerOverride).getD "openrouter"

omit [Runtime] [Digests] in
lemma chooseModel_modelOverride (settings : Settings) {payload : GenerateRequest}
    (h : truthyText payload.modelOverride = none) :
    (chooseModel payload settings).modelOverride = none := by
  rw [chooseModel, h]

omit [Runtime] [Digests] in
lemma chooseModel_modelTier (settings : Settings) {payload : GenerateRequest}
    (h : truthyText payload.modelOverride = none) :
    (chooseModel payload settings).modelTier = "premium" ∨
      (chooseModel payload settings).modelTier = "cheap" := by
  rw [chooseModel, h]
  dsimp only
  split_ifs
  · exact .inl rfl
  · exact .inr rfl

lemma completeFor_ensures {settings : Settings} {payload : GenerateRequest}
    (hoverride : truthyText payload.modelOverride = none) (hmode : settings.llmMode ≠ .simulated)
    (hprovider : providerFor settings payload = "openrouter") :
    (completeFor settings payload).Ensures fun events result =>
      SendsOnly settings.openrouterCheapModel events result ∧
        ∀ answer, result = .ok answer → answer.1 = settings.openrouterCheapModel := by
  unfold completeFor
  dsimp only
  rw [chooseModel_modelOverride settings hoverride]
  exact generateCompletion_ensures _ _ _ none _ _ hmode hprovider

/-- A completed answer: one model was sent to the provider, it is the one that the response
reports, and its name alone decides the price. -/
structure Completed (settings : Settings) (response : GenerateResponse)
    (events : List (Event Op Op.Reply)) : Prop where
  sent : modelsSent events ≠ [] ∧ ∀ sent ∈ modelsSent events, sent = settings.openrouterCheapModel
  used : response.modelUsed = settings.openrouterCheapModel
  cost : ∃ tokens : ℕ, 1 ≤ tokens ∧ response.tokens = tokens ∧
    response.cost = estimateCost settings.openrouterCheapModel tokens settings

theorem serve_completed (hasRedis : Bool) (settings : Settings) (payload : GenerateRequest)
    (auth : AuthContext) (started : ℚ) (requestId : String)
    (hoverride : truthyText payload.modelOverride = none) (hmode : settings.llmMode ≠ .simulated)
    (hprovider : providerFor settings payload = "openrouter") :
    (serve hasRedis settings payload auth started requestId).Ensures fun events result =>
      ∀ answer, result = .ok answer → answer.1.cached = false →
        Completed settings answer.1 events := by
  refine serve_rule (enforceRateLimits_ensures _ _ _ _) (getCachedResponse_always _ _ _).ensures
    (completeFor_ensures hoverride hmode hprovider) ?_ ?_ ?_ ?_
  · rintro _ _ _ _ ⟨⟩
  · rintro _ _ cached _ _ finished now _ _ _ ⟨⟩ hfresh
    cases hfresh
  · rintro _ _ _ _ _ _ _ _ ⟨⟩
  · intro admitting looking completing modelUsed text hadmission hlookup hcompletion
    obtain ⟨⟨hsent, hnonempty⟩, hmodel⟩ := hcompletion
    obtain rfl : modelUsed = settings.openrouterCheapModel := hmodel _ rfl
    have hadmitted := modelsSent_eq_nil hadmission.stage (by decide)
    have hlooked := modelsSent_eq_nil hlookup (by decide)
    rintro finished now _ _ _ _ ⟨⟩ -
    refine ⟨?_, rfl, totalTokens payload text, one_le_estimateTokens _, rfl, rfl⟩
    rw [modelsSent_append, hadmitted, modelsSent_append, hlooked]
    have hreport : ∀ {events}, modelsSent events = [] →
        modelsSent completing ++ modelsSent events ≠ [] ∧
          ∀ sent ∈ modelsSent completing ++ modelsSent events,
            sent = settings.openrouterCheapModel := by
      intro events hnone
      rw [hnone, List.append_nil]
      exact ⟨hnonempty _ rfl, hsent⟩
    show modelsSent (completing ++ _) ≠ [] ∧ ∀ sent ∈ modelsSent (completing ++ _), _
    rw [modelsSent_append]
    exact hreport rfl

theorem handleGenerateRequest_completed (hasRedis : Bool) (settings : Settings)
    (payload : GenerateRequest) (auth : AuthContext)
    (hoverride : truthyText payload.modelOverride = none) (hmode : settings.llmMode ≠ .simulated)
    (hprovider : providerFor settings payload = "openrouter") :
    (handleGenerateRequest hasRedis settings payload auth).Ensures fun events handled =>
      ∀ response, handled.1 = .ok response → response.cached = false →
        Completed settings response events := by
  refine handleGenerateRequest_rule
    (fun _ _ => serve_completed _ _ _ _ _ _ hoverride hmode hprovider) ?_ ?_
  · rintro started requestId serving response tasks hserved _ ⟨⟩ hfresh
    obtain ⟨hsent, hused, hcost⟩ := hserved _ rfl hfresh
    exact ⟨hsent, hused, hcost⟩
  · rintro started requestId serving raised _ finished _ _ ⟨⟩

/-! ## Agreement -/

/-- A model is sent to the provider, reported in the response and priced at a rate, for one and
the same request. -/
structure ChargedAs (model : String) (rate : PyFloat) (response : GenerateResponse)
    (events : List (Event Op Op.Reply)) : Prop where
  sent : ∀ sent ∈ modelsSent events, sent = model
  used : response.modelUsed = model
  cost : response.cost = rate.scale (response.tokens / 1000)

/-- The tier of the route is the tier that is called and charged. -/
def RouteKept (settings : Settings) (payload : GenerateRequest) (response : GenerateResponse)
    (events : List (Event Op Op.Reply)) : Prop :=
  ((chooseModel payload settings).modelTier = "cheap" → ChargedAs settings.openrouterCheapModel
      settings.cheapModelCostPer1kTokens response events) ∧
    ((chooseModel payload settings).modelTier = "premium" →
      ChargedAs settings.openrouterPremiumModel
      settings.premiumModelCostPer1kTokens response events)

/-- Settings under which one model and the price of its name serve the tier. -/
def TierServed (settings : Settings) (tier : String) : Prop :=
  if tier = "premium" then
    settings.openrouterCheapModel = settings.openrouterPremiumModel ∧
      (settings.openrouterCheapModel = settings.cheapModelName →
        settings.cheapModelCostPer1kTokens = settings.premiumModelCostPer1kTokens)
  else
    settings.openrouterCheapModel ≠ settings.cheapModelName →
      settings.cheapModelCostPer1kTokens = settings.premiumModelCostPer1kTokens

instance decidableTierServed (settings : Settings) (tier : String) :
    Decidable (TierServed settings tier) :=
  inferInstanceAs (Decidable (if _ = _ then _ ∧ (_ → _) else _ → _))

omit [Runtime] [Digests] in
lemma Completed.chargedAs_iff {settings : Settings} {response : GenerateResponse}
    {events : List (Event Op Op.Reply)} (h : Completed settings response events) (model : String)
    (rate : PyFloat) : ChargedAs model rate response events ↔
      settings.openrouterCheapModel = model ∧
        (if settings.openrouterCheapModel = settings.cheapModelName then
          settings.cheapModelCostPer1kTokens else settings.premiumModelCostPer1kTokens) = rate := by
  obtain ⟨tokens, htokens, hcount, hcost⟩ := h.cost
  rw [← estimateCost_eq_iff _ htokens]
  constructor
  · intro hcharged
    refine ⟨h.used.symm.trans hcharged.used, ?_⟩
    rw [← hcost, hcharged.cost, hcount]
    simp
  · rintro ⟨hmodel, hrate⟩
    refine ⟨hmodel ▸ h.sent.2, hmodel ▸ h.used, ?_⟩
    rw [hcost, hrate, hcount]
    simp

/-- Whenever the upstream call of a request without a model override succeeds, the model
and the price follow the tier exactly under the settings that serve it. -/
theorem routeKept_iff {σ : Type} (w : World Op Op.Reply σ) (s : σ) (hasRedis : Bool)
    (settings : Settings) (payload : GenerateRequest) (auth : AuthContext)
    (hoverride : truthyText payload.modelOverride = none) (hmode : settings.llmMode ≠ .simulated)
    (hprovider : providerFor settings payload = "openrouter") (response : GenerateResponse)
    (hresponse : ((handleGenerateRequest hasRedis settings payload auth).result w s).1 =
      .ok response) (hfresh : response.cached = false) :
    RouteKept settings payload response
        ((handleGenerateRequest hasRedis settings payload auth).trace w s) ↔
      TierServed settings (chooseModel payload settings).modelTier := by
  have h := (handleGenerateRequest_completed hasRedis settings payload auth hoverride hmode
    hprovider).run w s response hresponse hfresh
  rw [RouteKept, h.chargedAs_iff, h.chargedAs_iff, TierServed]
  rcases chooseModel_modelTier settings hoverride with htier | htier
  · simp only [htier, String.reduceEq, IsEmpty.forall_iff, true_and, if_true, forall_const]
    by_cases hname : settings.openrouterCheapModel = settings.cheapModelName
    · rw [if_pos hname]
      exact and_congr_right fun _ => ⟨fun hrate _ => hrate, fun hrate => hrate hname⟩
    · rw [if_neg hname]
      exact and_congr_right fun _ => iff_of_true rfl fun hsame => absurd hsame hname
  · simp only [htier, String.reduceEq, IsEmpty.forall_iff, true_and, and_true, if_false,
      forall_const]
    by_cases hname : settings.openrouterCheapModel = settings.cheapModelName
    · rw [if_pos hname]
      exact iff_of_true rfl fun hother => absurd hname hother
    · rw [if_neg hname]
      exact ⟨fun hrate _ => hrate.symm, fun hrate => (hrate hname).symm⟩

end

/-! ## The default settings -/

/-- The default settings, calling the provider. -/
def Settings.live : Settings := { Settings.default with llmMode := .openaiCompatible }

/-- Nothing is cached, and the provider answers "hi". -/
def answering : World Op Op.Reply Unit
  | .post _, s => (.response 200 (.json (.obj [("choices",
      .arr [.obj [("message", .obj [("content", .str "hi")])]])])), s)
  | op, s => (op.idle, s)

/-- Under the default settings, a request that is routed to the cheap tier is completed on
`openrouter_cheap_model`, whose name is not `cheap_model_name`, and is charged at the premium
rate. -/
theorem cheap_request_charged_premium :
    letI := Runtime.ascii
    letI := Digests.listed helloDigest
    let payload := GenerateRequest.plain "hello" "u" (by decide) (by decide)
    let request := handleGenerateRequest true .live payload ⟨"acme", "key-hash", 120, "user"⟩
    (chooseModel payload .live).modelTier = "cheap" ∧
      ∃ response, (request.result answering ()).1 = .ok response ∧ response.cached = false ∧
        ¬ RouteKept .live payload response (request.trace answering ()) := by
  refine ⟨rfl, _, rfl, rfl, fun hkept => ?_⟩
  have hcost := (hkept.1 rfl).cost
  revert hcost
  decide +kernel

/-- One rate for both tiers serves the cheap one. -/
def Settings.oneRate : Settings :=
  { Settings.live with
    premiumModelCostPer1kTokens := Settings.default.cheapModelCostPer1kTokens
    premiumCost_nonneg := Settings.default.cheapCost_nonneg }

theorem routeKept_iff_sample :
    letI := Runtime.ascii
    letI := Digests.listed helloDigest
    let payload := GenerateRequest.plain "hello" "u" (by decide) (by decide)
    let request := handleGenerateRequest true .oneRate payload ⟨"acme", "key-hash", 120, "user"⟩
    ∃ response, (request.result answering ()).1 = .ok response ∧
      RouteKept .oneRate payload response (request.trace answering ()) := by
  let ascii := Runtime.ascii
  let digests := Digests.listed helloDigest
  refine ⟨_, rfl, (routeKept_iff answering () true .oneRate _ _ rfl (by decide) (by decide) _ rfl
    rfl).mpr ?_⟩
  decide +kernel

end InferenceControlPlane.Gateway
