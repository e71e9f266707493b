import InferenceControlPlane.Gateway.Authentication
import InferenceControlPlane.Gateway.CacheKeys
import InferenceControlPlane.Gateway.Phases
import InferenceControlPlane.Gateway.Pricing

/-!
# Rows and their columns

The queued row of a request holds fields of the payload, of the authentication and of the
settings, each within the limits of its own origin. The model of a failed request is its
cache key instead, which is put together.
-/
namespace InferenceControlPlane.Gateway
open Python Program

/-! ## Columns -/

/-- A row respects the columns of `request_logs`: no text is longer than its column, and neither
the tokens nor the cost are negative. -/
structure RowFits (row : LogTask) : Prop where
  tenantId : row.tenantId.length ≤ 128
  userId : row.userId.length ≤ 128
  apiKeyHash : row.apiKeyHash.length ≤ 64
  modelUsed : row.modelUsed.length ≤ 128
  status : row.status.text.length ≤ 32
  tokens : 0 ≤ row.tokens
  cost : (PyFloat.finite 0).le row.cost = true

lemma status_length (status : Status) : status.text.length ≤ 32 := by
  cases status with
  | success => decide
  | error => decide

/-- The clamp leaves nothing negative, and NaN as it is. -/
lemma clamp_nonneg_iff (cost : PyFloat) :
    (PyFloat.finite 0).le (cost.max (.finite 0)) = true ↔ cost ≠ .nan := by
  cases cost with
  | finite q =>
    refine iff_of_true ?_ (by rintro ⟨⟩)
    rcases lt_or_ge q 0 with hq | hq
    · simp [PyFloat.max, PyFloat.lt, PyFloat.le, hq]
    · simp [PyFloat.max, PyFloat.lt, PyFloat.le, hq, not_lt.mpr hq]
  | inf => exact iff_of_true rfl (by rintro ⟨⟩)
  | negInf => exact iff_of_true (by simp [PyFloat.max, PyFloat.lt, PyFloat.le]) (by rintro ⟨⟩)
  | nan => exact iff_of_false (by decide) (by simp)

/-- Of a row whose tenant, user and key fit, the model and the cost are left to check. -/
lemma rowFits_iff {log : LogTask} (htenant : log.tenantId.length ≤ 128)
    (huser : log.userId.length ≤ 128) (hhash : log.apiKeyHash.length ≤ 64) :
    RowFits log.row ↔ log.modelUsed.length ≤ 128 ∧ log.cost ≠ .nan := by
  constructor
  · intro h
    exact ⟨h.modelUsed, (clamp_nonneg_iff _).mp h.cost⟩
  · rintro ⟨hmodel, hcost⟩
    exact ⟨htenant, huser, hhash, hmodel, status_length _, le_max_right _ _,
      (clamp_nonneg_iff _).mpr hcost⟩

/-! ## Names -/

lemma strip_length_le (text : String) : (strip text).length ≤ text.length := by
  have hdrop : ∀ cs : List Char, (cs.dropWhile isSpace).length ≤ cs.length :=
    fun cs => (List.dropWhile_suffix isSpace).length_le
  rw [strip, String.length_ofList, stripChars, List.length_reverse]
  refine (hdrop _).trans ?_
  rw [List.length_reverse]
  refine (hdrop _).trans ?_
  rw [String.length_toList]

/-- The names of the models that the settings hold, as the bound on a row's model is one on these
names. -/
def Settings.modelNames (settings : Settings) : List String :=
  [settings.cheapModelName, settings.premiumModelName, settings.openrouterCheapModel,
    settings.openrouterPremiumModel]

/-- The model that a request is completed on: the override of its route, and without one the
simulated or the cheap model, whatever the tier. -/
def completionModel (settings : Settings) (payload : GenerateRequest) : String :=
  (truthyText (chooseModel payload settings).modelOverride).getD
    (if settings.llmMode = .simulated then "simulated-model" else settings.openrouterCheapModel)

lemma chooseModel_modelOverride_length (settings : Settings) (payload : GenerateRequest)
    {model : String} (h : (chooseModel payload settings).modelOverride = some model) :
    model.length ≤ 128 := by
  rw [chooseModel] at h
  cases hoverride : truthyText payload.modelOverride with
  | none =>
    rw [hoverride] at h
    cases h
  | some name =>
    rw [hoverride] at h
    obtain rfl : strip name = model := Option.some.inj h
    have hname := payload.modelOverride_length name (Question.truthyText_eq_some hoverride)
    exact (strip_length_le name).trans hname

lemma completionModel_length (settings : Settings) (payload : GenerateRequest)
    (hmodels : ∀ name ∈ settings.modelNames, name.length ≤ 128) :
    (completionModel settings payload).length ≤ 128 := by
  rw [completionModel]
  cases hoverride : truthyText (chooseModel payload settings).modelOverride with
  | some model =>
    exact chooseModel_modelOverride_length settings payload (Question.truthyText_eq_some hoverride)
  | none =>
    rw [Option.getD_none]
    split_ifs
    · decide
    · exact hmodels _ (by simp [Settings.modelNames])

lemma modelTier_length (settings : Settings) (payload : GenerateRequest) :
    (chooseModel payload settings).modelTier.length ≤ 8 := by
  rw [chooseModel]
  cases truthyText payload.modelOverride with
  | some name =>
    show "override".length ≤ 8
    decide
  | none =>
    dsimp only
    split_ifs
    · decide
    · decide

/-- A key is too long when a provider and a tier are put together that fit by themselves. -/
lemma cacheModelKey_length (settings : Settings) (payload : GenerateRequest) :
    (cacheModelKey (chooseModel payload settings)).length ≤ 128 ↔
      ∀ provider, truthyText (chooseModel payload settings).modelOverride = none →
        truthyText (chooseModel payload settings).providerOverride = some provider →
          provider.length + (chooseModel payload settings).modelTier.length < 128 := by
  rw [cacheModelKey]
  cases hoverride : truthyText (chooseModel payload settings).modelOverride with
  | some model =>
    refine iff_of_true ?_ (by rintro _ ⟨⟩)
    exact chooseModel_modelOverride_length settings payload (Question.truthyText_eq_some hoverride)
  | none =>
    rw [Option.getD_none, String.length_append, String.length_append]
    have htier := modelTier_length settings payload
    cases hprovider : truthyText (chooseModel payload settings).providerOverride with
    | none =>
      refine iff_of_true ?_ (by rintro _ _ ⟨⟩)
      have hdefault : "default".length + ":".length = 8 := by decide
      rw [Option.getD_none, hdefault]
      omega
    | some provider =>
      have hcolon : ":".length = 1 := by decide
      rw [Option.getD_some, hcolon]
      constructor
      · rintro h _ - ⟨⟩
        omega
      · intro h
        have hlt := h provider rfl rfl
        omega

section
variable [Runtime] [Digests]

lemma completeFor_model (settings : Settings) (payload : GenerateRequest) :
    (completeFor settings payload).Ensures fun _ result =>
      ∀ answer, result = .ok answer → answer.1 = completionModel settings payload := by
  unfold completeFor generateCompletion completionModel
  dsimp only
  split_ifs with hmode hprovider
  · rintro _ ⟨⟩
    rfl
  · refine (requestOpenaiCompatible_always _ _ _ _ _ _).ensures.bind fun events outcome _ => ?_
    cases outcome with
    | ok text =>
      rintro _ ⟨⟩
      rfl
    | error e => rintro _ ⟨⟩
  · rintro _ ⟨⟩

omit [Runtime] [Digests] in
/-- A price is a number, as both rates are. -/
lemma estimateCost_ne_nan (settings : Settings) (model : String) {tokens : ℕ}
    (htokens : 1 ≤ tokens) : estimateCost model tokens settings ≠ .nan := by
  intro hcost
  have hrate := (estimateCost_eq_iff model htokens settings .nan).mp hcost
  split_ifs at hrate
  · have hcheap := settings.cheapCost_nonneg
    rw [hrate] at hcheap
    cases hcheap
  · have hpremium := settings.premiumCost_nonneg
    rw [hrate] at hpremium
    cases hpremium

/-! ## Rows -/

omit [Runtime] [Digests] in
/-- The log of a request fits if its model does and its cost is a number. -/
lemma requestLog_fits {payload : GenerateRequest} {auth : AuthContext}
    (htenant : auth.tenantId.length ≤ 128) (hhash : auth.apiKeyHash.length ≤ 64)
    (prompt response modelUsed : String) (latencyMs : ℚ) (tokens : ℤ) (cost : PyFloat)
    (cacheHit : Bool) (status : Status) (errorMessage : Option String) :
    (∀ log ∈ [requestLog payload auth prompt response modelUsed latencyMs tokens cost cacheHit
      status errorMessage].filterMap Task.log, RowFits log.row) ↔
        modelUsed.length ≤ 128 ∧ cost ≠ .nan := by
  show (∀ log ∈ [_], RowFits (LogTask.row log)) ↔ _
  rw [List.forall_mem_singleton]
  exact rowFits_iff htenant payload.userId_length.2 hhash

/-- When the row of a request fits. That of a failed request holds its key, and that of a cached
answer what its entry holds, which another program may have written; that of a completed one
always fits. -/
def RowFitsWhen (settings : Settings) (payload : GenerateRequest)
    (looked : Except HttpException (Option CachedResponse))
    (routed : Except LlmError (String × String)) : Prop :=
  match looked, routed with
  | .error _, _ => (cacheModelKey (chooseModel payload settings)).length ≤ 128
  | .ok (some cached), _ => cached.modelUsed.length ≤ 128 ∧ cached.cost ≠ .nan
  | .ok none, .error _ => (cacheModelKey (chooseModel payload settings)).length ≤ 128
  | .ok none, .ok _ => True

/-- The row of a request fits its columns exactly when this holds of its key or of the entry it
finds; and what it stores is an entry that fits. -/
theorem logRows_fit_iff {σ : Type} (w : World Op Op.Reply σ) (s : σ) (hasRedis : Bool)
    (settings : Settings) (payload : GenerateRequest) (auth : AuthContext) (apiKey : String)
    (htenant : auth.tenantId.length ≤ 128) (hhash : auth.apiKeyHash = hashApiKey apiKey)
    (hdigest : ∀ text, (Digests.sha256 text).length = 64)
    (hmodels : ∀ name ∈ settings.modelNames, name.length ≤ 128) :
    let tasks := ((handleGenerateRequest hasRedis settings payload auth).result w s).2
    ((∀ log ∈ tasks.filterMap Task.log, RowFits log.row) ↔
        RowFitsWhen settings payload (lookedUp w s hasRedis settings payload auth)
          (routedCompletion w s hasRedis settings payload auth)) ∧
      ∀ entry ∈ tasks.filterMap Task.entry,
        entry.modelUsed.length ≤ 128 ∧ entry.cost ≠ .nan := by
  intro tasks
  have hkey : auth.apiKeyHash.length ≤ 64 := by
    rw [hhash]
    exact (hdigest apiKey).le
  have hzero : PyFloat.finite 0 ≠ .nan := by rintro ⟨⟩
  cases hlooked : lookedUp w s hasRedis settings payload auth with
  | error e =>
    obtain ⟨-, latencyMs, hresult⟩ := handled_of_denied w s hlooked
    have htasks : tasks = [failureLog settings payload auth latencyMs e.detail] :=
      congrArg Prod.snd hresult
    rw [htasks]
    refine ⟨?_, by simp [failureLog, requestLog, Task.entry]⟩
    rw [failureLog, requestLog_fits htenant hkey, RowFitsWhen]
    exact and_iff_left hzero
  | ok found =>
    cases found with
    | some cached =>
      obtain ⟨response, latencyMs, hresult⟩ := handled_of_hit w s hlooked
      have htasks : tasks = [requestLog payload auth (redactPii payload.prompt) cached.response
          cached.modelUsed latencyMs cached.tokens cached.cost true .success none] :=
        congrArg Prod.snd hresult
      rw [htasks]
      refine ⟨?_, by simp [requestLog, Task.entry]⟩
      rw [requestLog_fits htenant hkey, RowFitsWhen]
    | none =>
      cases hrouted : routedCompletion w s hasRedis settings payload auth with
      | error e =>
        obtain ⟨latencyMs, hresult⟩ := handled_of_failed w s hlooked hrouted
        have htasks : tasks = [failureLog settings payload auth latencyMs
            "Internal error during generation."] := congrArg Prod.snd hresult
        rw [htasks]
        refine ⟨?_, by simp [failureLog, requestLog, Task.entry]⟩
        rw [failureLog, requestLog_fits htenant hkey, RowFitsWhen]
        exact and_iff_left hzero
      | ok completion =>
        obtain ⟨modelUsed, text⟩ := completion
        obtain ⟨response, latencyMs, hresult⟩ := handled_of_completed w s hlooked hrouted
        obtain rfl : modelUsed = completionModel settings payload :=
          (completeFor_model settings payload).run w _ _ hrouted
        have hlength := completionModel_length settings payload hmodels
        have hcost := estimateCost_ne_nan settings (completionModel settings payload)
          (one_le_estimateTokens (redactPii payload.prompt ++ " " ++ text))
        have hlogs : tasks.filterMap Task.log = [requestLog payload auth (redactPii payload.prompt)
            text (completionModel settings payload) latencyMs (totalTokens payload text)
            (estimateCost (completionModel settings payload) (totalTokens payload text) settings)
            false .success none].filterMap Task.log :=
          congrArg (fun handled => handled.2.filterMap Task.log) hresult
        have hentries : tasks.filterMap Task.entry = [⟨text, completionModel settings payload,
            totalTokens payload text,
            estimateCost (completionModel settings payload) (totalTokens payload text) settings⟩] :=
          congrArg (fun handled => handled.2.filterMap Task.entry) hresult
        constructor
        · rw [hlogs, requestLog_fits htenant hkey, RowFitsWhen]
          exact iff_of_true ⟨hlength, hcost⟩ trivial
        · rw [hentries, List.forall_mem_singleton]
          exact ⟨hlength, hcost⟩

end

/-! ## A provider and a tier -/

/-- Digests of the right length; the first is that of "key". -/
@[reducible] def Digests.sized : Digests where
  sha256 text := if text = "key" then
      "2c70e12b7a0646f92279f427c7b38e7334d8e5389cff167a1dc30e73f826b683"
    else String.ofList (List.replicate 64 '0')
  sha1 _ := ""

lemma Digests.sized_length (text : String) : (Digests.sized.sha256 text).length = 64 := by
  show (if text = "key" then _ else _ : String).length = 64
  split_ifs
  · decide +kernel
  · rw [String.length_ofList, List.length_replicate]

/-- A provider of so many letters. -/
def providerOf (letters : ℕ) : String := String.ofList (List.replicate letters 'p')

lemma providerOf_length (letters : ℕ) : (providerOf letters).length = letters := by
  rw [providerOf, String.length_ofList, List.length_replicate]

lemma strip_providerOf (letters : ℕ) :
    strip (providerOf (letters + 1)) = providerOf (letters + 1) := by
  have hne : List.replicate (letters + 1) 'p' ≠ [] := by simp
  rw [strip, providerOf, String.toList_ofList]
  rw [stripChars_of_ends hne]
  · rw [List.head_replicate]
    decide
  · rw [List.getLast_replicate]
    decide

lemma truthyText_providerOf (letters : ℕ) :
    truthyText (some (providerOf (letters + 1))) = some (providerOf (letters + 1)) := by
  have hne : providerOf (letters + 1) ≠ "" := by
    intro h
    have hlength := providerOf_length (letters + 1)
    rw [h] at hlength
    cases hlength
  simp [truthyText, Option.filter_some, hne]

lemma hello_fits : 1 ≤ "hello".length ∧ "hello".length ≤ 20000 := by decide

lemma u_fits : 1 ≤ "u".length ∧ "u".length ≤ 128 := by decide

lemma model_fits_of_none {model : String} (h : none = some model) : model.length ≤ 128 := by
  cases h

lemma provider_fits_of_some {letters : ℕ} (hletters : letters ≤ 128) {provider : String}
    (h : some (providerOf letters) = some provider) : provider.length ≤ 128 := by
  rw [← Option.some.inj h, providerOf_length]
  exact hletters

/-- A request of "hello" for a provider of so many letters. -/
def GenerateRequest.elsewhere (letters : ℕ) (hletters : letters ≤ 128) : GenerateRequest where
  prompt := "hello"
  userId := "u"
  priority := .low
  modelOverride := none
  providerOverride := some (providerOf letters)
  providerApiKey := none
  prompt_length := hello_fits
  userId_length := u_fits
  modelOverride_length _ h := model_fits_of_none h
  providerOverride_length _ h := provider_fits_of_some hletters h

lemma chooseModel_providerOverride (settings : Settings) (payload : GenerateRequest) :
    (chooseModel payload settings).providerOverride =
      (truthyText payload.providerOverride).map strip := by
  rw [chooseModel]
  cases truthyText payload.modelOverride with
  | none => rfl
  | some model => rfl

lemma chooseModel_elsewhere (letters : ℕ) (hletters : letters + 1 ≤ 128) :
    let routed := chooseModel (.elsewhere (letters + 1) hletters) .live
    truthyText routed.modelOverride = none ∧
      truthyText routed.providerOverride = some (providerOf (letters + 1)) ∧
        routed.modelTier = "cheap" := by
  intro routed
  refine ⟨rfl, ?_, ?_⟩
  · have hprovider : (GenerateRequest.elsewhere (letters + 1) hletters).providerOverride =
      some (providerOf (letters + 1)) := rfl
    dsimp only [routed]
    rw [chooseModel_providerOverride, hprovider, truthyText_providerOf, Option.map_some,
      strip_providerOf, truthyText_providerOf]
  · have hlow : ¬ (Priority.low = .high ∨ 1200 < estimateTokens "hello") := by decide
    have hnone : truthyText (GenerateRequest.elsewhere (letters + 1) hletters).modelOverride =
      none := rfl
    dsimp only [routed]
    rw [chooseModel, hnone]
    exact if_neg hlow

/-- No Redis, and nothing upstream. -/
def alone : World Op Op.Reply Unit := fun op s => (op.idle, s)

section
variable [Runtime] [Digests]

/-- Nothing completes for a provider other than the one that is served. -/
lemma routedCompletion_elsewhere (letters : ℕ) (hletters : letters + 1 ≤ 128)
    (hother : letters + 1 ≠ "openrouter".length) (auth : AuthContext) :
    ∃ e, routedCompletion alone () false .live (.elsewhere (letters + 1) hletters) auth =
      .error e := by
  obtain ⟨-, hprovider, -⟩ := chooseModel_elsewhere letters hletters
  have hne : providerOf (letters + 1) ≠ "openrouter" := by
    intro h
    apply hother
    rw [← h, providerOf_length]
  rw [routedCompletion, completeFor, generateCompletion, if_neg (by decide)]
  dsimp only
  rw [hprovider, Option.getD_some, if_neg hne]
  exact ⟨_, rfl⟩

end

/-- A provider override of 128 letters is within its own limit. The request for it fails, and the
model of its row, the provider joined with the tier, has 134 characters. -/
theorem long_provider_row :
    letI := Runtime.ascii
    letI := Digests.sized
    let auth : AuthContext := ⟨"acme", hashApiKey "key", 120, "user"⟩
    let handled :=
      (handleGenerateRequest false .live (.elsewhere 128 le_rfl) auth).result alone ()
    handled.1 = .error badGateway ∧ ∃ log, handled.2.filterMap Task.log = [log] ∧
      log.row.modelUsed.length = 134 ∧ ¬ RowFits log.row := by
  let ascii := Runtime.ascii
  let digests := Digests.sized
  intro auth handled
  obtain ⟨hmodel, hprovider, htier⟩ := chooseModel_elsewhere 127 le_rfl
  have hkey : (cacheModelKey (chooseModel (.elsewhere 128 le_rfl) .live)).length = 134 := by
    rw [cacheModelKey, hmodel, hprovider, htier, Option.getD_none, Option.getD_some,
      String.length_append, String.length_append, providerOf_length]
    rfl
  obtain ⟨e, hrouted⟩ := routedCompletion_elsewhere 127 le_rfl (by decide) auth
  obtain ⟨latencyMs, hresult⟩ := handled_of_failed alone () rfl hrouted
  have hlogs := congrArg (fun handled => handled.2.filterMap Task.log) hresult
  refine ⟨congrArg Prod.fst hresult, _, hlogs, hkey, fun h => ?_⟩
  have hlength : (cacheModelKey (chooseModel (.elsewhere 128 le_rfl) .live)).length ≤ 128 :=
    h.modelUsed
  omega

lemma fits_beside_tier : 122 ≤ 128 := by decide

/-- A provider of 122 letters leaves room for the tier: the request fails, and its row fits. -/
theorem logRows_fit_sample :
    letI := Runtime.ascii
    letI := Digests.sized
    let auth : AuthContext := ⟨"acme", hashApiKey "key", 120, "user"⟩
    let handled :=
      (handleGenerateRequest false .live (.elsewhere 122 fits_beside_tier) auth).result alone ()
    handled.1 = .error badGateway ∧ ∀ log ∈ handled.2.filterMap Task.log, RowFits log.row := by
  let ascii := Runtime.ascii
  let digests := Digests.sized
  intro auth handled
  obtain ⟨-, hprovider, htier⟩ := chooseModel_elsewhere 121 fits_beside_tier
  obtain ⟨e, hrouted⟩ := routedCompletion_elsewhere 121 fits_beside_tier (by decide) auth
  obtain ⟨latencyMs, hresult⟩ := handled_of_failed alone () rfl hrouted
  have hkey : (cacheModelKey
      (chooseModel (.elsewhere 122 fits_beside_tier) .live)).length ≤ 128 := by
    rw [cacheModelKey_length]
    intro provider _ hgiven
    obtain rfl : providerOf 122 = provider := Option.some.inj (hprovider.symm.trans hgiven)
    rw [htier, providerOf_length]
    decide
  refine ⟨congrArg Prod.fst hresult, (logRows_fit_iff alone () false .live _ auth "key" (by decide)
    rfl Digests.sized_length (by decide)).1.mpr ?_⟩
  rw [hrouted]
  exact hkey

end InferenceControlPlane.Gateway
