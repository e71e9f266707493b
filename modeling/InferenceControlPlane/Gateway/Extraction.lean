import InferenceControlPlane.Gateway.Pricing
import InferenceControlPlane.Gateway.Retries

/-!
# The text of a payload

What the extractors take for the generated text, compared with the string that a payload
carries: an extractor renders whatever value it finds, and agrees with the payload exactly
when that value is a string.
-/
namespace InferenceControlPlane.Gateway
open Python Program

/-! ## What a payload carries -/

def member (value : Json) (key : String) : Option Json :=
  match value with
  | .obj fields => fields.lookup key
  | _ => none

def head (value : Json) : Option Json :=
  match value with
  | .arr (item :: _) => some item
  | _ => none

/-- `choices[0].message.content`, or `choices[0].text` without a message content. -/
def messageValue (payload : Json) : Option Json :=
  ((member payload "choices").bind head).bind fun choice =>
    ((member choice "message").bind (member · "content")).or (member choice "text")

/-- `content[0].text`: where the text of an Anthropic payload stands. -/
def anthropicValue (payload : Json) : Option Json :=
  ((member payload "content").bind head).bind (member · "text")

def stringOf : Json → Option String
  | .str text => some text
  | _ => none

/-- The text that a payload of an OpenAI-compatible provider carries: the specification that the
conversion is compared with. -/
def carriedText (payload : Json) : Option String := (messageValue payload).bind stringOf

/-- The text that a payload of Anthropic carries, again as a specification of its own. -/
def carriedAnthropicText (payload : Json) : Option String := (anthropicValue payload).bind stringOf

/-! ## What the extractors take -/

/-- A key that is read with an empty list for its default. -/
lemma head_of_getKey {payload value : Json} {key : String}
    (h : getKey payload key (.arr []) = .ok value) :
    (member payload key).bind head = head value := by
  cases payload with
  | obj fields =>
    obtain rfl := Except.ok.inj h
    rw [member]
    cases fields.lookup key with
    | none => rfl
    | some value => rfl
  | _ => cases h

lemma head_of_getKey_error {payload dflt : Json} {key : String} {e : PyErr}
    (h : getKey payload key dflt = .error e) : (member payload key).bind head = none := by
  cases payload with
  | obj fields => cases h
  | _ => rfl

lemma head_of_falsy {value : Json} (h : value.truthy = false) : head value = none := by
  cases value with
  | arr items =>
    cases items with
    | nil => rfl
    | cons item items => cases h
  | _ => rfl

lemma head_of_firstItem_error {value : Json} {e : PyErr} (h : firstItem value = .error e) :
    head value = none := by
  cases value with
  | arr items =>
    cases items with
    | nil => rfl
    | cons item items => cases h
  | _ => rfl

/-- An item is the head, except for the first character of a string. -/
lemma head_of_firstItem {value item : Json} (h : firstItem value = .ok item) :
    head value = some item ∨ head value = none ∧ ∃ text, item = .str text := by
  cases value with
  | arr items =>
    cases items with
    | nil => cases h
    | cons first items =>
      obtain rfl := Except.ok.inj h
      exact .inl rfl
  | str text =>
    obtain rfl := Except.ok.inj h
    exact .inr ⟨rfl, _, rfl⟩
  | _ => cases h

lemma head_of_firstItem_obj {value : Json} {fields : List (String × Json)}
    (h : firstItem value = .ok (.obj fields)) : head value = some (.obj fields) := by
  rcases head_of_firstItem h with hhead | ⟨-, text, hitem⟩
  · exact hhead
  · cases hitem

/-- A message that is missing has no content. -/
lemma content_of_message {choice : List (String × Json)} {message : Json}
    (h : (choice.lookup "message").getD (.obj []) = message) :
    (member (.obj choice) "message").bind (member · "content") = member message "content" := by
  subst h
  rw [member]
  cases choice.lookup "message" with
  | none => rfl
  | some message => rfl

lemma member_eq_none {value : Json} {key : String}
    (h : ∀ fields, value = .obj fields → False) : member value key = none := by
  cases value with
  | obj fields => exact (h fields rfl).elim
  | _ => rfl

/-- The exception of a failed conversion, for `_request_anthropic`. -/
def anthropicFailure (e : PyErr) : LlmError :=
  if isParseError e then .client "Unable to parse Anthropic response payload." else .escaped e

/-- Whether an error is an `LLMClientError`. -/
def LlmError.isClientError : LlmError → Bool
  | .escaped _ => false
  | _ => true

lemma isClientError_anthropicFailure (e : PyErr) :
    (anthropicFailure e).isClientError = isParseError e := by
  rw [anthropicFailure]
  cases isParseError e with
  | true => rfl
  | false => rfl

lemma isParseError_of_firstItem {value : Json} {e : PyErr} (h : firstItem value = .error e) :
    isParseError e = true := by
  cases value with
  | arr items =>
    cases items with
    | nil =>
      obtain rfl := Except.error.inj h
      rfl
    | cons item items => cases h
  | str text => cases h
  | _ =>
    obtain rfl := Except.error.inj h
    rfl

lemma getKey_error {value dflt : Json} {key : String} {e : PyErr}
    (h : getKey value key dflt = .error e) :
    e = .attributeError ∧ ¬ ∃ fields, value = .obj fields := by
  cases value with
  | obj fields => cases h
  | _ => exact ⟨(Except.error.inj h).symm, by rintro ⟨fields, ⟨⟩⟩⟩

lemma getKey_ok {value dflt result : Json} {key : String}
    (h : getKey value key dflt = .ok result) : ∃ fields, value = .obj fields := by
  cases value with
  | obj fields => exact ⟨fields, rfl⟩
  | _ => cases h

section
variable [Runtime]

/-- `str(value)`, where it does not raise: what the code makes of a value that is not a string. -/
def rendered (value : Json) : Option String := (toStr value).toOption

lemma textOf_toOption (choice : List (String × Json)) :
    (extractMessageText.textOf choice).toOption = (choice.lookup "text").bind rendered := by
  rw [extractMessageText.textOf]
  cases choice.lookup "text" with
  | none => rfl
  | some text => exact toOption_mapError _ _

theorem extractMessageText_toOption (payload : Json) :
    (extractMessageText payload).toOption = (messageValue payload).bind rendered := by
  rw [messageValue]
  fun_cases extractMessageText payload with
  | case1 e hchoices =>
    rw [head_of_getKey_error hchoices]
    rfl
  | case2 choices hchoices hfalsy =>
    rw [head_of_getKey hchoices, head_of_falsy hfalsy]
    rfl
  | case3 choices hchoices htruthy e hfirst =>
    rw [head_of_getKey hchoices, head_of_firstItem_error hfirst]
    rfl
  | case4 choices hchoices htruthy choice message hmessage content hcontent hfirst =>
    rw [head_of_getKey hchoices, head_of_firstItem_obj hfirst, Option.bind_some,
      content_of_message hmessage, member, hcontent]
    exact toOption_mapError _ _
  | case5 choices hchoices htruthy choice message hmessage hcontent hfirst =>
    rw [head_of_getKey hchoices, head_of_firstItem_obj hfirst, Option.bind_some,
      content_of_message hmessage, member, hcontent, Option.none_or]
    exact textOf_toOption choice
  | case6 choices hchoices htruthy choice hmessage hfirst =>
    rw [head_of_getKey hchoices, head_of_firstItem_obj hfirst, Option.bind_some,
      content_of_message rfl, member_eq_none hmessage, Option.none_or]
    exact textOf_toOption choice
  | case7 choices hchoices htruthy item hfirst hitem =>
    rw [head_of_getKey hchoices]
    rcases head_of_firstItem hfirst with hhead | ⟨hnone, -⟩
    · rw [hhead, Option.bind_some, member_eq_none hitem, member_eq_none hitem]
      rfl
    · rw [hnone]
      rfl

/-- `_execute` of `_request_anthropic`, from the payload on, with `_extract_anthropic_text`.
The request hands it to `_request_with_retry` without a provider, which Python refuses. -/
def executeAnthropic (payload : Json) : Except LlmError String :=
  match getKey payload "content" (.arr []) with
  | .error e => .error (anthropicFailure e)
  | .ok content =>
    if content.truthy = false then .error (.client "Unable to parse Anthropic response payload.")
    else
      match firstItem content with
      | .error e => .error (anthropicFailure e)
      | .ok firstBlock =>
        match firstBlock with
        | .obj block =>
          match block.lookup "text" with
          | some text => (toStr text).mapError anthropicFailure
          | none => .error (.client "Unable to parse Anthropic response payload.")
        | _ => .error (.client "Unable to parse Anthropic response payload.")

/-- The value that is there is rendered; without one, only a payload that is no object
escapes the translation of errors. -/
theorem executeAnthropic_cases (payload : Json) :
    (∃ value, anthropicValue payload = some value ∧
      executeAnthropic payload = (toStr value).mapError anthropicFailure) ∨
    (anthropicValue payload = none ∧ ∃ e, executeAnthropic payload = .error e ∧
      (e.isClientError = true ↔ ∃ fields, payload = .obj fields)) := by
  rw [anthropicValue]
  fun_cases executeAnthropic payload with
  | case1 e hcontent =>
    rw [head_of_getKey_error hcontent]
    obtain ⟨rfl, hpayload⟩ := getKey_error hcontent
    exact .inr ⟨rfl, _, rfl, iff_of_false (by decide) hpayload⟩
  | case2 content hcontent hfalsy =>
    rw [head_of_getKey hcontent, head_of_falsy hfalsy]
    exact .inr ⟨rfl, _, rfl, iff_of_true rfl (getKey_ok hcontent)⟩
  | case3 content hcontent htruthy e hfirst =>
    rw [head_of_getKey hcontent, head_of_firstItem_error hfirst]
    have hclient : (anthropicFailure e).isClientError = true := by
      rw [isClientError_anthropicFailure, isParseError_of_firstItem hfirst]
    exact .inr ⟨rfl, _, rfl, iff_of_true hclient (getKey_ok hcontent)⟩
  | case4 content hcontent htruthy block text htext hfirst =>
    rw [head_of_getKey hcontent, head_of_firstItem_obj hfirst, Option.bind_some, member, htext]
    exact .inl ⟨text, rfl, rfl⟩
  | case5 content hcontent htruthy block htext hfirst =>
    rw [head_of_getKey hcontent, head_of_firstItem_obj hfirst, Option.bind_some, member, htext]
    exact .inr ⟨rfl, _, rfl, iff_of_true rfl (getKey_ok hcontent)⟩
  | case6 content hcontent htruthy item hfirst hitem =>
    rw [head_of_getKey hcontent]
    have hpayload := getKey_ok hcontent
    rcases head_of_firstItem hfirst with hhead | ⟨hnone, -⟩
    · rw [hhead, Option.bind_some, member_eq_none hitem]
      exact .inr ⟨rfl, _, rfl, iff_of_true rfl hpayload⟩
    · rw [hnone]
      exact .inr ⟨rfl, _, rfl, iff_of_true rfl hpayload⟩

theorem executeAnthropic_toOption (payload : Json) :
    (executeAnthropic payload).toOption = (anthropicValue payload).bind rendered := by
  rcases executeAnthropic_cases payload with ⟨value, hvalue, hresult⟩ | ⟨hnone, e, hresult, -⟩
  · rw [hvalue, hresult]
    exact toOption_mapError _ _
  · rw [hnone, hresult]
    rfl

/-- What escapes the translation: a payload that is no object, and some of what `str()`
raises. -/
theorem executeAnthropic_isClientError_iff (payload : Json) :
    (∀ e, executeAnthropic payload = .error e → e.isClientError = true) ↔
      (∃ fields, payload = .obj fields) ∧ ∀ value, anthropicValue payload = some value →
        ∀ e, toStr value = .error e → isParseError e = true := by
  rcases executeAnthropic_cases payload with ⟨value, hvalue, hresult⟩ | ⟨hnone, e, hresult, hclient⟩
  · have hpayload : ∃ fields, payload = .obj fields := by
      cases payload with
      | obj fields => exact ⟨fields, rfl⟩
      | _ => cases hvalue
    simp only [hvalue, hresult, hpayload, Option.some.injEq, true_and, forall_eq']
    cases toStr value with
    | ok text => exact iff_of_true (by rintro _ ⟨⟩) (by rintro _ ⟨⟩)
    | error e =>
      simp only [Except.mapError, Except.error.injEq, forall_eq', isClientError_anthropicFailure]
  · simp only [hnone, hresult, Except.error.injEq, forall_eq', hclient, reduceCtorEq,
      IsEmpty.forall_iff, implies_true, and_true]

/-! ## Strings and what is rendered -/

/-- The value, if there is one, is a string, or Python does not render it. -/
def TextOnly (value : Option Json) : Prop :=
  ∀ v, value = some v → (∃ text, v = .str text) ∨ ∃ e, toStr v = .error e

lemma rendered_eq_stringOf_iff (value : Json) :
    rendered value = stringOf value ↔
      (∃ text, value = .str text) ∨ ∃ e, toStr value = .error e := by
  cases htext : stringOf value with
  | some text =>
    have hvalue : value = .str text := by
      cases value with
      | str s => rw [Option.some.inj htext]
      | _ => cases htext
    subst hvalue
    exact iff_of_true rfl (.inl ⟨text, rfl⟩)
  | none =>
    rw [rendered, toOption_eq_none]
    refine ⟨.inr, fun h => ?_⟩
    rcases h with ⟨text, rfl⟩ | hraised
    · cases htext
    · exact hraised

theorem bind_rendered_iff (value : Option Json) :
    value.bind rendered = value.bind stringOf ↔ TextOnly value := by
  cases value with
  | none => exact iff_of_true rfl fun _ h => by cases h
  | some v =>
    simp only [Option.bind_some, rendered_eq_stringOf_iff, TextOnly, Option.some.injEq,
      forall_eq']

/-! ## Runs in which a payload is returned -/

omit [Runtime] in
/-- A post was answered with a success and this payload. -/
def Returned (payload : Json) (events : List (Event Op Op.Reply)) : Prop :=
  ∃ request status, 200 ≤ status ∧ status < 300 ∧
    (⟨.post request, .response status (.json payload)⟩ : Event Op Op.Reply) ∈ events

omit [Runtime] in
lemma not_returned {payload : Json} {events : List (Event Op Op.Reply)}
    (h : ∀ e ∈ events, e.op.stage ≠ .completion) : ¬ Returned payload events := by
  rintro ⟨request, status, -, -, he⟩
  exact h _ he rfl

omit [Runtime] in
lemma returned_append {payload : Json} {before events : List (Event Op Op.Reply)} :
    Returned payload (before ++ events) ↔ Returned payload before ∨ Returned payload events := by
  simp only [Returned, List.mem_append, and_or_left, exists_or]

omit [Runtime] in
lemma not_returned_nil {payload : Json} : ¬ Returned payload [] := by
  rintro ⟨request, status, -, -, he⟩
  cases he

omit [Runtime] in
lemma not_returned_isAllowed {payload : Json} {provider : String} {allowed : Bool} :
    ¬ Returned payload [⟨.isAllowed provider, allowed⟩] := by
  rintro ⟨request, status, -, -, he⟩
  cases List.mem_singleton.mp he

omit [Runtime] in
lemma not_returned_closing {payload : Json} {provider : String}
    {result : Except LlmError String} : ¬ Returned payload [closing provider result] := by
  rintro ⟨request, status, -, -, he⟩
  cases result with
  | ok text => cases List.mem_singleton.mp he
  | error e => cases List.mem_singleton.mp he

/-- A run that got the payload ends with what is extracted from it. -/
lemma Attempted.result_of_returned {provider : String} {request : CompletionRequest} {left : ℕ}
    {before : List PostOutcome} {last : PostOutcome} {events : List (Event Op Op.Reply)}
    {result : Except LlmError String} {payload : Json}
    (h : Attempted provider request left before last events result)
    (hreturned : Returned payload events) : result = extractMessageText payload := by
  rw [h.events_eq, returned_append, or_iff_left not_returned_closing] at hreturned
  obtain ⟨posted, status, hle, hlt, he⟩ := hreturned
  obtain ⟨outcome, houtcome, heq⟩ := List.mem_map.mp he
  cases heq
  rcases List.mem_append.mp houtcome with hbefore | hlast
  · have htransient := of_decide_eq_true (h.before_transient _ hbefore)
    omega
  · obtain rfl := List.mem_singleton.mp hlast
    rw [h.result_eq, completionOf, if_pos ⟨hle, hlt⟩]

lemma requestOpenaiCompatible_extracts (settings : Settings)
    (provider prompt model baseUrl : String) (apiKey : Option String) :
    (requestOpenaiCompatible settings provider prompt model baseUrl apiKey).Ensures
      fun events result => ∀ payload, Returned payload events →
        result = extractMessageText payload := by
  cases hkey : truthyText apiKey with
  | none =>
    rw [requestOpenaiCompatible, hkey]
    exact fun payload hreturned => absurd hreturned not_returned_nil
  | some key =>
    refine (requestOpenaiCompatible_ensures_attempted settings provider prompt model baseUrl
      hkey).mono fun events result hended payload hreturned => ?_
    rcases hended with ⟨rfl, -⟩ | ⟨before, last, rest, rfl, hattempted⟩
    · exact absurd hreturned not_returned_isAllowed
    · rw [← List.singleton_append, returned_append,
        or_iff_right not_returned_isAllowed] at hreturned
      exact hattempted.result_of_returned hreturned

variable [Digests]

lemma generateCompletion_extracts (settings : Settings) (prompt modelTier : String)
    (modelOverride providerOverride providerApiKey : Option String) :
    (generateCompletion settings prompt modelTier modelOverride providerOverride
      providerApiKey).Ensures fun events result => ∀ payload, Returned payload events →
        result.toOption.map Prod.snd = (extractMessageText payload).toOption ∧
          ∀ e, result = .error e → e.isClientError = true := by
  unfold generateCompletion
  dsimp only
  split_ifs
  · exact fun payload hreturned => absurd hreturned not_returned_nil
  · refine (requestOpenaiCompatible_extracts _ _ _ _ _ _).bind fun events outcome hextracts => ?_
    cases outcome with
    | ok text =>
      intro payload hreturned
      rw [List.append_nil] at hreturned
      rw [← hextracts payload hreturned]
      exact ⟨rfl, by rintro _ ⟨⟩⟩
    | error e =>
      intro payload hreturned
      rw [List.append_nil] at hreturned
      rw [← hextracts payload hreturned]
      refine ⟨rfl, ?_⟩
      rintro _ ⟨⟩
      rfl
  · exact fun payload hreturned => absurd hreturned not_returned_nil

lemma completeFor_extracts (settings : Settings) (payload : GenerateRequest) :
    (completeFor settings payload).Ensures fun events result => ∀ returned,
      Returned returned events →
        result.toOption.map Prod.snd = (extractMessageText returned).toOption ∧
          ∀ e, result = .error e → e.isClientError = true :=
  generateCompletion_extracts settings _ (chooseModel payload settings).modelTier _ _ _

/-- The text of an answer is extracted from the payload that was returned. -/
lemma serve_extracts (hasRedis : Bool) (settings : Settings) (payload : GenerateRequest)
    (auth : AuthContext) (started : ℚ) (requestId : String) :
    (serve hasRedis settings payload auth started requestId).Ensures fun events result =>
      ∀ returned, Returned returned events →
        result.toOption.map (fun answer => answer.1.response) =
          (extractMessageText returned).toOption := by
  have hadmitted : ∀ {admitting result returned}, Admission result admitting →
      ¬ Returned returned admitting :=
    fun h => not_returned fun e he => (h.stage e he).trans_ne (by decide)
  have hlooked : ∀ {looking : List (Event Op Op.Reply)} {returned},
      (∀ e ∈ looking, e.op.stage = .lookup) → ¬ Returned returned looking :=
    fun h => not_returned fun e he => (h e he).trans_ne (by decide)
  refine serve_rule (enforceRateLimits_ensures _ _ _ _) (getCachedResponse_always _ _ _).ensures
    (completeFor_extracts _ _) ?_ ?_ ?_ ?_
  · intro admitting e hadmission returned hreturned
    exact absurd hreturned (hadmitted hadmission)
  · intro admitting looking cached hadmission hlookup finished now _ _ returned hreturned
    rw [returned_append, or_iff_right (hadmitted hadmission), returned_append,
      or_iff_right (hlooked hlookup)] at hreturned
    exact absurd hreturned (not_returned (by simp [Op.stage]))
  · intro admitting looking completing e hadmission hlookup hextracts returned hreturned
    rw [returned_append, or_iff_right (hadmitted hadmission), returned_append,
      or_iff_right (hlooked hlookup), ← List.singleton_append, returned_append,
      or_iff_right (not_returned (by simp [Op.stage]))] at hreturned
    exact (hextracts returned hreturned).1
  · intro admitting looking completing modelUsed text hadmission hlookup hextracts
      finished now _ _ _
      returned hreturned
    rw [returned_append, or_iff_right (hadmitted hadmission), returned_append,
      or_iff_right (hlooked hlookup), ← List.singleton_append, returned_append,
      or_iff_right (not_returned (by simp [Op.stage])), returned_append,
      or_iff_left (not_returned (by simp [Op.stage]))] at hreturned
    exact (hextracts returned hreturned).1

lemma handleGenerateRequest_extracts (hasRedis : Bool) (settings : Settings)
    (payload : GenerateRequest) (auth : AuthContext) :
    (handleGenerateRequest hasRedis settings payload auth).Ensures fun events handled =>
      ∀ returned, Returned returned events →
        handled.1.toOption.map GenerateResponse.response =
          (extractMessageText returned).toOption := by
  have hentered : ∀ {started requestId events returned},
      Returned returned (⟨.perfCounter, started⟩ :: ⟨.requestId, requestId⟩ :: events) ↔
        Returned returned events := by
    intro started requestId events returned
    rw [← List.singleton_append, returned_append, or_iff_right (not_returned (by simp [Op.stage])),
      ← List.singleton_append, returned_append, or_iff_right (not_returned (by simp [Op.stage]))]
  refine handleGenerateRequest_rule (serve_extracts _ _ _ _) ?_ ?_
  · intro started requestId serving response tasks hserved returned hreturned
    exact hserved returned (hentered.mp hreturned)
  · intro started requestId serving raised hserved finished _ returned hreturned
    rw [hentered, returned_append, or_iff_left (not_returned (by simp [Op.stage]))] at hreturned
    exact hserved returned hreturned

/-! ## Exactly textual answers -/

omit [Runtime] [Digests] in
/-- The text is the one that is carried, and without one the error is an `LLMClientError`. -/
structure ExactText (carried : Option String) (result : Except LlmError String) : Prop where
  text_eq : result.toOption = carried
  error : ∀ e, result = .error e → e.isClientError = true

omit [Runtime] [Digests] in
/-- The answer is the text that is carried; without one, nothing is cached or billed. -/
structure ExactAnswer (carried : Option String)
    (handled : Except HttpException GenerateResponse × List Task) : Prop where
  text_eq : handled.1.toOption.map GenerateResponse.response = carried
  unbilled : carried = none → handled.2.filterMap Task.entry = [] ∧
    ∀ log ∈ handled.2.filterMap Task.log, log.cost = .finite 0

omit [Runtime] [Digests] in
lemma Accounted.unbilled {outcome : Except HttpException GenerateResponse} {tasks : List Task}
    {events : List (Event Op Op.Reply)} (h : Accounted outcome tasks events)
    (hfailed : outcome.toOption = none) : tasks.filterMap Task.entry = [] ∧
      ∀ log ∈ tasks.filterMap Task.log, log.cost = .finite 0 := by
  obtain ⟨e, rfl⟩ := toOption_eq_none.mp hfailed
  obtain ⟨log, hlog, hsuccess, herror⟩ := h.log
  constructor
  · by_contra hentry
    obtain ⟨response, hresponse, -⟩ := h.entry.mp hentry
    cases hresponse
  · rw [hlog, List.forall_mem_singleton]
    have hstatus : log.status ≠ .success := by
      rw [Ne, hsuccess]
      rintro ⟨response, ⟨⟩⟩
    cases hlogged : log.status with
    | success => exact absurd hlogged hstatus
    | error => exact (herror hlogged).2.1

/-- A run in which a payload is returned answers with the text that the payload carries, and
with nothing when it carries none, exactly if the value in the place of the text is a string
wherever Python renders it. So does Anthropic's extraction, if nothing else escapes. -/
theorem exact_text_iff (hasRedis : Bool) (settings : Settings) (request : GenerateRequest)
    (auth : AuthContext) (prompt modelTier : String)
    (modelOverride providerOverride providerApiKey : Option String) (payload : Json) :
    ((generateCompletion settings prompt modelTier modelOverride providerOverride
        providerApiKey).Ensures fun events result => Returned payload events →
          (ExactText (carriedText payload) (result.map Prod.snd) ↔
            TextOnly (messageValue payload))) ∧
      ((handleGenerateRequest hasRedis settings request auth).Ensures fun events handled =>
        Returned payload events →
          (ExactAnswer (carriedText payload) handled ↔ TextOnly (messageValue payload))) ∧
      (ExactText (carriedAnthropicText payload) (executeAnthropic payload) ↔
        TextOnly (anthropicValue payload) ∧ (∃ fields, payload = .obj fields) ∧
          ∀ value, anthropicValue payload = some value →
            ∀ e, toStr value = .error e → isParseError e = true) := by
  refine ⟨?_, ?_, ?_⟩
  · refine (generateCompletion_extracts settings prompt modelTier modelOverride providerOverride
      providerApiKey).mono fun events result hextracts hreturned => ?_
    obtain ⟨htext, herror⟩ := hextracts payload hreturned
    rw [extractMessageText_toOption] at htext
    rw [← bind_rendered_iff, ← htext]
    cases result with
    | ok completion => exact ⟨fun h => h.text_eq, fun h => ⟨h, by rintro _ ⟨⟩⟩⟩
    | error e =>
      refine ⟨fun h => h.text_eq, fun h => ⟨h, ?_⟩⟩
      rintro _ ⟨⟩
      exact herror e rfl
  · refine ((handleGenerateRequest_extracts hasRedis settings request auth).and
      (handleGenerateRequest_ensures hasRedis settings request auth)).mono
      fun events handled hhandled hreturned => ?_
    have htext := hhandled.1 payload hreturned
    rw [extractMessageText_toOption] at htext
    rw [← bind_rendered_iff, ← htext]
    refine ⟨fun h => h.text_eq, fun h => ⟨h, fun hnone => hhandled.2.unbilled ?_⟩⟩
    rw [carriedText] at hnone
    rw [hnone] at h
    exact Option.map_eq_none_iff.mp h
  · rw [← bind_rendered_iff, ← executeAnthropic_toOption, ← executeAnthropic_isClientError_iff]
    exact ⟨fun h => ⟨h.text_eq, h.error⟩, fun h => ⟨h.1, h.2⟩⟩

end

/-! ## A payload without a text -/

/-- Nothing is cached, and every post returns the payload. -/
def returning (payload : Json) : World Op Op.Reply Unit
  | .post _, s => (.response 200 (.json payload), s)
  | op, s => (op.idle, s)

/-- One choice whose message has this content. -/
def messagePayload (content : Json) : Json :=
  .obj [("choices", .arr [.obj [("message", .obj [("content", content)])]])]

/-- A provider answers with a null content, as for a tool call: the request succeeds with the text
"None", which is put into the cache, and is charged for. -/
theorem null_content_generated :
    letI := Runtime.ascii
    letI := Digests.listed helloDigest
    let payload := messagePayload .null
    let request := handleGenerateRequest true .live
      (.plain "hello" "u" (by decide) (by decide)) ⟨"acme", "key-hash", 120, "user"⟩
    Returned payload (request.trace (returning payload) ()) ∧ carriedText payload = none ∧
      ∃ response tasks, request.result (returning payload) () = (.ok response, tasks) ∧
        response.response = "None" ∧ ((PyFloat.finite 0).lt response.cost) = true ∧
        (tasks.filterMap Task.entry).map CachedResponse.response = ["None"] ∧
        ¬ ExactAnswer (carriedText payload) (request.result (returning payload) ()) := by
  refine ⟨⟨completionRequest .live "hello" "openai" Settings.live.openrouterBaseUrl "dummy-key",
    200, le_rfl, by omega, ?_⟩, rfl, _, _, rfl, rfl, ?_, rfl, ?_⟩
  · exact List.mem_of_getElem? (i := 11) rfl
  · decide +kernel
  · intro h
    cases h.text_eq

theorem exact_text_sample :
    letI := Runtime.ascii
    letI := Digests.listed helloDigest
    let payload := messagePayload (.str "hi")
    let request := handleGenerateRequest true .live
      (.plain "hello" "u" (by decide) (by decide)) ⟨"acme", "key-hash", 120, "user"⟩
    ExactAnswer (some "hi") (request.result (returning payload) ()) := by
  let ascii := Runtime.ascii
  let digests := Digests.listed helloDigest
  refine ((exact_text_iff true .live _ _ "hello" "cheap" none none none
    (messagePayload (.str "hi"))).2.1.run (returning _) () ?_).mpr ?_
  · refine ⟨completionRequest .live "hello" "openai" Settings.live.openrouterBaseUrl "dummy-key",
      200, le_rfl, by omega, ?_⟩
    exact List.mem_of_getElem? (i := 11) rfl
  · rintro _ ⟨⟩
    exact .inl ⟨"hi", rfl⟩

end InferenceControlPlane.Gateway
