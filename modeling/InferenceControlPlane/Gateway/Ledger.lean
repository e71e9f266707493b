import InferenceControlPlane.Gateway.Inference

/-!
# One record for every request

Whatever Redis and the provider do, the handler queues one log and records one request
metric. The framework drops the log of a request that raised.
-/
namespace InferenceControlPlane.Gateway
open Python Program

/-! ## Calls by their purpose -/

inductive Stage where
  | clock
  | admission
  | lookup
  | completion
  | metric
  | storage
  deriving DecidableEq, Repr

def Op.stage : Op → Stage
  | perfCounter => .clock
  | now => .clock
  | requestId => .clock
  | time => .admission
  | incrTtl _ => .admission
  | expire _ _ => .admission
  | record (.rateLimitRejection _) => .admission
  | get _ => .lookup
  | isAllowed _ => .completion
  | recordSuccess _ => .completion
  | recordFailure _ => .completion
  | post _ => .completion
  | record _ => .metric
  | set _ _ _ => .storage
  | persist _ => .storage

def Op.isRejection : Op → Bool
  | record (.rateLimitRejection _) => true
  | _ => false

/-- The status of a request metric. -/
def Op.requestStatus : Op → Option Status
  | record (.request _ status _ _) => some status
  | _ => none

def Task.log : Task → Option LogTask
  | persistRequestLog log => some log
  | setCachedResponse _ _ _ _ => none

def Task.entry : Task → Option CachedResponse
  | persistRequestLog _ => none
  | setCachedResponse _ _ entry _ => some entry

/-- The request metrics of a run. That there is one of them for each request is what makes the
counters a ledger. -/
def requestMetrics (events : List (Event Op Op.Reply)) : List Status :=
  events.filterMap fun e => e.op.requestStatus

/-- A rate limit denied the request. -/
def Rejected (events : List (Event Op Op.Reply)) : Prop := ∃ e ∈ events, e.op.isRejection = true

lemma requestMetrics_append (before events : List (Event Op Op.Reply)) :
    requestMetrics (before ++ events) = requestMetrics before ++ requestMetrics events :=
  List.filterMap_append

lemma rejected_append (before events : List (Event Op Op.Reply)) :
    Rejected (before ++ events) ↔ Rejected before ∨ Rejected events := by
  simp only [Rejected, List.mem_append, or_and_right, exists_or]

/-- What only the events of one stage have, those of another lack. -/
lemma filterMap_of_stage {β : Type} {f : Event Op Op.Reply → Option β} {own stage : Stage}
    (hown : ∀ e, f e ≠ none → e.op.stage = own) {events : List (Event Op Op.Reply)}
    (h : ∀ e ∈ events, e.op.stage = stage) (hstage : stage ≠ own) : events.filterMap f = [] := by
  apply List.filterMap_eq_nil_iff.mpr
  intro e he
  by_contra hne
  exact hstage ((h e he).symm.trans (hown e hne))

lemma stage_of_requestStatus {op : Op} (h : op.requestStatus ≠ none) : op.stage = .metric := by
  unfold Op.requestStatus at h
  split at h
  · rfl
  · exact absurd rfl h

lemma stage_of_isRejection {op : Op} (h : op.isRejection = true) : op.stage = .admission := by
  unfold Op.isRejection at h
  split at h
  · rfl
  · cases h

lemma requestMetrics_eq_nil {events : List (Event Op Op.Reply)} {stage : Stage}
    (h : ∀ e ∈ events, e.op.stage = stage) (hstage : stage ≠ .metric) :
    requestMetrics events = [] :=
  filterMap_of_stage (fun _ => stage_of_requestStatus) h hstage

lemma not_rejected {events : List (Event Op Op.Reply)} {stage : Stage}
    (h : ∀ e ∈ events, e.op.stage = stage) (hstage : stage ≠ .admission) : ¬ Rejected events := by
  rintro ⟨e, he, hrejection⟩
  exact hstage ((h e he).symm.trans (stage_of_isRejection hrejection))

lemma always_stage {op : Op} {stage : Stage} (h : op.stage = stage) :
    (perform op : Coroutine op.Reply).Always fun op => op.stage = stage := always_perform h

/-! ## The parts of the handler -/

/-- The calls of one check of a rate limit. -/
lemma checkRateLimit_always {P : Op → Prop} (hasRedis : Bool) (scope : RateScope)
    (identifier : String) (limit : ℤ) (windowSeconds : ℕ) (htime : P .time)
    (hincr : ∀ bucket, P (.incrTtl (bucketKey scope identifier bucket)))
    (hexpire : ∀ bucket, P (.expire (bucketKey scope identifier bucket) windowSeconds)) :
    (checkRateLimit hasRedis scope identifier limit windowSeconds).Always P := by
  unfold checkRateLimit
  cases hasRedis with
  | false => exact always_done _ _
  | true =>
    refine (always_perform htime).bind fun time => ?_
    refine (always_perform (hincr _)).bind fun counted => ?_
    cases counted with
    | error e => exact always_done _ _
    | ok reply =>
      obtain ⟨count, ttl⟩ := reply
      dsimp only
      split_ifs
      · refine (always_perform (hexpire _)).bind fun expired => ?_
        cases expired <;> exact always_done _ _
      · exact always_done _ _

/-- What the rate limits do to a request: the calls that they make, and, when they deny it, the
rejection that is recorded and the 429 that is raised. -/
structure Admission (result : Except HttpException Unit) (events : List (Event Op Op.Reply)) :
    Prop where
  stage : ∀ e ∈ events, e.op.stage = .admission
  rejected : Rejected events ↔ ∃ e, result = .error e
  statusCode : ∀ e, result = .error e → e.statusCode = 429

lemma enforceRateLimits_ensures (hasRedis : Bool) (settings : Settings) (auth : AuthContext)
    (userId : String) : (enforceRateLimits hasRedis settings auth userId).Ensures
      fun events result => Admission result events := by
  have hcheck : ∀ scope identifier limit, (checkRateLimit hasRedis scope identifier limit
      settings.rateLimitWindowSeconds).Always fun op =>
        op.stage = .admission ∧ op.isRejection = false :=
    fun _ _ _ => checkRateLimit_always _ _ _ _ _ ⟨rfl, rfl⟩ (fun _ => ⟨rfl, rfl⟩)
      fun _ => ⟨rfl, rfl⟩
  unfold enforceRateLimits
  refine (hcheck _ _ _).ensures.bind fun keyEvents keyResult hkey => ?_
  refine (hcheck _ _ _).ensures.bind fun userEvents userResult huser => ?_
  have hstage : ∀ e ∈ keyEvents ++ userEvents, e.op.stage = .admission ∧ e.op.isRejection = false :=
    List.forall_mem_append.mpr ⟨hkey, huser⟩
  -- a denial ends with its rejection, the last of the calls
  have hdenied : ∀ scope reply e, e.statusCode = 429 → Admission (.error e)
      (keyEvents ++ (userEvents ++ [⟨.record (.rateLimitRejection scope), reply⟩])) := by
    intro scope reply e he
    rw [← List.append_assoc]
    refine ⟨?_, ?_, ?_⟩
    · exact List.forall_mem_append.mpr ⟨fun e he => (hstage e he).1, by simp [Op.stage]⟩
    · exact iff_of_true ⟨_, List.mem_append_right _ List.mem_cons_self, rfl⟩ ⟨e, rfl⟩
    · rintro _ ⟨⟩
      exact he
  split_ifs
  · exact fun reply => hdenied .apiKey reply _ rfl
  · exact fun reply => hdenied .user reply _ rfl
  · refine ⟨?_, ?_, ?_⟩
    · rw [List.append_nil]
      exact fun e he => (hstage e he).1
    · rw [List.append_nil]
      refine iff_of_false ?_ (by simp)
      rintro ⟨e, he, hrejection⟩
      rw [(hstage e he).2] at hrejection
      cases hrejection
    · rintro _ ⟨⟩

lemma attempts_always (provider : String) {request : Coroutine (Except LlmError String)}
    (hrequest : request.Always fun op => op.stage = .completion) (left : ℕ) :
    (attempts provider request left).Always fun op => op.stage = .completion := by
  induction left with
  | zero => exact always_done _ _
  | succ left ih =>
    refine hrequest.bind fun outcome => ?_
    cases outcome with
    | ok text => exact (always_stage rfl).bind fun _ => always_done _ _
    | error e =>
      dsimp only
      split_ifs
      · exact ih
      · exact (always_stage rfl).bind fun _ => always_done _ _

section
variable [Runtime] [Digests]

lemma getCachedResponse_always (hasRedis : Bool) (prompt model : String) :
    (getCachedResponse hasRedis prompt model).Always fun op => op.stage = .lookup := by
  cases hasRedis with
  | false => exact always_done _ _
  | true => exact (always_stage rfl).bind fun _ => always_done _ _

omit [Digests] in
lemma requestOpenaiCompatible_always (settings : Settings)
    (provider prompt model baseUrl : String) (apiKey : Option String) :
    (requestOpenaiCompatible settings provider prompt model baseUrl apiKey).Always
      fun op => op.stage = .completion := by
  unfold requestOpenaiCompatible
  cases truthyText apiKey with
  | none => exact always_done _ _
  | some apiKey =>
    refine (always_stage rfl).bind fun allowed => ?_
    cases allowed with
    | false => exact always_done _ _
    | true =>
      refine attempts_always _ ?_ _
      exact (always_stage rfl).bind fun _ => always_done _ _

lemma completeFor_always (settings : Settings) (payload : GenerateRequest) :
    (completeFor settings payload).Always fun op => op.stage = .completion := by
  unfold completeFor generateCompletion
  dsimp only
  split_ifs
  · exact always_done _ _
  · refine (requestOpenaiCompatible_always _ _ _ _ _ _).bind fun outcome => ?_
    cases outcome <;> exact always_done _ _
  · exact always_done _ _

/-- The rule of the `try` block: one case for each of its ends. -/
theorem serve_rule {hasRedis : Bool} {settings : Settings} {payload : GenerateRequest}
    {auth : AuthContext} {started : ℚ} {requestId : String}
    {A : List (Event Op Op.Reply) → Except HttpException Unit → Prop}
    {L : List (Event Op Op.Reply) → Option CachedResponse → Prop}
    {C : List (Event Op Op.Reply) → Except LlmError (String × String) → Prop}
    {Q : List (Event Op Op.Reply) → Except Raised (GenerateResponse × List Task) → Prop}
    (hadmission : (enforceRateLimits hasRedis settings auth payload.userId).Ensures A)
    (hlookup : (getCachedResponse hasRedis (redactPii payload.prompt)
      (cacheModelKey (chooseModel payload settings))).Ensures L)
    (hcompletion : (completeFor settings payload).Ensures C)
    (hdenied : ∀ admitting e, A admitting (.error e) → Q admitting (.error (.http e)))
    (hhit : ∀ admitting looking cached, A admitting (.ok ()) → L looking (some cached) →
      (respondCached payload auth started requestId cached).Ensures fun rest answer =>
        Q (admitting ++ (looking ++ rest)) (.ok answer))
    (hfailed : ∀ admitting looking completing e, A admitting (.ok ()) → L looking none →
      C completing (.error e) →
        Q (admitting ++ (looking ++ (⟨.record (.cacheResult false), ()⟩ :: completing)))
          (.error (.other e)))
    (hmiss : ∀ admitting looking completing modelUsed text, A admitting (.ok ()) →
      L looking none → C completing (.ok (modelUsed, text)) →
        (respondGenerated settings payload auth started requestId modelUsed text).Ensures
          fun rest answer => Q (admitting ++ (looking ++
            (⟨.record (.cacheResult false), ()⟩ :: (completing ++ rest)))) (.ok answer)) :
    (serve hasRedis settings payload auth started requestId).Ensures Q := by
  unfold serve
  refine hadmission.bind fun admitting admitted hadmitted => ?_
  cases admitted with
  | error e => simpa using hdenied admitting e hadmitted
  | ok _ =>
    refine hlookup.bind fun looking cached hlooked => ?_
    cases cached with
    | some cached =>
      refine (hhit admitting looking cached hadmitted hlooked).bind fun rest answer hanswer => ?_
      simpa using hanswer
    | none =>
      intro reply
      refine hcompletion.bind fun completing outcome hcompleted => ?_
      cases outcome with
      | error e => simpa using hfailed admitting looking completing e hadmitted hlooked hcompleted
      | ok completion =>
        obtain ⟨modelUsed, text⟩ := completion
        refine (hmiss admitting looking completing modelUsed text hadmitted hlooked
          hcompleted).bind fun rest answer hanswer => ?_
        simpa using hanswer

omit [Runtime] [Digests] in
/-- The exception that the handler raises for what its statements raised. -/
def Raised.exception : Raised → HttpException
  | http e => e
  | other _ => badGateway

omit [Runtime] [Digests] in
/-- The error message of the log. -/
def Raised.message : Raised → String
  | http e => e.detail
  | other _ => "Internal error during generation."

/-- The rule of the handler. -/
theorem handleGenerateRequest_rule {hasRedis : Bool} {settings : Settings}
    {payload : GenerateRequest} {auth : AuthContext}
    {S : List (Event Op Op.Reply) → Except Raised (GenerateResponse × List Task) → Prop}
    {Q : List (Event Op Op.Reply) → Except HttpException GenerateResponse × List Task → Prop}
    (hserve : ∀ started requestId,
      (serve hasRedis settings payload auth started requestId).Ensures S)
    (hanswered : ∀ started requestId serving response tasks, S serving (.ok (response, tasks)) →
      Q (⟨.perfCounter, started⟩ :: ⟨.requestId, requestId⟩ :: serving) (.ok response, tasks))
    (hraised : ∀ started requestId serving raised, S serving (.error raised) →
      (accountFailure settings payload auth started raised.message).Ensures fun accounting tasks =>
        Q (⟨.perfCounter, started⟩ :: ⟨.requestId, requestId⟩ :: (serving ++ accounting))
          (.error raised.exception, tasks)) :
    (handleGenerateRequest hasRedis settings payload auth).Ensures Q := by
  unfold handleGenerateRequest
  intro started requestId
  refine (hserve started requestId).bind fun serving result hserved => ?_
  cases result with
  | ok answer =>
    obtain ⟨response, tasks⟩ := answer
    simpa using hanswered started requestId serving response tasks hserved
  | error raised =>
    have hfailed := hraised started requestId serving raised hserved
    cases raised with
    | http e =>
      refine hfailed.bind fun accounting tasks htasks => ?_
      simpa [Raised.exception] using htasks
    | other e =>
      refine hfailed.bind fun accounting tasks htasks => ?_
      simpa [Raised.exception] using htasks

/-- What a branch that answers leaves behind: one queued row of the success, an entry for the
cache unless the answer came from there, and one request counted in the metrics. -/
structure Answered (response : GenerateResponse) (tasks : List Task)
    (events : List (Event Op Op.Reply)) : Prop where
  log : ∃ log, tasks.filterMap Task.log = [log] ∧ log.status = .success
  entry : tasks.filterMap Task.entry ≠ [] ↔ response.cached = false
  metric : requestMetrics events = [.success]
  admitted : ¬ Rejected events

omit [Digests] in
lemma respondCached_ensures (payload : GenerateRequest) (auth : AuthContext) (started : ℚ)
    (requestId : String) (cached : CachedResponse) :
    (respondCached payload auth started requestId cached).Ensures
      fun events answer => Answered answer.1 answer.2 events := by
  intro finished now _ _
  refine ⟨⟨_, rfl, rfl⟩, ?_, rfl, ?_⟩
  · simp [requestLog, Task.entry]
  · simp [Rejected, Op.isRejection]

omit [Digests] in
lemma respondGenerated_ensures (settings : Settings) (payload : GenerateRequest)
    (auth : AuthContext) (started : ℚ) (requestId modelUsed text : String) :
    (respondGenerated settings payload auth started requestId modelUsed text).Ensures
      fun events answer => Answered answer.1 answer.2 events := by
  intro finished now _ _ _
  refine ⟨⟨_, rfl, rfl⟩, ?_, rfl, ?_⟩
  · simp [requestLog, Task.entry]
  · simp [Rejected, Op.isRejection]

omit [Runtime] [Digests] in
/-- Calls that leave no record may come before. -/
lemma Answered.prepend {response : GenerateResponse} {tasks : List Task}
    {before events : List (Event Op Op.Reply)} (h : Answered response tasks events)
    (hbefore : requestMetrics before = []) (hadmitted : ¬ Rejected before) :
    Answered response tasks (before ++ events) := by
  refine ⟨h.log, h.entry, ?_, ?_⟩
  · rw [requestMetrics_append, hbefore, h.metric, List.nil_append]
  · rw [rejected_append]
    exact not_or.mpr ⟨hadmitted, h.admitted⟩

/-- The `try` block of the handler answers with its row and its metrics, or raises before it has
made any. -/
structure Served (result : Except Raised (GenerateResponse × List Task))
    (events : List (Event Op Op.Reply)) : Prop where
  answered : ∀ answer, result = .ok answer → Answered answer.1 answer.2 events
  silent : ∀ e, result = .error e → requestMetrics events = []
  rejected : Rejected events ↔ ∃ e, result = .error (.http e)
  statusCode : ∀ e, result = .error (.http e) → e.statusCode = 429
  denied : ∀ e, result = .error (.http e) → ∀ event ∈ events, event.op.stage = .admission

omit [Runtime] [Digests] in
lemma Admission.served {e : HttpException} {events : List (Event Op Op.Reply)}
    (h : Admission (.error e) events) : Served (.error (.http e)) events := by
  refine ⟨?_, ?_, ?_, ?_, ?_⟩
  · rintro _ ⟨⟩
  · exact fun _ _ => requestMetrics_eq_nil h.stage (by decide)
  · simp [h.rejected]
  · rintro _ ⟨⟩
    exact h.statusCode e rfl
  · exact fun _ _ => h.stage

omit [Runtime] [Digests] in
lemma Answered.served {response : GenerateResponse} {tasks : List Task}
    {events : List (Event Op Op.Reply)} (h : Answered response tasks events) :
    Served (.ok (response, tasks)) events := by
  refine ⟨?_, ?_, ?_, ?_, ?_⟩
  · rintro _ ⟨⟩
    exact h
  · rintro _ ⟨⟩
  · exact iff_of_false h.admitted (by simp)
  · rintro _ ⟨⟩
  · rintro _ ⟨⟩

omit [Runtime] [Digests] in
lemma served_failure {e : LlmError} {events : List (Event Op Op.Reply)}
    (hsilent : requestMetrics events = []) (hadmitted : ¬ Rejected events) :
    Served (.error (.other e)) events := by
  refine ⟨?_, ?_, ?_, ?_, ?_⟩
  · rintro _ ⟨⟩
  · exact fun _ _ => hsilent
  · exact iff_of_false hadmitted (by simp)
  · rintro _ ⟨⟩
  · rintro _ ⟨⟩

lemma serve_ensures (hasRedis : Bool) (settings : Settings) (payload : GenerateRequest)
    (auth : AuthContext) (started : ℚ) (requestId : String) :
    (serve hasRedis settings payload auth started requestId).Ensures
      fun events result => Served result events := by
  -- what leaves no record: a passed admission, a lookup, and a completion
  have hadmitted : ∀ {admitting : List (Event Op Op.Reply)}, Admission (.ok ()) admitting →
      requestMetrics admitting = [] ∧ ¬ Rejected admitting :=
    fun h => ⟨requestMetrics_eq_nil h.stage (by decide), by simp [h.rejected]⟩
  have hquiet : ∀ {events : List (Event Op Op.Reply)} {stage : Stage},
      (∀ e ∈ events, e.op.stage = stage) → stage ≠ .metric → stage ≠ .admission →
        requestMetrics events = [] ∧ ¬ Rejected events :=
    fun h hmetric hadmission => ⟨requestMetrics_eq_nil h hmetric, not_rejected h hadmission⟩
  have hmissed : ∀ {events : List (Event Op Op.Reply)},
      requestMetrics (⟨.record (.cacheResult false), ()⟩ :: events) = requestMetrics events ∧
        (Rejected (⟨.record (.cacheResult false), ()⟩ :: events) ↔ Rejected events) := by
    intro events
    simp [requestMetrics, Rejected, Op.requestStatus, Op.isRejection]
  refine serve_rule (enforceRateLimits_ensures _ _ _ _) (getCachedResponse_always _ _ _).ensures
    (completeFor_always _ _).ensures ?_ ?_ ?_ ?_
  · exact fun admitting e hadmission => hadmission.served
  · intro admitting looking cached hadmission hlookup
    obtain ⟨hsilent, hunlimited⟩ := hadmitted hadmission
    obtain ⟨hlooked, hallowed⟩ := hquiet hlookup (by decide) (by decide)
    refine (respondCached_ensures _ _ _ _ _).mono fun rest answer hanswered => ?_
    exact ((hanswered.prepend hlooked hallowed).prepend hsilent hunlimited).served
  · intro admitting looking completing e hadmission hlookup hcompletion
    obtain ⟨hsilent, hunlimited⟩ := hadmitted hadmission
    obtain ⟨hlooked, hallowed⟩ := hquiet hlookup (by decide) (by decide)
    obtain ⟨hcompleted, hprovided⟩ := hquiet hcompletion (by decide) (by decide)
    refine served_failure ?_ ?_
    · rw [requestMetrics_append, requestMetrics_append, hmissed.1, hsilent, hlooked, hcompleted]
      rfl
    · rw [rejected_append, rejected_append, hmissed.2]
      exact not_or.mpr ⟨hunlimited, not_or.mpr ⟨hallowed, hprovided⟩⟩
  · intro admitting looking completing modelUsed text hadmission hlookup hcompletion
    obtain ⟨hsilent, hunlimited⟩ := hadmitted hadmission
    obtain ⟨hlooked, hallowed⟩ := hquiet hlookup (by decide) (by decide)
    obtain ⟨hcompleted, hprovided⟩ := hquiet hcompletion (by decide) (by decide)
    refine (respondGenerated_ensures _ _ _ _ _ _ _).mono fun rest answer hanswered => ?_
    have hmiss : ¬ Rejected [⟨.record (.cacheResult false), ()⟩] := by
      simp [Rejected, Op.isRejection]
    have hcompletedAnswer := (hanswered.prepend hcompleted hprovided).prepend rfl hmiss
    exact ((hcompletedAnswer.prepend hlooked hallowed).prepend hsilent hunlimited).served

/-- What a handled request leaves behind, answered or failed: one queued row with the outcome's
status, one request counted in the metrics, and, where it was denied, neither a lookup nor a
completion. -/
structure Accounted (outcome : Except HttpException GenerateResponse) (tasks : List Task)
    (events : List (Event Op Op.Reply)) : Prop where
  raised : ∀ e, outcome = .error e → e.statusCode = 429 ∨ e = badGateway
  log : ∃ log, tasks.filterMap Task.log = [log] ∧
    (log.status = .success ↔ ∃ response, outcome = .ok response) ∧
    (log.status = .error → log.tokens = 0 ∧ log.cost = .finite 0 ∧ log.response = "")
  metric : ∃ status, requestMetrics events = [status] ∧
    (status = .success ↔ ∃ response, outcome = .ok response)
  entry : tasks.filterMap Task.entry ≠ [] ↔ ∃ response, outcome = .ok response ∧
    response.cached = false
  denied : Rejected events ↔ ∃ e, outcome = .error e ∧ e.statusCode = 429
  quiet : Rejected events → ∀ event ∈ events, event.op.stage ≠ .lookup ∧
    event.op.stage ≠ .completion

/-- What the `except` branches leave behind: one queued row of the failure, without tokens, costs
and text, nothing for the cache, and one failed request counted in the metrics. -/
structure Failed (tasks : List Task) (events : List (Event Op Op.Reply)) : Prop where
  log : ∃ log, tasks.filterMap Task.log = [log] ∧ log.status = .error ∧ log.tokens = 0 ∧
    log.cost = .finite 0 ∧ log.response = ""
  entry : tasks.filterMap Task.entry = []
  metric : requestMetrics events = [.error]
  admitted : ¬ Rejected events
  quiet : ∀ event ∈ events, event.op.stage ≠ .lookup ∧ event.op.stage ≠ .completion

omit [Digests] in
lemma accountFailure_ensures (settings : Settings) (payload : GenerateRequest)
    (auth : AuthContext) (started : ℚ) (errorMessage : String) :
    (accountFailure settings payload auth started errorMessage).Ensures
      fun events tasks => Failed tasks events := by
  intro finished _
  refine ⟨⟨_, rfl, rfl, rfl, rfl, rfl⟩, rfl, rfl, ?_, ?_⟩
  · simp [Rejected, Op.isRejection]
  · simp [Op.stage]

omit [Runtime] [Digests] in
lemma Failed.accounted {e : HttpException} {tasks : List Task}
    {before events : List (Event Op Op.Reply)} (h : Failed tasks events)
    (hbefore : requestMetrics before = []) (he : e.statusCode = 429 ∨ e = badGateway)
    (hdenied : Rejected before ↔ e.statusCode = 429)
    (hquiet : Rejected before → ∀ event ∈ before, event.op.stage ≠ .lookup ∧
      event.op.stage ≠ .completion) : Accounted (.error e) tasks (before ++ events) := by
  obtain ⟨log, hlog, hstatus, htokens, hcost, hresponse⟩ := h.log
  have hrejected : Rejected (before ++ events) ↔ Rejected before := by
    rw [rejected_append]
    exact or_iff_left h.admitted
  refine ⟨?_, ?_, ?_, ?_, ?_, ?_⟩
  · rintro _ ⟨⟩
    exact he
  · exact ⟨log, hlog, by simp [hstatus], fun _ => ⟨htokens, hcost, hresponse⟩⟩
  · exact ⟨.error, by rw [requestMetrics_append, hbefore, h.metric, List.nil_append], by simp⟩
  · simp [h.entry]
  · simp [hrejected, hdenied]
  · intro hreject
    exact List.forall_mem_append.mpr ⟨hquiet (hrejected.mp hreject), h.quiet⟩

omit [Runtime] [Digests] in
lemma Answered.accounted {response : GenerateResponse} {tasks : List Task}
    {events : List (Event Op Op.Reply)} (h : Answered response tasks events) :
    Accounted (.ok response) tasks events := by
  obtain ⟨log, hlog, hstatus⟩ := h.log
  refine ⟨?_, ?_, ?_, ?_, ?_, ?_⟩
  · rintro _ ⟨⟩
  · exact ⟨log, hlog, by simp [hstatus], by simp [hstatus]⟩
  · exact ⟨.success, h.metric, by simp⟩
  · simp [h.entry]
  · exact iff_of_false h.admitted (by simp)
  · exact fun hrejected => absurd hrejected h.admitted

theorem handleGenerateRequest_ensures (hasRedis : Bool) (settings : Settings)
    (payload : GenerateRequest) (auth : AuthContext) :
    (handleGenerateRequest hasRedis settings payload auth).Ensures
      fun events handled => Accounted handled.1 handled.2 events := by
  have hentered : ∀ {started : ℚ} {requestId : String} {events : List (Event Op Op.Reply)},
      requestMetrics (⟨.perfCounter, started⟩ :: ⟨.requestId, requestId⟩ :: events) =
          requestMetrics events ∧
        (Rejected (⟨.perfCounter, started⟩ :: ⟨.requestId, requestId⟩ :: events) ↔
          Rejected events) := by
    intro started requestId events
    simp [requestMetrics, Rejected, Op.requestStatus, Op.isRejection]
  refine handleGenerateRequest_rule (serve_ensures _ _ _ _) ?_ ?_
  · intro started requestId serving response tasks hserved
    have hentry : ¬ Rejected [⟨.perfCounter, started⟩, ⟨.requestId, requestId⟩] := by
      simp [Rejected, Op.isRejection]
    exact ((hserved.answered _ rfl).prepend rfl hentry).accounted
  · intro started requestId serving raised hserved
    refine (accountFailure_ensures _ _ _ _ _).mono fun accounting tasks hfailed => ?_
    have hsilent : requestMetrics (⟨.perfCounter, started⟩ :: ⟨.requestId, requestId⟩ :: serving) =
        [] := by
      rw [hentered.1]
      exact hserved.silent _ rfl
    cases raised with
    | http e =>
      have hcode := hserved.statusCode e rfl
      have hrejected := hserved.rejected.mpr ⟨e, rfl⟩
      have hquiet : ∀ event ∈ (⟨.perfCounter, started⟩ :: ⟨.requestId, requestId⟩ :: serving :
          List (Event Op Op.Reply)), event.op.stage ≠ .lookup ∧ event.op.stage ≠ .completion := by
        refine List.forall_mem_cons.mpr ⟨by simp [Op.stage], ?_⟩
        refine List.forall_mem_cons.mpr ⟨by simp [Op.stage], ?_⟩
        exact fun event he => by simp [hserved.denied e rfl event he]
      exact hfailed.accounted hsilent (.inl hcode)
        (iff_of_true (hentered.2.mpr hrejected) hcode) fun _ => hquiet
    | other e =>
      have hnot : ¬ Rejected (⟨.perfCounter, started⟩ :: ⟨.requestId, requestId⟩ :: serving) := by
        rw [hentered.2, hserved.rejected]
        simp
      have hcode : ¬ badGateway.statusCode = 429 := by decide
      exact hfailed.accounted hsilent (.inr rfl) (iff_of_false hnot hcode)
        fun hreject => absurd hreject hnot

/-- Whatever the surroundings answer, the handler queues one log and records one request
metric, both of the status that it ends with. -/
theorem one_record_per_request {σ : Type} (w : World Op Op.Reply σ) (s : σ) (hasRedis : Bool)
    (settings : Settings) (payload : GenerateRequest) (auth : AuthContext) :
    let request := handleGenerateRequest hasRedis settings payload auth
    Accounted (request.result w s).1 (request.result w s).2 (request.trace w s) :=
  (handleGenerateRequest_ensures hasRedis settings payload auth).run w s

/-! ## What the endpoint stores -/

/-- The row that a call hands to the database; whether the database keeps it is not asked here. -/
def Op.row : Op → Option LogTask
  | persist row => some row
  | _ => none

/-- The rows that a run hands to the database, in the order in which its tasks were run. -/
def rows (events : List (Event Op Op.Reply)) : List LogTask :=
  events.filterMap fun e => e.op.row

omit [Runtime] [Digests] in
lemma rows_append (before events : List (Event Op Op.Reply)) :
    rows (before ++ events) = rows before ++ rows events := List.filterMap_append

/-- The calls that handling a request can make, if its cache entry has this key. -/
def Op.Handles (key : String) : Op → Prop
  | get key' => key' = key
  | incrTtl key' => ∃ rest, key' = "rate:" ++ rest
  | expire key' _ => ∃ rest, key' = "rate:" ++ rest
  | set _ _ _ => False
  | persist _ => False
  | _ => True

/-- The key of a request's cache entry. -/
def requestKey (settings : Settings) (payload : GenerateRequest) : String :=
  cacheKey (redactPii payload.prompt) (cacheModelKey (chooseModel payload settings))

omit [Runtime] [Digests] in
lemma handles_of_completion {key : String} {op : Op} (h : op.stage = .completion) :
    op.Handles key := by
  cases op with
  | get => cases h
  | incrTtl => cases h
  | expire => cases h
  | set => cases h
  | persist => cases h
  | _ => trivial

omit [Runtime] [Digests] in
lemma enforceRateLimits_handles (key : String) (hasRedis : Bool) (settings : Settings)
    (auth : AuthContext) (userId : String) :
    (enforceRateLimits hasRedis settings auth userId).Always (Op.Handles key) := by
  have hrate : ∀ scope identifier bucket, ∃ rest,
      bucketKey scope identifier bucket = "rate:" ++ rest := by
    intro scope identifier bucket
    refine ⟨scope.text ++ (":" ++ (identifier ++ (":" ++ toString bucket))), ?_⟩
    simp only [bucketKey, String.append_assoc]
  have hcheck : ∀ scope identifier limit, (checkRateLimit hasRedis scope identifier limit
      settings.rateLimitWindowSeconds).Always (Op.Handles key) :=
    fun _ _ _ => checkRateLimit_always _ _ _ _ _ trivial (hrate _ _) (hrate _ _)
  unfold enforceRateLimits
  refine (hcheck _ _ _).bind fun keyResult => (hcheck _ _ _).bind fun userResult => ?_
  split_ifs
  · exact ⟨trivial, fun _ => trivial⟩
  · exact ⟨trivial, fun _ => trivial⟩
  · exact always_done _ _

lemma serve_handles (hasRedis : Bool) (settings : Settings) (payload : GenerateRequest)
    (auth : AuthContext) (started : ℚ) (requestId : String) :
    (serve hasRedis settings payload auth started requestId).Always
      (Op.Handles (requestKey settings payload)) := by
  unfold serve
  refine (enforceRateLimits_handles _ _ _ _ _).bind fun admitted => ?_
  cases admitted with
  | error e => exact always_done _ _
  | ok _ =>
    have hlookup : (getCachedResponse hasRedis (redactPii payload.prompt)
        (cacheModelKey (chooseModel payload settings))).Always
          (Op.Handles (requestKey settings payload)) := by
      cases hasRedis with
      | false => exact always_done _ _
      | true => exact ⟨rfl, fun _ => trivial⟩
    refine hlookup.bind fun cached => ?_
    cases cached with
    | some cached =>
      refine Always.bind ?_ fun _ => always_done _ _
      exact ⟨trivial, fun _ => ⟨trivial, fun _ => ⟨trivial, fun _ => ⟨trivial, fun _ => trivial⟩⟩⟩⟩
    | none =>
      refine ⟨trivial, fun _ => ?_⟩
      refine ((completeFor_always _ _).mono fun _ => handles_of_completion).bind fun outcome => ?_
      cases outcome with
      | error e => exact always_done _ _
      | ok answer =>
        refine Always.bind ?_ fun _ => always_done _ _
        exact ⟨trivial, fun _ => ⟨trivial, fun _ => ⟨trivial, fun _ => ⟨trivial,
          fun _ => ⟨trivial, fun _ => trivial⟩⟩⟩⟩⟩

theorem handleGenerateRequest_handles (hasRedis : Bool) (settings : Settings)
    (payload : GenerateRequest) (auth : AuthContext) :
    (handleGenerateRequest hasRedis settings payload auth).Always
      (Op.Handles (requestKey settings payload)) := by
  have hfail : ∀ started message, (accountFailure settings payload auth started message).Always
      (Op.Handles (requestKey settings payload)) :=
    fun started message => ⟨trivial, fun _ => ⟨trivial, fun _ => trivial⟩⟩
  refine ⟨trivial, fun started => ⟨trivial, fun requestId => ?_⟩⟩
  refine (serve_handles _ _ _ _ _ _).bind fun result => ?_
  cases result with
  | ok answer => exact always_done _ _
  | error raised =>
    cases raised with
    | http e => exact (hfail _ _).bind fun _ => always_done _ _
    | other e => exact (hfail _ _).bind fun _ => always_done _ _

/-- The handler itself hands no row to the database: it only queues its logs. -/
lemma handleGenerateRequest_rows (hasRedis : Bool) (settings : Settings)
    (payload : GenerateRequest) (auth : AuthContext) :
    (handleGenerateRequest hasRedis settings payload auth).Ensures
      fun events _ => rows events = [] := by
  have hhandles := (handleGenerateRequest_handles hasRedis settings payload auth).ensures
  refine hhandles.mono fun events _ hops => ?_
  apply List.filterMap_eq_nil_iff.mpr
  intro e he
  have hop := hops e he
  obtain ⟨op, reply⟩ := e
  cases op with
  | persist row => cases hop
  | _ => rfl

/-- The handler up to its rate limits: both scopes let the request through. -/
def passLimits (hasRedis : Bool) (settings : Settings) (payload : GenerateRequest)
    (auth : AuthContext) :
    Coroutine (Except HttpException Unit) := do
  let _ ← Call.perfCounter
  let _ ← Call.requestId
  enforceRateLimits hasRedis settings auth payload.userId

/-- The handler's lookup, once the limits are passed: the key of the request is asked for in the
cache. -/
def lookUp (hasRedis : Bool) (settings : Settings) (payload : GenerateRequest) :
    Coroutine (Option CachedResponse) :=
  getCachedResponse hasRedis (redactPii payload.prompt)
    (cacheModelKey (chooseModel payload settings))

/-- What the handler does on a miss, up to the text: the miss is recorded, and the completion
asked for. -/
def completeMissed (settings : Settings) (payload : GenerateRequest) :
    Coroutine (Except LlmError (String × String)) := do
  Call.record (.cacheResult false)
  completeFor settings payload

/-- From state `s`, the rate limits let the request through, and then the cache holds an entry
for it or the provider completes it. -/
def Answerable {σ : Type} (w : World Op Op.Reply σ) (s : σ) (hasRedis : Bool) (settings : Settings)
    (payload : GenerateRequest) (auth : AuthContext) : Prop :=
  let admitted := passLimits hasRedis settings payload auth
  let looked := lookUp hasRedis settings payload
  admitted.result w s = .ok () ∧
    ((∃ cached, looked.result w (admitted.final w s) = some cached) ∨
      ∃ answer, (completeMissed settings payload).result w
        (looked.final w (admitted.final w s)) = .ok answer)

theorem answered_iff {σ : Type} (w : World Op Op.Reply σ) (s : σ) (hasRedis : Bool)
    (settings : Settings) (payload : GenerateRequest) (auth : AuthContext) :
    (∃ response, ((handleGenerateRequest hasRedis settings payload auth).result w s).1 =
      .ok response) ↔ Answerable w s hasRedis settings payload auth := by
  simp only [Answerable, passLimits, lookUp, completeMissed, handleGenerateRequest, serve,
    result_bind, final_bind]
  generalize (final w Call.requestId (final w Call.perfCounter s)) = s₁
  cases hadmit : (enforceRateLimits hasRedis settings auth payload.userId).result w s₁ with
  | error e => simp
  | ok _ =>
    generalize (enforceRateLimits hasRedis settings auth payload.userId).final w s₁ = s₂
    simp only [result_bind, final_bind]
    generalize getCachedResponse hasRedis (redactPii payload.prompt)
      (cacheModelKey (chooseModel payload settings)) = lookup
    cases hlook : lookup.result w s₂ with
    | some cached => simp
    | none =>
      simp only [result_bind, final_bind]
      generalize final w (Call.record (.cacheResult false)) (lookup.final w s₂) = s₃
      cases hcomplete : (completeFor settings payload).result w s₃ with
      | error e => simp
      | ok answer => simp

omit [Runtime] in
lemma Task.run_rows (hasRedis : Bool) (task : Task) : (task.run hasRedis).Ensures fun events _ =>
    rows events = task.log.toList.map LogTask.row := by
  cases task with
  | persistRequestLog log => exact fun _ => rfl
  | setCachedResponse prompt model entry ttlSeconds =>
    cases hasRedis with
    | false => rfl
    | true => exact fun _ => rfl

omit [Runtime] in
/-- The background tasks hand their logs to the database. -/
lemma runTasks_rows (hasRedis : Bool) (tasks : List Task) :
    (runTasks hasRedis tasks).Ensures fun events _ =>
      rows events = (tasks.filterMap Task.log).map LogTask.row := by
  induction tasks with
  | nil => rfl
  | cons task tasks ih =>
    refine (task.run_rows hasRedis).bind fun first _ hfirst => ih.mono fun rest _ hrest => ?_
    rw [rows_append, hfirst, hrest, List.filterMap_cons]
    cases task.log <;> rfl

/-- One row reached the database, of the status that the request ended with. -/
def RecordedOnce (outcome : Except HttpException GenerateResponse)
    (events : List (Event Op Op.Reply)) : Prop :=
  ∃ row, rows events = [row] ∧ (row.status = .success ↔ ∃ response, outcome = .ok response)

/-- The endpoint leaves its one row exactly when the request is answered: a row is queued on
every path, but the rows of failed requests are queued as background tasks, which an exception
discards. -/
theorem recordedOnce_iff {σ : Type} (w : World Op Op.Reply σ) (s : σ) (hasRedis : Bool)
    (settings : Settings) (payload : GenerateRequest) (auth : AuthContext) :
    let request := generate hasRedis settings payload auth
    RecordedOnce (request.result w s) (request.trace w s) ↔
      Answerable w s hasRedis settings payload auth := by
  rw [← answered_iff]
  have haccounted := (handleGenerateRequest_ensures hasRedis settings payload auth).run w s
  have hhandled := (handleGenerateRequest_rows hasRedis settings payload auth).run w s
  simp only [generate, result_bind, trace_bind, RecordedOnce, rows_append, hhandled]
  generalize (handleGenerateRequest hasRedis settings payload auth).result w s = handled
    at haccounted ⊢
  obtain ⟨outcome, tasks⟩ := handled
  obtain ⟨log, hlog, hstatus, -⟩ := haccounted.log
  cases outcome with
  | error e =>
    refine iff_of_false ?_ (by simp)
    rintro ⟨row, hrow, -⟩
    cases hrow
  | ok response =>
    refine iff_of_true ⟨log.row, ?_, ?_⟩ ⟨response, rfl⟩
    · have hstored := fun s' => (runTasks_rows hasRedis tasks).run w s'
      simp only [trace_bind, rows_append, hstored, hlog]
      rfl
    · exact hstatus.trans (by simp)

end

/-! ## A request that leaves no row -/

/-- A payload without overrides. -/
def GenerateRequest.plain (prompt userId : String)
    (hprompt : 1 ≤ prompt.length ∧ prompt.length ≤ 20000)
    (huser : 1 ≤ userId.length ∧ userId.length ≤ 128) : GenerateRequest where
  prompt := prompt
  userId := userId
  priority := .low
  modelOverride := none
  providerOverride := none
  providerApiKey := none
  prompt_length := hprompt
  userId_length := huser
  modelOverride_length := by simp
  providerOverride_length := by simp

/-- The digest of the one text that is hashed for a request of "hello". -/
def helloDigest : List (String × String) :=
  [("default:cheap:hello", "24e605bbb3b017dbb3115dfa612369fed0967d7cb41ac41671c4cea5f802fbba")]

/-- Redis counts a thousand calls in every bucket. -/
def busy : World Op Op.Reply Unit
  | .incrTtl _, s => (.ok (1000, 30), s)
  | op, s => (op.idle, s)

/-- A request over its rate limit is answered with 429, and leaves no row of the rejection. -/
theorem rejected_request_unrecorded :
    letI := Runtime.ascii
    letI := Digests.listed helloDigest
    let request := generate true .default
      (.plain "hello" "u" (by decide) (by decide)) ⟨"acme", "key-hash", 120, "user"⟩
    ¬ RecordedOnce (request.result busy ()) (request.trace busy ()) := by
  intro request hrecorded
  obtain ⟨row, hrow, -⟩ := hrecorded
  have hnone : rows (request.trace busy ()) = [] := rfl
  rw [hnone] at hrow
  cases hrow

end InferenceControlPlane.Gateway
