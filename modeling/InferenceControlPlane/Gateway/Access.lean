import InferenceControlPlane.Gateway.Service
import InferenceControlPlane.Gateway.Usage

/-!
# Who may call what

Requests of all kinds interleave. Before an endpoint counts a request, stores a row or reads
a report, the key of the request was found active, by the request itself or by an earlier one
whose finding is cached; and it does so for the tenant of that key only.
-/
namespace InferenceControlPlane.Gateway
open Python Program

/-! ## What an endpoint does for its caller -/

/-- What a generate request calls for its caller: it counts against the limits of the caller's
key and of the caller's user, and stores rows of the caller. -/
def Op.ServedFor (auth : AuthContext) (payload : GenerateRequest) : Op → Prop
  | incrTtl key => ∃ bucket, key = bucketKey .apiKey auth.apiKeyHash bucket ∨
    key = bucketKey .user (auth.tenantId ++ ":" ++ payload.userId) bucket
  | expire key _ => ∃ bucket, key = bucketKey .apiKey auth.apiKeyHash bucket ∨
    key = bucketKey .user (auth.tenantId ++ ":" ++ payload.userId) bucket
  | persist row => row.tenantId = auth.tenantId ∧ row.apiKeyHash = auth.apiKeyHash
  | _ => True

section
variable {auth : AuthContext} {payload : GenerateRequest}

lemma servedFor_of_stage {op : Op} {stage : Stage} (h : op.stage = stage)
    (hadmission : stage ≠ .admission) (hstorage : stage ≠ .storage) :
      op.ServedFor auth payload := by
  cases op with
  | incrTtl key => exact absurd h.symm hadmission
  | expire key seconds => exact absurd h.symm hadmission
  | persist row => exact absurd h.symm hstorage
  | _ => trivial

lemma enforceRateLimits_servedFor (hasRedis : Bool) (settings : Settings) :
    (enforceRateLimits hasRedis settings auth payload.userId).Always
      (Op.ServedFor auth payload) := by
  have hkey : (checkRateLimit hasRedis .apiKey auth.apiKeyHash auth.rateLimitPerMinute
      settings.rateLimitWindowSeconds).Always (Op.ServedFor auth payload) :=
    checkRateLimit_always _ _ _ _ _ trivial (fun bucket => ⟨bucket, .inl rfl⟩)
      fun bucket => ⟨bucket, .inl rfl⟩
  have huser : (checkRateLimit hasRedis .user (auth.tenantId ++ ":" ++ payload.userId)
      settings.userRateLimitPerMinute settings.rateLimitWindowSeconds).Always
        (Op.ServedFor auth payload) :=
    checkRateLimit_always _ _ _ _ _ trivial (fun bucket => ⟨bucket, .inr rfl⟩)
      fun bucket => ⟨bucket, .inr rfl⟩
  unfold enforceRateLimits
  apply hkey.bind
  intro keyResult
  apply huser.bind
  intro userResult
  split_ifs
  · exact ⟨trivial, fun _ => trivial⟩
  · exact ⟨trivial, fun _ => trivial⟩
  · exact always_done _ _

/-- The tasks of a request store the rows of its logs. -/
lemma runTasks_servedFor [Digests] (hasRedis : Bool) (tasks : List Task)
    (h : ∀ log ∈ tasks.filterMap Task.log, (Op.persist log.row).ServedFor auth payload) :
    (runTasks hasRedis tasks).Always (Op.ServedFor auth payload) := by
  induction tasks with
  | nil => exact always_done _ _
  | cons task tasks ih =>
    have hrest := ih fun log hlog => h log (by
      rw [List.filterMap_cons]
      cases task.log with
      | none => exact hlog
      | some _ => exact List.mem_cons_of_mem _ hlog)
    cases task with
    | setCachedResponse prompt model entry ttlSeconds =>
      refine Always.bind ?_ fun _ => hrest
      show (setCachedResponse hasRedis prompt model entry ttlSeconds).Always _
      cases hasRedis with
      | false => exact always_done _ _
      | true => exact ⟨trivial, fun _ => trivial⟩
    | persistRequestLog log =>
      have hrow := h log List.mem_cons_self
      exact ⟨hrow, fun _ => hrest⟩

variable [Runtime] [Digests]

lemma serve_servedFor (hasRedis : Bool) (settings : Settings) (started : ℚ) (requestId : String) :
    (serve hasRedis settings payload auth started requestId).Always
      (Op.ServedFor auth payload) := by
  unfold serve
  apply (enforceRateLimits_servedFor hasRedis settings).bind
  intro admitted
  cases admitted with
  | error e => exact always_done _ _
  | ok _ =>
    apply ((getCachedResponse_always _ _ _).mono fun op h =>
      servedFor_of_stage h (by decide) (by decide)).bind
    intro cached
    cases cached with
    | some cached =>
      refine Always.bind ?_ fun _ => always_done _ _
      exact ⟨trivial, fun _ => ⟨trivial, fun _ => ⟨trivial, fun _ => ⟨trivial, fun _ => trivial⟩⟩⟩⟩
    | none =>
      refine ⟨trivial, fun _ => ?_⟩
      apply ((completeFor_always _ _).mono fun op h =>
        servedFor_of_stage h (by decide) (by decide)).bind
      intro outcome
      cases outcome with
      | error e => exact always_done _ _
      | ok completed =>
        refine Always.bind ?_ fun _ => always_done _ _
        exact ⟨trivial, fun _ => ⟨trivial, fun _ => ⟨trivial, fun _ => ⟨trivial,
          fun _ => ⟨trivial, fun _ => trivial⟩⟩⟩⟩⟩

lemma handleGenerateRequest_servedFor (hasRedis : Bool) (settings : Settings) :
    (handleGenerateRequest hasRedis settings payload auth).Always (Op.ServedFor auth payload) := by
  have hfail : ∀ started message, (accountFailure settings payload auth started message).Always
      (Op.ServedFor auth payload) :=
    fun started message => ⟨trivial, fun _ => ⟨trivial, fun _ => trivial⟩⟩
  refine ⟨trivial, fun started => ⟨trivial, fun requestId => ?_⟩⟩
  apply (serve_servedFor hasRedis settings started requestId).bind
  intro result
  cases result with
  | ok answered => exact always_done _ _
  | error raised =>
    cases raised with
    | http e => exact (hfail _ _).bind fun _ => always_done _ _
    | other e => exact (hfail _ _).bind fun _ => always_done _ _

theorem generate_servedFor (hasRedis : Bool) (settings : Settings) (payload : GenerateRequest)
    (auth : AuthContext) :
    (generate hasRedis settings payload auth).Always (Op.ServedFor auth payload) := by
  unfold generate
  apply (handleGenerateRequest_servedFor hasRedis settings).bind_of_ensures
  refine (handleGenerateRequest_queues hasRedis settings payload auth).mono fun _ handled h => ?_
  obtain ⟨outcome, tasks⟩ := handled
  cases outcome with
  | error e => exact always_done _ _
  | ok response =>
    refine (runTasks_servedFor hasRedis tasks fun log hlog => ?_).bind fun _ => always_done _ _
    have hrow : log.row ∈ (tasks.filterMap Task.log).map LogTask.row := List.mem_map_of_mem hlog
    rw [h response rfl, List.mem_singleton] at hrow
    rw [hrow]
    exact ⟨rfl, rfl⟩

end

/-! ## What a request calls -/

/-- The calls of a service that are calls of authentication. -/
def seeAuth : View AuthOp AuthOp.Reply ServiceOp ServiceOp.Reply
  | .auth op => some ⟨op, id⟩
  | _ => none

lemma authCalls_seenBy : authCalls.SeenBy seeAuth := fun _ => rfl

/-- The calls that endpoints make for an authenticated caller: those of a generate request, and
the session and the clock of the reports. -/
def ServiceOp.isPrivileged : ServiceOp → Bool
  | serve _ => true
  | session => true
  | clock => true
  | _ => false

def Endpoint.isReport : Endpoint → Bool
  | usageSummary _ => true
  | usageLogs _ => true
  | dashboardMetrics => true
  | dashboardActivity => true
  | _ => false

/-- The calls that an endpoint may make for its caller, by the role and the tenant that the caller
was authenticated with. -/
def Endpoint.Permits (endpoint : Endpoint) (auth : AuthContext) : ServiceOp → Prop
  | .serve op => ∃ payload, endpoint = .generate (.valid payload) ∧ op.ServedFor auth payload
  | .session => endpoint.isReport = true ∧ auth.role = "admin"
  | .clock => endpoint.isReport = true ∧ auth.role = "admin"
  | _ => True

/-- A privileged call is made where the validation of the request's key has ended with a
context, and the endpoint may make it for that caller. -/
def HttpRequest.Authenticated (request : HttpRequest)
    (validation : AuthCoroutine (Except EndpointError LoadedContext)) (op : ServiceOp) : Prop :=
  op.isPrivileged = true → ∃ apiKey context, request.apiKey = some apiKey ∧
    validation = done (.ok context) ∧ request.endpoint.Permits context.typed op

/-- A call that is neither privileged nor one of authentication, and so needs no key, such as
those of a health check. -/
def ServiceOp.isPublic (op : ServiceOp) : Prop :=
  seeAuth op = none ∧ op.isPrivileged = false

lemma ServiceOp.isPublic.authenticated {op : ServiceOp} (h : op.isPublic) {request : HttpRequest}
    {validation : AuthCoroutine (Except EndpointError LoadedContext)} :
    seeAuth op = none ∧ request.Authenticated validation op := by
  refine ⟨h.1, fun hprivileged => ?_⟩
  rw [h.2] at hprivileged
  cases hprivileged

/-- A report reads a session for administrators only. -/
lemma report_always {request : HttpRequest} {apiKey : String} {context : LoadedContext}
    (hkey : request.apiKey = some apiKey) (hreport : request.endpoint.isReport = true)
    (name : String) (read : Session → Except EndpointError Content) :
    (report context.typed name read).Always fun op =>
      seeAuth op = none ∧ request.Authenticated (done (.ok context)) op := by
  unfold report requireAdmin
  by_cases hrole : context.typed.role = "admin"
  · rw [if_pos hrole]
    exact ⟨⟨rfl, fun _ => ⟨apiKey, context, hkey, rfl, hreport, hrole⟩⟩, fun _ => trivial⟩
  · rw [if_neg hrole]
    trivial

lemma dashboardMetricsEndpoint_always {request : HttpRequest} {apiKey : String}
    {context : LoadedContext} (hkey : request.apiKey = some apiKey)
    (hreport : request.endpoint.isReport = true) :
    (dashboardMetricsEndpoint context.typed).Always fun op =>
      seeAuth op = none ∧ request.Authenticated (done (.ok context)) op := by
  unfold dashboardMetricsEndpoint requireAdmin
  by_cases hrole : context.typed.role = "admin"
  · rw [if_pos hrole]
    exact ⟨⟨rfl, fun _ => ⟨apiKey, context, hkey, rfl, hreport, hrole⟩⟩,
      fun _ => report_always hkey hreport _ _⟩
  · rw [if_neg hrole]
    trivial

section
variable [Runtime] [Digests]

lemma generateEndpoint_always {request : HttpRequest} {apiKey : String} {context : LoadedContext}
    {payload : GenerateRequest} (hkey : request.apiKey = some apiKey)
    (hendpoint : request.endpoint = .generate (.valid payload)) (service : Service) :
    (generateEndpoint service context.typed payload).Always fun op =>
      seeAuth op = none ∧ request.Authenticated (done (.ok context)) op := by
  unfold generateEndpoint
  refine Always.bind ?_ fun outcome => ?_
  · apply Always.within
    refine (generate_servedFor _ _ _ _).mono fun op hserved => ⟨rfl, fun _ => ?_⟩
    exact ⟨apiKey, context, hkey, rfl, payload, hendpoint, hserved⟩
  · cases outcome <;> exact always_done _ _

/-- An endpoint behind authentication hosts the validation of the request's key. -/
lemma guarded_hosts {α : Type} {request : HttpRequest} {service : Service} {input : Input α}
    {body : AuthContext → α → ServiceCoroutine (Except Failure Content)}
    (hbody : ∀ apiKey context a, request.apiKey = some apiKey → input = .valid a →
      (body context.typed a).Always fun op =>
        seeAuth op = none ∧ request.Authenticated (done (.ok context)) op)
    (settle : Except Failure Content → HttpResponse) :
    (guarded service request.apiKey input body >>= fun r => done (settle r)).Hosts seeAuth
      request.Authenticated (fun _ _ => True)
      (validateApiKey (request.apiKey.getD "") service.authSettings service.hasRedis) := by
  -- what follows the authentication of the request
  have hauth : ∀ next : Except Failure AuthContext → ServiceCoroutine HttpResponse,
      (∀ f, (next (.error f)).Always fun _ => False) →
      (∀ apiKey context, request.apiKey = some apiKey → (next (.ok context.typed)).Always fun op =>
        seeAuth op = none ∧ request.Authenticated (done (.ok context)) op) →
      (getAuthContext service request.apiKey >>= next).Hosts seeAuth request.Authenticated
        (fun _ _ => True) (validateApiKey (request.apiKey.getD "") service.authSettings
          service.hasRedis) := by
    intro next herror hok
    have hrefused : ∀ f p, (next (.error f)).Hosts seeAuth request.Authenticated
        (fun _ _ => True) p :=
      fun f p => ((herror f).mono fun _ h => h.elim).hosts (ensures_true _)
    unfold getAuthContext
    cases hkey : request.apiKey with
    | none => exact hrefused _ _
    | some apiKey =>
      simp only [extractApiKey]
      by_cases hempty : apiKey = ""
      · rw [if_pos hempty]
        exact hrefused _ _
      · rw [if_neg hempty]
        dsimp only
        rw [Program.bind_assoc]
        apply hosts_within authCalls_seenBy
        intro outcome
        cases outcome with
        | error e => exact hrefused _ _
        | ok context => exact (hok apiKey context hkey).hosts (ensures_true _)
  cases hinput : input with
  | malformed errors => exact .done trivial
  | invalid errors =>
    simp only [guarded, Program.bind_assoc]
    apply hauth
    · exact fun f => always_done _ _
    · exact fun apiKey context hkey => always_done _ _
  | valid a =>
    simp only [guarded, Program.bind_assoc]
    apply hauth
    · exact fun f => always_done _ _
    · exact fun apiKey context hkey =>
        (hbody apiKey context a hkey hinput).bind fun _ => always_done _ _

omit [Runtime] [Digests] in
lemma identify_always (request : HttpRequest) : request.identify.Always ServiceOp.isPublic := by
  unfold HttpRequest.identify
  cases request.requestId with
  | none => exact always_perform ⟨rfl, rfl⟩
  | some id =>
    dsimp only
    split_ifs
    · exact always_perform ⟨rfl, rfl⟩
    · exact always_done _ _

omit [Runtime] [Digests] in
lemma healthReady_always : healthReady.Always ServiceOp.isPublic := by
  unfold healthReady
  refine ⟨⟨rfl, rfl⟩, fun selected => ?_⟩
  cases selected with
  | error e => exact always_done _ _
  | ok _ =>
    refine ⟨⟨rfl, rfl⟩, fun redisReady => ?_⟩
    cases redisReady <;> exact always_done _ _

/-- A request hosts the validation of its key. -/
theorem respond_hosts (service : Service) (request : HttpRequest) :
    (respond service request).Hosts seeAuth request.Authenticated (fun _ _ => True)
      (validateApiKey (request.apiKey.getD "") service.authSettings service.hasRedis) := by
  unfold respond
  apply Always.hosts_bind ((identify_always request).mono fun _ h => h.authenticated)
  intro requestId
  cases hendpoint : request.endpoint with
  | generate payload =>
    simp only [HttpRequest.call, hendpoint]
    apply guarded_hosts
    intro apiKey context a hkey hinput
    exact generateEndpoint_always hkey (hinput ▸ hendpoint) service
  | usageSummary query =>
    simp only [HttpRequest.call, hendpoint]
    apply guarded_hosts
    exact fun apiKey context a hkey _ => report_always hkey (hendpoint ▸ rfl) _ _
  | usageLogs query =>
    simp only [HttpRequest.call, hendpoint]
    apply guarded_hosts
    exact fun apiKey context a hkey _ => report_always hkey (hendpoint ▸ rfl) _ _
  | dashboardMetrics =>
    simp only [HttpRequest.call, hendpoint]
    apply guarded_hosts
    exact fun apiKey context a hkey _ => dashboardMetricsEndpoint_always hkey (hendpoint ▸ rfl)
  | dashboardActivity =>
    simp only [HttpRequest.call, hendpoint]
    apply guarded_hosts
    exact fun apiKey context a hkey _ => report_always hkey (hendpoint ▸ rfl) _ _
  | healthLive =>
    simp only [HttpRequest.call, hendpoint]
    exact .done trivial
  | healthReady =>
    simp only [HttpRequest.call, hendpoint]
    apply Always.hosts_bind (healthReady_always.mono fun _ h => h.authenticated)
    exact fun _ => .done trivial
  | metrics =>
    simp only [HttpRequest.call, hendpoint]
    exact .other rfl (ServiceOp.isPublic.authenticated ⟨rfl, rfl⟩).2 fun _ => .done trivial

/-! ## Every interleaving of requests -/

section History
variable {ι σ : Type} [DecidableEq ι]

omit [Runtime] [Digests] [DecidableEq ι] in
/-- The history of a service as its validations see it, so that what is known of validations holds
inside the service. -/
def authHistory (labels : List (ℚ≥0 × Act ι ServiceOp ServiceOp.Reply)) : AuthHistory ι :=
  labels.map (Prod.map id (Pool.seenAct seeAuth))

/-- What lets a caller with a key be taken for `auth`: the key is the built-in one, or its row
was found active, by the request itself or less than the lifetime of a cache entry before the
request read the finding. -/
def Vouched (settings : AuthSettings) (labels : AuthHistory ι) (i : ι) (apiKey : String)
    (auth : AuthContext) : Prop :=
  apiKey = "public-demo-key" ∧ auth = publicGuest ∨
    ∃ row : APIKey, row.keyHash = hashApiKey apiKey ∧ auth = row.context ∧
      (SelectedBy labels i row ∨ CachedFor settings labels i row)

/-- Requests before they start, each at its endpoint, on a Redis that holds no cached context yet.
Histories begin here, so that every cached context has been written within them. -/
structure Unserved (service : Service) (requests : ι → HttpRequest) (view : σ → AuthState)
    (pool : Pool ι ServiceOp ServiceOp.Reply HttpResponse σ) : Prop where
  members : ∀ i, pool.members i = respond service (requests i)
  empty : ∀ apiKeyHash, (view pool.shared).entries (authCacheKey apiKeyHash) = none

omit [DecidableEq ι] in
/-- Where a validation has ended, its context is vouched for. -/
lemma Tracked.vouched {settings : AuthSettings} {apiKeys : ι → String} {labels : AuthHistory ι}
    {pool : Pool ι AuthOp AuthOp.Reply (Except EndpointError LoadedContext) AuthState}
    (h : Tracked settings apiKeys labels pool) {i : ι} {context : LoadedContext}
    (hdemo : apiKeys i = "public-demo-key" → context = publicGuest.loaded)
    (hended : pool.members i = .done (.ok context)) :
    Vouched settings labels i (apiKeys i) context.typed := by
  by_cases hkey : apiKeys i = "public-demo-key"
  · rw [hdemo hkey]
    exact .inl ⟨hkey, rfl⟩
  · have hphase := h.phase i hkey
    rw [hended] at hphase
    cases hphase with
    | ended hjustified =>
      obtain ⟨row, hhash, hcontext, hfound⟩ := hjustified.granted context rfl
      exact .inr ⟨row, hhash, congrArg LoadedContext.typed hcontext, hfound⟩

/-- Before an endpoint makes a call for a caller, the key of its request was vouched for; and
it makes only calls that it may make for the caller that the key stands for. -/
theorem access_authorized (service : Service) (requests : ι → HttpRequest) {view : σ → AuthState}
    {answers : σ → (op : ServiceOp) → op.Reply → σ → Prop} {drift : σ → σ → Prop}
    (hviews : Pool.Views seeAuth view answers drift AuthState.Answers AuthState.Drifts)
    (init pool : Pool ι ServiceOp ServiceOp.Reply HttpResponse σ)
    (hinit : Unserved service requests view init)
    {before after : List (ℚ≥0 × Act ι ServiceOp ServiceOp.Reply)} {time : ℚ≥0} {i : ι}
    {event : Event ServiceOp ServiceOp.Reply}
    (hrun : Run (Pool.Stamped (AuthState.clock ∘ view) (Pool.Step answers drift)) init
      (before ++ (time, .called i event) :: after) pool) (hop : event.op.isPrivileged = true) :
    ∃ apiKey auth, (requests i).apiKey = some apiKey ∧
      Vouched service.authSettings (authHistory before) i apiKey auth ∧
      (requests i).endpoint.Permits auth event.op := by
  let apiKeys : ι → String := fun i => (requests i).apiKey.getD ""
  let init' : Pool ι AuthOp AuthOp.Reply (Except EndpointError LoadedContext) AuthState :=
    ⟨view init.shared, fun i => validateApiKey (apiKeys i) service.authSettings service.hasRedis⟩
  have hseen : Pool.SeenAs seeAuth (fun i => (requests i).Authenticated) (fun _ _ _ => True)
      view init init' :=
    ⟨rfl, fun i => hinit.members i ▸ respond_hosts service (requests i)⟩
  obtain ⟨pool₁, pool₂, hbefore, -, hstep⟩ := hrun.step_of_append
  obtain ⟨pool', hrun', hseen'⟩ := Pool.run_seen hviews hbefore hseen
  have htracked : Tracked service.authSettings apiKeys (authHistory before) pool' :=
    hrun'.invariant (tracked_start ⟨fun _ => rfl, hinit.empty⟩)
      fun _ _ _ _ h hstep => tracked_step h hstep
  have hother : seeAuth event.op = none := by
    generalize event.op = op at hop
    cases op with
    | auth op => cases hop
    | _ => rfl
  obtain ⟨apiKey, context, hkey, hended, hpermits⟩ := hseen'.at_other hstep hother hop
  have hapiKey : apiKeys i = apiKey := by simp only [apiKeys, hkey, Option.getD_some]
  refine ⟨apiKey, context.typed, hkey, ?_, hpermits⟩
  rw [← hapiKey]
  refine htracked.vouched (fun hdemo => ?_) hended
  -- the validation of the built-in key makes no call
  have hreach := Pool.reaches (Pool.run_unstamped hrun') i
  have hstart : init'.members i = done (.ok publicGuest.loaded) := by
    simp only [init', validateApiKey, if_pos hdemo]
    rfl
  have hguest : (init'.members i).Ensures fun _ outcome => outcome = .ok publicGuest.loaded := by
    rw [hstart]
    rfl
  rw [hended] at hreach
  exact Except.ok.inj (hguest.of_done hreach)

end History
end

/-! ## A request of a tenant -/

/-- A service whose database and Redis never fail. -/
def serviceWorld : World ServiceOp ServiceOp.Reply AuthState
  | .uuid, s => ("r1", s)
  | .auth op, s => authWorld op s
  | .serve op, s => (op.idle, s)
  | .session, s => (⟨[], none⟩, s)
  | .clock, s => (foreignFailure.createdAt, s)
  | .selectOne, s => (.ok (), s)
  | .pingRedis, s => (true, s)
  | .generateLatest, s => ("", s)

lemma AuthState.drifts_refl (s : AuthState) : s.Drifts s := ⟨le_rfl, fun _ => .inl rfl⟩

/-- The answers of the service. -/
def serviceAnswers (s : AuthState) (op : ServiceOp) (reply : op.Reply) (s' : AuthState) : Prop :=
  (reply, s') = serviceWorld op s

lemma serviceAnswers_views :
    Pool.Views seeAuth id serviceAnswers AuthState.Drifts AuthState.Answers AuthState.Drifts where
  own := by
    intro s op reply s' own hanswer hsee
    cases op with
    | auth op =>
      cases hsee
      have hpair : (reply, s') = authWorld op s := hanswer
      have hanswers := authWorld_answers op s
      rw [← hpair] at hanswers
      exact hanswers
    | _ => cases hsee
  other := by
    intro s op reply s' hanswer hsee
    cases op with
    | auth op => cases hsee
    | _ =>
      obtain rfl := (Prod.mk.inj hanswer).2
      exact AuthState.drifts_refl _
  drift h := h

lemma tenantPrompt_length : 1 ≤ "hello".length ∧ "hello".length ≤ 20000 := by decide

lemma tenantUser_length : 1 ≤ "u".length ∧ "u".length ≤ 128 := by decide

/-- A request of the tenant "acme". -/
def tenantRequest : HttpRequest :=
  ⟨some "r1", some "dev-inference-key",
    .generate (.valid (.plain "hello" "u" tenantPrompt_length tenantUser_length))⟩

def devService : Service := ⟨.default, .default, true⟩

/-- The row that a request stores at its end is one of the tenant whose key it was let in by. -/
theorem access_authorized_sample :
    letI := Runtime.ascii
    letI := Digests.listed devKeyDigest
    ∃ (before : List (ℚ≥0 × Act Unit ServiceOp ServiceOp.Reply)) (auth : AuthContext)
        (row : LogTask), before.length = 19 ∧ row.tenantId = "acme" ∧
      Vouched .default (authHistory before) () "dev-inference-key" auth ∧
        tenantRequest.endpoint.Permits auth (.serve (.persist row)) := by
  let ascii := Runtime.ascii
  let digests := Digests.listed devKeyDigest
  let init : Pool Unit ServiceOp ServiceOp.Reply HttpResponse AuthState :=
    ⟨devState, fun _ => respond devService tenantRequest⟩
  have hworld : ∀ op (s : AuthState), True →
      serviceAnswers s op (serviceWorld op s).1 (serviceWorld op s).2 ∧ True :=
    fun op s _ => ⟨rfl, trivial⟩
  have hrun := Pool.run_alone serviceWorld hworld
    (Run.nil : Run (Pool.Step serviceAnswers AuthState.Drifts) init [] init) trivial () _ rfl
  obtain ⟨labels, hacts, hstamped⟩ := Pool.run_stamped (AuthState.clock ∘ id) hrun
  -- storing the row is the last of the twenty calls
  let trace := (respond devService tenantRequest).trace serviceWorld devState
  obtain ⟨row, hlast, htenant⟩ : ∃ row : LogTask,
      trace.drop 19 = [⟨.serve (.persist row), ()⟩] ∧ row.tenantId = "acme" := ⟨_, rfl, rfl⟩
  have htrace : trace = trace.take 19 ++ [⟨.serve (.persist row), ()⟩] := by
    rw [← hlast, List.take_append_drop]
  have hlength : trace.length = 20 := rfl
  have hcalls : labels.map Prod.snd = trace.map (.called ()) := hacts
  rw [htrace, List.map_append, List.map_singleton] at hcalls
  obtain ⟨before, following, rfl, hbefore, hfollowing⟩ := List.map_eq_append_iff.mp hcalls
  obtain ⟨⟨time, act⟩, after, rfl, rfl, -⟩ := List.map_eq_cons_iff.mp hfollowing
  obtain ⟨apiKey, auth, hkey, hvouched, hpermits⟩ := access_authorized devService
    (fun _ => tenantRequest) serviceAnswers_views init _ ⟨fun _ => rfl, fun _ => rfl⟩ hstamped rfl
  cases hkey
  refine ⟨before, auth, row, ?_, htenant, hvouched, hpermits⟩
  have hcount := congrArg List.length hbefore
  rw [List.length_map, List.length_map, List.length_take, hlength] at hcount
  exact hcount

end InferenceControlPlane.Gateway
