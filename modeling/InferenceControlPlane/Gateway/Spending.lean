import InferenceControlPlane.Gateway.CacheSoundness
import InferenceControlPlane.Gateway.Pricing
import InferenceControlPlane.Gateway.Reports
import InferenceControlPlane.Interleaving
import InferenceControlPlane.Tallies

/-!
# The logged cost and the spend

A completion is charged twice over: on the spend counter and in its row. An answer from
the cache makes no provider call, but its row has the cost of the entry again. The counter
adds the costs as they are, a row holds what its column makes of them. The two ledgers
agree exactly when no such entry has a cost and the column's rounding cancels out.
-/
namespace InferenceControlPlane.Gateway
open Python Program

/-! ## The two ledgers -/

/-- What a call adds to `MODEL_COST_USD_TOTAL`, over the models of `p`: the ledger that rows are
compared with. -/
def Op.spent (p : String → Bool) : Op → PyFloat
  | record (.cost model usd) => if p model then usd else 0
  | _ => 0

/-- What a run adds to the counter, over the models of `p`. -/
def spent (p : String → Bool) (events : List (Event Op Op.Reply)) : PyFloat :=
  (events.map fun e => e.op.spent p).sum

/-- The entries with which the cache answered: each is an answer that was paid for before, and is
not paid for again. -/
def entriesRead [Runtime] (events : List (Event Op Op.Reply)) : List CachedResponse :=
  events.filterMap fun
    | ⟨.get _, reply⟩ => cachedOf reply
    | _ => none

/-- The column `cost`, of type `Numeric(12, 6)`: what it holds of a cost. Whole numbers
of millionths are held as they are. -/
structure CostColumn where
  holds : PyFloat → ℚ
  holds_millionths : ∀ n : ℕ, n < 10 ^ 12 → holds (.finite (n / 10 ^ 6)) = n / 10 ^ 6

/-- The stored row of a log: its fields as they are, the cost as the column holds it, and an id
and a time that the database supplies. -/
structure Stored (column : CostColumn) (log : LogTask) (row : RequestLog) : Prop where
  tenantId : row.tenantId = log.tenantId
  userId : row.userId = log.userId
  modelUsed : row.modelUsed = log.modelUsed
  latencyMs : row.latencyMs = log.latencyMs
  tokens : row.tokens = log.tokens
  cost : row.cost = column.holds log.cost
  cacheHit : row.cacheHit = log.cacheHit
  status : row.status = log.status.text
  errorMessage : row.errorMessage = log.errorMessage

/-- The cost of the rows of `q`, added up as the column holds them. -/
def costWhere (q : RequestLog → Bool) (table : List RequestLog) : ℚ :=
  ((table.filter q).map RequestLog.cost).sum

/-- The cost of the successful rows is the spend, for each model and overall, and rows of
cache hits cost nothing. -/
structure Reconciled (table : List RequestLog) (events : List (Event Op Op.Reply)) : Prop where
  perModel : ∀ model, .finite (costWhere (fun row => row.status = "success" ∧
    row.modelUsed = model) table) = spent (· = model) events
  overall : .finite (costWhere (·.status = "success") table) = spent (fun _ => true) events
  hits : ∀ row ∈ table, row.cacheHit = true → row.cost = 0

/-! ## What the ledgers depend on -/

/-- What a completion of so many tokens costs, as `record_cost` and the row take it. -/
def Settings.charge (settings : Settings) (model : String) (tokens : ℤ) : PyFloat :=
  (estimateCost model tokens settings).max (.finite 0)

/-- The column rounds the costs of completions of these numbers of tokens, but the roundings
cancel: what it holds of the costs adds up to the costs. It holds for costs that are whole
numbers of millionths, and for any others whose errors happen to add up to nothing. -/
def RoundsOff (column : CostColumn) (settings : Settings) (model : String) (tokens : List ℤ) :
    Prop :=
  .finite (tokens.map fun n => column.holds (settings.charge model n)).sum =
    (tokens.map (settings.charge model)).sum

/-! ## One request -/

lemma spent_append (p : String → Bool) (before events : List (Event Op Op.Reply)) :
    spent p (before ++ events) = spent p before + spent p events := by
  simp [spent]

section
variable [Runtime]

lemma entriesRead_append (before events : List (Event Op Op.Reply)) :
    entriesRead (before ++ events) = entriesRead before ++ entriesRead events :=
  List.filterMap_append

lemma entriesRead_subset {events events' : List (Event Op Op.Reply)} (h : events ⊆ events') :
    entriesRead events ⊆ entriesRead events' := List.filterMap_subset _ h

omit [Runtime] in
lemma rows_subset {events events' : List (Event Op Op.Reply)} (h : events ⊆ events') :
    rows events ⊆ rows events' := List.filterMap_subset _ h

/-- Calls that add nothing to the counter and read no entry. -/
structure Unbilled (events : List (Event Op Op.Reply)) : Prop where
  spent : ∀ p, spent p events = 0
  read : entriesRead events = []

lemma unbilled_nil : Unbilled [] := ⟨fun _ => rfl, rfl⟩

lemma unbilled_of_stage {events : List (Event Op Op.Reply)} {stage : Stage}
    (h : ∀ e ∈ events, e.op.stage = stage) (hmetric : stage ≠ .metric) (hlookup : stage ≠ .lookup) :
    Unbilled events := by
  constructor
  · intro p
    apply List.sum_eq_zero
    intro usd husd
    obtain ⟨⟨op, reply⟩, he, rfl⟩ := List.mem_map.mp husd
    have hop := h _ he
    cases op with
    | record m =>
      cases m with
      | cost model usd => exact absurd hop.symm hmetric
      | _ => rfl
    | _ => rfl
  · refine filterMap_of_stage (fun e he => ?_) h hlookup
    obtain ⟨op, reply⟩ := e
    cases op with
    | get key => rfl
    | _ => exact absurd rfl he

/-- What a request's calls come to: no log, a hit that logs the cost of its entry, or a
miss that logs its spend. -/
inductive Billed (settings : Settings) : List LogTask → List (Event Op Op.Reply) → Prop
  | nothing {events : List (Event Op Op.Reply)} (h : Unbilled events) : Billed settings [] events
  | hit {events : List (Event Op Op.Reply)} {log : LogTask} {entry : CachedResponse}
      (hhit : log.cacheHit = true) (hstatus : log.status = .success)
      (hspent : ∀ p, spent p events = 0) (hread : entriesRead events = [entry])
      (hcost : log.cost = entry.cost) : Billed settings [log] events
  | miss {events : List (Event Op Op.Reply)} {log : LogTask}
      (hmiss : log.cacheHit = false) (hstatus : log.status = .success)
      (hspent : ∀ p, spent p events = if p log.modelUsed then log.cost.max (.finite 0) else 0)
      (hread : entriesRead events = [])
      (hcost : log.cost = estimateCost log.modelUsed log.tokens settings) :
      Billed settings [log] events

lemma Billed.append {settings : Settings} {logs : List LogTask}
    {before events after : List (Event Op Op.Reply)} (hbefore : Unbilled before)
    (h : Billed settings logs events) (hafter : Unbilled after) :
    Billed settings logs (before ++ (events ++ after)) := by
  have hspent : ∀ p, spent p (before ++ (events ++ after)) = spent p events := by
    intro p
    rw [spent_append, spent_append, hbefore.spent, hafter.spent, zero_add, add_zero]
  have hread : entriesRead (before ++ (events ++ after)) = entriesRead events := by
    rw [entriesRead_append, entriesRead_append, hbefore.read, hafter.read, List.nil_append,
      List.append_nil]
  cases h with
  | nothing h => exact .nothing ⟨fun p => (hspent p).trans (h.spent p), hread.trans h.read⟩
  | hit hhit hstatus hnone hentry hcost =>
    exact .hit hhit hstatus (fun p => (hspent p).trans (hnone p)) (hread.trans hentry) hcost
  | miss hmiss hstatus hsome hnone hcost =>
    exact .miss hmiss hstatus (fun p => (hspent p).trans (hsome p)) (hread.trans hnone) hcost

lemma Billed.prepend {settings : Settings} {logs : List LogTask}
    {before events : List (Event Op Op.Reply)} (hbefore : Unbilled before)
    (h : Billed settings logs events) : Billed settings logs (before ++ events) := by
  have happend := h.append hbefore unbilled_nil
  rwa [List.append_nil] at happend

variable [Digests]

/-- The logs of a request that was answered; those of one that raised are dropped. -/
def logsOf {ε : Type} : Except ε (GenerateResponse × List Task) → List LogTask
  | .ok (_, tasks) => tasks.filterMap Task.log
  | .error _ => []

lemma getCachedResponse_ensures (hasRedis : Bool) (prompt model : String) :
    (getCachedResponse hasRedis prompt model).Ensures fun events cached =>
      (∀ p, spent p events = 0) ∧ entriesRead events = cached.toList := by
  cases hasRedis with
  | false => exact ⟨fun _ => rfl, rfl⟩
  | true =>
    intro reply
    refine ⟨fun p => ?_, ?_⟩
    · simp [spent, Op.spent]
    · cases h : cachedOf reply <;> simp [entriesRead, h]

omit [Digests] in
/-- A hit makes no spend and logs the cost of the entry. -/
lemma respondCached_billed (settings : Settings) (payload : GenerateRequest) (auth : AuthContext)
    (started : ℚ) (requestId : String) (cached : CachedResponse) :
    (respondCached payload auth started requestId cached).Ensures fun events answer =>
      ∀ looking, (∀ p, spent p looking = 0) → entriesRead looking = [cached] →
        Billed settings (answer.2.filterMap Task.log) (looking ++ events) := by
  intro finished now _ _ looking hfree hread
  apply Billed.hit rfl rfl
  · intro p
    rw [spent_append, hfree, zero_add]
    simp [spent, Op.spent]
  · rw [entriesRead_append, hread]
    rfl
  · rfl

omit [Digests] in
/-- A completion logs its spend. -/
lemma respondGenerated_billed (settings : Settings) (payload : GenerateRequest)
    (auth : AuthContext) (started : ℚ) (requestId modelUsed text : String) :
    (respondGenerated settings payload auth started requestId modelUsed text).Ensures
      fun events answer => Billed settings (answer.2.filterMap Task.log) events := by
  intro finished now _ _ _
  refine .miss rfl rfl (fun p => ?_) rfl rfl
  simp [spent, Op.spent]

lemma serve_billed (hasRedis : Bool) (settings : Settings) (payload : GenerateRequest)
    (auth : AuthContext) (started : ℚ) (requestId : String) :
    (serve hasRedis settings payload auth started requestId).Ensures fun events result =>
      Billed settings (logsOf result) events := by
  have hmissed : Unbilled [⟨.record (.cacheResult false), ()⟩] := ⟨by simp [spent, Op.spent], rfl⟩
  have hadmitted : ∀ {admitting result}, Admission result admitting → Unbilled admitting :=
    fun h => unbilled_of_stage h.stage (by decide) (by decide)
  refine serve_rule (enforceRateLimits_ensures _ _ _ _) (getCachedResponse_ensures _ _ _)
    (completeFor_always _ _).ensures ?_ ?_ ?_ ?_
  · exact fun admitting e hadmission => .nothing (hadmitted hadmission)
  · rintro admitting looking cached hadmission ⟨hfree, hread⟩
    refine (respondCached_billed settings _ _ _ _ _).mono fun rest answer hanswer => ?_
    exact (hanswer looking hfree hread).prepend (hadmitted hadmission)
  · rintro admitting looking completing e hadmission ⟨hfree, hread⟩ hcompletion
    have hlooked : Unbilled looking := ⟨hfree, hread⟩
    have hcompleted := unbilled_of_stage hcompletion (by decide) (by decide)
    have hnothing : Billed settings [] completing := .nothing hcompleted
    have hbilled := (hnothing.prepend hmissed).prepend hlooked
    exact hbilled.prepend (hadmitted hadmission)
  · rintro admitting looking completing modelUsed text hadmission ⟨hfree, hread⟩ hcompletion
    have hlooked : Unbilled looking := ⟨hfree, hread⟩
    have hcompleted := unbilled_of_stage hcompletion (by decide) (by decide)
    refine (respondGenerated_billed _ _ _ _ _ _ _).mono fun rest answer hanswer => ?_
    have hbilled := ((hanswer.prepend hcompleted).prepend hmissed).prepend hlooked
    exact hbilled.prepend (hadmitted hadmission)

omit [Digests] in
lemma accountFailure_unbilled [Digests] (settings : Settings) (payload : GenerateRequest)
    (auth : AuthContext) (started : ℚ) (errorMessage : String) :
    (accountFailure settings payload auth started errorMessage).Ensures fun events _ =>
      Unbilled events := by
  intro finished _
  exact ⟨by simp [spent, Op.spent], rfl⟩

/-- The logs whose tasks are run, and so the rows that the database is handed. -/
def logsRun (handled : Except HttpException GenerateResponse × List Task) : List LogTask :=
  match handled.1 with
  | .ok _ => handled.2.filterMap Task.log
  | .error _ => []

lemma handleGenerateRequest_billed (hasRedis : Bool) (settings : Settings)
    (payload : GenerateRequest) (auth : AuthContext) :
    (handleGenerateRequest hasRedis settings payload auth).Ensures fun events handled =>
      Billed settings (logsRun handled) events := by
  have hentered : ∀ started requestId,
      Unbilled [⟨.perfCounter, started⟩, ⟨.requestId, requestId⟩] :=
    fun _ _ => ⟨by simp [spent, Op.spent], rfl⟩
  refine handleGenerateRequest_rule (serve_billed _ _ _ _) ?_ ?_
  · exact fun started requestId _ _ _ hserved => hserved.prepend (hentered started requestId)
  · intro started requestId serving raised hserved
    refine (accountFailure_unbilled _ _ _ _ _).mono fun accounting tasks hfailed => ?_
    exact hserved.append (hentered started requestId) hfailed

omit [Runtime] in
lemma runTasks_always (hasRedis : Bool) (tasks : List Task) :
    (runTasks hasRedis tasks).Always fun op => op.stage = .storage := by
  induction tasks with
  | nil => exact always_done _ _
  | cons task tasks ih =>
    refine Always.bind ?_ fun _ => ih
    cases task with
    | persistRequestLog log => exact always_stage rfl
    | setCachedResponse prompt model entry ttlSeconds =>
      cases hasRedis with
      | false => exact always_done _ _
      | true => exact (always_stage rfl).bind fun _ => always_done _ _

/-- A request ends with the rows of the logs that its calls come to. -/
theorem generate_billed (hasRedis : Bool) (settings : Settings) (payload : GenerateRequest)
    (auth : AuthContext) : (generate hasRedis settings payload auth).Ensures fun events _ =>
      ∃ logs, Billed settings logs events ∧ rows events = logs.map LogTask.row := by
  unfold generate
  have hhandled := (handleGenerateRequest_billed hasRedis settings payload auth).and
    (handleGenerateRequest_rows hasRedis settings payload auth)
  refine hhandled.bind fun handling handled h => ?_
  obtain ⟨hbilled, hnone⟩ := h
  obtain ⟨outcome, tasks⟩ := handled
  cases outcome with
  | error e =>
    refine ⟨[], ?_, ?_⟩
    · simpa [logsRun] using hbilled
    · simpa using hnone
  | ok response =>
    have hrun := (runTasks_rows hasRedis tasks).and (runTasks_always hasRedis tasks).ensures
    refine hrun.bind fun running _ hran => ?_
    obtain ⟨hrows, hstorage⟩ := hran
    have hfree := unbilled_of_stage hstorage (by decide) (by decide)
    refine ⟨tasks.filterMap Task.log, ?_, ?_⟩
    · have hall := hbilled.append unbilled_nil hfree
      simpa [logsRun] using hall
    · rw [rows_append, hnone, rows_append, hrows]
      simp [rows]

/-! ## Every history -/

section History
variable {ι σ : Type} [DecidableEq ι]

/-- A history of interleaved requests, whatever they share and however it answers: every
request that made a call has ended, and with it its background tasks. -/
structure History (hasRedis : Bool) (settings : Settings)
    (requests : ι → GenerateRequest × AuthContext)
    (answers : σ → (op : Op) → op.Reply → σ → Prop) (drift : σ → σ → Prop)
    (init pool : Pool ι Op Op.Reply (Except HttpException GenerateResponse) σ)
    (acts : List (Act ι Op Op.Reply)) : Prop where
  start : ∀ i, init.members i = generate hasRedis settings (requests i).1 (requests i).2
  run : Run (Pool.Step answers drift) init acts pool
  ended : ∀ i event, .called i event ∈ acts → ∃ outcome, pool.members i = .done outcome

variable {hasRedis : Bool} {settings : Settings} {requests : ι → GenerateRequest × AuthContext}
  {answers : σ → (op : Op) → op.Reply → σ → Prop} {drift : σ → σ → Prop}
  {init pool : Pool ι Op Op.Reply (Except HttpException GenerateResponse) σ}
  {acts : List (Act ι Op Op.Reply)}

lemma History.billed (h : History hasRedis settings requests answers drift init pool acts) {i : ι}
    {event : Event Op Op.Reply} (hact : .called i event ∈ acts) :
    ∃ logs, Billed settings logs (Pool.callsOf i acts) ∧
      rows (Pool.callsOf i acts) = logs.map LogTask.row := by
  obtain ⟨outcome, hdone⟩ := h.ended i event hact
  have hreach := Pool.reaches h.run i
  rw [h.start i, hdone] at hreach
  exact (generate_billed hasRedis settings (requests i).1 (requests i).2).of_done hreach

omit [Runtime] [Digests] in
lemma sum_rows (v : LogTask → PyFloat) (events : List (Event Op Op.Reply)) :
    ((rows events).map v).sum = (events.map fun e => (e.op.row.map v).getD 0).sum := by
  induction events with
  | nil => rfl
  | cons e events ih =>
    rw [rows, List.filterMap_cons, List.map_cons, List.sum_cons, ← ih]
    cases e.op.row with
    | none => exact (zero_add _).symm
    | some log => rfl

/-- The spend is the cost of the logged misses. -/
theorem History.spent_eq (h : History hasRedis settings requests answers drift init pool acts)
    (p : String → Bool) : spent p (Pool.calls acts) =
      tally (fun log => !log.cacheHit && p log.modelUsed) LogTask.cost
        (rows (Pool.calls acts)) := by
  rw [← sum_ite_eq_tally, sum_rows, spent]
  apply Pool.sum_calls_eq
  intro i event hact
  rw [← sum_rows]
  obtain ⟨logs, hbilled, hrows⟩ := h.billed hact
  rw [hrows]
  cases hbilled with
  | nothing hnone => exact hnone.spent p
  | hit hhit hstatus hnone hread hcost =>
    rw [← spent, hnone]
    simp [LogTask.row, hhit]
  | miss hmiss hstatus hsome hread hcost =>
    rw [← spent, hsome]
    simp [LogTask.row, hmiss]

omit [Runtime] [Digests] in
/-- The row of a completion costs what its model and its tokens cost. -/
lemma cost_row {log : LogTask} (h : log.cost = estimateCost log.modelUsed log.tokens settings) :
    log.row.cost = settings.charge log.row.modelUsed log.row.tokens := by
  simp [LogTask.row, Settings.charge, h, estimateCost]

/-- What the row of a request says: a success, at the cost of the entry that answered it or at
the cost of its completion. -/
structure Billing (settings : Settings) (entries : List CachedResponse) (log : LogTask) :
    Prop where
  status : log.status = .success
  hit : log.cacheHit = true → ∃ entry ∈ entries, log.cost = entry.cost.max (.finite 0)
  miss : log.cacheHit = false → log.cost = settings.charge log.modelUsed log.tokens

/-- Every row of a history is billed. -/
theorem History.billing (h : History hasRedis settings requests answers drift init pool acts) :
    ∀ log ∈ rows (Pool.calls acts), Billing settings (entriesRead (Pool.calls acts)) log := by
  intro log hlog
  obtain ⟨event, hevent, hrow⟩ := List.mem_filterMap.mp hlog
  obtain ⟨i, hact, hown⟩ := Pool.mem_calls hevent
  obtain ⟨logs, hbilled, hrows⟩ := h.billed hact
  have hmem : log ∈ logs.map LogTask.row := hrows ▸ List.mem_filterMap.mpr ⟨event, hown, hrow⟩
  cases hbilled with
  | nothing hnone => cases hmem
  | @hit _ queued entry hhit hstatus hnone hread hcost =>
    obtain rfl := List.mem_singleton.mp hmem
    have hentry : entry ∈ entriesRead (Pool.calls acts) := by
      apply entriesRead_subset (Pool.callsOf_subset i acts)
      rw [hread]
      exact List.mem_singleton_self entry
    refine ⟨hstatus, fun _ => ⟨entry, hentry, ?_⟩, fun hmiss => ?_⟩
    · rw [← hcost]
      rfl
    · rw [LogTask.row, hhit] at hmiss
      cases hmiss
  | @miss _ queued hmiss hstatus hsome hread hcost =>
    obtain rfl := List.mem_singleton.mp hmem
    refine ⟨hstatus, fun hhit => ?_, fun _ => cost_row hcost⟩
    rw [LogTask.row, hmiss] at hhit
    cases hhit

/-- Every entry that a history read has the row of a hit, at the cost of the entry. -/
theorem History.hit_row (h : History hasRedis settings requests answers drift init pool acts)
    {entry : CachedResponse} (hentry : entry ∈ entriesRead (Pool.calls acts)) :
    ∃ log ∈ rows (Pool.calls acts), log.cacheHit = true ∧
      log.cost = entry.cost.max (.finite 0) := by
  obtain ⟨event, hevent, hread⟩ := List.mem_filterMap.mp hentry
  obtain ⟨i, hact, hown⟩ := Pool.mem_calls hevent
  obtain ⟨logs, hbilled, hrows⟩ := h.billed hact
  have hmem : entry ∈ entriesRead (Pool.callsOf i acts) :=
    List.mem_filterMap.mpr ⟨event, hown, hread⟩
  have hlog : ∀ log ∈ logs, log.row ∈ rows (Pool.calls acts) := by
    intro log hlog
    apply rows_subset (Pool.callsOf_subset i acts)
    rw [hrows]
    exact List.mem_map_of_mem hlog
  cases hbilled with
  | nothing hnone =>
    rw [hnone.read] at hmem
    cases hmem
  | @hit _ log cached hhit hstatus hnone hread hcost =>
    rw [hread] at hmem
    obtain rfl := List.mem_singleton.mp hmem
    refine ⟨log.row, hlog log (List.mem_singleton_self log), hhit, ?_⟩
    rw [← hcost]
    rfl
  | miss hmiss hstatus hsome hread hcost =>
    rw [hread] at hmem
    cases hmem

/-! ## Agreement -/

/-- The column holds a cost for an answer from the cache: the rows then say more than was
spent. -/
def PaidHit (column : CostColumn) (acts : List (Act ι Op Op.Reply)) : Prop :=
  ∃ entry ∈ entriesRead (Pool.calls acts), column.holds (entry.cost.max (.finite 0)) ≠ 0

/-- The rows of one model that are no answers from the cache: its completions, which are what is
paid for. -/
def completes (model : String) (log : LogTask) : Bool := !log.cacheHit && log.modelUsed = model

/-- The numbers of tokens of the completions of a model. -/
def completedTokens (model : String) (events : List (Event Op Op.Reply)) : List ℤ :=
  ((rows events).filter (completes model)).map LogTask.tokens

/-- No hit was paid for exactly when the rows of all hits hold nothing. -/
lemma History.free_iff (h : History hasRedis settings requests answers drift init pool acts)
    (column : CostColumn) : ¬ PaidHit column acts ↔
      ∀ log ∈ rows (Pool.calls acts), log.cacheHit = true → column.holds log.cost = 0 := by
  constructor
  · intro hfree log hlog hhit
    obtain ⟨entry, hentry, hlogged⟩ := (h.billing log hlog).hit hhit
    by_contra hne
    exact hfree ⟨entry, hentry, hlogged ▸ hne⟩
  · intro hheld hpaid
    obtain ⟨entry, hentry, hne⟩ := hpaid
    obtain ⟨log, hlog, hhit, hlogged⟩ := h.hit_row hentry
    rw [← hlogged] at hne
    exact hne (hheld log hlog hhit)

omit [Runtime] [Digests] in
lemma finite_sum {α : Type} (f : α → ℚ) (xs : List α) :
    (xs.map fun x => PyFloat.finite (f x)).sum = .finite (xs.map f).sum := by
  induction xs with
  | nil => rfl
  | cons x xs ih => rw [List.map_cons, List.sum_cons, ih, List.map_cons, List.sum_cons,
      PyFloat.finite_add]

section Rows
variable {column : CostColumn} {table : List RequestLog} {entries : List CachedResponse}
  {events : List (Event Op Op.Reply)}

omit [Runtime] [Digests] in
/-- Successful rows cost what the column holds of their logs. -/
lemma costWhere_stored (htable : List.Forall₂ (Stored column) (rows events) table)
    (hbilled : ∀ log ∈ rows events, Billing settings entries log) {q : RequestLog → Bool}
    {p : String → Bool} (hq : ∀ row, row.status = "success" → q row = p row.modelUsed) :
    costWhere q table =
      tally (fun log => p log.modelUsed) (fun log => column.holds log.cost) (rows events) := by
  refine (tally_forall₂ htable fun log hlog row hrow => ⟨?_, hrow.cost.symm⟩).symm
  have hstatus : row.status = "success" := by
    rw [hrow.status, (hbilled log hlog).status]
    rfl
  rw [hq row hstatus, hrow.modelUsed]

omit [Runtime] [Digests] in
/-- Once hits cost nothing, the successful rows cost what the column holds of completions. -/
lemma costWhere_completions (htable : List.Forall₂ (Stored column) (rows events) table)
    (hbilled : ∀ log ∈ rows events, Billing settings entries log)
    (hfree : ∀ log ∈ rows events, log.cacheHit = true → column.holds log.cost = 0)
    {q : RequestLog → Bool} (p : String → Bool)
    (hq : ∀ row, row.status = "success" → q row = p row.modelUsed) :
    costWhere q table = tally (fun log => !log.cacheHit && p log.modelUsed)
      (fun log => column.holds log.cost) (rows events) := by
  rw [costWhere_stored htable hbilled hq, tally_drop hfree]
  exact tally_congr (fun log _ => Bool.and_comm _ _) fun _ _ _ => rfl

omit [Runtime] [Digests] in
/-- The roundings of a model cancel when its completions cost what the column holds. -/
lemma roundsOff_iff (hbilled : ∀ log ∈ rows events, Billing settings entries log)
    (model : String) : RoundsOff column settings model (completedTokens model events) ↔
      .finite (tally (completes model) (fun log => column.holds log.cost) (rows events)) =
        tally (completes model) LogTask.cost (rows events) := by
  have hcost : ∀ log ∈ (rows events).filter (completes model),
      settings.charge model log.tokens = log.cost := by
    intro log hlog
    obtain ⟨hmem, hcompletes⟩ := List.mem_filter.mp hlog
    obtain ⟨hmiss, hmodel⟩ := Bool.and_eq_true_iff.mp hcompletes
    rw [(hbilled log hmem).miss ((Bool.not_eq_true' _).mp hmiss), of_decide_eq_true hmodel]
  have hheld : ((rows events).filter (completes model)).map
      (fun log => column.holds (settings.charge model log.tokens)) =
        ((rows events).filter (completes model)).map fun log => column.holds log.cost :=
    List.map_congr_left fun log hlog => by rw [hcost log hlog]
  have hcharged : ((rows events).filter (completes model)).map
      (fun log => settings.charge model log.tokens) =
        ((rows events).filter (completes model)).map LogTask.cost :=
    List.map_congr_left hcost
  rw [RoundsOff, completedTokens, List.map_map, List.map_map]
  exact (congrArg₂ (fun a b => PyFloat.finite (List.sum a) = List.sum b) hheld hcharged).to_iff

omit [Runtime] [Digests] in
/-- Completions whose roundings cancel for every model cost together what the column holds. -/
lemma rounds_overall
    (h : ∀ model, .finite (tally (completes model) (fun log => column.holds log.cost)
      (rows events)) = tally (completes model) LogTask.cost (rows events)) :
    .finite (tally (fun log => !log.cacheHit) (fun log => column.holds log.cost) (rows events)) =
      tally (fun log => !log.cacheHit) LogTask.cost (rows events) := by
  have hclass : ∀ (v : LogTask → PyFloat) model, tally (fun log => log.modelUsed = model) v
      ((rows events).filter fun log => !log.cacheHit) =
        tally (completes model) v (rows events) := by
    intro v model
    rw [tally, tally, List.filter_filter]
    congr 3
    funext log
    exact Bool.and_comm _ _
  have hmodels : ∀ model, tally (fun log => log.modelUsed = model)
      (fun log => PyFloat.finite (column.holds log.cost))
        ((rows events).filter fun log => !log.cacheHit) =
      tally (fun log => log.modelUsed = model) LogTask.cost
        ((rows events).filter fun log => !log.cacheHit) := by
    intro model
    rw [hclass, hclass, ← h model]
    exact finite_sum _ _
  have hsum := sum_eq_of_classes LogTask.modelUsed hmodels
  rw [finite_sum] at hsum
  exact hsum

end Rows

omit [Runtime] [Digests] in
/-- Costs that are whole numbers of millionths are not rounded at all. -/
lemma roundsOff_of_millionths {column : CostColumn} {model : String} {tokens : List ℤ}
    (h : ∀ n ∈ tokens, ∃ k : ℕ, k < 10 ^ 12 ∧ settings.charge model n = .finite (k / 10 ^ 6)) :
    RoundsOff column settings model tokens := by
  rw [RoundsOff, ← finite_sum]
  congr 1
  apply List.map_congr_left
  intro n hn
  obtain ⟨k, hk, hcharge⟩ := h n hn
  rw [hcharge, column.holds_millionths k hk]

/-- The logged cost is the spend exactly when no answer from the cache was paid for and, for
each model, the column's rounding of the costs of its completions cancels out. Nothing is
asked of the requests, of Redis, of the provider, or of how the column rounds. -/
theorem reconciled_iff (column : CostColumn) (table : List RequestLog)
    (h : History hasRedis settings requests answers drift init pool acts)
    (htable : List.Forall₂ (Stored column) (rows (Pool.calls acts)) table) :
    Reconciled table (Pool.calls acts) ↔ ¬ PaidHit column acts ∧
      ∀ model, RoundsOff column settings model (completedTokens model (Pool.calls acts)) := by
  have hbilled := h.billing
  have hmodel : ∀ (model : String) (row : RequestLog), row.status = "success" →
      decide (row.status = "success" ∧ row.modelUsed = model) = decide (row.modelUsed = model) :=
    fun model row hrow => by simp [hrow]
  rw [h.free_iff]
  constructor
  · intro hreconciled
    have hfree : ∀ log ∈ rows (Pool.calls acts), log.cacheHit = true →
        column.holds log.cost = 0 := by
      intro log hlog hhit
      obtain ⟨row, hrow, hstored⟩ := exists_of_forall₂ htable hlog
      rw [← hstored.cost]
      exact hreconciled.hits row hrow (hstored.cacheHit.trans hhit)
    refine ⟨hfree, fun model => (roundsOff_iff hbilled model).mpr ?_⟩
    have hper := hreconciled.perModel model
    rw [costWhere_completions htable hbilled hfree (fun name => decide (name = model))
      (hmodel model), h.spent_eq] at hper
    exact hper
  · intro hcondition
    obtain ⟨hfree, hrounds⟩ := hcondition
    have hmodels := fun model => (roundsOff_iff hbilled model).mp (hrounds model)
    refine ⟨fun model => ?_, ?_, ?_⟩
    · rw [costWhere_completions htable hbilled hfree (fun name => decide (name = model))
        (hmodel model), h.spent_eq]
      exact hmodels model
    · rw [costWhere_completions htable hbilled hfree (fun _ => true)
        fun row hrow => decide_eq_true hrow, h.spent_eq]
      simpa using rounds_overall hmodels
    · intro row hrow hhit
      obtain ⟨log, hlog, hstored⟩ := exists_of_forall₂ htable.flip hrow
      rw [hstored.cost]
      exact hfree log hlog (hstored.cacheHit ▸ hhit)

end History

/-! ## Two requests to a provider -/

/-- A Redis that never fails, and a provider that answers "hi". -/
def serving : World Op Op.Reply Store
  | .post request, s => ((answering (.post request) ()).1, s)
  | op, s => storeWorld op s

/-- The answers of one world. -/
def FollowsWorld {σ : Type} (w : World Op Op.Reply σ) (s : σ) (op : Op) (reply : op.Reply)
    (s' : σ) : Prop := (reply, s') = w op s

/-- Two requests of the live settings before they start, on an empty store. -/
def twoLive (requests : Bool → GenerateRequest × AuthContext) :
    Pool Bool Op Op.Reply (Except HttpException GenerateResponse) Store :=
  ⟨fun _ => none, fun i => generate true .live (requests i).1 (requests i).2⟩

/-- The calls of the first request, then those of the second. -/
def servedInTurn (requests : Bool → GenerateRequest × AuthContext) :
    List (Act Bool Op Op.Reply) :=
  let first := generate true .live (requests false).1 (requests false).2
  let second := generate true .live (requests true).1 (requests true).2
  (first.trace serving fun _ => none).map (.called false) ++
    (second.trace serving (first.final serving fun _ => none)).map (.called true)

lemma history_servedInTurn (requests : Bool → GenerateRequest × AuthContext) :
    ∃ pool, History true .live requests (FollowsWorld serving) (fun _ _ => False)
      (twoLive requests) pool (servedInTurn requests) := by
  have hworld : ∀ op s, True → FollowsWorld serving s op (serving op s).1 (serving op s).2 ∧ True :=
    fun op s _ => ⟨rfl, trivial⟩
  have hfirst := Pool.run_alone serving hworld
    (Run.nil : Run (Pool.Step (FollowsWorld serving) fun _ _ => False) (twoLive requests) [] _)
    trivial false _ rfl
  have hsecond := Pool.run_alone serving hworld hfirst trivial true
    (generate true .live (requests true).1 (requests true).2) (by simp [twoLive])
  refine ⟨_, ⟨fun _ => rfl, hsecond, fun i _ _ => ?_⟩⟩
  cases i with
  | false => exact ⟨_, rfl⟩
  | true => exact ⟨_, rfl⟩

end

/-- Two users in two tenants ask the same question. The second answer comes from the cache and
costs nothing, but its row is logged at the price of the first, so that the rows add up to twice
what was spent. -/
theorem hit_logged_at_cost :
    letI := Runtime.ascii
    letI := Digests.listed helloDigest
    let events := Pool.calls (servedInTurn sharedRequests)
    (∃ pool, History true .live sharedRequests (FollowsWorld serving) (fun _ _ => False)
      (twoLive sharedRequests) pool (servedInTurn sharedRequests)) ∧
      (∀ log ∈ rows events, log.cost = .finite (20 / 10 ^ 6)) ∧
      ∀ column table, List.Forall₂ (Stored column) (rows events) table →
        ¬ Reconciled table events := by
  let ascii := Runtime.ascii
  let digests := Digests.listed helloDigest
  have hlogs : (rows (Pool.calls (servedInTurn sharedRequests))).map
      (fun log => (log.cost, log.status)) =
        [(.finite (20 / 10 ^ 6), .success), (.finite (20 / 10 ^ 6), .success)] := by
    decide +kernel
  have hspent : spent (fun _ => true) (Pool.calls (servedInTurn sharedRequests)) =
      .finite (20 / 10 ^ 6) := by
    decide +kernel
  obtain ⟨first, rest, hrows, hfirst, hrest⟩ := List.map_eq_cons_iff.mp hlogs
  obtain ⟨second, _, rfl, hsecond, hnil⟩ := List.map_eq_cons_iff.mp hrest
  obtain rfl := List.map_eq_nil_iff.mp hnil
  refine ⟨history_servedInTurn sharedRequests, fun log hlog => ?_, fun column table htable h => ?_⟩
  · rw [hrows] at hlog
    rcases List.mem_pair.mp hlog with rfl | rfl
    · exact congrArg Prod.fst hfirst
    · exact congrArg Prod.fst hsecond
  · rw [hrows] at htable
    obtain ⟨row, _, hrow, htail, rfl⟩ := List.forall₂_cons_left_iff.mp htable
    obtain ⟨again, _, hagain, hnone, rfl⟩ := List.forall₂_cons_left_iff.mp htail
    obtain rfl := List.forall₂_nil_left_iff.mp hnone
    have hheld : column.holds (.finite (20 / 10 ^ 6)) = 20 / 10 ^ 6 :=
      column.holds_millionths 20 (by decide)
    have hstored : ∀ {log : LogTask} {row : RequestLog}, Stored column log row →
        (log.cost, log.status) = (.finite (20 / 10 ^ 6), .success) →
          row.cost = 20 / 10 ^ 6 ∧ row.status = "success" := by
      intro log row hrow hlog
      obtain ⟨hcost, hstatus⟩ := Prod.mk.inj hlog
      rw [hrow.cost, hrow.status, hcost, hstatus]
      exact ⟨hheld, rfl⟩
    have hoverall := h.overall
    rw [hspent, PyFloat.finite.injEq] at hoverall
    obtain ⟨hcost, hstatus⟩ := hstored hrow hfirst
    obtain ⟨hcost', hstatus'⟩ := hstored hagain hsecond
    norm_num [costWhere, hcost, hstatus, hcost', hstatus'] at hoverall

lemma floor_millionths (n : ℕ) : ((⌊(n / 10 ^ 6 : ℚ) * 10 ^ 6 + 1 / 2⌋ : ℤ) : ℚ) / 10 ^ 6 =
    n / 10 ^ 6 := by
  have hfloor : ⌊(n / 10 ^ 6 : ℚ) * 10 ^ 6 + 1 / 2⌋ = n := by
    rw [div_mul_cancel₀ _ (by norm_num), Int.floor_eq_iff]
    push_cast
    constructor <;> linarith
  rw [hfloor, Int.cast_natCast]

/-- A column that rounds to millionths. -/
def CostColumn.rounding : CostColumn where
  holds
    | .finite q => ⌊q * 10 ^ 6 + 1 / 2⌋ / 10 ^ 6
    | _ => 0
  holds_millionths n _ := floor_millionths n

/-- The row of a log, stored at the start of the calendar. -/
def CostColumn.row (column : CostColumn) (log : LogTask) : RequestLog where
  id := "r1"
  tenantId := log.tenantId
  userId := log.userId
  modelUsed := log.modelUsed
  latencyMs := log.latencyMs
  tokens := log.tokens
  cost := column.holds log.cost
  cacheHit := log.cacheHit
  status := log.status.text
  errorMessage := log.errorMessage
  createdAt := ⟨0, 0, Int.le_refl 0, maxWall_pos, neg_dayMicros_lt_zero, dayMicros_pos⟩

lemma CostColumn.stored_row (column : CostColumn) (log : LogTask) :
    Stored column log (column.row log) :=
  ⟨rfl, rfl, rfl, rfl, rfl, rfl, rfl, rfl, rfl⟩

lemma world_length : 1 ≤ "world".length ∧ "world".length ≤ 20000 := by decide

lemma worldUser_length : 1 ≤ "v".length ∧ "v".length ≤ 128 := by decide

/-- Two questions, of one user each. -/
def distinctRequests : Bool → GenerateRequest × AuthContext
  | false => sharedRequests false
  | true => (.plain "world" "v" world_length worldUser_length, ⟨"globex", "key-2", 120, "user"⟩)

/-- The digests of the texts that are hashed for "hello" and for "world". -/
def greetingDigests : List (String × String) :=
  ("default:cheap:world", "3629a32d46a589a15727f9de84f86b8d060ae675408bba1f13d7d2e9572cf219") ::
    helloDigest

theorem reconciled_iff_sample :
    letI := Runtime.ascii
    letI := Digests.listed greetingDigests
    let events := Pool.calls (servedInTurn distinctRequests)
    rows events ≠ [] ∧ Reconciled ((rows events).map CostColumn.rounding.row) events := by
  let ascii := Runtime.ascii
  let digests := Digests.listed greetingDigests
  have hlogs : (rows (Pool.calls (servedInTurn distinctRequests))).map
      (fun log => (log.modelUsed, log.tokens)) =
        [(Settings.live.openrouterCheapModel, 2), (Settings.live.openrouterCheapModel, 2)] := by
    decide +kernel
  have hread : entriesRead (Pool.calls (servedInTurn distinctRequests)) = [] := by
    decide +kernel
  have hcharge : Settings.live.charge Settings.live.openrouterCheapModel 2 =
      .finite ((20 : ℕ) / 10 ^ 6) := by
    decide +kernel
  have hrounds : ∀ model, RoundsOff .rounding .live model
      (completedTokens model (Pool.calls (servedInTurn distinctRequests))) := by
    intro model
    apply roundsOff_of_millionths
    intro n hn
    obtain ⟨log, hlog, rfl⟩ := List.mem_map.mp hn
    obtain ⟨hmem, hcompletes⟩ := List.mem_filter.mp hlog
    obtain rfl := of_decide_eq_true (Bool.and_eq_true_iff.mp hcompletes).2
    have hpair := List.mem_map_of_mem (f := fun log => (log.modelUsed, log.tokens)) hmem
    rw [hlogs, List.mem_pair, or_self] at hpair
    obtain ⟨hmodel, htokens⟩ := Prod.mk.inj hpair
    rw [hmodel, htokens]
    exact ⟨20, by decide, hcharge⟩
  have htable : List.Forall₂ (Stored .rounding) (rows (Pool.calls (servedInTurn distinctRequests)))
      ((rows (Pool.calls (servedInTurn distinctRequests))).map CostColumn.rounding.row) :=
    List.forall₂_map_right_iff.mpr (List.forall₂_same.mpr fun log _ => CostColumn.stored_row _ log)
  obtain ⟨pool, hhistory⟩ := history_servedInTurn distinctRequests
  refine ⟨fun hnone => ?_, (reconciled_iff .rounding _ hhistory htable).mpr ⟨?_, hrounds⟩⟩
  · rw [hnone] at hlogs
    cases hlogs
  · intro hpaid
    obtain ⟨entry, hentry, -⟩ := hpaid
    rw [hread] at hentry
    cases hentry

end InferenceControlPlane.Gateway
