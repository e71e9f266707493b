import InferenceControlPlane.Gateway.Spending
import InferenceControlPlane.Python.Grouping

/-!
# What the usage reports say

Reports are read from the rows that the background tasks of requests leave behind. The
summary of a user is thus what the user's requests returned, whatever order they ran in; of
requests that raised, no report knows.
-/
namespace InferenceControlPlane.Gateway
open Python Program

/-- The row of a request that is answered with the response: its tenant, its user, and the tokens
and costs that it was told. -/
def respondedRow [Runtime] (payload : GenerateRequest) (auth : AuthContext)
    (response : GenerateResponse) : LogTask :=
  LogTask.row ⟨auth.tenantId, payload.userId, auth.apiKeyHash, redactPii payload.prompt,
    response.response, response.modelUsed, response.latencyMs, response.tokens, response.cost,
    response.cached, .success, none⟩

/-- The rows of a request, by what it returns: one for an answer, and none for an exception. -/
def outcomeRows [Runtime] (payload : GenerateRequest) (auth : AuthContext) :
    Except HttpException GenerateResponse → List LogTask
  | .ok response => [respondedRow payload auth response]
  | .error _ => []

section
variable [Runtime] [Digests]

/-- An answer queues the log of its response, so that the row says what the caller was told. -/
def QueuesLog (payload : GenerateRequest) (auth : AuthContext) (response : GenerateResponse)
    (tasks : List Task) : Prop :=
  (tasks.filterMap Task.log).map LogTask.row = [respondedRow payload auth response]

lemma serve_queues (hasRedis : Bool) (settings : Settings) (payload : GenerateRequest)
    (auth : AuthContext) (started : ℚ) (requestId : String) :
    (serve hasRedis settings payload auth started requestId).Ensures
      fun _ result => ∀ answer, result = .ok answer → QueuesLog payload auth answer.1 answer.2 := by
  refine serve_rule (enforceRateLimits_ensures _ _ _ _) (getCachedResponse_always _ _ _).ensures
    (completeFor_always _ _).ensures ?_ ?_ ?_ ?_
  · intro admitting e _ answer h
    cases h
  · intro admitting looking cached _ _ finished now _ _ answer h
    cases h
    rfl
  · intro admitting looking completing e _ _ _ answer h
    cases h
  · intro admitting looking completing modelUsed text _ _ _ finished now _ _ _ answer h
    cases h
    rfl

lemma handleGenerateRequest_queues (hasRedis : Bool) (settings : Settings)
    (payload : GenerateRequest) (auth : AuthContext) :
    (handleGenerateRequest hasRedis settings payload auth).Ensures fun _ handled =>
      ∀ response, handled.1 = .ok response → QueuesLog payload auth response handled.2 := by
  refine handleGenerateRequest_rule (serve_queues _ _ _ _) ?_ ?_
  · intro started requestId serving response tasks hserved response' h
    cases h
    exact hserved _ rfl
  · intro started requestId serving raised _
    refine (accountFailure_ensures _ _ _ _ _).mono fun accounting tasks _ response h => ?_
    cases h

/-- A request leaves the row of its response, or none. -/
theorem generate_rows (hasRedis : Bool) (settings : Settings) (payload : GenerateRequest)
    (auth : AuthContext) : (generate hasRedis settings payload auth).Ensures
      fun events outcome => rows events = outcomeRows payload auth outcome := by
  unfold generate
  have hhandled := (handleGenerateRequest_queues hasRedis settings payload auth).and
    (handleGenerateRequest_rows hasRedis settings payload auth)
  refine hhandled.bind fun handling handled h => ?_
  obtain ⟨hqueued, hnone⟩ := h
  obtain ⟨outcome, tasks⟩ := handled
  cases outcome with
  | error e =>
    show rows (handling ++ []) = []
    rw [List.append_nil]
    exact hnone
  | ok response =>
    refine (runTasks_rows hasRedis tasks).bind fun running _ hrows => ?_
    show rows (handling ++ (running ++ [])) = _
    rw [rows_append, hnone, List.append_nil, hrows, List.nil_append]
    exact hqueued response rfl

end

/-! ## Sums over rows -/

lemma sum_rows_eq {M : Type} [AddCommMonoid M] (v : LogTask → M)
    (events : List (Event Op Op.Reply)) :
    ((rows events).map v).sum = (events.map fun e => e.op.row.elim 0 v).sum := by
  induction events with
  | nil => rfl
  | cons e events ih =>
    rw [rows, List.filterMap_cons, List.map_cons, List.sum_cons, ← ih]
    cases e.op.row with
    | none => exact (zero_add _).symm
    | some log => rfl

lemma sum_stored {M : Type} [AddCommMonoid M] {column : CostColumn} {logs : List LogTask}
    {table : List RequestLog} (htable : List.Forall₂ (Stored column) logs table)
    {f : RequestLog → M} {v : LogTask → M}
    (h : ∀ log row, Stored column log row → f row = v log) :
    (table.map f).sum = (logs.map v).sum := by
  induction htable with
  | nil => rfl
  | cons hrow _ ih => rw [List.map_cons, List.map_cons, List.sum_cons, List.sum_cons, ih,
    h _ _ hrow]

lemma stored_mem {column : CostColumn} {logs : List LogTask} {table : List RequestLog}
    (htable : List.Forall₂ (Stored column) logs table) {row : RequestLog} (hrow : row ∈ table) :
    ∃ log ∈ logs, Stored column log row := by
  induction htable with
  | nil => cases hrow
  | @cons log first _ _ hfirst _ ih =>
    rcases List.mem_cons.mp hrow with rfl | hrow
    · exact ⟨log, List.mem_cons_self, hfirst⟩
    · obtain ⟨log', hlog', hstored⟩ := ih hrow
      exact ⟨log', List.mem_cons_of_mem log hlog', hstored⟩

section History
variable [Runtime] [Digests]
variable {ι σ : Type} [DecidableEq ι] {hasRedis : Bool} {settings : Settings}
  {requests : ι → GenerateRequest × AuthContext}
  {answers : σ → (op : Op) → op.Reply → σ → Prop} {drift : σ → σ → Prop}
  {init pool : Pool ι Op Op.Reply (Except HttpException GenerateResponse) σ}
  {acts : List (Act ι Op Op.Reply)}

/-- The response with which a request was answered. -/
def responseOf (pool : Pool ι Op Op.Reply (Except HttpException GenerateResponse) σ) (i : ι) :
    Option GenerateResponse :=
  (pool.members i).returned.bind Except.toOption

/-- The rows that a request has left are those of its outcome. -/
lemma History.rows_of
    (h : History hasRedis settings requests answers drift init pool acts) (i : ι) :
    rows (Pool.callsOf i acts) =
      ((responseOf pool i).map (respondedRow (requests i).1 (requests i).2)).toList := by
  have hreach := Pool.reaches h.run i
  rw [h.start i] at hreach
  cases hcalls : Pool.callsOf i acts with
  | nil =>
    rw [hcalls] at hreach
    rw [responseOf, hreach.of_nil]
    rfl
  | cons event events =>
    have hact := Pool.mem_callsOf (hcalls ▸ List.mem_cons_self : event ∈ Pool.callsOf i acts)
    obtain ⟨outcome, hdone⟩ := h.ended i event hact
    rw [hdone] at hreach
    rw [← hcalls, (generate_rows _ _ _ _).of_done hreach, responseOf, hdone]
    cases outcome with
    | ok response => rfl
    | error e => rfl

variable [Fintype ι]

/-- What the rows of a history add up to, request by request. -/
lemma History.sum_rows (h : History hasRedis settings requests answers drift init pool acts)
    {M : Type} [AddCommMonoid M] (v : LogTask → M) :
    ((rows (Pool.calls acts)).map v).sum =
      ∑ i, (responseOf pool i).elim 0 fun response =>
        v (respondedRow (requests i).1 (requests i).2 response) := by
  rw [sum_rows_eq, Pool.sum_calls _ acts Finset.univ fun i _ _ => Finset.mem_univ i]
  apply Finset.sum_congr rfl
  intro i _
  rw [← sum_rows_eq, h.rows_of i]
  cases responseOf pool i with
  | none => rfl
  | some response => exact add_zero _

/-- The requests of a tenant's user. -/
def requestsOf (requests : ι → GenerateRequest × AuthContext) (tenantId userId : String) :
    Finset ι :=
  Finset.univ.filter fun i => (requests i).2.tenantId = tenantId ∧ (requests i).1.userId = userId

/-- What the stored rows of a user add up to, by the user's requests. -/
lemma History.sum_table (h : History hasRedis settings requests answers drift init pool acts)
    {column : CostColumn} {table : List RequestLog}
    (htable : List.Forall₂ (Stored column) (rows (Pool.calls acts)) table) {M : Type}
    [AddCommMonoid M] {f : RequestLog → M} {v : LogTask → M}
    (hv : ∀ log row, Stored column log row → f row = v log) (tenantId userId : String) :
    (((table.filter (·.tenantId = tenantId)).filter (·.userId = userId)).map f).sum =
      ∑ i ∈ requestsOf requests tenantId userId, (responseOf pool i).elim 0 fun response =>
        v (respondedRow (requests i).1 (requests i).2 response) := by
  rw [List.filter_filter, Dict.sum_map_filter]
  have hstored : ∀ log row, Stored column log row →
      (if (decide (row.userId = userId) && decide (row.tenantId = tenantId)) then f row else 0) =
        if log.tenantId = tenantId ∧ log.userId = userId then v log else 0 := by
    intro log row hrow
    rw [hrow.userId, hrow.tenantId, hv log row hrow]
    simp [and_comm]
  rw [sum_stored htable hstored, h.sum_rows, requestsOf, Finset.sum_filter]
  apply Finset.sum_congr rfl
  intro i _
  cases responseOf pool i with
  | none => exact (ite_self 0).symm
  | some response => rfl

/-- The summary of a user, after any interleaving of requests: one request for each response
that the user's requests returned, with its tokens and its cost. -/
theorem usage_summary_served (h : History hasRedis settings requests answers drift init pool acts)
    {column : CostColumn} {table : List RequestLog}
    (htable : List.Forall₂ (Stored column) (rows (Pool.calls acts)) table) (tenantId : String)
    (query : UserQuery) :
    getUsageSummary ⟨table, none⟩ tenantId query =
      { userId := query.userId
        requests := ((requestsOf requests tenantId query.userId).filter fun i =>
          (responseOf pool i).isSome).card
        totalTokens := ∑ i ∈ requestsOf requests tenantId query.userId,
          (responseOf pool i).elim 0 fun response => max response.tokens 0
        totalCost := ∑ i ∈ requestsOf requests tenantId query.userId,
          (responseOf pool i).elim 0 fun response =>
            column.holds (response.cost.max (.finite 0)) } := by
  have hone : ∀ log row, Stored column log row → 1 = 1 := fun _ _ _ => rfl
  have hcount := h.sum_table htable hone tenantId query.userId
  have htokens := h.sum_table htable (fun log row (hrow : Stored column log row) => hrow.tokens)
    tenantId query.userId
  have hcost := h.sum_table htable (fun log row (hrow : Stored column log row) => hrow.cost)
    tenantId query.userId
  rw [List.map_const', List.sum_replicate_nat, Nat.mul_one] at hcount
  have hanswered : (∑ i ∈ requestsOf requests tenantId query.userId,
      (responseOf pool i).elim 0 fun _ => 1) =
        ((requestsOf requests tenantId query.userId).filter fun i =>
          (responseOf pool i).isSome).card := by
    rw [Finset.card_filter]
    apply Finset.sum_congr rfl
    intro i _
    cases responseOf pool i with
    | none => rfl
    | some response => rfl
  simp only [getUsageSummary, Session.execute, hcount, htokens, hcost, hanswered]
  rfl

/-- A row of a request that was answered. -/
def RowOf (requests : ι → GenerateRequest × AuthContext)
    (pool : Pool ι Op Op.Reply (Except HttpException GenerateResponse) σ)
    (row : RequestLog) : Prop :=
  ∃ i response, responseOf pool i = some response ∧ row.tenantId = (requests i).2.tenantId ∧
    row.userId = (requests i).1.userId ∧ row.modelUsed = response.modelUsed ∧
    row.tokens = max response.tokens 0 ∧ row.cacheHit = response.cached ∧
    row.status = "success" ∧ row.errorMessage = none

omit [Fintype ι] in
lemma History.rowOf (h : History hasRedis settings requests answers drift init pool acts)
    {column : CostColumn} {log : LogTask} {row : RequestLog} (hlog : log ∈ rows (Pool.calls acts))
    (hrow : Stored column log row) : RowOf requests pool row := by
  obtain ⟨event, hevent, hpersist⟩ := List.mem_filterMap.mp hlog
  obtain ⟨i, -, hown⟩ := Pool.mem_calls hevent
  have hmem : log ∈ rows (Pool.callsOf i acts) := List.mem_filterMap.mpr ⟨event, hown, hpersist⟩
  rw [h.rows_of i, Option.mem_toList, Option.map_eq_some_iff] at hmem
  obtain ⟨response, hresponse, rfl⟩ := hmem
  exact ⟨i, response, hresponse, hrow.tenantId, hrow.userId, hrow.modelUsed, hrow.tokens,
    hrow.cacheHit, hrow.status, hrow.errorMessage⟩

omit [Fintype ι] in
/-- Whatever requests fail, and whatever rows the database loses: every entry of a user's logs
is of a request of that user that was answered, and the activity feed reports no error. -/
theorem failures_unreported (h : History hasRedis settings requests answers drift init pool acts)
    {column : CostColumn} {kept : List LogTask} {table : List RequestLog}
    (hkept : kept ⊆ rows (Pool.calls acts)) (htable : List.Forall₂ (Stored column) kept table) :
    getDashboardActivity ⟨table, none⟩ = .ok ["System operating normally."] ∧
      ∀ tenantId query limit, ∀ entry ∈ (getUsageLogs ⟨table, none⟩ tenantId query limit).entries,
        ∃ row, RowOf requests pool row ∧ row.tenantId = tenantId ∧ row.userId = query.userId ∧
          entry = row.entry := by
  have hrows : ∀ row ∈ table, RowOf requests pool row := by
    intro row hrow
    obtain ⟨log, hlog, hstored⟩ := stored_mem htable hrow
    exact h.rowOf (hkept hlog) hstored
  constructor
  · have hnone : table.filter (·.status ≠ "success") = [] := by
      apply List.filter_eq_nil_iff.mpr
      intro row hrow
      obtain ⟨i, response, -, -, -, -, -, -, hstatus, -⟩ := hrows row hrow
      simp [hstatus]
    have hempty : newestFirst [] = [] := List.mergeSort_nil
    simp only [getDashboardActivity, Session.execute, hnone, hempty, List.take_nil]
    rfl
  · intro tenantId query limit entry hentry
    obtain ⟨row, hrow, rfl⟩ := List.mem_map.mp hentry
    have hselected : row ∈ (table.filter (·.tenantId = tenantId)).filter
        (·.userId = query.userId) := List.mem_mergeSort.mp (List.mem_of_mem_take hrow)
    rw [List.mem_filter, List.mem_filter] at hselected
    obtain ⟨⟨hmem, htenant⟩, huser⟩ := hselected
    exact ⟨row, hrows row hmem, of_decide_eq_true htenant, of_decide_eq_true huser, rfl⟩

end History

/-- The rows of two requests in turn, as a database holds them. -/
def tableInTurn [Runtime] [Digests] : List RequestLog :=
  (rows (Pool.calls (servedInTurn sharedRequests))).map CostColumn.rounding.row

lemma stored_inTurn [Runtime] [Digests] : List.Forall₂ (Stored .rounding)
    (rows (Pool.calls (servedInTurn sharedRequests))) tableInTurn :=
  List.forall₂_map_right_iff.mpr (List.forall₂_same.mpr fun log _ => CostColumn.stored_row _ log)

theorem usage_summary_served_sample :
    letI := Runtime.ascii
    letI := Digests.listed helloDigest
    ∃ pool, History true .live sharedRequests (FollowsWorld serving) (fun _ _ => False)
        (twoLive sharedRequests) pool (servedInTurn sharedRequests) ∧
      (getUsageSummary ⟨tableInTurn, none⟩ "acme" ⟨"u", by decide⟩).requests =
        ((requestsOf sharedRequests "acme" "u").filter fun i =>
          (responseOf pool i).isSome).card := by
  let ascii := Runtime.ascii
  let digests := Digests.listed helloDigest
  obtain ⟨pool, hhistory⟩ := history_servedInTurn sharedRequests
  have hsummary := usage_summary_served hhistory stored_inTurn "acme" ⟨"u", by decide⟩
  exact ⟨pool, hhistory, congrArg UsageSummaryResponse.requests hsummary⟩

theorem failures_unreported_sample :
    letI := Runtime.ascii
    letI := Digests.listed helloDigest
    getDashboardActivity ⟨tableInTurn, none⟩ = .ok ["System operating normally."] := by
  let ascii := Runtime.ascii
  let digests := Digests.listed helloDigest
  obtain ⟨pool, hhistory⟩ := history_servedInTurn sharedRequests
  exact (failures_unreported hhistory (List.Subset.refl _) stored_inTurn).1

end InferenceControlPlane.Gateway
