import InferenceControlPlane.Gateway.Metrics
import InferenceControlPlane.Gateway.Retries
import InferenceControlPlane.Gateway.Spending
import Mathlib.Algebra.BigOperators.Ring.Finset

/-!
# Requests during an outage

All requests of a process share the breaker of a provider, but each asks it only once. While
the breaker refuses, requests that it let through before still post, with the attempts they
have; no other request does.
-/
namespace InferenceControlPlane.Gateway
open Python Program

def Op.isPost : Op → Bool
  | post _ => true
  | _ => false

/-- The calls of a request to its breaker and its provider, in order: the trail that an outage
leaves. -/
def completions (events : List (Event Op Op.Reply)) : List (Event Op Op.Reply) :=
  events.filter fun e => e.op.stage = .completion

def countPosts (events : List (Event Op Op.Reply)) : ℕ := events.countP fun e => e.op.isPost

/-- The breaker lets a request through. -/
def letThrough : Event Op Op.Reply := ⟨.isAllowed "openrouter", true⟩

/-- Whether a call is one to the breaker, with this answer. -/
def Op.isAnswer (allowed : Bool) : (op : Op) → op.Reply → Bool
  | isAllowed provider, reply => provider = "openrouter" && reply == allowed
  | _, _ => false

/-- Among the calls is one at which the breaker let the request through: only then may a post
follow. -/
def passed (events : List (Event Op Op.Reply)) : Bool :=
  events.any fun e => e.op.isAnswer true e.reply

def refusal : Event Op Op.Reply := ⟨.isAllowed "openrouter", false⟩

lemma record_stage (metric : Metric) : (Op.record metric).stage ≠ .completion := by
  cases metric <;> exact Stage.noConfusion

/-! ## The calls of one request -/

/-- What a request calls of its breaker and its provider, with what it ends with: nothing, one
refusal, or one admission followed by its posts and by what the breaker is told. -/
inductive Trail (maxRetries : ℕ) : List (Event Op Op.Reply) →
    Except HttpException GenerateResponse → Prop
  | uncalled (outcome : Except HttpException GenerateResponse) : Trail maxRetries [] outcome
  | refused : Trail maxRetries [refusal] (.error badGateway)
  | attempted (request : CompletionRequest) {outcomes : List PostOutcome}
      (h : outcomes.length ≤ maxRetries + 1) (result : Except LlmError String)
      (outcome : Except HttpException GenerateResponse) : Trail maxRetries
        (letThrough :: (posts request outcomes ++ [closing "openrouter" result])) outcome

lemma completions_append (before events : List (Event Op Op.Reply)) :
    completions (before ++ events) = completions before ++ completions events :=
      List.filter_append _ _

lemma countPosts_append (before events : List (Event Op Op.Reply)) :
    countPosts (before ++ events) = countPosts before + countPosts events := List.countP_append

lemma countPosts_eq_sum (events : List (Event Op Op.Reply)) :
    countPosts events = (events.map fun e => if e.op.isPost then 1 else 0).sum := by
  induction events with
  | nil => rfl
  | cons e events ih =>
    rw [List.map_cons, List.sum_cons, ← ih, countPosts, List.countP_cons, Nat.add_comm]
    rfl

lemma any_isAnswer_iff {allowed : Bool} {events : List (Event Op Op.Reply)} :
    (events.any fun e => e.op.isAnswer allowed e.reply) = true ↔
      ⟨.isAllowed "openrouter", allowed⟩ ∈ events := by
  rw [List.any_eq_true]
  constructor
  · intro h
    obtain ⟨⟨op, reply⟩, hmem, hanswer⟩ := h
    cases op with
    | isAllowed provider =>
      rw [Op.isAnswer, Bool.and_eq_true, decide_eq_true_iff, beq_iff_eq] at hanswer
      obtain ⟨rfl, rfl⟩ := hanswer
      exact hmem
    | _ => cases hanswer
  · exact fun h => ⟨_, h, by simp [Op.isAnswer]⟩

lemma passed_iff {events : List (Event Op Op.Reply)} :
    passed events = true ↔ letThrough ∈ events := any_isAnswer_iff

/-- The posts are among the completions. -/
lemma countPosts_completions (events : List (Event Op Op.Reply)) :
    countPosts (completions events) = countPosts events := by
  rw [countPosts, completions, List.countP_filter]
  apply List.countP_congr
  intro e _
  obtain ⟨op, reply⟩ := e
  cases op <;> simp [Op.isPost, Op.stage]

lemma completions_eq_nil {events : List (Event Op Op.Reply)}
    (h : ∀ e ∈ events, e.op.stage ≠ .completion) : completions events = [] := by
  apply List.filter_eq_nil_iff.mpr
  intro e he
  simpa using h e he

lemma completions_of_stage {events : List (Event Op Op.Reply)} {stage : Stage}
    (h : ∀ e ∈ events, e.op.stage = stage) (hstage : stage ≠ .completion) :
    completions events = [] :=
  completions_eq_nil fun e he => by
    rw [h e he]
    exact hstage

lemma completions_self {events : List (Event Op Op.Reply)}
    (h : ∀ e ∈ events, e.op.stage = .completion) : completions events = events := by
  apply List.filter_eq_self.mpr
  intro e he
  exact decide_eq_true (h e he)

lemma countPosts_posts (request : CompletionRequest) (outcomes : List PostOutcome) :
    countPosts (posts request outcomes) = outcomes.length := by
  rw [countPosts, posts, List.countP_map]
  exact List.countP_eq_length.mpr fun _ _ => rfl

/-- A request posts at most once for each of its attempts. -/
lemma Trail.countPosts_le {maxRetries : ℕ} {events : List (Event Op Op.Reply)}
    {outcome : Except HttpException GenerateResponse} (h : Trail maxRetries events outcome) :
    countPosts events ≤ maxRetries + 1 := by
  cases h with
  | uncalled => exact Nat.zero_le _
  | refused => exact Nat.zero_le _
  | @attempted request outcomes hlength result outcome =>
    have hlast : countPosts [closing "openrouter" result] = 0 := by cases result <;> rfl
    have hfirst : countPosts [letThrough] = 0 := rfl
    rw [← List.singleton_append, countPosts_append, countPosts_append, countPosts_posts, hlast,
      hfirst]
    omega

/-- A request that is refused does not post, and fails. -/
lemma Trail.of_refusal {maxRetries : ℕ} {events : List (Event Op Op.Reply)}
    {outcome : Except HttpException GenerateResponse} (h : Trail maxRetries events outcome)
    (hrefused : refusal ∈ events) : countPosts events = 0 ∧ outcome = .error badGateway := by
  cases h with
  | uncalled => cases hrefused
  | refused => exact ⟨rfl, rfl⟩
  | @attempted request outcomes _ result _ =>
    rcases List.mem_cons.mp hrefused with hfirst | hlater
    · simp [refusal, letThrough] at hfirst
    · rcases List.mem_append.mp hlater with hpost | hlast
      · obtain ⟨_, _, hpost⟩ := List.mem_map.mp hpost
        cases hpost
      · rw [List.mem_singleton] at hlast
        cases result <;> cases hlast

section
variable [Runtime] [Digests]

lemma completeFor_trail (settings : Settings) (payload : GenerateRequest) :
    (completeFor settings payload).Ensures fun events result =>
      ∀ outcome, (∀ e, result = .error e → outcome = .error badGateway) →
        Trail settings.llmMaxRetries (completions events) outcome := by
  unfold completeFor generateCompletion
  dsimp only
  split_ifs with hsimulated hprovider
  · exact fun outcome _ => .uncalled outcome
  · rw [hprovider]
    cases hkey : truthyText ((truthyText payload.providerApiKey).or settings.openrouterApiKey) with
    | none =>
      rw [requestOpenaiCompatible, hkey]
      exact fun outcome _ => .uncalled outcome
    | some key =>
      refine (requestOpenaiCompatible_ensures_attempted settings _ _ _ _ hkey).bind
        fun events result hattempted => ?_
      rcases hattempted with ⟨rfl, rfl⟩ | ⟨before, last, rest, rfl, hrest⟩
      · intro outcome herror
        rw [herror _ rfl]
        exact .refused
      · have hevents : completions (letThrough :: rest) =
            letThrough :: (posts (completionRequest settings (redactPii payload.prompt)
              ((truthyText (chooseModel payload settings).modelOverride).getD
                settings.openrouterCheapModel) settings.openrouterBaseUrl key) (before ++ [last]) ++
              [closing "openrouter" result]) := by
          rw [← hrest.events_eq]
          apply completions_self
          rw [hrest.events_eq]
          intro e he
          rcases List.mem_cons.mp he with rfl | he
          · rfl
          · rcases List.mem_append.mp he with hpost | hlast
            · obtain ⟨_, _, rfl⟩ := List.mem_map.mp hpost
              rfl
            · rw [List.mem_singleton] at hlast
              cases result <;> cases hlast <;> rfl
        have htrail : ∀ outcome,
            Trail settings.llmMaxRetries (completions ((letThrough :: rest) ++ [])) outcome := by
          intro outcome
          rw [List.append_nil, hevents]
          refine .attempted _ ?_ result outcome
          rw [List.length_append]
          exact hrest.length_lt
        cases result with
        | ok text => exact fun outcome _ => htrail outcome
        | error e => exact fun outcome _ => htrail outcome
  · exact fun outcome _ => .uncalled outcome

omit [Runtime] [Digests] in
/-- What the handler makes of its statements' result. -/
def Raised.outcome : Except Raised (GenerateResponse × List Task) →
    Except HttpException GenerateResponse
  | .ok answered => .ok answered.1
  | .error raised => .error raised.exception

lemma serve_trail (hasRedis : Bool) (settings : Settings) (payload : GenerateRequest)
    (auth : AuthContext) (started : ℚ) (requestId : String) :
    (serve hasRedis settings payload auth started requestId).Ensures fun events result =>
      Trail settings.llmMaxRetries (completions events) (Raised.outcome result) := by
  have hadmitted : ∀ {admitting : List (Event Op Op.Reply)} {result},
      Admission result admitting → completions admitting = [] :=
    fun h => completions_of_stage h.stage (by decide)
  have hlooked : ∀ {looking : List (Event Op Op.Reply)},
      (∀ e ∈ looking, e.op.stage = .lookup) → completions looking = [] :=
    fun h => completions_of_stage h (by decide)
  refine serve_rule (enforceRateLimits_ensures _ _ _ _) (getCachedResponse_always _ _ _).ensures
    (completeFor_trail _ _) ?_ ?_ ?_ ?_
  · intro admitting e hadmission
    rw [hadmitted hadmission]
    exact .uncalled _
  · intro admitting looking cached hadmission hlooking
    have hquiet : (respondCached payload auth started requestId cached).Always
        fun op => op.stage ≠ .completion :=
      ⟨by decide, fun _ => ⟨by decide, fun _ => ⟨record_stage _, fun _ => ⟨record_stage _,
        fun _ => trivial⟩⟩⟩⟩
    refine hquiet.ensures.mono fun rest answer hrest => ?_
    rw [completions_append, completions_append, hadmitted hadmission, hlooked hlooking,
      completions_eq_nil hrest]
    exact .uncalled _
  · intro admitting looking completing e hadmission hlooking hcompletion
    rw [completions_append, completions_append, hadmitted hadmission, hlooked hlooking]
    exact hcompletion _ fun _ _ => rfl
  · intro admitting looking completing modelUsed text hadmission hlooking hcompletion
    have hquiet : (respondGenerated settings payload auth started requestId modelUsed text).Always
        fun op => op.stage ≠ .completion :=
      ⟨by decide, fun _ => ⟨by decide, fun _ => ⟨record_stage _, fun _ => ⟨record_stage _,
        fun _ => ⟨record_stage _, fun _ => trivial⟩⟩⟩⟩⟩
    refine hquiet.ensures.mono fun rest answer hrest => ?_
    have hmiss : completions (⟨.record (.cacheResult false), ()⟩ :: (completing ++ rest)) =
        completions completing := by
      rw [← List.singleton_append, completions_append, completions_append,
        completions_eq_nil hrest, List.append_nil]
      rfl
    rw [completions_append, completions_append, hadmitted hadmission, hlooked hlooking, hmiss]
    exact hcompletion _ fun e he => by cases he

/-- A request leaves a trail. -/
theorem generate_trail (hasRedis : Bool) (settings : Settings) (payload : GenerateRequest)
    (auth : AuthContext) : (generate hasRedis settings payload auth).Ensures fun events outcome =>
      Trail settings.llmMaxRetries (completions events) outcome := by
  have hhandled : (handleGenerateRequest hasRedis settings payload auth).Ensures
      fun events handled =>
      Trail settings.llmMaxRetries (completions events) handled.1 := by
    refine handleGenerateRequest_rule (serve_trail _ _ _ _) ?_ ?_
    · intro started requestId serving response tasks htrail
      exact htrail
    · intro started requestId serving raised htrail finished _
      show Trail _ (completions (serving ++ _)) _
      rw [completions_append]
      rw [← List.append_nil (completions serving)] at htrail
      exact htrail
  unfold generate
  refine hhandled.bind fun handling handled htrail => ?_
  obtain ⟨outcome, tasks⟩ := handled
  cases outcome with
  | error e =>
    show Trail _ (completions (handling ++ [])) _
    rw [List.append_nil]
    exact htrail
  | ok response =>
    refine (runTasks_always hasRedis tasks).ensures.bind fun running _ hrunning => ?_
    show Trail _ (completions (handling ++ (running ++ []))) _
    rw [List.append_nil, completions_append, completions_of_stage hrunning (by decide),
      List.append_nil]
    exact htrail

end

/-! ## Every interleaving -/

section History
variable {ι σ : Type} [DecidableEq ι] {answers : σ → (op : Op) → op.Reply → σ → Prop}
  {drift : σ → σ → Prop} {breaker : σ → CircuitBreaker} {clock : σ → ℚ}

/-- The breaker of the provider answers whether a request may pass, by its own state at that
moment. -/
def AsksBreaker (breaker : σ → CircuitBreaker) (clock : σ → ℚ)
    (answers : σ → (op : Op) → op.Reply → σ → Prop) : Prop :=
  ∀ s reply s', answers s (.isAllowed "openrouter") reply s' →
    reply = ((breaker s).isAllowed (clock s)).1

/-- A step while the breaker refuses: whatever else happens, a question to it is answered with
no. -/
def Refusing (breaker : σ → CircuitBreaker) (clock : σ → ℚ)
    (answers : σ → (op : Op) → op.Reply → σ → Prop) (drift : σ → σ → Prop)
    (pool : Pool ι Op Op.Reply (Except HttpException GenerateResponse) σ) (act : Act ι Op Op.Reply)
    (pool' : Pool ι Op Op.Reply (Except HttpException GenerateResponse) σ) : Prop :=
  ((breaker pool.shared).isAllowed (clock pool.shared)).1 = false ∧
    Pool.Step answers drift pool act pool'

variable {start pool : Pool ι Op Op.Reply (Except HttpException GenerateResponse) σ}
  {acts : List (Act ι Op Op.Reply)}

/-- While the breaker refuses, nothing is let through. -/
lemma not_letThrough (hbreaker : AsksBreaker breaker clock answers)
    (hrun : Run (Refusing breaker clock answers drift) start acts pool) (i : ι) :
    letThrough ∉ Pool.callsOf i acts := by
  intro hmem
  obtain ⟨before, after, rfl⟩ := List.append_of_mem (Pool.mem_callsOf hmem)
  obtain ⟨pool₁, pool₂, -, hrefuses, hstep⟩ := hrun.step_of_append
  cases hstep with
  | called hmember hanswer =>
    have hreply := hbreaker _ _ _ hanswer
    rw [hrefuses] at hreply
    cases hreply

/-- What one request posts while the breaker refuses, after its `earlier` calls. -/
lemma Trail.countPosts_during {maxRetries : ℕ} {earlier during later : List (Event Op Op.Reply)}
    {outcome : Except HttpException GenerateResponse}
    (h : Trail maxRetries (completions (earlier ++ during ++ later)) outcome)
    (hclosed : letThrough ∉ during) :
    countPosts during ≤ if passed earlier = true then maxRetries + 1 else 0 := by
  have hsum : countPosts during ≤ countPosts (completions (earlier ++ during ++ later)) := by
    rw [countPosts_completions, countPosts_append, countPosts_append]
    omega
  have hle := h.countPosts_le
  split_ifs with hpassed
  · omega
  · rw [passed_iff] at hpassed
    rw [Nat.le_zero]
    generalize hevents : completions (earlier ++ during ++ later) = events at h hsum
    cases h with
    | uncalled => exact Nat.le_zero.mp hsum
    | refused => exact Nat.le_zero.mp hsum
    | attempted =>
      -- the first completion call is the one that was let through, so it comes later
      rw [← countPosts_completions]
      rw [completions_append, completions_append] at hevents
      cases hearlier : completions earlier with
      | cons e _ =>
        rw [hearlier] at hevents
        obtain ⟨rfl, -⟩ := List.cons.inj hevents
        have hmem : letThrough ∈ completions earlier := hearlier ▸ List.mem_cons_self
        exact absurd (List.mem_filter.mp hmem).1 hpassed
      | nil =>
        cases hduring : completions during with
        | nil => rfl
        | cons e _ =>
          rw [hearlier, hduring] at hevents
          obtain ⟨rfl, -⟩ := List.cons.inj hevents
          have hmem : letThrough ∈ completions during := hduring ▸ List.mem_cons_self
          exact absurd (List.mem_filter.mp hmem).1 hclosed

variable [Runtime] [Digests] {hasRedis : Bool} {settings : Settings}
  {requests : ι → GenerateRequest × AuthContext}
  {init last : Pool ι Op Op.Reply (Except HttpException GenerateResponse) σ}
  {before during after : List (Act ι Op Op.Reply)}

/-- A request's calls so far are the beginning of a trail. -/
lemma trail_of_run
    (hinit : ∀ i, init.members i = generate hasRedis settings (requests i).1 (requests i).2)
    (hrun : Run (Pool.Step answers drift) init acts pool) (i : ι) :
    (pool.members i).Ensures fun rest outcome =>
      Trail settings.llmMaxRetries (completions (Pool.callsOf i acts ++ rest)) outcome := by
  have hreach := Pool.reaches hrun i
  rw [hinit i] at hreach
  exact (generate_trail _ _ _ _).after hreach

/-- The breaker has let a request through, which has not returned. -/
def Ahead (start : Pool ι Op Op.Reply (Except HttpException GenerateResponse) σ)
    (before : List (Act ι Op Op.Reply)) (i : ι) : Prop :=
  passed (Pool.callsOf i before) = true ∧ (start.members i).returned = none

instance (i : ι) : Decidable (Ahead start before i) :=
  inferInstanceAs (Decidable (_ ∧ _))

/-- While the breaker refuses, a request posts only if it was ahead. -/
lemma countPosts_refusing (hbreaker : AsksBreaker breaker clock answers)
    (hinit : ∀ i, init.members i = generate hasRedis settings (requests i).1 (requests i).2)
    (hbefore : Run (Pool.Step answers drift) init before start)
    (hduring : Run (Refusing breaker clock answers drift) start during pool) (i : ι) :
    countPosts (Pool.callsOf i during) ≤
      if Ahead start before i then settings.llmMaxRetries + 1 else 0 := by
  have hsteps : Run (Pool.Step answers drift) start during pool :=
    hduring.mono fun _ _ _ h => h.2
  obtain ⟨rest, outcome, htrail⟩ := (trail_of_run hinit (hbefore.append hsteps) i).exists
  rw [Pool.callsOf_append] at htrail
  have hposts := htrail.countPosts_during (not_letThrough hbreaker hduring i)
  cases hmember : start.members i with
  | done a =>
    -- a request that has returned calls nothing
    have hreach := Pool.reaches hsteps i
    rw [hmember] at hreach
    have hends : (done a : Coroutine _).Ensures fun events _ => events = [] := rfl
    obtain ⟨_, _, hends⟩ := (hends.after hreach).exists
    rw [(List.append_eq_nil_iff.mp hends).1]
    exact Nat.zero_le _
  | call op next =>
    have hopen : (call op next : Coroutine _).returned = none := rfl
    simpa [Ahead, hmember, hopen] using hposts

/-- A request that was refused has not posted, and fails with 502. -/
lemma refused_never_posts
    (hinit : ∀ i, init.members i = generate hasRedis settings (requests i).1 (requests i).2)
    (hrun : Run (Pool.Step answers drift) init acts pool) {i : ι}
    (hrefused : refusal ∈ Pool.callsOf i acts) : countPosts (Pool.callsOf i acts) = 0 ∧
      ∀ outcome, pool.members i = .done outcome → outcome = .error badGateway := by
  have htrail := trail_of_run hinit hrun i
  have hmem : ∀ rest, refusal ∈ completions (Pool.callsOf i acts ++ rest) := fun rest =>
    List.mem_filter.mpr ⟨List.mem_append_left _ hrefused, rfl⟩
  constructor
  · obtain ⟨rest, outcome, htrail⟩ := htrail.exists
    have hposts := (htrail.of_refusal (hmem rest)).1
    rw [countPosts_completions, countPosts_append] at hposts
    omega
  · intro outcome hdone
    rw [hdone] at htrail
    exact (htrail.of_refusal (hmem [])).2

variable [Fintype ι]

/-- While the breaker refuses, a request posts only if it was let through before and has not
returned, and then at most as often as it has attempts, which bounds the posts of the whole
outage. A request that is refused during the outage does not post before, during or after it,
and fails with 502. -/
theorem outage_bounded (hbreaker : AsksBreaker breaker clock answers)
    (hinit : ∀ i, init.members i = generate hasRedis settings (requests i).1 (requests i).2)
    (hbefore : Run (Pool.Step answers drift) init before start)
    (hduring : Run (Refusing breaker clock answers drift) start during pool)
    (hafter : Run (Pool.Step answers drift) pool after last) :
    (∀ i, (0 < countPosts (Pool.callsOf i during) → Ahead start before i) ∧
      countPosts (Pool.callsOf i during) ≤ settings.llmMaxRetries + 1) ∧
    countPosts (Pool.calls during) ≤ (settings.llmMaxRetries + 1) *
      (Finset.univ.filter fun i => Ahead start before i).card ∧
    ∀ i, refusal ∈ Pool.callsOf i during →
      countPosts (Pool.callsOf i (before ++ during ++ after)) = 0 ∧
        ∀ outcome, last.members i = .done outcome → outcome = .error badGateway := by
  have hposts := countPosts_refusing hbreaker hinit hbefore hduring
  have hsteps : Run (Pool.Step answers drift) start during pool :=
    hduring.mono fun _ _ _ h => h.2
  refine ⟨fun i => ?_, ?_, fun i hrefused => ?_⟩
  · have hi := hposts i
    split_ifs at hi with hahead
    · exact ⟨fun _ => hahead, hi⟩
    · exact ⟨fun h => by omega, hi.trans (Nat.zero_le _)⟩
  · have hsum : countPosts (Pool.calls during) = ∑ i, countPosts (Pool.callsOf i during) := by
      simp only [countPosts_eq_sum]
      exact Pool.sum_calls _ during Finset.univ fun i _ _ => Finset.mem_univ i
    rw [hsum, Finset.card_filter, Finset.mul_sum]
    apply Finset.sum_le_sum
    intro i _
    simpa using hposts i
  · apply refused_never_posts hinit ((hbefore.append hsteps).append hafter)
    rw [Pool.callsOf_append, Pool.callsOf_append]
    exact List.mem_append_left _ (List.mem_append_right _ hrefused)

end History

/-! ## Two requests while the provider is down -/

/-- A breaker after five failures, the last of them at the start of the clock. -/
def tripped : CircuitBreaker := ⟨5, 30, 5, 0, .opened⟩

/-- The breaker is open since zero, with a recovery time that is not negative: at that time, it
refuses. -/
def Tripped (cb : CircuitBreaker) : Prop :=
  cb.state = .opened ∧ cb.lastFailureTime = 0 ∧ 0 ≤ cb.recoveryTimeout

lemma tripped_trips : Tripped tripped := ⟨rfl, rfl, by norm_num [tripped]⟩

lemma Tripped.refuses {cb : CircuitBreaker} (h : Tripped cb) : cb.isAllowed 0 = (false, cb) := by
  obtain ⟨hstate, hlast, htimeout⟩ := h
  have hearly : ¬ cb.recoveryTimeout < 0 - cb.lastFailureTime := by
    rw [hlast, sub_zero]
    exact not_lt.mpr htimeout
  rw [CircuitBreaker.isAllowed, hstate]
  exact if_neg hearly

lemma Tripped.recordFailure {cb : CircuitBreaker} (h : Tripped cb) :
    Tripped (cb.recordFailure 0) := by
  refine ⟨?_, rfl, h.2.2⟩
  rw [CircuitBreaker.recordFailure, h.1, ite_self]

/-- The breaker of the provider, which no post reaches in time. -/
def outageWorld : World Op Op.Reply CircuitBreaker
  | .isAllowed _, cb => cb.isAllowed 0
  | .recordFailure _, cb => ((), cb.recordFailure 0)
  | .post _, cb => (.timeout, cb)
  | op, cb => (op.idle, cb)

lemma outageWorld_tripped (op : Op) {cb : CircuitBreaker} (h : Tripped cb) :
    Tripped (outageWorld op cb).2 := by
  cases op with
  | isAllowed provider =>
    show Tripped (cb.isAllowed 0).2
    rw [h.refuses]
    exact h
  | recordFailure provider => exact h.recordFailure
  | _ => exact h

/-- The failures of other requests trip the breaker. -/
def Trips (_ cb : CircuitBreaker) : Prop := cb = tripped

section
variable [Runtime] [Digests]

def caller (_ : Bool) : GenerateRequest × AuthContext :=
  (greeting, ⟨"acme", "key-1", 120, "user"⟩)

def asking : Coroutine (Except HttpException GenerateResponse) :=
  generate true .live greeting ⟨"acme", "key-1", 120, "user"⟩

/-- Two requests before they start, under a new breaker. -/
def askingPool : Pool Bool Op Op.Reply (Except HttpException GenerateResponse) CircuitBreaker :=
  ⟨.default, fun _ => asking⟩

/-- What the first request has yet to do when the breaker has let it through. -/
def ahead : Coroutine (Except HttpException GenerateResponse) × CircuitBreaker :=
  asking.advance outageWorld 11 .default

/-- The breaker lets the first request through, and is tripped then. -/
def beforeOutage : List (Act Bool Op Op.Reply) :=
  ((asking.trace outageWorld .default).take 11).map (.called true) ++ [.drifted]

/-- The first request goes on, and then the second one is served. -/
def duringOutage : List (Act Bool Op Op.Reply) :=
  (ahead.1.trace outageWorld tripped).map (.called true) ++
    (asking.trace outageWorld (ahead.1.final outageWorld tripped)).map (.called false)

/-- The pool when the breaker is tripped. -/
def outageStart : Pool Bool Op Op.Reply (Except HttpException GenerateResponse) CircuitBreaker :=
  ⟨tripped, Function.update askingPool.members true ahead.1⟩

lemma run_beforeOutage :
    Run (Pool.Step (FollowsWorld outageWorld) Trips) askingPool beforeOutage outageStart := by
  have hfirst := Pool.run_advance outageWorld
    (fun op s => (rfl : FollowsWorld outageWorld s op (outageWorld op s).1 (outageWorld op s).2))
    (Run.nil : Run (Pool.Step (FollowsWorld outageWorld) Trips) askingPool [] askingPool) true
    asking rfl 11
  exact hfirst.snoc (.drifted rfl)

lemma run_duringOutage : ∃ pool outcome,
    Run (Refusing id (fun _ => 0) (FollowsWorld outageWorld) Trips) outageStart duringOutage pool ∧
      pool.members false = .done outcome := by
  have hworld : ∀ op (cb : CircuitBreaker), True →
      FollowsWorld outageWorld cb op (outageWorld op cb).1 (outageWorld op cb).2 ∧ True :=
    fun op cb _ => ⟨rfl, trivial⟩
  have hfirst := Pool.run_alone outageWorld hworld
    (Run.nil : Run (Pool.Step (FollowsWorld outageWorld) Trips) outageStart [] outageStart)
    trivial true ahead.1 (by simp [outageStart])
  have hboth := Pool.run_alone outageWorld hworld hfirst trivial false asking
    (by simp [outageStart, askingPool])
  -- no call closes the breaker
  have hrefusing := hboth.preserving (P := fun pool => Tripped pool.shared) tripped_trips
    fun pool act pool' htripped hstep => by
      cases hstep with
      | @called i op next r s hmember hanswer =>
        rw [(Prod.mk.inj hanswer).2]
        exact outageWorld_tripped op htripped
      | drifted h =>
        rw [h]
        exact tripped_trips
  refine ⟨_, asking.result outageWorld (ahead.1.final outageWorld tripped),
    hrefusing.1.mono fun pool act pool' h => ⟨?_, h.2⟩, ?_⟩
  · exact congrArg Prod.fst h.1.refuses
  · simp only [Function.update_self]
    rfl

end

/-- The first request posts its three attempts during the outage. The second one is refused: it
posts nothing, and fails. -/
theorem outage_bounded_sample :
    letI := Runtime.ascii
    letI := Digests.listed helloDigest
    ∃ pool, Run (Refusing id (fun _ => 0) (FollowsWorld outageWorld) Trips) outageStart
        duringOutage pool ∧
      countPosts (Pool.callsOf true duringOutage) = 3 ∧ Ahead outageStart beforeOutage true ∧
      refusal ∈ Pool.callsOf false duringOutage ∧
      countPosts (Pool.callsOf false (beforeOutage ++ duringOutage)) = 0 ∧
      pool.members false = .done (.error badGateway) := by
  let ascii := Runtime.ascii
  let digests := Digests.listed helloDigest
  obtain ⟨pool, outcome, hduring, hdone⟩ := run_duringOutage
  have hbreaker : AsksBreaker id (fun _ => 0) (FollowsWorld outageWorld) :=
    fun s reply s' h => (Prod.mk.inj h).1
  have hinit : ∀ i, askingPool.members i = generate true .live (caller i).1 (caller i).2 :=
    fun _ => rfl
  obtain ⟨hposts, -, hrefused⟩ :=
    outage_bounded hbreaker hinit run_beforeOutage hduring .nil
  have hthree : countPosts (Pool.callsOf true duringOutage) = 3 := by decide +kernel
  have hahead : Ahead outageStart beforeOutage true :=
    (hposts true).1 (hthree ▸ Nat.succ_pos 2)
  have hmem : refusal ∈ Pool.callsOf false duringOutage :=
    any_isAnswer_iff.mp (by decide +kernel)
  obtain ⟨hnone, hfailed⟩ := hrefused false hmem
  rw [List.append_nil] at hnone
  rw [hfailed outcome hdone] at hdone
  exact ⟨pool, hduring, hthree, hahead, hmem, hnone, hdone⟩

end InferenceControlPlane.Gateway
