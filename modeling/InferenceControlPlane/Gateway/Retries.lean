import InferenceControlPlane.Gateway.LlmClient
import Mathlib.Order.Bounds.Defs

/-!
# Attempts and breaker events

A request is refused by its provider's breaker, or it posts until an outcome decides it
or the attempts are used up, and tells the breaker once how it ended.
-/
namespace InferenceControlPlane.Gateway
open Python Program

/-! ## Outcomes -/

/-- Timeouts, network errors and server errors: what another attempt may come out differently
of. -/
def PostOutcome.isTransient : PostOutcome → Bool
  | .timeout => true
  | .requestError => true
  | .response status _ => decide (500 ≤ status ∧ status < 600)
  | _ => false

/-- Whether a result asks for another attempt. -/
def asksAgain : Except LlmError String → Bool
  | .ok _ => false
  | .error e => e.isRetryable

lemma asksAgain_parseFailure (e : PyErr) : asksAgain (.error (parseFailure e)) = false := by
  rw [parseFailure]
  split_ifs
  · rfl
  · rfl

lemma asksAgain_statusError (status : ℕ) :
    asksAgain (.error (statusError status)) = decide (500 ≤ status ∧ status < 600) := by
  rw [statusError]
  split_ifs with h
  · exact (decide_eq_true h).symm
  · exact (decide_eq_false h).symm

section
variable [Runtime]

lemma asksAgain_toStr (value : Json) :
    asksAgain ((toStr value).mapError parseFailure) = false := by
  cases toStr value with
  | ok text => rfl
  | error e => exact asksAgain_parseFailure e

lemma asksAgain_textOf (choice : List (String × Json)) :
    asksAgain (extractMessageText.textOf choice) = false := by
  rw [extractMessageText.textOf]
  cases choice.lookup "text" with
  | none => rfl
  | some text => exact asksAgain_toStr text

/-- No payload is worth another attempt. -/
lemma asksAgain_extractMessageText (payload : Json) :
    asksAgain (extractMessageText payload) = false := by
  fun_cases extractMessageText payload with
  | case1 e hchoices => exact asksAgain_parseFailure e
  | case2 => rfl
  | case3 => exact asksAgain_parseFailure _
  | case4 => exact asksAgain_toStr _
  | case5 => exact asksAgain_textOf _
  | case6 => exact asksAgain_textOf _
  | case7 => exact asksAgain_parseFailure _

/-- The three translations of an error compose to the transient outcomes. -/
theorem asksAgain_completionOf (outcome : PostOutcome) :
    asksAgain (completionOf outcome) = outcome.isTransient := by
  cases outcome with
  | noClient => rfl
  | timeout => rfl
  | requestError => rfl
  | raised e => exact asksAgain_parseFailure e
  | response status body =>
    by_cases hsuccess : 200 ≤ status ∧ status < 300
    · have hstatus : (PostOutcome.response status body).isTransient = false := by
        apply decide_eq_false
        omega
      rw [hstatus]
      cases body with
      | json payload =>
        rw [completionOf, if_pos hsuccess]
        exact asksAgain_extractMessageText payload
      | failing e =>
        rw [completionOf, if_pos hsuccess]
        exact asksAgain_parseFailure e
      | _ =>
        simp only [completionOf, if_pos hsuccess]
        rfl
    · simp only [completionOf, if_neg hsuccess]
      exact asksAgain_statusError status

end

/-! ## A request in any surroundings -/

/-- What the breaker is told of a result: one success or one failure for a request, however many
posts it took. -/
def closing (provider : String) : Except LlmError String → Event Op Op.Reply
  | .ok _ => ⟨.recordSuccess provider, ()⟩
  | .error _ => ⟨.recordFailure provider, ()⟩

/-- The posts of a request with their outcomes, in the order in which they were tried. -/
def posts (request : CompletionRequest) (outcomes : List PostOutcome) : List (Event Op Op.Reply) :=
  outcomes.map fun outcome => ⟨.post request, outcome⟩

section
variable [Runtime]

/-- The attempts of a run: transient outcomes before a last one, which ends the run
because it is not transient or because no attempt is left. -/
structure Attempted (provider : String) (request : CompletionRequest) (left : ℕ)
    (before : List PostOutcome) (last : PostOutcome) (events : List (Event Op Op.Reply))
    (result : Except LlmError String) : Prop where
  events_eq : events = posts request (before ++ [last]) ++ [closing provider result]
  before_transient : ∀ outcome ∈ before, outcome.isTransient = true
  length_lt : before.length < left
  last_of_transient : last.isTransient = true → before.length + 1 = left
  result_eq : result = completionOf last

lemma attempted_last (provider : String) (request : CompletionRequest) {left : ℕ}
    (outcome : PostOutcome) (h : outcome.isTransient = true → left = 0) :
    Attempted provider request (left + 1) [] outcome
      [⟨.post request, outcome⟩, closing provider (completionOf outcome)]
      (completionOf outcome) := by
  constructor
  · rfl
  · simp
  · simp
  · intro htransient
    rw [h htransient]
    rfl
  · rfl

lemma Attempted.after {provider : String} {request : CompletionRequest} {left : ℕ}
    {before : List PostOutcome} {last outcome : PostOutcome} {events : List (Event Op Op.Reply)}
    {result : Except LlmError String}
    (h : Attempted provider request left before last events result)
    (htransient : outcome.isTransient = true) :
    Attempted provider request (left + 1) (outcome :: before) last
      (⟨.post request, outcome⟩ :: events) result := by
  constructor
  · rw [h.events_eq]
    rfl
  · exact List.forall_mem_cons.mpr ⟨htransient, h.before_transient⟩
  · exact Nat.succ_lt_succ h.length_lt
  · intro hlast
    rw [List.length_cons, h.last_of_transient hlast]
  · exact h.result_eq

theorem attempts_ensures_attempted (provider : String) (request : CompletionRequest) (left : ℕ) :
    (attempts provider (do return completionOf (← Call.post request)) (left + 1)).Ensures
      fun events result => ∃ before last,
        Attempted provider request (left + 1) before last events result := by
  have hrequest : (do return completionOf (← Call.post request) :
      Coroutine (Except LlmError String)).Ensures fun events result =>
        ∃ outcome, events = [⟨.post request, outcome⟩] ∧ completionOf outcome = result :=
    fun outcome => ⟨outcome, rfl, rfl⟩
  induction left with
  | zero =>
    refine hrequest.bind fun events result hposted => ?_
    obtain ⟨outcome, rfl, hresult⟩ := hposted
    have hlast := attempted_last provider request outcome fun _ => rfl
    rw [hresult] at hlast
    cases result with
    | ok text => exact fun _ => ⟨[], outcome, hlast⟩
    | error e =>
      dsimp only
      rw [if_neg (by simp)]
      exact fun _ => ⟨[], outcome, hlast⟩
  | succ left ih =>
    refine hrequest.bind fun events result hposted => ?_
    obtain ⟨outcome, rfl, hresult⟩ := hposted
    have hagain := asksAgain_completionOf outcome
    rw [hresult] at hagain
    have hlast : outcome.isTransient = false → Attempted provider request (left + 1 + 1) [] outcome
        [⟨.post request, outcome⟩, closing provider result] result := by
      intro hdecisive
      rw [← hresult]
      exact attempted_last provider request outcome fun htransient => by
        simp [hdecisive] at htransient
    cases result with
    | ok text => exact fun _ => ⟨[], outcome, hlast hagain.symm⟩
    | error e =>
      dsimp only
      split_ifs with hretry
      · have htransient : outcome.isTransient = true := by
          rw [← hagain]
          exact (Bool.and_eq_true_iff.mp hretry).1
        refine ih.mono fun rest result hrest => ?_
        obtain ⟨before, last, hrest⟩ := hrest
        exact ⟨outcome :: before, last, hrest.after htransient⟩
      · have hdecisive : outcome.isTransient = false := by
          rw [← hagain]
          simpa [asksAgain] using hretry
        exact fun _ => ⟨[], outcome, hlast hdecisive⟩

omit [Runtime] in
/-- The body and the headers of a request. -/
def completionRequest (settings : Settings) (prompt model baseUrl apiKey : String) :
    CompletionRequest where
  endpoint := completionsEndpoint baseUrl
  authorization := if apiKey = "dummy-key" then none else some ("Bearer " ++ apiKey)
  model := model
  maxTokens := settings.llmMaxOutputTokens
  prompt := prompt

lemma requestOpenaiCompatible_of_key (settings : Settings)
    (provider prompt model baseUrl : String) {apiKey : Option String} {key : String}
    (hkey : truthyText apiKey = some key) :
    requestOpenaiCompatible settings provider prompt model baseUrl apiKey =
      requestWithRetry settings provider do
        return completionOf
          (← Call.post (completionRequest settings prompt model baseUrl key)) := by
  rw [requestOpenaiCompatible, hkey]
  rfl

/-- A request is refused without a post, or attempted. -/
theorem requestOpenaiCompatible_ensures_attempted (settings : Settings)
    (provider prompt model baseUrl : String) {apiKey : Option String} {key : String}
    (hkey : truthyText apiKey = some key) :
    (requestOpenaiCompatible settings provider prompt model baseUrl apiKey).Ensures
      fun events result =>
        (events = [⟨.isAllowed provider, false⟩] ∧ result = .error (.circuitOpen provider)) ∨
        ∃ before last rest, events = ⟨.isAllowed provider, true⟩ :: rest ∧
          Attempted provider (completionRequest settings prompt model baseUrl key)
            (settings.llmMaxRetries + 1) before last rest result := by
  rw [requestOpenaiCompatible_of_key settings provider prompt model baseUrl hkey]
  intro allowed
  cases allowed with
  | false => exact .inl ⟨rfl, rfl⟩
  | true =>
    refine (attempts_ensures_attempted provider _ settings.llmMaxRetries).mono
      fun rest result hrest => ?_
    obtain ⟨before, last, hrest⟩ := hrest
    exact .inr ⟨before, last, rest, rfl, hrest⟩

end

/-! ## The provider behind its breaker -/

/-- What the requests of a process meet: a breaker for every provider, a new one until it
is first used, the calls so far, and the posts among them. -/
structure Upstream where
  breakers : String → CircuitBreaker
  calls : ℕ
  posted : ℕ

def CircuitBreaker.told (cb : CircuitBreaker) (time : ℚ) :
    Except LlmError String → CircuitBreaker
  | .ok _ => cb.recordSuccess
  | .error _ => cb.recordFailure time

/-- A world with a clock, in which the posts come out as listed. -/
def upstream (clock : ℕ → ℚ) (outcomes : ℕ → PostOutcome) : World Op Op.Reply Upstream
  | .isAllowed provider, s =>
    let asked := (s.breakers provider).isAllowed (clock s.calls)
    (asked.1, ⟨Function.update s.breakers provider asked.2, s.calls + 1, s.posted⟩)
  | .recordSuccess provider, s =>
    ((), ⟨Function.update s.breakers provider (s.breakers provider).recordSuccess,
      s.calls + 1, s.posted⟩)
  | .recordFailure provider, s =>
    ((), ⟨Function.update s.breakers provider
      ((s.breakers provider).recordFailure (clock s.calls)), s.calls + 1, s.posted⟩)
  | .post _, s => (outcomes s.posted, ⟨s.breakers, s.calls + 1, s.posted + 1⟩)
  | op, s => (op.idle, ⟨s.breakers, s.calls + 1, s.posted⟩)

section
variable (clock : ℕ → ℚ) (outcomes : ℕ → PostOutcome)

lemma stateAfter_posts (request : CompletionRequest) (made : List PostOutcome) (s : Upstream) :
    stateAfter (upstream clock outcomes) (posts request made) s =
      ⟨s.breakers, s.calls + made.length, s.posted + made.length⟩ := by
  induction made generalizing s with
  | nil => rfl
  | cons outcome made ih =>
    show stateAfter (upstream clock outcomes) (posts request made)
      ⟨s.breakers, s.calls + 1, s.posted + 1⟩ = _
    rw [ih, List.length_cons]
    simp only [Upstream.mk.injEq, true_and]
    omega

/-- The posts of a run come out as listed. -/
lemma outcomes_of_trace {α : Type} {p : Coroutine α} {s : Upstream}
    (before : List (Event Op Op.Reply)) {rest : List (Event Op Op.Reply)}
    {request : CompletionRequest} {made : List PostOutcome}
    (h : p.trace (upstream clock outcomes) s = before ++ (posts request made ++ rest)) :
    made = (List.range made.length).map fun i =>
      outcomes ((stateAfter (upstream clock outcomes) before s).posted + i) := by
  induction made generalizing before with
  | nil => rfl
  | cons outcome made ih =>
    have hreply := reply_of_trace (upstream clock outcomes) before h
    have hrest := ih (before ++ [⟨.post request, outcome⟩]) (by
      rw [h, List.append_assoc]
      rfl)
    rw [stateAfter_append] at hrest
    rw [List.length_cons, List.range_succ_eq_map, List.map_cons, List.map_map]
    congr 1
    refine hrest.trans (List.map_congr_left fun i _ => ?_)
    show outcomes ((stateAfter (upstream clock outcomes) before s).posted + 1 + i) = _
    rw [Function.comp_apply, Nat.succ_eq_add_one, Nat.add_right_comm, Nat.add_assoc]

lemma stateAfter_closing (provider : String) (result : Except LlmError String) (s : Upstream) :
    (stateAfter (upstream clock outcomes) [closing provider result] s).breakers =
      Function.update s.breakers provider ((s.breakers provider).told (clock s.calls) result) := by
  cases result with
  | ok text => rfl
  | error e => rfl

end

/-! ## What a request amounts to -/

/-- The posts end with the first outcome that is not transient, and reach the limit
otherwise. -/
def PostsMade (outcomes : ℕ → PostOutcome) (limit made : ℕ) : Prop :=
  (∀ i, IsLeast {i | (outcomes i).isTransient = false} i → made = min (i + 1) limit) ∧
    ((∀ i, (outcomes i).isTransient = true) → made = limit)

section
variable [Runtime]

lemma Attempted.postsMade {provider : String} {request : CompletionRequest} {limit : ℕ}
    {before : List PostOutcome} {last : PostOutcome} {events : List (Event Op Op.Reply)}
    {result : Except LlmError String} {outcomes : ℕ → PostOutcome}
    (h : Attempted provider request limit before last events result)
    (hfirst : before = (List.range before.length).map outcomes)
    (hlast : last = outcomes before.length) : PostsMade outcomes limit (before.length + 1) := by
  subst hlast
  have hbefore : ∀ i < before.length, (outcomes i).isTransient = true := by
    intro i hi
    apply h.before_transient
    rw [hfirst]
    exact List.mem_map.mpr ⟨i, List.mem_range.mpr hi, rfl⟩
  constructor
  · intro i hi
    have hle : before.length ≤ i := by
      by_contra hlt
      have hdecisive : (outcomes i).isTransient = false := hi.1
      rw [hbefore i (by omega)] at hdecisive
      exact absurd hdecisive (by decide)
    have hlimit := h.length_lt
    rcases Bool.eq_false_or_eq_true (outcomes before.length).isTransient with
      htransient | hdecisive
    · have hused := h.last_of_transient htransient
      have hne : i ≠ before.length := by
        rintro rfl
        have hdecisive : (outcomes before.length).isTransient = false := hi.1
        rw [htransient] at hdecisive
        exact absurd hdecisive (by decide)
      omega
    · have hleast : i ≤ before.length := hi.2 hdecisive
      omega
  · intro hall
    exact h.last_of_transient (hall _)

/-- A request with a key is refused by its breaker without a post. Or it posts as often as
the outcomes ask for and the retries allow, ends as the last post does, and changes its
breaker by one success when it returns, by one failure when it raises. -/
theorem request_accounted (clock : ℕ → ℚ) (outcomes : ℕ → PostOutcome)
    (breakers : String → CircuitBreaker) (settings : Settings)
    (provider prompt model baseUrl apiKey : String) (hkey : apiKey ≠ "") :
    let request := requestOpenaiCompatible settings provider prompt model baseUrl (some apiKey)
    let w := upstream clock outcomes
    let start : Upstream := ⟨breakers, 0, 0⟩
    let asked := (breakers provider).isAllowed (clock 0)
    let result := request.result w start
    (asked.1 = false ∧ result = .error (.circuitOpen provider) ∧
        request.trace w start = [⟨.isAllowed provider, false⟩]) ∨
      (asked.1 = true ∧ ∃ made, PostsMade outcomes (settings.llmMaxRetries + 1) made ∧
        result = completionOf (outcomes (made - 1)) ∧
        request.trace w start = ⟨.isAllowed provider, true⟩ ::
          posts (completionRequest settings prompt model baseUrl apiKey)
            ((List.range made).map outcomes) ++ [closing provider result] ∧
        (request.final w start).breakers =
          Function.update breakers provider (asked.2.told (clock (made + 1)) result)) := by
  intro request w start asked result
  have htruthy : truthyText (some apiKey) = some apiKey := by
    simpa [truthyText, Option.filter_some] using hkey
  have hended := (requestOpenaiCompatible_ensures_attempted settings provider prompt model baseUrl
    htruthy).run w start
  rcases hended with ⟨htrace, hresult⟩ | ⟨before, last, rest, htrace, hattempted⟩
  · have hasked := reply_of_trace w [] htrace
    exact .inl ⟨hasked.symm, hresult, htrace⟩
  · have hasked := reply_of_trace w [] htrace
    rw [hattempted.events_eq] at htrace
    have hstart : stateAfter w [⟨.isAllowed provider, true⟩] start =
        ⟨Function.update breakers provider asked.2, 1, 0⟩ := rfl
    have hposted := outcomes_of_trace clock outcomes [⟨.isAllowed provider, true⟩] htrace
    rw [List.length_append, List.length_singleton, hstart] at hposted
    simp only [Nat.zero_add] at hposted
    rw [hposted] at htrace
    have hfinal : (request.final w start).breakers =
        Function.update breakers provider
          (asked.2.told (clock (before.length + 1 + 1)) result) := by
      rw [final_eq_stateAfter, htrace, ← List.singleton_append, stateAfter_append,
        stateAfter_append, hstart, stateAfter_posts, stateAfter_closing]
      simp only [Function.update_self, Function.update_idem, List.length_map, List.length_range,
        Nat.add_comm 1]
      rfl
    rw [List.range_succ, List.map_append, List.map_singleton] at hposted
    obtain ⟨hfirst, hlast⟩ := List.append_inj' hposted rfl
    have hlast : last = outcomes before.length := List.singleton_inj.mp hlast
    have hresult : result = completionOf (outcomes before.length) := by
      rw [← hlast]
      exact hattempted.result_eq
    exact .inr ⟨hasked.symm, before.length + 1, hattempted.postsMade hfirst hlast, hresult, htrace,
      hfinal⟩

end

/-- A server error, and then an answer. -/
def recovering : ℕ → PostOutcome
  | 0 => .response 503 .empty
  | _ => .response 200 (.json (.obj [("choices",
      .arr [.obj [("message", .obj [("content", .str "hi")])]])]))

theorem request_accounted_sample :
    letI := Runtime.ascii
    let request := requestOpenaiCompatible .default "openrouter" "hello" "openai"
      "https://text.pollinations.ai/openai" (some "key")
    let w := upstream (fun n => n) recovering
    let start : Upstream := ⟨fun _ => .default, 0, 0⟩
    request.result w start = .ok "hi" ∧ PostsMade recovering 3 2 := by
  let ascii := Runtime.ascii
  rcases request_accounted (fun n => n) recovering (fun _ => .default) .default "openrouter" "hello"
    "openai" "https://text.pollinations.ai/openai" "key" (by decide) with
    ⟨hrefused, -⟩ | ⟨-, made, hmade, hresult, -⟩
  · exact absurd hrefused (by decide)
  · have hleast : IsLeast {i | (recovering i).isTransient = false} 1 := by
      refine ⟨rfl, fun i hi => ?_⟩
      rcases Nat.eq_zero_or_pos i with rfl | hpos
      · exact absurd hi (by decide)
      · exact hpos
    obtain rfl : made = 2 := hmade.1 1 hleast
    exact ⟨hresult, hmade⟩

end InferenceControlPlane.Gateway
