import InferenceControlPlane.Gateway.LlmClient
import Mathlib.Tactic.Linarith
import Mathlib.Data.List.Induction

/-!
# The circuit breaker's history

The breaker is a machine with three states, a counter and a time. What it answers is a
predicate of the history: enough failures since the last success, the latest of them
not long ago.
-/
namespace InferenceControlPlane.Gateway

inductive BreakerEvent where
  | failure
  | success
  | asked
  deriving DecidableEq, Repr

namespace CircuitBreaker

/-- One event at a time of the clock: a question to the breaker, whose answer is kept, or a
success or a failure that it is told. -/
def handle (cb : CircuitBreaker) (e : ℚ × BreakerEvent) : CircuitBreaker :=
  match e.2 with
  | .failure => cb.recordFailure e.1
  | .success => cb.recordSuccess
  | .asked => (cb.isAllowed e.1).2

def run (failureThreshold : ℕ) (recoveryTimeout : ℚ) (history : List (ℚ × BreakerEvent)) :
    CircuitBreaker :=
  history.foldl handle (.new failureThreshold recoveryTimeout)

end CircuitBreaker

/-! ## What the history says -/

/-- The failures since the last success, or since creation: the specification of the counter, read
off the history alone. -/
def failuresSinceSuccess (history : List (ℚ × BreakerEvent)) : ℕ :=
  (history.reverse.takeWhile fun e => e.2 != .success).countP fun e => e.2 == .failure

/-- The time of the latest failure. -/
def latestFailure (history : List (ℚ × BreakerEvent)) : Option ℚ :=
  (history.reverse.find? fun e => e.2 == .failure).map Prod.fst

@[simp] lemma failuresSinceSuccess_snoc (history : List (ℚ × BreakerEvent)) (t : ℚ)
    (e : BreakerEvent) : failuresSinceSuccess (history ++ [(t, e)]) =
      match e with
      | .failure => failuresSinceSuccess history + 1
      | .success => 0
      | .asked => failuresSinceSuccess history := by
  cases e <;> simp [failuresSinceSuccess]

@[simp] lemma latestFailure_snoc (history : List (ℚ × BreakerEvent)) (t : ℚ)
    (e : BreakerEvent) : latestFailure (history ++ [(t, e)]) =
      if e = .failure then some t else latestFailure history := by
  cases e <;> simp [latestFailure]

lemma latestFailure_of_failures {history : List (ℚ × BreakerEvent)}
    (h : 0 < failuresSinceSuccess history) : ∃ last, latestFailure history = some last := by
  induction history using List.reverseRecOn with
  | nil => simp [failuresSinceSuccess] at h
  | append_singleton history e ih =>
    obtain ⟨t, e⟩ := e
    cases e with
    | failure => exact ⟨t, by simp⟩
    | success => simp at h
    | asked => simpa using ih (by simpa using h)

/-! ## The machine and its history -/

/-- What the three states, the counter and the time of the breaker mean after a history: the
failures since the last success, and the time of the latest one. -/
structure Tracks (failureThreshold : ℕ) (recoveryTimeout : ℚ) (history : List (ℚ × BreakerEvent))
    (cb : CircuitBreaker) : Prop where
  threshold : cb.failureThreshold = failureThreshold
  recovery : cb.recoveryTimeout = recoveryTimeout
  count : cb.failureCount = failuresSinceSuccess history
  last : ∀ last, latestFailure history = some last → cb.lastFailureTime = last
  closed : cb.state = .closed ↔ failuresSinceSuccess history < failureThreshold
  halfOpen : cb.state = .halfOpen → ∃ e ∈ history, recoveryTimeout < e.1 - cb.lastFailureTime

section
variable {failureThreshold : ℕ} {recoveryTimeout : ℚ} {history : List (ℚ × BreakerEvent)}
  {cb : CircuitBreaker}

lemma tracks_new (hthreshold : 1 ≤ failureThreshold) :
    Tracks failureThreshold recoveryTimeout [] (.new failureThreshold recoveryTimeout) := by
  constructor
  · rfl
  · rfl
  · rfl
  · simp [latestFailure]
  · have hnone : failuresSinceSuccess [] = 0 := rfl
    simp only [CircuitBreaker.new, hnone, true_iff]
    omega
  · simp [CircuitBreaker.new]

theorem Tracks.failure (h : Tracks failureThreshold recoveryTimeout history cb) (t : ℚ) :
    Tracks failureThreshold recoveryTimeout (history ++ [(t, .failure)]) (cb.recordFailure t) := by
  constructor
  · exact h.threshold
  · exact h.recovery
  · simp [CircuitBreaker.recordFailure, h.count]
  · simp [CircuitBreaker.recordFailure]
  · simp only [CircuitBreaker.recordFailure, failuresSinceSuccess_snoc, h.threshold, h.count]
    split_ifs with hopen
    · simp only [false_iff]
      omega
    · rw [h.closed]
      omega
  · simp only [CircuitBreaker.recordFailure, h.threshold, h.count]
    split_ifs with hopen
    · simp
    · -- below the threshold the breaker was closed
      intro hhalf
      have hclosed := h.closed.mpr (by omega)
      rw [hhalf] at hclosed
      cases hclosed

theorem Tracks.success (h : Tracks failureThreshold recoveryTimeout history cb)
    (hthreshold : 1 ≤ failureThreshold) (t : ℚ) :
    Tracks failureThreshold recoveryTimeout (history ++ [(t, .success)]) cb.recordSuccess := by
  constructor
  · exact h.threshold
  · exact h.recovery
  · simp [CircuitBreaker.recordSuccess]
  · simpa [CircuitBreaker.recordSuccess] using h.last
  · simp only [CircuitBreaker.recordSuccess, failuresSinceSuccess_snoc, true_iff]
    omega
  · simp [CircuitBreaker.recordSuccess]

/-- A question opens the breaker half at most, and only once the timeout is over. -/
theorem Tracks.asked (h : Tracks failureThreshold recoveryTimeout history cb) (t : ℚ) :
    Tracks failureThreshold recoveryTimeout (history ++ [(t, .asked)]) (cb.isAllowed t).2 := by
  have hkeep : Tracks failureThreshold recoveryTimeout (history ++ [(t, .asked)]) cb := by
    constructor
    · exact h.threshold
    · exact h.recovery
    · simpa using h.count
    · simpa using h.last
    · simpa using h.closed
    · intro hhalf
      obtain ⟨e, he, hover⟩ := h.halfOpen hhalf
      exact ⟨e, List.mem_append_left _ he, hover⟩
  unfold CircuitBreaker.isAllowed
  cases hstate : cb.state with
  | closed => exact hkeep
  | halfOpen => exact hkeep
  | opened =>
    dsimp only
    split_ifs with hover
    · constructor
      · exact hkeep.threshold
      · exact hkeep.recovery
      · exact hkeep.count
      · exact hkeep.last
      · have hclosed := hkeep.closed
        rw [hstate] at hclosed
        simpa using hclosed
      · intro _
        exact ⟨(t, .asked), by simp, h.recovery ▸ hover⟩
    · exact hkeep

theorem tracks_run (hthreshold : 1 ≤ failureThreshold) (history : List (ℚ × BreakerEvent)) :
    Tracks failureThreshold recoveryTimeout history
      (CircuitBreaker.run failureThreshold recoveryTimeout history) := by
  induction history using List.reverseRecOn with
  | nil => exact tracks_new hthreshold
  | append_singleton history e ih =>
    obtain ⟨t, e⟩ := e
    rw [CircuitBreaker.run, List.foldl_append]
    cases e with
    | failure => exact ih.failure t
    | success => exact ih.success hthreshold t
    | asked => exact ih.asked t

end

/-- The breaker refuses at time `t` exactly when at least the threshold of failures have
come since the last success, and the latest failure is no further back than the recovery
timeout. -/
theorem isAllowed_eq_false_iff (failureThreshold : ℕ) (recoveryTimeout : ℚ)
    (hthreshold : 1 ≤ failureThreshold) (history : List (ℚ × BreakerEvent)) (t : ℚ)
    (hclock : (history.map Prod.fst ++ [t]).Pairwise (· ≤ ·)) :
    ((CircuitBreaker.run failureThreshold recoveryTimeout history).isAllowed t).1 = false ↔
      failureThreshold ≤ failuresSinceSuccess history ∧
        ∃ last, latestFailure history = some last ∧ t - last ≤ recoveryTimeout := by
  have h : Tracks failureThreshold recoveryTimeout history
      (CircuitBreaker.run failureThreshold recoveryTimeout history) :=
    tracks_run hthreshold history
  generalize CircuitBreaker.run failureThreshold recoveryTimeout history = cb at h
  have hbefore : ∀ e ∈ history, e.1 ≤ t := by
    intro e he
    rw [List.pairwise_append] at hclock
    exact hclock.2.2 e.1 (List.mem_map_of_mem he) t (List.mem_singleton_self t)
  unfold CircuitBreaker.isAllowed
  cases hstate : cb.state with
  | closed =>
    have hbelow := h.closed.mp hstate
    simp only [Bool.true_eq_false, false_iff]
    omega
  | opened =>
    have habove : failureThreshold ≤ failuresSinceSuccess history := by
      by_contra hbelow
      rw [h.closed.mpr (by omega)] at hstate
      cases hstate
    obtain ⟨last, hlast⟩ := latestFailure_of_failures (by omega : 0 < failuresSinceSuccess history)
    dsimp only
    rw [h.recovery, h.last last hlast]
    split_ifs with hover
    · simp only [false_iff, not_and, not_exists]
      intro _ last' hlast'
      rw [hlast] at hlast'
      cases hlast'
      linarith
    · exact iff_of_true rfl ⟨habove, last, hlast, not_lt.mp hover⟩
  | halfOpen =>
    have habove : failureThreshold ≤ failuresSinceSuccess history := by
      by_contra hbelow
      rw [h.closed.mpr (by omega)] at hstate
      cases hstate
    obtain ⟨last, hlast⟩ := latestFailure_of_failures (by omega : 0 < failuresSinceSuccess history)
    obtain ⟨e, he, hover⟩ := h.halfOpen hstate
    rw [h.last last hlast] at hover
    have hlate := hbefore e he
    simp only [Bool.true_eq_false, false_iff, not_and, not_exists]
    intro _ last' hlast'
    rw [hlast] at hlast'
    cases hlast'
    linarith

/-- Two failures open a breaker of threshold two; a late success closes it again. -/
theorem isAllowed_eq_false_iff_sample :
    ((CircuitBreaker.run 2 30 [(1, .failure), (2, .failure), (33, .asked),
      (34, .failure)]).isAllowed
        64).1 = false ∧
      ((CircuitBreaker.run 2 30 [(1, .failure), (2, .failure), (3, .success),
        (4, .failure)]).isAllowed
        5).1 = true := by
  constructor
  · rw [isAllowed_eq_false_iff 2 30 (by decide) _ 64 (by decide +kernel)]
    exact ⟨by decide, 34, rfl, by norm_num⟩
  · rw [← Bool.not_eq_false, isAllowed_eq_false_iff 2 30 (by decide) _ 5 (by decide +kernel)]
    rintro ⟨hcount, -⟩
    exact absurd hcount (by decide)

end InferenceControlPlane.Gateway
