import InferenceControlPlane.Gateway.Admission

/-!
# Calls over time

Every aligned bucket admits its first calls up to the limit. An interval of one window
meets at most two buckets, so it sees at most twice the limit, and it can see that many.
-/
namespace InferenceControlPlane.Gateway
open Python Program

/-- Calls on one identifier at the given times, each with its result: the history of one
counter. -/
def timedCalls (scope : RateScope) (identifier : String) (limit windowSeconds : ℕ) :
    CounterState → List ℚ≥0 → List (ℚ≥0 × RateLimitResult)
  | _, [] => []
  | s, t :: times =>
    let call := checkRateLimit true scope identifier limit windowSeconds
    let current := { s with clock := t }
    (t, call.result (CounterState.answer Op.idle) current) ::
      timedCalls scope identifier limit windowSeconds
        (call.final (CounterState.answer Op.idle) current) times

/-- The allowed calls among those whose time satisfies `p`: of any bucket, there are at most as
many as the limit. -/
def allowedWhere (p : ℚ≥0 → Bool) (served : List (ℚ≥0 × RateLimitResult)) : ℕ :=
  served.countP fun e => p e.1 && e.2.allowed

section
variable {scope : RateScope} {identifier : String} {limit windowSeconds : ℕ}

/-- The counters after some calls: a counter for each bucket that was called in, with the
number of its calls, which expires beyond the bucket. -/
structure Tallied (scope : RateScope) (identifier : String) (windowSeconds : ℕ)
    (times : List ℚ≥0) (s : CounterState) : Prop where
  absent : ∀ b, times.countP (bucketOf windowSeconds · = b) = 0 →
    s.counters (bucketKey scope identifier b) = none
  present : ∀ b, times.countP (bucketOf windowSeconds · = b) ≠ 0 →
    ∃ deadline : ℚ≥0, s.counters (bucketKey scope identifier b) =
        some ⟨times.countP (bucketOf windowSeconds · = b), some deadline⟩ ∧
      (((b + 1) * windowSeconds : ℕ) : ℚ≥0) ≤ deadline

/-- What one call at time `t` finds and leaves, in terms of the counter of its bucket. -/
theorem call_spec {s : CounterState} {t : ℚ≥0} (hclock : s.clock = t) {n : ℕ}
    (hcounter : (n = 0 ∧ s.counters (bucketKey scope identifier
      (bucketOf windowSeconds t)) = none) ∨
      ∃ deadline : ℚ≥0, n ≠ 0 ∧ t < deadline ∧
        s.counters (bucketKey scope identifier (bucketOf windowSeconds t)) =
          some ⟨n, some deadline⟩) :
    ((checkRateLimit true scope identifier limit windowSeconds).result
        (CounterState.answer Op.idle) s).allowed = decide (n + 1 ≤ limit) ∧
      ∃ deadline : ℚ≥0, ((checkRateLimit true scope identifier limit windowSeconds).final
          (CounterState.answer Op.idle) s).counters =
        Function.update s.counters (bucketKey scope identifier (bucketOf windowSeconds t))
          (some ⟨n + 1, some deadline⟩) ∧
        (deadline = t + windowSeconds ∨
          s.counters (bucketKey scope identifier (bucketOf windowSeconds t)) =
            some ⟨n, some deadline⟩) := by
  subst hclock
  rw [checkRateLimit_eq, result_call, final_call]
  generalize hkey : bucketKey scope identifier (bucketOf windowSeconds s.clock) = key at hcounter ⊢
  rcases hcounter with ⟨rfl, hnone⟩ | ⟨deadline, hn, hahead, hsome⟩
  · have hincr := CounterState.incrTtl_fresh (CounterState.live_eq_none hnone)
    have hlive : (s.put key ⟨1, none⟩).live key = some ⟨1, none⟩ :=
      CounterState.live_eq (Function.update_self ..) (by simp)
    have hexpire := CounterState.expire_live hlive windowSeconds
    have hresult : (incrementing key limit windowSeconds).result (CounterState.answer Op.idle) s =
        limitResult limit 1 windowSeconds := by
      simp [incrementing, CounterState.answer, hincr, afterCount, expiring]
    have hfinal : (incrementing key limit windowSeconds).final (CounterState.answer Op.idle) s =
        (s.put key ⟨1, none⟩).expire key windowSeconds := by
      simp [incrementing, CounterState.answer, hincr, afterCount, expiring]
    constructor
    · change ((incrementing (bucketKey scope identifier (bucketOf windowSeconds s.clock)) limit
        windowSeconds).result (CounterState.answer Op.idle) s).allowed = _
      rw [hkey, hresult, Bool.eq_iff_iff, limitResult_allowed, decide_eq_true_iff]
      omega
    · refine ⟨s.clock + windowSeconds, ?_, Or.inl rfl⟩
      change ((incrementing (bucketKey scope identifier (bucketOf windowSeconds s.clock)) limit
        windowSeconds).final (CounterState.answer Op.idle) s).counters = _
      rw [hkey, hfinal, hexpire]
      exact Function.update_idem ..
  · have hlive := CounterState.live_eq hsome (by rintro d ⟨⟩; exact hahead)
    obtain ⟨ttl, hincr⟩ := CounterState.incrTtl_live hlive
    have hone : ¬ ((n : ℤ) + 1 = 1) := by omega
    have hresult : (incrementing key limit windowSeconds).result (CounterState.answer Op.idle) s =
        limitResult limit (n + 1) ttl := by
      simp [incrementing, CounterState.answer, hincr, afterCount, hn]
    have hfinal : (incrementing key limit windowSeconds).final (CounterState.answer Op.idle) s =
        s.put key ⟨n + 1, some deadline⟩ := by
      simp [incrementing, CounterState.answer, hincr, afterCount, hn]
    constructor
    · change ((incrementing (bucketKey scope identifier (bucketOf windowSeconds s.clock)) limit
        windowSeconds).result (CounterState.answer Op.idle) s).allowed = _
      rw [hkey, hresult, Bool.eq_iff_iff, limitResult_allowed, decide_eq_true_iff]
      omega
    · refine ⟨deadline, ?_, Or.inr hsome⟩
      change ((incrementing (bucketKey scope identifier (bucketOf windowSeconds s.clock)) limit
        windowSeconds).final (CounterState.answer Op.idle) s).counters = _
      rw [hkey, hfinal]
      rfl

/-- One call more is tallied, and passes if its bucket has room. -/
theorem Tallied.call {times : List ℚ≥0} {s : CounterState}
    (h : Tallied scope identifier windowSeconds times s) (hw : 0 < windowSeconds) (limit : ℕ)
    (t : ℚ≥0) : ((checkRateLimit true scope identifier limit windowSeconds).result
        (CounterState.answer Op.idle) { s with clock := t }).allowed =
      decide (times.countP (bucketOf windowSeconds · = bucketOf windowSeconds t) + 1 ≤ limit) ∧
    Tallied scope identifier windowSeconds (t :: times)
      ((checkRateLimit true scope identifier limit windowSeconds).final
        (CounterState.answer Op.idle) { s with clock := t }) := by
  obtain ⟨hstart, hend⟩ := (bucketOf_eq_iff hw t).mp rfl
  have hcounter : (times.countP (bucketOf windowSeconds · = bucketOf windowSeconds t) = 0 ∧
      s.counters (bucketKey scope identifier (bucketOf windowSeconds t)) = none) ∨
      ∃ deadline : ℚ≥0, times.countP (bucketOf windowSeconds · = bucketOf windowSeconds t) ≠ 0 ∧
        t < deadline ∧ s.counters (bucketKey scope identifier (bucketOf windowSeconds t)) =
          some ⟨times.countP (bucketOf windowSeconds · = bucketOf windowSeconds t),
            some deadline⟩ := by
    by_cases hn : times.countP (bucketOf windowSeconds · = bucketOf windowSeconds t) = 0
    · exact Or.inl ⟨hn, h.absent _ hn⟩
    · obtain ⟨deadline, hsome, hdeadline⟩ := h.present _ hn
      exact Or.inr ⟨deadline, hn, hend.trans_le hdeadline, hsome⟩
  obtain ⟨hallowed, deadline, hfinal, hdeadline⟩ :=
    call_spec (s := { s with clock := t }) rfl hcounter
  have hbeyond : (((bucketOf windowSeconds t + 1) * windowSeconds : ℕ) : ℚ≥0) ≤ deadline := by
    rcases hdeadline with rfl | hsame
    · rw [Nat.succ_mul, Nat.cast_add]
      exact add_le_add_left hstart _
    · by_cases hn : times.countP (bucketOf windowSeconds · = bucketOf windowSeconds t) = 0
      · rw [h.absent _ hn] at hsame
        cases hsame
      · obtain ⟨d, hsome, hd⟩ := h.present _ hn
        rw [hsome] at hsame
        cases hsame
        exact hd
  refine ⟨hallowed, ?_, ?_⟩
  · intro b hb
    rw [List.countP_cons] at hb
    have hne : bucketOf windowSeconds t ≠ b := by
      rintro rfl
      simp at hb
    rw [hfinal, Function.update_of_ne fun hkey => hne (bucketKey_injective hkey).symm]
    exact h.absent b (by omega)
  · intro b hb
    rw [hfinal]
    rcases eq_or_ne (bucketOf windowSeconds t) b with rfl | hne
    · refine ⟨deadline, ?_, hbeyond⟩
      rw [Function.update_self, List.countP_cons, if_pos (by simp)]
      norm_cast
    · rw [List.countP_cons, if_neg (by simpa using hne), Nat.add_zero] at hb ⊢
      rw [Function.update_of_ne fun hkey => hne (bucketKey_injective hkey).symm]
      exact h.present b hb

/-- In every bucket, the calls pass until the limit is reached. -/
theorem allowed_in_bucket (hw : 0 < windowSeconds) (limit b : ℕ) (times : List ℚ≥0)
    {before : List ℚ≥0} {s : CounterState}
    (h : Tallied scope identifier windowSeconds before s) :
    allowedWhere (bucketOf windowSeconds · = b)
        (timedCalls scope identifier limit windowSeconds s times) +
      min (before.countP (bucketOf windowSeconds · = b)) limit =
    min (before.countP (bucketOf windowSeconds · = b) +
      times.countP (bucketOf windowSeconds · = b)) limit := by
  induction times generalizing before s with
  | nil => simp [timedCalls, allowedWhere]
  | cons t times ih =>
    obtain ⟨hallowed, hnext⟩ := h.call hw limit t
    have hrest := ih hnext
    simp only [timedCalls, allowedWhere, List.countP_cons, hallowed] at hrest ⊢
    by_cases hb : bucketOf windowSeconds t = b
    · simp only [hb, decide_true, Bool.true_and, if_true, decide_eq_true_eq] at hrest ⊢
      split_ifs with hroom <;> omega
    · simp only [hb, decide_false, Bool.false_and, if_false, Bool.false_eq_true] at hrest ⊢
      omega

end

/-- The calls of an interval of one window fall into two adjacent buckets. -/
lemma bucketOf_interval {windowSeconds : ℕ} (hw : 0 < windowSeconds) {start t : ℚ≥0}
    (h1 : start ≤ t) (h2 : t ≤ start + windowSeconds) :
    bucketOf windowSeconds t = bucketOf windowSeconds start ∨
      bucketOf windowSeconds t = bucketOf windowSeconds start + 1 := by
  have hlow : bucketOf windowSeconds start ≤ bucketOf windowSeconds t :=
    Nat.div_le_div_right (Nat.floor_mono h1)
  have hhigh : bucketOf windowSeconds t ≤ bucketOf windowSeconds start + 1 := by
    have hfloor : ⌊t⌋₊ ≤ ⌊start⌋₊ + windowSeconds := by
      rw [← Nat.floor_add_natCast zero_le]
      exact Nat.floor_mono h2
    calc ⌊t⌋₊ / windowSeconds ≤ (⌊start⌋₊ + windowSeconds) / windowSeconds :=
        Nat.div_le_div_right hfloor
      _ = ⌊start⌋₊ / windowSeconds + 1 := Nat.add_div_right _ hw
  omega

/-- Calls on one identifier at any times, with Redis never failing: each aligned bucket
allows exactly its calls up to the limit, and every interval of one window at most twice
the limit. -/
theorem allowed_per_window (scope : RateScope) (identifier : String) (limit windowSeconds : ℕ)
    (hw : 1 ≤ windowSeconds) (s : CounterState)
    (hfresh : ∀ b, s.counters (bucketKey scope identifier b) = none) (times : List ℚ≥0) :
    (∀ b, allowedWhere (bucketOf windowSeconds · = b)
        (timedCalls scope identifier limit windowSeconds s times) =
      min (times.countP (bucketOf windowSeconds · = b)) limit) ∧
    ∀ start : ℚ≥0, allowedWhere (fun t => start ≤ t && t ≤ start + windowSeconds)
        (timedCalls scope identifier limit windowSeconds s times) ≤ 2 * limit := by
  have hempty : Tallied scope identifier windowSeconds [] s :=
    ⟨fun b _ => hfresh b, fun b hb => absurd rfl hb⟩
  have hbucket : ∀ b, allowedWhere (bucketOf windowSeconds · = b)
      (timedCalls scope identifier limit windowSeconds s times) =
        min (times.countP (bucketOf windowSeconds · = b)) limit := by
    intro b
    have h := allowed_in_bucket hw limit b times hempty
    simpa using h
  refine ⟨hbucket, fun start => ?_⟩
  have h1 := hbucket (bucketOf windowSeconds start)
  have h2 := hbucket (bucketOf windowSeconds start + 1)
  have hsplit : ∀ served : List (ℚ≥0 × RateLimitResult),
      allowedWhere (fun t => start ≤ t && t ≤ start + windowSeconds) served ≤
        allowedWhere (bucketOf windowSeconds · = bucketOf windowSeconds start) served +
          allowedWhere (bucketOf windowSeconds · = bucketOf windowSeconds start + 1) served := by
    intro served
    induction served with
    | nil => simp [allowedWhere]
    | cons e served ih =>
      simp only [allowedWhere, List.countP_cons] at ih ⊢
      by_cases hin : start ≤ e.1 ∧ e.1 ≤ start + windowSeconds
      · have hor := bucketOf_interval hw hin.1 hin.2
        by_cases hallowed : e.2.allowed = true
        · rcases hor with hb | hb <;> simp [hin, hallowed, hb] <;> omega
        · simp [hallowed]
          omega
      · have hout : (decide (start ≤ e.1) && decide (e.1 ≤ start + windowSeconds)) = false := by
          simpa using hin
        simp only [hout, Bool.false_and, Bool.false_eq_true, if_false]
        omega
  have hle := hsplit (timedCalls scope identifier limit windowSeconds s times)
  omega

/-- Two calls of one minute and a third in the next. -/
theorem allowed_per_window_sample :
    (∀ b, allowedWhere (bucketOf 60 · = b)
        (timedCalls .user "team:ana" 1 60 ⟨0, fun _ => none⟩ [7, 8, 61]) =
      min ([7, 8, 61].countP (bucketOf 60 · = b)) 1) ∧
    ∀ start : ℚ≥0, allowedWhere (fun t => start ≤ t && t ≤ start + (60 : ℕ))
        (timedCalls .user "team:ana" 1 60 ⟨0, fun _ => none⟩ [7, 8, 61]) ≤ 2 * 1 :=
  allowed_per_window .user "team:ana" 1 60 (by decide) ⟨0, fun _ => none⟩ (fun _ => rfl) [7, 8, 61]

/-- The windows are fixed buckets: two calls one second apart, on either side of the end of a
bucket, pass a limit of one call per window. -/
theorem minute_admits_two :
    1 < allowedWhere (fun t => 59 ≤ t && t < 59 + 60)
      (timedCalls .user "team:ana" 1 60 ⟨0, fun _ => none⟩ [59, 60]) := by
  decide +kernel

end InferenceControlPlane.Gateway
