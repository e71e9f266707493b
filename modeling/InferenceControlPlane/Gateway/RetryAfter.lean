import InferenceControlPlane.Gateway.Admission
import InferenceControlPlane.Interleaving

/-!
# What a denied call is told

A denied call advertises the time to live that came with its increment. The counter has
none while the caller that saw count one has yet to set it, and a call that increments
after its bucket has ended meets an expiry that may be near. In all other cases the
advertised delay leads past the bucket.
-/
namespace InferenceControlPlane.Gateway
open Python Program

/-! ## Seconds -/

/-- The clock that goes on in whole seconds. -/
def SecondTicks (s s' : CounterState) : Prop := Ticks s s' ∧ ∃ n : ℕ, s'.clock = n

/-- Redis and the shared clock without failures: an increment returns the new count, with the time
to live that it reads. -/
def Serves (s : CounterState) (op : Op) (r : Op.Reply op) (s' : CounterState) : Prop :=
  ∃ rest, CounterState.answer rest op s = (r, s')

lemma bucketOf_natCast (windowSeconds n : ℕ) : bucketOf windowSeconds n = n / windowSeconds := by
  rw [bucketOf, Nat.floor_natCast]

/-- A second leads to a later bucket exactly if it is the last of its bucket. -/
lemma bucketOf_succ_iff (windowSeconds n : ℕ) :
    n / windowSeconds < (n + 1) / windowSeconds ↔ windowSeconds ∣ n + 1 := by
  rw [Nat.succ_div]
  split_ifs with h <;> simp [h]

/-- The clock stands at a full second, and the counters of an identifier that have an expiry have
it at one past the end of their bucket. -/
structure Dated (scope : RateScope) (identifier : String) (windowSeconds : ℕ)
    (s : CounterState) : Prop where
  seconds : ∃ n : ℕ, s.clock = n
  counters : ∀ b c, s.counters (bucketKey scope identifier b) = some c →
    1 ≤ c.count ∧ ∀ d, c.deadline = some d → (b + 1) * windowSeconds ≤ ⌊d⌋₊ ∧ ∃ n : ℕ, d = n

/-- The denied call that was incremented in state `s` on the counter of bucket `b` could
not be misled: it opened the counter itself; or the counter had an expiry, which lies in a
later bucket unless the call came late for its own; or the clock was at the last second of
a bucket. -/
def Forewarned (scope : RateScope) (identifier : String) (windowSeconds b : ℕ)
    (s : CounterState) : Prop :=
  s.live (bucketKey scope identifier b) = none ∨
    ∃ c, s.live (bucketKey scope identifier b) = some c ∧
      ((∃ d, c.deadline = some d ∧ (bucketOf windowSeconds s.clock = b ∨
          bucketOf windowSeconds s.clock < bucketOf windowSeconds d)) ∨
        c.deadline = none ∧ windowSeconds ∣ ⌊s.clock⌋₊ + 1)

section
variable {scope : RateScope} {identifier : String} {limit : ℤ} {windowSeconds : ℕ}

lemma mem_of_live {s : CounterState} {key : String} {c : Counter} (h : s.live key = some c) :
    s.counters key = some c ∧ ∀ d, c.deadline = some d → s.clock < d := by
  obtain ⟨hmem, hall⟩ := Option.filter_eq_some_iff.mp h
  refine ⟨hmem, fun d hd => ?_⟩
  rw [hd] at hall
  simpa using hall

/-! ## What a counter tells -/

/-- The delay of a denied call that found a live counter leads to a later bucket exactly
if the call was forewarned. -/
theorem later_iff_of_live (hw : 1 ≤ windowSeconds) {s : CounterState} {b : ℕ} {c : Counter}
    (hdated : Dated scope identifier windowSeconds s)
    (hlive : s.live (bucketKey scope identifier b) = some c) (count : ℤ)
    (hdenied : (limitResult limit count (s.ttl c)).allowed = false) :
    bucketOf windowSeconds s.clock < bucketOf windowSeconds
        (s.clock + (limitResult limit count (s.ttl c)).retryAfterSeconds.toNat) ↔
      Forewarned scope identifier windowSeconds b s := by
  obtain ⟨n, hn⟩ := hdated.seconds
  obtain ⟨hstored, hahead⟩ := mem_of_live hlive
  have hretry : (limitResult limit count (s.ttl c)).retryAfterSeconds = max (s.ttl c) 1 := by
    have hover : ¬count ≤ limit := by
      rw [← limitResult_allowed limit count (s.ttl c), hdenied]
      decide
    rw [limitResult, if_neg hover]
  have hfore : Forewarned scope identifier windowSeconds b s ↔
      (∃ d, c.deadline = some d ∧ (bucketOf windowSeconds s.clock = b ∨
          bucketOf windowSeconds s.clock < bucketOf windowSeconds d)) ∨
        c.deadline = none ∧ windowSeconds ∣ ⌊s.clock⌋₊ + 1 := by
    simp [Forewarned, hlive]
  rw [hretry, hfore, hn]
  cases hdeadline : c.deadline with
  | none =>
    have httl : s.ttl c = -1 := by rw [CounterState.ttl, hdeadline]
    have hone : (n : ℚ≥0) + ((max (-1 : ℤ) 1).toNat : ℚ≥0) = ((n + 1 : ℕ) : ℚ≥0) := by
      norm_num
    rw [httl, hone, bucketOf_natCast, bucketOf_natCast, bucketOf_succ_iff, Nat.floor_natCast]
    simp
  | some d =>
    obtain ⟨hpast, m, rfl⟩ := (hdated.counters b c hstored).2 d hdeadline
    have hlt : n < m := by
      have hclock := hahead _ hdeadline
      rw [hn] at hclock
      exact_mod_cast hclock
    have httl : s.ttl c = (m : ℤ) - n := by
      rw [CounterState.ttl, hdeadline, hn]
      have hcast : (((m : ℚ≥0) : ℚ) - ((n : ℚ≥0) : ℚ) + 1 / 2) =
          (((m : ℤ) - n : ℤ) : ℚ) + 1 / 2 := by
        push_cast
        ring
      simp only [hcast, Int.floor_intCast_add]
      norm_num
    have hdelay : (n : ℚ≥0) + ((max ((m : ℤ) - n) 1).toNat : ℚ≥0) = (m : ℚ≥0) := by
      have hnat : n + (max ((m : ℤ) - n) 1).toNat = m := by omega
      exact_mod_cast hnat
    rw [httl, hdelay, bucketOf_natCast, bucketOf_natCast]
    rw [Nat.floor_natCast] at hpast
    have hcurrent : n / windowSeconds = b → n / windowSeconds < m / windowSeconds := by
      intro hb
      rw [hb]
      exact (Nat.le_div_iff_mul_le hw).mpr hpast
    simp only [Option.some.injEq, exists_eq_left', reduceCtorEq, false_and, or_false]
    rw [bucketOf_natCast]
    tauto

/-- The caller that saw count one goes on to set the expiry. -/
lemma afterCount_one (key : String) (limit : ℤ) (windowSeconds : ℕ) (ttl : ℤ) :
    afterCount key limit windowSeconds (.ok (1, ttl)) = expiring key limit windowSeconds := by
  rw [afterCount, if_pos rfl]

/-! ## The steps of Redis -/

lemma counters_put (s : CounterState) (key : String) (c : Counter) :
    (s.put key c).counters key = some c := Function.update_self ..

lemma Dated.tick {s s' : CounterState} (h : Dated scope identifier windowSeconds s)
    (htick : SecondTicks s s') : Dated scope identifier windowSeconds s' := by
  obtain ⟨⟨-, hcounters⟩, hseconds⟩ := htick
  refine ⟨hseconds, fun b c hc => h.counters b c ?_⟩
  rwa [hcounters] at hc

/-- A counter that is put leaves those of the other buckets. -/
lemma Dated.put {s : CounterState} (h : Dated scope identifier windowSeconds s) {b : ℕ}
    {c : Counter} (hcount : 1 ≤ c.count)
    (hdeadline : ∀ d, c.deadline = some d → (b + 1) * windowSeconds ≤ ⌊d⌋₊ ∧ ∃ n : ℕ, d = n) :
    Dated scope identifier windowSeconds (s.put (bucketKey scope identifier b) c) := by
  refine ⟨h.seconds, fun b' c' hc' => ?_⟩
  by_cases hb : b' = b
  · subst hb
    rw [counters_put] at hc'
    cases hc'
    exact ⟨hcount, hdeadline⟩
  · have hkey : bucketKey scope identifier b' ≠ bucketKey scope identifier b :=
      fun heq => hb (bucketKey_injective heq)
    simp only [CounterState.put, Function.update_of_ne hkey] at hc'
    exact h.counters b' c' hc'

lemma Dated.incrTtl {s : CounterState} (h : Dated scope identifier windowSeconds s) (b : ℕ) :
    Dated scope identifier windowSeconds (s.incrTtl (bucketKey scope identifier b)).2 := by
  cases hlive : s.live (bucketKey scope identifier b) with
  | none =>
    rw [CounterState.incrTtl_fresh hlive]
    exact h.put le_rfl (by simp)
  | some c =>
    obtain ⟨ttl, hincr⟩ := CounterState.incrTtl_live hlive
    obtain ⟨hcount, hdeadline⟩ := h.counters b c (mem_of_live hlive).1
    rw [hincr]
    exact h.put (by simp only; omega) hdeadline

lemma Dated.expire {s : CounterState} (h : Dated scope identifier windowSeconds s) {b : ℕ}
    (hstart : ((b * windowSeconds : ℕ) : ℚ≥0) ≤ s.clock) :
    Dated scope identifier windowSeconds
      (s.expire (bucketKey scope identifier b) windowSeconds) := by
  cases hlive : s.live (bucketKey scope identifier b) with
  | none =>
    rw [CounterState.expire, hlive]
    exact h
  | some c =>
    obtain ⟨hcount, -⟩ := h.counters b c (mem_of_live hlive).1
    rw [CounterState.expire_live hlive]
    refine h.put hcount fun d hd => ?_
    obtain ⟨n, hn⟩ := h.seconds
    have hd' : d = ((n + windowSeconds : ℕ) : ℚ≥0) := by
      rw [← Option.some.inj hd, hn]
      push_cast
      rfl
    rw [hn] at hstart
    refine ⟨?_, n + windowSeconds, hd'⟩
    rw [hd', Nat.floor_natCast, Nat.succ_mul]
    exact Nat.add_le_add_right (by exact_mod_cast hstart) _

lemma clock_answer (rest : (op : Op) → Op.Reply op) (op : Op) (s : CounterState) :
    (CounterState.answer rest op s).2.clock = s.clock := by
  cases op with
  | expire key seconds =>
    change (s.expire key seconds).clock = s.clock
    rw [CounterState.expire]
    split <;> rfl
  | _ => rfl

/-! ## The calls of a run -/

section
variable {ι : Type} [DecidableEq ι]

/-- The steps of the calls, stamped with the state that they start from, as the promise of a wait
is one about that moment. -/
abbrev TimedStep : Pool ι Op Op.Reply RateLimitResult CounterState →
    CounterState × Act ι Op Op.Reply →
    Pool ι Op Op.Reply RateLimitResult CounterState → Prop :=
  Pool.Stamped id (Pool.Step Serves SecondTicks)

/-- Where an incremented call stands: it opened the counter and sets the expiry, or has its
result. -/
def Incremented (scope : RateScope) (identifier : String) (limit : ℤ) (windowSeconds b : ℕ)
    (s : CounterState) (member : Coroutine RateLimitResult) : Prop :=
  (s.live (bucketKey scope identifier b) = none ∧
      (member = expiring (bucketKey scope identifier b) limit windowSeconds ∨
        member = .done (limitResult limit 1 windowSeconds))) ∨
    ∃ c count, s.live (bucketKey scope identifier b) = some c ∧
      member = .done (limitResult limit count (s.ttl c))

/-- The invariant of every run of calls: the counters are dated, each caller stands at one of its
calls, and each increment so far met dated counters and decides what its caller does next. -/
structure Overseen (scope : RateScope) (identifier : String) (limit : ℤ) (windowSeconds : ℕ)
    (labels : List (CounterState × Act ι Op Op.Reply))
    (pool : Pool ι Op Op.Reply RateLimitResult CounterState) : Prop where
  dated : Dated scope identifier windowSeconds pool.shared
  phases : ∀ i, pool.members i = checkRateLimit true scope identifier limit windowSeconds ∨
    (∃ b, ((b * windowSeconds : ℕ) : ℚ≥0) ≤ pool.shared.clock ∧
      (pool.members i = incrementing (bucketKey scope identifier b) limit windowSeconds ∨
        pool.members i = expiring (bucketKey scope identifier b) limit windowSeconds)) ∨
    ∃ result, pool.members i = .done result
  history : ∀ i s b reply,
    (s, Act.called i ⟨.incrTtl (bucketKey scope identifier b), reply⟩) ∈ labels →
      Dated scope identifier windowSeconds s ∧
        Incremented scope identifier limit windowSeconds b s (pool.members i)

variable {labels : List (CounterState × Act ι Op Op.Reply)}
  {pool pool' : Pool ι Op Op.Reply RateLimitResult CounterState}

omit [DecidableEq ι] in
lemma Overseen.tick (h : Overseen scope identifier limit windowSeconds labels pool)
    {s : CounterState} (htick : SecondTicks pool.shared s) :
    Overseen scope identifier limit windowSeconds (labels ++ [(pool.shared, .drifted)])
      ⟨s, pool.members⟩ := by
  refine ⟨h.dated.tick htick, fun i => ?_, fun i s' b reply hmem => ?_⟩
  · rcases h.phases i with hstart | ⟨b, hb, hphase⟩ | hdone
    · exact Or.inl hstart
    · exact Or.inr (Or.inl ⟨b, hb.trans htick.1.1, hphase⟩)
    · exact Or.inr (Or.inr hdone)
  · rcases List.mem_append.mp hmem with hold | hnew
    · exact h.history i s' b reply hold
    · cases List.mem_singleton.mp hnew

/-- A call that is answered with something else than an increment keeps what is known of
the increments, if it goes on from where they left it. -/
lemma Overseen.other (h : Overseen scope identifier limit windowSeconds labels pool) {i : ι}
    {op : Op} {r : Op.Reply op} {member : Coroutine RateLimitResult} {s : CounterState}
    (hop : ∀ key, op ≠ .incrTtl key) (hclock : s.clock = pool.shared.clock)
    (hdated : Dated scope identifier windowSeconds s)
    (hphase : (∃ b, ((b * windowSeconds : ℕ) : ℚ≥0) ≤ pool.shared.clock ∧
        member = incrementing (bucketKey scope identifier b) limit windowSeconds) ∨
      ∃ result, member = .done result)
    (hafter : ∀ b s', Incremented scope identifier limit windowSeconds b s' (pool.members i) →
      Incremented scope identifier limit windowSeconds b s' member) :
    Overseen scope identifier limit windowSeconds
      (labels ++ [(pool.shared, .called i ⟨op, r⟩)])
      ⟨s, Function.update pool.members i member⟩ := by
  refine ⟨hdated, fun j => ?_, fun j s' b reply hmem => ?_⟩
  · by_cases hj : j = i
    · subst hj
      simp only [Function.update_self, hclock]
      rcases hphase with ⟨b, hb, hmember⟩ | hdone
      · exact Or.inr (Or.inl ⟨b, hb, Or.inl hmember⟩)
      · exact Or.inr (Or.inr hdone)
    · simpa only [Function.update_of_ne hj, hclock] using h.phases j
  · rcases List.mem_append.mp hmem with hold | hnew
    · obtain ⟨hs', hincremented⟩ := h.history j s' b reply hold
      by_cases hj : j = i
      · subst hj
        simp only [Function.update_self]
        exact ⟨hs', hafter b s' hincremented⟩
      · simp only [Function.update_of_ne hj]
        exact ⟨hs', hincremented⟩
    · cases List.mem_singleton.mp hnew
      exact absurd rfl (hop _)

/-- An increment opens the counter or tells the call its result. -/
lemma Overseen.increment (h : Overseen scope identifier limit windowSeconds labels pool) {i : ι}
    {b : ℕ} (hb : ((b * windowSeconds : ℕ) : ℚ≥0) ≤ pool.shared.clock)
    (hmember : pool.members i =
      incrementing (bucketKey scope identifier b) limit windowSeconds) :
    Overseen scope identifier limit windowSeconds
      (labels ++ [(pool.shared, .called i ⟨.incrTtl (bucketKey scope identifier b),
        .ok (pool.shared.incrTtl (bucketKey scope identifier b)).1⟩)])
      ⟨(pool.shared.incrTtl (bucketKey scope identifier b)).2,
        Function.update pool.members i (afterCount (bucketKey scope identifier b) limit
          windowSeconds (.ok (pool.shared.incrTtl (bucketKey scope identifier b)).1))⟩ := by
  have hnone : ∀ b' s', ¬Incremented scope identifier limit windowSeconds b' s'
      (pool.members i) := by
    intro b' s' hincremented
    rw [hmember] at hincremented
    rcases hincremented with ⟨-, hexpiring | hdone⟩ | ⟨c, count, -, hdone⟩
    · cases hexpiring
    · cases hdone
    · cases hdone
  have hclock : (pool.shared.incrTtl (bucketKey scope identifier b)).2.clock =
      pool.shared.clock := rfl
  have hafter : Incremented scope identifier limit windowSeconds b pool.shared
      (afterCount (bucketKey scope identifier b) limit windowSeconds
        (.ok (pool.shared.incrTtl (bucketKey scope identifier b)).1)) := by
    cases hlive : pool.shared.live (bucketKey scope identifier b) with
    | none =>
      rw [CounterState.incrTtl_fresh hlive]
      exact Or.inl ⟨hlive, Or.inl (afterCount_one _ _ _ _)⟩
    | some c =>
      obtain ⟨hcount, -⟩ := h.dated.counters b c (mem_of_live hlive).1
      have hne : ¬c.count + 1 = 1 := by omega
      refine Or.inr ⟨c, c.count + 1, hlive, ?_⟩
      rw [CounterState.incrTtl, hlive]
      exact if_neg hne
  refine ⟨h.dated.incrTtl b, fun j => ?_, fun j s' b' reply hmem => ?_⟩
  · by_cases hj : j = i
    · subst hj
      simp only [Function.update_self, hclock]
      right
      rcases hafter with ⟨-, hexpiring | hdone⟩ | ⟨c, count, -, hdone⟩
      · exact Or.inl ⟨b, hb, Or.inr hexpiring⟩
      · exact Or.inr ⟨_, hdone⟩
      · exact Or.inr ⟨_, hdone⟩
    · simpa only [Function.update_of_ne hj, hclock] using h.phases j
  · rcases List.mem_append.mp hmem with hold | hnew
    · obtain ⟨hs', hincremented⟩ := h.history j s' b' reply hold
      by_cases hj : j = i
      · subst hj
        exact absurd hincremented (hnone b' s')
      · simp only [Function.update_of_ne hj]
        exact ⟨hs', hincremented⟩
    · have hlabel := List.mem_singleton.mp hnew
      simp only [Prod.mk.injEq, Act.called.injEq, Event.mk.injEq, Op.incrTtl.injEq] at hlabel
      obtain ⟨rfl, rfl, hkey, -⟩ := hlabel
      cases bucketKey_injective hkey
      simp only [Function.update_self]
      exact ⟨h.dated, hafter⟩

theorem Overseen.step (h : Overseen scope identifier limit windowSeconds labels pool)
    {label : CounterState × Act ι Op Op.Reply} (hstep : TimedStep pool label pool') :
    Overseen scope identifier limit windowSeconds (labels ++ [label]) pool' := by
  obtain ⟨state, act⟩ := label
  obtain ⟨hstamp, hstep⟩ := hstep
  cases hstamp
  cases hstep with
  | drifted htick => exact h.tick htick
  | @called i op next r s hmember hanswer =>
    obtain ⟨rest, hreply⟩ := hanswer
    rcases h.phases i with hstart | ⟨b, hb, hincr | hexpiring⟩ | ⟨result, hdone⟩
    · rw [hstart, checkRateLimit_eq] at hmember
      cases hmember
      cases hreply
      refine h.other (fun key => by simp) rfl h.dated (Or.inl ⟨_, ?_, rfl⟩) ?_
      · have hbucket := Nat.div_mul_le_self ⌊pool.shared.clock⌋₊ windowSeconds
        exact (Nat.cast_le.mpr hbucket).trans (Nat.floor_le zero_le)
      · intro b s' hincremented
        rw [hstart, checkRateLimit_eq] at hincremented
        rcases hincremented with ⟨-, hexpiring | hdone⟩ | ⟨c, count, -, hdone⟩
        · cases hexpiring
        · cases hdone
        · cases hdone
    · rw [hincr] at hmember
      cases hmember
      cases hreply
      exact h.increment hb hincr
    · rw [hexpiring] at hmember
      cases hmember
      have hclock := clock_answer rest (.expire (bucketKey scope identifier b) windowSeconds)
        pool.shared
      cases hreply
      refine h.other (fun key => by simp) hclock (h.dated.expire hb) (Or.inr ⟨_, rfl⟩) ?_
      intro b' s' hincremented
      rw [hexpiring] at hincremented
      rcases hincremented with ⟨hlive, -⟩ | ⟨c, count, -, hdone⟩
      · exact Or.inl ⟨hlive, Or.inr rfl⟩
      · cases hdone
    · rw [hdone] at hmember
      cases hmember

theorem overseen_of_run {start : CounterState} (hclock : ∃ n : ℕ, start.clock = n)
    (hfresh : ∀ b, start.counters (bucketKey scope identifier b) = none)
    (hrun : Run TimedStep
      ⟨start, fun _ : ι => checkRateLimit true scope identifier limit windowSeconds⟩ labels pool) :
    Overseen scope identifier limit windowSeconds labels pool := by
  refine hrun.invariant ⟨⟨hclock, fun b c hc => ?_⟩, fun _ => Or.inl rfl, by simp⟩
    fun labels pool label pool' h hstep => h.step hstep
  rw [hfresh b] at hc
  cases hc

/-! ## Denied calls -/

/-- A denied call: its increment was executed in state `s` on the counter of bucket `b`,
and its result advertises a delay. -/
structure Denied (scope : RateScope) (identifier : String)
    (labels : List (CounterState × Act ι Op Op.Reply))
    (pool : Pool ι Op Op.Reply RateLimitResult CounterState) (i : ι) (b : ℕ) (s : CounterState)
    (result : RateLimitResult) : Prop where
  executed : ∃ reply,
    (s, Act.called i ⟨.incrTtl (bucketKey scope identifier b), reply⟩) ∈ labels
  done : pool.members i = .done result
  refused : result.allowed = false

omit [DecidableEq ι] in
theorem Overseen.later_iff (h : Overseen scope identifier limit windowSeconds labels pool)
    (hw : 1 ≤ windowSeconds) {i : ι} {b : ℕ} {s : CounterState} {result : RateLimitResult}
    (hdenied : Denied scope identifier labels pool i b s result) :
    bucketOf windowSeconds s.clock <
        bucketOf windowSeconds (s.clock + result.retryAfterSeconds.toNat) ↔
      Forewarned scope identifier windowSeconds b s := by
  obtain ⟨⟨reply, hmem⟩, hdone, hrefused⟩ := hdenied
  obtain ⟨hdated, hincremented⟩ := h.history i s b reply hmem
  rw [hdone] at hincremented
  rcases hincremented with ⟨hlive, hexpiring | hresult⟩ | ⟨c, count, hlive, hresult⟩
  · cases hexpiring
  · -- the call that opened the counter is told the whole window
    cases hresult
    have hover : ¬(1 : ℤ) ≤ limit := by
      rw [← limitResult_allowed limit 1 windowSeconds, hrefused]
      decide
    have hretry : (limitResult limit 1 windowSeconds).retryAfterSeconds.toNat =
        windowSeconds := by
      rw [limitResult, if_neg hover]
      simp only
      omega
    obtain ⟨n, hn⟩ := hdated.seconds
    have hsum : (n : ℚ≥0) + (windowSeconds : ℚ≥0) = ((n + windowSeconds : ℕ) : ℚ≥0) := by
      push_cast
      rfl
    rw [hretry, hn, hsum, bucketOf_natCast, bucketOf_natCast, Nat.add_div_right _ hw]
    exact iff_of_true (Nat.lt_succ_self _) (Or.inl hlive)
  · cases hresult
    exact later_iff_of_live hw hdated hlive count hrefused

/-- In every interleaving of calls on one identifier, the delays that denied calls advertise all
lead to a later bucket exactly if each denied call, at its increment, opened the counter itself,
found an expiry on it, or was in the last second of a bucket. -/
theorem retry_later_iff (scope : RateScope) (identifier : String) (limit : ℤ)
    (windowSeconds : ℕ) (hw : 1 ≤ windowSeconds) (start : CounterState)
    (hclock : ∃ n : ℕ, start.clock = n)
    (hfresh : ∀ b, start.counters (bucketKey scope identifier b) = none)
    (labels : List (CounterState × Act ι Op Op.Reply))
    (pool : Pool ι Op Op.Reply RateLimitResult CounterState)
    (hrun : Run TimedStep
      ⟨start, fun _ => checkRateLimit true scope identifier limit windowSeconds⟩ labels pool) :
    (∀ i b s result, Denied scope identifier labels pool i b s result →
      bucketOf windowSeconds s.clock <
        bucketOf windowSeconds (s.clock + result.retryAfterSeconds.toNat)) ↔
    ∀ i b s result, Denied scope identifier labels pool i b s result →
      Forewarned scope identifier windowSeconds b s := by
  have h := overseen_of_run hclock hfresh hrun
  constructor
  · intro hlater i b s result hdenied
    exact (h.later_iff hw hdenied).mp (hlater i b s result hdenied)
  · intro hfore i b s result hdenied
    exact (h.later_iff hw hdenied).mpr (hfore i b s result hdenied)

end

/-! ## Two callers of a limit of one -/

section
variable {ι : Type} [DecidableEq ι]
  {pool : Pool ι Op Op.Reply RateLimitResult CounterState}

lemma timed_time {i : ι} {b : ℕ}
    (hmember : pool.members i = checkRateLimit true scope identifier limit windowSeconds)
    (hbucket : bucketOf windowSeconds pool.shared.clock = b) :
    TimedStep pool (pool.shared, .called i ⟨.time, pool.shared.clock⟩)
      ⟨pool.shared, Function.update pool.members i
        (incrementing (bucketKey scope identifier b) limit windowSeconds)⟩ := by
  subst hbucket
  exact ⟨rfl, .called (hmember.trans (checkRateLimit_eq ..)) ⟨Op.idle, rfl⟩⟩

lemma timed_incrTtl {i : ι} {key : String} {reply : ℤ × ℤ} {s : CounterState}
    (hmember : pool.members i = incrementing key limit windowSeconds)
    (hreply : pool.shared.incrTtl key = (reply, s)) :
    TimedStep pool (pool.shared, .called i ⟨.incrTtl key, .ok reply⟩)
      ⟨s, Function.update pool.members i (afterCount key limit windowSeconds (.ok reply))⟩ := by
  refine ⟨rfl, .called hmember ⟨Op.idle, ?_⟩⟩
  simp only [CounterState.answer, hreply]

lemma timed_expire {i : ι} {key : String}
    (hmember : pool.members i = expiring key limit windowSeconds) :
    TimedStep pool (pool.shared, .called i ⟨.expire key windowSeconds, .ok ()⟩)
      ⟨pool.shared.expire key windowSeconds,
        Function.update pool.members i (.done (limitResult limit 1 windowSeconds))⟩ :=
  ⟨rfl, Pool.Step.called hmember (r := .ok ()) ⟨Op.idle, rfl⟩⟩

end

/-- The counter of the first minute. -/
def minuteKey : String := bucketKey .user "team:ana" 0

/-- A clock at seven seconds and no counters. -/
def atSeven : CounterState := ⟨7, fun _ => none⟩

/-- Two callers before their calls. -/
def twoCallers : Pool (Fin 2) Op Op.Reply RateLimitResult CounterState :=
  ⟨atSeven, fun _ => checkRateLimit true .user "team:ana" 1 60⟩

/-- Both callers have read the clock. -/
def poised : Pool (Fin 2) Op Op.Reply RateLimitResult CounterState :=
  ⟨atSeven, Function.update (Function.update twoCallers.members 0
    (incrementing minuteKey 1 60)) 1 (incrementing minuteKey 1 60)⟩

/-- The first caller has opened the counter and not set its expiry. -/
def opened : Pool (Fin 2) Op Op.Reply RateLimitResult CounterState :=
  ⟨atSeven.put minuteKey ⟨1, none⟩, Function.update poised.members 0 (expiring minuteKey 1 60)⟩

def openedLabels : List (CounterState × Act (Fin 2) Op Op.Reply) :=
  [(atSeven, .called 0 ⟨.time, (7 : ℚ≥0)⟩), (atSeven, .called 1 ⟨.time, (7 : ℚ≥0)⟩),
    (atSeven, .called 0 ⟨.incrTtl minuteKey, .ok (1, -1)⟩)]

lemma run_opened : Run TimedStep twoCallers openedLabels opened := by
  have hbucket : bucketOf 60 7 = 0 := by decide +kernel
  have hincr : atSeven.incrTtl minuteKey = ((1, -1), atSeven.put minuteKey ⟨1, none⟩) :=
    CounterState.incrTtl_fresh rfl
  have hfirst : TimedStep twoCallers (atSeven, .called 0 ⟨.time, (7 : ℚ≥0)⟩)
      ⟨atSeven, Function.update twoCallers.members 0 (incrementing minuteKey 1 60)⟩ :=
    timed_time rfl hbucket
  have hsecond : TimedStep
      ⟨atSeven, Function.update twoCallers.members 0 (incrementing minuteKey 1 60)⟩
      (atSeven, .called 1 ⟨.time, (7 : ℚ≥0)⟩) poised :=
    timed_time rfl hbucket
  have hthird : TimedStep poised (atSeven, .called 0 ⟨.incrTtl minuteKey, .ok (1, -1)⟩)
      ⟨atSeven.put minuteKey ⟨1, none⟩, Function.update poised.members 0
        (afterCount minuteKey 1 60 (.ok (1, -1)))⟩ := timed_incrTtl rfl hincr
  rw [afterCount_one] at hthird
  exact ((Run.nil.snoc hfirst).snoc hsecond).snoc hthird

/-- Two callers under a limit of one, seven seconds into a minute. The second increments the
counter before the first has set its expiry, reads a TTL of -1, and is told to wait one second,
where the minute ends in fifty-three. -/
theorem denied_too_early :
    ∃ labels pool i b s result, Run TimedStep twoCallers labels pool ∧
      Denied .user "team:ana" labels pool i b s result ∧
      ¬bucketOf 60 s.clock < bucketOf 60 (s.clock + result.retryAfterSeconds.toNat) := by
  have hlive : opened.shared.live minuteKey = some ⟨1, none⟩ :=
    CounterState.live_eq (counters_put ..) (by simp)
  have hincr : opened.shared.incrTtl minuteKey =
      ((2, -1), opened.shared.put minuteKey ⟨2, none⟩) := by
    simp only [CounterState.incrTtl, hlive]
    rfl
  have hstep : TimedStep opened (opened.shared, .called 1 ⟨.incrTtl minuteKey, .ok (2, -1)⟩)
      ⟨opened.shared.put minuteKey ⟨2, none⟩, Function.update opened.members 1
        (.done (limitResult 1 2 (-1)))⟩ := timed_incrTtl rfl hincr
  refine ⟨_, _, 1, 0, opened.shared, limitResult 1 2 (-1),
    run_opened.snoc hstep,
    ⟨⟨.ok (2, -1), ?_⟩, ?_, rfl⟩, ?_⟩
  · exact List.mem_append_right _ (List.mem_singleton.mpr rfl)
  · simp only [Function.update_self]
  · decide +kernel

/-- The counter has its expiry before the second caller increments it. -/
def dated : Pool (Fin 2) Op Op.Reply RateLimitResult CounterState :=
  ⟨atSeven.put minuteKey ⟨1, none⟩ |>.expire minuteKey 60,
    Function.update opened.members 0 (.done (limitResult 1 1 60))⟩

def datedLabels : List (CounterState × Act (Fin 2) Op Op.Reply) :=
  openedLabels ++ [(opened.shared, .called 0 ⟨.expire minuteKey 60, .ok ()⟩)]

lemma run_dated : Run TimedStep twoCallers datedLabels dated :=
  run_opened.snoc (timed_expire rfl)

lemma dated_live : dated.shared.live minuteKey = some ⟨1, some 67⟩ := by
  have hopened : (atSeven.put minuteKey ⟨1, none⟩).live minuteKey = some ⟨1, none⟩ :=
    CounterState.live_eq (counters_put ..) (by simp)
  have hdeadline : (7 : ℚ≥0) + (60 : ℕ) = 67 := by norm_num
  have hexpired : dated.shared =
      (atSeven.put minuteKey ⟨1, none⟩).put minuteKey ⟨1, some 67⟩ := by
    rw [← hdeadline]
    exact CounterState.expire_live hopened 60
  rw [hexpired]
  apply CounterState.live_eq (counters_put ..)
  intro d hd
  obtain rfl := Option.some.inj hd
  show (7 : ℚ≥0) < 67
  norm_num

/-- Once the expiry is set, the second caller is told to wait for the next minute. -/
theorem retry_later_sample :
    ∃ labels pool i b s result, Run TimedStep twoCallers labels pool ∧
      Denied .user "team:ana" labels pool i b s result ∧ result.retryAfterSeconds = 60 ∧
      bucketOf 60 s.clock < bucketOf 60 (s.clock + result.retryAfterSeconds.toNat) := by
  have hbucket : bucketOf 60 7 = 0 := by decide +kernel
  have hclock : dated.shared.clock = 7 := rfl
  have httl : dated.shared.ttl ⟨2, some 67⟩ = 60 := by
    rw [CounterState.ttl, hclock]
    decide +kernel
  have hincr : dated.shared.incrTtl minuteKey =
      ((2, 60), dated.shared.put minuteKey ⟨2, some 67⟩) := by
    simp only [CounterState.incrTtl, dated_live]
    rw [← httl]
    rfl
  have hstep : TimedStep dated (dated.shared, .called 1 ⟨.incrTtl minuteKey, .ok (2, 60)⟩)
      ⟨dated.shared.put minuteKey ⟨2, some 67⟩, Function.update dated.members 1
        (.done (limitResult 1 2 60))⟩ := timed_incrTtl rfl hincr
  have hrun := run_dated.snoc hstep
  have hdenied : Denied .user "team:ana"
      (datedLabels ++ [(dated.shared, .called 1 ⟨.incrTtl minuteKey, .ok (2, 60)⟩)])
      ⟨dated.shared.put minuteKey ⟨2, some 67⟩, Function.update dated.members 1
        (.done (limitResult 1 2 60))⟩ 1 0 dated.shared (limitResult 1 2 60) :=
    ⟨⟨.ok (2, 60), List.mem_append_right _ (List.mem_singleton.mpr rfl)⟩, rfl, rfl⟩
  refine ⟨_, _, 1, 0, dated.shared, limitResult 1 2 60, hrun, hdenied, rfl, ?_⟩
  refine (retry_later_iff .user "team:ana" 1 60 (by decide) atSeven ⟨7, rfl⟩ (fun _ => rfl) _ _
    hrun).mpr (fun i b s result h => ?_) 1 0 dated.shared _ hdenied
  obtain ⟨reply, hmem⟩ := h.executed
  rcases List.mem_append.mp hmem with hbefore | hlast
  · -- the first caller opened the counter, and was let through
    have hi : i = 0 := by
      simp [datedLabels, openedLabels] at hbefore
      exact hbefore.2.1
    subst hi
    have hresult : limitResult 1 1 60 = result := Program.done.inj h.done
    have hrefused := h.refused
    rw [← hresult] at hrefused
    cases hrefused
  · have hlabel : s = dated.shared ∧ bucketKey .user "team:ana" b = minuteKey := by
      simp at hlast
      exact ⟨hlast.1, hlast.2.2.1⟩
    obtain ⟨rfl, hkey⟩ := hlabel
    refine Or.inr ⟨⟨1, some 67⟩, ?_, Or.inl ⟨67, rfl, Or.inl ?_⟩⟩
    · rw [hkey]
      exact dated_live
    · rw [hclock, hbucket]
      exact (bucketKey_injective hkey).symm

end
end InferenceControlPlane.Gateway
