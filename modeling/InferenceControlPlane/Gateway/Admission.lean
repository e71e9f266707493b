import InferenceControlPlane.Gateway.RateLimiter
import Mathlib.Data.List.FinRange
import Mathlib.Data.List.Perm.Subperm

/-!
# Admission in one bucket

Calls of one bucket interleave their Redis steps. The counter is the number of
increments so far, because its expiry lies beyond the end of the bucket, so the calls
are admitted in the order of their increments.
-/
namespace InferenceControlPlane.Gateway
open Python Program

/-- The calls whose moment decides their bucket: the reading of the clock, and the increment,
which finds or opens the counter. -/
def Op.paced : Op → Bool
  | time => true
  | incrTtl _ => true
  | _ => false

/-- Redis and the clock, for calls that are made in bucket `b`: they read the clock and
increment while it is current, and set the expiry whenever they get to it. -/
def AnswersIn (windowSeconds b : ℕ) (s : CounterState) (op : Op) (r : Op.Reply op)
    (s' : CounterState) : Prop :=
  (∃ rest, CounterState.answer rest op s = (r, s')) ∧
    (op.paced = true → bucketOf windowSeconds s.clock = b)

/-- The clock goes on. -/
def Ticks (s s' : CounterState) : Prop := s.clock ≤ s'.clock ∧ s'.counters = s.counters

/-- The members whose increments were executed, in order. An increment is where a call takes its
place in the bucket. -/
def increments {ι : Type} (acts : List (Act ι Op Op.Reply)) : List ι :=
  acts.filterMap fun act => match act with
    | .called i ⟨.incrTtl _, _⟩ => some i
    | _ => none

/-! ## The phases of a call -/

/-- A call that saw count one, and has the expiry of the bucket still to set before it answers. -/
def expiring (key : String) (limit : ℤ) (windowSeconds : ℕ) : Coroutine RateLimitResult :=
  .call (.expire key windowSeconds) fun expired : Except PyErr Unit => match expired with
    | .error _ => .done (failOpen limit)
    | .ok _ => .done (limitResult limit 1 windowSeconds)

/-- A call whose increment was answered. -/
def afterCount (key : String) (limit : ℤ) (windowSeconds : ℕ) :
    Except PyErr (ℤ × ℤ) → Coroutine RateLimitResult
  | .error _ => .done (failOpen limit)
  | .ok (count, ttl) =>
    if count = 1 then expiring key limit windowSeconds else .done (limitResult limit count ttl)

/-- A call that has read the clock. -/
def incrementing (key : String) (limit : ℤ) (windowSeconds : ℕ) : Coroutine RateLimitResult :=
  .call (.incrTtl key) (afterCount key limit windowSeconds)

theorem checkRateLimit_eq (scope : RateScope) (identifier : String) (limit : ℤ)
    (windowSeconds : ℕ) : checkRateLimit true scope identifier limit windowSeconds =
      .call .time fun t : ℚ≥0 =>
        incrementing (bucketKey scope identifier (bucketOf windowSeconds t)) limit
          windowSeconds := by
  refine congrArg (Program.call Op.time) (funext fun t => congrArg (Program.call _) (funext ?_))
  intro counted
  cases counted with
  | error e => rfl
  | ok reply =>
    obtain ⟨count, ttl⟩ := reply
    change (if count = 1 then _ else _) = afterCount _ _ _ _
    rw [afterCount]
    split_ifs with hone
    · subst hone
      refine congrArg (Program.call _) (funext fun expired => ?_)
      cases expired <;> rfl
    · rfl

/-! ## The invariant -/

section
variable {ι : Type} [DecidableEq ι]

/-- What a run of calls has done: the counter counts the increments, and its expiry lies
beyond the bucket; a member is where its increment puts it. -/
structure Counted (scope : RateScope) (identifier : String) (limit : ℤ) (windowSeconds b : ℕ)
    (acts : List (Act ι Op Op.Reply)) (pool : Pool ι Op Op.Reply RateLimitResult CounterState) :
    Prop where
  nodup : (increments acts).Nodup
  waiting : ∀ i ∉ increments acts,
    pool.members i = checkRateLimit true scope identifier limit windowSeconds ∨
      pool.members i = incrementing (bucketKey scope identifier b) limit windowSeconds
  counted : ∀ (k : ℕ) i, (increments acts)[k]? = some i →
    (∃ ttl, pool.members i = .done (limitResult limit (k + 1) ttl)) ∨
      k = 0 ∧ pool.members i = expiring (bucketKey scope identifier b) limit windowSeconds
  fresh : increments acts = [] → pool.shared.counters (bucketKey scope identifier b) = none
  counter : increments acts ≠ [] → b * windowSeconds ≤ pool.shared.clock ∧
    ∃ deadline, pool.shared.counters (bucketKey scope identifier b) =
        some ⟨(increments acts).length, deadline⟩ ∧
      ∀ d, deadline = some d → (((b + 1) * windowSeconds : ℕ) : ℚ≥0) ≤ d

omit [DecidableEq ι] in
/-- In the bucket, the live counter is the number of increments. -/
theorem Counted.live {scope : RateScope} {identifier : String} {limit : ℤ} {windowSeconds b : ℕ}
    {acts : List (Act ι Op Op.Reply)} {pool : Pool ι Op Op.Reply RateLimitResult CounterState}
    (h : Counted scope identifier limit windowSeconds b acts pool) (hw : 0 < windowSeconds)
    (hclock : bucketOf windowSeconds pool.shared.clock = b) :
    (pool.shared.live (bucketKey scope identifier b)).map Counter.count =
      if increments acts = [] then none else some ((increments acts).length : ℤ) := by
  split_ifs with hnone
  · rw [CounterState.live_eq_none (h.fresh hnone)]
    rfl
  · obtain ⟨-, deadline, hcounter, hdeadline⟩ := h.counter hnone
    have hend := ((bucketOf_eq_iff hw _).mp hclock).2
    rw [CounterState.live_eq hcounter fun d hd => hend.trans_le (hdeadline d hd)]
    rfl

omit [DecidableEq ι] in
lemma increments_snoc_incr (acts : List (Act ι Op Op.Reply)) (i : ι) (key : String)
    (r : Op.Reply (.incrTtl key)) :
    increments (acts ++ [.called i ⟨.incrTtl key, r⟩]) = increments acts ++ [i] := by
  simp [increments]

omit [DecidableEq ι] in
lemma increments_snoc {acts : List (Act ι Op Op.Reply)} {act : Act ι Op Op.Reply}
    (h : ∀ i key r, act ≠ .called i ⟨.incrTtl key, r⟩) :
    increments (acts ++ [act]) = increments acts := by
  have hnone : increments [act] = [] := by
    unfold increments
    rw [List.filterMap_cons]
    split
    · rfl
    · next hsome =>
      split at hsome
      · next i key r => exact absurd rfl (h i key r)
      · cases hsome
  have hsplit : increments (acts ++ [act]) = increments acts ++ increments [act] :=
    List.filterMap_append
  rw [hsplit, hnone, List.append_nil]

/-! ## One step -/

section
variable {scope : RateScope} {identifier : String} {limit : ℤ} {windowSeconds b : ℕ}
  {acts : List (Act ι Op Op.Reply)} {pool : Pool ι Op Op.Reply RateLimitResult CounterState}

/-- A member that has read the clock waits for its increment. -/
theorem Counted.readClock (h : Counted scope identifier limit windowSeconds b acts pool) {i : ι}
    (hi : i ∉ increments acts) (t : ℚ≥0) :
    Counted scope identifier limit windowSeconds b (acts ++ [.called i ⟨.time, t⟩])
      ⟨pool.shared, Function.update pool.members i
        (incrementing (bucketKey scope identifier b) limit windowSeconds)⟩ := by
  have hinc : increments (acts ++ [.called i ⟨.time, t⟩]) = increments acts :=
    increments_snoc (by rintro j key r ⟨⟩)
  constructor
  · rw [hinc]
    exact h.nodup
  · rw [hinc]
    intro j hj
    rcases eq_or_ne j i with rfl | hne
    · exact Or.inr (Function.update_self ..)
    · simpa [hne] using h.waiting j hj
  · rw [hinc]
    intro k j hk
    have hne : j ≠ i := fun heq => hi (heq ▸ List.mem_of_getElem? hk)
    simpa [hne] using h.counted k j hk
  · rw [hinc]
    exact h.fresh
  · rw [hinc]
    exact h.counter

/-- An increment in the bucket appends its member to the order. -/
theorem Counted.increment (h : Counted scope identifier limit windowSeconds b acts pool)
    (hw : 0 < windowSeconds) {i : ι} (hi : i ∉ increments acts)
    (hclock : bucketOf windowSeconds pool.shared.clock = b) {count ttl : ℤ} {s : CounterState}
    (hanswer : pool.shared.incrTtl (bucketKey scope identifier b) = ((count, ttl), s))
    (member : Coroutine RateLimitResult)
    (hmember : member = if count = 1
      then expiring (bucketKey scope identifier b) limit windowSeconds
      else .done (limitResult limit count ttl)) :
    Counted scope identifier limit windowSeconds b
      (acts ++ [.called i ⟨.incrTtl (bucketKey scope identifier b), .ok (count, ttl)⟩])
      ⟨s, Function.update pool.members i member⟩ := by
  obtain ⟨hstart, hend⟩ := (bucketOf_eq_iff hw _).mp hclock
  have hcount : count = (increments acts).length + 1 ∧ s.clock = pool.shared.clock ∧
      ∃ deadline, s.counters (bucketKey scope identifier b) = some ⟨count, deadline⟩ ∧
        ∀ d, deadline = some d → (((b + 1) * windowSeconds : ℕ) : ℚ≥0) ≤ d := by
    by_cases hnone : increments acts = []
    · rw [CounterState.incrTtl_fresh (CounterState.live_eq_none (h.fresh hnone))] at hanswer
      cases hanswer
      exact ⟨by simp [hnone], rfl, none, Function.update_self .., by simp⟩
    · obtain ⟨-, deadline, hcounter, hdeadline⟩ := h.counter hnone
      have hlive := CounterState.live_eq hcounter fun d hd => hend.trans_le (hdeadline d hd)
      obtain ⟨ttl', hincr⟩ := CounterState.incrTtl_live hlive
      rw [hincr] at hanswer
      cases hanswer
      exact ⟨rfl, rfl, deadline, Function.update_self .., hdeadline⟩
  obtain ⟨hcount, hsame, hcounter⟩ := hcount
  have hinc := increments_snoc_incr acts i (bucketKey scope identifier b) (.ok (count, ttl))
  have hlast : (increments acts ++ [i])[(increments acts).length]? = some i := by simp
  constructor
  · rw [hinc]
    exact List.nodup_append.mpr ⟨h.nodup, List.nodup_singleton i, by
      intro a ha c hc hac
      rw [List.mem_singleton] at hc
      exact hi (hc ▸ hac ▸ ha)⟩
  · rw [hinc]
    intro j hj
    rw [List.mem_append, List.mem_singleton, not_or] at hj
    simpa [hj.2] using h.waiting j hj.1
  · rw [hinc]
    intro k j hk
    by_cases hlt : k < (increments acts).length
    · rw [List.getElem?_append_left hlt] at hk
      have hne : j ≠ i := fun heq => hi (heq ▸ List.mem_of_getElem? hk)
      simpa [hne] using h.counted k j hk
    · have hk' : k = (increments acts).length := by
        have hbound := (List.getElem?_eq_some_iff.mp hk).1
        simp only [List.length_append, List.length_singleton] at hbound
        omega
      subst hk'
      cases hlast.symm.trans hk
      simp only [Function.update_self]
      rw [hmember]
      split_ifs with hone
      · exact Or.inr ⟨by omega, rfl⟩
      · exact Or.inl ⟨ttl, by rw [hcount]⟩
  · rw [hinc]
    simp
  · intro _
    obtain ⟨deadline, hstored, hdeadline⟩ := hcounter
    refine ⟨hsame ▸ by exact_mod_cast hstart, deadline, ?_, hdeadline⟩
    rw [hinc, hstored, hcount, List.length_append, List.length_singleton]
    norm_cast

/-- Setting the expiry puts it beyond the bucket, whenever that is. -/
theorem Counted.setExpiry (h : Counted scope identifier limit windowSeconds b acts pool) {i : ι}
    (hi : (increments acts)[0]? = some i) :
    Counted scope identifier limit windowSeconds b
      (acts ++ [.called i ⟨.expire (bucketKey scope identifier b) windowSeconds, .ok ()⟩])
      ⟨pool.shared.expire (bucketKey scope identifier b) windowSeconds,
        Function.update pool.members i (.done (limitResult limit 1 windowSeconds))⟩ := by
  have hinc : increments (acts ++ [.called i
      ⟨.expire (bucketKey scope identifier b) windowSeconds, .ok ()⟩]) = increments acts :=
    increments_snoc (by rintro j key r ⟨⟩)
  have hne : increments acts ≠ [] := by
    intro hnone
    rw [hnone] at hi
    cases hi
  constructor
  · rw [hinc]
    exact h.nodup
  · rw [hinc]
    intro j hj
    have hji : j ≠ i := fun heq => hj (heq ▸ List.mem_of_getElem? hi)
    simpa [hji] using h.waiting j hj
  · rw [hinc]
    intro k j hk
    rcases eq_or_ne j i with rfl | hji
    · have hzero : k = 0 := by
        have hk' := (List.getElem?_eq_some_iff.mp hk).1
        exact (List.getElem?_inj hk' h.nodup).mp (hk.trans hi.symm)
      subst hzero
      exact Or.inl ⟨windowSeconds, by simp⟩
    · simpa [hji] using h.counted k j hk
  · intro hnone
    exact absurd (hinc ▸ hnone) hne
  · intro _
    rw [hinc]
    obtain ⟨hstart, deadline, hcounter, hdeadline⟩ := h.counter hne
    have hsame : (pool.shared.expire (bucketKey scope identifier b) windowSeconds).clock =
        pool.shared.clock := by
      unfold CounterState.expire
      split <;> rfl
    refine ⟨hsame ▸ hstart, ?_⟩
    unfold CounterState.expire
    split
    · exact ⟨deadline, hcounter, hdeadline⟩
    · next c hlive =>
      have hc : c = ⟨(increments acts).length, deadline⟩ := by
        rw [CounterState.live, hcounter] at hlive
        exact (Option.some.inj (Option.filter_eq_some_iff.mp hlive).1).symm
      refine ⟨some (pool.shared.clock + windowSeconds), ?_, ?_⟩
      · rw [hc]
        exact Function.update_self ..
      · intro d hd
        rw [← Option.some.inj hd, Nat.succ_mul]
        push_cast
        exact add_le_add_left hstart _

omit [DecidableEq ι] in
theorem Counted.tick (h : Counted scope identifier limit windowSeconds b acts pool)
    {s : CounterState} (htick : Ticks pool.shared s) :
    Counted scope identifier limit windowSeconds b (acts ++ [.drifted]) ⟨s, pool.members⟩ := by
  have hinc : increments (acts ++ [Act.drifted]) = increments acts :=
    increments_snoc (by rintro j key r ⟨⟩)
  constructor
  · rw [hinc]
    exact h.nodup
  · rw [hinc]
    exact h.waiting
  · rw [hinc]
    exact h.counted
  · rw [hinc]
    intro hnone
    exact (congrFun htick.2 _).trans (h.fresh hnone)
  · rw [hinc]
    intro hne
    obtain ⟨hstart, deadline, hcounter, hdeadline⟩ := h.counter hne
    exact ⟨hstart.trans htick.1, deadline, (congrFun htick.2 _).trans hcounter, hdeadline⟩

/-- Every step of a member belongs to its phase. -/
theorem Counted.step (h : Counted scope identifier limit windowSeconds b acts pool)
    (hw : 0 < windowSeconds) {act : Act ι Op Op.Reply}
    {pool' : Pool ι Op Op.Reply RateLimitResult CounterState}
    (hstep : Pool.Step (AnswersIn windowSeconds b) Ticks pool act pool') :
    Counted scope identifier limit windowSeconds b (acts ++ [act]) pool' := by
  cases hstep with
  | drifted htick => exact h.tick htick
  | @called i op next r s hmember hanswer =>
    obtain ⟨⟨rest, hreply⟩, hpaced⟩ := hanswer
    by_cases hi : i ∈ increments acts
    · obtain ⟨k, hk⟩ := List.getElem?_of_mem hi
      rcases h.counted k i hk with ⟨ttl, hdone⟩ | ⟨rfl, hexpiring⟩
      · rw [hdone] at hmember
        cases hmember
      · rw [hexpiring] at hmember
        cases hmember
        cases hreply
        exact h.setExpiry hk
    · rcases h.waiting i hi with hstart | hincr
      · rw [hstart, checkRateLimit_eq] at hmember
        cases hmember
        cases hreply
        dsimp only
        rw [hpaced rfl]
        exact h.readClock hi _
      · rw [hincr] at hmember
        cases hmember
        cases hreply
        exact h.increment hw hi (hpaced rfl) rfl _ rfl

/-- A run of calls from a fresh counter. -/
theorem counted_of_run (hw : 0 < windowSeconds) {start : CounterState}
    (hfresh : start.counters (bucketKey scope identifier b) = none)
    (hrun : Run (Pool.Step (AnswersIn windowSeconds b) Ticks)
      ⟨start, fun _ => checkRateLimit true scope identifier limit windowSeconds⟩ acts pool) :
    Counted scope identifier limit windowSeconds b acts pool := by
  refine hrun.invariant ⟨List.nodup_nil, fun _ _ => Or.inl rfl, by simp [increments],
    fun _ => hfresh, fun hne => absurd rfl hne⟩ ?_
  intro acts pool act pool' h hstep
  exact h.step hw hstep

end

/-! ## The outcome -/

omit [DecidableEq ι] in
/-- A filter that accepts exactly the first `n` positions. -/
lemma filter_eq_take {p : ι → Bool} {xs : List ι} {n : ℕ}
    (h : ∀ (k : ℕ) i, xs[k]? = some i → (p i = true ↔ k < n)) : xs.filter p = xs.take n := by
  induction xs generalizing n with
  | nil => simp
  | cons x xs ih =>
    have hx := h 0 x rfl
    cases n with
    | zero =>
      have hnone : ∀ y ∈ x :: xs, ¬ p y = true := by
        intro y hy
        obtain ⟨k, hk⟩ := List.getElem?_of_mem hy
        exact fun hp => Nat.not_lt_zero k ((h k y hk).mp hp)
      rw [List.filter_eq_nil_iff.mpr hnone, List.take_zero]
    | succ n =>
      rw [List.filter_cons_of_pos (hx.mpr (Nat.succ_pos n)), List.take_succ_cons]
      rw [ih fun k i hk => (h (k + 1) i hk).trans Nat.succ_lt_succ_iff]

/-- Once every member has its result, the order of the increments decides each of them. -/
theorem Counted.results {scope : RateScope} {identifier : String} {limit : ℤ}
    {windowSeconds b : ℕ} {acts : List (Act ι Op Op.Reply)}
    {pool : Pool ι Op Op.Reply RateLimitResult CounterState}
    (h : Counted scope identifier limit windowSeconds b acts pool) {results : ι → RateLimitResult}
    (hdone : ∀ i, pool.members i = .done (results i)) :
    (∀ i, i ∈ increments acts) ∧ ∀ (k : ℕ) i, (increments acts)[k]? = some i →
      ∃ ttl, results i = limitResult limit (k + 1) ttl := by
  constructor
  · intro i
    by_contra hi
    rcases h.waiting i hi with hstart | hincr
    · rw [hdone, checkRateLimit_eq] at hstart
      cases hstart
    · rw [hdone] at hincr
      cases hincr
  · intro k i hk
    rcases h.counted k i hk with ⟨ttl, hresult⟩ | ⟨-, hexpiring⟩
    · rw [hdone] at hresult
      exact ⟨ttl, Program.done.inj hresult⟩
    · rw [hdone] at hexpiring
      cases hexpiring

end

lemma limitResult_allowed (limit count ttl : ℤ) :
    (limitResult limit count ttl).allowed = true ↔ count ≤ limit := by
  unfold limitResult
  split_ifs with h <;> simp [h]

lemma limitResult_remaining (limit count ttl : ℤ) :
    (limitResult limit count ttl).remaining = max (limit - count) 0 := by
  unfold limitResult
  split_ifs <;> rfl

/-- Calls of one bucket are admitted exactly, in every interleaving of their Redis steps.
The first `limit` in the order of the increments are allowed, with what remains counted
down to zero; the others find nothing left; and the counter is not reset while its
bucket is current. -/
theorem admission_exact {calls : ℕ} (scope : RateScope) (identifier : String)
    (limit windowSeconds b : ℕ) (hw : 1 ≤ windowSeconds) (start : CounterState)
    (hfresh : start.counters (bucketKey scope identifier b) = none)
    (acts : List (Act (Fin calls) Op Op.Reply))
    (pool : Pool (Fin calls) Op Op.Reply RateLimitResult CounterState)
    (hrun : Run (Pool.Step (AnswersIn windowSeconds b) Ticks)
      ⟨start, fun _ => checkRateLimit true scope identifier limit windowSeconds⟩ acts pool) :
    (bucketOf windowSeconds pool.shared.clock = b →
      (pool.shared.live (bucketKey scope identifier b)).map Counter.count =
        if increments acts = [] then none else some ((increments acts).length : ℤ)) ∧
    ∀ results : Fin calls → RateLimitResult, (∀ i, pool.members i = .done (results i)) →
      (increments acts).Perm (List.finRange calls) ∧
      (increments acts).filter (fun i => (results i).allowed) = (increments acts).take limit ∧
      (List.finRange calls).countP (fun i => (results i).allowed) = min calls limit ∧
      ((increments acts).take limit).map (fun i => (results i).remaining) =
        (List.range (min calls limit)).map (fun k : ℕ => (limit : ℤ) - 1 - k) ∧
      ∀ i, (results i).allowed = false → (results i).remaining = 0 := by
  have h := counted_of_run hw hfresh hrun
  refine ⟨h.live hw, fun results hdone => ?_⟩
  obtain ⟨hall, hresult⟩ := h.results hdone
  have hperm : (increments acts).Perm (List.finRange calls) :=
    (List.perm_ext_iff_of_nodup h.nodup (List.nodup_finRange calls)).mpr
      fun i => ⟨fun _ => List.mem_finRange i, fun _ => hall i⟩
  have hlength : (increments acts).length = calls := by simpa using hperm.length_eq
  have hallowed : (increments acts).filter (fun i => (results i).allowed) =
      (increments acts).take limit := by
    refine filter_eq_take fun k i hk => ?_
    obtain ⟨ttl, hi⟩ := hresult k i hk
    rw [hi, limitResult_allowed]
    omega
  refine ⟨hperm, hallowed, ?_, ?_, ?_⟩
  · rw [← hperm.countP_eq, List.countP_eq_length_filter, hallowed, List.length_take, hlength,
      Nat.min_comm]
  · refine List.ext_getElem? fun k => ?_
    rw [List.getElem?_map, List.getElem?_map, List.getElem?_take]
    by_cases hk : k < min calls limit
    · have hk' : k < (increments acts).length := by omega
      obtain ⟨ttl, hi⟩ := hresult k _ (List.getElem?_eq_getElem hk')
      rw [if_pos (by omega), List.getElem?_eq_getElem hk', List.getElem?_range hk, Option.map_some,
        Option.map_some, hi, limitResult_remaining]
      congr 1
      omega
    · have hrange : (List.range (min calls limit))[k]? = none := by
        rw [List.getElem?_eq_none_iff, List.length_range]
        omega
      rw [hrange]
      split_ifs with hlimit
      · rw [List.getElem?_eq_none (by omega)]
        rfl
      · rfl
  · intro i hdenied
    obtain ⟨k, hk⟩ := List.getElem?_of_mem (hall i)
    obtain ⟨ttl, hi⟩ := hresult k i hk
    have hover : ¬ ((k : ℤ) + 1 ≤ limit) := by
      rw [← limitResult_allowed limit (k + 1) ttl, ← hi, hdenied]
      simp
    rw [hi, limitResult_remaining]
    omega

/-- Redis without failures, while the clock stands at seven seconds. -/
lemma answer_at_seven (op : Op) (s : CounterState) (h : s.clock = 7) :
    AnswersIn 60 0 s op (CounterState.answer Op.idle op s).1 (CounterState.answer Op.idle op s).2 ∧
      (CounterState.answer Op.idle op s).2.clock = 7 := by
  refine ⟨⟨⟨Op.idle, rfl⟩, fun _ => ?_⟩, ?_⟩
  · rw [h]
    decide +kernel
  · cases op with
    | expire key seconds =>
      change (s.expire key seconds).clock = 7
      unfold CounterState.expire
      split <;> exact h
    | _ => exact h

/-- Two calls of which one may pass, one after the other. -/
theorem admission_exact_sample :
    ∃ (acts : List (Act (Fin 2) Op Op.Reply))
      (pool : Pool (Fin 2) Op Op.Reply RateLimitResult CounterState)
      (results : Fin 2 → RateLimitResult), (∀ i, pool.members i = .done (results i)) ∧
        increments acts ≠ [] ∧
        (List.finRange 2).countP (fun i => (results i).allowed) = min 2 1 := by
  let start : CounterState := ⟨7, fun _ => none⟩
  have hfirst := Pool.run_alone (CounterState.answer Op.idle) answer_at_seven
    (Run.nil : Run (Pool.Step (AnswersIn 60 0) Ticks)
      ⟨start, fun _ : Fin 2 => checkRateLimit true .user "team:ana" (1 : ℕ) 60⟩ [] _) rfl 0 _ rfl
  have hsecond := Pool.run_alone (CounterState.answer Op.idle) answer_at_seven hfirst
    (by decide +kernel) 1 (checkRateLimit true .user "team:ana" (1 : ℕ) 60) rfl
  let call : Coroutine RateLimitResult := checkRateLimit true .user "team:ana" (1 : ℕ) 60
  let results : Fin 2 → RateLimitResult := fun i =>
    if i = 0 then call.result (CounterState.answer Op.idle) start
    else call.result (CounterState.answer Op.idle) (call.final (CounterState.answer Op.idle) start)
  obtain ⟨acts, pool, hrun, hmembers⟩ : ∃ acts pool, Run (Pool.Step (AnswersIn 60 0) Ticks)
      ⟨start, fun _ : Fin 2 => call⟩ acts pool ∧ ∀ i, pool.members i = .done (results i) :=
    ⟨_, _, hsecond, Fin.forall_fin_two.mpr ⟨rfl, rfl⟩⟩
  have hdone := (admission_exact .user "team:ana" 1 60 0 (by decide) start rfl _ _ hrun).2
    results hmembers
  refine ⟨acts, pool, results, hmembers, ?_, hdone.2.2.1⟩
  intro hnone
  have hlength := hdone.1.length_eq
  rw [hnone] at hlength
  cases hlength

end InferenceControlPlane.Gateway
