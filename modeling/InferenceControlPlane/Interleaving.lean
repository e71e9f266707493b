import InferenceControlPlane.Programs
import Mathlib.Algebra.BigOperators.Group.Finset.Piecewise
import Mathlib.Algebra.GroupWithZero.Nat
import Mathlib.Algebra.Order.BigOperators.Group.Finset

/-!
# What the members of a pool do together

The calls of a run are the calls of its members, each of which follows its own program.
What programs ensure of their calls one by one thus adds up over every interleaving.
-/
namespace InferenceControlPlane

variable {Op : Type} {Reply : Op → Type}

namespace Program

variable {α : Type}

/-- The calls that lead from one program to another, each with its reply. Any replies lead
somewhere, since a program has a continuation for each of them. -/
inductive Reaches (p : Program Op Reply α) : List (Event Op Reply) → Program Op Reply α → Prop
  | refl : Reaches p [] p
  | snoc {events : List (Event Op Reply)} {op : Op} {next : Reply op → Program Op Reply α}
      (r : Reply op) (h : Reaches p events (call op next)) :
      Reaches p (events ++ [⟨op, r⟩]) (next r)

/-- After some of its calls, a program still ensures what it ensured. -/
theorem Ensures.after {Q : List (Event Op Reply) → α → Prop} {p q : Program Op Reply α}
    {events : List (Event Op Reply)} (h : p.Ensures Q) (hreach : p.Reaches events q) :
    q.Ensures fun rest a => Q (events ++ rest) a := by
  induction hreach with
  | refl => exact h
  | snoc r _ ih =>
    refine (ih r).mono fun rest a hrest => ?_
    rw [List.append_assoc]
    exact hrest

theorem Ensures.of_done {Q : List (Event Op Reply) → α → Prop} {p : Program Op Reply α}
    {events : List (Event Op Reply)} {a : α} (h : p.Ensures Q)
    (hreach : p.Reaches events (.done a)) : Q events a := by
  have hafter := h.after hreach
  simpa using hafter

/-- Without a call, a program is where it was. -/
theorem Reaches.of_nil {p q : Program Op Reply α} (h : p.Reaches [] q) : q = p := by
  generalize hevents : [] = events at h
  induction h with
  | refl => rfl
  | snoc r _ _ => simp at hevents

/-- What a program has returned. -/
def returned : Program Op Reply α → Option α
  | done a => some a
  | call _ _ => none

lemma returned_eq_some {p : Program Op Reply α} {a : α} : p.returned = some a ↔ p = .done a := by
  cases p with
  | done b => simp [returned]
  | call op next => simp [returned]

/-- Where every call can be answered, a program can end. -/
theorem Ensures.exists [hreply : ∀ op, Nonempty (Reply op)] {Q : List (Event Op Reply) → α → Prop}
    {p : Program Op Reply α} (h : p.Ensures Q) : ∃ events a, Q events a := by
  induction p generalizing Q with
  | done a => exact ⟨[], a, h⟩
  | call op next ih =>
    obtain ⟨r⟩ := hreply op
    obtain ⟨events, a, hQ⟩ := ih r (h r)
    exact ⟨_, a, hQ⟩

/-- What the calls of a program add up to at most, some of them do too. -/
theorem Ensures.sum_le [∀ op, Nonempty (Reply op)] {f : Event Op Reply → ℕ} {k : ℕ}
    {p q : Program Op Reply α} {events : List (Event Op Reply)}
    (h : p.Ensures fun events _ => (events.map f).sum ≤ k) (hreach : p.Reaches events q) :
    (events.map f).sum ≤ k := by
  obtain ⟨rest, a, hsum⟩ := (h.after hreach).exists
  rw [List.map_append, List.sum_append] at hsum
  omega

end Program

namespace Pool
open Program

variable {ι α σ : Type} [DecidableEq ι]

/-- The calls of a run. -/
def calls (acts : List (Act ι Op Reply)) : List (Event Op Reply) :=
  acts.filterMap fun
    | .called _ event => some event
    | .drifted => none

/-- The calls of one member. -/
def callsOf (i : ι) (acts : List (Act ι Op Reply)) : List (Event Op Reply) :=
  acts.filterMap fun
    | .called j event => if j = i then some event else none
    | .drifted => none

lemma callsOf_append (i : ι) (acts acts' : List (Act ι Op Reply)) :
    callsOf i (acts ++ acts') = callsOf i acts ++ callsOf i acts' := List.filterMap_append

@[simp] lemma callsOf_self (i : ι) (event : Event Op Reply) :
    callsOf i [.called i event] = [event] := by
  simp [callsOf]

lemma callsOf_other {i j : ι} (h : j ≠ i) (event : Event Op Reply) :
    callsOf i [.called j event] = [] := by
  simp [callsOf, h]

@[simp] lemma callsOf_drifted (i : ι) :
    callsOf i [(.drifted : Act ι Op Reply)] = [] := rfl

/-- Each member is where its own calls lead. -/
theorem reaches {answers : σ → (op : Op) → Reply op → σ → Prop} {drift : σ → σ → Prop}
    {init pool : Pool ι Op Reply α σ} {acts : List (Act ι Op Reply)}
    (hrun : Run (Step answers drift) init acts pool) (i : ι) :
    (init.members i).Reaches (callsOf i acts) (pool.members i) := by
  induction hrun with
  | nil => exact .refl
  | snoc _ hstep ih =>
    rw [callsOf_append]
    cases hstep with
    | drifted h =>
      rw [callsOf_drifted, List.append_nil]
      exact ih
    | @called j op next r s hmember hanswer =>
      by_cases hj : j = i
      · subst hj
        rw [hmember] at ih
        simpa using ih.snoc r
      · rw [callsOf_other hj, List.append_nil]
        simpa [Ne.symm hj] using ih

/-- A sum over the calls of a run is a sum over the calls of its members. -/
theorem sum_calls {M : Type} [AddCommMonoid M] (f : Event Op Reply → M)
    (acts : List (Act ι Op Reply)) (members : Finset ι)
    (hmembers : ∀ i event, .called i event ∈ acts → i ∈ members) :
    ((calls acts).map f).sum = ∑ i ∈ members, ((callsOf i acts).map f).sum := by
  induction acts with
  | nil => simp [calls, callsOf]
  | cons act acts ih =>
    have hrest : ∀ i event, .called i event ∈ acts → i ∈ members :=
      fun i event h => hmembers i event (List.mem_cons_of_mem act h)
    cases act with
    | drifted => exact ih hrest
    | called j event =>
      have hj : j ∈ members := hmembers j event List.mem_cons_self
      have hcons : ∀ i, ((callsOf i (.called j event :: acts)).map f).sum =
          (if j = i then f event else 0) + ((callsOf i acts).map f).sum := by
        intro i
        by_cases h : j = i
        · simp [callsOf, h]
        · simp [callsOf, h]
      have htogether : ((calls (.called j event :: acts)).map f).sum =
          f event + ((calls acts).map f).sum := by
        simp [calls]
      simp only [htogether, hcons, Finset.sum_add_distrib, Finset.sum_ite_eq, if_pos hj]
      rw [ih hrest]

/-- Two sums that agree over the calls of every member agree over the calls of the run. -/
theorem sum_calls_eq {M : Type} [AddCommMonoid M] (f g : Event Op Reply → M)
    (acts : List (Act ι Op Reply))
    (h : ∀ i event, .called i event ∈ acts →
      ((callsOf i acts).map f).sum = ((callsOf i acts).map g).sum) :
    ((calls acts).map f).sum = ((calls acts).map g).sum := by
  let caller : Act ι Op Reply → Option ι
    | .called i _ => some i
    | .drifted => none
  let members : Finset ι := (acts.filterMap caller).toFinset
  have hmem : ∀ i, i ∈ members ↔ ∃ event, .called i event ∈ acts := by
    intro i
    simp only [members, List.mem_toFinset, List.mem_filterMap]
    constructor
    · intro hcaller
      obtain ⟨act, hact, hi⟩ := hcaller
      cases act with
      | called j event =>
        cases hi
        exact ⟨event, hact⟩
      | drifted => cases hi
    · intro hcalled
      obtain ⟨event, hact⟩ := hcalled
      exact ⟨_, hact, rfl⟩
  have hcallers : ∀ i event, .called i event ∈ acts → i ∈ members :=
    fun i event hact => (hmem i).mpr ⟨event, hact⟩
  rw [sum_calls f acts members hcallers, sum_calls g acts members hcallers]
  apply Finset.sum_congr rfl
  intro i hi
  obtain ⟨event, hact⟩ := (hmem i).mp hi
  exact h i event hact

/-! ### In flight -/

section InFlight
variable [Fintype ι]

/-- The number of members that have not returned. -/
def inFlight (pool : Pool ι Op Reply α σ) : ℕ :=
  (Finset.univ.filter fun i => (pool.members i).returned = none).card

/-- What the members that returned add up to is the sum over the calls of the run, up to the
members in flight. -/
theorem sum_calls_within {f : Event Op Reply → ℕ} {c : ι → α → ℕ} {pool : Pool ι Op Reply α σ}
    {acts : List (Act ι Op Reply)}
    (hdone : ∀ i a, pool.members i = .done a → ((callsOf i acts).map f).sum = c i a)
    (hopen : ∀ i, ((callsOf i acts).map f).sum ≤ 1) :
    (∑ i, (pool.members i).returned.elim 0 (c i)) ≤ ((calls acts).map f).sum ∧
      ((calls acts).map f).sum ≤ (∑ i, (pool.members i).returned.elim 0 (c i)) + pool.inFlight := by
  have hflight : pool.inFlight = ∑ i, if (pool.members i).returned = none then 1 else 0 := by
    rw [inFlight, Finset.card_filter]
  rw [sum_calls f acts Finset.univ fun i _ _ => Finset.mem_univ i, hflight,
    ← Finset.sum_add_distrib]
  constructor
  · apply Finset.sum_le_sum
    intro i _
    cases hi : (pool.members i).returned with
    | none => exact Nat.zero_le _
    | some a => exact (hdone i a (returned_eq_some.mp hi)).ge
  · apply Finset.sum_le_sum
    intro i _
    cases hi : (pool.members i).returned with
    | none =>
      rw [if_pos rfl]
      exact hopen i
    | some a =>
      rw [if_neg (Option.some_ne_none a)]
      exact (hdone i a (returned_eq_some.mp hi)).le

end InFlight

/-- A call of the run is a call of its member. -/
theorem mem_calls {acts : List (Act ι Op Reply)} {event : Event Op Reply}
    (h : event ∈ calls acts) : ∃ i, .called i event ∈ acts ∧ event ∈ callsOf i acts := by
  obtain ⟨act, hact, hevent⟩ := List.mem_filterMap.mp h
  cases act with
  | called i call =>
    cases hevent
    exact ⟨i, hact, List.mem_filterMap.mpr ⟨_, hact, if_pos rfl⟩⟩
  | drifted => cases hevent

theorem mem_callsOf {i : ι} {acts : List (Act ι Op Reply)} {event : Event Op Reply}
    (h : event ∈ callsOf i acts) : .called i event ∈ acts := by
  obtain ⟨act, hact, hevent⟩ := List.mem_filterMap.mp h
  cases act with
  | called j call =>
    simp only [Option.ite_none_right_eq_some, Option.some.injEq] at hevent
    obtain ⟨rfl, rfl⟩ := hevent
    exact hact
  | drifted => cases hevent

theorem callsOf_subset (i : ι) (acts : List (Act ι Op Reply)) : callsOf i acts ⊆ calls acts := by
  intro event h
  obtain ⟨act, hact, hevent⟩ := List.mem_filterMap.mp h
  cases act with
  | called j call =>
    simp only [Option.ite_none_right_eq_some, Option.some.injEq] at hevent
    exact List.mem_filterMap.mpr ⟨_, hact, congrArg some hevent.2⟩
  | drifted => cases hevent

/-- The steps of a pool, stamped with a reading of the state that they start from. -/
def Stamped {τ : Type} (stamp : σ → τ)
    (step : Pool ι Op Reply α σ → Act ι Op Reply → Pool ι Op Reply α σ → Prop)
    (pool : Pool ι Op Reply α σ) (label : τ × Act ι Op Reply)
    (pool' : Pool ι Op Reply α σ) : Prop :=
  label.1 = stamp pool.shared ∧ step pool label.2 pool'

omit [DecidableEq ι] in
/-- Every run can be stamped. -/
theorem run_stamped {τ : Type} (stamp : σ → τ)
    {step : Pool ι Op Reply α σ → Act ι Op Reply → Pool ι Op Reply α σ → Prop}
    {init pool : Pool ι Op Reply α σ} {acts : List (Act ι Op Reply)}
    (hrun : Run step init acts pool) :
    ∃ labels, labels.map Prod.snd = acts ∧ Run (Stamped stamp step) init labels pool := by
  induction hrun with
  | nil => exact ⟨[], rfl, .nil⟩
  | @snoc acts pool pool' act _ hstep ih =>
    obtain ⟨labels, hlabels, hstamped⟩ := ih
    refine ⟨labels ++ [(stamp pool.shared, act)], ?_, hstamped.snoc ⟨rfl, hstep⟩⟩
    rw [List.map_append, hlabels]
    rfl

end Pool
end InferenceControlPlane
