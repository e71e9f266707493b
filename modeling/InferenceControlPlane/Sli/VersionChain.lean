import InferenceControlPlane.Runs
import InferenceControlPlane.Sli.Checkpoint
import Mathlib.Data.List.Count
import Mathlib.Logic.Function.Basic

/-!
# Optimistic commits form a chain

Any number of store objects share one item. A call makes one request and otherwise
touches its own object only, so a call is one step. The versions that are written count
up from 1, and of the saves that start from one version the first is the one that
succeeds.
-/
namespace InferenceControlPlane.Sli
open Python

/-- The shared item, and the version that each store object holds, which is the one it last loaded
or wrote. -/
structure Stores (ι : Type) where
  item : Option DynamoItem
  version : ι → ℕ

/-- A call with what it returned or raised. -/
inductive StoreCall where
  | loaded (result : Except PyErr (Option Checkpoint))
  | saved (cp : Checkpoint) (result : Except SaveError Unit)

/-- A call of one store with its outcome, the item before and after it, and the version that the
store held. Histories are lists of these. -/
structure StoreEvent (ι : Type) where
  store : ι
  call : StoreCall
  before : Option DynamoItem
  after : Option DynamoItem
  observed : ℕ
  held : ℕ

/-- What a save returned or raised. -/
def StoreCall.saveResult : StoreCall → Option (Except SaveError Unit)
  | loaded _ => none
  | saved _ result => some result

def StoreCall.isCommit : StoreCall → Bool
  | saved _ (.ok _) => true
  | _ => false

section
variable {ι : Type} [DecidableEq ι]

namespace Stores

/-- What a store object sees. -/
def view (s : Stores ι) (i : ι) : DynamoState := ⟨s.item, s.version i⟩

def put (s : Stores ι) (i : ι) (state : DynamoState) : Stores ι :=
  ⟨state.item, Function.update s.version i state.version⟩

/-- A call of store `i` that leaves its view at `state`. -/
def event (s : Stores ι) (i : ι) (call : StoreCall) (state : DynamoState) : StoreEvent ι :=
  ⟨i, call, s.item, state.item, s.version i, state.version⟩

/-- One store loads or saves. -/
inductive Step [Runtime] : Stores ι → StoreEvent ι → Stores ι → Prop
  | load (s : Stores ι) (i : ι) : Step s
      (s.event i (.loaded (s.view i).load.1) (s.view i).load.2) (s.put i (s.view i).load.2)
  | save (s : Stores ι) (i : ι) (cp : Checkpoint) : Step s
      (s.event i (.saved cp ((s.view i).save cp).1) ((s.view i).save cp).2)
      (s.put i ((s.view i).save cp).2)

/-- No item, and store objects that have not loaded. -/
def fresh : Stores ι := ⟨none, fun _ => 0⟩

end Stores

/-! ## What a history says -/

/-- The successful saves. -/
def commits (events : List (StoreEvent ι)) : List (StoreEvent ι) :=
  events.filter (·.call.isCommit)

/-- The version that store `i` knows of after one more event: a load and a write teach it, a
refused write does not. -/
def learn (i : ι) (v : ℕ) (e : StoreEvent ι) : ℕ :=
  if e.store = i then
    match e.call with
    | .loaded _ => versionOf e.before
    | .saved _ (.ok _) => versionOf e.after
    | .saved _ (.error _) => v
  else v

/-- The version that a store last loaded or wrote; 0 if it did neither. -/
def lastVersion (i : ι) (events : List (StoreEvent ι)) : ℕ := events.foldl (learn i) 0

/-- The results of the saves that started from a version. -/
def attemptsFrom (v : ℕ) (events : List (StoreEvent ι)) : List (Except SaveError Unit) :=
  events.filterMap fun e => if e.observed = v then e.call.saveResult else none

/-- The invariant between a history and the stores that it leaves: the item's version counts the
commits, and each store holds the version that it last observed. -/
structure Linked (events : List (StoreEvent ι)) (s : Stores ι) : Prop where
  item : versionOf s.item = (commits events).length
  present : ∀ it, s.item = some it → it.version ≠ 0
  held : ∀ i, s.version i = lastVersion i events
  behind : ∀ i, s.version i ≤ versionOf s.item
  versions : (commits events).map (fun e => versionOf e.after) =
    (List.range (commits events).length).map (· + 1)
  settled : ∀ v < versionOf s.item, (attemptsFrom v events).countP (·.isOk) = 1
  untried : ∀ v, versionOf s.item ≤ v → attemptsFrom v events = []

omit [DecidableEq ι] in
/-- A conditional write goes through when the version is that of the item. -/
lemma condition_iff {state : DynamoState} (h : ∀ it, state.item = some it → it.version ≠ 0) :
    state.condition = true ↔ state.version = versionOf state.item := by
  obtain ⟨item, version⟩ := state
  cases item with
  | none => simp [DynamoState.condition, versionOf]
  | some it =>
    have hit := h it rfl
    simp only [DynamoState.condition, versionOf, Option.map_some, Option.getD_some,
      Bool.and_eq_true, bne_iff_ne, beq_iff_eq]
    omega

omit [DecidableEq ι] in
lemma commits_snoc (events : List (StoreEvent ι)) (e : StoreEvent ι) :
    commits (events ++ [e]) = commits events ++ if e.call.isCommit then [e] else [] := by
  rw [commits, commits, List.filter_append, List.filter_singleton, cond_eq_ite]

lemma lastVersion_snoc (i : ι) (events : List (StoreEvent ι)) (e : StoreEvent ι) :
    lastVersion i (events ++ [e]) = learn i (lastVersion i events) e := by
  rw [lastVersion, List.foldl_append]
  rfl

omit [DecidableEq ι] in
lemma attemptsFrom_snoc (v : ℕ) (events : List (StoreEvent ι)) (e : StoreEvent ι) :
    attemptsFrom v (events ++ [e]) =
      attemptsFrom v events ++ if e.observed = v then e.call.saveResult.toList else [] := by
  rw [attemptsFrom, List.filterMap_append]
  split_ifs with h <;> simp [attemptsFrom, h, List.filterMap_cons]
  cases e.call.saveResult <;> rfl

/-- A call that commits nothing: a load, or a save from an outdated version. -/
lemma Linked.quiet {events : List (StoreEvent ι)} {s s' : Stores ι} (h : Linked events s)
    {e : StoreEvent ι} (hcommit : e.call.isCommit = false) (hitem : s'.item = s.item)
    (hheld : ∀ i, s'.version i = learn i (s.version i) e)
    (hbehind : ∀ i, s'.version i ≤ versionOf s.item)
    (hattempt : ∀ r, e.call.saveResult = some r → r.isOk = false ∧ e.observed < versionOf s.item) :
    Linked (events ++ [e]) s' := by
  have hcommits : commits (events ++ [e]) = commits events := by
    simp [commits_snoc, hcommit]
  refine ⟨?_, ?_, ?_, ?_, ?_, ?_, ?_⟩
  · rw [hitem, hcommits, h.item]
  · rw [hitem]
    exact h.present
  · intro i
    rw [hheld, lastVersion_snoc, h.held]
  · rw [hitem]
    exact hbehind
  · rw [hcommits]
    exact h.versions
  · intro v hv
    rw [hitem] at hv
    have hnone : (if e.observed = v then e.call.saveResult.toList else []).countP (·.isOk) = 0 := by
      split_ifs
      · rw [List.countP_eq_zero]
        intro r hr
        rw [Option.mem_toList] at hr
        simp [(hattempt r hr).1]
      · rfl
    rw [attemptsFrom_snoc, List.countP_append, h.settled v hv, hnone]
  · intro v hv
    rw [hitem] at hv
    rw [attemptsFrom_snoc, h.untried v hv, List.nil_append]
    split_ifs with hobserved
    · cases hresult : e.call.saveResult with
      | none => rfl
      | some r =>
        have hbefore := (hattempt r hresult).2
        omega
    · rfl

/-- A save from the version of the item. -/
lemma Linked.commit {events : List (StoreEvent ι)} {s : Stores ι} (h : Linked events s) (i : ι)
    (cp : Checkpoint) (hcurrent : s.version i = versionOf s.item) :
    let state : DynamoState := ⟨some ⟨s.version i + 1, cp.stored⟩, s.version i + 1⟩
    Linked (events ++ [s.event i (.saved cp (.ok ())) state]) (s.put i state) := by
  intro state
  have hversion : versionOf state.item = versionOf s.item + 1 := congrArg (· + 1) hcurrent
  have hcommits : commits (events ++ [s.event i (.saved cp (.ok ())) state]) =
      commits events ++ [s.event i (.saved cp (.ok ())) state] := by
    rw [commits_snoc]
    rfl
  have htries : ∀ v, attemptsFrom v (events ++ [s.event i (.saved cp (.ok ())) state]) =
      attemptsFrom v events ++ if s.version i = v then [.ok ()] else [] :=
    fun v => attemptsFrom_snoc v events _
  refine ⟨?_, ?_, ?_, ?_, ?_, ?_, ?_⟩
  · rw [hcommits, List.length_append, ← h.item]
    exact hversion
  · rintro it ⟨⟩
    exact Nat.succ_ne_zero _
  · intro j
    rw [lastVersion_snoc, ← h.held]
    by_cases hj : j = i
    · subst hj
      simp [Stores.put, Stores.event, learn, state, versionOf]
    · simp [Stores.put, Stores.event, learn, hj, Ne.symm hj]
  · intro j
    change (s.put i state).version j ≤ versionOf state.item
    rw [hversion]
    by_cases hj : j = i
    · subst hj
      simp [Stores.put, state, hcurrent]
    · simp only [Stores.put, Function.update_of_ne hj]
      have hbehind := h.behind j
      omega
  · rw [hcommits, List.map_append, h.versions, List.length_append, List.length_singleton,
      List.range_succ, List.map_append, ← h.item]
    simp [Stores.event, hversion]
  · intro v hv
    change v < versionOf state.item at hv
    rw [htries, List.countP_append]
    by_cases hlast : v = versionOf s.item
    · rw [h.untried v (by omega), if_pos (hcurrent.trans hlast.symm)]
      rfl
    · rw [h.settled v (by omega), if_neg fun heq => hlast (heq.symm.trans hcurrent)]
      rfl
  · intro v hv
    change versionOf state.item ≤ v at hv
    have hne : s.version i ≠ v := by omega
    rw [htries, h.untried v (by omega), if_neg hne]
    rfl

theorem linked_step [Runtime] {events : List (StoreEvent ι)} {s s' : Stores ι} {e : StoreEvent ι}
    (h : Linked events s) (hstep : Stores.Step s e s') : Linked (events ++ [e]) s' := by
  cases hstep with
  | load i =>
    obtain ⟨hstate, -⟩ := load_versionOf (s.view i)
    rw [hstate]
    refine h.quiet rfl rfl (fun j => ?_) (fun j => ?_) (by rintro _ ⟨⟩)
    · by_cases hj : j = i
      · subst hj
        simp [Stores.put, Stores.event, Stores.view, learn]
      · simp [Stores.put, Stores.event, learn, hj, Ne.symm hj]
    · by_cases hj : j = i
      · subst hj
        simp [Stores.put, Stores.view]
      · simpa [Stores.put, hj] using h.behind j
  | save i cp =>
    by_cases hcondition : (s.view i).condition = true
    · have hcurrent : s.version i = versionOf s.item :=
        (condition_iff h.present).mp hcondition
      have hsave : (s.view i).save cp =
          (.ok (), ⟨some ⟨s.version i + 1, cp.stored⟩, s.version i + 1⟩) := if_pos hcondition
      rw [hsave]
      exact h.commit i cp hcurrent
    · have hsave : (s.view i).save cp = (.error .conflict, s.view i) := if_neg hcondition
      have houtdated : s.version i ≠ versionOf s.item :=
        fun heq => hcondition ((condition_iff h.present).mpr heq)
      have hbehind := h.behind i
      rw [hsave]
      refine h.quiet rfl rfl (fun j => ?_) (fun j => ?_) ?_
      · by_cases hj : j = i
        · subst hj
          simp [Stores.put, Stores.event, Stores.view, learn]
        · simp [Stores.put, Stores.event, learn, hj, Ne.symm hj]
      · by_cases hj : j = i
        · subst hj
          simpa [Stores.put, Stores.view] using hbehind
        · simpa [Stores.put, hj] using h.behind j
      · rintro _ ⟨⟩
        exact ⟨rfl, by simp only [Stores.event]; omega⟩

lemma linked_fresh : Linked [] (Stores.fresh : Stores ι) := by
  refine ⟨rfl, ?_, fun _ => rfl, fun _ => le_rfl, rfl, ?_, fun _ _ => rfl⟩
  · rintro _ ⟨⟩
  · intro v hv
    exact absurd hv (Nat.not_lt_zero v)

theorem linked_run [Runtime] {events : List (StoreEvent ι)} {s : Stores ι}
    (hrun : Run Stores.Step .fresh events s) : Linked events s :=
  hrun.invariant linked_fresh fun _ _ _ _ h hstep => linked_step h hstep

/-! ## The chain -/

/-- What a history of loads and saves guarantees: the versions count the commits, each commit
replaces the version that its store had observed last, of the saves from one version exactly one
commits, and a failed save changes nothing. -/
structure Chain (events : List (StoreEvent ι)) : Prop where
  versions : (commits events).map (fun e => versionOf e.after) =
    (List.range (commits events).length).map (· + 1)
  observed : ∀ earlier e later, events = earlier ++ e :: later →
    e.observed = lastVersion e.store earlier
  replaced : ∀ e ∈ events, e.call.isCommit = true →
    versionOf e.before = e.observed ∧ versionOf e.after = e.observed + 1
  once : ∀ v, attemptsFrom v events ≠ [] → (attemptsFrom v events).countP (·.isOk) = 1 ∧
    ∀ r ∈ attemptsFrom v events, r = .ok () ∨ r = .error .conflict
  unchanged : ∀ e ∈ events, e.call.isCommit = false → e.after = e.before
  kept : ∀ e ∈ events, ∀ cp error, e.call = .saved cp (.error error) → e.held = e.observed

/-- One call, in stores that a history leaves. -/
structure StepFacts (s : Stores ι) (e : StoreEvent ι) : Prop where
  observed : e.observed = s.version e.store
  replaced : e.call.isCommit = true → versionOf e.before = e.observed ∧
    versionOf e.after = e.observed + 1
  result : ∀ r, e.call.saveResult = some r → r = .ok () ∨ r = .error .conflict
  unchanged : e.call.isCommit = false → e.after = e.before
  kept : ∀ cp error, e.call = .saved cp (.error error) → e.held = e.observed

lemma stepFacts [Runtime] {s s' : Stores ι} {e : StoreEvent ι}
    (hpresent : ∀ it, s.item = some it → it.version ≠ 0) (hstep : Stores.Step s e s') :
    StepFacts s e := by
  cases hstep with
  | load i =>
    obtain ⟨hstate, -⟩ := load_versionOf (s.view i)
    rw [hstate]
    refine ⟨rfl, ?_, ?_, fun _ => rfl, ?_⟩
    · rintro ⟨⟩
    · rintro _ ⟨⟩
    · rintro _ _ ⟨⟩
  | save i cp =>
    by_cases hcondition : (s.view i).condition = true
    · have hcurrent : s.version i = versionOf s.item := (condition_iff hpresent).mp hcondition
      have hsave : (s.view i).save cp =
          (.ok (), ⟨some ⟨s.version i + 1, cp.stored⟩, s.version i + 1⟩) := if_pos hcondition
      rw [hsave]
      refine ⟨rfl, fun _ => ⟨hcurrent.symm, rfl⟩, ?_, ?_, ?_⟩
      · rintro _ ⟨⟩
        exact .inl rfl
      · rintro ⟨⟩
      · rintro _ _ ⟨⟩
    · have hsave : (s.view i).save cp = (.error .conflict, s.view i) := if_neg hcondition
      rw [hsave]
      refine ⟨rfl, ?_, ?_, fun _ => rfl, fun _ _ _ => rfl⟩
      · rintro ⟨⟩
      · rintro _ ⟨⟩
        exact .inr rfl

/-- Any number of stores load and save in any order, on an item that is not there at first: the
commits form one chain, in which none overwrites a version that its writer had not observed. -/
theorem commits_chain [Runtime] (events : List (StoreEvent ι)) (s : Stores ι)
    (hrun : Run Stores.Step .fresh events s) : Chain events := by
  have h := linked_run hrun
  have hfacts : ∀ earlier e later, events = earlier ++ e :: later →
      ∃ s₁, Linked earlier s₁ ∧ StepFacts s₁ e := by
    rintro earlier e later rfl
    obtain ⟨s₁, s₂, hearlier, hstep⟩ := hrun.step_of_append
    have hlinked := linked_run hearlier
    exact ⟨s₁, hlinked, stepFacts hlinked.present hstep⟩
  have hevent : ∀ e ∈ events, ∃ s₁, StepFacts s₁ e := by
    intro e he
    obtain ⟨earlier, later, hsplit⟩ := List.append_of_mem he
    obtain ⟨s₁, -, hstep⟩ := hfacts earlier e later hsplit
    exact ⟨s₁, hstep⟩
  refine ⟨h.versions, ?_, ?_, ?_, ?_, ?_⟩
  · intro earlier e later hsplit
    obtain ⟨s₁, hlinked, hstep⟩ := hfacts earlier e later hsplit
    rw [hstep.observed, hlinked.held]
  · intro e he
    obtain ⟨s₁, hstep⟩ := hevent e he
    exact hstep.replaced
  · intro v htried
    have hbefore : v < versionOf s.item := by
      by_contra hnot
      exact htried (h.untried v (by omega))
    refine ⟨h.settled v hbefore, fun r hr => ?_⟩
    obtain ⟨e, he, hresult⟩ := List.mem_filterMap.mp hr
    obtain ⟨s₁, hstep⟩ := hevent e he
    split_ifs at hresult
    exact hstep.result r hresult
  · intro e he
    obtain ⟨s₁, hstep⟩ := hevent e he
    exact hstep.unchanged
  · intro e he
    obtain ⟨s₁, hstep⟩ := hevent e he
    exact hstep.kept

end

/-- Two stores race for the first write; the loser loads and writes the second version. -/
theorem commits_chain_sample :
    letI := Runtime.ascii
    ∃ (events : List (StoreEvent Bool)) (s : Stores Bool), Run Stores.Step .fresh events s ∧
      attemptsFrom 0 events = [.ok (), .error .conflict] ∧ attemptsFrom 1 events = [.ok ()] ∧
      Chain events := by
  let ascii := Runtime.ascii
  let cp : Checkpoint := ⟨none, .empty⟩
  have hloads := ((Run.nil : Run Stores.Step (.fresh : Stores Bool) [] .fresh).snoc
    (.load _ false)).snoc (.load _ true)
  have hrace := (hloads.snoc (.save _ false cp)).snoc (.save _ true cp)
  have hrun := (hrace.snoc (.load _ true)).snoc (.save _ true cp)
  exact ⟨_, _, hrun, rfl, rfl, commits_chain _ _ hrun⟩

end InferenceControlPlane.Sli
