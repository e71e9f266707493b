import InferenceControlPlane.Runs

/-!
# Programs that call their surroundings

A program is a tree of calls, each with one continuation for every reply. It is run
alone against a world that answers from a state, or step by step in a pool whose
members interleave their calls on a shared state.
-/
namespace InferenceControlPlane

inductive Program (Op : Type) (Reply : Op → Type) (α : Type) : Type where
  | done (a : α)
  | call (op : Op) (next : Reply op → Program Op Reply α)

/-- A call with its reply. The trace of a program is the list of its events, in their order. -/
structure Event (Op : Type) (Reply : Op → Type) where
  op : Op
  reply : Reply op

/-- Surroundings that answer every call from a state. -/
abbrev World (Op : Type) (Reply : Op → Type) (σ : Type) : Type :=
  (op : Op) → σ → Reply op × σ

namespace Program

variable {Op : Type} {Reply : Op → Type} {α β : Type}

def bind (p : Program Op Reply α) (f : α → Program Op Reply β) : Program Op Reply β :=
  match p with
  | done a => f a
  | call op next => call op fun r => (next r).bind f

instance programMonad : Monad (Program Op Reply) where
  pure := done
  bind := bind

/-- The program that is one call. -/
def perform (op : Op) : Program Op Reply (Reply op) := call op done

@[simp] theorem pure_eq (a : α) : (pure a : Program Op Reply α) = done a := rfl

@[simp] theorem done_bind (a : α) (f : α → Program Op Reply β) : (done a >>= f) = f a := rfl

@[simp] theorem call_bind (op : Op) (next : Reply op → Program Op Reply α)
    (f : α → Program Op Reply β) : (call op next >>= f) = call op fun r => next r >>= f := rfl

@[simp] theorem perform_bind (op : Op) (f : Reply op → Program Op Reply β) :
    (perform op >>= f) = call op f := rfl

protected theorem bind_assoc {γ : Type} (p : Program Op Reply α) (f : α → Program Op Reply β)
    (g : β → Program Op Reply γ) : (p >>= f >>= g) = p >>= fun a => f a >>= g := by
  induction p with
  | done a => rfl
  | call op next ih =>
    rw [call_bind, call_bind, call_bind]
    exact congrArg (call op) (funext ih)

/-! ## Alone in a world -/

section World
variable {σ : Type} (w : World Op Reply σ)

def result : Program Op Reply α → σ → α
  | done a, _ => a
  | call op next, s => (next (w op s).1).result (w op s).2

def final : Program Op Reply α → σ → σ
  | done _, s => s
  | call op next, s => (next (w op s).1).final (w op s).2

def trace : Program Op Reply α → σ → List (Event Op Reply)
  | done _, _ => []
  | call op next, s => ⟨op, (w op s).1⟩ :: (next (w op s).1).trace (w op s).2

/-- What is left of a program after so many of its calls, and the state that they left. -/
def advance : Program Op Reply α → ℕ → σ → Program Op Reply α × σ
  | done a, _, s => (done a, s)
  | call op next, 0, s => (call op next, s)
  | call op next, k + 1, s => (next (w op s).1).advance k (w op s).2

@[simp] theorem result_done (a : α) (s : σ) : (done a : Program Op Reply α).result w s = a := rfl

@[simp] theorem final_done (a : α) (s : σ) : (done a : Program Op Reply α).final w s = s := rfl

@[simp] theorem trace_done (a : α) (s : σ) : (done a : Program Op Reply α).trace w s = [] := rfl

@[simp] theorem result_call (op : Op) (next : Reply op → Program Op Reply α) (s : σ) :
    (call op next).result w s = (next (w op s).1).result w (w op s).2 := rfl

@[simp] theorem final_call (op : Op) (next : Reply op → Program Op Reply α) (s : σ) :
    (call op next).final w s = (next (w op s).1).final w (w op s).2 := rfl

@[simp] theorem trace_call (op : Op) (next : Reply op → Program Op Reply α) (s : σ) :
    (call op next).trace w s = ⟨op, (w op s).1⟩ :: (next (w op s).1).trace w (w op s).2 := rfl

@[simp] theorem result_bind (p : Program Op Reply α) (f : α → Program Op Reply β) (s : σ) :
    (p >>= f).result w s = (f (p.result w s)).result w (p.final w s) := by
  induction p generalizing s with
  | done a => rfl
  | call op next ih => exact ih _ _

@[simp] theorem final_bind (p : Program Op Reply α) (f : α → Program Op Reply β) (s : σ) :
    (p >>= f).final w s = (f (p.result w s)).final w (p.final w s) := by
  induction p generalizing s with
  | done a => rfl
  | call op next ih => exact ih _ _

@[simp] theorem trace_bind (p : Program Op Reply α) (f : α → Program Op Reply β) (s : σ) :
    (p >>= f).trace w s = p.trace w s ++ (f (p.result w s)).trace w (p.final w s) := by
  induction p generalizing s with
  | done a => rfl
  | call op next ih =>
    rw [call_bind, trace_call, trace_call, ih]
    rfl

/-- The state of a world after a list of calls. -/
def stateAfter (events : List (Event Op Reply)) (s : σ) : σ :=
  events.foldl (fun s e => (w e.op s).2) s

@[simp] theorem stateAfter_append (before after : List (Event Op Reply)) (s : σ) :
    stateAfter w (before ++ after) s = stateAfter w after (stateAfter w before s) :=
  List.foldl_append

theorem final_eq_stateAfter (p : Program Op Reply α) (s : σ) :
    p.final w s = stateAfter w (p.trace w s) s := by
  induction p generalizing s with
  | done a => rfl
  | call op next ih => exact ih _ _

/-- A call of a run is answered from the state that the calls before it lead to. -/
theorem reply_of_trace {p : Program Op Reply α} {s : σ} (before : List (Event Op Reply))
    {after : List (Event Op Reply)} {e : Event Op Reply}
    (h : p.trace w s = before ++ e :: after) :
    e.reply = (w e.op (stateAfter w before s)).1 := by
  induction p generalizing s before with
  | done a => simp at h
  | call op next ih =>
    cases before with
    | nil =>
      obtain ⟨rfl, -⟩ := List.cons.inj h
      rfl
    | cons first before =>
      obtain ⟨rfl, hrest⟩ := List.cons.inj h
      exact ih _ before hrest

end World

/-! ## Calls that a program may make -/

/-- Every call that the program can come to make satisfies `P`. -/
def Always (P : Op → Prop) : Program Op Reply α → Prop
  | done _ => True
  | call op next => P op ∧ ∀ r, (next r).Always P

@[simp] theorem always_done (P : Op → Prop) (a : α) : (done a : Program Op Reply α).Always P :=
  trivial

@[simp] theorem always_call (P : Op → Prop) (op : Op) (next : Reply op → Program Op Reply α) :
    (call op next).Always P ↔ P op ∧ ∀ r, (next r).Always P := Iff.rfl

theorem always_perform {P : Op → Prop} {op : Op} (h : P op) :
    (perform op : Program Op Reply (Reply op)).Always P := ⟨h, fun _ => trivial⟩

theorem Always.bind {P : Op → Prop} {p : Program Op Reply α} {f : α → Program Op Reply β}
    (hp : p.Always P) (hf : ∀ a, (f a).Always P) : (p >>= f).Always P := by
  induction p with
  | done a => exact hf a
  | call op next ih => exact ⟨hp.1, fun r => ih r (hp.2 r)⟩

theorem Always.mono {P Q : Op → Prop} {p : Program Op Reply α} (hp : p.Always P)
    (h : ∀ op, P op → Q op) : p.Always Q := by
  induction p with
  | done a => trivial
  | call op next ih => exact ⟨h op hp.1, fun r => ih r (hp.2 r)⟩

/-- The calls of a run are calls that the program may make. -/
theorem Always.trace {σ : Type} {P : Op → Prop} {p : Program Op Reply α} (hp : p.Always P)
    (w : World Op Reply σ) (s : σ) : ∀ e ∈ p.trace w s, P e.op := by
  induction p generalizing s with
  | done a => simp
  | call op next ih =>
    intro e he
    rcases List.mem_cons.mp he with rfl | he
    · exact hp.1
    · exact ih _ (hp.2 _) _ e he

/-! ## What every run ends with -/

/-- However its calls are answered, the program ends with calls and a value of which `Q`
holds. -/
def Ensures : Program Op Reply α → (List (Event Op Reply) → α → Prop) → Prop
  | done a, Q => Q [] a
  | call op next, Q => ∀ r, (next r).Ensures fun events a => Q (⟨op, r⟩ :: events) a

@[simp] theorem ensures_done (Q : List (Event Op Reply) → α → Prop) (a : α) :
    (done a : Program Op Reply α).Ensures Q ↔ Q [] a := Iff.rfl

theorem Ensures.mono {Q Q' : List (Event Op Reply) → α → Prop} {p : Program Op Reply α}
    (h : p.Ensures Q) (hQ : ∀ events a, Q events a → Q' events a) : p.Ensures Q' := by
  induction p generalizing Q Q' with
  | done a => exact hQ [] a h
  | call op next ih => exact fun r => ih r (h r) fun events a => hQ _ a

/-- The rule of conjunction. -/
theorem Ensures.and {Q Q' : List (Event Op Reply) → α → Prop} {p : Program Op Reply α}
    (h : p.Ensures Q) (h' : p.Ensures Q') : p.Ensures fun events a => Q events a ∧ Q' events a := by
  induction p generalizing Q Q' with
  | done a => exact ⟨h, h'⟩
  | call op next ih => exact fun r => ih r (h r) (h' r)

/-- The rule of sequence. -/
theorem Ensures.bind {Q : List (Event Op Reply) → β → Prop} {P : List (Event Op Reply) → α → Prop}
    {p : Program Op Reply α} {f : α → Program Op Reply β} (hp : p.Ensures P)
    (hf : ∀ events a, P events a → (f a).Ensures fun rest b => Q (events ++ rest) b) :
    (p >>= f).Ensures Q := by
  induction p generalizing P Q with
  | done a => exact hf [] a hp
  | call op next ih => exact fun r => ih r (hp r) fun events a => hf _ a

theorem Ensures.run {σ : Type} {Q : List (Event Op Reply) → α → Prop} {p : Program Op Reply α}
    (h : p.Ensures Q) (w : World Op Reply σ) (s : σ) : Q (p.trace w s) (p.result w s) := by
  induction p generalizing Q s with
  | done a => exact h
  | call op next ih => exact ih _ (h _) _

theorem Always.ensures {P : Op → Prop} {p : Program Op Reply α} (hp : p.Always P) :
    p.Ensures fun events _ => ∀ e ∈ events, P e.op := by
  induction p with
  | done a => simp [Ensures]
  | call op next ih =>
    intro r
    refine (ih r (hp.2 r)).mono fun events a h => ?_
    exact List.forall_mem_cons.mpr ⟨hp.1, h⟩

/-- A sequence may call what its first part may, and what the rest may after the values
that the first part can have. -/
theorem Always.bind_of_ensures {P : Op → Prop} {p : Program Op Reply α}
    {f : α → Program Op Reply β} (hp : p.Always P) (hf : p.Ensures fun _ a => (f a).Always P) :
    (p >>= f).Always P := by
  induction p with
  | done a => exact hf
  | call op next ih => exact ⟨hp.1, fun r => ih r (hp.2 r) (hf r)⟩

end Program

/-! ## Pools -/

/-- Members of a pool, each a program that has come to one of its calls, and the state that
answers the calls of all of them. -/
structure Pool (ι : Type) (Op : Type) (Reply : Op → Type) (α σ : Type) where
  shared : σ
  members : ι → Program Op Reply α

/-- What happens to a pool: a member's call is answered, or the shared state drifts. -/
inductive Act (ι : Type) (Op : Type) (Reply : Op → Type) where
  | called (i : ι) (event : Event Op Reply)
  | drifted

namespace Pool

variable {ι Op : Type} {Reply : Op → Type} {α σ : Type} [DecidableEq ι]

/-- One step of a pool. `answers` says which replies the shared state allows and what
they make of it; `drift` is what it does by itself. -/
inductive Step (answers : σ → (op : Op) → Reply op → σ → Prop) (drift : σ → σ → Prop) :
    Pool ι Op Reply α σ → Act ι Op Reply → Pool ι Op Reply α σ → Prop
  | called {pool : Pool ι Op Reply α σ} {i : ι} {op : Op} {next : Reply op → Program Op Reply α}
      {r : Reply op} {s : σ} (hmember : pool.members i = .call op next)
      (hanswer : answers pool.shared op r s) :
      Step answers drift pool (.called i ⟨op, r⟩)
        ⟨s, Function.update pool.members i (next r)⟩
  | drifted {pool : Pool ι Op Reply α σ} {s : σ} (h : drift pool.shared s) :
      Step answers drift pool .drifted ⟨s, pool.members⟩

/-- What the members may call, they may call in every state of a run. -/
theorem Step.always {answers : σ → (op : Op) → Reply op → σ → Prop} {drift : σ → σ → Prop}
    {pool pool' : Pool ι Op Reply α σ} {act : Act ι Op Reply} {P : ι → Op → Prop}
    (h : Step answers drift pool act pool') (hP : ∀ i, (pool.members i).Always (P i)) :
    ∀ i, (pool'.members i).Always (P i) := by
  cases h with
  | @called i op next r s hmember hanswer =>
    intro j
    rcases eq_or_ne j i with rfl | hne
    · have hi := hP j
      rw [hmember] at hi
      simpa using hi.2 r
    · simpa [hne] using hP j
  | drifted h => exact hP

/-- A member that makes so many of its calls alone in a world whose answers are allowed in the
states that it passes. -/
theorem run_advance {answers : σ → (op : Op) → Reply op → σ → Prop} {drift : σ → σ → Prop}
    {init pool : Pool ι Op Reply α σ} {acts : List (Act ι Op Reply)} (w : World Op Reply σ)
    (hw : ∀ op s, answers s op (w op s).1 (w op s).2)
    (hrun : Run (Step answers drift) init acts pool) (i : ι) (p : Program Op Reply α)
    (hp : pool.members i = p) (k : ℕ) :
    Run (Step answers drift) init (acts ++ ((p.trace w pool.shared).take k).map (.called i))
      ⟨(p.advance w k pool.shared).2,
        Function.update pool.members i (p.advance w k pool.shared).1⟩ := by
  have hstay : (⟨pool.shared, Function.update pool.members i p⟩ : Pool ι Op Reply α σ) = pool := by
    rw [← hp, Function.update_eq_self]
  induction p generalizing pool acts k with
  | done a =>
    rw [Program.trace_done, List.take_nil, List.map_nil, List.append_nil]
    exact hstay.symm ▸ hrun
  | call op next ih =>
    cases k with
    | zero =>
      rw [List.take_zero, List.map_nil, List.append_nil]
      exact hstay.symm ▸ hrun
    | succ k =>
      have hstep := hrun.snoc (Step.called hp (hw op pool.shared))
      have hrest := ih (w op pool.shared).1 hstep (by simp) k (by simp)
      simpa [Program.advance] using hrest

/-- A member that runs alone in a world whose answers are allowed in the states that it
passes. -/
theorem run_alone {answers : σ → (op : Op) → Reply op → σ → Prop} {drift : σ → σ → Prop}
    {init pool : Pool ι Op Reply α σ} {acts : List (Act ι Op Reply)} (w : World Op Reply σ)
    {P : σ → Prop} (hw : ∀ op s, P s → answers s op (w op s).1 (w op s).2 ∧ P (w op s).2)
    (hrun : Run (Step answers drift) init acts pool) (hP : P pool.shared) (i : ι)
    (p : Program Op Reply α) (hp : pool.members i = p) :
    Run (Step answers drift) init (acts ++ (p.trace w pool.shared).map (.called i))
      ⟨p.final w pool.shared,
        Function.update pool.members i (.done (p.result w pool.shared))⟩ := by
  induction p generalizing pool acts with
  | done a =>
    have hpool : (⟨pool.shared, Function.update pool.members i (.done a)⟩ :
        Pool ι Op Reply α σ) = pool := by
      rw [← hp, Function.update_eq_self]
    simpa [hpool] using hrun
  | call op next ih =>
    obtain ⟨hanswer, hP'⟩ := hw op pool.shared hP
    have hstep := hrun.snoc (Step.called hp hanswer)
    have hrest := ih (w op pool.shared).1 hstep hP' (by simp)
    simpa using hrest

end Pool
end InferenceControlPlane
