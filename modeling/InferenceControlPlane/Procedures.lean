import InferenceControlPlane.Programs

/-!
# Procedures

A procedure calls its surroundings, keeps a state of its own, and may raise; what it has done to
its state stays done when it raises. A triple says from which states a procedure starts, in which
it returns or raises, and that its calls are steps of a machine that describes the state. What
relates a state, the calls from there and the state after them goes through a procedure part by
part when it holds of calls in a row as soon as it holds of each.
-/
namespace InferenceControlPlane

variable {σ Op ε : Type} {Reply : Op → Type} {α β : Type}

def Procedure (σ Op : Type) (Reply : Op → Type) (ε α : Type) : Type :=
  σ → Program Op Reply (Except ε α × σ)

namespace Procedure
open Program

/-- What follows a procedure, unless it raised. -/
def following (f : α → Procedure σ Op Reply ε β) :
    Except ε α × σ → Program Op Reply (Except ε β × σ)
  | (.ok a, s) => f a s
  | (.error e, s) => done (.error e, s)

instance procedureMonad : Monad (Procedure σ Op Reply ε) where
  pure a := fun s => done (.ok a, s)
  bind x f := fun s => x s >>= following f

/-- A call, which may raise. -/
def ask (op : Op) (result : Reply op → Except ε α) : Procedure σ Op Reply ε α :=
  fun s => call op fun r => done (result r, s)

/-- What is left of a result once a cleanup has ended. -/
def cleanedUp (result : Except ε α) : Except ε Unit × σ → Except ε α × σ
  | (.ok (), s) => (result, s)
  | (.error e, s) => (.error e, s)

/-- `try: … finally: …`. -/
def tryFinally (body : Procedure σ Op Reply ε α) (cleanup : Procedure σ Op Reply ε Unit) :
    Procedure σ Op Reply ε α :=
  fun s => do
    let (result, s) ← body s
    return cleanedUp result (← cleanup s)

/-! ## Triples -/

/-- How a procedure may end: with a value in a state that satisfies `post`, or with an exception
in one that satisfies `raises`. -/
inductive Ends (post : α → σ → Prop) (raises : ε → σ → Prop) : Except ε α × σ → Prop
  | returned {a : α} {s : σ} (h : post a s) : Ends post raises (.ok a, s)
  | raised {e : ε} {s : σ} (h : raises e s) : Ends post raises (.error e, s)

def Triple (step : σ → Event Op Reply → σ → Prop) (pre : σ → Prop) (x : Procedure σ Op Reply ε α)
    (post : α → σ → Prop) (raises : ε → σ → Prop) : Prop :=
  ∀ s, pre s → (x s).Ensures fun events r => Run step s events r.2 ∧ Ends post raises r

section Rules
variable {step : σ → Event Op Reply → σ → Prop} {pre : σ → Prop} {raises : ε → σ → Prop}

/-- The rule of calls: whatever the call is answered with is a step that leaves the state. -/
theorem triple_ask {post : α → σ → Prop} {op : Op} {result : Reply op → Except ε α}
    (hstep : ∀ s r, pre s → step s ⟨op, r⟩ s)
    (hend : ∀ s r, pre s → Ends post raises (result r, s)) :
    Triple step pre (ask op result) post raises := by
  intro s hpre r
  exact ⟨Run.nil.snoc (hstep s r hpre), hend s r hpre⟩

/-- The rule of sequence. -/
theorem Triple.bind {mid : α → σ → Prop} {post : β → σ → Prop} {x : Procedure σ Op Reply ε α}
    {f : α → Procedure σ Op Reply ε β} (hx : Triple step pre x mid raises)
    (hf : ∀ a, Triple step (mid a) (f a) post raises) : Triple step pre (x >>= f) post raises := by
  intro s hpre
  refine Ensures.bind (hx s hpre) fun events r h => ?_
  obtain ⟨hrun, hends⟩ := h
  cases hends with
  | returned hmid =>
    refine (hf _ _ hmid).mono fun rest r' h' => ?_
    exact ⟨hrun.append h'.1, h'.2⟩
  | raised hraises =>
    show Run step s (events ++ []) _ ∧ _
    rw [List.append_nil]
    exact ⟨hrun, .raised hraises⟩

/-- The rule of consequence. -/
theorem Triple.mono {pre' : σ → Prop} {post post' : α → σ → Prop} {raises' : ε → σ → Prop}
    {x : Procedure σ Op Reply ε α} (h : Triple step pre x post raises) (hpre : ∀ s, pre' s → pre s)
    (hpost : ∀ a s, post a s → post' a s) (hraises : ∀ e s, raises e s → raises' e s) :
    Triple step pre' x post' raises' := by
  intro s hs
  refine (h s (hpre s hs)).mono fun events r hr => ⟨hr.1, ?_⟩
  cases hr.2 with
  | returned ha => exact .returned (hpost _ _ ha)
  | raised he => exact .raised (hraises _ _ he)

/-- The rule of `finally`: the cleanup runs after a return and after an exception. -/
theorem Triple.finally {mid post : α → σ → Prop} {midRaises : ε → σ → Prop}
    {body : Procedure σ Op Reply ε α} {cleanup : Procedure σ Op Reply ε Unit}
    (hbody : Triple step pre body mid midRaises)
    (hreturned : ∀ a, Triple step (mid a) cleanup (fun _ => post a) raises)
    (hraised : ∀ e, Triple step (midRaises e) cleanup (fun _ => raises e) raises) :
    Triple step pre (tryFinally body cleanup) post raises := by
  intro s hpre
  refine Ensures.bind (hbody s hpre) fun events r h => ?_
  obtain ⟨hrun, hends⟩ := h
  cases hends with
  | returned hmid =>
    refine Ensures.bind (hreturned _ _ hmid) fun rest r' h' => ?_
    obtain ⟨hrest, hends'⟩ := h'
    rw [pure_eq, ensures_done, List.append_nil]
    cases hends' with
    | returned hpost => exact ⟨hrun.append hrest, .returned hpost⟩
    | raised he => exact ⟨hrun.append hrest, .raised he⟩
  | raised hmid =>
    refine Ensures.bind (hraised _ _ hmid) fun rest r' h' => ?_
    obtain ⟨hrest, hends'⟩ := h'
    rw [pure_eq, ensures_done, List.append_nil]
    cases hends' with
    | returned he => exact ⟨hrun.append hrest, .raised he⟩
    | raised he => exact ⟨hrun.append hrest, .raised he⟩

end Rules

/-! ## Relations kept -/

/-- However a procedure ends, its calls relate the state before to the state after. -/
def Keeps (R : σ → List (Event Op Reply) → σ → Prop) (x : Procedure σ Op Reply ε α) : Prop :=
  ∀ s, (x s).Ensures fun events r => R s events r.2

section Kept
variable {R : σ → List (Event Op Reply) → σ → Prop}

theorem keeps_ask {op : Op} {result : Reply op → Except ε α} (h : ∀ s r, R s [⟨op, r⟩] s) :
    Keeps R (ask op result) :=
  fun s r => h s r

/-- What calls in a row keep, a sequence keeps when its parts do. -/
theorem Keeps.bind {x : Procedure σ Op Reply ε α} {f : α → Procedure σ Op Reply ε β}
    (htrans : ∀ {s s' s'' : σ} {before after : List (Event Op Reply)}, R s before s' →
      R s' after s'' → R s (before ++ after) s'')
    (hx : Keeps R x) (hf : ∀ a, Keeps R (f a)) : Keeps R (x >>= f) := by
  intro s
  refine Ensures.bind (hx s) fun events r h => ?_
  obtain ⟨result, s'⟩ := r
  cases result with
  | ok a => exact (hf a s').mono fun rest r' h' => htrans h h'
  | error e =>
    show R s (events ++ []) s'
    rw [List.append_nil]
    exact h

theorem Keeps.finally {body : Procedure σ Op Reply ε α} {cleanup : Procedure σ Op Reply ε Unit}
    (htrans : ∀ {s s' s'' : σ} {before after : List (Event Op Reply)}, R s before s' →
      R s' after s'' → R s (before ++ after) s'')
    (hbody : Keeps R body) (hcleanup : Keeps R cleanup) : Keeps R (tryFinally body cleanup) := by
  intro s
  refine Ensures.bind (hbody s) fun events r h => ?_
  refine Ensures.bind (hcleanup r.2) fun rest r' h' => ?_
  rw [pure_eq, ensures_done, List.append_nil]
  obtain ⟨result, s'⟩ := r'
  cases result with
  | ok u => exact htrans h h'
  | error e => exact htrans h h'

end Kept
end Procedure
end InferenceControlPlane
