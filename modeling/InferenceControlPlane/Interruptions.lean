import InferenceControlPlane.Programs

/-!
# Programs that are cut short

A program whose calls are answered one by one can be stopped between any two of them. A
guard bounds the states in which the program can be found, and says what holds when it
returns. Guards follow the structure of the program, errors and clean-up included, and say
no more than what holds of every run.
-/
namespace InferenceControlPlane.Program

variable {Op : Type} {Reply : Op → Type} {α β ε σ : Type}

/-- Some calls of the first program have been answered, and the second one is left. -/
inductive Interrupted (answers : σ → (op : Op) → Reply op → σ → Prop) :
    Program Op Reply α → σ → Program Op Reply α → σ → Prop
  | refl (p : Program Op Reply α) (s : σ) : Interrupted answers p s p s
  | step {op : Op} {next : Reply op → Program Op Reply α} {r : Reply op} {s s' t : σ}
      {q : Program Op Reply α} (hanswer : answers s op r s')
      (hrest : Interrupted answers (next r) s' q t) : Interrupted answers (call op next) s q t

/-- Wherever the program stops, `crash` holds, and `post` too if it has returned. -/
def Guards (answers : σ → (op : Op) → Reply op → σ → Prop) (crash : σ → Prop) :
    Program Op Reply α → (α → σ → Prop) → σ → Prop
  | done a, post, s => crash s ∧ post a s
  | call op next, post, s =>
    crash s ∧ ∀ r s', answers s op r s' → (next r).Guards answers crash post s'

/-! ## Errors -/

/-- Sequencing that an error ends. -/
def andThen (p : Program Op Reply (Except ε α)) (f : α → Program Op Reply (Except ε β)) :
    Program Op Reply (Except ε β) := do
  match ← p with
  | .ok a => f a
  | .error e => pure (.error e)

/-- `try: p finally: cleanup`. An error of the clean-up replaces the outcome. -/
def ensuring (p : Program Op Reply (Except ε α)) (cleanup : Program Op Reply (Except ε Unit)) :
    Program Op Reply (Except ε α) := do
  let result ← p
  let cleaned ← cleanup
  return cleaned.bind fun _ => result

variable {answers : σ → (op : Op) → Reply op → σ → Prop} {crash : σ → Prop}

/-! ## Runs -/

theorem Interrupted.trans {p q r : Program Op Reply α} {s t u : σ}
    (h : Interrupted answers p s q t) (h' : Interrupted answers q t r u) :
    Interrupted answers p s r u := by
  induction h with
  | refl => exact h'
  | step hanswer _ ih => exact .step hanswer (ih h')

/-- A run in a world whose answers are allowed in the states that it passes. -/
theorem interrupted_run (w : World Op Reply σ)
    (hw : ∀ op s, answers s op (w op s).1 (w op s).2) (p : Program Op Reply α) (s : σ) :
    Interrupted answers p s (done (p.result w s)) (p.final w s) := by
  induction p generalizing s with
  | done a => exact .refl _ _
  | call op next ih => exact .step (hw op s) (ih _ _)

/-- The value and the state that a run in a world ends with. -/
def outcome (w : World Op Reply σ) (p : Program Op Reply α) (s : σ) : α × σ :=
  (p.result w s, p.final w s)

theorem outcome_perform (w : World Op Reply σ) (op : Op) (s : σ) :
    (perform op).outcome w s = w op s := rfl

theorem outcome_bind {w : World Op Reply σ} {p : Program Op Reply α} {s s' : σ} {a : α}
    (h : p.outcome w s = (a, s')) (f : α → Program Op Reply β) :
    (p >>= f).outcome w s = (f a).outcome w s' := by
  obtain ⟨rfl, rfl⟩ := Prod.ext_iff.mp h
  exact Prod.ext (result_bind w p f s) (final_bind w p f s)

theorem outcome_andThen {w : World Op Reply σ} {p : Program Op Reply (Except ε α)} {s s' : σ}
    {a : α} (h : p.outcome w s = (.ok a, s')) (f : α → Program Op Reply (Except ε β)) :
    (p.andThen f).outcome w s = (f a).outcome w s' := outcome_bind h _

theorem outcome_ensuring {w : World Op Reply σ} {p : Program Op Reply (Except ε α)}
    {cleanup : Program Op Reply (Except ε Unit)} {s s' s'' : σ} {result : Except ε α}
    (h : p.outcome w s = (result, s')) (hcleanup : cleanup.outcome w s' = (.ok (), s'')) :
    (p.ensuring cleanup).outcome w s = (result, s'') :=
  (outcome_bind h _).trans (outcome_bind hcleanup _)

/-! ## Guards -/

theorem Guards.here {post : α → σ → Prop} {p : Program Op Reply α} {s : σ}
    (h : p.Guards answers crash post s) : crash s := by
  cases p with
  | done a => exact h.1
  | call op next => exact h.1

/-- A guard says what holds of every run, and nothing else. -/
theorem guards_iff {post : α → σ → Prop} {p : Program Op Reply α} {s : σ} :
    p.Guards answers crash post s ↔
      ∀ q t, Interrupted answers p s q t → crash t ∧ ∀ a, q = done a → post a t := by
  constructor
  · intro h q t hrun
    induction hrun with
    | refl p s =>
      refine ⟨h.here, ?_⟩
      intro a ha
      subst ha
      exact h.2
    | step hanswer _ ih => exact ih (h.2 _ _ hanswer)
  · intro h
    induction p generalizing s with
    | done a => exact ⟨(h _ _ (.refl _ _)).1, (h _ _ (.refl _ _)).2 a rfl⟩
    | call op next ih =>
      refine ⟨(h _ _ (.refl _ _)).1, ?_⟩
      intro r s' hanswer
      exact ih r fun q t hrun => h q t (.step hanswer hrun)

/-- The rule of consequence. -/
theorem Guards.mono {post post' : α → σ → Prop} {p : Program Op Reply α} {s : σ}
    (h : p.Guards answers crash post s) (hpost : ∀ a t, post a t → post' a t) :
    p.Guards answers crash post' s := by
  induction p generalizing s with
  | done a => exact ⟨h.1, hpost a s h.2⟩
  | call op next ih => exact ⟨h.1, fun r s' hanswer => ih r (h.2 r s' hanswer)⟩

/-- The rule of sequence. -/
theorem Guards.bind {mid : α → σ → Prop} {post : β → σ → Prop} {p : Program Op Reply α}
    {f : α → Program Op Reply β} {s : σ} (hp : p.Guards answers crash mid s)
    (hf : ∀ a t, crash t → mid a t → (f a).Guards answers crash post t) :
    (p >>= f).Guards answers crash post s := by
  induction p generalizing s with
  | done a => exact hf a s hp.1 hp.2
  | call op next ih => exact ⟨hp.1, fun r s' hanswer => ih r (hp.2 r s' hanswer)⟩

/-- The rule of a call. -/
theorem guards_perform {op : Op} {post : Reply op → σ → Prop} {s : σ} (hcrash : crash s)
    (h : ∀ r s', answers s op r s' → crash s' ∧ post r s') :
    (perform op : Program Op Reply (Reply op)).Guards answers crash post s := ⟨hcrash, h⟩

/-- The rule of sequence under errors. -/
theorem Guards.andThen {mid : Except ε α → σ → Prop} {post : Except ε β → σ → Prop}
    {p : Program Op Reply (Except ε α)} {f : α → Program Op Reply (Except ε β)} {s : σ}
    (hp : p.Guards answers crash mid s)
    (hok : ∀ a t, crash t → mid (.ok a) t → (f a).Guards answers crash post t)
    (herror : ∀ e t, crash t → mid (.error e) t → post (.error e) t) :
    (p.andThen f).Guards answers crash post s := by
  apply hp.bind
  intro result t hcrash hmid
  cases result with
  | ok a => exact hok a t hcrash hmid
  | error e => exact ⟨hcrash, herror e t hcrash hmid⟩

/-- The rule of clean-up. -/
theorem Guards.ensuring {mid : Except ε α → σ → Prop} {post : Except ε α → σ → Prop}
    {p : Program Op Reply (Except ε α)} {cleanup : Program Op Reply (Except ε Unit)} {s : σ}
    (hp : p.Guards answers crash mid s)
    (hcleanup : ∀ result t, crash t → mid result t →
      cleanup.Guards answers crash (fun cleaned => post (cleaned.bind fun _ => result)) t) :
    (p.ensuring cleanup).Guards answers crash post s := by
  apply hp.bind
  intro result t hcrash hmid
  exact (hcleanup result t hcrash hmid).bind fun _ _ hcrash hpost => ⟨hcrash, hpost⟩

end InferenceControlPlane.Program
