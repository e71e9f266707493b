import InferenceControlPlane.Interleaving

/-!
# Programs over a larger signature

A program over some calls is also one over more of them. What it ensures of its calls and
of its result it ensures there too, and its runs there are runs that it has here.
-/
namespace InferenceControlPlane

variable {Op Op' : Type} {Reply : Op → Type} {Reply' : Op' → Type} {α β : Type}

/-- The calls of one program among those of another: how each is made there, and how its reply is
read back. What answers a call there answers it here. -/
structure Inclusion (Op : Type) (Reply : Op → Type) (Op' : Type) (Reply' : Op' → Type) where
  toOp : Op → Op'
  reply : (op : Op) → Reply' (toOp op) → Reply op

namespace Program

/-- The program among the other calls. -/
def within (inc : Inclusion Op Reply Op' Reply') : Program Op Reply α → Program Op' Reply' α
  | done a => done a
  | call op next => call (inc.toOp op) fun r => (next (inc.reply op r)).within inc

variable {inc : Inclusion Op Reply Op' Reply'}

@[simp] theorem within_done (a : α) :
    (done a : Program Op Reply α).within inc = done a := rfl

@[simp] theorem within_call (op : Op) (next : Reply op → Program Op Reply α) :
    (call op next).within inc =
      call (inc.toOp op) fun r => (next (inc.reply op r)).within inc := rfl

/-- What may be called here may be called there. -/
theorem Always.within {P : Op' → Prop} {p : Program Op Reply α}
    (h : p.Always fun op => P (inc.toOp op)) : (p.within inc).Always P := by
  induction p with
  | done a => trivial
  | call op next ih => exact ⟨h.1, fun r => ih _ (h.2 _)⟩

/-- A program calls what it calls here. -/
theorem always_within {P : Op' → Prop} (h : ∀ op, P (inc.toOp op)) (p : Program Op Reply α) :
    (p.within inc).Always P := by
  induction p with
  | done a => trivial
  | call op next ih => exact ⟨h op, fun r => ih _⟩

theorem ensures_true (p : Program Op Reply α) : p.Ensures fun _ _ => True := by
  induction p with
  | done a => trivial
  | call op next ih => exact ih

/-- What is ensured of the result here is ensured there. -/
theorem Ensures.within {Q : α → Prop} {p : Program Op Reply α} (h : p.Ensures fun _ a => Q a) :
    (p.within inc).Ensures fun _ a => Q a := by
  induction p with
  | done a => exact h
  | call op next ih => exact fun r => ih _ (h _)

end Program

/-! ## Seen from the included calls -/

/-- Which of the other calls are included ones, and what their replies say there. -/
abbrev View (Op : Type) (Reply : Op → Type) (Op' : Type) (Reply' : Op' → Type) : Type :=
  (op : Op') → Option ((o : Op) × (Reply' op → Reply o))

/-- The view sees the calls of the inclusion as they are. -/
def Inclusion.SeenBy (inc : Inclusion Op Reply Op' Reply')
    (see : View Op Reply Op' Reply') : Prop :=
  ∀ op, see (inc.toOp op) = some ⟨op, inc.reply op⟩

def Event.seen (see : View Op Reply Op' Reply') (event : Event Op' Reply') :
    Option (Event Op Reply) :=
  (see event.op).map fun own => ⟨own.1, own.2 event.reply⟩

namespace Program

variable {see : View Op Reply Op' Reply'} {P : Program Op Reply α → Op' → Prop}
  {R : Program Op Reply α → β → Prop}

/-- The included calls of a program are the calls of another one; `P` says where that one
stands at each of the other calls, and `R` where it stands in the end. -/
inductive Hosts (see : View Op Reply Op' Reply') (P : Program Op Reply α → Op' → Prop)
    (R : Program Op Reply α → β → Prop) : Program Op' Reply' β → Program Op Reply α → Prop
  | done {b : β} {p : Program Op Reply α} (hend : R p b) : Hosts see P R (done b) p
  | other {op : Op'} {next : Reply' op → Program Op' Reply' β} {p : Program Op Reply α}
      (hsee : see op = none) (hop : P p op) (h : ∀ r, Hosts see P R (next r) p) :
      Hosts see P R (call op next) p
  | own {op : Op'} {next : Reply' op → Program Op' Reply' β} {o : Op} {f : Reply' op → Reply o}
      {rest : Reply o → Program Op Reply α} (hsee : see op = some ⟨o, f⟩)
      (h : ∀ r, Hosts see P R (next r) (rest (f r))) : Hosts see P R (call op next) (call o rest)

/-- A program without included calls. -/
theorem Always.hosts {p : Program Op Reply α} {q : Program Op' Reply' β}
    (h : q.Always fun op => see op = none ∧ P p op) (hend : q.Ensures fun _ b => R p b) :
    q.Hosts see P R p := by
  induction q with
  | done b => exact .done hend
  | call op next ih => exact .other h.1.1 h.1.2 fun r => ih r (h.2 r) (hend r)

theorem Always.hosts_bind {γ : Type} {p : Program Op Reply α} {q : Program Op' Reply' γ}
    {f : γ → Program Op' Reply' β} (h : q.Always fun op => see op = none ∧ P p op)
    (hf : ∀ c, (f c).Hosts see P R p) : (q >>= f).Hosts see P R p := by
  induction q with
  | done c => exact hf c
  | call op next ih => exact .other h.1.1 h.1.2 fun r => ih r (h.2 r)

/-- A program among other calls, and what follows it. -/
theorem hosts_within (hinc : inc.SeenBy see) (p : Program Op Reply α)
    {f : α → Program Op' Reply' β} (hf : ∀ a, (f a).Hosts see P R (done a)) :
    (p.within inc >>= f).Hosts see P R p := by
  induction p with
  | done a => exact hf a
  | call op next ih => exact .own (hinc op) fun r => ih _

end Program

namespace Pool
open Program

variable {ι σ σ' : Type} [DecidableEq ι] {see : View Op Reply Op' Reply'}
  {P : ι → Program Op Reply α → Op' → Prop} {R : ι → Program Op Reply α → β → Prop} {view : σ' → σ}
  {answers : σ → (op : Op) → Reply op → σ → Prop} {drift : σ → σ → Prop}
  {answers' : σ' → (op : Op') → Reply' op → σ' → Prop} {drift' : σ' → σ' → Prop}

/-- An act as the included calls see it: the other calls are a drift. -/
def seenAct (see : View Op Reply Op' Reply') : Act ι Op' Reply' → Act ι Op Reply
  | .called i event => (event.seen see).elim .drifted (.called i)
  | .drifted => .drifted

/-- The included calls are answered in the part of the state that is viewed, and the other
ones let it drift. -/
structure Views (see : View Op Reply Op' Reply') (view : σ' → σ)
    (answers' : σ' → (op : Op') → Reply' op → σ' → Prop) (drift' : σ' → σ' → Prop)
    (answers : σ → (op : Op) → Reply op → σ → Prop) (drift : σ → σ → Prop) : Prop where
  own : ∀ {s op r s' own}, answers' s op r s' → see op = some own →
    answers (view s) own.1 (own.2 r) (view s')
  other : ∀ {s op r s'}, answers' s op r s' → see op = none → drift (view s) (view s')
  drift : ∀ {s s'}, drift' s s' → drift (view s) (view s')

/-- A pool, and a second one that is what a view shows of it: the same members, of which only the
seen calls remain, on what the view shows of the shared state. -/
structure SeenAs (see : View Op Reply Op' Reply') (P : ι → Program Op Reply α → Op' → Prop)
    (R : ι → Program Op Reply α → β → Prop) (view : σ' → σ) (pool' : Pool ι Op' Reply' β σ')
    (pool : Pool ι Op Reply α σ) : Prop where
  shared : pool.shared = view pool'.shared
  hosts : ∀ i, (pool'.members i).Hosts see (P i) (R i) (pool.members i)

theorem Step.seen (hviews : Views see view answers' drift' answers drift)
    {pool' next' : Pool ι Op' Reply' β σ'} {act : Act ι Op' Reply'} {pool : Pool ι Op Reply α σ}
    (hstep : Step answers' drift' pool' act next') (h : SeenAs see P R view pool' pool) :
    ∃ next, Step answers drift pool (seenAct see act) next ∧ SeenAs see P R view next' next := by
  obtain ⟨shared, members⟩ := pool
  obtain rfl := h.shared
  cases hstep with
  | drifted hdrift => exact ⟨_, .drifted (hviews.drift hdrift), rfl, h.hosts⟩
  | @called i op next r s hmember hanswer =>
    have hhosts : (pool'.members i).Hosts see (P i) (R i) (members i) := h.hosts i
    rw [hmember] at hhosts
    -- the member's step, and the others where they were
    have hothers : ∀ (q : Program Op Reply α), (next r).Hosts see (P i) (R i) q → ∀ j,
        (Function.update pool'.members i (next r) j).Hosts see (P j) (R j)
          (Function.update members i q j) := by
      intro q hq j
      rcases eq_or_ne j i with rfl | hne
      · rw [Function.update_self, Function.update_self]
        exact hq
      · rw [Function.update_of_ne hne, Function.update_of_ne hne]
        exact h.hosts j
    generalize hp : members i = p at hhosts
    cases hhosts with
    | other hsee _ hnext =>
      have hact : seenAct see (.called i ⟨op, r⟩) = .drifted := by
        simp only [seenAct, Event.seen, hsee, Option.map_none, Option.elim_none]
      rw [hact]
      have hkept := hothers (members i) (hp ▸ hnext r)
      rw [Function.update_eq_self] at hkept
      exact ⟨_, .drifted (hviews.other hanswer hsee), rfl, hkept⟩
    | @own _ _ o f rest hsee hnext =>
      have hact : seenAct see (.called i ⟨op, r⟩) = .called i ⟨o, f r⟩ := by
        simp only [seenAct, Event.seen, hsee, Option.map_some, Option.elim_some]
      rw [hact]
      exact ⟨_, .called hp (hviews.own hanswer hsee), rfl, hothers (rest (f r)) (hnext r)⟩

/-- A run among other calls is seen as a run of the included ones. -/
theorem run_seen {τ : Type} {stamp : σ → τ} (hviews : Views see view answers' drift' answers drift)
    {init' pool' : Pool ι Op' Reply' β σ'} {labels : List (τ × Act ι Op' Reply')}
    {init : Pool ι Op Reply α σ}
    (hrun : Run (Stamped (stamp ∘ view) (Step answers' drift')) init' labels pool')
    (hinit : SeenAs see P R view init' init) :
    ∃ pool, Run (Stamped stamp (Step answers drift)) init
      (labels.map (Prod.map id (seenAct see))) pool ∧ SeenAs see P R view pool' pool := by
  induction hrun with
  | nil => exact ⟨init, .nil, hinit⟩
  | @snoc labels pool₁ pool₂ label _ hstep ih =>
    obtain ⟨pool, hrun, hseen⟩ := ih
    obtain ⟨hstamp, hstep⟩ := hstep
    obtain ⟨next, hnext, hseen'⟩ := hstep.seen hviews hseen
    rw [List.map_append]
    refine ⟨next, hrun.snoc ⟨?_, hnext⟩, hseen'⟩
    rw [hseen.shared]
    exact hstamp

/-- A step is one of a pool that drifts in more ways. -/
theorem Step.mono_drift {pool pool' : Pool ι Op Reply α σ} {act : Act ι Op Reply}
    {drift₁ drift₂ : σ → σ → Prop} (hstep : Step answers drift₁ pool act pool')
    (h : ∀ s s', drift₁ s s' → drift₂ s s') : Step answers drift₂ pool act pool' := by
  cases hstep with
  | called hmember hanswer => exact .called hmember hanswer
  | drifted hdrift => exact .drifted (h _ _ hdrift)

omit [DecidableEq ι] in
/-- A stamped run without its stamps. -/
theorem run_unstamped {τ : Type} {stamp : σ → τ}
    {step : Pool ι Op Reply α σ → Act ι Op Reply → Pool ι Op Reply α σ → Prop}
    {init pool : Pool ι Op Reply α σ} {labels : List (τ × Act ι Op Reply)}
    (hrun : Run (Stamped stamp step) init labels pool) :
    Run step init (labels.map Prod.snd) pool := by
  induction hrun with
  | nil => exact .nil
  | @snoc labels pool₁ pool₂ label _ hstep ih =>
    rw [List.map_append]
    exact ih.snoc hstep.2

/-- Where the seen member stands at a call that is not seen. -/
theorem SeenAs.at_other {pool' next' : Pool ι Op' Reply' β σ'} {i : ι} {event : Event Op' Reply'}
    {pool : Pool ι Op Reply α σ} (h : SeenAs see P R view pool' pool)
    (hstep : Step answers' drift' pool' (.called i event) next') (hsee : see event.op = none) :
    P i (pool.members i) event.op := by
  cases hstep with
  | @called _ op next r s hmember hanswer =>
    have hhosts := h.hosts i
    rw [hmember] at hhosts
    generalize pool.members i = p at hhosts
    cases hhosts with
    | other _ hop _ => exact hop
    | own hown _ => cases hsee.symm.trans hown

omit [DecidableEq ι] in
/-- Where the seen member stands once a member has ended. -/
theorem SeenAs.at_end {pool' : Pool ι Op' Reply' β σ'} {pool : Pool ι Op Reply α σ}
    (h : SeenAs see P R view pool' pool) {i : ι} {b : β} (hdone : pool'.members i = .done b) :
    R i (pool.members i) b := by
  have hhosts := h.hosts i
  rw [hdone] at hhosts
  cases hhosts with
  | done hend => exact hend

end Pool
end InferenceControlPlane
