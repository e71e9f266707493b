import InferenceControlPlane.Exceptions
import InferenceControlPlane.Relational

/-!
# Fallible programs over rearranged data

A comprehension whose calls raise one exception only, and a fold whose steps
commute, do not depend on the order of the data: two runs over rearranged data
raise alike or return rearranged results.
-/
namespace InferenceControlPlane

variable {ε : Type*} {α β : Type}

/-- Outcomes that differ in the order of the results only. -/
abbrev SameOutcome (x y : Except ε (List β)) : Prop := Paired Eq List.Perm x y

theorem SameOutcome.trans {x y z : Except ε (List β)} (h : SameOutcome x y)
    (h' : SameOutcome y z) : SameOutcome x z := by
  cases h with
  | error he =>
    cases h' with
    | error he' => exact .error (he.trans he')
  | ok hp =>
    cases h' with
    | ok hp' => exact .ok (hp.trans hp')

/-- The only exception that a call on the data can raise. -/
def RaisesOnly (e₀ : ε) (f : α → Except ε β) (xs : List α) : Prop :=
  ∀ x ∈ xs, ∀ e, f x = .error e → e = e₀

theorem RaisesOnly.perm {e₀ : ε} {f : α → Except ε β} {xs ys : List α}
    (h : RaisesOnly e₀ f xs) (hp : xs.Perm ys) : RaisesOnly e₀ f ys :=
  fun y hy => h y (hp.mem_iff.mpr hy)

theorem mapM_perm {e₀ : ε} {f : α → Except ε β} {xs ys : List α} (hp : xs.Perm ys)
    (hf : RaisesOnly e₀ f xs) : SameOutcome (xs.mapM f) (ys.mapM f) := by
  induction hp with
  | nil => exact .ok .nil
  | @cons x xs ys hp ih =>
    rw [List.mapM_cons, List.mapM_cons]
    cases f x with
    | error e => exact .error rfl
    | ok b =>
      have htail := ih fun y hy => hf y (List.mem_cons_of_mem x hy)
      exact htail.bind fun bs cs hbs => .ok (hbs.cons b)
  | swap x y xs =>
    have hx := hf x (by simp)
    have hy := hf y (by simp)
    simp only [List.mapM_cons]
    -- whichever of the two calls raises first, it is the same exception
    cases hfx : f x with
    | error e =>
      cases hfy : f y with
      | error e' => exact .error ((hy e' hfy).trans (hx e hfx).symm)
      | ok c => exact .error rfl
    | ok b =>
      cases f y with
      | error e' => exact .error rfl
      | ok c =>
        cases xs.mapM f with
        | error e => exact .error rfl
        | ok bs => exact .ok (.swap _ _ _)
  | trans hp hq ih ih' => exact (ih hf).trans (ih' (hf.perm hp))

/-- A fold whose steps commute on the data gives the same result, or the same exception, in any
order of the data. -/
theorem foldlM_perm {f : β → α → Except ε β} {xs ys : List α} (hp : xs.Perm ys)
    (hf : ∀ x ∈ xs, ∀ y ∈ xs, ∀ b, (f b x >>= (f · y)) = (f b y >>= (f · x))) (b : β) :
    xs.foldlM f b = ys.foldlM f b := by
  induction hp generalizing b with
  | nil => rfl
  | @cons x xs ys hp ih =>
    rw [List.foldlM_cons, List.foldlM_cons]
    cases f b x with
    | error e => rfl
    | ok c =>
      exact ih (fun y hy z hz => hf y (List.mem_cons_of_mem x hy) z (List.mem_cons_of_mem x hz)) c
  | swap x y xs =>
    have hxy := hf y (by simp) x (by simp) b
    simp only [List.foldlM_cons, ← bind_assoc, hxy]
  | trans hp hq ih ih' =>
    rw [ih hf b]
    exact ih' (fun x hx y hy => hf x (hp.mem_iff.mpr hx) y (hp.mem_iff.mpr hy)) b

end InferenceControlPlane
