import Mathlib.Tactic.Common

/-!
# Two runs of one fallible program

A relational reading of `Except`: two outcomes are paired when both raise, with
paired exceptions, or both return, with paired results. Pairings compose along
`bind`, so that two runs of a program are compared step by step.
-/
namespace InferenceControlPlane

inductive Paired {ε ε' α α' : Type*} (E : ε → ε' → Prop) (R : α → α' → Prop) :
    Except ε α → Except ε' α' → Prop
  | error {e : ε} {e' : ε'} : E e e' → Paired E R (.error e) (.error e')
  | ok {a : α} {a' : α'} : R a a' → Paired E R (.ok a) (.ok a')

namespace Paired

variable {ε ε' φ φ' : Type*} {α α' β β' : Type} {E : ε → ε' → Prop} {F : φ → φ' → Prop}
  {R : α → α' → Prop} {S : β → β' → Prop} {x : Except ε α} {x' : Except ε' α'}

/-- Case analysis where the two programs are terms that are still to be rewritten. -/
theorem outcomes (h : Paired E R x x') :
    (∃ e e', x = .error e ∧ x' = .error e' ∧ E e e') ∨
      ∃ a a', x = .ok a ∧ x' = .ok a' ∧ R a a' := by
  cases h with
  | error he => exact Or.inl ⟨_, _, rfl, rfl, he⟩
  | ok hr => exact Or.inr ⟨_, _, rfl, rfl, hr⟩

theorem bind {f : α → Except ε β} {f' : α' → Except ε' β'} (h : Paired E R x x')
    (hf : ∀ a a', R a a' → Paired E S (f a) (f' a')) : Paired E S (x >>= f) (x' >>= f') := by
  cases h with
  | error he => exact .error he
  | ok hr => exact hf _ _ hr

theorem map {f : α → β} {f' : α' → β'} (h : Paired E R x x')
    (hf : ∀ a a', R a a' → S (f a) (f' a')) : Paired E S (x.map f) (x'.map f') := by
  cases h with
  | error he => exact .error he
  | ok hr => exact .ok (hf _ _ hr)

theorem mapError {f : ε → φ} {f' : ε' → φ'} (h : Paired E R x x')
    (hf : ∀ e e', E e e' → F (f e) (f' e')) : Paired F R (x.mapError f) (x'.mapError f') := by
  cases h with
  | error he => exact .error (hf _ _ he)
  | ok hr => exact .ok hr

theorem of_eq {x x' : Except ε α} (h : x' = x) : Paired Eq Eq x x' := by
  rw [h]
  cases x with
  | error e => exact .error rfl
  | ok a => exact .ok rfl

/-- Outcomes with the same observation of their results, whatever they raise. -/
theorem of_toOption {f : α → β} {f' : α' → β} (h : x.toOption.map f = x'.toOption.map f') :
    Paired (fun _ _ => True) (fun a a' => f a = f' a') x x' := by
  cases x with
  | error e =>
    cases x' with
    | error e' => exact .error trivial
    | ok a' => cases h
  | ok a =>
    cases x' with
    | error e' => cases h
    | ok a' => exact .ok (Option.some.inj h)

theorem of_toOption_eq {x x' : Except ε α} (h : x'.toOption = x.toOption) :
    Paired (fun _ _ => True) Eq x x' := by
  cases x with
  | error e =>
    cases x' with
    | error e' => exact .error trivial
    | ok a' => cases h
  | ok a =>
    cases x' with
    | error e' => cases h
    | ok a' => exact .ok (Option.some.inj h).symm

end Paired
end InferenceControlPlane
