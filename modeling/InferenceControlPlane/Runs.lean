import Mathlib.Data.List.Basic
import Mathlib.Tactic.Common

/-!
# Labelled runs of a transition relation

A run lists the labels of its steps in order. An invariant may mention the labels
so far, which is how histories are compared with the states they reach.
-/
namespace InferenceControlPlane

inductive Run {σ α : Type*} (step : σ → α → σ → Prop) (init : σ) : List α → σ → Prop
  | nil : Run step init [] init
  | snoc {labels : List α} {s s' : σ} {a : α} :
      Run step init labels s → step s a s' → Run step init (labels ++ [a]) s'

namespace Run

variable {σ α : Type*} {step step' : σ → α → σ → Prop} {init s : σ} {labels : List α}

/-- An invariant that holds initially and survives each step holds at the end of
every run. -/
theorem invariant {P : List α → σ → Prop} (hrun : Run step init labels s)
    (h0 : P [] init)
    (hstep : ∀ labels s a s', P labels s → step s a s' → P (labels ++ [a]) s') : P labels s := by
  induction hrun with
  | nil => exact h0
  | snoc _ hs ih => exact hstep _ _ _ _ ih hs

/-- A run whose label sequences stay admissible is matched by a run of another
relation, if each of its steps is matched by one step or by none. -/
theorem simulation {τ β : Type*} {matching : τ → β → τ → Prop} {start : τ}
    {R : List α → σ → List β → τ → Prop} {Admissible : List α → Prop}
    (hearlier : ∀ labels a, Admissible (labels ++ [a]) → Admissible labels)
    (hrun : Run step init labels s) (hadm : Admissible labels) (h0 : R [] init [] start)
    (hstep : ∀ labels s a s' matched t, Admissible (labels ++ [a]) → R labels s matched t →
      step s a s' → R (labels ++ [a]) s' matched t ∨
        ∃ b t', matching t b t' ∧ R (labels ++ [a]) s' (matched ++ [b]) t') :
    ∃ matched t, Run matching start matched t ∧ R labels s matched t := by
  induction hrun with
  | nil => exact ⟨[], start, .nil, h0⟩
  | snoc _ hs ih =>
    obtain ⟨matched, t, hmatched, hR⟩ := ih (hearlier _ _ hadm)
    rcases hstep _ _ _ _ _ _ hadm hR hs with hR' | ⟨b, t', hb, hR'⟩
    · exact ⟨matched, t, hmatched, hR'⟩
    · exact ⟨matched ++ [b], t', hmatched.snoc hb, hR'⟩

/-- A run passes every one of its labels in a step, from a state that the labels before it have
led to. -/
theorem step_of_append {before after : List α} {a : α}
    (hrun : Run step init (before ++ a :: after) s) :
    ∃ s₁ s₂, Run step init before s₁ ∧ step s₁ a s₂ := by
  generalize hlabels : before ++ a :: after = labels at hrun
  induction hrun generalizing after with
  | nil => simp at hlabels
  | @snoc labels s₁ s₂ b hbefore hs ih =>
    rcases List.eq_nil_or_concat after with rfl | ⟨init', last, rfl⟩
    · obtain ⟨rfl, hlast⟩ := List.append_inj' hlabels rfl
      cases hlast
      exact ⟨s₁, s₂, hbefore, hs⟩
    · rw [List.concat_eq_append, ← List.cons_append, ← List.append_assoc] at hlabels
      exact ih (List.append_inj' hlabels rfl).1

/-- A run is cut in two after any of its labels, at a state that both of its parts share. -/
theorem split {before after : List α} (hrun : Run step init (before ++ after) s) :
    ∃ t, Run step init before t ∧ Run step t after s := by
  generalize hlabels : before ++ after = labels at hrun
  induction hrun generalizing after with
  | nil =>
    obtain ⟨rfl, rfl⟩ := List.append_eq_nil_iff.mp hlabels
    exact ⟨_, nil, nil⟩
  | @snoc labels s₁ s₂ a hbefore hs ih =>
    rcases List.eq_nil_or_concat after with rfl | ⟨after, last, rfl⟩
    · rw [List.append_nil] at hlabels
      subst hlabels
      exact ⟨_, hbefore.snoc hs, nil⟩
    · rw [List.concat_eq_append, ← List.append_assoc] at hlabels
      obtain ⟨hinit, hlast⟩ := List.append_inj' hlabels rfl
      cases hlast
      obtain ⟨t, hfirst, hrest⟩ := ih hinit
      rw [List.concat_eq_append]
      exact ⟨t, hfirst, hrest.snoc hs⟩

/-- A run goes on where another one ended; the labels of the two stand one after the other. -/
theorem append {after : List α} {t : σ} (hrun : Run step init labels s)
    (hrest : Run step s after t) :
    Run step init (labels ++ after) t := by
  induction hrest with
  | nil => rwa [List.append_nil]
  | snoc _ hs ih =>
    rw [← List.append_assoc]
    exact ih.snoc hs

/-- A run of one step. -/
theorem one {a : α} (hrun : Run step init [a] s) : step init a s := by
  generalize hlabels : [a] = labels at hrun
  cases hrun with
  | nil => cases hlabels
  | @snoc labels s₁ _ b hbefore hs =>
    rw [List.singleton_eq_append_iff] at hlabels
    rcases hlabels with ⟨rfl, hlast⟩ | ⟨-, hlast⟩
    · cases hlast
      generalize hnil : [] = labels at hbefore
      cases hbefore with
      | nil => exact hs
      | snoc => simp at hnil
    · simp at hlast

/-- Each step of a run starts from a state with a property that all steps preserve. -/
theorem preserving {P : σ → Prop} (hrun : Run step init labels s) (h0 : P init)
    (hstep : ∀ s a s', P s → step s a s' → P s') :
    Run (fun s a s' => P s ∧ step s a s') init labels s ∧ P s := by
  induction hrun with
  | nil => exact ⟨nil, h0⟩
  | snoc _ hs ih => exact ⟨ih.1.snoc ⟨ih.2, hs⟩, hstep _ _ _ ih.2 hs⟩

theorem mono (hrun : Run step init labels s) (h : ∀ s a s', step s a s' → step' s a s') :
    Run step' init labels s := by
  induction hrun with
  | nil => exact nil
  | snoc _ hs ih => exact snoc ih (h _ _ _ hs)

end Run
end InferenceControlPlane
