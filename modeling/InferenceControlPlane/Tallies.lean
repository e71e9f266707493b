import Mathlib.Algebra.BigOperators.Group.List.Basic
import Mathlib.Data.List.Forall2
import Mathlib.Tactic.Common

/-!
# Tallies

The sum of a value over the elements of a list that have a property. A tally splits along
any further property, and two tallies that agree within every class of a classification
agree as a whole. Values come from any commutative monoid, so that a tally of floats, of
rationals and of natural numbers are one notion.
-/
namespace InferenceControlPlane

section
variable {α β κ M : Type*} [AddCommMonoid M]

/-- The sum of `v` over the elements of `xs` with property `p`. -/
def tally (p : α → Bool) (v : α → M) (xs : List α) : M := ((xs.filter p).map v).sum

@[simp] lemma tally_nil (p : α → Bool) (v : α → M) : tally p v [] = 0 := rfl

lemma tally_cons (p : α → Bool) (v : α → M) (x : α) (xs : List α) :
    tally p v (x :: xs) = (if p x then v x else 0) + tally p v xs := by
  by_cases h : p x = true
  · simp [tally, h]
  · simp [tally, h]

/-- A value that is zero outside of a property is tallied over all elements. -/
lemma sum_ite_eq_tally (p : α → Bool) (v : α → M) (xs : List α) :
    (xs.map fun x => if p x then v x else 0).sum = tally p v xs := by
  induction xs with
  | nil => rfl
  | cons x xs ih => rw [List.map_cons, List.sum_cons, ih, tally_cons]

lemma tally_congr {p q : α → Bool} {v w : α → M} {xs : List α}
    (h : ∀ x ∈ xs, p x = q x) (hv : ∀ x ∈ xs, q x = true → v x = w x) :
    tally p v xs = tally q w xs := by
  rw [tally, tally, List.filter_congr h]
  congr 1
  apply List.map_congr_left
  intro x hx
  obtain ⟨hmem, hq⟩ := List.mem_filter.mp hx
  exact hv x hmem hq

lemma tally_eq_zero {p : α → Bool} {v : α → M} {xs : List α}
    (h : ∀ x ∈ xs, p x = true → v x = 0) : tally p v xs = 0 := by
  apply List.sum_eq_zero
  intro m hm
  obtain ⟨x, hx, rfl⟩ := List.mem_map.mp hm
  obtain ⟨hmem, hp⟩ := List.mem_filter.mp hx
  exact h x hmem hp

/-- A tally splits along any property. -/
lemma tally_split (p q : α → Bool) (v : α → M) (xs : List α) :
    tally p v xs = tally (fun x => p x && q x) v xs + tally (fun x => p x && !q x) v xs := by
  induction xs with
  | nil => simp
  | cons x xs ih =>
    rw [tally_cons, tally_cons, tally_cons, ih]
    cases q x with
    | true =>
      simp only [Bool.and_true, Bool.not_true, Bool.and_false, Bool.false_eq_true, if_false,
        zero_add]
      exact (add_assoc _ _ _).symm
    | false =>
      simp only [Bool.and_true, Bool.not_false, Bool.and_false, Bool.false_eq_true, if_false,
        zero_add]
      exact add_left_comm _ _ _

/-- Elements of no value do not count. -/
lemma tally_drop {p q : α → Bool} {v : α → M} {xs : List α}
    (h : ∀ x ∈ xs, q x = true → v x = 0) :
    tally p v xs = tally (fun x => p x && !q x) v xs := by
  have hzero : tally (fun x => p x && q x) v xs = 0 :=
    tally_eq_zero fun x hx hpq => h x hx (Bool.and_eq_true_iff.mp hpq).2
  rw [tally_split p q, hzero, zero_add]

/-- Lists whose elements correspond, in properties and in values, have the same tally. -/
lemma tally_forall₂ {R : α → β → Prop} {p : α → Bool} {q : β → Bool} {v : α → M} {w : β → M}
    {xs : List α} {ys : List β} (h : List.Forall₂ R xs ys)
    (hR : ∀ x ∈ xs, ∀ y, R x y → p x = q y ∧ v x = w y) : tally p v xs = tally q w ys := by
  induction h with
  | nil => rfl
  | @cons x y xs ys hxy _ ih =>
    obtain ⟨hp, hv⟩ := hR x List.mem_cons_self y hxy
    rw [tally_cons, tally_cons, hp, hv, ih fun x hx => hR x (List.mem_cons_of_mem _ hx)]

/-- A sum is the tally of a property and the sum over what does not have it. -/
lemma sum_eq_tally_add (q : α → Bool) (v : α → M) (xs : List α) :
    (xs.map v).sum = tally q v xs + ((xs.filter fun x => !q x).map v).sum := by
  have hsplit := tally_split (fun _ => true) q v xs
  simpa only [tally, Bool.true_and, List.filter_true] using hsplit

/-- Once the class of `k₀` is taken out, it is empty, and the other classes are as before. -/
lemma tally_without_class [DecidableEq κ] (key : α → κ) (k₀ k : κ) (v : α → M) (xs : List α) :
    tally (fun x => key x = k) v (xs.filter fun x => !decide (key x = k₀)) =
      if k = k₀ then 0 else tally (fun x => key x = k) v xs := by
  rw [tally, List.filter_filter]
  split_ifs with hk
  · apply tally_eq_zero
    intro x _ hboth
    simp [hk] at hboth
  · apply tally_congr
    · intro x _
      by_cases hx : key x = k
      · simp [hx, hk]
      · simp [hx]
    · intro x _ _
      rfl

/-- Tallies that agree within every class agree as a whole, by taking out one class after the
other. -/
theorem sum_eq_of_classes [DecidableEq κ] (key : α → κ) {v w : α → M} {xs : List α}
    (h : ∀ k, tally (fun x => key x = k) v xs = tally (fun x => key x = k) w xs) :
    (xs.map v).sum = (xs.map w).sum := by
  induction hn : xs.length using Nat.strongRecOn generalizing xs with
  | ind n ih =>
    cases xs with
    | nil => rfl
    | cons x xs =>
      -- the class of the first element, and the rest without that class
      let own : α → Bool := fun y => key y = key x
      have hshorter : ((x :: xs).filter fun y => !own y).length < n := by
        rw [List.filter_cons_of_neg (by simp [own]), ← hn, List.length_cons]
        exact Nat.lt_succ_of_le (List.length_filter_le _ _)
      have hclasses : ∀ k, tally (fun y => key y = k) v ((x :: xs).filter fun y => !own y) =
          tally (fun y => key y = k) w ((x :: xs).filter fun y => !own y) := by
        intro k
        rw [tally_without_class, tally_without_class, h k]
      rw [sum_eq_tally_add own v, sum_eq_tally_add own w, h (key x), ih _ hshorter hclasses rfl]

end

/-- Every element of one of two corresponding lists has its counterpart in the other. -/
lemma exists_of_forall₂ {α β : Type*} {R : α → β → Prop} {xs : List α} {ys : List β}
    (h : List.Forall₂ R xs ys) {x : α} (hx : x ∈ xs) : ∃ y ∈ ys, R x y := by
  induction h with
  | nil => cases hx
  | @cons x' y xs ys hxy _ ih =>
    rcases List.mem_cons.mp hx with rfl | hx
    · exact ⟨y, List.mem_cons_self, hxy⟩
    · obtain ⟨y', hy', hR⟩ := ih hx
      exact ⟨y', List.mem_cons_of_mem _ hy', hR⟩

end InferenceControlPlane
