import InferenceControlPlane.Python.Numbers
import InferenceControlPlane.Rearrangement
import Mathlib.Tactic.FieldSimp

/-!
# Statistics of rearranged numbers

Sorting, `median` and `sum` do not depend on the order of numbers of one kind. On
the data that the callers give them, they raise `OverflowError` only.
-/
namespace InferenceControlPlane.Python

namespace Number

/-- All integers, or all floats. -/
def Uniform (xs : List Number) : Prop := (∀ x ∈ xs, x.IsInt) ∨ ∀ x ∈ xs, x.IsFloat

theorem Uniform.perm {xs ys : List Number} (h : Uniform xs) (hp : xs.Perm ys) : Uniform ys :=
  h.imp (fun h y hy => h y (hp.mem_iff.mpr hy)) fun h y hy => h y (hp.mem_iff.mpr hy)

theorem Uniform.value_inj {xs : List Number} (h : Uniform xs) {x y : Number} (hx : x ∈ xs)
    (hy : y ∈ xs) (hv : x.value = y.value) : x = y := by
  rcases h with h | h
  · have hx := h x hx
    have hy := h y hy
    cases x <;> cases y <;> simp_all [IsInt]
  · have hx := h x hx
    have hy := h y hy
    cases x <;> cases y <;> simp_all [IsFloat]

/-! ## Exceptions -/

lemma toFloat_error {a : Number} {e : PyErr} (h : a.toFloat = .error e) : e = .overflowError := by
  cases a with
  | int n =>
    simp only [toFloat] at h
    split_ifs at h
    cases h
    rfl
  | float q => cases h

lemma mixed_error {a b : Number} {g : ℚ → ℚ → Number} {e : PyErr}
    (h : (do return g (← a.toFloat) (← b.toFloat)) = (.error e : Except PyErr Number)) :
    e = .overflowError := by
  rcases bind_eq_error h with ha | ⟨x, -, h⟩
  · exact toFloat_error ha
  · rcases bind_eq_error h with hb | ⟨y, -, h⟩
    · exact toFloat_error hb
    · cases h

theorem add_error {a b : Number} {e : PyErr} (h : a.add b = .error e) : e = .overflowError := by
  cases a with
  | int m =>
    cases b with
    | int n => cases h
    | float q => exact mixed_error h
  | float p => exact mixed_error h

theorem sub_error {a b : Number} {e : PyErr} (h : a.sub b = .error e) : e = .overflowError := by
  cases a with
  | int m =>
    cases b with
    | int n => cases h
    | float q => exact mixed_error h
  | float p => exact mixed_error h

lemma toFloat_eq_ok {a : Number} {q : ℚ} (h : a.toFloat = .ok q) : q = a.value := by
  cases a with
  | int n =>
    simp only [toFloat] at h
    split_ifs at h
    cases h
    rfl
  | float p =>
    cases h
    rfl

lemma quotient_error {a b : Number} {e : PyErr} (hb : b.value ≠ 0)
    (h : (do
      let x ← a.toFloat
      let y ← b.toFloat
      if y = 0 then .error .zeroDivisionError else .ok (float (x / y))) =
        (.error e : Except PyErr Number)) : e = .overflowError := by
  rcases bind_eq_error h with ha | ⟨x, -, h⟩
  · exact toFloat_error ha
  · rcases bind_eq_error h with hb' | ⟨y, hy, h⟩
    · exact toFloat_error hb'
    · rw [toFloat_eq_ok hy, if_neg hb] at h
      cases h

/-- Dividing by a nonzero number can only leave the range of floats; no other exception comes out
of a score. -/
theorem div_error {a b : Number} {e : PyErr} (hb : b.value ≠ 0) (h : a.div b = .error e) :
    e = .overflowError := by
  cases a with
  | int m =>
    cases b with
    | int n =>
      have hn : n ≠ 0 := fun hn => hb (by rw [hn]; rfl)
      simp only [div, if_neg hn] at h
      split_ifs at h
      cases h
      rfl
    | float q => exact quotient_error hb h
  | float p => exact quotient_error hb h

/-- The quotient is exact. -/
theorem value_div {a b c : Number} (h : a.div b = .ok c) : c.value = a.value / b.value := by
  have hfloat : (do
      let x ← a.toFloat
      let y ← b.toFloat
      if y = 0 then .error .zeroDivisionError else .ok (float (x / y))) =
        (.ok c : Except PyErr Number) → c.value = a.value / b.value := by
    intro h
    obtain ⟨x, hx, h⟩ := bind_eq_ok h
    obtain ⟨y, hy, h⟩ := bind_eq_ok h
    split_ifs at h
    cases h
    rw [← toFloat_eq_ok hx, ← toFloat_eq_ok hy]
    rfl
  cases a with
  | int m =>
    cases b with
    | int n =>
      simp only [div] at h
      split_ifs at h
      cases h
      rfl
    | float q => exact hfloat h
  | float p => exact hfloat h

/-! ## Arithmetic with one float -/

lemma float_mul (q : ℚ) (b : Number) : (float q).mul b = b.toFloat.map fun y => float (q * y) := by
  cases b with
  | int n =>
    show (do return float (q * (← (int n).toFloat))) = _
    cases (int n).toFloat <;> rfl
  | float p => rfl

lemma div_by_float (a : Number) {q : ℚ} (hq : q ≠ 0) :
    a.div (float q) = a.toFloat.map fun x => float (x / q) := by
  cases a with
  | int n =>
    show ((int n).toFloat >>= fun x => if q = 0 then _ else .ok (float (x / q))) = _
    simp only [if_neg hq]
    cases (int n).toFloat <;> rfl
  | float p =>
    show (if q = 0 then _ else _) = _
    rw [if_neg hq]
    rfl

lemma float_div (q : ℚ) {b : Number} (hb : b.value ≠ 0) :
    (float q).div b = b.toFloat.map fun y => float (q / y) := by
  show (b.toFloat >>= fun y => if y = 0 then _ else .ok (float (q / y))) = _
  cases hy : b.toFloat with
  | error e => rfl
  | ok y =>
    have hne : y ≠ 0 := toFloat_eq_ok hy ▸ hb
    show (if y = 0 then _ else _) = _
    rw [if_neg hne]
    rfl

/-- Dividing by a scaled unit is scaling before dividing. -/
theorem div_scaled {s : ℚ} (hs : s ≠ 0) (d : Number) {unit : Number} (hunit : unit.value ≠ 0) :
    (do d.div (← unit.div (float s))) = (do (← (float s).mul d).div unit) := by
  rw [div_by_float unit hs, float_mul]
  cases hu : unit.toFloat with
  | error e =>
    -- both raise, whichever conversion fails first
    cases hd : d.toFloat with
    | error e' => rw [toFloat_error hu, toFloat_error hd]; rfl
    | ok x =>
      show _ = (float (s * x)).div unit
      rw [float_div _ hunit, hu]
      rfl
  | ok u =>
    have hne : u ≠ 0 := toFloat_eq_ok hu ▸ hunit
    show d.div (float (u / s)) = _
    rw [div_by_float d (div_ne_zero hne hs)]
    cases hd : d.toFloat with
    | error e => rfl
    | ok x =>
      show _ = (float (s * x)).div unit
      rw [float_div _ hunit, hu]
      refine congrArg (fun q => Except.ok (float q)) ?_
      field_simp

theorem sum_error {xs : List Number} {e : PyErr} (h : sum xs = .error e) : e = .overflowError := by
  have key : ∀ (ys : List Number) (a : Number), ys.foldlM add a = .error e →
      e = .overflowError := by
    intro ys
    induction ys with
    | nil => intro a h; cases h
    | cons y ys ih =>
      intro a h
      rw [List.foldlM_cons] at h
      rcases bind_eq_error h with ha | ⟨b, -, h⟩
      · exact add_error ha
      · exact ih b h
  exact key xs (int 0) h

/-! ## Order -/

lemma float_add (q : ℚ) (b : Number) : (float q).add b = b.toFloat.map fun y => float (q + y) := by
  cases b with
  | int n =>
    show (do return float (q + (← (int n).toFloat))) = _
    cases (int n).toFloat <;> rfl
  | float p => rfl

lemma int_add_float (n : ℤ) (q : ℚ) :
    (int n).add (float q) = (int n).toFloat.map fun x => float (x + q) := by
  show (do return float ((← (int n).toFloat) + q)) = _
  cases (int n).toFloat <;> rfl

lemma float_add_add (q : ℚ) (x y : Number) : ((float q).add x >>= (·.add y)) = (do
    let u ← x.toFloat
    let v ← y.toFloat
    return float (q + u + v)) := by
  rw [float_add]
  cases x.toFloat with
  | error e => rfl
  | ok u =>
    show (float (q + u)).add y = _
    rw [float_add]
    cases y.toFloat <;> rfl

/-- Two numbers of one kind are added in either order. -/
theorem add_swap {xs : List Number} (h : Uniform xs) {x y : Number} (hx : x ∈ xs) (hy : y ∈ xs)
    (a : Number) : (a.add x >>= (·.add y)) = (a.add y >>= (·.add x)) := by
  cases a with
  | float q =>
    rw [float_add_add, float_add_add]
    cases hu : x.toFloat with
    | error e =>
      cases hv : y.toFloat with
      | error e' => rw [toFloat_error hu, toFloat_error hv]
      | ok v => rfl
    | ok u =>
      cases y.toFloat with
      | error e' => rfl
      | ok v => exact congrArg (fun q => Except.ok (float q)) (add_right_comm q u v)
  | int k =>
    rcases h with h | h
    · have hx := h x hx
      have hy := h y hy
      cases x with
      | float p => cases hx
      | int m =>
        cases y with
        | float q => cases hy
        | int n => exact congrArg (fun k => Except.ok (int k)) (add_right_comm k m n)
    · have hx := h x hx
      have hy := h y hy
      cases x with
      | int m => cases hx
      | float p =>
        cases y with
        | int n => cases hy
        | float q =>
          rw [int_add_float, int_add_float]
          cases (int k).toFloat with
          | error e => rfl
          | ok u => exact congrArg (fun q => Except.ok (float q)) (add_right_comm u p q)

theorem sum_of_perm {xs ys : List Number} (h : Uniform xs) (hp : xs.Perm ys) :
    sum xs = sum ys :=
  foldlM_perm hp (fun _ hx _ hy a => add_swap h hx hy a) (int 0)

end Number

/-- Numbers of one kind have one sorted order, so that a median does not depend on the order of
its data. -/
theorem sortNums_of_perm {xs ys : List Number} (h : Number.Uniform xs) (hp : xs.Perm ys) :
    sortNums xs = sortNums ys := by
  have hsorted : ∀ zs : List Number, (sortNums zs).Pairwise fun a b => a.value ≤ b.value :=
    fun zs => List.pairwise_insertionSort (fun a b : Number => a.value ≤ b.value) zs
  apply List.Perm.eq_of_pairwise _ (hsorted xs) (hsorted ys)
  · exact (sortNums_perm xs).trans (hp.trans (sortNums_perm ys).symm)
  · intro a b ha hb hab hba
    have ha' : a ∈ xs := (sortNums_perm xs).mem_iff.mp ha
    have hb' : b ∈ xs := hp.mem_iff.mpr ((sortNums_perm ys).mem_iff.mp hb)
    exact h.value_inj ha' hb' (le_antisymm hab hba)

theorem median_of_perm {xs ys : List Number} (h : Number.Uniform xs) (hp : xs.Perm ys) :
    median xs = median ys := by
  rw [median, median, sortNums_of_perm h hp]

theorem median_error {xs : List Number} (hne : xs ≠ []) {e : PyErr} (h : median xs = .error e) :
    e = .overflowError := by
  have hlen : (sortNums xs).length ≠ 0 := by
    rw [(sortNums_perm xs).length_eq]
    exact mt List.length_eq_zero_iff.mp hne
  simp only [median, if_neg hlen] at h
  split_ifs at h
  rcases bind_eq_error h with ha | ⟨total, -, h⟩
  · exact Number.add_error ha
  · exact Number.div_error (by norm_num [Number.value]) h

end InferenceControlPlane.Python
