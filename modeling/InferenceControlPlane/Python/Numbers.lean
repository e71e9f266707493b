import InferenceControlPlane.Python.Values
import Mathlib.Algebra.Order.Field.Basic
import Mathlib.Algebra.Order.Group.Unbundled.Int
import Mathlib.Data.List.Sort
import Mathlib.Tactic.Linarith
import Mathlib.Tactic.NormNum

/-!
# Mixed integer and float arithmetic

Python integers are unbounded and floats are not. Mixing the two converts the
integer first, and dividing two integers yields a float; both raise
`OverflowError` beyond the double range. Float arithmetic itself never raises,
apart from division by zero. Float results are read as exact rationals.
-/
namespace InferenceControlPlane.Python

inductive Number where
  | int (n : ℤ)
  | float (q : ℚ)
  deriving DecidableEq

namespace Number

def value : Number → ℚ
  | int n => n
  | float q => q

/-- The implicit conversion of mixed arithmetic. -/
def toFloat : Number → Except PyErr ℚ
  | int n => if doubleBound ≤ n.natAbs then .error .overflowError else .ok n
  | float q => .ok q

def add : Number → Number → Except PyErr Number
  | int a, int b => .ok (int (a + b))
  | a, b => do return float ((← a.toFloat) + (← b.toFloat))

def sub : Number → Number → Except PyErr Number
  | int a, int b => .ok (int (a - b))
  | a, b => do return float ((← a.toFloat) - (← b.toFloat))

def mul : Number → Number → Except PyErr Number
  | int a, int b => .ok (int (a * b))
  | a, b => do return float ((← a.toFloat) * (← b.toFloat))

/-- `a / b`. -/
def div : Number → Number → Except PyErr Number
  | int a, int b =>
    if b = 0 then .error .zeroDivisionError
    else if doubleBound * b.natAbs ≤ a.natAbs then .error .overflowError
    else .ok (float (a / b))
  | a, b => do
    let x ← a.toFloat
    let y ← b.toFloat
    if y = 0 then .error .zeroDivisionError else .ok (float (x / y))

/-- `abs(a)`. -/
def abs : Number → Number
  | int n => int |n|
  | float q => float |q|

/-- `sum(xs)`. -/
def sum (xs : List Number) : Except PyErr Number := xs.foldlM add (int 0)

/-- Integers that convert to a float; every float does already. -/
def InRange : Number → Prop
  | int n => n.natAbs < doubleBound
  | float _ => True

def IsInt : Number → Prop
  | int _ => True
  | float _ => False

def IsFloat : Number → Prop
  | int _ => False
  | float _ => True

@[simp] theorem value_int (n : ℤ) : (int n).value = n := rfl
@[simp] theorem value_float (q : ℚ) : (float q).value = q := rfl

theorem toFloat_of_inRange {a : Number} (h : a.InRange) : a.toFloat = .ok a.value := by
  cases a with
  | int n => simp only [InRange] at h; simp [toFloat, not_le.mpr h]
  | float q => rfl

/-- A mixed or float subtraction yields a float. -/
theorem sub_float {a : Number} (ha : a.InRange) (q : ℚ) :
    a.sub (float q) = .ok (float (a.value - q)) := by
  cases a with
  | int n =>
    change (do return float ((← (int n).toFloat) - (← (float q).toFloat)) : Except PyErr Number) = _
    rw [toFloat_of_inRange ha]
    rfl
  | float p => rfl

/-- Dividing by a nonzero float never overflows. -/
theorem div_float {a : Number} (ha : a.InRange) {q : ℚ} (hq : q ≠ 0) :
    a.div (float q) = .ok (float (a.value / q)) := by
  cases a with
  | int n =>
    change ((do
      let x ← (int n).toFloat
      let y ← (float q).toFloat
      if y = 0 then .error .zeroDivisionError else .ok (float (x / y))) : Except PyErr Number) = _
    rw [toFloat_of_inRange ha]
    change (if q = 0 then _ else _) = _
    rw [if_neg hq]
  | float p =>
    change (if q = 0 then _ else _) = _
    rw [if_neg hq]
    rfl

/-- Integer division overflows exactly when the quotient leaves the double range. -/
theorem div_int_ok {a b : ℤ} (hb : b ≠ 0) (h : a.natAbs < doubleBound * b.natAbs) :
    (int a).div (int b) = .ok (float (a / b)) := by
  simp only [div, if_neg hb, if_neg (not_le.mpr h)]

theorem div_int_error {a b : ℤ} (hb : b ≠ 0) (h : doubleBound * b.natAbs ≤ a.natAbs) :
    (int a).div (int b) = .error .overflowError := by
  simp only [div, if_neg hb, if_pos h]

theorem sum_floats (xs : List Number) (h : ∀ x ∈ xs, x.IsFloat) (hne : xs ≠ []) :
    ∃ q, sum xs = .ok (float q) := by
  have key : ∀ (ys : List Number) (p : ℚ), (∀ y ∈ ys, y.IsFloat) →
      ∃ q, ys.foldlM add (float p) = .ok (float q) := by
    intro ys
    induction ys with
    | nil => intro p _; exact ⟨p, rfl⟩
    | cons y ys ih =>
      intro p hy
      cases y with
      | int n => exact absurd (hy _ List.mem_cons_self) (by simp [IsFloat])
      | float r => exact ih (p + r) (fun z hz => hy z (List.mem_cons_of_mem _ hz))
  cases xs with
  | nil => contradiction
  | cons x xs =>
    cases x with
    | int n => exact absurd (h _ List.mem_cons_self) (by simp [IsFloat])
    | float r =>
      have h0 : add (int 0) (float r) = .ok (float (0 + r)) := by
        change (do
          let u ← (int 0).toFloat
          pure (float (u + r)) : Except PyErr Number) = _
        rw [toFloat_of_inRange (a := int 0) (Nat.zero_lt_of_lt two_lt_doubleBound)]
        rfl
      obtain ⟨q, hq⟩ := key xs (0 + r) (fun z hz => h z (List.mem_cons_of_mem _ hz))
      exact ⟨q, by rw [sum, List.foldlM_cons, h0]; exact hq⟩

theorem sum_ints (ns : List ℤ) : sum (ns.map int) = .ok (int ns.sum) := by
  have key : ∀ (ms : List ℤ) (a : ℤ), (ms.map int).foldlM add (int a) = .ok (int (a + ms.sum)) := by
    intro ms
    induction ms with
    | nil => intro a; simp; rfl
    | cons m ms ih =>
      intro a
      rw [List.map_cons, List.foldlM_cons]
      change (ms.map int).foldlM add (int (a + m)) = _
      rw [ih, List.sum_cons, add_assoc]
  simpa [sum] using key ns 0

end Number

/-- `sorted(data)`, stable. -/
def sortNums (data : List Number) : List Number :=
  data.insertionSort (fun a b => a.value ≤ b.value)

/-- `statistics.median(data)`. -/
def median (data : List Number) : Except PyErr Number :=
  let sorted := sortNums data
  let n := sorted.length
  if n = 0 then .error .statisticsError
  else if n % 2 = 1 then .ok (sorted.getD (n / 2) (.int 0))
  else do
    let total ← (sorted.getD (n / 2 - 1) (.int 0)).add (sorted.getD (n / 2) (.int 0))
    total.div (.int 2)

theorem sortNums_perm (data : List Number) : (sortNums data).Perm data :=
  List.perm_insertionSort _ data

private theorem getD_mem_sorted (data : List Number) (i : ℕ) (hi : i < data.length) :
    (sortNums data).getD i (.int 0) ∈ data := by
  have hl : i < (sortNums data).length := by rwa [(sortNums_perm data).length_eq]
  rw [List.getD_eq_getElem?_getD, List.getElem?_eq_getElem hl, Option.getD_some]
  exact (sortNums_perm data).mem_iff.mp (List.getElem_mem hl)

/-- The median of a nonempty list in range exists and is in range. An odd list
returns one of its members, an even one a float. -/
theorem median_ok {data : List Number} (hne : data ≠ []) (h : ∀ x ∈ data, x.InRange) :
    ∃ m, median data = .ok m ∧ m.InRange ∧ (m ∈ data ∨ m.IsFloat) := by
  have hlen : (sortNums data).length = data.length := (sortNums_perm data).length_eq
  have hpos : 0 < data.length := List.length_pos_iff.mpr hne
  by_cases hodd : data.length % 2 = 1
  · have hm := getD_mem_sorted data (data.length / 2) (by omega)
    refine ⟨_, ?_, h _ hm, Or.inl hm⟩
    simp only [median, hlen, if_neg hpos.ne', if_pos hodd]
  · have ha := h _ (getD_mem_sorted data (data.length / 2 - 1) (by omega))
    have hb := h _ (getD_mem_sorted data (data.length / 2) (by omega))
    simp only [median, hlen, if_neg hpos.ne', if_neg hodd]
    generalize (sortNums data).getD (data.length / 2 - 1) (.int 0) = a at ha
    generalize (sortNums data).getD (data.length / 2) (.int 0) = b at hb
    have two : (Number.int 2).InRange := two_lt_doubleBound
    -- two integers are added exactly and halved, anything else is a float sum
    have hfloat : ∀ q : ℚ, (Number.float q).div (.int 2) = .ok (.float (q / 2)) := by
      intro q
      change ((do
        let y ← (Number.int 2).toFloat
        if y = 0 then .error .zeroDivisionError else .ok (Number.float (q / y))) :
          Except PyErr Number) = _
      rw [Number.toFloat_of_inRange two]
      rfl
    cases a with
    | int x =>
      cases b with
      | int y =>
        have hsum : (x + y).natAbs < doubleBound * (2 : ℤ).natAbs := by
          simp only [Number.InRange] at ha hb
          have := Int.natAbs_add_le x y
          change (x + y).natAbs < doubleBound * 2
          omega
        exact ⟨.float ((x + y : ℤ) / (2 : ℤ)), Number.div_int_ok (by decide) hsum, trivial,
          Or.inr trivial⟩
      | float q =>
        refine ⟨.float ((x + q) / 2), ?_, trivial, Or.inr trivial⟩
        change ((do
          let u ← (Number.int x).toFloat
          pure (Number.float (u + q))) >>= fun t => t.div (.int 2)) = _
        rw [Number.toFloat_of_inRange ha]
        exact hfloat _
    | float p =>
      refine ⟨.float ((p + b.value) / 2), ?_, trivial, Or.inr trivial⟩
      have hadd : (Number.float p).add b = .ok (.float (p + b.value)) := by
        cases b with
        | int y =>
          change (do
            let v ← (Number.int y).toFloat
            pure (Number.float (p + v)) : Except PyErr Number) = _
          rw [Number.toFloat_of_inRange hb]
          rfl
        | float q => rfl
      rw [hadd]
      exact hfloat _

/-! ## Rounding -/

theorem abs_roundHalfEven_sub_le (q : ℚ) : |(roundHalfEven q : ℚ) - q| ≤ 1 / 2 := by
  have hlow : ((q.floor : ℤ) : ℚ) ≤ q := Rat.floor_le q
  have hhigh : q < (q.floor : ℚ) + 1 := by
    exact_mod_cast Rat.lt_floor_add_one q
  unfold roundHalfEven
  simp only
  split_ifs with h
  · have hgap : q - (q.floor : ℚ) ≤ 1 / 2 := by
      rcases h with h | h
      · exact h.le
      · exact h.1.le
    rw [abs_le]
    constructor <;> linarith
  · have hgap : 1 / 2 ≤ q - (q.floor : ℚ) := not_lt.mp fun hlt => h (Or.inl hlt)
    rw [Int.cast_add, Int.cast_one, abs_le]
    constructor <;> linarith

/-- `round(q, digits)` is off by at most half a unit of the last digit. -/
theorem abs_roundTo_sub_le (digits : ℕ) (q : ℚ) :
    |roundTo digits q - q| ≤ 1 / 2 / 10 ^ digits := by
  have hpos : (0 : ℚ) < 10 ^ digits := by positivity
  have h := abs_roundHalfEven_sub_le (q * 10 ^ digits)
  rw [roundTo, div_sub' hpos.ne', abs_div, abs_of_pos hpos]
  refine div_le_div_of_nonneg_right ?_ hpos.le
  rwa [mul_comm q] at h ⊢

@[simp] theorem roundTo_zero (digits : ℕ) : roundTo digits 0 = 0 := by
  have h : roundHalfEven 0 = 0 := by decide +kernel
  rw [roundTo, zero_mul, h, Int.cast_zero, zero_div]

end InferenceControlPlane.Python
