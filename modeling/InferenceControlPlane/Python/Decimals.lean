import InferenceControlPlane.Python.DateTime
import Mathlib.Data.List.Induction
import Mathlib.Data.Rat.Floor
import Mathlib.Tactic.FieldSimp
import Mathlib.Tactic.Ring

/-!
# Decimal digits

What a row of digits denotes, as a whole number and as a decimal fraction, for any
values of the digits. Cutting a fraction after some digits rounds it down.
-/
namespace InferenceControlPlane.Python

/-- The number that a row of digits denotes. -/
def numeral (value : Char → ℕ) (cs : List Char) : ℕ :=
  cs.foldl (fun n c => 10 * n + value c) 0

/-- The fraction that a row of digits denotes after the point. -/
def fraction (value : Char → ℕ) (cs : List Char) : ℚ := numeral value cs / 10 ^ cs.length

/-- The value of an ASCII digit. -/
def asciiValue (c : Char) : ℕ := c.toNat - 48

theorem asciiValue_lt {c : Char} (h : c.isDigit = true) : asciiValue c < 10 := by
  simp only [Char.isDigit, Bool.and_eq_true, decide_eq_true_eq] at h
  have hle : c.toNat ≤ 57 := h.2
  rw [asciiValue]
  omega

section
variable {value : Char → ℕ}

@[simp] theorem numeral_nil : numeral value [] = 0 := rfl

theorem numeral_congr {value' : Char → ℕ} {cs : List Char} (h : ∀ c ∈ cs, value c = value' c) :
    numeral value cs = numeral value' cs := by
  rw [numeral, numeral]
  exact List.foldl_ext _ _ _ fun n c hc => by rw [h c hc]

theorem numeral_concat (cs : List Char) (c : Char) :
    numeral value (cs ++ [c]) = 10 * numeral value cs + value c := by
  rw [numeral, List.foldl_append]
  rfl

theorem numeral_append (cs ds : List Char) :
    numeral value (cs ++ ds) = numeral value cs * 10 ^ ds.length + numeral value ds := by
  induction ds using List.reverseRecOn with
  | nil => simp
  | append_singleton ds d ih =>
    rw [← List.append_assoc, numeral_concat, numeral_concat, ih, List.length_append,
      List.length_singleton, pow_succ]
    ring

theorem numeral_lt {cs : List Char} (h : ∀ c ∈ cs, value c < 10) :
    numeral value cs < 10 ^ cs.length := by
  induction cs using List.reverseRecOn with
  | nil => simp
  | append_singleton cs c ih =>
    have hc := h c (by simp)
    have hcs := ih fun d hd => h d (List.mem_append_left _ hd)
    rw [numeral_concat, List.length_append, List.length_singleton, pow_succ]
    omega

theorem numeral_replicate_zero (h0 : value '0' = 0) (k : ℕ) :
    numeral value (List.replicate k '0') = 0 := by
  induction k with
  | zero => rfl
  | succ k ih => rw [List.replicate_succ', numeral_concat, ih, h0]

theorem fraction_nonneg (cs : List Char) : 0 ≤ fraction value cs := by
  unfold fraction
  positivity

theorem fraction_lt_one {cs : List Char} (h : ∀ c ∈ cs, value c < 10) :
    fraction value cs < 1 := by
  rw [fraction, div_lt_one (by positivity)]
  exact_mod_cast numeral_lt h

/-- Zeros at the end of a fraction change nothing, which is why a timestamp may be padded to six
digits. -/
theorem fraction_append_zeros (h0 : value '0' = 0) (cs : List Char) (k : ℕ) :
    fraction value (cs ++ List.replicate k '0') = fraction value cs := by
  rw [fraction, fraction, numeral_append, numeral_replicate_zero h0, List.length_append,
    List.length_replicate]
  push_cast
  rw [pow_add]
  field_simp
  ring

/-- The first digits of a fraction, and what the others add to them: the part that is cut off
below the microsecond. -/
theorem fraction_append (cs ds : List Char) :
    fraction value (cs ++ ds) * 10 ^ cs.length = numeral value cs + fraction value ds := by
  rw [fraction, fraction, numeral_append, List.length_append]
  push_cast
  rw [pow_add]
  field_simp

/-- To pad a fraction with zeros and cut it after `k` digits is to round it down. -/
theorem floor_fraction {cs : List Char} (h : ∀ c ∈ cs, value c < 10) (h0 : value '0' = 0)
    (k : ℕ) : ⌊fraction value cs * 10 ^ k⌋ =
      (numeral value ((cs ++ List.replicate k '0').take k) : ℤ) := by
  have hpadded : ∀ c ∈ cs ++ List.replicate k '0', value c < 10 := by
    intro c hc
    rcases List.mem_append.mp hc with hc | hc
    · exact h c hc
    · rw [List.eq_of_mem_replicate hc, h0]
      decide
  rw [← fraction_append_zeros h0 cs k]
  have hlength : k ≤ (cs ++ List.replicate k '0').length := by simp
  generalize cs ++ List.replicate k '0' = padded at hpadded hlength
  have hsplit : fraction value (padded.take k ++ padded.drop k) * 10 ^ (padded.take k).length =
      numeral value (padded.take k) + fraction value (padded.drop k) := fraction_append _ _
  rw [List.take_append_drop, List.length_take_of_le hlength] at hsplit
  have hrest : ⌊fraction value (padded.drop k)⌋ = 0 := by
    rw [Int.floor_eq_zero_iff]
    exact ⟨fraction_nonneg _, fraction_lt_one fun c hc => hpadded c (List.mem_of_mem_drop hc)⟩
  rw [hsplit, Int.floor_natCast_add, hrest, add_zero]

theorem numberOf_concat (cs : List Char) (c : Char) :
    numberOf (cs ++ [c]) =
      (numberOf cs).bind fun n => if c.isDigit then some (10 * n + asciiValue c) else none := by
  have hfold : ∀ cs : List Char, numberOf cs = cs.foldl (fun acc c => do
      let n ← acc
      if c.isDigit then some (10 * n + (c.toNat - 48)) else none) (some 0) := by
    intro cs
    cases cs with
    | nil => rfl
    | cons c cs => rfl
  rw [hfold, hfold, List.foldl_append]
  rfl

/-- The reader of numbers takes ASCII digits, and gives what they denote. -/
theorem numberOf_eq_some {cs : List Char} {n : ℕ} :
    numberOf cs = some n ↔ (∀ c ∈ cs, c.isDigit = true) ∧ n = numeral asciiValue cs := by
  induction cs using List.reverseRecOn generalizing n with
  | nil =>
    change some 0 = some n ↔ _
    rw [Option.some.injEq, numeral_nil, eq_comm]
    simp
  | append_singleton cs c ih =>
    rw [numberOf_concat, numeral_concat, List.forall_mem_append, List.forall_mem_singleton]
    simp only [Option.bind_eq_some_iff, Option.ite_none_right_eq_some, Option.some.injEq, ih]
    constructor
    · rintro ⟨k, ⟨hcs, rfl⟩, hc, rfl⟩
      exact ⟨⟨hcs, hc⟩, rfl⟩
    · rintro ⟨⟨hcs, hc⟩, rfl⟩
      exact ⟨_, ⟨hcs, rfl⟩, hc, rfl⟩

end
end InferenceControlPlane.Python
