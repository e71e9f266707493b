import InferenceControlPlane.Exceptions
import Mathlib.Data.Rat.Defs
import Mathlib.Algebra.Order.Field.Rat
import Mathlib.Tactic.Common

/-!
# Python values

JSON values as `json.loads` returns them, the exceptions built-in operations
raise, truthiness, and the conversions `str()` and `float()`. A finite float is
read as the exact rational it denotes. Facts that depend on the Unicode tables or
on the decimal rendering of floats and containers are fields of `Runtime`, so
every theorem holds for each interpreter.
-/
namespace InferenceControlPlane.Python

/-- Built-in exception types; `raised` is any other `Exception` subclass. -/
inductive PyErr where
  | attributeError
  | keyError
  | overflowError
  | statisticsError
  | typeError
  | valueError
  | zeroDivisionError
  | raised (typeName : String)
  deriving DecidableEq, Repr

/-- `type(exc).__name__`. -/
def PyErr.typeName : PyErr → String
  | .attributeError => "AttributeError"
  | .keyError => "KeyError"
  | .overflowError => "OverflowError"
  | .statisticsError => "StatisticsError"
  | .typeError => "TypeError"
  | .valueError => "ValueError"
  | .zeroDivisionError => "ZeroDivisionError"
  | .raised name => name

inductive PyFloat where
  | finite (q : ℚ)
  | inf
  | negInf
  | nan
  deriving DecidableEq

namespace PyFloat

/-- `x < y`; false as soon as one side is NaN. -/
def lt : PyFloat → PyFloat → Bool
  | finite p, finite q => p < q
  | finite _, inf => true
  | negInf, finite _ => true
  | negInf, inf => true
  | _, _ => false

/-- `x <= y`. -/
def le : PyFloat → PyFloat → Bool
  | finite p, finite q => p ≤ q
  | finite _, inf => true
  | inf, inf => true
  | negInf, finite _ => true
  | negInf, negInf => true
  | negInf, inf => true
  | _, _ => false

/-- Equality of values; NaN equals nothing. -/
def eq : PyFloat → PyFloat → Bool
  | finite p, finite q => p = q
  | inf, inf => true
  | negInf, negInf => true
  | _, _ => false

/-- `max(x, y)`: the first unless the second is greater. -/
def max (x y : PyFloat) : PyFloat := if x.lt y then y else x

lemma max_max_self (x y : PyFloat) : (x.max y).max y = x.max y := by
  have hirrefl : y.lt y = false := by
    cases y with
    | finite q => exact decide_eq_false (lt_irrefl q)
    | inf => rfl
    | negInf => rfl
    | nan => rfl
  by_cases h : x.lt y = true
  · simp [max, h, hirrefl]
  · simp [max, h]

/-- `min(x, y)`: the first unless the second is smaller. -/
def min (x y : PyFloat) : PyFloat := if y.lt x then y else x

/-- `x + (y - x) * frac` for a fraction of a bucket. -/
def interpolate (x y : PyFloat) (frac : ℚ) : PyFloat :=
  match x, y with
  | finite p, finite q => finite (p + (q - p) * frac)
  | finite _, inf => if frac = 0 then nan else if 0 < frac then inf else negInf
  | _, _ => nan

/-- `x + y`. -/
def add : PyFloat → PyFloat → PyFloat
  | finite p, finite q => finite (p + q)
  | finite _, y => y
  | x, finite _ => x
  | inf, inf => inf
  | negInf, negInf => negInf
  | _, _ => nan

protected theorem add_comm (x y : PyFloat) : x.add y = y.add x := by
  cases x <;> cases y <;> simp [add, Rat.add_comm]

protected theorem add_assoc (x y z : PyFloat) : (x.add y).add z = x.add (y.add z) := by
  cases x <;> cases y <;> cases z <;> simp [add, Rat.add_assoc]

protected theorem zero_add (x : PyFloat) : (finite 0).add x = x := by
  cases x <;> simp [add]

protected theorem add_zero (x : PyFloat) : x.add (finite 0) = x := by
  rw [PyFloat.add_comm, PyFloat.zero_add]

instance instAdd : Add PyFloat := ⟨add⟩

instance instZero : Zero PyFloat := ⟨finite 0⟩

instance addCommMonoid : AddCommMonoid PyFloat where
  add_assoc := PyFloat.add_assoc
  add_comm := PyFloat.add_comm
  zero_add := PyFloat.zero_add
  add_zero := PyFloat.add_zero
  nsmul := nsmulRec

theorem finite_add (p q : ℚ) : finite p + finite q = finite (p + q) := rfl

/-- `x * k` for a finite `k`. -/
def scale (x : PyFloat) (k : ℚ) : PyFloat :=
  match x with
  | finite p => finite (p * k)
  | inf => if k = 0 then nan else if 0 < k then inf else negInf
  | negInf => if k = 0 then nan else if 0 < k then negInf else inf
  | nan => nan

end PyFloat

inductive Json where
  | null
  | bool (b : Bool)
  | int (n : ℤ)
  | float (x : PyFloat)
  | str (s : String)
  | arr (items : List Json)
  | obj (fields : List (String × Json))

namespace Json

/-- `value.get(key)` on an object; `none` where the value is not a mapping. -/
def get? : Json → String → Option (Option Json)
  | obj fields, key => some (fields.lookup key)
  | _, _ => none

/-- `bool(value)`. -/
def truthy : Json → Bool
  | null => false
  | bool b => b
  | int n => n != 0
  | float (.finite q) => q != 0
  | float _ => true
  | str s => s != ""
  | arr items => !items.isEmpty
  | obj fields => !fields.isEmpty

end Json

/-- A text that is read as JSON, by what `json.loads` makes of it. A text that is not
JSON is kept; `failing` raises something other than a decode error. -/
inductive Text where
  | empty
  | json (value : Json)
  | malformed (text : String)
  | failing (e : PyErr)

/-- `value.get(key)` where `None` and a missing key are told apart by nobody. -/
def field (fields : List (String × Json)) (key : String) : Json :=
  (fields.lookup key).getD .null

/-- `a or b`. -/
def orElse (a b : Json) : Json := if a.truthy then a else b

/-- What the interpreter supplies: Unicode character classes, `str.lower`, the
text of floats and containers under `str()`, and `float()` and `int()` of a text. -/
class Runtime where
  isDecimal : Char → Bool
  isDecimal_ascii : ∀ c : Char, c.toNat < 128 → isDecimal c = c.isDigit
  isWord : Char → Bool
  lower : String → String
  reprText : Json → Except PyErr String
  floatOfText : String → Option PyFloat
  intOfText : String → Option ℤ

/-- The ASCII part of an interpreter; texts do not convert to numbers. -/
@[reducible] def Runtime.ascii : Runtime where
  isDecimal := Char.isDigit
  isDecimal_ascii _ _ := rfl
  isWord c := c.isAlphanum || c == '_'
  lower s := String.ofList (s.toList.map Char.toLower)
  reprText _ := .error .typeError
  floatOfText _ := none
  intOfText _ := none

/-! ## Text -/

/-- Characters that `str.strip()` removes. -/
def isSpace (c : Char) : Bool :=
  let n := c.toNat
  (9 ≤ n && n ≤ 13) || (0x1c ≤ n && n ≤ 0x20) || n = 0x85 || n = 0xa0 || n = 0x1680 ||
    (0x2000 ≤ n && n ≤ 0x200a) || n = 0x2028 || n = 0x2029 || n = 0x202f || n = 0x205f ||
    n = 0x3000

def stripChars (cs : List Char) : List Char :=
  ((cs.dropWhile isSpace).reverse.dropWhile isSpace).reverse

/-- `text.strip()`. -/
def strip (s : String) : String := String.ofList (stripChars s.toList)

theorem stripChars_of_ends {cs : List Char} (hne : cs ≠ [])
    (hh : isSpace (cs.head hne) = false) (hl : isSpace (cs.getLast hne) = false) :
    stripChars cs = cs := by
  have h1 : cs.dropWhile isSpace = cs := by
    cases cs with
    | nil => contradiction
    | cons c cs => rw [List.head_cons] at hh; simp [hh]
  have h2 : cs.reverse.dropWhile isSpace = cs.reverse := by
    have hne' : cs.reverse ≠ [] := by simpa using hne
    rw [List.getLast_eq_head_reverse] at hl
    cases hr : cs.reverse with
    | nil => exact absurd hr hne'
    | cons c rs => simp only [hr, List.head_cons] at hl; simp [hl]
  rw [stripChars, h1, h2, List.reverse_reverse]

/-- `needle in hay`. -/
def isSubtext (needle hay : String) : Bool :=
  hay.toList.tails.any (needle.toList.isPrefixOf ·)

/-- `text.startswith(prefix)`. -/
def startsWith (text start : String) : Bool := start.toList.isPrefixOf text.toList

/-- `sep.join(parts)`. -/
def join (sep : String) (parts : List String) : String := String.intercalate sep parts

/-! ## Doubles

Only the range of doubles matters to control flow: converting an integer beyond
it, or dividing two integers with a quotient beyond it, raises `OverflowError`. -/

/-- The largest finite double. -/
@[irreducible] def maxDouble : ℕ := 2 ^ 1024 - 2 ^ 971

/-- Magnitudes from here on round beyond `maxDouble`. -/
@[irreducible] def doubleBound : ℕ := 2 ^ 1024 - 2 ^ 970

theorem maxDouble_lt_doubleBound : maxDouble < doubleBound := by decide +kernel

theorem two_lt_doubleBound : 2 < doubleBound := by decide +kernel

lemma two_pow_lt_sub (a b : ℕ) {n : ℕ} (hn : n < b) (ha : a + 1 < b) : 2 ^ n < 2 ^ b - 2 ^ a := by
  have h1 : 2 ^ (n + 1) ≤ 2 ^ b := Nat.pow_le_pow_right two_pos hn
  have h2 : 2 ^ (a + 1) < 2 ^ b := Nat.pow_lt_pow_right one_lt_two ha
  rw [pow_succ] at h1 h2
  omega

/-- `2**n` converts to a float for `n < 1024`. -/
theorem two_pow_lt_doubleBound {n : ℕ} (h : n < 1024) : 2 ^ n < doubleBound := by
  have hsub := two_pow_lt_sub 970 1024 h (by omega)
  unfold doubleBound
  exact hsub

/-- Round a natural number to 53 significant bits, ties to even. -/
def roundDouble (n : ℕ) : ℕ :=
  let e := Nat.log2 n - 52
  let q := n / 2 ^ e
  let r := 2 * (n % 2 ^ e)
  if 2 ^ e < r ∨ (r = 2 ^ e ∧ q % 2 = 1) then (q + 1) * 2 ^ e else q * 2 ^ e

lemma le_roundDouble (n : ℕ) :
    2 ^ (Nat.log2 n - 52) * (n / 2 ^ (Nat.log2 n - 52)) ≤ roundDouble n := by
  unfold roundDouble
  rw [Nat.mul_comm]
  simp only
  split_ifs
  · exact Nat.mul_le_mul_right _ (Nat.le_succ _)
  · exact le_rfl

lemma roundDouble_le (n : ℕ) : roundDouble n ≤ n + 2 ^ (Nat.log2 n - 52) := by
  have hle : n / 2 ^ (Nat.log2 n - 52) * 2 ^ (Nat.log2 n - 52) ≤ n := Nat.div_mul_le_self _ _
  unfold roundDouble
  simp only
  split_ifs
  · rw [Nat.succ_mul]
    omega
  · omega

/-- A number in the binade of 54 bits over the unit `2 ^ k` is rounded to an even
number of units, and out of the binade from its last half unit on. -/
lemma roundDouble_binade {n k : ℕ} (hlog : Nat.log2 n = k + 53) (hlast : n < 2 ^ 54 * 2 ^ k) :
    2 ^ 54 * 2 ^ k - 2 * 2 ^ k < roundDouble n ↔ 2 ^ 54 * 2 ^ k - 2 ^ k ≤ n := by
  have hexp : k + 53 - 52 = k + 1 := by omega
  simp only [roundDouble, hlog, hexp, pow_succ' 2 k]
  have hpos : 0 < 2 ^ k := Nat.two_pow_pos k
  generalize 2 ^ k = unit at *
  have hdiv := Nat.div_add_mod n (2 * unit)
  have hmod := Nat.mod_lt n (show 0 < 2 * unit by omega)
  generalize n / (2 * unit) = q at *
  generalize n % (2 * unit) = r at *
  have hq : q < 2 ^ 53 := by
    by_contra hq
    have hmul := Nat.mul_le_mul_left (2 * unit) (not_lt.mp hq)
    omega
  rcases (show q = 2 ^ 53 - 1 ∨ q + 1 ≤ 2 ^ 53 - 1 by omega) with rfl | hq
  · split_ifs with h <;> omega
  · have hmul := Nat.mul_le_mul_right (2 * unit) hq
    have hdist : (q + 1) * (2 * unit) = q * (2 * unit) + 2 * unit := Nat.succ_mul _ _
    rw [Nat.mul_comm (2 * unit) q] at hdiv
    generalize q * (2 * unit) = low at *
    split_ifs with h <;> omega

lemma mul_le_mul_div {n unit a : ℕ} (hpos : 0 < unit) (h : unit * a ≤ n) :
    unit * a ≤ unit * (n / unit) := by
  apply Nat.mul_le_mul_left
  rwa [Nat.le_div_iff_mul_le hpos, Nat.mul_comm]

/-- Rounding to 53 bits leaves a range of 54 bits exactly from its last half unit on. -/
lemma lt_roundDouble_iff (n k : ℕ) :
    2 ^ (k + 54) - 2 ^ (k + 1) < roundDouble n ↔ 2 ^ (k + 54) - 2 ^ k ≤ n := by
  have hpos : 0 < 2 ^ k := Nat.two_pow_pos k
  have h54 : 2 ^ (k + 54) = 2 ^ 54 * 2 ^ k := by rw [pow_add, Nat.mul_comm]
  have h53 : 2 ^ (k + 53) = 2 ^ 53 * 2 ^ k := by rw [pow_add, Nat.mul_comm]
  rw [pow_succ' 2 k, h54]
  rcases lt_or_ge n (2 ^ (k + 53)) with hsmall | hlarge
  · have hlog : Nat.log2 n - 52 ≤ k := by
      rcases Nat.eq_zero_or_pos n with rfl | hn
      · simp
      · have hlt := (Nat.log2_lt hn.ne').mpr hsmall
        omega
    have hunit : 2 ^ (Nat.log2 n - 52) ≤ 2 ^ k := Nat.pow_le_pow_right two_pos hlog
    have hround := roundDouble_le n
    omega
  · have hn : n ≠ 0 := by omega
    have hge := (Nat.le_log2 hn).mpr hlarge
    rcases lt_or_ge n (2 ^ (k + 54)) with hlast | hbeyond
    · have hlt := (Nat.log2_lt hn).mpr hlast
      exact roundDouble_binade (by omega) (h54 ▸ hlast)
    · -- beyond the range, 52 bits above the unit remain after rounding
      have hlog := (Nat.le_log2 hn).mpr hbeyond
      have hself := Nat.log2_self_le hn
      have hsplit : 2 ^ Nat.log2 n = 2 ^ (Nat.log2 n - 52) * 2 ^ 52 := by
        rw [← pow_add, Nat.sub_add_cancel (by omega)]
      rw [hsplit] at hself
      have hbig := mul_le_mul_div (Nat.two_pow_pos _) hself
      rw [← hsplit] at hbig
      have hpow : 2 ^ (k + 54) ≤ 2 ^ Nat.log2 n := Nat.pow_le_pow_right two_pos hlog
      have hround := hpow.trans (hbig.trans (le_roundDouble n))
      rw [h54] at hround hbeyond
      generalize 2 ^ k = unit at *
      generalize roundDouble n = rounded at *
      clear hbig hself hsplit hpow
      omega

/-- Rounding exceeds the largest double exactly from `doubleBound` on. -/
theorem maxDouble_lt_roundDouble_iff (n : ℕ) : maxDouble < roundDouble n ↔ doubleBound ≤ n := by
  unfold maxDouble doubleBound
  have h := lt_roundDouble_iff n 970
  rw [show 970 + 54 = 1024 from rfl, show 970 + 1 = 971 from rfl] at h
  exact h

/-- `float(n)` for an integer; the result is the double, an integer again. -/
def floatOfInt (n : ℤ) : Except PyErr ℤ :=
  if maxDouble < roundDouble n.natAbs then .error .overflowError
  else .ok (n.sign * roundDouble n.natAbs)

/-- `float(value)`. -/
def toFloat [Runtime] : Json → Except PyErr PyFloat
  | .bool b => .ok (.finite (if b then 1 else 0))
  | .int n => (floatOfInt n).map fun m => .finite m
  | .float x => .ok x
  | .str s =>
    match Runtime.floatOfText s with
    | some x => .ok x
    | none => .error .valueError
  | _ => .error .typeError

/-- `int(value)`: floats are truncated toward zero. -/
def toInt [Runtime] : Json → Except PyErr ℤ
  | .bool b => .ok (if b then 1 else 0)
  | .int n => .ok n
  | .float (.finite q) => .ok (q.num.tdiv q.den)
  | .float .nan => .error .valueError
  | .float _ => .error .overflowError
  | .str s =>
    match Runtime.intOfText s with
    | some n => .ok n
    | none => .error .valueError
  | _ => .error .typeError

/-- Decimal digits beyond which `str()` of an integer raises `ValueError`. -/
def maxStrDigits : ℕ := 4300

/-- `str(value)`. -/
def toStr [Runtime] : Json → Except PyErr String
  | .null => .ok "None"
  | .bool true => .ok "True"
  | .bool false => .ok "False"
  | .int n =>
    if 10 ^ maxStrDigits ≤ n.natAbs then .error .valueError else .ok (toString n)
  | .str s => .ok s
  | v => Runtime.reprText v

instance decidableForallOk {ε α : Type*} (x : Except ε α) (P : α → Prop) [DecidablePred P] :
    Decidable (∀ a, x = .ok a → P a) :=
  match x with
  | .error _ => isTrue fun _ h => nomatch h
  | .ok a => decidable_of_iff (P a) ⟨fun h _ heq => Except.ok.inj heq ▸ h, fun h => h a rfl⟩

/-! ## Rounding -/

/-- The nearest integer, ties to even. -/
def roundHalfEven (q : ℚ) : ℤ :=
  let low := q.floor
  let gap := q - low
  if gap < 1 / 2 ∨ (gap = 1 / 2 ∧ low % 2 = 0) then low else low + 1

/-- `round(q, digits)`. -/
def roundTo (digits : ℕ) (q : ℚ) : ℚ := roundHalfEven (q * 10 ^ digits) / 10 ^ digits

/-- The power of two at or below a positive rational. -/
def leadingBit (q : ℚ) : ℤ :=
  let guess : ℤ := q.num.toNat.log2 - q.den.log2
  if (2 : ℚ) ^ guess ≤ q then guess else guess - 1

/-- The double nearest to a rational, ties to even: what a division or a product of floats
comes to where it stays within their range. A double has 53 bits, and none below `2**-1074`. -/
def nearestDouble (q : ℚ) : ℚ :=
  if q = 0 then 0
  else
    let unit : ℚ := 2 ^ max (leadingBit (if q < 0 then -q else q) - 52) (-1074)
    roundHalfEven (q / unit) * unit

end InferenceControlPlane.Python
