import InferenceControlPlane.Python.Values
import Mathlib.Tactic.IntervalCases
import Mathlib.Tactic.Linarith
import Mathlib.Tactic.SplitIfs

/-!
# Timezone-aware datetimes

A datetime is its wall clock, in microseconds since 0001-01-01T00:00:00, and a
fixed UTC offset. Comparison and subtraction use the instant, the wall clock less
the offset. `isoformat` and `ofFields` go through the proleptic Gregorian
calendar, computed as the standard library does.
-/
namespace InferenceControlPlane.Python

/-! ## Calendar -/

def isLeap (y : ℕ) : Bool := y % 4 = 0 && (y % 100 ≠ 0 || y % 400 = 0)

/-- Days of all years before year `y`. -/
def daysBeforeYear (y : ℕ) : ℕ := (y - 1) * 365 + (y - 1) / 4 - (y - 1) / 100 + (y - 1) / 400

def daysInMonth (leap : Bool) : ℕ → ℕ
  | 1 => 31 | 2 => if leap then 29 else 28 | 3 => 31 | 4 => 30 | 5 => 31 | 6 => 30
  | 7 => 31 | 8 => 31 | 9 => 30 | 10 => 31 | 11 => 30 | 12 => 31 | _ => 0

def daysBeforeMonth (leap : Bool) (m : ℕ) : ℕ :=
  ((List.range m).map (daysInMonth leap)).sum

structure Date where
  year : ℕ
  month : ℕ
  day : ℕ
  deriving DecidableEq, Repr

def Date.Valid (d : Date) : Prop :=
  1 ≤ d.year ∧ d.year ≤ 9999 ∧ 1 ≤ d.month ∧ d.month ≤ 12 ∧
    1 ≤ d.day ∧ d.day ≤ daysInMonth (isLeap d.year) d.month

instance (d : Date) : Decidable d.Valid := by unfold Date.Valid; infer_instance

/-- Days from 0001-01-01 to a date. -/
def Date.dayNumber (d : Date) : ℕ :=
  daysBeforeYear d.year + daysBeforeMonth (isLeap d.year) d.month + d.day - 1

/-- Month and day of the `n`-th day of a year, counted from zero. -/
def monthDay (leap : Bool) (n : ℕ) : ℕ × ℕ :=
  let guess := (n + 50) / 32
  let month := if n < daysBeforeMonth leap guess then guess - 1 else guess
  (month, n - daysBeforeMonth leap month + 1)

/-- The date of the `n`-th day since 0001-01-01, by 400, 100, 4 and 1 year cycles. -/
def dateOfDay (n : ℕ) : Date :=
  let n400 := n / 146097
  let r400 := n % 146097
  let n100 := r400 / 36524
  let r100 := r400 % 36524
  let n4 := r100 / 1461
  let r4 := r100 % 1461
  let n1 := r4 / 365
  let day := r4 % 365
  let year := n400 * 400 + n100 * 100 + n4 * 4 + n1 + 1
  if n1 = 4 ∨ n100 = 4 then ⟨year - 1, 12, 31⟩
  else
    let md := monthDay (n1 = 3 && (n4 ≠ 24 || n100 = 3)) day
    ⟨year, md.1, md.2⟩

/-- Number of days of the years 1 to 9999. -/
def maxDays : ℕ := 3652059

theorem monthDay_spec (leap : Bool) (n : ℕ) (h : n < 365 + leap.toNat) :
    1 ≤ (monthDay leap n).1 ∧ (monthDay leap n).1 ≤ 12 ∧ 1 ≤ (monthDay leap n).2 ∧
      (monthDay leap n).2 ≤ daysInMonth leap (monthDay leap n).1 ∧
      daysBeforeMonth leap (monthDay leap n).1 + (monthDay leap n).2 = n + 1 := by
  have key : ∀ leap : Bool, ∀ n : Fin 366, n.val < 365 + leap.toNat →
      1 ≤ (monthDay leap n).1 ∧ (monthDay leap n).1 ≤ 12 ∧ 1 ≤ (monthDay leap n).2 ∧
        (monthDay leap n).2 ≤ daysInMonth leap (monthDay leap n).1 ∧
        daysBeforeMonth leap (monthDay leap n).1 + (monthDay leap n).2 = n + 1 := by
    decide +kernel
  exact key leap ⟨n, by cases leap <;> simp at h <;> omega⟩ h

/-- The year `d` of the `c`-th 4-year cycle of the `b`-th century of the `a`-th
400-year cycle. -/
def cycleYear (a b c d : ℕ) : ℕ := a * 400 + b * 100 + c * 4 + d + 1

lemma daysBeforeYear_cycle (a b c d : ℕ) (hb : b ≤ 3) (hc : c ≤ 24) (hd : d ≤ 3) :
    daysBeforeYear (cycleYear a b c d) = 146097 * a + 36524 * b + 1461 * c + 365 * d := by
  have h4 : (a * 400 + b * 100 + c * 4 + d) / 4 = 100 * a + 25 * b + c := by omega
  have h100 : (a * 400 + b * 100 + c * 4 + d) / 100 = 4 * a + b := by omega
  have h400 : (a * 400 + b * 100 + c * 4 + d) / 400 = a := by omega
  simp only [daysBeforeYear, cycleYear, Nat.add_sub_cancel, h4, h100, h400]
  omega

lemma isLeap_cycle (a b c d : ℕ) (hb : b ≤ 3) (hc : c ≤ 24) (hd : d ≤ 3) :
    isLeap (cycleYear a b c d) = (d = 3 && (c ≠ 24 || b = 3) : Bool) := by
  have h : (cycleYear a b c d % 4 = 0 ∧
      (¬ cycleYear a b c d % 100 = 0 ∨ cycleYear a b c d % 400 = 0)) ↔
      (d = 3 ∧ (¬ c = 24 ∨ b = 3)) := by
    simp only [cycleYear]
    omega
  rw [Bool.eq_iff_iff]
  simpa [isLeap] using h

lemma cycleYear_le {a b c : ℕ} (hb : b ≤ 3) (hc : c ≤ 23 ∨ (c = 24 ∧ b = 3))
    (h : 146097 * a + 36524 * b + 1461 * c + 1460 < 3652059) : cycleYear a b c 3 ≤ 9999 := by
  simp only [cycleYear]
  have ha : a ≤ 24 := by omega
  rcases ha.lt_or_eq with ha | rfl
  · omega
  · interval_cases b <;> omega

/-- The cycle decomposition of a day number: `dateOfDay` is a valid date whose
day number is the one it was computed from. -/
theorem dateOfDay_spec (n : ℕ) (h : n < maxDays) :
    (dateOfDay n).Valid ∧ (dateOfDay n).dayNumber = n := by
  simp only [maxDays] at h
  simp only [dateOfDay]
  have h400 : n % 146097 < 146097 := Nat.mod_lt _ (by decide)
  have h100 : n % 146097 % 36524 < 36524 := Nat.mod_lt _ (by decide)
  have h4 : n % 146097 % 36524 % 1461 < 1461 := Nat.mod_lt _ (by decide)
  have h1 : n % 146097 % 36524 % 1461 % 365 < 365 := Nat.mod_lt _ (by decide)
  have e400 := Nat.div_add_mod n 146097
  have e100 := Nat.div_add_mod (n % 146097) 36524
  have e4 := Nat.div_add_mod (n % 146097 % 36524) 1461
  have e1 := Nat.div_add_mod (n % 146097 % 36524 % 1461) 365
  generalize n % 146097 % 36524 % 1461 % 365 = r at *
  generalize n % 146097 % 36524 % 1461 / 365 = d at *
  generalize n % 146097 % 36524 % 1461 = r4 at *
  generalize n % 146097 % 36524 / 1461 = c at *
  generalize n % 146097 % 36524 = r100 at *
  generalize n % 146097 / 36524 = b at *
  generalize n % 146097 = r400 at *
  generalize n / 146097 = a at *
  split_ifs with hlast
  · -- the last day of a leap year closes a 4-year or a 400-year cycle
    obtain ⟨b', c', hb, hc, hy, hn⟩ : ∃ b' c', b' ≤ 3 ∧ (c' ≤ 23 ∨ (c' = 24 ∧ b' = 3)) ∧
        a * 400 + b * 100 + c * 4 + d + 1 - 1 = cycleYear a b' c' 3 ∧
        146097 * a + 36524 * b' + 1461 * c' + 365 * 3 + 365 = n := by
      rcases hlast with hd | hb
      · exact ⟨b, c, by omega, by omega, by simp only [cycleYear]; omega, by omega⟩
      · exact ⟨3, 24, by omega, by omega, by simp only [cycleYear]; omega, by omega⟩
    have hleap : isLeap (cycleYear a b' c' 3) = true := by
      have hcentury : ¬ c' = 24 ∨ b' = 3 := by omega
      rw [isLeap_cycle a b' c' 3 hb (by omega) le_rfl]
      simpa using hcentury
    rw [hy]
    have hdays := daysBeforeYear_cycle a b' c' 3 hb (by omega) le_rfl
    have hm : daysBeforeMonth true 12 = 335 := by decide
    constructor
    · have hyear : cycleYear a b' c' 3 ≤ 9999 := cycleYear_le hb hc (by omega)
      exact ⟨by simp [cycleYear], hyear, by simp, by simp, by simp, by simp [daysInMonth]⟩
    · simp only [Date.dayNumber, hleap, hdays, hm]
      omega
  · have hb : b ≤ 3 := by omega
    have hc : c ≤ 24 := by omega
    have hd : d ≤ 3 := by omega
    change Date.Valid ⟨cycleYear a b c d, _, _⟩ ∧ Date.dayNumber ⟨cycleYear a b c d, _, _⟩ = n
    have hdays := daysBeforeYear_cycle a b c d hb hc hd
    rw [← isLeap_cycle a b c d hb hc hd]
    obtain ⟨m1, m2, m3, m4, m5⟩ :=
      monthDay_spec (isLeap (cycleYear a b c d)) r (by omega)
    constructor
    · exact ⟨by simp [cycleYear], by simp only [cycleYear]; omega, m1, m2, m3, m4⟩
    · simp only [Date.dayNumber, hdays]
      omega

/-! ## Datetimes -/

def secondMicros : ℤ := 1000000
def minuteMicros : ℤ := 60 * secondMicros
def hourMicros : ℤ := 60 * minuteMicros
def dayMicros : ℤ := 24 * hourMicros
def maxWall : ℤ := maxDays * dayMicros

theorem neg_dayMicros_lt_zero : -dayMicros < 0 := by decide

theorem dayMicros_pos : 0 < dayMicros := by decide

theorem maxWall_pos : 0 < maxWall := by decide

structure DateTime where
  wall : ℤ
  offset : ℤ
  wall_nonneg : 0 ≤ wall
  wall_lt : wall < maxWall
  offset_gt : -dayMicros < offset
  offset_lt : offset < dayMicros
  deriving DecidableEq

/-- `timedelta(minutes=minutes)` in microseconds. -/
def timedeltaMinutes : PyFloat → Except PyErr ℤ
  | .nan => .error .valueError
  | .inf => .error .overflowError
  | .negInf => .error .overflowError
  | .finite q =>
    let span := roundHalfEven (q * minuteMicros)
    if -999999999 * dayMicros ≤ span ∧ span < 1000000000 * dayMicros then .ok span
    else .error .overflowError

namespace DateTime

/-- The moment in time, comparable across offsets. -/
def instant (d : DateTime) : ℤ := d.wall - d.offset

/-- `d - timedelta`. -/
def sub (d : DateTime) (delta : ℤ) : Except PyErr DateTime :=
  if h : 0 ≤ d.wall - delta ∧ d.wall - delta < maxWall then
    .ok { d with wall := d.wall - delta, wall_nonneg := h.1, wall_lt := h.2 }
  else .error .overflowError

def IsUtc (d : DateTime) : Prop := d.offset = 0

instance (d : DateTime) : Decidable d.IsUtc := inferInstanceAs (Decidable (d.offset = 0))

/-- `d.astimezone(timezone.utc)`. -/
def toUtc (d : DateTime) : Except PyErr DateTime :=
  if h : 0 ≤ d.instant ∧ d.instant < maxWall then
    .ok ⟨d.instant, 0, h.1, h.2, neg_dayMicros_lt_zero, dayMicros_pos⟩
  else .error .overflowError

/-- `(a - b).total_seconds()`. -/
def secondsSince (a b : DateTime) : ℚ := (a.instant - b.instant : ℤ) / 1000000

theorem instant_sub {d e : DateTime} {delta : ℤ} (h : d.sub delta = .ok e) :
    e.instant = d.instant - delta := by
  unfold sub at h
  split_ifs at h
  cases h
  simp only [instant]
  omega

theorem isUtc_sub {d e : DateTime} {delta : ℤ} (hd : d.IsUtc) (h : d.sub delta = .ok e) :
    e.IsUtc := by
  unfold sub at h
  split_ifs at h
  cases h
  exact hd

theorem toUtc_spec {d e : DateTime} (h : d.toUtc = .ok e) :
    e.instant = d.instant ∧ e.IsUtc := by
  unfold toUtc at h
  split_ifs at h
  cases h
  exact ⟨by simp [instant], rfl⟩

theorem toUtc_of_isUtc {d : DateTime} (h : d.IsUtc) : d.toUtc = .ok d := by
  obtain ⟨w, o, h1, h2, h3, h4⟩ := d
  cases h
  simp [toUtc, instant, h1, h2]

theorem instant_of_isUtc {d : DateTime} (h : d.IsUtc) : d.instant = d.wall := by
  rw [instant, h, sub_zero]

theorem exists_utc {wall : ℤ} (hnonneg : 0 ≤ wall) (hlt : wall < maxWall) :
    ∃ d : DateTime, d.IsUtc ∧ d.instant = wall :=
  ⟨⟨wall, 0, hnonneg, hlt, neg_dayMicros_lt_zero, dayMicros_pos⟩, rfl, sub_zero wall⟩

/-- The datetime in UTC is the one of the same instant: where the conversion stays within the
calendar, only the offset changes. -/
theorem toUtc_eq_ok {d u : DateTime} : d.toUtc = .ok u ↔ u.IsUtc ∧ u.instant = d.instant := by
  constructor
  · intro h
    exact (toUtc_spec h).symm
  · intro h
    obtain ⟨hutc, hinstant⟩ := h
    rw [instant_of_isUtc hutc] at hinstant
    obtain ⟨wall, offset, hnonneg, hlt, hgt, hoffset⟩ := u
    cases hutc
    subst hinstant
    exact dif_pos ⟨hnonneg, hlt⟩

end DateTime

/-! ## ISO 8601 text -/

/-- The last `w` decimal digits of `n`. -/
def digitsOf : ℕ → ℕ → List Char
  | 0, _ => []
  | w + 1, n => digitsOf w (n / 10) ++ [Char.ofNat (48 + n % 10)]

/-- The value of a run of ASCII digits. -/
def numberOf : List Char → Option ℕ
  | [] => some 0
  | cs => cs.foldl (fun acc c => do
      let n ← acc
      if c.isDigit then some (10 * n + (c.toNat - 48)) else none) (some 0)

theorem isDigit_digit (n : ℕ) : (Char.ofNat (48 + n % 10)).isDigit = true := by
  have h : n % 10 < 10 := Nat.mod_lt _ (by decide)
  interval_cases n % 10 <;> decide

theorem toNat_digit (n : ℕ) : (Char.ofNat (48 + n % 10)).toNat - 48 = n % 10 := by
  have h : n % 10 < 10 := Nat.mod_lt _ (by decide)
  interval_cases n % 10 <;> decide

theorem isDigit_of_mem_digitsOf {w n : ℕ} {c : Char} (h : c ∈ digitsOf w n) :
    c.isDigit = true := by
  induction w generalizing n with
  | zero => simp [digitsOf] at h
  | succ w ih =>
    rcases List.mem_append.mp h with h | h
    · exact ih h
    · rw [List.mem_singleton.mp h]; exact isDigit_digit n

@[simp] theorem length_digitsOf (w n : ℕ) : (digitsOf w n).length = w := by
  induction w generalizing n with
  | zero => rfl
  | succ w ih => simp [digitsOf, ih]

/-- Padded decimal text reads back as the number when it fits the width; the fields of a timestamp
always do. -/
theorem numberOf_digitsOf (w n : ℕ) (h : n < 10 ^ w) : numberOf (digitsOf w n) = some n := by
  have key : ∀ w n : ℕ, (digitsOf w n).foldl (fun acc c => do
      let n ← acc
      if c.isDigit then some (10 * n + (c.toNat - 48)) else none) (some 0) =
        some (n % 10 ^ w) := by
    intro w
    induction w with
    | zero => intro n; simp [digitsOf, Nat.mod_one]
    | succ w ih =>
      intro n
      rw [digitsOf, List.foldl_append, ih]
      simp only [List.foldl_cons, List.foldl_nil, Option.bind_eq_bind, Option.bind_some,
        isDigit_digit, if_true, toNat_digit]
      rw [pow_succ', Nat.mod_mul, Nat.add_comm]
  have hh := key w n
  rw [Nat.mod_eq_of_lt h] at hh
  cases w with
  | zero => rw [pow_zero, Nat.lt_one_iff] at h; rw [h]; rfl
  | succ w =>
    cases hd : digitsOf (w + 1) n with
    | nil => simpa [hd] using length_digitsOf (w + 1) n
    | cons c cs => rw [hd] at hh; exact hh

/-- The fields of a time of day. -/
structure Clock where
  hour : ℕ
  minute : ℕ
  second : ℕ
  micro : ℕ
  deriving DecidableEq, Repr

def Clock.Valid (c : Clock) : Prop :=
  c.hour < 24 ∧ c.minute < 60 ∧ c.second < 60 ∧ c.micro < 1000000

instance (c : Clock) : Decidable c.Valid := by unfold Clock.Valid; infer_instance

def Clock.micros (c : Clock) : ℤ :=
  c.hour * hourMicros + c.minute * minuteMicros + c.second * secondMicros + c.micro

/-- Split a nonnegative span below one day into clock fields. -/
def clockOf (span : ℤ) : Clock :=
  let t := span.toNat
  ⟨t / 3600000000, t / 60000000 % 60, t / 1000000 % 60, t % 1000000⟩

theorem clockOf_spec (span : ℤ) (h0 : 0 ≤ span) (h1 : span < dayMicros) :
    (clockOf span).Valid ∧ (clockOf span).micros = span := by
  simp only [Clock.Valid, Clock.micros, clockOf, dayMicros, hourMicros, minuteMicros,
    secondMicros] at *
  omega

namespace DateTime

def date (d : DateTime) : Date := dateOfDay (d.wall / dayMicros).toNat
def clock (d : DateTime) : Clock := clockOf (d.wall % dayMicros)

/-- `+HH:MM`, with seconds and microseconds where the offset has them. -/
def zoneText (offset : ℤ) : List Char :=
  let c := clockOf |offset|
  (if offset < 0 then '-' else '+') :: (digitsOf 2 c.hour ++ ':' :: digitsOf 2 c.minute ++
    (if c.second = 0 ∧ c.micro = 0 then []
     else ':' :: digitsOf 2 c.second ++
      (if c.micro = 0 then [] else '.' :: digitsOf 6 c.micro)))

def isoformatChars (d : DateTime) : List Char :=
  digitsOf 4 d.date.year ++ '-' :: digitsOf 2 d.date.month ++ '-' :: digitsOf 2 d.date.day ++
    'T' :: digitsOf 2 d.clock.hour ++ ':' :: digitsOf 2 d.clock.minute ++
    ':' :: digitsOf 2 d.clock.second ++
    (if d.clock.micro = 0 then [] else '.' :: digitsOf 6 d.clock.micro) ++ zoneText d.offset

/-- `d.isoformat()`. -/
def isoformat (d : DateTime) : String := String.ofList d.isoformatChars

/-- `datetime.fromisoformat` on a text whose fields have been split off. -/
def ofFields (date : Date) (clock : Clock) (offset : ℤ) : Except PyErr DateTime :=
  let wall := date.dayNumber * dayMicros + clock.micros
  if h : date.Valid ∧ clock.Valid ∧ 0 ≤ wall ∧ wall < maxWall ∧ -dayMicros < offset ∧
      offset < dayMicros then
    .ok ⟨wall, offset, h.2.2.1, h.2.2.2.1, h.2.2.2.2.1, h.2.2.2.2.2⟩
  else .error .valueError

theorem date_clock_spec (d : DateTime) :
    d.date.Valid ∧ d.clock.Valid ∧ d.date.dayNumber * dayMicros + d.clock.micros = d.wall := by
  have hnn := d.wall_nonneg
  have hlt := d.wall_lt
  have hday : (d.wall / dayMicros).toNat < maxDays := by
    simp only [maxWall, maxDays, dayMicros, hourMicros, minuteMicros, secondMicros] at *
    omega
  obtain ⟨hv, hn⟩ := dateOfDay_spec _ hday
  have hpos := dayMicros_pos
  obtain ⟨hc, hm⟩ := clockOf_spec (d.wall % dayMicros) (Int.emod_nonneg _ hpos.ne')
    (Int.emod_lt_of_pos _ hpos)
  refine ⟨hv, hc, ?_⟩
  have hq : ((d.wall / dayMicros).toNat : ℤ) = d.wall / dayMicros :=
    Int.toNat_of_nonneg (Int.ediv_nonneg hnn hpos.le)
  simp only [date, clock, hn, hm, hq]
  linarith [Int.ediv_mul_add_emod d.wall dayMicros]

/-- A datetime is determined by its fields, so that what is printed field by field reads back as
the same datetime. -/
theorem ofFields_self (d : DateTime) : ofFields d.date d.clock d.offset = .ok d := by
  obtain ⟨hv, hc, hw⟩ := d.date_clock_spec
  have h := And.intro hv (And.intro hc (And.intro (hw ▸ d.wall_nonneg)
    (And.intro (hw ▸ d.wall_lt) (And.intro d.offset_gt d.offset_lt))))
  rw [ofFields, dif_pos h]
  congr

end DateTime
end InferenceControlPlane.Python
