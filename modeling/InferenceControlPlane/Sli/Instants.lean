import InferenceControlPlane.Python.Decimals
import InferenceControlPlane.Sli.Models
import Mathlib.Algebra.BigOperators.Intervals
import Mathlib.Algebra.Order.BigOperators.Group.Finset

/-!
# The instants that timestamps denote

A timestamp is written as a calendar date, a time of day, a decimal fraction of a second
and a zone. What it denotes is counted out here on the calendar, apart from the parser:
the parser accepts a text exactly when it writes an instant that a datetime can hold, and
returns that instant rounded down to the microsecond.
-/
namespace InferenceControlPlane.Sli
open Python

/-! ## Days -/

def yearLength (year : ℕ) : ℕ := if isLeap year then 366 else 365

/-- Days from 0001-01-01, counted by years and months. -/
def daysSince (d : Date) : ℕ :=
  ∑ year ∈ Finset.Ico 1 d.year, yearLength year +
    ∑ month ∈ Finset.Ico 1 d.month, daysInMonth (isLeap d.year) month + (d.day - 1)

lemma isLeap_iff (year : ℕ) : isLeap year = true ↔ 4 ∣ year ∧ (¬ 100 ∣ year ∨ 400 ∣ year) := by
  simp [isLeap, Nat.dvd_iff_mod_eq_zero]

lemma daysBeforeYear_succ {year : ℕ} (h : 1 ≤ year) :
    daysBeforeYear (year + 1) = daysBeforeYear year + yearLength year := by
  obtain ⟨y, rfl⟩ : ∃ y, year = y + 1 := ⟨year - 1, by omega⟩
  have hcentury : 100 ∣ y + 1 → 4 ∣ y + 1 := (show 4 ∣ 100 by decide).trans
  have hcycle : 400 ∣ y + 1 → 100 ∣ y + 1 := (show 100 ∣ 400 by decide).trans
  have hle : y / 100 ≤ y := Nat.div_le_self y 100
  simp only [daysBeforeYear, yearLength, isLeap_iff, Nat.add_sub_cancel, Nat.succ_div]
  generalize y / 4 = a at *
  generalize y / 100 = b at *
  generalize y / 400 = c at *
  by_cases h4 : 4 ∣ y + 1
  · by_cases h100 : 100 ∣ y + 1
    · by_cases h400 : 400 ∣ y + 1
      · simp only [h4, h100, h400, if_true, not_true, or_true, and_true]
        omega
      · simp only [h4, h100, h400, if_true, if_false, not_true, or_false, and_false]
        omega
    · simp only [h4, h100, mt hcycle h100, if_true, if_false, not_false_iff, or_false, and_true]
      omega
  · simp only [h4, mt hcentury h4, mt hcycle (mt hcentury h4), if_false, false_and]
    omega

lemma daysBeforeYear_eq_sum {year : ℕ} (h : 1 ≤ year) :
    daysBeforeYear year = ∑ y ∈ Finset.Ico 1 year, yearLength y := by
  induction year, h using Nat.le_induction with
  | base => rfl
  | succ year h ih => rw [daysBeforeYear_succ h, ih, Finset.sum_Ico_succ_top h]

lemma daysBeforeMonth_eq_sum (leap : Bool) {month : ℕ} (h : 1 ≤ month) :
    daysBeforeMonth leap month = ∑ m ∈ Finset.Ico 1 month, daysInMonth leap m := by
  induction month, h using Nat.le_induction with
  | base => cases leap <;> rfl
  | succ month h ih =>
    rw [Finset.sum_Ico_succ_top h, ← ih, daysBeforeMonth, List.range_succ, List.map_append,
      List.sum_append]
    simp [daysBeforeMonth]

/-- The closed formula of the standard library counts the days, one year and one month after the
other. -/
theorem dayNumber_eq_daysSince {d : Date} (h : d.Valid) : d.dayNumber = daysSince d := by
  obtain ⟨hyear, -, hmonth, -, hday, -⟩ := h
  rw [Date.dayNumber, daysSince, daysBeforeYear_eq_sum hyear, daysBeforeMonth_eq_sum _ hmonth]
  omega

/-- Every date is among the days of the years 1 to 9999. -/
lemma dayNumber_lt {d : Date} (h : d.Valid) : d.dayNumber < maxDays := by
  obtain ⟨hyear, hlast, hmonth, hmonth', hday, hday'⟩ := h
  have hin : daysBeforeMonth (isLeap d.year) d.month + d.day ≤ yearLength d.year := by
    rw [yearLength]
    generalize isLeap d.year = leap at *
    generalize d.month = month at *
    have hend : daysBeforeMonth leap month + daysInMonth leap month ≤
        if leap = true then 366 else 365 := by
      interval_cases month <;> cases leap <;> decide
    omega
  have hnext : daysBeforeYear (d.year + 1) ≤ daysBeforeYear 10000 := by
    rw [daysBeforeYear_eq_sum (by omega), daysBeforeYear_eq_sum (by omega)]
    apply Finset.sum_le_sum_of_subset
    exact Finset.Ico_subset_Ico_right (by omega)
  have hall : daysBeforeYear 10000 = maxDays := rfl
  rw [daysBeforeYear_succ hyear] at hnext
  rw [Date.dayNumber]
  omega

/-! ## Written timestamps -/

section Written
variable [Runtime]

/-- A row of `n` digits. -/
def IsDigits (n : ℕ) (cs : List Char) : Prop :=
  cs.length = n ∧ ∀ c ∈ cs, Runtime.isDecimal c = true

namespace Zone

def text : Zone → List Char
  | utc => ['Z']
  | offset negative hours minutes => (if negative then '-' else '+') :: (hours ++ ':' :: minutes)

def WellFormed : Zone → Prop
  | utc => True
  | offset _ hours minutes => IsDigits 2 hours ∧ IsDigits 2 minutes

end Zone

namespace Rfc3339

def fractionText (m : Rfc3339) : List Char := m.fraction.elim [] ('.' :: ·)

/-- The timestamp as it is written. -/
def text (m : Rfc3339) : List Char :=
  m.year ++ '-' :: (m.month ++ '-' :: (m.day ++ 'T' :: (m.hour ++ ':' :: (m.minute ++
    ':' :: (m.second ++ (m.fractionText ++ m.zone.text))))))

/-- Rows of digits of the lengths that the format asks for. Any decimal digits of Unicode are
digits here, as they are for the regular expression. -/
structure WellFormed (m : Rfc3339) : Prop where
  year : IsDigits 4 m.year
  month : IsDigits 2 m.month
  day : IsDigits 2 m.day
  hour : IsDigits 2 m.hour
  minute : IsDigits 2 m.minute
  second : IsDigits 2 m.second
  fraction : ∀ digits, m.fraction = some digits →
    ∃ n, 1 ≤ n ∧ n ≤ 9 ∧ IsDigits n digits
  zone : m.zone.WellFormed

end Rfc3339

/-! ## The matcher -/

lemma decimals_eq_some {n : ℕ} {cs ds rest : List Char} :
    decimals n cs = some (ds, rest) ↔ IsDigits n ds ∧ cs = ds ++ rest := by
  rw [decimals, Option.ite_none_right_eq_some, Option.some.injEq, Prod.mk.injEq]
  constructor
  · rintro ⟨⟨hlength, hdigits⟩, rfl, rfl⟩
    exact ⟨⟨List.length_take_of_le hlength, List.all_eq_true.mp hdigits⟩,
      (List.take_append_drop n cs).symm⟩
  · rintro ⟨⟨rfl, hdigits⟩, rfl⟩
    simp [List.all_eq_true.mpr hdigits]

omit [Runtime] in
lemma literal_eq_some {c : Char} {cs rest : List Char} :
    literal c cs = some rest ↔ cs = c :: rest := by
  cases cs with
  | nil => simp [literal]
  | cons a as => simp [literal]

lemma matchZone_eq_some {cs : List Char} {zone : Zone} :
    matchZone cs = some zone ↔ zone.WellFormed ∧ cs = zone.text := by
  cases cs with
  | nil =>
    refine iff_of_false (by simp [matchZone]) fun h => ?_
    cases zone with
    | utc => cases h.2
    | offset negative hours minutes => cases h.2
  | cons c cs =>
    rw [matchZone]
    by_cases hz : c = 'Z'
    · subst hz
      rw [if_pos rfl, Option.ite_none_right_eq_some, Option.some.injEq]
      cases zone with
      | utc => simp [Zone.WellFormed, Zone.text]
      | offset negative hours minutes => cases negative <;> simp [Zone.text]
    by_cases hsign : c = '+' ∨ c = '-'
    · rw [if_neg hz, if_pos hsign]
      simp only [Option.bind_eq_bind, Option.bind_eq_some_iff, Prod.exists, decimals_eq_some,
        literal_eq_some, Option.ite_none_right_eq_some, Option.some.injEq]
      constructor
      · rintro ⟨hours, cs, ⟨hhours, rfl⟩, cs, rfl, minutes, cs, ⟨hminutes, rfl⟩, rfl, rfl⟩
        refine ⟨⟨hhours, hminutes⟩, ?_⟩
        rcases hsign with rfl | rfl <;> simp [Zone.text]
      · rintro ⟨hzone, htext⟩
        cases zone with
        | utc => simp [Zone.text, hz] at htext
        | offset negative hours minutes =>
          obtain ⟨rfl, rfl⟩ := List.cons.inj htext
          refine ⟨hours, _, ⟨hzone.1, rfl⟩, minutes, rfl, minutes, [], ⟨hzone.2, ?_⟩, rfl, ?_⟩
          · rw [List.append_nil]
          · cases negative <;> rfl
    · rw [if_neg hz, if_neg hsign]
      refine iff_of_false (by simp) ?_
      rintro ⟨-, htext⟩
      cases zone with
      | utc => simp [Zone.text, hz] at htext
      | offset negative hours minutes =>
        refine hsign ?_
        rw [(List.cons.inj htext).1]
        cases negative <;> simp

/-- No zone starts as a fraction does or with another digit. -/
lemma Zone.text_head (zone : Zone) :
    ∃ c rest, zone.text = c :: rest ∧ c ≠ '.' ∧ Runtime.isDecimal c = false := by
  cases zone with
  | utc => exact ⟨'Z', [], rfl, by decide, Runtime.isDecimal_ascii _ (by decide)⟩
  | offset negative hours minutes =>
    refine ⟨_, _, rfl, ?_, ?_⟩
    · cases negative <;> decide
    · cases negative <;> exact Runtime.isDecimal_ascii _ (by decide)

/-- The optional fraction and the zone, up to the end of the text. -/
lemma matchFraction_eq_some {cs : List Char} {fraction : Option (List Char)} {zone : Zone} :
    (∃ rest, matchFraction cs = some (fraction, rest) ∧ matchZone rest = some zone) ↔
      (∀ digits, fraction = some digits → ∃ n, 1 ≤ n ∧ n ≤ 9 ∧ IsDigits n digits) ∧
        zone.WellFormed ∧ cs = fraction.elim [] ('.' :: ·) ++ zone.text := by
  obtain ⟨c, tail, hzone, hdot, hdecimal⟩ := zone.text_head
  simp only [matchZone_eq_some]
  constructor
  · rintro ⟨rest, hmatch, hwf, rfl⟩
    rw [matchFraction] at hmatch
    cases hliteral : literal '.' cs with
    | none =>
      rw [hliteral] at hmatch
      cases hmatch
      exact ⟨by simp, hwf, rfl⟩
    | some after =>
      obtain rfl := literal_eq_some.mp hliteral
      rw [hliteral] at hmatch
      simp only [Option.ite_none_right_eq_some, Option.some.injEq, Prod.mk.injEq] at hmatch
      obtain ⟨hlength, rfl, hrest⟩ := hmatch
      refine ⟨?_, hwf, ?_⟩
      · rintro digits ⟨⟩
        exact ⟨_, hlength.1, hlength.2, rfl, List.all_eq_true.mp List.all_takeWhile⟩
      · rw [← hrest, Option.elim_some, List.cons_append]
        congr
        exact (List.prefix_iff_eq_append.mp (List.takeWhile_prefix _)).symm
  · rintro ⟨hfraction, hwf, rfl⟩
    refine ⟨zone.text, ?_, hwf, rfl⟩
    cases fraction with
    | none =>
      have hliteral : literal '.' (c :: tail) = none := if_neg hdot
      rw [Option.elim_none, List.nil_append, hzone, matchFraction, hliteral]
    | some digits =>
      obtain ⟨n, h1, h9, rfl, hdigits⟩ := hfraction digits rfl
      have htake : (digits ++ zone.text).takeWhile Runtime.isDecimal = digits := by
        rw [hzone, List.takeWhile_append_of_pos hdigits,
          List.takeWhile_cons_of_neg (by simp [hdecimal]), List.append_nil]
      rw [Option.elim_some, List.cons_append, matchFraction, literal_self]
      simp only [htake, List.drop_left]
      rw [if_pos ⟨h1, h9⟩]

/-- The expression matches what the format writes, and its groups are the written rows. -/
theorem matchRfc3339_eq_some {cs : List Char} {m : Rfc3339} :
    matchRfc3339 cs = some m ↔ m.WellFormed ∧ cs = m.text := by
  simp only [matchRfc3339, Option.bind_eq_bind, Option.bind_eq_some_iff, Prod.exists,
    decimals_eq_some, literal_eq_some, Option.pure_def, Option.some.injEq]
  constructor
  · rintro ⟨year, _, ⟨hyear, rfl⟩, _, rfl, month, _, ⟨hmonth, rfl⟩, _, rfl, day, _, ⟨hday, rfl⟩, _,
      rfl, hour, _, ⟨hhour, rfl⟩, _, rfl, minute, _, ⟨hminute, rfl⟩, _, rfl, second, _,
      ⟨hsecond, rfl⟩, fraction, rest, hrest, zone, hzone, rfl⟩
    obtain ⟨hfraction, hwf, rfl⟩ := matchFraction_eq_some.mp ⟨rest, hrest, hzone⟩
    exact ⟨⟨hyear, hmonth, hday, hhour, hminute, hsecond, hfraction, hwf⟩, rfl⟩
  · rintro ⟨h, rfl⟩
    obtain ⟨rest, hrest, hzone⟩ := matchFraction_eq_some.mpr ⟨h.fraction, h.zone, rfl⟩
    exact ⟨m.year, _, ⟨h.year, rfl⟩, _, rfl, m.month, _, ⟨h.month, rfl⟩, _, rfl, m.day, _,
      ⟨h.day, rfl⟩, _, rfl, m.hour, _, ⟨h.hour, rfl⟩, _, rfl, m.minute, _, ⟨h.minute, rfl⟩, _, rfl,
      m.second, _, ⟨h.second, rfl⟩, m.fraction, rest, hrest, m.zone, hzone, rfl⟩

/-! ## Moments -/

/-- The values of the decimal characters, below ten and as usual in ASCII: what the parser assumes
of `int` on single digits. -/
structure DigitValues where
  value : Char → ℕ
  value_lt : ∀ c, Runtime.isDecimal c = true → value c < 10
  value_ascii : ∀ c, c.isDigit = true → value c = asciiValue c

omit [Runtime] in
lemma ite_asciiValue_lt (c : Char) : (if c.isDigit then asciiValue c else 0) < 10 := by
  split_ifs with h
  · exact asciiValue_lt h
  · exact Nat.zero_lt_succ 9

/-- Every interpreter has values for its digits. -/
def DigitValues.ofAscii : DigitValues where
  value c := if c.isDigit then asciiValue c else 0
  value_lt c _ := ite_asciiValue_lt c
  value_ascii _ h := if_pos h

variable (digits : DigitValues)

def Zone.seconds : Zone → ℤ
  | utc => 0
  | offset negative hours minutes =>
    let span : ℤ := numeral digits.value hours * 3600 + numeral digits.value minutes * 60
    if negative then -span else span

namespace Rfc3339

def date (m : Rfc3339) : Date :=
  ⟨numeral digits.value m.year, numeral digits.value m.month, numeral digits.value m.day⟩

/-- Seconds from 0001-01-01T00:00:00Z to the written instant. -/
def moment (m : Rfc3339) : ℚ :=
  daysSince (m.date digits) * 86400 + numeral digits.value m.hour * 3600 +
    numeral digits.value m.minute * 60 + numeral digits.value m.second +
    Python.fraction digits.value (m.fraction.getD []) - m.zone.seconds digits

end Rfc3339

/-- The text, without the blanks around it, writes the instant. -/
def Writes (text : String) (moment : ℚ) : Prop :=
  ∃ m : Rfc3339, m.WellFormed ∧ stripChars text.toList = m.text ∧ moment = m.moment digits

/-- A text denotes one instant at most, so that it makes sense to ask whether a parser finds
it. -/
theorem Writes.unique {text : String} {s e : ℚ} (hs : Writes digits text s)
    (he : Writes digits text e) : s = e := by
  obtain ⟨m, hm, htext, rfl⟩ := hs
  obtain ⟨m', hm', htext', rfl⟩ := he
  have hmatch := matchRfc3339_eq_some.mpr ⟨hm, htext⟩
  rw [matchRfc3339_eq_some.mpr ⟨hm', htext'⟩] at hmatch
  rw [Option.some.inj hmatch]

/-! ## The fields that are read -/

/-- The digits of the zone. -/
def Zone.readDigits : Zone → List Char
  | utc => []
  | offset _ hours minutes => hours ++ minutes

namespace Rfc3339

/-- The time of day, cut after six digits of the fraction. -/
def clock (m : Rfc3339) : Clock :=
  ⟨numeral digits.value m.hour, numeral digits.value m.minute, numeral digits.value m.second,
    numeral digits.value ((m.fraction.getD [] ++ List.replicate 6 '0').take 6)⟩

/-- The digits that reach `fromisoformat`. -/
def readDigits (m : Rfc3339) : List Char :=
  m.year ++ (m.month ++ (m.day ++ (m.hour ++ (m.minute ++ (m.second ++
    ((m.fraction.getD []).take 6 ++ m.zone.readDigits))))))

end Rfc3339

lemma numberOf_eq_numeral {cs : List Char} {n : ℕ} :
    numberOf cs = some n ↔ (∀ c ∈ cs, c.isDigit = true) ∧ n = numeral digits.value cs := by
  rw [numberOf_eq_some]
  refine and_congr_right fun hdigits => ?_
  rw [numeral_congr fun c hc => digits.value_ascii c (hdigits c hc)]

omit [Runtime] in
lemma isDigit_padded (cs : List Char) :
    (∀ c ∈ (cs ++ List.replicate 6 '0').take 6, c.isDigit = true) ↔
      ∀ c ∈ cs.take 6, c.isDigit = true := by
  rw [List.take_append, List.forall_mem_append, and_iff_left]
  intro c hc
  rw [List.eq_of_mem_replicate (List.mem_of_mem_take hc)]
  rfl

lemma fractionMicros_eq_some {written : Option (List Char)} {n : ℕ} :
    fractionMicros written = some n ↔
      (∀ c ∈ (written.getD []).take 6, c.isDigit = true) ∧
        n = numeral digits.value ((written.getD [] ++ List.replicate 6 '0').take 6) := by
  cases written with
  | none =>
    rw [← isDigit_padded, ← numberOf_eq_numeral digits]
    rfl
  | some cs =>
    rw [← isDigit_padded, ← numberOf_eq_numeral digits]
    rfl

lemma micros_eq_some {zone : Zone} {offset : ℤ} :
    zone.micros = some offset ↔ (∀ c ∈ zone.readDigits, c.isDigit = true) ∧
      offset = zone.seconds digits * secondMicros := by
  cases zone with
  | utc =>
    rw [Zone.micros, Zone.seconds, Option.some.injEq, zero_mul, eq_comm]
    simp [Zone.readDigits]
  | offset negative hours minutes =>
    simp only [Zone.micros, Zone.readDigits, Zone.seconds, Option.bind_eq_bind,
      Option.bind_eq_some_iff, numberOf_eq_numeral digits, Option.pure_def,
      Option.some.injEq, List.forall_mem_append]
    constructor
    · rintro ⟨_, ⟨hhours, rfl⟩, _, ⟨hminutes, rfl⟩, rfl⟩
      refine ⟨⟨hhours, hminutes⟩, ?_⟩
      simp only [hourMicros, minuteMicros]
      split_ifs <;> ring
    · rintro ⟨⟨hhours, hminutes⟩, rfl⟩
      refine ⟨_, ⟨hhours, rfl⟩, _, ⟨hminutes, rfl⟩, ?_⟩
      simp only [hourMicros, minuteMicros]
      split_ifs <;> ring

/-- The fields are read from ASCII digits, and are those that the text writes. -/
lemma fields_eq_some {m : Rfc3339} {date : Date} {clock : Clock} {offset : ℤ} :
    m.fields = some (date, clock, offset) ↔ (∀ c ∈ m.readDigits, c.isDigit = true) ∧
      date = m.date digits ∧ clock = m.clock digits ∧
        offset = m.zone.seconds digits * secondMicros := by
  simp only [Rfc3339.fields, Rfc3339.readDigits, Option.bind_eq_bind, Option.bind_eq_some_iff,
    numberOf_eq_numeral digits, fractionMicros_eq_some digits,
    micros_eq_some digits, Option.pure_def, Option.some.injEq, Prod.mk.injEq,
    List.forall_mem_append]
  constructor
  · rintro ⟨_, ⟨hyear, rfl⟩, _, ⟨hmonth, rfl⟩, _, ⟨hday, rfl⟩, _, ⟨hhour, rfl⟩, _,
    ⟨hminute, rfl⟩, _, ⟨hsecond, rfl⟩, _, ⟨hmicro, rfl⟩, _, ⟨hzone, rfl⟩, rfl, rfl, rfl⟩
    exact ⟨⟨hyear, hmonth, hday, hhour, hminute, hsecond, hmicro, hzone⟩, rfl, rfl, rfl⟩
  · rintro ⟨⟨hyear, hmonth, hday, hhour, hminute, hsecond, hmicro, hzone⟩, rfl, rfl, rfl⟩
    exact ⟨_, ⟨hyear, rfl⟩, _, ⟨hmonth, rfl⟩, _, ⟨hday, rfl⟩, _, ⟨hhour, rfl⟩, _, ⟨hminute, rfl⟩, _,
      ⟨hsecond, rfl⟩, _, ⟨hmicro, rfl⟩, _, ⟨hzone, rfl⟩, rfl, rfl, rfl⟩

lemma value_fraction_lt {m : Rfc3339} (hm : m.WellFormed) :
    ∀ c ∈ m.fraction.getD [], digits.value c < 10 := by
  cases hwritten : m.fraction with
  | none => simp
  | some cs =>
    obtain ⟨n, -, -, -, hdigits⟩ := hm.fraction cs hwritten
    exact fun c hc => digits.value_lt c (hdigits c hc)

/-- Rounding the written instant down to the microsecond cuts its fraction after the sixth digit,
as the parser does. -/
theorem floor_moment {m : Rfc3339} (hm : m.WellFormed) (hdate : (m.date digits).Valid) :
    ⌊m.moment digits * 1000000⌋ = (m.date digits).dayNumber * dayMicros +
      (m.clock digits).micros - m.zone.seconds digits * secondMicros := by
  have hzero : digits.value '0' = 0 := digits.value_ascii '0' rfl
  have hcut := floor_fraction (value_fraction_lt digits hm) hzero 6
  have hsplit : m.moment digits * 1000000 =
      (((daysSince (m.date digits) * 86400 + numeral digits.value m.hour * 3600 +
        numeral digits.value m.minute * 60 + numeral digits.value m.second -
          m.zone.seconds digits) * 1000000 : ℤ) : ℚ) +
        Python.fraction digits.value (m.fraction.getD []) * 10 ^ 6 := by
    rw [Rfc3339.moment]
    push_cast
    ring
  rw [hsplit, Int.floor_intCast_add, hcut, dayNumber_eq_daysSince hdate]
  simp only [Clock.micros, Rfc3339.clock, dayMicros, hourMicros, minuteMicros, secondMicros]
  ring

/-- The groups are in ASCII as far as they are read, and stand for an instant that a datetime can
hold: a valid date, a time of day, and an offset of less than a day. -/
structure Rfc3339.Representable (digits : DigitValues) (m : Rfc3339) : Prop where
  ascii : ∀ c ∈ m.readDigits, c.isDigit = true
  date : (m.date digits).Valid
  hour : numeral digits.value m.hour < 24
  minute : numeral digits.value m.minute < 60
  second : numeral digits.value m.second < 60
  offset : |m.zone.seconds digits| < 86400
  nonneg : 0 ≤ m.moment digits
  lt : m.moment digits < maxDays * 86400

lemma clock_valid {m : Rfc3339} (hm : m.WellFormed) (h : m.Representable digits) :
    (m.clock digits).Valid := by
  refine ⟨h.hour, h.minute, h.second, ?_⟩
  have hlt : ∀ c ∈ (m.fraction.getD [] ++ List.replicate 6 '0').take 6, digits.value c < 10 := by
    intro c hc
    rcases List.mem_append.mp (List.mem_of_mem_take hc) with hc | hc
    · exact value_fraction_lt digits hm c hc
    · rw [List.eq_of_mem_replicate hc, digits.value_ascii '0' rfl]
      decide
  have hmicro := numeral_lt hlt
  rw [List.length_take_of_le (by simp)] at hmicro
  exact hmicro

omit [Runtime] in
lemma ofFields_ok {date : Date} {clock : Clock} {offset : ℤ} {d : DateTime}
    (h : DateTime.ofFields date clock offset = .ok d) :
    date.Valid ∧ clock.Valid ∧ |offset| < dayMicros ∧
      d.wall = date.dayNumber * dayMicros + clock.micros ∧ d.offset = offset := by
  rw [DateTime.ofFields] at h
  split at h
  · next hfields =>
    cases h
    exact ⟨hfields.1, hfields.2.1, abs_lt.mpr hfields.2.2.2.2, rfl, rfl⟩
  · cases h

omit [Runtime] in
/-- No valid field is out of range in a datetime. -/
lemma exists_ofFields {date : Date} {clock : Clock} {offset : ℤ} (hdate : date.Valid)
    (hclock : clock.Valid) (hoffset : |offset| < dayMicros) :
    ∃ d, DateTime.ofFields date clock offset = .ok d := by
  have hday := dayNumber_lt hdate
  obtain ⟨hhour, hminute, hsecond, hmicro⟩ := hclock
  have hwall : 0 ≤ date.dayNumber * dayMicros + clock.micros ∧
      date.dayNumber * dayMicros + clock.micros < maxWall := by
    simp only [maxWall, Clock.micros, dayMicros, hourMicros, minuteMicros, secondMicros]
    omega
  exact ⟨_, dif_pos ⟨hdate, ⟨hhour, hminute, hsecond, hmicro⟩, hwall.1, hwall.2,
    abs_lt.mp hoffset⟩⟩

omit [Runtime] in
lemma cast_maxWall : ((maxWall : ℤ) : ℚ) = maxDays * 86400 * 1000000 := by
  simp only [maxWall, dayMicros, hourMicros, minuteMicros, secondMicros]
  push_cast
  ring

lemma floor_in_range {m : Rfc3339} (h : m.Representable digits) :
    0 ≤ ⌊m.moment digits * 1000000⌋ ∧ ⌊m.moment digits * 1000000⌋ < maxWall := by
  have hnonneg := h.nonneg
  have hlt := h.lt
  rw [Int.floor_nonneg, Int.floor_lt, cast_maxWall]
  constructor
  · linarith
  · linarith

/-- What the two conversions of a matched text come to: a datetime within the calendar, at the
written instant. -/
theorem toUtc_toDateTime_iff {m : Rfc3339} (hm : m.WellFormed) {d : DateTime} :
    (m.toDateTime >>= DateTime.toUtc) = .ok d ↔
      m.Representable digits ∧ d.IsUtc ∧ d.instant = ⌊m.moment digits * 1000000⌋ := by
  constructor
  · intro h
    obtain ⟨written, hwritten, hutc⟩ := bind_eq_ok h
    rw [Rfc3339.toDateTime] at hwritten
    cases hfields : m.fields with
    | none =>
      rw [hfields] at hwritten
      cases hwritten
    | some fields =>
      obtain ⟨date, clock, offset⟩ := fields
      rw [hfields] at hwritten
      obtain ⟨hascii, rfl, rfl, rfl⟩ := (fields_eq_some digits).mp hfields
      obtain ⟨hdate, hclock, hoffset, hwall, hzone⟩ := ofFields_ok hwritten
      obtain ⟨hd, hinstant⟩ := DateTime.toUtc_eq_ok.mp hutc
      have hfloor : d.instant = ⌊m.moment digits * 1000000⌋ := by
        rw [floor_moment digits hm hdate, hinstant, DateTime.instant, hwall, hzone]
      have hnonneg := d.wall_nonneg
      have hlt := d.wall_lt
      rw [← DateTime.instant_of_isUtc hd, hfloor] at hnonneg hlt
      refine ⟨⟨hascii, hdate, hclock.1, hclock.2.1, hclock.2.2.1, ?_, ?_, ?_⟩, hd, hfloor⟩
      · simp only [abs_lt, dayMicros, hourMicros, minuteMicros, secondMicros] at hoffset ⊢
        omega
      · have h0 := Int.floor_nonneg.mp hnonneg
        linarith
      · have h1 := Int.floor_lt.mp hlt
        rw [cast_maxWall] at h1
        linarith
  · rintro ⟨h, hd, hinstant⟩
    have hfields := (fields_eq_some digits).mpr ⟨h.ascii, rfl, rfl, rfl⟩
    have hoffset : |m.zone.seconds digits * secondMicros| < dayMicros := by
      have hsmall := h.offset
      simp only [abs_lt, dayMicros, hourMicros, minuteMicros, secondMicros] at hsmall ⊢
      omega
    obtain ⟨written, hwritten⟩ := exists_ofFields h.date (clock_valid digits hm h) hoffset
    obtain ⟨-, -, -, hwall, hzone⟩ := ofFields_ok hwritten
    have hread : m.toDateTime = .ok written := by
      rw [Rfc3339.toDateTime, hfields]
      exact hwritten
    rw [hread]
    refine DateTime.toUtc_eq_ok.mpr ⟨hd, ?_⟩
    rw [hinstant, floor_moment digits hm h.date, DateTime.instant, hwall, hzone]

/-! ## Accepted texts -/

omit [Runtime] in
lemma Json.truthy_str (text : String) : (Json.str text).truthy = false ↔ text = "" := by
  simp [Json.truthy]

/-- Only texts are read as timestamps. -/
lemma parseTs_str {value : Json} {d : DateTime} (h : parseTs value = .ok (some d)) :
    ∃ text, value = .str text := by
  unfold parseTs at h
  split_ifs at h
  · cases h
  · cases value with
    | str text => exact ⟨text, rfl⟩
    | _ => cases h

lemma parseTs_eq_none {text : String} : parseTs (.str text) = .ok none ↔ text = "" := by
  unfold parseTs
  by_cases hempty : text = ""
  · rw [if_pos ((Json.truthy_str text).mpr hempty)]
    exact iff_of_true rfl hempty
  · rw [if_neg (mt (Json.truthy_str text).mp hempty)]
    refine iff_of_false (fun h => ?_) hempty
    cases hmatch : matchRfc3339 (stripChars text.toList) with
    | none =>
      simp only [hmatch] at h
      cases h
    | some m =>
      simp only [hmatch] at h
      obtain ⟨written, -, h⟩ := bind_eq_ok h
      obtain ⟨u, -, h⟩ := bind_eq_ok h
      cases h

/-- The accepted texts are those that write an instant that a datetime can hold. -/
theorem parseTs_eq_some {text : String} {d : DateTime} :
    parseTs (.str text) = .ok (some d) ↔ ∃ m : Rfc3339, m.WellFormed ∧
      stripChars text.toList = m.text ∧ m.Representable digits ∧ d.IsUtc ∧
        d.instant = ⌊m.moment digits * 1000000⌋ := by
  unfold parseTs
  by_cases hempty : text = ""
  · rw [if_pos ((Json.truthy_str text).mpr hempty)]
    refine iff_of_false (by rintro ⟨⟩) ?_
    rintro ⟨m, hm, htext, -⟩
    have hlength := congrArg List.length htext
    simp [hempty, stripChars, Rfc3339.text] at hlength
  · rw [if_neg (mt (Json.truthy_str text).mp hempty)]
    cases hmatch : matchRfc3339 (stripChars text.toList) with
    | none =>
      simp only [hmatch]
      refine iff_of_false (by rintro ⟨⟩) ?_
      rintro ⟨m, hm, htext, -⟩
      rw [matchRfc3339_eq_some.mpr ⟨hm, htext⟩] at hmatch
      cases hmatch
    | some m =>
      obtain ⟨hm, htext⟩ := matchRfc3339_eq_some.mp hmatch
      have hread : (do
          let written ← m.toDateTime
          return some (← written.toUtc) : Except PyErr (Option DateTime)) =
            (m.toDateTime >>= DateTime.toUtc).map some := by
        cases m.toDateTime with
        | error e => rfl
        | ok written =>
          change (written.toUtc >>= fun u => pure (some u)) = written.toUtc.map some
          cases written.toUtc <;> rfl
      simp only [hmatch]
      rw [hread]
      constructor
      · intro h
        cases hd : m.toDateTime >>= DateTime.toUtc with
        | error e =>
          rw [hd] at h
          cases h
        | ok u =>
          rw [hd] at h
          cases h
          exact ⟨m, hm, htext, (toUtc_toDateTime_iff digits hm).mp hd⟩
      · rintro ⟨m', hm', htext', h⟩
        have hsame := matchRfc3339_eq_some.mpr ⟨hm', htext'⟩
        rw [hmatch, Option.some.injEq] at hsame
        subst hsame
        rw [(toUtc_toDateTime_iff digits hm).mpr h]
        rfl

/-- An accepted text denotes an instant, and the result is its floor. -/
lemma writes_of_parseTs {text : String} {d : DateTime} (h : parseTs (.str text) = .ok (some d)) :
    ∃ moment, Writes digits text moment ∧ d.instant = ⌊moment * 1000000⌋ := by
  obtain ⟨m, hm, htext, -, -, hinstant⟩ := (parseTs_eq_some digits).mp h
  exact ⟨m.moment digits, ⟨m, hm, htext, rfl⟩, hinstant⟩

lemma floor_of_writes {text : String} {d : DateTime} {moment : ℚ}
    (h : parseTs (.str text) = .ok (some d)) (hmoment : Writes digits text moment) :
    d.instant = ⌊moment * 1000000⌋ := by
  obtain ⟨moment', hmoment', hinstant⟩ := writes_of_parseTs digits h
  rw [hmoment.unique digits hmoment', hinstant]

lemma parseBound_ne_endBeforeStart (value : Json) :
    parseBound value ≠ .error (.malformed .endBeforeStart) := by
  rw [parseBound]
  cases parseTs value with
  | ok d => rintro ⟨⟩
  | error e => cases e <;> rintro ⟨⟩

/-- A rejection for its order says that both bounds were read, and out of order. -/
lemma endBeforeStart_iff {raw : Json} :
    parseObservation raw = .error (.malformed .endBeforeStart) ↔
      ∃ fields start stop, raw = .obj fields ∧
        parseTs (field fields "startTime") = .ok (some start) ∧
          parseTs (field fields "endTime") = .ok (some stop) ∧ stop.instant < start.instant := by
  constructor
  · intro h
    cases raw with
    | obj fields =>
      by_cases hbounds : ∃ start stop, parseTs (field fields "startTime") = .ok (some start) ∧
          parseTs (field fields "endTime") = .ok (some stop)
      · obtain ⟨start, stop, hstart, hstop⟩ := hbounds
        rw [parseObservation_bounded hstart hstop] at h
        split_ifs at h with horder
        · exact ⟨fields, start, stop, rfl, hstart, hstop, horder⟩
        · generalize parseFields fields start stop _ _ _ = parsed at h
          cases parsed <;> cases h
      · rw [parseObservation_unbounded fun start stop hstart hstop =>
          hbounds ⟨start, stop, hstart, hstop⟩] at h
        rcases bind_eq_error h with hstart | ⟨_, -, h⟩
        · exact absurd hstart (parseBound_ne_endBeforeStart _)
        · rcases bind_eq_error h with hstop | ⟨_, -, h⟩
          · exact absurd hstop (parseBound_ne_endBeforeStart _)
          · cases h
    | _ => cases h
  · rintro ⟨fields, start, stop, rfl, hstart, hstop, horder⟩
    rw [parseObservation_bounded hstart hstop, dif_pos horder]

end Written

/-- Timestamps are decoded faithfully. Only the empty text reads as no timestamp, and a text
is accepted exactly when it writes an instant that a datetime can hold. The result is in
UTC, and is the one instant that the text denotes, rounded down to the microsecond; so
order is kept, and a record is rejected for its order only when its end is denoted before
its start. A printed datetime in UTC is read back. -/
theorem timestamps_decoded [Runtime] (digits : DigitValues) :
    (∀ text, parseTs (.str text) = .ok none ↔ text = "") ∧
    (∀ text, (∃ d, parseTs (.str text) = .ok (some d)) ↔ ∃ m : Rfc3339, m.WellFormed ∧
      stripChars text.toList = m.text ∧ m.Representable digits) ∧
    (∀ text d, parseTs (.str text) = .ok (some d) → d.IsUtc ∧
      (∃! moment, Writes digits text moment) ∧
        ∀ moment, Writes digits text moment → d.instant = ⌊moment * 1000000⌋) ∧
    (∀ text text' d d' s e, parseTs (.str text) = .ok (some d) →
      parseTs (.str text') = .ok (some d') → Writes digits text s → Writes digits text' e →
        s ≤ e → d.instant ≤ d'.instant) ∧
    (∀ raw, parseObservation raw = .error (.malformed .endBeforeStart) →
      ∃ fields text text' s e, raw = .obj fields ∧ field fields "startTime" = .str text ∧
        field fields "endTime" = .str text' ∧ Writes digits text s ∧ Writes digits text' e ∧
          e < s) ∧
    ∀ d : DateTime, d.IsUtc → parseTs (.str d.isoformat) = .ok (some d) := by
  refine ⟨fun text => parseTs_eq_none, ?_, ?_, ?_, ?_, fun d hd => parseTs_isoformat_utc hd⟩
  · intro text
    constructor
    · rintro ⟨d, hd⟩
      obtain ⟨m, hm, htext, hrep, -⟩ := (parseTs_eq_some digits).mp hd
      exact ⟨m, hm, htext, hrep⟩
    · rintro ⟨m, hm, htext, hrep⟩
      have hrange := floor_in_range digits hrep
      obtain ⟨d, hd, hinstant⟩ := DateTime.exists_utc hrange.1 hrange.2
      exact ⟨d, (parseTs_eq_some digits).mpr ⟨m, hm, htext, hrep, hd, hinstant⟩⟩
  · intro text d h
    obtain ⟨moment, hmoment, -⟩ := writes_of_parseTs digits h
    exact ⟨parseTs_utc h, ⟨moment, hmoment, fun other hother => hother.unique digits hmoment⟩,
      fun other hother => floor_of_writes digits h hother⟩
  · intro text text' d d' s e hd hd' hs he hle
    rw [floor_of_writes digits hd hs, floor_of_writes digits hd' he]
    apply Int.floor_le_floor
    linarith
  · intro raw h
    obtain ⟨fields, start, stop, hraw, hstart, hstop, horder⟩ := endBeforeStart_iff.mp h
    obtain ⟨text, htext⟩ := parseTs_str hstart
    obtain ⟨text', htext'⟩ := parseTs_str hstop
    rw [htext] at hstart
    rw [htext'] at hstop
    obtain ⟨s, hs, hfloor⟩ := writes_of_parseTs digits hstart
    obtain ⟨e, he, hfloor'⟩ := writes_of_parseTs digits hstop
    refine ⟨fields, text, text', s, e, hraw, htext, htext', hs, he, ?_⟩
    by_contra hle
    rw [hfloor, hfloor'] at horder
    have hmono := Int.floor_le_floor (show s * 1000000 ≤ e * 1000000 by linarith)
    omega

/-- The last moment of a year, west of Greenwich and with nanoseconds, and a record that
starts there and ends one microsecond later. -/
theorem timestamps_decoded_sample :
    letI := Runtime.ascii
    let text := " 2024-12-31T23:59:59.9999995-05:30"
    let later := "2025-01-01T05:30:00Z"
    ∃ d d', parseTs (.str text) = .ok (some d) ∧ parseTs (.str later) = .ok (some d') ∧
      d.isoformat = "2025-01-01T05:29:59.999999+00:00" ∧
        parseTs (.str d.isoformat) = .ok (some d) ∧ ∃ s e, Writes .ofAscii text s ∧
          Writes .ofAscii later e ∧ d.instant = ⌊s * 1000000⌋ ∧ d'.instant = ⌊e * 1000000⌋ ∧
            (s ≤ e → d.instant ≤ d'.instant) := by
  let := Runtime.ascii
  intro text later
  obtain ⟨-, -, hread, horder, -, hprint⟩ := timestamps_decoded .ofAscii
  obtain ⟨d, hd, hiso⟩ : ∃ d, parseTs (.str text) = .ok (some d) ∧
      d.isoformat = "2025-01-01T05:29:59.999999+00:00" := by
    have hiso : (parseTs (.str text)).toOption.join.map DateTime.isoformat =
      some "2025-01-01T05:29:59.999999+00:00" := by decide +kernel
    obtain ⟨d, hd, hiso⟩ := Option.map_eq_some_iff.mp hiso
    exact ⟨d, eq_ok_of_toOption (Option.join_eq_some_iff.mp hd), hiso⟩
  obtain ⟨d', hd'⟩ : ∃ d', parseTs (.str later) = .ok (some d') := by
    have hiso : (parseTs (.str later)).toOption.join.isSome = true := by decide +kernel
    obtain ⟨d', hd'⟩ := Option.isSome_iff_exists.mp hiso
    exact ⟨d', eq_ok_of_toOption (Option.join_eq_some_iff.mp hd')⟩
  obtain ⟨hutc, ⟨s, hs, -⟩, hfloor⟩ := hread text d hd
  obtain ⟨-, ⟨e, he, -⟩, hfloor'⟩ := hread later d' hd'
  exact ⟨d, d', hd, hd', hiso, hprint d hutc, s, e, hs, he, hfloor s hs, hfloor' e he,
    horder text later d d' s e hd hd' hs he⟩

end InferenceControlPlane.Sli
