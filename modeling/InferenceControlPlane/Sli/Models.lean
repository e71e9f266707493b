import InferenceControlPlane.Python.DateTime

/-!
# Observations

A raw record is parsed into an `Observation`, which keeps no prompt, output or
message text. A record is either rejected with a bounded reason, or the parser
lets some other exception escape, which the pipeline quarantines.
-/
namespace InferenceControlPlane.Sli
open Python

inductive MalformedReason where
  | unparseableTimestamp
  | missingTimestamp
  | endBeforeStart
  | missingObservationId
  deriving DecidableEq, Repr

def MalformedReason.code : MalformedReason → String
  | .unparseableTimestamp => "unparseable_timestamp"
  | .missingTimestamp => "missing_timestamp"
  | .endBeforeStart => "end_before_start"
  | .missingObservationId => "missing_observation_id"

/-- How `parse_observation` fails: with its own `MalformedObservation`, which the pipeline counts
by its reason, or with anything else, which it quarantines. -/
inductive ParseError where
  | malformed (reason : MalformedReason)
  | escaped (e : PyErr)
  deriving DecidableEq

/-! ## Timestamps -/

/-- `Z`, or a sign with hour and minute digits. -/
inductive Zone where
  | utc
  | offset (negative : Bool) (hours minutes : List Char)
  deriving DecidableEq

/-- The groups of a text that matches `_RFC3339`, each as the digits that stand there. -/
structure Rfc3339 where
  year : List Char
  month : List Char
  day : List Char
  hour : List Char
  minute : List Char
  second : List Char
  fraction : Option (List Char)
  zone : Zone

section Match
variable [Runtime]

/-- `\d{n}`. -/
def decimals (n : ℕ) (cs : List Char) : Option (List Char × List Char) :=
  if n ≤ cs.length ∧ (cs.take n).all Runtime.isDecimal then some (cs.take n, cs.drop n) else none

def literal (c : Char) : List Char → Option (List Char)
  | [] => none
  | a :: as => if a = c then some as else none

/-- `(?:\.(?P<fraction>\d{1,9}))?`: the run of digits cannot be shortened, since
no zone starts with a digit. -/
def matchFraction (cs : List Char) : Option (Option (List Char) × List Char) :=
  match literal '.' cs with
  | none => some (none, cs)
  | some rest =>
    let digits := rest.takeWhile Runtime.isDecimal
    if 1 ≤ digits.length ∧ digits.length ≤ 9 then some (some digits, rest.drop digits.length)
    else none

/-- `(?P<zone>Z|[+-]\d{2}:\d{2})` up to the end of the text. -/
def matchZone : List Char → Option Zone
  | [] => none
  | c :: cs =>
    if c = 'Z' then (if cs = [] then some .utc else none)
    else if c = '+' ∨ c = '-' then do
      let (hours, cs) ← decimals 2 cs
      let cs ← literal ':' cs
      let (minutes, cs) ← decimals 2 cs
      if cs = [] then some (.offset (c = '-') hours minutes) else none
    else none

/-- `_RFC3339.fullmatch`. -/
def matchRfc3339 (cs : List Char) : Option Rfc3339 := do
  let (year, cs) ← decimals 4 cs
  let cs ← literal '-' cs
  let (month, cs) ← decimals 2 cs
  let cs ← literal '-' cs
  let (day, cs) ← decimals 2 cs
  let cs ← literal 'T' cs
  let (hour, cs) ← decimals 2 cs
  let cs ← literal ':' cs
  let (minute, cs) ← decimals 2 cs
  let cs ← literal ':' cs
  let (second, cs) ← decimals 2 cs
  let (fraction, cs) ← matchFraction cs
  let zone ← matchZone cs
  return ⟨year, month, day, hour, minute, second, fraction, zone⟩

end Match

/-- The UTC offset in microseconds; `fromisoformat` reads ASCII digits only. -/
def Zone.micros : Zone → Option ℤ
  | .utc => some 0
  | .offset negative hours minutes => do
    let h ← numberOf hours
    let m ← numberOf minutes
    let span : ℤ := h * hourMicros + m * minuteMicros
    return if negative then -span else span

/-- `(fraction + '000000')[:6]` as microseconds. -/
def fractionMicros : Option (List Char) → Option ℕ
  | none => some 0
  | some digits => numberOf ((digits ++ List.replicate 6 '0').take 6)

def Rfc3339.fields (m : Rfc3339) : Option (Date × Clock × ℤ) := do
  let year ← numberOf m.year
  let month ← numberOf m.month
  let day ← numberOf m.day
  let hour ← numberOf m.hour
  let minute ← numberOf m.minute
  let second ← numberOf m.second
  let micro ← fractionMicros m.fraction
  let offset ← m.zone.micros
  return (⟨year, month, day⟩, ⟨hour, minute, second, micro⟩, offset)

/-- `datetime.fromisoformat` of the normalized text. -/
def Rfc3339.toDateTime (m : Rfc3339) : Except PyErr DateTime :=
  match m.fields with
  | none => .error .valueError
  | some (date, clock, offset) => DateTime.ofFields date clock offset

/-- `_parse_ts`: nothing for a missing value, the UTC instant of a text that matches the format,
and a `ValueError` for every other text. -/
def parseTs [Runtime] (value : Json) : Except PyErr (Option DateTime) :=
  if value.truthy = false then .ok none
  else match value with
    | .str text =>
      match matchRfc3339 (stripChars text.toList) with
      | none => .error .valueError
      | some m => do
        let d ← m.toDateTime
        return some (← d.toUtc)
    | _ => .error .typeError

/-- `_safe_ts`: what does not parse is no timestamp; out-of-range conversions still escape. -/
def safeTs [Runtime] (value : Json) : Except PyErr (Option DateTime) :=
  match parseTs value with
  | .error .valueError => .ok none
  | .error .typeError => .ok none
  | .error .attributeError => .ok none
  | r => r

theorem parseTs_utc [Runtime] {value : Json} {d : DateTime} (h : parseTs value = .ok (some d)) :
    d.IsUtc := by
  unfold parseTs at h
  split_ifs at h
  · cases h
  · cases value with
    | str text =>
      cases hm : matchRfc3339 (stripChars text.toList) with
      | none => simp [hm] at h
      | some m =>
        simp only [hm] at h
        obtain ⟨d', hd', h⟩ := bind_eq_ok h
        obtain ⟨u, hu, h⟩ := bind_eq_ok h
        cases h
        exact (DateTime.toUtc_spec hu).2
    | _ => cases h

/-! ## Reading back printed timestamps -/

@[simp] lemma literal_self (c : Char) (cs : List Char) : literal c (c :: cs) = some cs := by
  simp [literal]

section Print
variable [Runtime]

lemma isDecimal_of_isDigit {c : Char} (h : c.isDigit = true) : Runtime.isDecimal c = true := by
  have hlt : c.toNat < 128 := by
    simp only [Char.isDigit, Bool.and_eq_true, decide_eq_true_eq] at h
    have h2 : c.val ≤ 57 := h.2
    have h3 : c.val.toNat ≤ 57 := h2
    exact lt_of_le_of_lt h3 (by decide)
  rw [Runtime.isDecimal_ascii c hlt, h]

lemma decimals_digitsOf (w n : ℕ) (rest : List Char) :
    decimals w (digitsOf w n ++ rest) = some (digitsOf w n, rest) := by
  have htake : (digitsOf w n ++ rest).take w = digitsOf w n := by
    rw [List.take_left' (length_digitsOf w n)]
  have hdrop : (digitsOf w n ++ rest).drop w = rest := by
    rw [List.drop_left' (length_digitsOf w n)]
  have hall : (digitsOf w n).all Runtime.isDecimal = true := by
    rw [List.all_eq_true]
    exact fun c hc => isDecimal_of_isDigit (isDigit_of_mem_digitsOf hc)
  rw [decimals, htake, hdrop, if_pos ⟨by simp, hall⟩]

/-- The zone that `zoneText` prints is read back exactly when it has no seconds. -/
lemma matchZone_zoneText (offset : ℤ) :
    matchZone (DateTime.zoneText offset) =
      if (clockOf |offset|).second = 0 ∧ (clockOf |offset|).micro = 0 then
        some (.offset (offset < 0) (digitsOf 2 (clockOf |offset|).hour)
          (digitsOf 2 (clockOf |offset|).minute))
      else none := by
  have hsign : (if offset < 0 then '-' else '+') ≠ 'Z' := by split_ifs <;> decide
  have hsign' : (if offset < 0 then '-' else '+') = '+' ∨
      (if offset < 0 then '-' else '+') = '-' := by
    split_ifs <;> simp
  have hneg : decide ((if offset < 0 then '-' else '+') = '-') = decide (offset < 0) := by
    split_ifs with h <;> simp [h]
  simp only [DateTime.zoneText, matchZone, if_neg hsign, if_pos hsign', List.append_assoc,
    List.cons_append, decimals_digitsOf, literal_self, Option.bind_eq_bind, Option.bind_some, hneg]
  by_cases h : (clockOf |offset|).second = 0 ∧ (clockOf |offset|).micro = 0
  · rw [if_pos h, if_pos h, if_pos rfl]
  · rw [if_neg h, if_neg h, if_neg (List.cons_ne_nil _ _)]

/-- A printed fraction is read back; without one the zone follows. -/
lemma matchFraction_print (micro : ℕ) (offset : ℤ) :
    matchFraction ((if micro = 0 then [] else '.' :: digitsOf 6 micro) ++
        DateTime.zoneText offset) =
      some (if micro = 0 then none else some (digitsOf 6 micro), DateTime.zoneText offset) := by
  obtain ⟨sign, tail, hzone, hsign⟩ : ∃ sign tail, DateTime.zoneText offset = sign :: tail ∧
      (sign = '-' ∨ sign = '+') := by
    refine ⟨_, _, rfl, ?_⟩
    split_ifs <;> simp
  have hdot : sign ≠ '.' := by rcases hsign with rfl | rfl <;> decide
  have hdec : Runtime.isDecimal sign = false := by
    rcases hsign with rfl | rfl <;> exact Runtime.isDecimal_ascii _ (by decide)
  rw [hzone]
  by_cases h : micro = 0
  · simp [h, matchFraction, literal, hdot]
  · have hall : ∀ c ∈ digitsOf 6 micro, Runtime.isDecimal c = true :=
      fun c hc => isDecimal_of_isDigit (isDigit_of_mem_digitsOf hc)
    have htake : (digitsOf 6 micro ++ sign :: tail).takeWhile Runtime.isDecimal =
        digitsOf 6 micro := by
      rw [List.takeWhile_append_of_pos hall, List.takeWhile_cons_of_neg (by simp [hdec]),
        List.append_nil]
    simp only [if_neg h, matchFraction, List.cons_append, literal_self, htake, length_digitsOf]
    rw [if_pos (by omega), List.drop_left' (length_digitsOf 6 micro)]

/-- The text of `isoformat` splits into its printed fields. -/
theorem matchRfc3339_isoformat (d : DateTime) :
    matchRfc3339 d.isoformatChars = (matchZone (DateTime.zoneText d.offset)).map fun zone =>
      ⟨digitsOf 4 d.date.year, digitsOf 2 d.date.month, digitsOf 2 d.date.day,
        digitsOf 2 d.clock.hour, digitsOf 2 d.clock.minute, digitsOf 2 d.clock.second,
        if d.clock.micro = 0 then none else some (digitsOf 6 d.clock.micro), zone⟩ := by
  simp only [matchRfc3339, DateTime.isoformatChars, List.append_assoc, List.cons_append,
    decimals_digitsOf, literal_self, matchFraction_print, Option.bind_eq_bind, Option.bind_some]
  cases matchZone (DateTime.zoneText d.offset) <;> rfl

end Print

lemma clockOf_whole_minutes {span : ℤ} (h0 : 0 ≤ span) (h1 : span < dayMicros) :
    ((clockOf span).second = 0 ∧ (clockOf span).micro = 0) ↔ span % minuteMicros = 0 := by
  simp only [clockOf, dayMicros, hourMicros, minuteMicros, secondMicros] at *
  omega

lemma zone_micros {offset : ℤ} (hlo : -dayMicros < offset) (hhi : offset < dayMicros)
    (h : (clockOf |offset|).second = 0 ∧ (clockOf |offset|).micro = 0) :
    (Zone.offset (offset < 0) (digitsOf 2 (clockOf |offset|).hour)
      (digitsOf 2 (clockOf |offset|).minute)).micros = some offset := by
  obtain ⟨hv, hm⟩ := clockOf_spec |offset| (abs_nonneg _) (abs_lt.mpr ⟨hlo, hhi⟩)
  have hspan : ((clockOf |offset|).hour : ℤ) * hourMicros +
      (clockOf |offset|).minute * minuteMicros = |offset| := by
    conv_rhs => rw [← hm, Clock.micros, h.1, h.2]
    simp
  simp only [Zone.micros, Option.bind_eq_bind, Option.pure_def,
    numberOf_digitsOf 2 _ (lt_trans hv.1 (by decide)),
    numberOf_digitsOf 2 _ (lt_trans hv.2.1 (by decide)), Option.bind_some, hspan, decide_eq_true_eq]
  split_ifs with hn
  · rw [abs_of_neg hn, neg_neg]
  · rw [abs_of_nonneg (not_lt.mp hn)]

lemma fractionMicros_print {micro : ℕ} (h : micro < 1000000) :
    fractionMicros (if micro = 0 then none else some (digitsOf 6 micro)) = some micro := by
  by_cases h0 : micro = 0
  · simp [h0, fractionMicros]
  · rw [if_neg h0, fractionMicros, List.take_left' (length_digitsOf 6 micro)]
    exact numberOf_digitsOf 6 micro h

/-- The printed fields of a datetime, with the zone it was printed in. -/
lemma fields_print (d : DateTime) {zone : Zone} (hz : zone.micros = some d.offset) :
    (Rfc3339.mk (digitsOf 4 d.date.year) (digitsOf 2 d.date.month) (digitsOf 2 d.date.day)
      (digitsOf 2 d.clock.hour) (digitsOf 2 d.clock.minute) (digitsOf 2 d.clock.second)
      (if d.clock.micro = 0 then none else some (digitsOf 6 d.clock.micro)) zone).fields =
        some (d.date, d.clock, d.offset) := by
  obtain ⟨⟨y1, y2, m1, m2, d1, d2⟩, ⟨c1, c2, c3, c4⟩, -⟩ := d.date_clock_spec
  have hday : d.date.day < 10 ^ 2 := by
    have h31 : daysInMonth (isLeap d.date.year) d.date.month ≤ 31 := by
      unfold daysInMonth
      split <;> first | omega | (split_ifs <;> omega)
    omega
  simp only [Rfc3339.fields, Option.bind_eq_bind, Option.pure_def, Option.bind_some,
    numberOf_digitsOf 4 d.date.year (by omega), numberOf_digitsOf 2 d.date.month (by omega),
    numberOf_digitsOf 2 d.date.day hday, numberOf_digitsOf 2 d.clock.hour (by omega),
    numberOf_digitsOf 2 d.clock.minute (by omega), numberOf_digitsOf 2 d.clock.second (by omega),
    fractionMicros_print c4, hz]

lemma isSpace_of_isDigit {c : Char} (h : c.isDigit = true) : isSpace c = false := by
  simp only [Char.isDigit, Bool.and_eq_true, decide_eq_true_eq] at h
  have h1 : 48 ≤ c.toNat := h.1
  have h2 : c.toNat ≤ 57 := h.2
  simp only [isSpace, Bool.or_eq_false_iff, Bool.and_eq_false_iff, decide_eq_false_iff_not]
  omega

def EndsInDigit (cs : List Char) : Prop := ∃ ds c, cs = ds ++ [c] ∧ c.isDigit = true

lemma EndsInDigit.append {cs : List Char} (h : EndsInDigit cs) (ds : List Char) :
    EndsInDigit (ds ++ cs) := by
  obtain ⟨es, c, rfl, hc⟩ := h
  exact ⟨ds ++ es, c, by rw [List.append_assoc], hc⟩

lemma EndsInDigit.cons {cs : List Char} (h : EndsInDigit cs) (c : Char) : EndsInDigit (c :: cs) :=
  h.append [c]

lemma endsInDigit_digitsOf (w n : ℕ) : EndsInDigit (digitsOf (w + 1) n) :=
  ⟨_, _, rfl, isDigit_digit n⟩

lemma endsInDigit_zoneText (offset : ℤ) : EndsInDigit (DateTime.zoneText offset) := by
  simp only [DateTime.zoneText]
  by_cases h : (clockOf |offset|).second = 0 ∧ (clockOf |offset|).micro = 0
  · rw [if_pos h, List.append_nil]
    exact (((endsInDigit_digitsOf 1 _).cons _).append _).cons _
  · rw [if_neg h]
    by_cases hu : (clockOf |offset|).micro = 0
    · rw [if_pos hu, List.append_nil]
      exact (((endsInDigit_digitsOf 1 _).cons _).append _).cons _
    · rw [if_neg hu]
      exact ((((endsInDigit_digitsOf 5 _).cons _).append _).append _).cons _

/-- `strip` leaves printed timestamps alone: they start and end with a digit. -/
lemma stripChars_isoformat (d : DateTime) : stripChars d.isoformatChars = d.isoformatChars := by
  have hhead : ∃ c cs, d.isoformatChars = c :: cs ∧ c.isDigit = true := by
    cases h4 : digitsOf 4 d.date.year with
    | nil => simpa [h4] using length_digitsOf 4 d.date.year
    | cons c cs =>
      refine ⟨c, _, by simp only [DateTime.isoformatChars, h4, List.cons_append]; rfl, ?_⟩
      exact isDigit_of_mem_digitsOf (w := 4) (n := d.date.year) (h4 ▸ List.mem_cons_self)
  obtain ⟨c, cs, h1, hc⟩ := hhead
  obtain ⟨cs', c', h2, hc'⟩ : EndsInDigit d.isoformatChars :=
    (endsInDigit_zoneText d.offset).append _
  have hne : d.isoformatChars ≠ [] := by rw [h1]; exact List.cons_ne_nil _ _
  refine stripChars_of_ends hne ?_ ?_
  · simp only [h1, List.head_cons]
    exact isSpace_of_isDigit hc
  · simp only [h2, List.getLast_concat]
    exact isSpace_of_isDigit hc'

/-- Reading back a printed timestamp gives the same instant in UTC. Offsets that
are not whole minutes are printed in a form the parser rejects. -/
theorem parseTs_isoformat [Runtime] (d : DateTime) :
    parseTs (.str d.isoformat) =
      if d.offset % minuteMicros = 0 then d.toUtc.map some else .error .valueError := by
  have htruthy : (Json.str d.isoformat).truthy = true := by
    have hne : d.isoformat ≠ "" := by
      intro h
      have hnil : d.isoformatChars = [] := by
        rw [← String.toList_ofList (l := d.isoformatChars)]
        exact congrArg String.toList h
      have hlen := congrArg List.length hnil
      simp [DateTime.isoformatChars] at hlen
    simpa [Json.truthy] using hne
  have hchars : d.isoformat.toList = d.isoformatChars := String.toList_ofList
  have hmod : |d.offset| % minuteMicros = 0 ↔ d.offset % minuteMicros = 0 := by
    simp only [minuteMicros, secondMicros]
    rcases abs_choice d.offset with ha | ha
    · rw [ha]
    · rw [ha]
      omega
  have hwhole := (clockOf_whole_minutes (abs_nonneg d.offset)
    (abs_lt.mpr ⟨d.offset_gt, d.offset_lt⟩)).trans hmod
  simp only [parseTs, htruthy, hchars, stripChars_isoformat, matchRfc3339_isoformat,
    matchZone_zoneText, Bool.true_eq_false, if_false]
  by_cases h : (clockOf |d.offset|).second = 0 ∧ (clockOf |d.offset|).micro = 0
  · rw [if_pos h, if_pos (hwhole.mp h)]
    simp only [Option.map_some, Rfc3339.toDateTime,
      fields_print d (zone_micros d.offset_gt d.offset_lt h), DateTime.ofFields_self]
    change (d.toUtc >>= fun u => pure (some u)) = _
    cases d.toUtc <;> rfl
  · rw [if_neg h, if_neg (fun hh => h (hwhole.mpr hh))]
    rfl

theorem parseTs_isoformat_utc [Runtime] {d : DateTime} (h : d.IsUtc) :
    parseTs (.str d.isoformat) = .ok (some d) := by
  rw [parseTs_isoformat, DateTime.toUtc_of_isUtc h, if_pos (by rw [h]; rfl)]
  rfl

/-- Equal texts denote the same instant. -/
theorem instant_eq_of_isoformat {d e : DateTime} (he : e.IsUtc)
    (h : d.isoformat = e.isoformat) : d.instant = e.instant := by
  let := Runtime.ascii
  have hread := parseTs_isoformat_utc he
  rw [← h, parseTs_isoformat] at hread
  split_ifs at hread
  cases hutc : d.toUtc with
  | error err => simp [hutc, Except.map] at hread
  | ok u =>
    simp only [hutc, Except.map, Except.ok.injEq, Option.some.injEq] at hread
    rw [← hread, (DateTime.toUtc_spec hutc).1]

/-! ## Observations -/

/-- Token counters come from `int(float(c))`, so they never exceed a double. -/
abbrev TokenCount : Type := {n : ℕ // n ≤ maxDouble}

structure Observation where
  obsId : String
  level : String
  team : String
  route : String
  providedModel : String
  internalModel : String
  envRaw : String
  stream : Bool
  start : DateTime
  completionStart : Option DateTime
  endTime : DateTime
  inputTokens : TokenCount
  outputTokens : TokenCount
  totalTokens : TokenCount
  cacheReadTokens : TokenCount
  costTotal : Option {q : ℚ // 0 ≤ q}
  costInvalid : Bool
  error : Option String
  start_utc : start.IsUtc
  end_utc : endTime.IsUtc
  ordered : start.instant ≤ endTime.instant

namespace Observation

def isError (obs : Observation) : Bool := obs.level == "ERROR" || obs.error.isSome

def latencyMs (obs : Observation) : ℚ := obs.endTime.secondsSince obs.start * 1000

/-- Time to first token, only for successful streaming requests. -/
def ttftMs (obs : Observation) : Option ℚ :=
  match obs.completionStart with
  | none => none
  | some completion =>
    if obs.isError || !obs.stream then none
    else if obs.start.instant ≤ completion.instant ∧ completion.instant ≤ obs.endTime.instant then
      some (completion.secondsSince obs.start * 1000)
    else none

def isCacheHit (obs : Observation) : Bool := 0 < obs.cacheReadTokens.val

end Observation

/-- `math.isfinite(f) and f >= 0`. Rationals beyond the double range stand for
infinities. -/
def finiteNonneg : PyFloat → Option {q : ℚ // 0 ≤ q}
  | .finite q => if h : 0 ≤ q ∧ q ≤ maxDouble then some ⟨q, h.1⟩ else none
  | _ => none

/-- A non-negative integral float as a counter. -/
def tokenOfFloat : PyFloat → Option TokenCount
  | .finite q =>
    if h : 0 ≤ q ∧ q.den = 1 ∧ q.num.toNat ≤ maxDouble then some ⟨q.num.toNat, h.2.2⟩ else none
  | _ => none

section Parse
variable [Runtime]

/-- `float(value)` under `except (ValueError, TypeError)`. -/
def safeFloat (value : Json) : Except PyErr (Option PyFloat) :=
  match toFloat value with
  | .ok f => .ok (some f)
  | .error .valueError => .ok none
  | .error .typeError => .ok none
  | .error e => .error e

/-- `costDetails.total` as `(cost_total, cost_invalid)`: a missing cost is no invalid one, and a
cost is finite and not negative. -/
def costOf : Json → Except PyErr (Option {q : ℚ // 0 ≤ q} × Bool)
  | .null => .ok (none, false)
  | raw => do
    match (← safeFloat raw).bind finiteNonneg with
    | some cost => return (some cost, false)
    | none => return (none, true)

/-- One round of the candidate loop of `_int`; `none` continues with the next candidate. -/
def tokenOf : Json → Except PyErr (Option TokenCount)
  | .null => .ok none
  | .bool _ => .ok none
  | c => do return (← safeFloat c).bind tokenOfFloat

/-- `_int(*candidates)`: the first candidate that is a token count, and zero when none of them
is. -/
def intOf : List Json → Except PyErr TokenCount
  | [] => .ok ⟨0, Nat.zero_le _⟩
  | c :: cs => do
    match ← tokenOf c with
    | some n => return n
    | none => intOf cs

def streamOf : Json → Bool
  | .bool b => b
  | .str s => ["true", "1", "yes"].contains (Runtime.lower (strip s))
  | .int n => n == 1
  | .float (.finite q) => q == 1
  | _ => false

def safeTypes : List String :=
  ["throttlingexception", "ratelimiterror", "ratelimitexception", "timeouterror",
    "timeoutexception", "serviceunavailable", "serviceunavailableexception",
    "internalservererror", "modelerrorexception", "authenticationerror",
    "accessdeniedexception", "badrequesterror", "validationexception",
    "contentpolicyviolation"]

/-- The bounded marker that replaces `metadata.error`: a known type, or a placeholder, but never
the text of the error. -/
def errorOf : Json → Except PyErr (Option String)
  | .obj fields => do
    let rawType := Runtime.lower (strip (← toStr (orElse (field fields "type") (.str ""))))
    return some (if safeTypes.contains rawType then rawType else "__unknown__")
  | _ => .ok none

/-- `raw.get(name)` where it is a mapping, else an empty one. -/
def mapping (raw : List (String × Json)) (name : String) : List (String × Json) :=
  match field raw name with
  | .obj fields => fields
  | _ => []

/-- `str(value or "")`. -/
def strOrEmpty (value : Json) : Except PyErr String := toStr (orElse value (.str ""))

/-- The fields of `parse_observation` after the timestamp checks, read with a default for each
that is missing. -/
def parseFields (raw : List (String × Json)) (start endTime : DateTime) (hs : start.IsUtc)
    (he : endTime.IsUtc) (ho : start.instant ≤ endTime.instant) : Except PyErr Observation := do
  let tm := mapping raw "traceMetadata"
  let md := mapping raw "metadata"
  let usage := mapping raw "usageDetails"
  let cost := mapping raw "costDetails"
  let params := mapping raw "modelParameters"
  let (costTotal, costInvalid) ← costOf (field cost "total")
  let error ← errorOf (field md "error")
  let obsId ← strOrEmpty (field raw "id")
  let level ← toStr ((raw.lookup "level").getD (.str "DEFAULT"))
  let team ← strOrEmpty (field tm "team")
  let route ← strOrEmpty (field raw "traceName")
  let providedModel ← strOrEmpty (field raw "providedModelName")
  let internalModel ← strOrEmpty (field raw "internalModelId")
  let envRaw ← strOrEmpty (orElse (field tm "env") (field raw "environment"))
  let completionStart ← safeTs (field raw "completionStartTime")
  let inputTokens ← intOf [field raw "inputUsage", field usage "input"]
  let outputTokens ← intOf [field raw "outputUsage", field usage "output"]
  let totalTokens ← intOf [field raw "totalUsage", field usage "total"]
  let cacheReadTokens ← intOf [field usage "cache_read_input_tokens"]
  return {
    obsId, level
    team := strip team
    route := strip route
    providedModel, internalModel
    envRaw := strip envRaw
    stream := streamOf (field params "stream")
    start, completionStart, endTime
    inputTokens, outputTokens, totalTokens, cacheReadTokens
    costTotal, costInvalid, error
    start_utc := hs, end_utc := he, ordered := ho }

/-- The timestamp reads, whose listed exceptions become a rejection. -/
def parseBound (value : Json) : Except ParseError (Option DateTime) :=
  match parseTs value with
  | .ok d => .ok d
  | .error .valueError => .error (.malformed .unparseableTimestamp)
  | .error .typeError => .error (.malformed .unparseableTimestamp)
  | .error .attributeError => .error (.malformed .unparseableTimestamp)
  | .error e => .error (.escaped e)

/-- `parse_observation`. A record without `get` raises `AttributeError` inside the
first `try`. -/
def parseObservation : Json → Except ParseError Observation
  | .obj raw =>
    match h1 : parseTs (field raw "startTime"), h2 : parseTs (field raw "endTime") with
    | .ok (some start), .ok (some endTime) =>
      if ho : endTime.instant < start.instant then .error (.malformed .endBeforeStart)
      else (parseFields raw start endTime (parseTs_utc h1) (parseTs_utc h2)
        (not_lt.mp ho)).mapError .escaped
    | _, _ => do
      let _ ← parseBound (field raw "startTime")
      let _ ← parseBound (field raw "endTime")
      .error (.malformed .missingTimestamp)
  | _ => .error (.malformed .unparseableTimestamp)

omit [Runtime] in
lemma toDateTime_error {m : Rfc3339} {e : PyErr} (h : m.toDateTime = .error e) :
    e = .valueError := by
  unfold Rfc3339.toDateTime at h
  split at h
  · cases h
    rfl
  · simp only [DateTime.ofFields] at h
    split_ifs at h
    cases h
    rfl

lemma parseTs_error {value : Json} {e : PyErr} (h : parseTs value = .error e) :
    e = .valueError ∨ e = .typeError ∨ e = .overflowError := by
  unfold parseTs at h
  split_ifs at h
  split at h
  · split at h
    · cases h
      exact Or.inl rfl
    · next m _ =>
      cases hd : m.toDateTime with
      | error e' =>
        rw [hd] at h
        cases h
        exact Or.inl (toDateTime_error hd)
      | ok d =>
        rw [hd] at h
        cases hu : d.toUtc with
        | ok u =>
          simp only [bind, Except.bind, hu] at h
          cases h
        | error e' =>
          simp only [bind, Except.bind, hu] at h
          cases h
          unfold DateTime.toUtc at hu
          split_ifs at hu
          cases hu
          exact Or.inr (Or.inr rfl)
  · cases h
    exact Or.inr (Or.inl rfl)

lemma parseBound_eq_ok {value : Json} {d : Option DateTime} :
    parseBound value = .ok d ↔ parseTs value = .ok d := by
  unfold parseBound
  cases parseTs value with
  | ok d' => simp
  | error e => cases e <;> simp

lemma parseObservation_bounded {raw : List (String × Json)} {start endTime : DateTime}
    (h1 : parseTs (field raw "startTime") = .ok (some start))
    (h2 : parseTs (field raw "endTime") = .ok (some endTime)) :
    parseObservation (.obj raw) =
      if ho : endTime.instant < start.instant then .error (.malformed .endBeforeStart)
      else (parseFields raw start endTime (parseTs_utc h1) (parseTs_utc h2)
        (not_lt.mp ho)).mapError .escaped := by
  simp only [parseObservation]
  split
  · next start' endTime' h1' h2' =>
    obtain rfl : start = start' := by simpa [h1] using h1'
    obtain rfl : endTime = endTime' := by simpa [h2] using h2'
    rfl
  · next hnot => exact absurd h2 (hnot _ _ h1)

lemma parseObservation_unbounded {raw : List (String × Json)}
    (h : ∀ start endTime, parseTs (field raw "startTime") = .ok (some start) →
      parseTs (field raw "endTime") ≠ .ok (some endTime)) :
    parseObservation (.obj raw) = (do
      let _ ← parseBound (field raw "startTime")
      let _ ← parseBound (field raw "endTime")
      .error (.malformed .missingTimestamp)) := by
  simp only [parseObservation]

end Parse

end InferenceControlPlane.Sli
