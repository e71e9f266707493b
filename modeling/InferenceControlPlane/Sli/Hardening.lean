import InferenceControlPlane.Sli.Models

/-!
# Hardened parsing

The parser is meant to return an observation or to reject with a bounded reason,
whatever a record holds. Its handlers cover the values that do not convert, but
not those that convert out of range. An observation that is returned is sanitised
in any case.
-/
namespace InferenceControlPlane.Sli
open Python

/-- `MALFORMED_REASONS`. -/
def malformedReasons : List String :=
  ["unparseable_timestamp", "missing_timestamp", "end_before_start", "missing_observation_id"]

theorem MalformedReason.code_mem (reason : MalformedReason) : reason.code ∈ malformedReasons := by
  cases reason <;> decide

section
variable [Runtime]

/-! ## What the conversions do not take -/

/-- An integer beyond the doubles, which `float()` does not take. -/
def Overflows (value : Json) : Prop := ∃ n : ℤ, value = .int n ∧ doubleBound ≤ n.natAbs

/-- A cost that is there but is no finite, non-negative number. -/
def BadCost (value : Json) : Prop :=
  value ≠ .null ∧ ∀ q : ℚ, toFloat value = .ok (.finite q) → ¬(0 ≤ q ∧ q ≤ maxDouble)

/-- A candidate that is taken as a token counter. -/
def Counts (value : Json) : Prop :=
  (∀ b, value ≠ .bool b) ∧ ∃ q : ℚ, toFloat value = .ok (.finite q) ∧
    0 ≤ q ∧ q.den = 1 ∧ q.num.toNat ≤ maxDouble

/-- No candidate overflows up to the first one that counts. -/
def CountsConvert : List Json → Prop
  | [] => True
  | c :: cs => ¬Overflows c ∧ (¬Counts c → CountsConvert cs)

/-- `str(value)` returns: an integer within the digit limit, or a container that
can be printed. -/
def Printable : Json → Prop
  | .int n => n.natAbs < 10 ^ maxStrDigits
  | .float x => ∃ text, Runtime.reprText (.float x) = .ok text
  | .arr items => ∃ text, Runtime.reprText (.arr items) = .ok text
  | .obj fields => ∃ text, Runtime.reprText (.obj fields) = .ok text
  | _ => True

/-- The value is a text that reads as a time of some zone. -/
def Denotes (value : Json) (d : DateTime) : Prop :=
  ∃ text m, value = .str text ∧ matchRfc3339 (stripChars text.toList) = some m ∧
    m.toDateTime = .ok d

/-- The time in UTC lies within the years 1 to 9999. -/
def InYears (d : DateTime) : Prop := 0 ≤ d.instant ∧ d.instant < maxWall

def OutOfYears (value : Json) : Prop := ∃ d, Denotes value d ∧ ¬InYears d

/-- A timestamp that is read or found missing. -/
def Readable (value : Json) : Prop := value.truthy = false ∨ ∃ d, Denotes value d ∧ InYears d

lemma toStr_ok_iff (value : Json) : (∃ text, toStr value = .ok text) ↔ Printable value := by
  cases value with
  | int n =>
    simp only [toStr, Printable]
    split_ifs with h
    · simpa using h
    · simpa using h
  | bool b => cases b <;> simp [toStr, Printable]
  | _ => simp [toStr, Printable]

/-! ## When each field converts -/

lemma safeFloat_error_iff (value : Json) :
    (∃ e, safeFloat value = .error e) ↔ Overflows value := by
  cases value with
  | int n =>
    have hiff := maxDouble_lt_roundDouble_iff n.natAbs
    simp only [safeFloat, toFloat, floatOfInt]
    split_ifs with h
    · exact iff_of_true ⟨_, rfl⟩ ⟨n, rfl, hiff.mp h⟩
    · apply iff_of_false nofun
      rintro ⟨m, hm, hbig⟩
      cases hm
      exact h (hiff.mpr hbig)
  | str s =>
    apply iff_of_false _ nofun
    simp only [safeFloat, toFloat]
    cases Runtime.floatOfText s <;> nofun
  | _ => exact iff_of_false nofun nofun

lemma safeFloat_ok_iff (value : Json) : (∃ f, safeFloat value = .ok f) ↔ ¬Overflows value := by
  rw [← safeFloat_error_iff]
  cases safeFloat value with
  | error e => simp
  | ok f => simp

/-- A cost that is there is converted, and kept if it is finite and non-negative. -/
lemma costOf_eq {value : Json} (h : value ≠ .null) :
    costOf value = (safeFloat value).map fun f =>
      (f.bind finiteNonneg, (f.bind finiteNonneg).isNone) := by
  rw [costOf.eq_2 value h]
  cases safeFloat value with
  | error e => rfl
  | ok f =>
    simp only [bind, Except.bind, Except.map]
    cases f.bind finiteNonneg <;> rfl

/-- So is a candidate that is neither missing nor a boolean. -/
lemma tokenOf_eq {value : Json} (h : value ≠ .null) (hb : ∀ b, value ≠ .bool b) :
    tokenOf value = (safeFloat value).map (·.bind tokenOfFloat) := by
  have hround : tokenOf value = (do return (← safeFloat value).bind tokenOfFloat) := by
    cases value with
    | null => exact absurd rfl h
    | bool b => exact absurd rfl (hb b)
    | _ => rfl
  rw [hround]
  cases safeFloat value <;> rfl

lemma costOf_ok_iff (value : Json) : (∃ c, costOf value = .ok c) ↔ ¬Overflows value := by
  by_cases h : value = .null
  · rw [h]
    exact iff_of_true ⟨_, rfl⟩ nofun
  · rw [costOf_eq h, ← safeFloat_ok_iff]
    cases safeFloat value <;> simp [Except.map]

lemma tokenOf_ok_iff (value : Json) : (∃ t, tokenOf value = .ok t) ↔ ¬Overflows value := by
  by_cases h : value = .null
  · rw [h]
    exact iff_of_true ⟨_, rfl⟩ nofun
  · by_cases hb : ∃ b, value = .bool b
    · obtain ⟨b, rfl⟩ := hb
      exact iff_of_true ⟨_, rfl⟩ nofun
    · rw [tokenOf_eq h fun b hv => hb ⟨b, hv⟩, ← safeFloat_ok_iff]
      cases safeFloat value <;> simp [Except.map]

/-- What `float()` makes of a value, past the handlers. -/
lemma safeFloat_eq_some (value : Json) (f : PyFloat) :
    safeFloat value = .ok (some f) ↔ toFloat value = .ok f := by
  unfold safeFloat
  cases toFloat value with
  | ok g => simp
  | error e => cases e <;> simp

omit [Runtime] in
lemma tokenOfFloat_isSome_iff (q : ℚ) :
    (∃ t, tokenOfFloat (.finite q) = some t) ↔ 0 ≤ q ∧ q.den = 1 ∧ q.num.toNat ≤ maxDouble := by
  simp only [tokenOfFloat]
  split_ifs with h
  · exact iff_of_true ⟨_, rfl⟩ h
  · exact iff_of_false nofun h

lemma counts_iff (value : Json) : (∃ t, tokenOf value = .ok (some t)) ↔ Counts value := by
  by_cases h : value = .null
  · rw [h]
    exact iff_of_false nofun (by rintro ⟨-, q, hq, -⟩; cases hq)
  · by_cases hb : ∃ b, value = .bool b
    · obtain ⟨b, rfl⟩ := hb
      exact iff_of_false nofun fun hcounts => hcounts.1 b rfl
    · have hbool : ∀ b, value ≠ .bool b := fun b hv => hb ⟨b, hv⟩
      rw [tokenOf_eq h hbool, Counts, and_iff_right hbool]
      constructor
      · rintro ⟨t, ht⟩
        cases hf : safeFloat value with
        | error e => simp [hf, Except.map] at ht
        | ok f =>
          simp only [hf, Except.map, Except.ok.injEq] at ht
          obtain ⟨x, rfl, hx⟩ := Option.bind_eq_some_iff.mp ht
          cases x with
          | finite q =>
            exact ⟨q, (safeFloat_eq_some _ _).mp hf, (tokenOfFloat_isSome_iff q).mp ⟨t, hx⟩⟩
          | _ => cases hx
      · rintro ⟨q, hq, hcount⟩
        obtain ⟨t, ht⟩ := (tokenOfFloat_isSome_iff q).mpr hcount
        exact ⟨t, by rw [(safeFloat_eq_some _ _).mpr hq, Except.map, Option.bind_some, ht]⟩

lemma intOf_ok_iff (candidates : List Json) :
    (∃ n, intOf candidates = .ok n) ↔ CountsConvert candidates := by
  induction candidates with
  | nil => exact iff_of_true ⟨_, rfl⟩ trivial
  | cons c cs ih =>
    rw [intOf, exists_bind_ok, CountsConvert, ← tokenOf_ok_iff, ← counts_iff, ← ih]
    cases hc : tokenOf c with
    | error e => simp
    | ok t =>
      cases t with
      | none => simp
      | some n => exact iff_of_true ⟨_, rfl, n, rfl⟩ ⟨⟨_, rfl⟩, fun h => absurd ⟨n, rfl⟩ h⟩

/-! ## Timestamps -/

omit [Runtime] in
lemma toUtc_of_inYears {d : DateTime} (h : InYears d) : ∃ u, d.toUtc = .ok u :=
  ⟨_, dif_pos h⟩

omit [Runtime] in
lemma toUtc_of_not_inYears {d : DateTime} (h : ¬InYears d) : d.toUtc = .error .overflowError :=
  dif_neg h

lemma Denotes.parseTs {value : Json} {d : DateTime} (h : Denotes value d) :
    parseTs value = d.toUtc.map some := by
  obtain ⟨text, m, rfl, hmatch, hd⟩ := h
  have hne : text ≠ "" := by
    rintro rfl
    have hempty : stripChars "".toList = [] := by simp [stripChars]
    rw [hempty] at hmatch
    cases hmatch
  have htruthy : (Json.str text).truthy = true := by simpa [Json.truthy] using hne
  simp only [Sli.parseTs, htruthy, hmatch, hd, Bool.true_eq_false, if_false]
  show (d.toUtc >>= fun u => pure (some u)) = _
  cases d.toUtc <;> rfl

/-- Without a time the value is missing, or the reader raises what is handled. -/
lemma parseTs_of_not_denotes {value : Json} (h : ∀ d, ¬Denotes value d) :
    (value.truthy = false ∧ parseTs value = .ok none) ∨ parseTs value = .error .valueError ∨
      parseTs value = .error .typeError := by
  unfold parseTs
  split_ifs with htruthy
  · exact .inl ⟨htruthy, rfl⟩
  · cases value with
    | str text =>
      cases hmatch : matchRfc3339 (stripChars text.toList) with
      | none => simp [hmatch]
      | some m =>
        cases hd : m.toDateTime with
        | error e =>
          obtain rfl := toDateTime_error hd
          simp [hmatch, hd, bind, Except.bind]
        | ok d => exact absurd ⟨text, m, rfl, hmatch, hd⟩ (h d)
    | _ => exact .inr (.inr rfl)

/-- A bound is the UTC form of the time that the value denotes. -/
lemma inYears_of_parseTs {value : Json} {d u : DateTime} (hd : Denotes value d)
    (h : parseTs value = .ok (some u)) : InYears d ∧ d.instant = u.instant := by
  by_cases hyears : InYears d
  · obtain ⟨u', hu⟩ := toUtc_of_inYears hyears
    rw [hd.parseTs, hu] at h
    cases h
    exact ⟨hyears, (DateTime.toUtc_spec hu).1.symm⟩
  · rw [hd.parseTs, toUtc_of_not_inYears hyears] at h
    cases h

lemma denotes_of_parseTs {value : Json} {u : DateTime} (h : parseTs value = .ok (some u)) :
    ∃ d, Denotes value d ∧ InYears d ∧ d.instant = u.instant := by
  by_cases hd : ∃ d, Denotes value d
  · obtain ⟨d, hd⟩ := hd
    exact ⟨d, hd, inYears_of_parseTs hd h⟩
  · rcases parseTs_of_not_denotes (not_exists.mp hd) with ⟨-, h'⟩ | h' | h' <;>
      cases h'.symm.trans h

lemma parseTs_of_inYears {value : Json} {d : DateTime} (hd : Denotes value d) (h : InYears d) :
    ∃ u, parseTs value = .ok (some u) := by
  obtain ⟨u, hu⟩ := toUtc_of_inYears h
  exact ⟨u, by rw [hd.parseTs, hu]; rfl⟩

lemma parseTs_ok_iff (value : Json) : (∃ d, parseTs value = .ok d) ↔ Readable value := by
  constructor
  · rintro ⟨d, h⟩
    cases d with
    | some u =>
      obtain ⟨d, hd, hyears, -⟩ := denotes_of_parseTs h
      exact .inr ⟨d, hd, hyears⟩
    | none =>
      by_cases hd : ∃ d, Denotes value d
      · obtain ⟨d, hd⟩ := hd
        rw [hd.parseTs] at h
        cases hu : d.toUtc <;> simp [hu, Except.map] at h
      · rcases parseTs_of_not_denotes (not_exists.mp hd) with ⟨h', -⟩ | h' | h'
        · exact .inl h'
        · cases h'.symm.trans h
        · cases h'.symm.trans h
  · rintro (h | ⟨d, hd, h⟩)
    · exact ⟨none, if_pos h⟩
    · obtain ⟨u, hu⟩ := parseTs_of_inYears hd h
      exact ⟨_, hu⟩

lemma parseTs_overflow_iff (value : Json) :
    parseTs value = .error .overflowError ↔ OutOfYears value := by
  constructor
  · intro h
    by_cases hd : ∃ d, Denotes value d
    · obtain ⟨d, hd⟩ := hd
      refine ⟨d, hd, fun hyears => ?_⟩
      obtain ⟨u, hu⟩ := parseTs_of_inYears hd hyears
      cases hu.symm.trans h
    · rcases parseTs_of_not_denotes (not_exists.mp hd) with ⟨-, h'⟩ | h' | h' <;>
        cases h'.symm.trans h
  · rintro ⟨d, hd, hyears⟩
    rw [hd.parseTs, toUtc_of_not_inYears hyears]
    rfl

lemma safeTs_ok_iff (value : Json) : (∃ d, safeTs value = .ok d) ↔ ¬OutOfYears value := by
  rw [← parseTs_overflow_iff]
  unfold safeTs
  cases h : parseTs value with
  | ok d => simp
  | error e => rcases parseTs_error h with rfl | rfl | rfl <;> simp

/-- A bound is rejected unless it is out of range. -/
lemma parseBound_escapes_iff (value : Json) :
    (∃ e, parseBound value = .error (.escaped e)) ↔ OutOfYears value := by
  rw [← parseTs_overflow_iff]
  unfold parseBound
  cases h : parseTs value with
  | ok d => simp
  | error e => rcases parseTs_error h with rfl | rfl | rfl <;> simp

/-! ## The remaining fields -/

/-- The values that `str()` is applied to, whatever type they come in. -/
def printed (raw : List (String × Json)) : List Json :=
  [orElse (field raw "id") (.str ""), (raw.lookup "level").getD (.str "DEFAULT"),
    orElse (field (mapping raw "traceMetadata") "team") (.str ""),
    orElse (field raw "traceName") (.str ""), orElse (field raw "providedModelName") (.str ""),
    orElse (field raw "internalModelId") (.str ""),
    orElse (orElse (field (mapping raw "traceMetadata") "env") (field raw "environment")) (.str "")]
    ++ match field (mapping raw "metadata") "error" with
      | .obj fields => [orElse (field fields "type") (.str "")]
      | _ => []

/-- Every optional field of a record converts: neither a cost nor a counter is too large for its
type, and no time is outside the years that a datetime has. -/
structure FieldsConvert (raw : List (String × Json)) : Prop where
  cost : ¬Overflows (field (mapping raw "costDetails") "total")
  completion : ¬OutOfYears (field raw "completionStartTime")
  input : CountsConvert [field raw "inputUsage", field (mapping raw "usageDetails") "input"]
  output : CountsConvert [field raw "outputUsage", field (mapping raw "usageDetails") "output"]
  total : CountsConvert [field raw "totalUsage", field (mapping raw "usageDetails") "total"]
  cacheRead : CountsConvert [field (mapping raw "usageDetails") "cache_read_input_tokens"]
  texts : ∀ value ∈ printed raw, Printable value

lemma errorOf_ok_iff (value : Json) : (∃ error, errorOf value = .ok error) ↔
    ∀ v ∈ (match value with
      | .obj fields => [orElse (field fields "type") (.str "")]
      | _ => []), Printable v := by
  cases value with
  | obj fields =>
    rw [errorOf, exists_bind_ok, List.forall_mem_singleton, ← toStr_ok_iff]
    simp [pure, Except.pure]
  | _ => exact iff_of_true ⟨_, rfl⟩ (by simp)

theorem parseFields_ok_iff {raw : List (String × Json)} {start endTime : DateTime}
    (hs : start.IsUtc) (he : endTime.IsUtc) (ho : start.instant ≤ endTime.instant) :
    (∃ obs, parseFields raw start endTime hs he ho = .ok obs) ↔ FieldsConvert raw := by
  simp only [parseFields, exists_bind_ok, pure, Except.pure, Except.ok.injEq, exists_eq',
    and_true, exists_and_right, strOrEmpty, toStr_ok_iff, costOf_ok_iff, safeTs_ok_iff,
    intOf_ok_iff, errorOf_ok_iff]
  constructor
  · rintro ⟨hcost, herror, hid, hlevel, hteam, hroute, hmodel, hinternal, henv, hcompletion,
      hinput, houtput, htotal, hread⟩
    refine ⟨hcost, hcompletion, hinput, houtput, htotal, hread, ?_⟩
    simp only [printed, List.forall_mem_append, List.forall_mem_cons]
    exact ⟨⟨hid, hlevel, hteam, hroute, hmodel, hinternal, henv, nofun⟩, herror⟩
  · intro h
    have htexts := h.texts
    simp only [printed, List.forall_mem_append, List.forall_mem_cons] at htexts
    obtain ⟨⟨hid, hlevel, hteam, hroute, hmodel, hinternal, henv, -⟩, herror⟩ := htexts
    exact ⟨h.cost, herror, hid, hlevel, hteam, hroute, hmodel, hinternal, henv, h.completion,
      h.input, h.output, h.total, h.cacheRead⟩

/-! ## Parsing -/

/-- Every conversion that the parser reaches returns. Those behind a field that already makes the
record malformed are not reached. -/
structure Convertible (raw : List (String × Json)) : Prop where
  start : ¬OutOfYears (field raw "startTime")
  endTime : Readable (field raw "startTime") → ¬OutOfYears (field raw "endTime")
  fields : ∀ start endTime, Denotes (field raw "startTime") start →
    Denotes (field raw "endTime") endTime → InYears start → InYears endTime →
    start.instant ≤ endTime.instant → FieldsConvert raw

/-- The bounds escape in turn: the end is read once the start was. -/
lemma escapes_of_unbounded {raw : List (String × Json)}
    (h : ∀ start endTime, parseTs (field raw "startTime") = .ok (some start) →
      parseTs (field raw "endTime") ≠ .ok (some endTime)) :
    (∃ e, parseObservation (.obj raw) = .error (.escaped e)) ↔
      OutOfYears (field raw "startTime") ∨
        Readable (field raw "startTime") ∧ OutOfYears (field raw "endTime") := by
  rw [parseObservation_unbounded h, ← parseBound_escapes_iff, ← parseBound_escapes_iff,
    ← parseTs_ok_iff]
  simp only [← parseBound_eq_ok]
  cases parseBound (field raw "startTime") with
  | error e => simp [bind, Except.bind]
  | ok d =>
    cases parseBound (field raw "endTime") with
    | error e => simp [bind, Except.bind]
    | ok d' => simp [bind, Except.bind]

/-- Between two bounds it is the remaining fields that can escape. -/
lemma escapes_of_bounded {raw : List (String × Json)} {start endTime : DateTime}
    (h1 : parseTs (field raw "startTime") = .ok (some start))
    (h2 : parseTs (field raw "endTime") = .ok (some endTime)) :
    (∃ e, parseObservation (.obj raw) = .error (.escaped e)) ↔
      start.instant ≤ endTime.instant ∧ ¬FieldsConvert raw := by
  rw [parseObservation_bounded h1 h2]
  split_ifs with ho
  · simp [not_le.mpr ho]
  · rw [← parseFields_ok_iff (parseTs_utc h1) (parseTs_utc h2) (not_lt.mp ho),
      and_iff_right (not_lt.mp ho)]
    cases parseFields raw start endTime (parseTs_utc h1) (parseTs_utc h2) (not_lt.mp ho) <;>
      simp [Except.mapError]

/-- Nothing but a rejection stops the parser exactly when every conversion it reaches
returns. -/
theorem parseObservation_escapes_iff (raw : List (String × Json)) :
    (∃ e, parseObservation (.obj raw) = .error (.escaped e)) ↔ ¬Convertible raw := by
  by_cases hex : ∃ start endTime, parseTs (field raw "startTime") = .ok (some start) ∧
      parseTs (field raw "endTime") = .ok (some endTime)
  · obtain ⟨start, endTime, h1, h2⟩ := hex
    obtain ⟨d1, hd1, hy1, hi1⟩ := denotes_of_parseTs h1
    obtain ⟨d2, hd2, hy2, hi2⟩ := denotes_of_parseTs h2
    rw [escapes_of_bounded h1 h2, ← hi1, ← hi2]
    constructor
    · rintro ⟨ho, hfields⟩ hc
      exact hfields (hc.fields d1 d2 hd1 hd2 hy1 hy2 ho)
    · intro hc
      by_contra hnot
      refine hc ⟨?_, ?_, ?_⟩
      · simp [← parseTs_overflow_iff, h1]
      · simp [← parseTs_overflow_iff, h2]
      · intro s e hs he _ _ ho
        rw [(inYears_of_parseTs hs h1).2, (inYears_of_parseTs he h2).2, ← hi1, ← hi2] at ho
        exact of_not_not fun hfields => hnot ⟨ho, hfields⟩
  · have hnot : ∀ start endTime, parseTs (field raw "startTime") = .ok (some start) →
        parseTs (field raw "endTime") ≠ .ok (some endTime) :=
      fun start endTime h1 h2 => hex ⟨start, endTime, h1, h2⟩
    rw [escapes_of_unbounded hnot]
    constructor
    · rintro (h | ⟨h1, h2⟩) hc
      · exact hc.start h
      · exact hc.endTime h1 h2
    · intro hc
      by_contra hout
      rw [not_or, not_and] at hout
      refine hc ⟨hout.1, hout.2, fun s e hs he hs' he' _ => ?_⟩
      obtain ⟨u, hu⟩ := parseTs_of_inYears hs hs'
      obtain ⟨w, hw⟩ := parseTs_of_inYears he he'
      exact absurd hw (hnot u w hu)

/-! ## Sanitised observations -/

/-- What an observation may hold, given the record that it was read from: ordered times, counters
that are not negative, a cost within the doubles that is not negative or else marked as invalid,
and an error of a known type. -/
structure Observation.Sanitised (raw : List (String × Json)) (obs : Observation) : Prop where
  ordered : obs.start.instant ≤ obs.endTime.instant
  counters : ∀ t ∈ [obs.inputTokens, obs.outputTokens, obs.totalTokens, obs.cacheReadTokens],
    (0 : ℤ) ≤ t.val
  cost : ∀ c, obs.costTotal = some c → 0 ≤ c.val ∧ c.val ≤ maxDouble
  invalid : obs.costInvalid = true → obs.costTotal = none
  flagged : BadCost (field (mapping raw "costDetails") "total") → obs.costInvalid = true
  error : obs.error = none ∨ ∃ type ∈ "__unknown__" :: safeTypes, obs.error = some type

omit [Runtime] in
lemma finiteNonneg_eq_some {f : PyFloat} {c : {q : ℚ // 0 ≤ q}} (h : finiteNonneg f = some c) :
    f = .finite c.val ∧ c.val ≤ maxDouble := by
  cases f with
  | finite q =>
    simp only [finiteNonneg] at h
    split_ifs at h with hq
    cases h
    exact ⟨rfl, hq.2⟩
  | _ => cases h

lemma costOf_spec {value : Json} {cost : Option {q : ℚ // 0 ≤ q}} {invalid : Bool}
    (h : costOf value = .ok (cost, invalid)) :
    (∀ c, cost = some c → c.val ≤ maxDouble) ∧ (invalid = true → cost = none) ∧
      (BadCost value → invalid = true) := by
  by_cases hnull : value = .null
  · subst hnull
    cases h
    exact ⟨nofun, nofun, fun hbad => absurd rfl hbad.1⟩
  · rw [costOf_eq hnull] at h
    cases hf : safeFloat value with
    | error e => simp [hf, Except.map] at h
    | ok f =>
      simp only [hf, Except.map, Except.ok.injEq, Prod.mk.injEq] at h
      obtain ⟨rfl, rfl⟩ := h
      refine ⟨fun c hc => ?_, Option.isNone_iff_eq_none.mp, fun hbad => ?_⟩
      · obtain ⟨x, -, hx⟩ := Option.bind_eq_some_iff.mp hc
        exact (finiteNonneg_eq_some hx).2
      · rw [Option.isNone_iff_eq_none, Option.eq_none_iff_forall_ne_some]
        intro c hc
        obtain ⟨x, rfl, hx⟩ := Option.bind_eq_some_iff.mp hc
        obtain ⟨rfl, hle⟩ := finiteNonneg_eq_some hx
        exact hbad.2 c.val ((safeFloat_eq_some _ _).mp hf) ⟨c.property, hle⟩

lemma errorOf_spec {value : Json} {error : Option String} (h : errorOf value = .ok error) :
    error = none ∨ ∃ type ∈ "__unknown__" :: safeTypes, error = some type := by
  cases value with
  | obj fields =>
    obtain ⟨text, -, h⟩ := bind_eq_ok h
    cases h
    refine .inr ⟨_, ?_, rfl⟩
    split_ifs with hsafe
    · exact List.mem_cons_of_mem _ (List.contains_iff_mem.mp hsafe)
    · exact List.mem_cons_self
  | _ =>
    cases h
    exact .inl rfl

lemma parseFields_spec {raw : List (String × Json)} {start endTime : DateTime}
    {hs : start.IsUtc} {he : endTime.IsUtc} {ho : start.instant ≤ endTime.instant}
    {obs : Observation} (h : parseFields raw start endTime hs he ho = .ok obs) :
    costOf (field (mapping raw "costDetails") "total") = .ok (obs.costTotal, obs.costInvalid) ∧
      errorOf (field (mapping raw "metadata") "error") = .ok obs.error := by
  obtain ⟨⟨costTotal, costInvalid⟩, hcost, h⟩ := bind_eq_ok h
  obtain ⟨error, herror, h⟩ := bind_eq_ok h
  -- the other fields are read without a say in these two
  iterate 12 obtain ⟨_, -, h⟩ := bind_eq_ok h
  cases h
  exact ⟨hcost, herror⟩

theorem sanitised_of_ok {raw : List (String × Json)} {obs : Observation}
    (h : parseObservation (.obj raw) = .ok obs) : obs.Sanitised raw := by
  by_cases hex : ∃ start endTime, parseTs (field raw "startTime") = .ok (some start) ∧
      parseTs (field raw "endTime") = .ok (some endTime)
  · obtain ⟨start, endTime, h1, h2⟩ := hex
    rw [parseObservation_bounded h1 h2] at h
    split_ifs at h with ho
    cases hfields : parseFields raw start endTime (parseTs_utc h1) (parseTs_utc h2)
      (not_lt.mp ho) with
    | error e => simp [hfields, Except.mapError] at h
    | ok obs' =>
      obtain rfl : obs' = obs := by simpa [hfields, Except.mapError] using h
      obtain ⟨hcost, herror⟩ := parseFields_spec hfields
      obtain ⟨hfinite, hnone, hbad⟩ := costOf_spec hcost
      exact {
        ordered := obs'.ordered
        counters := fun t _ => Int.natCast_nonneg t.val
        cost := fun c hc => ⟨c.property, hfinite c hc⟩
        invalid := hnone
        flagged := hbad
        error := errorOf_spec herror }
  · have hnot : ∀ start endTime, parseTs (field raw "startTime") = .ok (some start) →
        parseTs (field raw "endTime") ≠ .ok (some endTime) :=
      fun start endTime h1 h2 => hex ⟨start, endTime, h1, h2⟩
    rw [parseObservation_unbounded hnot] at h
    obtain ⟨_, -, h⟩ := bind_eq_ok h
    obtain ⟨_, -, h⟩ := bind_eq_ok h
    cases h

/-! ## The parser as a whole -/

/-- The parser is total up to its rejections, returns on ordered bounds, and
sanitises. -/
structure Hardened (raw : List (String × Json)) : Prop where
  total : ∀ e, parseObservation (.obj raw) = .error e →
    ∃ reason, e = .malformed reason ∧ reason.code ∈ malformedReasons
  returns : ∀ start endTime, Denotes (field raw "startTime") start →
    Denotes (field raw "endTime") endTime → start.instant ≤ endTime.instant →
      ∃ obs, parseObservation (.obj raw) = .ok obs
  sanitised : ∀ obs, parseObservation (.obj raw) = .ok obs → obs.Sanitised raw

/-- Without an escape, ordered bounds leave nothing to reject. -/
lemma returns_of_convertible {raw : List (String × Json)} (hc : Convertible raw)
    {start endTime : DateTime} (hs : Denotes (field raw "startTime") start)
    (he : Denotes (field raw "endTime") endTime) (ho : start.instant ≤ endTime.instant) :
    ∃ obs, parseObservation (.obj raw) = .ok obs := by
  have hs' : InYears start := by_contra fun h => hc.start ⟨start, hs, h⟩
  have he' : InYears endTime :=
    by_contra fun h => hc.endTime (.inr ⟨start, hs, hs'⟩) ⟨endTime, he, h⟩
  obtain ⟨u, hu⟩ := parseTs_of_inYears hs hs'
  obtain ⟨w, hw⟩ := parseTs_of_inYears he he'
  have ho' : ¬w.instant < u.instant := by
    rw [← (inYears_of_parseTs hs hu).2, ← (inYears_of_parseTs he hw).2]
    exact not_lt.mpr ho
  obtain ⟨obs, hobs⟩ := (parseFields_ok_iff (parseTs_utc hu) (parseTs_utc hw)
    (not_lt.mp ho')).mpr (hc.fields start endTime hs he hs' he' ho)
  exact ⟨obs, by rw [parseObservation_bounded hu hw, dif_neg ho', hobs]; rfl⟩

lemma Hardened.not_escaped {raw : List (String × Json)} (h : Hardened raw) (e : PyErr) :
    parseObservation (.obj raw) ≠ .error (.escaped e) := by
  intro he
  obtain ⟨reason, hreason, -⟩ := h.total _ he
  cases hreason

/-- The parser is hardened against a record, which is to say that it returns an observation or a
malformed record and lets no other exception escape, exactly when every conversion that it reaches
returns. -/
theorem hardened_iff (raw : List (String × Json)) : Hardened raw ↔ Convertible raw := by
  constructor
  · intro h
    by_contra hc
    obtain ⟨e, he⟩ := (parseObservation_escapes_iff raw).mpr hc
    exact h.not_escaped e he
  · intro hc
    refine ⟨fun e he => ?_, fun _ _ => returns_of_convertible hc, fun _ => sanitised_of_ok⟩
    cases e with
    | malformed reason => exact ⟨reason, rfl, reason.code_mem⟩
    | escaped e => exact absurd hc ((parseObservation_escapes_iff raw).mp ⟨e, he⟩)

end

/-! ## Escapes -/

/-- What escaped, if anything did. -/
def escapeOf : Except ParseError Observation → Option PyErr
  | .error (.escaped e) => some e
  | _ => none

lemma eq_of_escapeOf {result : Except ParseError Observation} {e : PyErr}
    (h : escapeOf result = some e) : result = .error (.escaped e) := by
  cases result with
  | ok obs => cases h
  | error err =>
    cases err with
    | malformed reason => cases h
    | escaped e' =>
      cases h
      rfl

/-- A record of one second with one more field. -/
def secondWith (key : String) (value : Json) : List (String × Json) :=
  [("startTime", .str "2024-01-01T00:00:00Z"), ("endTime", .str "2024-01-01T00:00:01Z"),
    (key, value)]

/-- A token counter too large for a float, and a first token before the year 1 in UTC: the parser
raises an exception that is not its own for both. -/
theorem odd_field_escapes :
    letI := Runtime.ascii
    let counted := secondWith "inputUsage" (.int (10 ^ 400))
    let completed := secondWith "completionStartTime" (.str "0001-01-01T00:00:00+01:00")
    parseObservation (.obj counted) = .error (.escaped .overflowError) ∧
      parseObservation (.obj completed) = .error (.escaped .overflowError) ∧
      ¬Hardened counted ∧ ¬Hardened completed := by
  let := Runtime.ascii
  intro counted completed
  have hcounted : parseObservation (.obj counted) = .error (.escaped .overflowError) :=
    eq_of_escapeOf (by decide +kernel)
  have hcompleted : parseObservation (.obj completed) = .error (.escaped .overflowError) :=
    eq_of_escapeOf (by decide +kernel)
  exact ⟨hcounted, hcompleted, fun h => h.not_escaped _ hcounted,
    fun h => h.not_escaped _ hcompleted⟩

end InferenceControlPlane.Sli
