import Mathlib.Data.List.Sort
import InferenceControlPlane.Sli.Emit
import InferenceControlPlane.Sli.Reconcile

/-!
# Reading an OTLP document back

A collector reads the document by its structure: a metric is a histogram, a
monotonic delta sum or a gauge, and each of its data points carries attributes.
What it reads is what the points said. The buckets of a histogram are well formed
exactly when its bounds compare as numbers do.
-/
namespace InferenceControlPlane.Sli
open Python

/-- `OtelJsonExporter.build_payload`: the governance check of every point, and then the
document. -/
def buildPayload (settings : OtlpSettings) (points : List MetricPoint) : Except PyErr Json := do
  assertAllowed points
  return toOtlp settings points

/-! ## The collector's reading -/

structure DecodedHistogram where
  bounds : List PyFloat
  bucketCounts : List ℕ
  sum : ℚ
  count : ℕ
  min : Option ℚ
  max : Option ℚ

/-- One data point together with the metric it belongs to, as a collector reads it from the
document. -/
structure Decoded where
  name : String
  unit : String
  type : MetricType
  dims : String → Option String
  value : Option Number
  histogram : Option DecodedHistogram

namespace Decode

def member (key : String) : Json → Option Json
  | .obj fields => fields.lookup key
  | _ => none

def items : Json → Option (List Json)
  | .arr vs => some vs
  | _ => none

def text : Json → Option String
  | .str s => some s
  | _ => none

def decimal (digits : List Char) : Option ℕ :=
  if digits ≠ [] ∧ digits.all Char.isDigit then some (Nat.ofDigitChars 10 digits 0) else none

/-- A 64-bit integer, which the JSON mapping writes as a string of digits. -/
def integer (v : Json) : Option ℕ := (text v).bind fun s => decimal s.toList

def double : Json → Option PyFloat
  | .float x => some x
  | _ => none

def rational : Json → Option ℚ
  | .float (.finite q) => some q
  | _ => none

/-- What the `asDouble` of a point reads as: a number, or null for a point without a value. -/
def number : Json → Option (Option Number)
  | .null => some none
  | .int n => some (some (.int n))
  | .float (.finite q) => some (some (.float q))
  | _ => none

def textAt (key : String) (v : Json) : Option String := (member key v).bind text

/-- An optional statistic: absent, or a finite number. -/
def statistic (key : String) (v : Json) : Option (Option ℚ) :=
  match member key v with
  | none => some none
  | some w => (rational w).map some

/-- The concatenated readings of the items under a key. -/
def each {α : Type} (key : String) (read : Json → Option (List α)) (v : Json) :
    Option (List α) := do
  let parts ← (← (member key v).bind items).mapM read
  return parts.flatten

def keyValue (v : Json) : Option (String × String) := do
  let key ← textAt "key" v
  let value ← (member "value" v).bind (textAt "stringValue")
  return (key, value)

/-- The attributes as a map. -/
def attributes (v : Json) : Option (String → Option String) := do
  let entries ← (← (member "attributes" v).bind items).mapM keyValue
  return fun key => lookupEntry key entries

def histogramPoint (v : Json) : Option DecodedHistogram := do
  let bounds ← (← (member "explicitBounds" v).bind items).mapM double
  let counts ← (← (member "bucketCounts" v).bind items).mapM integer
  let sum ← (member "sum" v).bind rational
  let count ← (member "count" v).bind integer
  return ⟨bounds, counts, sum, count, ← statistic "min" v, ← statistic "max" v⟩

def delta (v : Json) : Bool :=
  textAt "aggregationTemporality" v = some "AGGREGATION_TEMPORALITY_DELTA"

def monotonic (v : Json) : Bool :=
  match member "isMonotonic" v with
  | some (.bool b) => b
  | _ => false

def bucketed (name unit : String) (v : Json) : Option (List Decoded) := do
  let dims ← attributes v
  return [⟨name, unit, .histogram, dims, none, some (← histogramPoint v)⟩]

def valued (name unit : String) (type : MetricType) (v : Json) : Option (List Decoded) := do
  let dims ← attributes v
  return [⟨name, unit, type, dims, ← (member "asDouble" v).bind number, none⟩]

/-- The three shapes of a metric, by the bodies found under their keys; exactly one
must be there. -/
def shape (name unit : String) : Option Json → Option Json → Option Json → Option (List Decoded)
  | some histogram, none, none =>
    if delta histogram then each "dataPoints" (bucketed name unit) histogram else none
  | none, some sum, none =>
    if delta sum && monotonic sum then each "dataPoints" (valued name unit .counter) sum else none
  | none, none, some gauge => each "dataPoints" (valued name unit .gauge) gauge
  | _, _, _ => none

def metric (v : Json) : Option (List Decoded) := do
  let name ← textAt "name" v
  let unit ← textAt "unit" v
  shape name unit (member "histogram" v) (member "sum" v) (member "gauge" v)

def document : Json → Option (List Decoded) :=
  each "resourceMetrics" (each "scopeMetrics" (each "metrics" metric))

/-! ### Each reader undoes its writer -/

@[simp] theorem member_obj (key : String) (fields : List (String × Json)) :
    member key (.obj fields) = fields.lookup key := rfl

@[simp] theorem items_arr (vs : List Json) : items (.arr vs) = some vs := rfl

@[simp] theorem text_str (s : String) : text (.str s) = some s := rfl

@[simp] theorem integer_natText (n : ℕ) : integer (natText n) = some n := by
  have hall : (Nat.toDigits 10 n).all Char.isDigit = true := by
    apply List.all_eq_true.mpr
    intro c hc
    exact Nat.isDigit_of_mem_toDigits (by decide) (by decide) hc
  show decimal (toString n).toList = some n
  rw [Nat.toString_eq_repr, Nat.toList_repr, decimal, if_pos ⟨Nat.toDigits_ne_nil, hall⟩,
    Nat.ofDigitChars_ten_toDigits]

@[simp] theorem double_float (x : PyFloat) : double (.float x) = some x := rfl

@[simp] theorem rational_float (q : ℚ) : rational (.float (.finite q)) = some q := rfl

@[simp] theorem number_valueJson (p : MetricPoint) : number (valueJson p) = some p.value := by
  unfold valueJson
  cases p.value with
  | none => rfl
  | some n => cases n <;> rfl

lemma mapM_write {α β : Type} {read : Json → Option α} {write : β → Json} {value : β → α}
    {xs : List β} (h : ∀ x ∈ xs, read (write x) = some (value x)) :
    (xs.map write).mapM read = some (xs.map value) := by
  induction xs with
  | nil => rfl
  | cons x xs ih =>
    have hrest := ih fun y hy => h y (List.mem_cons_of_mem x hy)
    simp [h x List.mem_cons_self, hrest]

/-- What is read at a key is what was written there, item by item, in the order of the list. -/
theorem each_obj {α β : Type} {key : String} {read : Json → Option (List α)}
    {fields : List (String × Json)} {xs : List β} (write : β → Json) (value : β → List α)
    (hkey : fields.lookup key = some (.arr (xs.map write)))
    (hread : ∀ x ∈ xs, read (write x) = some (value x)) :
    each key read (.obj fields) = some (xs.flatMap value) := by
  simp [each, hkey, mapM_write hread, List.flatMap]

theorem each_one {α : Type} {key : String} {read : Json → Option (List α)}
    {fields : List (String × Json)} {v : Json} {found : List α}
    (hkey : fields.lookup key = some (.arr [v])) (hread : read v = some found) :
    each key read (.obj fields) = some found := by
  simp [each, hkey, hread]

/-- Lookups do not depend on the order of the entries. -/
lemma lookupEntry_perm {es es' : List (String × String)} (h : es'.Perm es)
    (hn : (es.map Prod.fst).Nodup) (key : String) :
    lookupEntry key es' = lookupEntry key es := by
  have hn' : (es'.map Prod.fst).Nodup := (h.map Prod.fst).nodup_iff.mpr hn
  cases hl : lookupEntry key es with
  | none =>
    rw [lookupEntry_eq_none] at hl ⊢
    exact fun hm => hl ((h.map Prod.fst).mem_iff.mp hm)
  | some v => exact lookupEntry_of_mem hn' (h.mem_iff.mpr (lookupEntry_eq_some hl))

@[simp] theorem attributes_obj {dims : Dict String String} {fields : List (String × Json)}
    (h : fields.lookup "attributes" = some (attrs dims)) :
    attributes (.obj fields) = some dims.get? := by
  have hperm := List.perm_insertionSort (fun a b : String × String => a.1 ≤ b.1) dims.entries
  have hread : ((dims.entries.insertionSort fun a b => a.1 ≤ b.1).map fun e =>
      Json.obj [("key", .str e.1), ("value", .obj [("stringValue", .str e.2)])]).mapM keyValue =
        some ((dims.entries.insertionSort fun a b => a.1 ≤ b.1).map id) :=
    mapM_write fun e _ => by simp [keyValue, textAt, List.lookup_cons]
  have hget : (fun key => lookupEntry key (dims.entries.insertionSort fun a b => a.1 ≤ b.1)) =
      dims.get? := by
    ext1 key
    exact lookupEntry_perm hperm dims.nodup key
  simp [attributes, h, attrs, hread, hget]

end Decode

/-! ## What the points said -/

def HistogramValue.decoded (h : HistogramValue) : DecodedHistogram :=
  ⟨h.bounds, h.bucketCounts ++ [h.overflow], h.sum, h.count, h.min, h.max⟩

/-- A point as a collector should see it; only a histogram point has a histogram. -/
def MetricPoint.decoded (p : MetricPoint) : Decoded :=
  ⟨p.name, p.unit, p.type, p.dims.get?, p.value,
    if p.type = .histogram then p.histogram.map HistogramValue.decoded else none⟩

namespace Decode

/-- The statistics are the optional last fields. -/
lemma lookup_statistics {fields : List (String × Json)} (min max : Option ℚ)
    (hmin : fields.lookup "min" = none) (hmax : fields.lookup "max" = none) :
    statistic "min" (.obj (fields ++
        (match min with | some m => [("min", .float (.finite m))] | none => []) ++
        (match max with | some m => [("max", .float (.finite m))] | none => []))) = some min ∧
      statistic "max" (.obj (fields ++
        (match min with | some m => [("min", .float (.finite m))] | none => []) ++
        (match max with | some m => [("max", .float (.finite m))] | none => []))) = some max := by
  cases min <;> cases max <;>
    simp [statistic, List.lookup_append, hmin, hmax, List.lookup_cons]

theorem histogramPoint_histogramDataPoint (settings : OtlpSettings) (p : MetricPoint)
    (h : HistogramValue) :
    histogramPoint (histogramDataPoint settings p h) = some h.decoded := by
  have hbounds : (h.bounds.map Json.float).mapM double = some (h.bounds.map id) :=
    mapM_write fun x _ => double_float x
  have hcounts : ((h.bucketCounts ++ [h.overflow]).map natText).mapM integer =
      some ((h.bucketCounts ++ [h.overflow]).map id) :=
    mapM_write fun n _ => integer_natText n
  have hstats : statistic "min" (histogramDataPoint settings p h) = some h.min ∧
      statistic "max" (histogramDataPoint settings p h) = some h.max :=
    lookup_statistics h.min h.max rfl rfl
  rw [List.map_id] at hbounds hcounts
  unfold histogramPoint
  rw [show member "explicitBounds" (histogramDataPoint settings p h) =
      some (.arr (h.bounds.map Json.float)) from rfl,
    show member "bucketCounts" (histogramDataPoint settings p h) =
      some (.arr ((h.bucketCounts ++ [h.overflow]).map natText)) from rfl,
    show member "sum" (histogramDataPoint settings p h) = some (.float (.finite h.sum)) from rfl,
    show member "count" (histogramDataPoint settings p h) = some (natText h.count) from rfl,
    hstats.1, hstats.2]
  simp [-List.map_append, hbounds, hcounts, HistogramValue.decoded]

/-- A histogram point comes with its histogram and no single value. -/
def Shaped (p : MetricPoint) : Prop :=
  p.type = .histogram → p.value = none ∧ ∃ h, p.histogram = some h

lemma valued_point {name unit : String} {type : MetricType} {dims : Dict String String}
    {value : Option Number} {v : Json} {fields : List (String × Json)}
    (hdims : fields.lookup "attributes" = some (attrs dims))
    (hvalue : fields.lookup "asDouble" = some v) (hv : number v = some value) :
    valued name unit type (.obj fields) = some [⟨name, unit, type, dims.get?, value, none⟩] := by
  simp [valued, attributes_obj hdims, hvalue, hv]

lemma metric_eq {name unit : String} {fields : List (String × Json)}
    (hname : textAt "name" (.obj fields) = some name)
    (hunit : textAt "unit" (.obj fields) = some unit) :
    metric (.obj fields) = shape name unit (fields.lookup "histogram") (fields.lookup "sum")
      (fields.lookup "gauge") := by
  simp [metric, hname, hunit]

lemma shape_histogram {name unit : String} {fields : List (String × Json)} {v : Json}
    {found : List Decoded} (hdelta : delta (.obj fields) = true)
    (hpoint : fields.lookup "dataPoints" = some (.arr [v]))
    (hfound : bucketed name unit v = some found) :
    shape name unit (some (.obj fields)) none none = some found := by
  rw [shape, if_pos hdelta]
  exact each_one hpoint hfound

lemma shape_sum {name unit : String} {fields : List (String × Json)} {v : Json}
    {found : List Decoded} (hdelta : (delta (.obj fields) && monotonic (.obj fields)) = true)
    (hpoint : fields.lookup "dataPoints" = some (.arr [v]))
    (hfound : valued name unit .counter v = some found) :
    shape name unit none (some (.obj fields)) none = some found := by
  rw [shape, if_pos hdelta]
  exact each_one hpoint hfound

/-- The case split on the three shapes undoes the case split of `_to_otlp`. -/
theorem metric_otlpMetric (settings : OtlpSettings) {p : MetricPoint} (hp : Shaped p) :
    metric (otlpMetric settings p) = some [p.decoded] := by
  obtain ⟨name, type, unit, dims, value, histogram⟩ := p
  cases type with
  | histogram =>
    obtain ⟨hvalue, h, hhist⟩ := hp rfl
    subst hvalue hhist
    show metric (.obj _) = _
    rw [metric_eq rfl rfl]
    refine shape_histogram rfl rfl ?_
    rw [bucketed, histogramPoint_histogramDataPoint,
      show attributes (histogramDataPoint _ _ _) = some dims.get? from attributes_obj rfl]
    rfl
  | counter =>
    show metric (.obj _) = _
    rw [metric_eq rfl rfl]
    exact shape_sum rfl rfl (valued_point rfl rfl (number_valueJson _))
  | gauge =>
    show metric (.obj _) = _
    rw [metric_eq rfl rfl]
    exact each_one rfl (valued_point rfl rfl (number_valueJson _))

/-- The document's points are read back in their order, each with its name, its unit and its
dimensions. -/
theorem document_toOtlp (settings : OtlpSettings) {points : List MetricPoint}
    (h : ∀ p ∈ points, Shaped p) :
    document (toOtlp settings points) = some (points.map MetricPoint.decoded) := by
  rw [List.map_eq_flatMap]
  refine each_one rfl (each_one rfl (each_obj (otlpMetric settings) (fun p => [p.decoded]) rfl ?_))
  exact fun p hp => metric_otlpMetric settings (h p hp)

end Decode

/-! ## The bucket dictionary

The source keeps the counts in a dictionary under the bounds and the text "inf",
and reads them out by the bounds. With distinct keys this is the list of counts.
-/

inductive BucketKey where
  | bound (b : PyFloat)
  | inf
  deriving DecidableEq

/-- `counts` of a new accumulator. -/
def emptyBuckets (bounds : List PyFloat) : Dict BucketKey ℕ :=
  (Dict.ofList (bounds.map fun b => (.bound b, 0))).set .inf 0

/-- The key under which a value is counted. -/
def bucketKeyOf (v : ℚ) (bounds : List PyFloat) : BucketKey :=
  match bounds.find? (PyFloat.finite v).le with
  | some b => .bound b
  | none => .inf

/-- The bucket loop of `_HistAcc.add`: the first bound that is not below the value is counted, or
the overflow. -/
def countBucket (bounds : List PyFloat) (buckets : Dict BucketKey ℕ) (v : ℚ) : Dict BucketKey ℕ :=
  buckets.modify (bucketKeyOf v bounds) 0 (· + 1)

/-- `[h["bucket_counts"][b] for b in h["bounds"]]`: the counts in the order of the bounds, not in
that of the keys. -/
def boundCounts (buckets : Dict BucketKey ℕ) (bounds : List PyFloat) : List ℕ :=
  bounds.map fun b => buckets.getD (.bound b) 0

lemma bucketKeyOf_cons (v : ℚ) (b : PyFloat) (bs : List PyFloat) :
    bucketKeyOf v (b :: bs) = if (PyFloat.finite v).le b then .bound b else bucketKeyOf v bs := by
  unfold bucketKeyOf
  split_ifs with h <;> simp [h]

lemma mem_of_bucketKeyOf {v : ℚ} {b : PyFloat} {bs : List PyFloat}
    (h : bucketKeyOf v bs = .bound b) :
    b ∈ bs := by
  unfold bucketKeyOf at h
  cases hfind : bs.find? (PyFloat.finite v).le with
  | none => simp [hfind] at h
  | some b' =>
    rw [hfind] at h
    cases h
    exact List.mem_of_find?_eq_some hfind

/-- Reading by the bounds after one value gives the incremented list. -/
lemma boundCounts_modify (buckets : Dict BucketKey ℕ) (v : ℚ) {bs : List PyFloat}
    (hn : bs.Nodup) :
    boundCounts (buckets.modify (bucketKeyOf v bs) 0 (· + 1)) bs =
      (bumpBucket v bs (boundCounts buckets bs)).1 := by
  induction bs with
  | nil => rfl
  | cons b bs ih =>
    rw [List.nodup_cons] at hn
    have ih := ih hn.2
    rw [bucketKeyOf_cons]
    simp only [boundCounts, List.map_cons, Dict.getD_modify] at ih ⊢
    by_cases hv : (PyFloat.finite v).le b
    · rw [if_pos hv, if_pos rfl, bumpBucket, if_pos hv]
      refine congrArg _ (List.map_congr_left fun b' hb' => if_neg ?_)
      rintro ⟨rfl⟩
      exact hn.1 hb'
    · have hne : bucketKeyOf v bs ≠ .bound b := fun h => hn.1 (mem_of_bucketKeyOf h)
      rw [if_neg hv, if_neg hne, bumpBucket, if_neg hv, ih]

/-- The overflow is counted exactly when no bound is found. -/
lemma bucketKeyOf_eq_inf (v : ℚ) (bs : List PyFloat) (cs : List ℕ) (h : cs.length = bs.length) :
    bucketKeyOf v bs = .inf ↔ (bumpBucket v bs cs).2 = false := by
  induction bs generalizing cs with
  | nil => simp [bucketKeyOf, bumpBucket]
  | cons b bs ih =>
    cases cs with
    | nil => simp at h
    | cons c cs =>
      have ih := ih cs (by simpa using h)
      rw [bucketKeyOf_cons, bumpBucket]
      split_ifs with hv
      · simp
      · exact ih

lemma bounds_foldl (acc : HistAcc) (values : List ℚ) :
    (values.foldl HistAcc.add acc).bounds = acc.bounds := by
  induction values generalizing acc with
  | nil => rfl
  | cons v values ih => exact ih (acc.add v)

lemma getD_emptyBuckets (bounds : List PyFloat) (key : BucketKey) :
    (emptyBuckets bounds).getD key 0 = 0 := by
  rw [emptyBuckets, Dict.getD_set]
  split_ifs
  · rfl
  · unfold Dict.getD
    cases hget : (Dict.ofList (bounds.map fun b => (BucketKey.bound b, 0))).get? key with
    | none => rfl
    | some n =>
      rcases Dict.mem_of_get?_update hget with hm | h
      · obtain ⟨b, -, hb⟩ := List.mem_map.mp hm
        cases hb
        rfl
      · cases h

/-- The dictionary an accumulator keeps over its values holds the counts of the
model, bound by bound and for the overflow. -/
theorem buckets_foldl {bounds : List PyFloat} (hn : bounds.Nodup) (values : List ℚ) :
    boundCounts (values.foldl (countBucket bounds) (emptyBuckets bounds)) bounds =
        (values.foldl HistAcc.add (.new bounds)).counts ∧
      (values.foldl (countBucket bounds) (emptyBuckets bounds)).getD .inf 0 =
        (values.foldl HistAcc.add (.new bounds)).inf := by
  induction values using List.reverseRecOn with
  | nil => exact ⟨List.map_congr_left fun b _ => getD_emptyBuckets bounds (.bound b),
      getD_emptyBuckets bounds .inf⟩
  | append_singleton values v ih =>
    have hbounds := bounds_foldl (.new bounds) values
    have hlength := (values.foldl HistAcc.add (.new bounds)).parallel
    simp only [List.foldl_append, List.foldl_cons, List.foldl_nil]
    generalize values.foldl HistAcc.add (.new bounds) = acc at *
    rw [show acc.bounds = bounds from hbounds] at hlength
    obtain ⟨hcounts, hinf⟩ := ih
    have hflag := bucketKeyOf_eq_inf v bounds acc.counts hlength
    constructor
    · rw [countBucket, boundCounts_modify _ v hn, hcounts]
      simp only [HistAcc.add, hbounds]
      rfl
    · rw [countBucket, Dict.getD_modify]
      simp only [HistAcc.add, show acc.bounds = bounds from hbounds]
      by_cases h : bucketKeyOf v bounds = .inf
      · simp [h, hflag.mp h, hinf]
      · simp [h, Bool.of_not_eq_false (mt hflag.mpr h), hinf]

/-! ## Well-formed histograms -/

/-- What OTLP asks of the data point of a histogram: one count more than bounds, bounds that
increase strictly, and counts that add up to the total. -/
structure DecodedHistogram.WellFormed (h : DecodedHistogram) : Prop where
  buckets : h.bucketCounts.length = h.bounds.length + 1
  increasing : h.bounds.Pairwise fun a b => a.lt b = true
  total : h.bucketCounts.sum = h.count

/-- The point comes from `_acc_to_point`, over a configuration's buckets. -/
def MetricPoint.FromAcc (p : MetricPoint) : Prop :=
  ∃ (cfg : Config) (values : List ℚ) (name : String) (dims : Dict String String),
    p = (values.foldl HistAcc.add (.new cfg.latencyBucketsMs)).toPoint name dims

lemma PyFloat.lt_trans {a b c : PyFloat} (hab : a.lt b = true) (hbc : b.lt c = true) :
    a.lt c = true := by
  cases a <;> cases b <;> cases c <;>
    simp only [PyFloat.lt, decide_eq_true_eq, Bool.false_eq_true] at hab hbc ⊢
  exact hab.trans hbc

lemma PyFloat.lt_of_not_lt {a b : PyFloat} (ha : a ≠ .nan) (hb : b ≠ .nan)
    (hlt : b.lt a = false) (heq : a.eq b = false) : a.lt b = true := by
  cases a <;> cases b <;>
    simp only [PyFloat.lt, PyFloat.eq, decide_eq_false_iff_not, not_lt, decide_eq_true_eq,
      Bool.true_eq_false, ne_eq, not_true_eq_false] at *
  exact lt_of_le_of_ne hlt heq

instance PyFloat.transLt : Trans (fun a b : PyFloat => a.lt b = true)
    (fun a b => a.lt b = true) (fun a b => a.lt b = true) := ⟨PyFloat.lt_trans⟩

lemma PyFloat.not_lt_nan (a : PyFloat) : a.lt .nan = false := by cases a <;> rfl

/-- The checks of `Config` order the bounds strictly unless one of several is NaN,
which compares as neither smaller nor equal. -/
theorem Config.increasing_iff (cfg : Config) :
    (cfg.latencyBucketsMs.Pairwise fun a b => a.lt b = true) ↔
      cfg.latencyBucketsMs.length ≤ 1 ∨ .nan ∉ cfg.latencyBucketsMs := by
  constructor
  · intro h
    cases hbounds : cfg.latencyBucketsMs with
    | nil => exact Or.inr List.not_mem_nil
    | cons b bs =>
      rw [hbounds, List.pairwise_cons] at h
      refine or_iff_not_imp_left.mpr fun hlength hmem => ?_
      rcases List.mem_cons.mp hmem with rfl | hmem
      · cases bs with
        | nil => exact hlength le_rfl
        | cons b' bs => cases h.1 b' List.mem_cons_self
      · have hlt := h.1 _ hmem
        rw [PyFloat.not_lt_nan] at hlt
        cases hlt
  · rintro (hlength | hnan)
    · cases hbounds : cfg.latencyBucketsMs with
      | nil => exact List.Pairwise.nil
      | cons b bs =>
        have hbs : bs = [] := by simpa [hbounds] using hlength
        rw [hbs]
        exact List.pairwise_singleton _ b
    · rw [← List.isChain_iff_pairwise, List.isChain_iff_getElem]
      intro i hi
      have hne : ∀ b ∈ cfg.latencyBucketsMs, b ≠ .nan := fun b hb h => hnan (h ▸ hb)
      exact PyFloat.lt_of_not_lt (hne _ (List.getElem_mem _)) (hne _ (List.getElem_mem _))
        (List.isChain_iff_getElem.mp cfg.buckets_sorted i hi)
        (List.pairwise_iff_getElem.mp cfg.buckets_distinct i (i + 1) _ hi (Nat.lt_succ_self i))

lemma balanced_foldl (bounds : List PyFloat) (values : List ℚ) :
    (values.foldl HistAcc.add (.new bounds)).Balanced := by
  induction values using List.reverseRecOn with
  | nil => exact HistAcc.balanced_new bounds
  | append_singleton values v ih =>
    rw [List.foldl_append]
    exact ih.add v

/-- Everything but the order of the bounds holds for any configuration; the order is what the
checks of `Config` leave open. -/
theorem MetricPoint.FromAcc.wellFormed_iff {p : MetricPoint} (hp : p.FromAcc) :
    ∃ h, p.histogram = some h ∧ p.value = none ∧ p.type = .histogram ∧
      (h.decoded.WellFormed ↔ h.bounds.length ≤ 1 ∨ .nan ∉ h.bounds) := by
  obtain ⟨cfg, values, name, dims, rfl⟩ := hp
  have hbounds : (values.foldl HistAcc.add (.new cfg.latencyBucketsMs)).bounds =
      cfg.latencyBucketsMs := bounds_foldl _ values
  have hbalanced := (balanced_foldl cfg.latencyBucketsMs values).counts
  have hlength := (values.foldl HistAcc.add (.new cfg.latencyBucketsMs)).parallel
  refine ⟨_, rfl, rfl, rfl, fun h => ?_, fun h => ⟨?_, ?_, ?_⟩⟩
  · have hlt := h.increasing
    simp only [HistogramValue.decoded, hbounds] at hlt ⊢
    exact cfg.increasing_iff.mp hlt
  · simp [HistogramValue.decoded, hlength]
  · simp only [HistogramValue.decoded, hbounds] at h ⊢
    exact cfg.increasing_iff.mpr h
  · simpa [HistogramValue.decoded] using hbalanced

/-! ## The round trip -/

/-- The document is read back as the points it was built from, and its histograms
are well formed. -/
def Lossless (settings : OtlpSettings) (points : List MetricPoint) : Prop :=
  ∃ doc decoded, buildPayload settings points = .ok doc ∧ Decode.document doc = some decoded ∧
    decoded = points.map MetricPoint.decoded ∧
    ∀ d ∈ decoded, ∀ h, d.histogram = some h → h.WellFormed

lemma buildPayload_of_allowed {settings : OtlpSettings} {points : List MetricPoint}
    (h : assertAllowed points = .ok ()) :
    buildPayload settings points = .ok (toOtlp settings points) := by
  rw [buildPayload, h]
  rfl

/-- Reading back needs no assumption on the buckets, so the histograms decide. -/
lemma lossless_iff_wellFormed {settings : OtlpSettings} {points : List MetricPoint}
    (hallowed : assertAllowed points = .ok ())
    (hacc : ∀ p ∈ points, p.type = .histogram → p.FromAcc) :
    Lossless settings points ↔
      ∀ p ∈ points, ∀ h, p.decoded.histogram = some h → h.WellFormed := by
  have hread : Decode.document (toOtlp settings points) =
      some (points.map MetricPoint.decoded) := by
    apply Decode.document_toOtlp
    intro p hp htype
    obtain ⟨h, hhist, hvalue, -⟩ := (hacc p hp htype).wellFormed_iff
    exact ⟨hvalue, h, hhist⟩
  constructor
  · rintro ⟨doc, decoded, -, -, rfl, hwf⟩ p hp
    exact hwf _ (List.mem_map_of_mem hp)
  · intro h
    refine ⟨_, _, buildPayload_of_allowed hallowed, hread, rfl, fun d hd => ?_⟩
    obtain ⟨p, hp, rfl⟩ := List.mem_map.mp hd
    exact h p hp

/-- The serialization is lossless, which is to say that the document is read back as the points it
was built from and its histograms are well formed, exactly when no histogram has NaN among several
bounds. -/
theorem lossless_iff (settings : OtlpSettings) {points : List MetricPoint}
    (hallowed : assertAllowed points = .ok ())
    (hacc : ∀ p ∈ points, p.type = .histogram → p.FromAcc) :
    Lossless settings points ↔
      ∀ p ∈ points, p.type = .histogram → ∀ h, p.histogram = some h →
        h.bounds.length ≤ 1 ∨ .nan ∉ h.bounds := by
  rw [lossless_iff_wellFormed hallowed hacc]
  refine forall₂_congr fun p hp => ?_
  by_cases htype : p.type = .histogram
  · obtain ⟨h, hhist, -, -, hwf⟩ := (hacc p hp htype).wellFormed_iff
    simp [MetricPoint.decoded, htype, hhist, hwf]
  · simp [MetricPoint.decoded, htype]

def sampleDims : Dict String String where
  entries := [("team", "KYC"), ("route", "advisorchat-turn"), ("model_family", "gpt-5"),
    ("env", "prod")]
  nodup := by decide

/-- A histogram with a value in its overflow. -/
def sampleHistogram : MetricPoint :=
  ([120, 40000].foldl HistAcc.add (.new Config.default.latencyBucketsMs)).toPoint
    "gateway.request.duration" sampleDims

def samplePoints : List MetricPoint :=
  [sampleHistogram, counter "gateway.pipeline.malformed_records" 3 .empty,
    gauge "gateway.pipeline.freshness_seconds" (1 / 2) "s"]

def sampleSettings : OtlpSettings :=
  ⟨"http://collector:4318/v1/metrics", 0, 1000, "1.0.14", some "prod", 3⟩

theorem lossless_iff_sample : Lossless sampleSettings samplePoints := by
  have hacc : sampleHistogram.FromAcc := ⟨.default, [120, 40000], _, _, rfl⟩
  have hnan : ∀ h, sampleHistogram.histogram = some h → .nan ∉ h.bounds := by
    intro h hh
    cases hh
    decide +kernel
  refine (lossless_iff sampleSettings (by decide +kernel) ?_).mpr ?_
  · exact List.forall_mem_cons.mpr ⟨fun _ => hacc, List.forall_mem_cons.mpr
      ⟨nofun, List.forall_mem_singleton.mpr nofun⟩⟩
  · exact List.forall_mem_cons.mpr ⟨fun _ h hh => Or.inr (hnan h hh),
      List.forall_mem_cons.mpr
      ⟨nofun, List.forall_mem_singleton.mpr nofun⟩⟩

def nanBounds : List PyFloat := [.finite 100, .nan, .finite 50]

lemma nanBounds_nonempty : nanBounds ≠ [] := by decide

lemma nanBounds_pos : ∀ b ∈ nanBounds, b.le (.finite 0) = false := by decide +kernel

lemma nanBounds_sorted : nanBounds.IsChain fun a b => b.lt a = false := by decide +kernel

lemma nanBounds_distinct : nanBounds.Pairwise fun a b => a.eq b = false := by decide +kernel

/-- The checks of `Config` let a NaN bound through: it is not below zero, it does not
move under sorting and it equals no other bound. -/
def nanBuckets : Config :=
  { Config.default with
    latencyBucketsMs := nanBounds
    buckets_nonempty := nanBounds_nonempty
    buckets_pos := nanBounds_pos
    buckets_sorted := nanBounds_sorted
    buckets_distinct := nanBounds_distinct }

def nanPoint : MetricPoint :=
  ([70].foldl HistAcc.add (.new nanBuckets.latencyBucketsMs)).toPoint "gateway.request.duration"
    sampleDims

/-- The bounds that the checks let through need not increase: the point of one request is allowed
and comes from the aggregation, but its document does not read back as a well-formed histogram. -/
theorem unordered_bounds_exported :
    assertAllowed [nanPoint] = .ok () ∧ nanPoint.FromAcc ∧
      ¬ Lossless sampleSettings [nanPoint] := by
  have hallowed : assertAllowed [nanPoint] = .ok () := by decide +kernel
  have hacc : nanPoint.FromAcc := ⟨nanBuckets, [70], _, _, rfl⟩
  have hbounds : nanPoint.histogram.map HistogramValue.bounds =
      some [.finite 100, .nan, .finite 50] := by decide +kernel
  refine ⟨hallowed, hacc, fun hlossless => ?_⟩
  rw [lossless_iff_wellFormed hallowed (List.forall_mem_singleton.mpr fun _ => hacc)]
    at hlossless
  obtain ⟨h, hhist, -, htype, -⟩ := hacc.wellFormed_iff
  have hwf : h.decoded.WellFormed :=
    hlossless _ List.mem_cons_self _ (by rw [MetricPoint.decoded, if_pos htype, hhist]; rfl)
  have hlt := hwf.increasing
  rw [hhist, Option.map_some, Option.some.injEq] at hbounds
  rw [HistogramValue.decoded, hbounds] at hlt
  cases (List.pairwise_cons.mp hlt).1 .nan List.mem_cons_self

end InferenceControlPlane.Sli
