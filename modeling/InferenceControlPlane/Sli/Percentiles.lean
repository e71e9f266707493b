import InferenceControlPlane.Sli.Aggregator
import Mathlib.Data.List.Sort
import Mathlib.Data.Rat.Floor
import Mathlib.Tactic.FieldSimp
import Mathlib.Tactic.Linarith
import Mathlib.Tactic.Positivity

/-!
# Bucket percentiles

The loop of `_hist_percentile` runs along the bounds with the values that are left, an
edge below them, and the number of those that it has passed. The estimate stays in the
bucket of the value that has the rank of the percentile, and grows with it.
-/
namespace InferenceControlPlane.Sli
open Python

/-! ## Counts -/

/-- The accumulator of some values. -/
def histogramOf (bounds : List PyFloat) (values : List ℚ) : HistAcc :=
  values.foldl HistAcc.add (.new bounds)

/-- The values that a bound takes, and those that it leaves to the next. -/
def within (b : PyFloat) (values : List ℚ) : List ℚ :=
  values.filter fun v => (PyFloat.finite v).le b

def beyond (b : PyFloat) (values : List ℚ) : List ℚ :=
  values.filter fun v => !(PyFloat.finite v).le b

/-- The bucket counts of some values. -/
def tally : List PyFloat → List ℚ → List ℕ
  | [], _ => []
  | b :: bs, values => (within b values).length :: tally bs (beyond b values)

lemma mem_within {b : PyFloat} {values : List ℚ} {v : ℚ} :
    v ∈ within b values ↔ v ∈ values ∧ (PyFloat.finite v).le b = true := List.mem_filter

lemma mem_beyond {b : PyFloat} {values : List ℚ} {v : ℚ} :
    v ∈ beyond b values ↔ v ∈ values ∧ (PyFloat.finite v).le b = false := by
  simp [beyond]

lemma length_within_add (b : PyFloat) (values : List ℚ) :
    (within b values).length + (beyond b values).length = values.length := by
  rw [within, beyond, ← List.length_eq_length_filter_add]

lemma histogramOf_snoc (bounds : List PyFloat) (values : List ℚ) (v : ℚ) :
    histogramOf bounds (values ++ [v]) = (histogramOf bounds values).add v := by
  rw [histogramOf, List.foldl_append]
  rfl

lemma bounds_histogramOf (bounds : List PyFloat) (values : List ℚ) :
    (histogramOf bounds values).bounds = bounds := by
  induction values using List.reverseRecOn with
  | nil => rfl
  | append_singleton values v ih =>
    rw [histogramOf_snoc]
    exact ih

lemma tally_snoc (bounds : List PyFloat) (values : List ℚ) (v : ℚ) :
    tally bounds (values ++ [v]) = (bumpBucket v bounds (tally bounds values)).1 := by
  induction bounds generalizing values with
  | nil => rfl
  | cons b bounds ih =>
    by_cases hv : (PyFloat.finite v).le b = true
    · simp [tally, within, beyond, bumpBucket, hv]
    · simp [tally, within, beyond, bumpBucket, hv] at ih ⊢
      exact ih _

theorem counts_histogramOf (bounds : List PyFloat) (values : List ℚ) :
    (histogramOf bounds values).counts = tally bounds values := by
  induction values using List.reverseRecOn with
  | nil =>
    have hempty : tally bounds [] = bounds.map fun _ => 0 := by
      induction bounds with
      | nil => rfl
      | cons b bounds ih => exact congrArg (0 :: ·) ih
    exact hempty.symm
  | append_singleton values v ih =>
    rw [histogramOf_snoc, tally_snoc, ← ih]
    show (bumpBucket v (histogramOf bounds values).bounds _).1 = _
    rw [bounds_histogramOf]

lemma count_histogramOf (bounds : List PyFloat) (values : List ℚ) :
    (histogramOf bounds values).count = values.length := by
  induction values using List.reverseRecOn with
  | nil => rfl
  | append_singleton values v ih =>
    rw [histogramOf_snoc, List.length_append, List.length_singleton, ← ih]
    rfl

/-- The observed extremes. -/
theorem extremes_histogramOf (bounds : List PyFloat) {values : List ℚ} (hne : values ≠ []) :
    ∃ lo hi, (histogramOf bounds values).min = some lo ∧ (histogramOf bounds values).max = some hi ∧
      IsLeast {v | v ∈ values} lo ∧ IsGreatest {v | v ∈ values} hi := by
  induction values using List.reverseRecOn with
  | nil => exact absurd rfl hne
  | append_singleton values v ih =>
    rw [histogramOf_snoc]
    have hset : {w | w ∈ values ++ [v]} = insert v {w | w ∈ values} := by
      ext w
      simp [or_comm]
    rw [hset]
    by_cases hempty : values = []
    · subst hempty
      exact ⟨v, v, rfl, rfl, by simp, by simp⟩
    · obtain ⟨lo, hi, hmin, hmax, hlo, hhi⟩ := ih hempty
      refine ⟨Min.min v lo, Max.max v hi, ?_, ?_, hlo.insert v, hhi.insert v⟩
      · simp only [HistAcc.add, hmin, Option.some.injEq, min_def]
        split_ifs <;> linarith
      · simp only [HistAcc.add, hmax, Option.some.injEq, max_def]
        split_ifs <;> linarith

/-! ## Sorted values -/

abbrev sorted (values : List ℚ) : List ℚ := values.insertionSort (· ≤ ·)

lemma length_sorted (values : List ℚ) : (sorted values).length = values.length :=
  (List.perm_insertionSort _ _).length_eq

lemma mem_sorted {values : List ℚ} {v : ℚ} : v ∈ sorted values ↔ v ∈ values :=
  (List.perm_insertionSort _ _).mem_iff

/-- What a bound takes comes first. -/
lemma sorted_split (b : PyFloat) (values : List ℚ) :
    sorted values = sorted (within b values) ++ sorted (beyond b values) := by
  have hsorted : ∀ vs : List ℚ, (sorted vs).Pairwise (· ≤ ·) :=
    fun vs => List.pairwise_insertionSort (· ≤ ·) vs
  apply List.Perm.eq_of_pairwise (fun _ _ _ _ => le_antisymm) (hsorted values)
  · refine List.pairwise_append.mpr ⟨hsorted _, hsorted _, fun v hv w hw => ?_⟩
    have hv := (mem_within.mp (mem_sorted.mp hv)).2
    have hw := (mem_beyond.mp (mem_sorted.mp hw)).2
    by_contra hlt
    cases b with
    | finite q =>
      simp only [PyFloat.le, decide_eq_true_eq, decide_eq_false_iff_not] at hv hw
      linarith
    | inf => cases hw
    | negInf => cases hv
    | nan => cases hv
  · have hparts : (within b values ++ beyond b values).Perm values :=
      List.filter_append_perm _ _
    exact (List.perm_insertionSort _ _).trans (hparts.symm.trans
      ((List.perm_insertionSort _ _).append (List.perm_insertionSort _ _)).symm)

/-! ## The loop -/

/-- The estimate of the loop from a bound on, with the overflow. -/
def estimateFrom (lo hi target : ℚ) (bounds : List PyFloat) (values : List ℚ) (cum : ℕ)
    (prev : PyFloat) : PyFloat :=
  (HistAcc.bucketEstimate (some lo) (some hi) target (bounds.zip (tally bounds values)) cum
    prev).getD (.finite hi)

/-- What holds when the loop comes to some bounds with some values left: an edge lies
below the values, the observed minimum before any value was passed, the last bound after. -/
structure AtEdge (lo hi : ℚ) (cum : ℕ) (prev : PyFloat) (edge : ℚ) (bounds : List PyFloat)
    (values : List ℚ) : Prop where
  ascending : bounds.Pairwise fun a b => a.lt b = true
  ordered : ∀ b ∈ bounds, b ≠ .nan
  passed : cum ≠ 0 → ∀ b ∈ bounds, prev.lt b = true
  first : cum = 0 → lo ∈ values
  lower : (if (cum : ℚ) = 0 then prev.max (.finite lo) else prev) = .finite edge
  left : values ≠ []
  above : ∀ v ∈ values, edge ≤ v
  range : ∀ v ∈ values, lo ≤ v ∧ v ≤ hi

lemma PyFloat.lt_of_not_le {v : ℚ} {b : PyFloat} (hb : b ≠ .nan)
    (h : (PyFloat.finite v).le b = false) : b.lt (.finite v) = true := by
  cases b with
  | finite q => simpa [PyFloat.lt, PyFloat.le] using h
  | inf => cases h
  | negInf => rfl
  | nan => exact absurd rfl hb

lemma PyFloat.le_of_lt {a b : PyFloat} (h : a.lt b = true) : a.le b = true := by
  cases a <;> cases b <;> simp_all [PyFloat.lt, PyFloat.le]
  exact h.le

lemma PyFloat.not_lt_of_le {v : ℚ} {b : PyFloat} (h : (PyFloat.finite v).le b = true) :
    b.lt (.finite v) ≠ true := by
  cases b <;> simp_all [PyFloat.lt, PyFloat.le]

lemma PyFloat.le_of_le_lt {x : ℚ} {a b : PyFloat} (h : (PyFloat.finite x).le a = true)
    (hab : a.lt b = true) : (PyFloat.finite x).le b = true := by
  cases a <;> cases b <;> simp_all [PyFloat.lt, PyFloat.le]
  exact h.trans hab.le

lemma PyFloat.le_of_finite_le {x y : ℚ} {b : PyFloat} (hxy : x ≤ y)
    (h : (PyFloat.finite y).le b = true) : (PyFloat.finite x).le b = true := by
  cases b <;> simp_all [PyFloat.le]
  exact hxy.trans h

lemma PyFloat.le_finite_of_le {x y : ℚ} {b : PyFloat} (h : b.le (.finite x) = true)
    (hxy : x ≤ y) : b.le (.finite y) = true := by
  cases b <;> simp_all [PyFloat.le]
  exact h.trans hxy

section
variable {lo hi edge : ℚ} {cum : ℕ} {prev b : PyFloat} {bounds : List PyFloat} {values : List ℚ}

lemma estimateFrom_beyond {target : ℚ}
    (h : ¬((0 : ℕ) < (within b values).length ∧ target ≤ cum + (within b values).length)) :
    estimateFrom lo hi target (b :: bounds) values cum prev =
      estimateFrom lo hi target bounds (beyond b values) (cum + (within b values).length) b := by
  unfold estimateFrom
  rw [tally, List.zip_cons_cons, HistAcc.bucketEstimate, if_neg h, Nat.cast_add]

/-- In a bucket with values the estimate is a straight line from the edge. -/
theorem estimateFrom_within (h : AtEdge lo hi cum prev edge (b :: bounds) values)
    (hin : within b values ≠ []) :
    ∃ upper, edge ≤ upper ∧ upper ≤ hi ∧ (PyFloat.finite upper).le b = true ∧
      ∀ target : ℚ, target ≤ cum + (within b values).length →
        estimateFrom lo hi target (b :: bounds) values cum prev =
          .finite (edge + (upper - edge) * ((target - cum) / (within b values).length)) := by
  obtain ⟨v, hv⟩ := List.exists_mem_of_ne_nil _ hin
  obtain ⟨hmem, hvb⟩ := mem_within.mp hv
  have hedge := h.above v hmem
  have htop := (h.range v hmem).2
  obtain ⟨upper, hupper, hlow, hhigh, hbound⟩ : ∃ upper, b.min (.finite hi) = .finite upper ∧
      edge ≤ upper ∧ upper ≤ hi ∧ (PyFloat.finite upper).le b = true := by
    unfold PyFloat.min
    by_cases hlt : (PyFloat.finite hi).lt b = true
    · rw [if_pos hlt]
      refine ⟨hi, rfl, hedge.trans htop, le_rfl, ?_⟩
      cases b with
      | finite q =>
        simp only [PyFloat.lt, decide_eq_true_eq] at hlt
        simpa [PyFloat.le] using hlt.le
      | inf => rfl
      | negInf => cases hlt
      | nan => cases hlt
    · rw [if_neg hlt]
      cases b with
      | finite q =>
        simp only [PyFloat.lt, PyFloat.le, decide_eq_true_eq, not_lt] at hlt hvb
        exact ⟨q, rfl, hedge.trans hvb, hlt, by simp [PyFloat.le]⟩
      | inf => exact absurd rfl hlt
      | negInf => cases hvb
      | nan => cases hvb
  refine ⟨upper, hlow, hhigh, hbound, fun target htarget => ?_⟩
  have hcount : 0 < (within b values).length := List.length_pos_iff.mpr hin
  have hmax : (PyFloat.finite edge).max (.finite upper) = .finite upper := by
    unfold PyFloat.max
    split_ifs with hlt
    · rfl
    · simp only [PyFloat.lt, decide_eq_true_eq, not_lt] at hlt
      rw [le_antisymm hlow hlt]
  have hloop := h.lower
  unfold estimateFrom
  rw [tally, List.zip_cons_cons, HistAcc.bucketEstimate, if_pos ⟨hcount, htarget⟩]
  simp only [Option.getD_some, hloop, hupper, hmax, PyFloat.interpolate]

/-- Past a bound that leaves some values, the loop stands at an edge again, with the values up to
it counted. -/
theorem AtEdge.next (h : AtEdge lo hi cum prev edge (b :: bounds) values)
    (hout : beyond b values ≠ []) :
    ∃ edge', AtEdge lo hi (cum + (within b values).length) b edge' bounds (beyond b values) ∧
      edge ≤ edge' ∧ b.le (.finite edge') = true ∧
      (cum + (within b values).length ≠ 0 → b = .finite edge') := by
  obtain ⟨hlt, hascending⟩ := List.pairwise_cons.mp h.ascending
  have hordered : ∀ b' ∈ bounds, b' ≠ .nan :=
    fun b' hb' => h.ordered b' (List.mem_cons_of_mem b hb')
  have hb : b ≠ .nan := h.ordered b List.mem_cons_self
  have hrange : ∀ v ∈ beyond b values, lo ≤ v ∧ v ≤ hi := fun v hv => h.range v (mem_beyond.mp hv).1
  have hover : ∀ v ∈ beyond b values, b.lt (.finite v) = true :=
    fun v hv => PyFloat.lt_of_not_le hb (mem_beyond.mp hv).2
  by_cases hnone : cum + (within b values).length = 0
  · -- no value so far: the edge is still the minimum
    have hlo : lo ∈ beyond b values := by
      have hempty : within b values = [] := List.length_eq_zero_iff.mp (by omega)
      have hmem := h.first (by omega)
      refine mem_beyond.mpr ⟨hmem, ?_⟩
      by_contra hle
      have hin := mem_within.mpr ⟨hmem, by simpa using hle⟩
      rw [hempty] at hin
      cases hin
    have hbelow := hover lo hlo
    refine ⟨lo, ⟨hascending, hordered, fun hne => absurd hnone hne, fun _ => hlo, ?_, hout,
      fun v hv => (hrange v hv).1, hrange⟩, h.above lo (mem_beyond.mp hlo).1,
      PyFloat.le_of_lt hbelow, fun hne => absurd hnone hne⟩
    rw [hnone, Nat.cast_zero, if_pos rfl, PyFloat.max, if_pos hbelow]
  · -- some value was passed, so the bound is a number
    obtain ⟨v, hv⟩ := List.exists_mem_of_ne_nil _ hout
    have hv := hover v hv
    cases b with
    | inf => cases hv
    | nan => exact absurd rfl hb
    | negInf =>
      exfalso
      have hempty : within .negInf values = [] := by
        rw [within, List.filter_eq_nil_iff]
        exact fun v _ => Bool.false_ne_true
      rw [hempty, List.length_nil, Nat.add_zero] at hnone
      have hcum : (cum : ℚ) ≠ 0 := Nat.cast_ne_zero.mpr hnone
      have hlower := h.lower
      rw [if_neg hcum] at hlower
      have hpassed := h.passed hnone .negInf List.mem_cons_self
      rw [hlower] at hpassed
      cases hpassed
    | finite q =>
      refine ⟨q, ⟨hascending, hordered, fun _ => hlt, fun h0 => absurd h0 hnone, ?_, hout,
        fun v hv => ?_, hrange⟩, ?_, by simp [PyFloat.le], fun _ => rfl⟩
      · exact if_neg (Nat.cast_ne_zero.mpr hnone)
      · have hq := hover v hv
        simp only [PyFloat.lt, decide_eq_true_eq] at hq
        exact hq.le
      · by_cases hcum : cum = 0
        · have hin : within (.finite q) values ≠ [] := by
            intro hempty
            rw [hempty] at hnone
            exact hnone hcum
          obtain ⟨w, hw⟩ := List.exists_mem_of_ne_nil _ hin
          obtain ⟨hmem, hle⟩ := mem_within.mp hw
          simp only [PyFloat.le, decide_eq_true_eq] at hle
          exact (h.above w hmem).trans hle
        · have hlower := h.lower
          rw [if_neg (Nat.cast_ne_zero.mpr hcum)] at hlower
          have hpassed := h.passed hcum (.finite q) List.mem_cons_self
          rw [hlower] at hpassed
          simp only [PyFloat.lt, decide_eq_true_eq] at hpassed
          exact hpassed.le

/-! ## Soundness -/

/-- `x` lies in the closed range of the bucket of `v`, or in the overflow with it. -/
def SameBucket (bounds : List PyFloat) (v x : ℚ) : Prop :=
  ∀ b ∈ bounds, (b.lt (.finite v) = true → b.le (.finite x) = true) ∧
    ((PyFloat.finite v).le b = true → (PyFloat.finite x).le b = true)

/-- The rank of the value that a target asks for, counted from one. -/
def rankOf (target : ℚ) : ℕ := max 1 ⌈target⌉₊

/-- The target lies past the values that the loop has passed, and not past those left. -/
def Within (cum left : ℕ) (target : ℚ) : Prop :=
  ((cum : ℚ) < target ∨ cum = 0 ∧ 0 ≤ target) ∧ target ≤ cum + left

lemma Within.from_le {cum left : ℕ} {target : ℚ} (h : Within cum left target) :
    (cum : ℚ) ≤ target := by
  rcases h.1 with hlt | ⟨rfl, h0⟩
  · exact hlt.le
  · simpa using h0

/-- A target that is not met at a bound lies among the values that the bound leaves. -/
lemma Within.beyond {cum low high left : ℕ} {target : ℚ} (h : Within cum left target)
    (hleft : low + high = left) (hover : ¬(0 < low ∧ target ≤ cum + low)) :
    Within (cum + low) high target := by
  have hle : target ≤ (cum + low : ℕ) + (high : ℕ) := by
    have hsum : (cum : ℚ) + left = (cum + low : ℕ) + (high : ℕ) := by
      rw [← hleft]
      push_cast
      ring
    exact hsum ▸ h.2
  refine ⟨?_, hle⟩
  by_cases hlow : low = 0
  · simpa [hlow] using h.1
  · left
    rw [Nat.cast_add]
    exact not_le.mp fun hmet => hover ⟨by omega, hmet⟩

/-- The estimate lies between the edge and the maximum, and in the bucket of the value
that has the rank. -/
theorem estimateFrom_sound (h : AtEdge lo hi cum prev edge bounds values) {target : ℚ}
    (htarget : Within cum values.length target) :
    ∃ x, estimateFrom lo hi target bounds values cum prev = .finite x ∧ edge ≤ x ∧ x ≤ hi ∧
      ∀ v, (sorted values)[rankOf target - cum - 1]? = some v → SameBucket bounds v x := by
  induction bounds generalizing cum prev edge values with
  | nil =>
    obtain ⟨v, hv⟩ := List.exists_mem_of_ne_nil _ h.left
    exact ⟨hi, rfl, (h.above v hv).trans (h.range v hv).2, le_rfl, fun v _ b hb => nomatch hb⟩
  | cons b bounds ih =>
    have hsplit := sorted_split b values
    have hlength := length_within_add b values
    by_cases hhere : 0 < (within b values).length ∧ target ≤ cum + (within b values).length
    · have hin : within b values ≠ [] := List.length_pos_iff.mp hhere.1
      obtain ⟨upper, hlow, hhigh, hbound, hline⟩ := estimateFrom_within h hin
      have hfrac0 : 0 ≤ (target - cum) / ((within b values).length : ℚ) :=
        div_nonneg (sub_nonneg.mpr htarget.from_le) (Nat.cast_nonneg _)
      have hfrac1 : (target - cum) / ((within b values).length : ℚ) ≤ 1 := by
        rw [div_le_one (Nat.cast_pos.mpr hhere.1)]
        linarith [hhere.2]
      have hx := hline target hhere.2
      generalize (target - cum) / ((within b values).length : ℚ) = frac at hfrac0 hfrac1 hx
      have hxupper : edge + (upper - edge) * frac ≤ upper := by nlinarith
      refine ⟨_, hx, by nlinarith, hxupper.trans hhigh, fun v hv => ?_⟩
      -- the value of the rank is one of those that the bound takes
      have hrank : rankOf target ≤ cum + (within b values).length := by
        refine max_le (by omega) (Nat.ceil_le.mpr ?_)
        exact_mod_cast hhere.2
      rw [hsplit, List.getElem?_append_left (by rw [length_sorted]; omega)] at hv
      have hvb := (mem_within.mp (mem_sorted.mp (List.mem_of_getElem? hv))).2
      have hxb := PyFloat.le_of_finite_le hxupper hbound
      intro b' hb'
      rcases List.mem_cons.mp hb' with rfl | hb'
      · exact ⟨fun hlt => absurd hlt (PyFloat.not_lt_of_le hvb), fun _ => hxb⟩
      · have hlt := (List.pairwise_cons.mp h.ascending).1 b' hb'
        have hvb' := PyFloat.le_of_le_lt hvb hlt
        exact ⟨fun h' => absurd h' (PyFloat.not_lt_of_le hvb'),
          fun _ => PyFloat.le_of_le_lt hxb hlt⟩
    · have hout : beyond b values ≠ [] := by
        intro hempty
        have hpos := List.length_pos_iff.mpr h.left
        rw [hempty, List.length_nil, Nat.add_zero] at hlength
        exact hhere ⟨by omega, hlength ▸ htarget.2⟩
      obtain ⟨edge', hnext, hedge, hbedge, -⟩ := h.next hout
      have hmoved : Within (cum + (within b values).length) (beyond b values).length target :=
        htarget.beyond hlength hhere
      obtain ⟨x, hx, hlow, hhigh, hrank⟩ := ih hnext hmoved
      refine ⟨x, (estimateFrom_beyond hhere).trans hx, hedge.trans hlow, hhigh, fun v hv => ?_⟩
      -- the value of the rank is one of those that the bound leaves
      have hover : cum + (within b values).length < rankOf target := by
        rcases hmoved.1 with hlt | ⟨hzero, -⟩
        · exact lt_max_of_lt_right (Nat.lt_ceil.mpr hlt)
        · exact lt_max_of_lt_left (by omega)
      rw [hsplit, List.getElem?_append_right (by rw [length_sorted]; omega), length_sorted] at hv
      have hindex : rankOf target - cum - 1 - (within b values).length =
          rankOf target - (cum + (within b values).length) - 1 := by omega
      rw [hindex] at hv
      have hvb := (mem_beyond.mp (mem_sorted.mp (List.mem_of_getElem? hv))).2
      intro b' hb'
      rcases List.mem_cons.mp hb' with rfl | hb'
      · refine ⟨fun _ => PyFloat.le_finite_of_le hbedge hlow, fun hle => ?_⟩
        rw [hvb] at hle
        cases hle
      · exact hrank v hv b' hb'

/-- Of two targets, the greater has the greater estimate, by the recursion over the buckets. -/
theorem estimateFrom_mono (h : AtEdge lo hi cum prev edge bounds values) {target target' : ℚ}
    (htarget : Within cum values.length target) (htarget' : Within cum values.length target')
    (hle : target ≤ target') {x x' : ℚ}
    (hx : estimateFrom lo hi target bounds values cum prev = .finite x)
    (hx' : estimateFrom lo hi target' bounds values cum prev = .finite x') : x ≤ x' := by
  induction bounds generalizing cum prev edge values with
  | nil =>
    have htop : ∀ t, estimateFrom lo hi t [] values cum prev = .finite hi := fun _ => rfl
    rw [htop] at hx hx'
    cases hx
    cases hx'
    exact le_rfl
  | cons b bounds ih =>
    have hlength := length_within_add b values
    by_cases hhere : 0 < (within b values).length ∧ target ≤ cum + (within b values).length
    · have hin : within b values ≠ [] := List.length_pos_iff.mp hhere.1
      obtain ⟨upper, hlow, hhigh, hbound, hline⟩ := estimateFrom_within h hin
      have hcount : (0 : ℚ) < (within b values).length := Nat.cast_pos.mpr hhere.1
      obtain rfl := PyFloat.finite.inj ((hline target hhere.2).symm.trans hx)
      by_cases hhere' : target' ≤ cum + (within b values).length
      · -- one line through both
        obtain rfl := PyFloat.finite.inj ((hline target' hhere').symm.trans hx')
        have hfrac : (target - cum) / ((within b values).length : ℚ) ≤
            (target' - cum) / ((within b values).length : ℚ) := by gcongr
        have hwidth : 0 ≤ upper - edge := sub_nonneg.mpr hlow
        gcongr
      · -- the bound lies between them
        have hout : beyond b values ≠ [] := by
          intro hempty
          rw [hempty, List.length_nil, Nat.add_zero] at hlength
          exact hhere' (hlength ▸ htarget'.2)
        obtain ⟨edge', hnext, -, -, hedge⟩ := h.next hout
        have hmoved := htarget'.beyond hlength fun hmet => hhere' hmet.2
        obtain ⟨y, hy, hlow', -⟩ := estimateFrom_sound hnext hmoved
        rw [estimateFrom_beyond fun hmet => hhere' hmet.2, hy] at hx'
        obtain rfl := PyFloat.finite.inj hx'
        have hfrac : (target - cum) / ((within b values).length : ℚ) ≤ 1 := by
          rw [div_le_one hcount]
          linarith [hhere.2]
        have hbedge : upper ≤ edge' := by
          rw [hedge (by omega)] at hbound
          simpa [PyFloat.le] using hbound
        nlinarith
    · have hhere' : ¬(0 < (within b values).length ∧ target' ≤ cum + (within b values).length) :=
        fun hmet => hhere ⟨hmet.1, hle.trans hmet.2⟩
      have hout : beyond b values ≠ [] := by
        intro hempty
        have hpos := List.length_pos_iff.mpr h.left
        rw [hempty, List.length_nil, Nat.add_zero] at hlength
        exact hhere ⟨by omega, hlength ▸ htarget.2⟩
      obtain ⟨edge', hnext, -⟩ := h.next hout
      rw [estimateFrom_beyond hhere] at hx
      rw [estimateFrom_beyond hhere'] at hx'
      exact ih hnext (htarget.beyond hlength hhere) (htarget'.beyond hlength hhere') hx hx'

end

/-! ## Percentiles -/

def StrictlyAscending (bounds : List PyFloat) : Prop :=
  (∀ b ∈ bounds, b ≠ .nan) ∧ bounds.Pairwise fun a b => a.lt b = true

/-- What estimates of the percentiles of some values, from their bucket counts, must satisfy:
they lie between the extremes, do not decrease, and lie in the bucket of the value that has
their rank. -/
structure SoundEstimate (bounds : List PyFloat) (values : List ℚ) (estimate : ℚ → ℚ) : Prop where
  between : ∀ q, 0 ≤ q → q ≤ 100 → ∀ lo hi, IsLeast {v | v ∈ values} lo →
    IsGreatest {v | v ∈ values} hi → lo ≤ estimate q ∧ estimate q ≤ hi
  mono : ∀ q q', 0 ≤ q → q ≤ q' → q' ≤ 100 → estimate q ≤ estimate q'
  bucket : ∀ q, 0 ≤ q → q ≤ 100 → ∃ v,
    (sorted values)[rankOf (q * values.length / 100) - 1]? = some v ∧
      SameBucket bounds v (estimate q)

lemma percentile_eq {bounds : List PyFloat} {values : List ℚ} (hmany : 1 < values.length)
    {lo hi : ℚ} (hmin : (histogramOf bounds values).min = some lo)
    (hmax : (histogramOf bounds values).max = some hi) (q : ℚ) :
    (histogramOf bounds values).percentile q = some
      (estimateFrom lo hi (q * values.length / 100) bounds values 0 (.finite lo)) := by
  have htarget : q / 100 * ((histogramOf bounds values).count : ℚ) = q * values.length / 100 := by
    rw [count_histogramOf]
    ring
  have hcount : (histogramOf bounds values).count = values.length := count_histogramOf ..
  unfold HistAcc.percentile estimateFrom
  rw [if_neg (by omega), if_neg (by omega), htarget, hmin, hmax, bounds_histogramOf,
    counts_histogramOf, Nat.cast_zero]
  simp only [Option.map_some, Option.getD_some]
  cases HistAcc.bucketEstimate (some lo) (some hi) (q * values.length / 100)
    (bounds.zip (tally bounds values)) 0 (.finite lo) <;> rfl

lemma within_target {q : ℚ} (h0 : 0 ≤ q) (h100 : q ≤ 100) (n : ℕ) :
    Within 0 n (q * n / 100) := by
  have hn : (0 : ℚ) ≤ n := Nat.cast_nonneg n
  refine ⟨Or.inr ⟨rfl, by positivity⟩, ?_⟩
  rw [Nat.cast_zero, zero_add, div_le_iff₀ (by norm_num)]
  nlinarith

/-- The percentiles of a nonempty accumulator over strictly ascending bounds are sound: within the
range of its values, in order, and each in the bucket of the value that has its rank. -/
theorem percentile_sound (bounds : List PyFloat) (hbounds : StrictlyAscending bounds)
    (values : List ℚ) (hne : values ≠ []) :
    ∃ estimate : ℚ → ℚ, SoundEstimate bounds values estimate ∧
      ∀ q, 0 ≤ q → q ≤ 100 →
        (histogramOf bounds values).percentile q = some (.finite (estimate q)) := by
  obtain ⟨lo, hi, hmin, hmax, hlo, hhi⟩ := extremes_histogramOf bounds hne
  have hpos : 1 ≤ values.length := List.length_pos_iff.mpr hne
  have hrank : ∀ q, 0 ≤ q → q ≤ 100 →
      rankOf (q * values.length / 100) - 1 < (sorted values).length := by
    intro q h0 h100
    have hceil : ⌈q * values.length / 100⌉₊ ≤ values.length := by
      have htarget := (within_target h0 h100 values.length).2
      rw [Nat.cast_zero, zero_add] at htarget
      exact Nat.ceil_le.mpr htarget
    rw [length_sorted, rankOf]
    omega
  by_cases hone : values.length = 1
  · -- a single value is every percentile
    obtain ⟨v, rfl⟩ := List.length_eq_one_iff.mp hone
    obtain rfl := List.mem_singleton.mp hlo.1
    refine ⟨fun _ => lo, ⟨fun q _ _ lo' hi' hlo' hhi' => ?_, fun _ _ _ _ _ => le_rfl,
      fun q h0 h100 => ⟨lo, ?_, fun b _ => ⟨PyFloat.le_of_lt, id⟩⟩⟩, fun q _ _ => ?_⟩
    · rw [hlo'.unique hlo, hhi'.unique hhi]
      exact ⟨le_rfl, hlo.2 hhi.1⟩
    · have hindex := hrank q h0 h100
      have hzero : rankOf (q * ([lo] : List ℚ).length / 100) - 1 = 0 := by
        rw [length_sorted] at hindex
        exact Nat.lt_one_iff.mp hindex
      rw [hzero]
      rfl
    · have hcount := count_histogramOf bounds [lo]
      rw [List.length_singleton] at hcount
      unfold HistAcc.percentile
      rw [hcount, if_neg Nat.one_ne_zero, if_pos rfl, hmin]
      rfl
  · have hedge : AtEdge lo hi 0 (.finite lo) lo bounds values :=
      ⟨hbounds.2, hbounds.1, fun h => absurd rfl h, fun _ => hlo.1, by simp [PyFloat.max],
        hne, fun v hv => hlo.2 hv, fun v hv => ⟨hlo.2 hv, hhi.2 hv⟩⟩
    have hsound : ∀ q, ∃ x, 0 ≤ q → q ≤ 100 →
        estimateFrom lo hi (q * values.length / 100) bounds values 0 (.finite lo) = .finite x ∧
          lo ≤ x ∧ x ≤ hi ∧ ∀ v, (sorted values)[rankOf (q * values.length / 100) - 0 - 1]? =
            some v → SameBucket bounds v x := by
      intro q
      by_cases hq : 0 ≤ q ∧ q ≤ 100
      · obtain ⟨x, hx⟩ := estimateFrom_sound hedge (within_target hq.1 hq.2 values.length)
        exact ⟨x, fun _ _ => hx⟩
      · exact ⟨0, fun h0 h100 => absurd ⟨h0, h100⟩ hq⟩
    choose estimate hestimate using hsound
    refine ⟨estimate, ⟨fun q h0 h100 lo' hi' hlo' hhi' => ?_, fun q q' h0 hle h100 => ?_,
      fun q h0 h100 => ?_⟩, fun q h0 h100 => ?_⟩
    · obtain ⟨-, hlow, hhigh, -⟩ := hestimate q h0 h100
      rw [hlo'.unique hlo, hhi'.unique hhi]
      exact ⟨hlow, hhigh⟩
    · have hq := (hestimate q h0 (hle.trans h100)).1
      have hq' := (hestimate q' (h0.trans hle) h100).1
      refine estimateFrom_mono hedge (within_target h0 (hle.trans h100) _)
        (within_target (h0.trans hle) h100 _) ?_ hq hq'
      gcongr
    · have hv := List.getElem?_eq_getElem (hrank q h0 h100)
      exact ⟨_, hv, (hestimate q h0 h100).2.2.2 _ hv⟩
    · rw [percentile_eq (by omega) hmin hmax, (hestimate q h0 h100).1]

/-- Four values over two bounds: one in the first bucket, two in the second. -/
theorem percentile_sound_sample :
    ∃ estimate : ℚ → ℚ,
      SoundEstimate [.finite 10, .finite 20] [14, 5, 30, 12] estimate ∧ estimate 50 = 15 := by
  obtain ⟨estimate, hsound, hestimate⟩ := percentile_sound [.finite 10, .finite 20]
    ⟨by decide, by decide +kernel⟩ [14, 5, 30, 12] (by decide)
  refine ⟨estimate, hsound, ?_⟩
  have h50 := hestimate 50 (by norm_num) (by norm_num)
  have hvalue : (histogramOf [.finite 10, .finite 20] [14, 5, 30, 12]).percentile 50 =
      some (.finite 15) := by decide +kernel
  rw [hvalue] at h50
  exact (PyFloat.finite.inj (Option.some.inj h50)).symm

end InferenceControlPlane.Sli
