import InferenceControlPlane.Sli.Accounting
import Mathlib.Algebra.Order.BigOperators.Group.List
import Mathlib.Algebra.BigOperators.Ring.Finset

/-!
# When a run returns

Without a checkpoint store only three things can escape a run: a cutoff that no
datetime can represent, a quality group of a single length that is scored against the
empty rest, and a token ratio beyond the double range. Each of them is a condition on
the records that the run accepts.
-/
namespace InferenceControlPlane.Sli
open Python Normalize

/-! ## Scoring -/

/-- Token counts convert to floats. -/
lemma inRange_token (n : ℕ) (h : n ≤ maxDouble) : (Number.int n).InRange :=
  lt_of_le_of_lt h maxDouble_lt_doubleBound

/-- The deviations from a median are in range, and all of the median's kind. -/
lemma deviations_ok {ns : List ℕ} (hns : ∀ n ∈ ns, n ≤ maxDouble) {med : Number}
    (hrange : med.InRange) (hmed : med ∈ ns.map (fun n : ℕ => Number.int n) ∨ med.IsFloat) :
    ∃ ds : List Number, (ns.map fun n : ℕ => Number.int n).mapM
        (fun x => do return (← x.sub med).abs) = .ok ds ∧ ds.length = ns.length ∧
      (∀ d ∈ ds, d.InRange) ∧
      ((∃ ks : List ℕ, ds = ks.map (fun k : ℕ => Number.int k) ∧ ∀ k ∈ ks, k ≤ maxDouble) ∨
        ∀ d ∈ ds, d.IsFloat) := by
  cases med with
  | int m =>
    -- the median is one of the lengths
    obtain ⟨k, hk, hkm⟩ := List.mem_map.mp (hmed.resolve_right (by simp [Number.IsFloat]))
    cases hkm
    have hbound : ∀ n ∈ ns, ((n : ℤ) - k).natAbs ≤ maxDouble := by
      intro n hn
      have h1 := hns n hn
      have h2 := hns k hk
      omega
    refine ⟨ns.map fun n : ℕ => Number.int (((n : ℤ) - k).natAbs : ℕ), ?_, by simp, ?_,
      Or.inl ⟨ns.map fun n : ℕ => ((n : ℤ) - k).natAbs, by simp, by simpa using hbound⟩⟩
    · rw [List.mapM_map]
      refine mapM_eq_ok _ fun n _ => ?_
      change Except.ok (Number.int |((n : ℤ) - k)|) = _
      rw [Int.abs_eq_natAbs]
    · intro d hd
      obtain ⟨n, hn, rfl⟩ := List.mem_map.mp hd
      exact inRange_token _ (hbound n hn)
  | float q =>
    refine ⟨ns.map fun n : ℕ => Number.float |(n : ℚ) - q|, ?_, by simp, ?_, Or.inr ?_⟩
    · rw [List.mapM_map]
      refine mapM_eq_ok _ fun n hn => ?_
      rw [Function.comp_apply, Number.sub_float (inRange_token n (hns n hn))]
      rfl
    · intro d hd
      obtain ⟨n, _, rfl⟩ := List.mem_map.mp hd
      trivial
    · intro d hd
      obtain ⟨n, _, rfl⟩ := List.mem_map.mp hd
      trivial

/-- The mean of the deviations exists. -/
lemma mean_ok {ds : List Number} (hne : ds ≠ []) (hlen : ds.length < doubleBound)
    (hkind : (∃ ks : List ℕ, ds = ks.map (fun k : ℕ => Number.int k) ∧ ∀ k ∈ ks, k ≤ maxDouble) ∨
      ∀ d ∈ ds, d.IsFloat) :
    ∃ total, Number.sum ds = .ok total ∧ ∃ q, total.div (.int ds.length) = .ok (.float q) := by
  have hpos : 0 < ds.length := List.length_pos_iff.mpr hne
  rcases hkind with ⟨ks, rfl, hks⟩ | hfloat
  · refine ⟨.int (ks.sum : ℕ), ?_, _, Number.div_int_ok (by omega) ?_⟩
    · rw [Nat.cast_list_sum, ← Number.sum_ints, List.map_map]
      rfl
    · have hle : ks.sum ≤ ks.length * maxDouble := by
        simpa using List.sum_le_card_nsmul ks maxDouble hks
      rw [List.length_map] at hpos
      rw [List.length_map, Int.natAbs_natCast, Int.natAbs_natCast]
      calc ks.sum ≤ ks.length * maxDouble := hle
        _ < ks.length * doubleBound := Nat.mul_lt_mul_of_pos_left maxDouble_lt_doubleBound hpos
        _ = doubleBound * ks.length := Nat.mul_comm _ _
  · obtain ⟨q, hq⟩ := Number.sum_floats ds hfloat hne
    have hrange : (Number.int ds.length).InRange := hlen
    refine ⟨.float q, hq, q / ds.length, ?_⟩
    change (do
      let y ← (Number.int ds.length).toFloat
      if y = 0 then .error .zeroDivisionError else .ok (Number.float (q / y)) :
        Except PyErr Number) = _
    rw [Number.toFloat_of_inRange hrange]
    change (if ((ds.length : ℤ) : ℚ) = 0 then _ else _) = _
    rw [if_neg (by exact_mod_cast hpos.ne')]
    simp

/-- Scoring against a nonempty baseline never raises, as lengths stay within the range of
floats. -/
theorem score_ok (cfg : AnomalyConfig) {value : ℕ} {baseline : List ℕ} (hne : baseline ≠ [])
    (hlen : baseline.length < doubleBound) (hvalue : value ≤ maxDouble)
    (hbaseline : ∀ n ∈ baseline, n ≤ maxDouble) : ∃ s, score cfg value baseline = .ok s := by
  have hdata : ∀ x ∈ baseline.map (fun n : ℕ => Number.int n), x.InRange := by
    intro x hx
    obtain ⟨n, hn, rfl⟩ := List.mem_map.mp hx
    exact inRange_token n (hbaseline n hn)
  obtain ⟨med, hmed, hrange, hkind⟩ := median_ok (by simpa using hne) hdata
  obtain ⟨ds, hds, hlength, hdsrange, hdskind⟩ := deviations_ok hbaseline hrange hkind
  have hdsne : ds ≠ [] := by
    intro h
    rw [h] at hlength
    exact hne (List.length_eq_zero_iff.mp hlength.symm)
  obtain ⟨mad, hmad, hmadrange, _⟩ := median_ok hdsne hdsrange
  obtain ⟨total, htotal, mean, hmean⟩ := mean_ok hdsne (hlength ▸ hlen) hdskind
  have hdiff : ∃ diff, (Number.int value).sub med = .ok diff ∧ diff.InRange := by
    cases med with
    | int m =>
      obtain ⟨k, hk, hkm⟩ := List.mem_map.mp (hkind.resolve_right (by simp [Number.IsFloat]))
      cases hkm
      refine ⟨.int (value - k), rfl, ?_⟩
      have h1 := hbaseline k hk
      have h2 := maxDouble_lt_doubleBound
      simp only [Number.InRange]
      omega
    | float q => exact ⟨_, Number.sub_float (inRange_token value hvalue) q, trivial⟩
  obtain ⟨diff, hdiff, hdiffrange⟩ := hdiff
  unfold score
  refine exists_bind_ok.mpr ⟨med, hmed, exists_bind_ok.mpr ⟨ds, hds, exists_bind_ok.mpr
    ⟨mad, hmad, ?_⟩⟩⟩
  by_cases hpos : 0 < mad.value
  · rw [if_pos hpos]
    have hsigma : madToSigma ≠ 0 := by decide +kernel
    refine exists_bind_ok.mpr ⟨diff, hdiff, exists_bind_ok.mpr
      ⟨_, Number.div_float hmadrange hsigma, exists_bind_ok.mpr
        ⟨_, Number.div_float hdiffrange (div_ne_zero hpos.ne' hsigma), _, rfl⟩⟩⟩
  · rw [if_neg hpos, ← hlength]
    refine exists_bind_ok.mpr ⟨total, htotal, exists_bind_ok.mpr ⟨_, hmean, ?_⟩⟩
    by_cases hmeanpos : 0 < mean
    · rw [Number.value_float, if_pos hmeanpos]
      have hsigma : meanAdToSigma ≠ 0 := by decide +kernel
      refine exists_bind_ok.mpr ⟨diff, hdiff, exists_bind_ok.mpr
        ⟨_, Number.div_float hdiffrange (mul_ne_zero hsigma hmeanpos.ne'), _, rfl⟩⟩
    · rw [Number.value_float, if_neg hmeanpos]
      split_ifs <;> exact ⟨_, rfl⟩

lemma evens_sublist {α : Type*} (xs : List α) : (evens xs).Sublist xs := by
  induction xs using evens.induct with
  | case1 => exact .slnil
  | case2 a => exact List.Sublist.refl _
  | case3 a b rest ih => exact (ih.cons b).cons_cons a

lemma odds_sublist {α : Type*} (xs : List α) : (odds xs).Sublist xs := by
  induction xs using odds.induct with
  | case1 => exact .slnil
  | case2 a => exact (List.Sublist.refl _).cons a
  | case3 a b rest ih => exact (ih.cons_cons b).cons a

/-- A group raises exactly when it is a single length and the minimum sample lets it
be scored: its baseline is then empty. -/
theorem scoreGroup_ok_iff (cfg : AnomalyConfig) {lengths : List ℕ}
    (hlen : lengths.length < doubleBound) (hns : ∀ n ∈ lengths, n ≤ maxDouble) :
    (∃ r, scoreGroup cfg lengths = .ok r) ↔ ¬ (cfg.minSample = 1 ∧ lengths.length = 1) := by
  have hmin := cfg.minSample_pos
  have hscore : ∀ value ∈ lengths, ∀ baseline : List ℕ, baseline ≠ [] →
      baseline.Sublist lengths → ∃ s, score cfg value baseline = .ok s :=
    fun value hvalue baseline hne hsub => score_ok cfg hne (hsub.length_le.trans_lt hlen)
      (hns value hvalue) fun n hn => hns n (hsub.subset hn)
  have hmem : ∀ e ∈ lengths.zipIdx, e.1 ∈ lengths := by
    intro e he
    exact List.fst_mem_of_mem_zipIdx he
  unfold scoreGroup
  by_cases hcold : lengths.length < cfg.minSample
  · rw [if_pos hcold]
    exact ⟨fun _ h => by omega, fun _ => ⟨_, rfl⟩⟩
  rw [if_neg hcold]
  by_cases hexact : lengths.length ≤ exactLimit
  · rw [if_pos hexact, exists_bind_ok]
    constructor
    · rintro ⟨scored, hscored, -⟩ ⟨-, hone⟩
      obtain ⟨n, rfl⟩ := List.length_eq_one_iff.mp hone
      obtain ⟨s, hs⟩ := (mapM_ok_iff _ _).mp ⟨scored, hscored⟩ (n, 0) (by simp)
      obtain ⟨med, hmed, -⟩ := bind_eq_ok hs
      cases hmed
    · intro hsingle
      have htwo : 2 ≤ lengths.length := by omega
      obtain ⟨scored, hscored⟩ := (mapM_ok_iff
          (fun e : ℕ × ℕ => score cfg e.1 (lengths.eraseIdx e.2)) lengths.zipIdx).mpr fun e he => by
        refine hscore e.1 (hmem e he) _ ?_ (List.eraseIdx_sublist _ _)
        intro hnil
        have hl := List.length_eraseIdx_le lengths e.2
        have hl' := List.le_length_eraseIdx lengths e.2
        rw [hnil] at hl'
        simp only [List.length_nil] at hl'
        omega
      exact ⟨scored, hscored, _, rfl⟩
  · rw [if_neg hexact]
    have hbig : exactLimit < lengths.length := by omega
    have hsingle : ¬ (cfg.minSample = 1 ∧ lengths.length = 1) := by
      simp only [exactLimit] at hbig
      omega
    refine ⟨fun _ => hsingle, fun _ => ?_⟩
    by_cases hempty : evens lengths = [] ∨ odds lengths = []
    · rw [if_pos hempty]
      exact ⟨_, rfl⟩
    · rw [if_neg hempty]
      push Not at hempty
      obtain ⟨scored, hscored⟩ := (mapM_ok_iff (fun e : ℕ × ℕ => score cfg e.1
          (if e.2 % 2 = 0 then odds lengths else evens lengths)) lengths.zipIdx).mpr fun e he => by
        split_ifs
        · exact hscore e.1 (hmem e he) _ hempty.2 (odds_sublist _)
        · exact hscore e.1 (hmem e he) _ hempty.1 (evens_sublist _)
      exact exists_bind_ok.mpr ⟨scored, hscored, _, rfl⟩

/-! ## What the accumulators hold -/

section
variable [Runtime]

/-- `group_completion_lengths`: the successful, non-empty lengths of one group. -/
def completionLengths (cfg : Config) (observations : List Observation) (key : QualityKey) :
    List ℕ :=
  (observations.filter fun obs =>
    !obs.isError && obs.outputTokens.val != 0 && decide (baselineKey obs cfg = key)).map
      (·.outputTokens.val)

def inputTotal (cfg : Config) (observations : List Observation) (key : CostKey) : ℕ :=
  ((observations.filter (Aggregator.costKey cfg · = key)).map (·.inputTokens.val)).sum

def outputTotal (cfg : Config) (observations : List Observation) (key : CostKey) : ℕ :=
  ((observations.filter (Aggregator.costKey cfg · = key)).map (·.outputTokens.val)).sum

/-- A cost series holds the token totals of its observations, which are what its ratio divides. -/
theorem foldl_add_cost (cfg : Config) (observations : List Observation) (key : CostKey) :
    ((observations.foldl (Aggregator.add cfg) .new).cost.getD key Aggregator.emptyCost).input =
        inputTotal cfg observations key ∧
      ((observations.foldl (Aggregator.add cfg) .new).cost.getD key Aggregator.emptyCost).output =
        outputTotal cfg observations key := by
  induction observations using List.reverseRecOn with
  | nil => exact ⟨rfl, rfl⟩
  | append_singleton observations obs ih =>
    rw [List.foldl_append]
    simp only [List.foldl_cons, List.foldl_nil, Aggregator.add, Dict.getD_modify, inputTotal,
      outputTotal, List.filter_append, List.map_append, List.sum_append] at ih ⊢
    by_cases hk : Aggregator.costKey cfg obs = key
    · simp only [hk, if_true, Aggregator.addCost, ih]
      simp [hk]
    · simp only [hk, if_false, ih]
      simp [hk]

/-- A group holds one length per eligible observation, up to the cap; one length is what cannot be
scored. -/
theorem foldl_add_groups (rng : Rng) (cap : ℕ) (cfg : Config) (observations : List Observation)
    (key : QualityKey) :
    ((observations.foldl (QualityAccumulator.add rng cap cfg) .new).groups.getD key []).length =
      min (completionLengths cfg observations key).length cap := by
  induction observations using List.reverseRecOn with
  | nil => simp [completionLengths, QualityAccumulator.new, Dict.getD]
  | append_singleton observations obs ih =>
    rw [List.foldl_append, List.foldl_cons, List.foldl_nil]
    generalize observations.foldl (QualityAccumulator.add rng cap cfg) .new = acc at ih
    simp only [completionLengths, List.filter_append, List.map_append, List.length_append] at ih ⊢
    unfold QualityAccumulator.add
    by_cases herr : obs.isError = true
    · simpa [herr] using ih
    · by_cases hzero : obs.outputTokens.val = 0
      · simpa [herr, hzero] using ih
      · have hzero' : (obs.outputTokens.val != 0) = true := by simpa using hzero
        rw [if_neg herr]
        simp only [hzero, if_false]
        by_cases hk : baselineKey obs cfg = key
        · -- the group of the observation gains it while there is room
          subst hk
          have hadd : ((observations ++ [obs]).filter fun o => !o.isError &&
              o.outputTokens.val != 0 && decide (baselineKey o cfg = baselineKey obs cfg)).length =
              (observations.filter fun o => !o.isError && o.outputTokens.val != 0 &&
                decide (baselineKey o cfg = baselineKey obs cfg)).length + 1 := by
            simp [herr, hzero']
          simp only [List.filter_append, List.length_append, List.length_map] at hadd ih ⊢
          split_ifs with hfull hslot
          · rw [Dict.getD_set, if_pos rfl, List.length_append, List.length_singleton]
            omega
          · rw [Dict.getD_set, if_pos rfl, List.length_set]
            omega
          · rw [Dict.getD_set, if_pos rfl]
            omega
        · have hnone : (List.filter (fun o : Observation => !o.isError && o.outputTokens.val != 0 &&
              decide (baselineKey o cfg = key)) [obs]) = [] := by simp [hk]
          rw [hnone, List.map_nil, List.length_nil]
          split_ifs with hfull hslot
          · rw [Dict.getD_set, if_neg hk]
            exact ih
          · rw [Dict.getD_set, if_neg hk]
            exact ih
          · rw [Dict.getD_set, if_neg hk]
            exact ih

/-! ## Building and scoring -/

omit [Runtime] in
/-- A series divides its totals where there is input, and the quotient must be within the range of
floats. -/
theorem completionRatio_ok_iff (c : CostEntry) :
    (∃ r, Aggregator.completionRatio c = .ok r) ↔
      (0 < c.input → c.output < doubleBound * c.input) := by
  unfold Aggregator.completionRatio
  split_ifs with hpos
  · have hne : (c.input : ℤ) ≠ 0 := by omega
    rw [exists_bind_ok]
    constructor
    · rintro ⟨q, hq, -⟩ -
      by_contra hlarge
      rw [Number.div_int_error hne (by simpa using not_lt.mp hlarge)] at hq
      cases hq
    · intro hsmall
      exact ⟨_, Number.div_int_ok hne (by simpa using hsmall hpos), _, rfl⟩
  · exact ⟨fun _ h => absurd h hpos, fun _ => ⟨none, rfl⟩⟩

theorem buildPoints_ok_iff (cfg : Config) (observations : List Observation) (malformed dups : ℕ) :
    (∃ points, (observations.foldl (Aggregator.add cfg) .new).buildPoints cfg malformed dups =
        .ok points) ↔
      ∀ key, 0 < inputTotal cfg observations key →
        outputTotal cfg observations key < doubleBound * inputTotal cfg observations key := by
  have hsum := foldl_add_cost cfg observations
  generalize observations.foldl (Aggregator.add cfg) .new = agg at hsum
  have hentries : (∃ points, Aggregator.costPoints cfg agg.cost = .ok points) ↔
      ∀ e ∈ agg.cost.entries, 0 < e.2.input → e.2.output < doubleBound * e.2.input := by
    unfold Aggregator.costPoints
    rw [exists_bind_ok]
    simp only [pure, Except.pure, Except.ok.injEq, exists_eq', and_true]
    rw [mapM_ok_iff]
    refine forall₂_congr fun e _ => ?_
    rw [← completionRatio_ok_iff]
    unfold Aggregator.costPointsOf
    rw [exists_bind_ok]
    simp [pure, Except.pure]
  unfold Aggregator.buildPoints
  rw [exists_bind_ok]
  simp only [pure, Except.pure, Except.ok.injEq, exists_eq', and_true]
  rw [hentries]
  constructor
  · intro h key
    rw [← (hsum key).1, ← (hsum key).2]
    cases hget : agg.cost.get? key with
    | none => simp [Dict.getD, hget, Aggregator.emptyCost]
    | some c => simpa [Dict.getD, hget] using h (key, c) (Dict.mem_entries.mpr hget)
  · intro h e he
    have hget := Dict.mem_entries.mp he
    have hkey := h e.1
    rw [← (hsum e.1).1, ← (hsum e.1).2, Dict.getD, hget] at hkey
    exact hkey

theorem results_ok_iff (rng : Rng) (cfg : Config) (observations : List Observation) :
    (∃ results, (observations.foldl (QualityAccumulator.add rng sampleCap cfg) .new).results cfg =
        .ok results) ↔
      (cfg.anomaly.minSample = 1 → ∀ key, (completionLengths cfg observations key).length ≠ 1) := by
  have hlength := foldl_add_groups rng sampleCap cfg observations
  generalize observations.foldl (QualityAccumulator.add rng sampleCap cfg) .new = acc at hlength
  have hcap : sampleCap < doubleBound := by decide +kernel
  have hgroup : ∀ e ∈ acc.groups.entries,
      e.2.length = min (completionLengths cfg observations e.1).length sampleCap := by
    intro e he
    rw [← hlength e.1, Dict.getD, Dict.mem_entries.mp he]
    rfl
  have hentry : ∀ e ∈ acc.groups.entries,
      ((∃ r, (do return (e.1, ← scoreGroup cfg.anomaly (e.2.map Subtype.val)) :
          Except PyErr (QualityKey × GroupResult)) = .ok r) ↔
        ¬ (cfg.anomaly.minSample = 1 ∧ e.2.length = 1)) := by
    intro e he
    have hle : (e.2.map Subtype.val).length < doubleBound := by
      rw [List.length_map, hgroup e he]
      exact (min_le_right _ _).trans_lt hcap
    rw [exists_bind_ok]
    simp only [pure, Except.pure, Except.ok.injEq, exists_eq', and_true]
    rw [scoreGroup_ok_iff cfg.anomaly hle, List.length_map]
    intro n hn
    obtain ⟨t, _, rfl⟩ := List.mem_map.mp hn
    exact t.property
  unfold QualityAccumulator.results
  rw [mapM_ok_iff]
  constructor
  · intro h hone key hsingle
    have hget := hlength key
    rw [hsingle] at hget
    cases hk : acc.groups.get? key with
    | none => simp [Dict.getD, hk, sampleCap] at hget
    | some bucket =>
      have he := Dict.mem_entries.mpr hk
      refine (hentry _ he).mp (h _ he) ⟨hone, ?_⟩
      simpa [Dict.getD, hk, sampleCap] using hget
  · intro h e he
    refine (hentry e he).mpr ?_
    rintro ⟨hone, hsingle⟩
    have hlen := hgroup e he
    have hne := h hone e.1
    simp only [sampleCap] at hlen
    omega

/-! ## The observations of a run -/

/-- The first observation of every id that is not blank. -/
def firstById (seen : List String) : List Observation → List Observation
  | [] => []
  | obs :: rest =>
    if obs.obsId = "" ∨ obs.obsId ∈ seen then firstById seen rest
    else obs :: firstById (obs.obsId :: seen) rest

/-- The observations that a run without a checkpoint folds. -/
def runObservations (maxRecords : Option ℤ) (records : List Json) : List Observation :=
  firstById [] ((readable maxRecords records).filterMap fun raw => (parseObservation raw).toOption)

/-- Without prior ids, the first observation of an id enters the batch and is folded. -/
lemma step_first {env : StreamEnv} (hprior : ∀ id, id ∉ env.priorSeen) (st : StreamState)
    (raw : Json) (rest : List Observation) :
    (st.contributes env raw).toList ++ firstById (st.step env raw).seenBatch rest =
      firstById st.seenBatch ((parseObservation raw).toOption.toList ++ rest) := by
  have hv := st.verdict env raw
  generalize st.step env raw = st' at hv
  cases hv with
  | malformed reason hp => simp [StreamState.contributes, hp, Except.toOption, StreamState.reject,
      StreamState.counted]
  | quarantined e hp => simp [StreamState.contributes, hp, Except.toOption, StreamState.reject,
      StreamState.counted]
  | blank obs hp hid => simp [StreamState.contributes, hp, hid, Except.toOption, firstById,
      StreamState.reject, StreamState.counted]
  | duplicate obs hp hid hbatch => simp [StreamState.contributes, hp, hbatch, Except.toOption,
      firstById, StreamState.counted]
  | crossRun obs hp hid hbatch hseen => exact absurd hseen (hprior _)
  | folded obs hp hid hbatch hseen => simp [StreamState.contributes, hp, hid, hbatch, hseen,
      Except.toOption, firstById, StreamState.fold, StreamState.admitted]

theorem foldedFrom_eq {env : StreamEnv} (hprior : ∀ id, id ∉ env.priorSeen)
    (maxRecords : Option ℤ) (records : List Json) (st : StreamState) :
    foldedFrom env maxRecords records st =
      firstById st.seenBatch ((readable (maxRecords.map (· - st.recordsRead)) records).filterMap
        fun raw => (parseObservation raw).toOption) := by
  induction records generalizing st with
  | nil => cases maxRecords <;> simp [foldedFrom, readable, firstById]
  | cons raw rest ih =>
    cases maxRecords with
    | none =>
      simp only [foldedFrom, atLimit, ih, readable, Option.map_none, Bool.false_eq_true, if_false]
      rw [step_first hprior]
      cases h : (parseObservation raw).toOption <;> simp [h]
    | some limit =>
      by_cases hlimit : limit ≤ st.recordsRead
      · have hzero : (limit - st.recordsRead).toNat = 0 := by omega
        simp [foldedFrom, atLimit, hlimit, readable, hzero, firstById]
      · have hsucc : (limit - st.recordsRead).toNat =
            (limit - ((st.recordsRead + 1 : ℕ) : ℤ)).toNat + 1 := by omega
        simp only [foldedFrom, atLimit, hlimit, ih, readable, Option.map_some, decide_false,
          Bool.false_eq_true, if_false, step_recordsRead, hsucc, List.take_succ_cons]
        rw [step_first hprior]
        cases h : (parseObservation raw).toOption <;> simp [h]

/-! ## The run -/

/-- What the unguarded part of a run asks of its arguments and of the records it accepts. -/
structure NothingEscapes (args : RunArgs) (records : List Json) : Prop where
  cutoff : ∀ windowEnd, args.windowEnd = some windowEnd →
    ∃ cutoff, cutoffOf args.overlapMinutes windowEnd = .ok cutoff
  groups : args.cfg.anomaly.minSample = 1 → ∀ key,
    (completionLengths args.cfg (runObservations args.maxRecords records) key).length ≠ 1
  ratios : ∀ key, 0 < inputTotal args.cfg (runObservations args.maxRecords records) key →
    outputTotal args.cfg (runObservations args.maxRecords records) key <
      doubleBound * inputTotal args.cfg (runObservations args.maxRecords records) key

omit [Runtime] in
lemma readCutoff_ok_iff (args : RunArgs) :
    (∃ cutoff, readCutoff args = .ok cutoff) ↔
      ∀ windowEnd, args.windowEnd = some windowEnd →
        ∃ cutoff, cutoffOf args.overlapMinutes windowEnd = .ok cutoff := by
  unfold readCutoff
  cases args.windowEnd with
  | none => simp
  | some windowEnd =>
    simp only [Option.some.injEq, forall_eq']
    rw [exists_bind_ok]
    simp [pure, Except.pure]

omit [Runtime] in
/-- Assembling a read raises where the ratios or the scores do. -/
lemma assemble_ok_iff (args : RunArgs) (source : Source) (stream : Stream) :
    (∃ p, assemble args source stream = .ok p) ↔
      (∃ points, stream.state.aggregator.buildPoints args.cfg stream.state.malformed
          stream.state.duplicates = .ok points) ∧
        ∃ results, stream.state.quality.results args.cfg = .ok results := by
  unfold assemble Aggregator.build
  rw [exists_bind_ok]
  constructor
  · rintro ⟨built, hbuilt, hrest⟩
    obtain ⟨points, hpoints, -⟩ := bind_eq_ok hbuilt
    obtain ⟨results, hresults, -⟩ := exists_bind_ok.mp hrest
    exact ⟨⟨points, hpoints⟩, results, hresults⟩
  · rintro ⟨⟨points, hpoints⟩, results, hresults⟩
    exact ⟨(points, stream.state.aggregator.buildStats _ _), by rw [hpoints]; rfl,
      exists_bind_ok.mpr ⟨results, hresults, _, rfl⟩⟩

theorem prepare_ok_iff (args : RunArgs) (source : Source) (env : Env) (hasStore : Bool) :
    (∃ p, prepare args source env hasStore none = .ok p) ↔
      NothingEscapes args source.records := by
  have hassemble : ∀ cutoff, (∃ p, assemble args source (streamFrom
      (streamEnv args env hasStore none cutoff) args.maxRecords source.failure source.records
        .new) = .ok p) ↔
      (∀ key, 0 < inputTotal args.cfg (runObservations args.maxRecords source.records) key →
        outputTotal args.cfg (runObservations args.maxRecords source.records) key <
          doubleBound * inputTotal args.cfg (runObservations args.maxRecords source.records) key) ∧
      (args.cfg.anomaly.minSample = 1 → ∀ key, (completionLengths args.cfg
        (runObservations args.maxRecords source.records) key).length ≠ 1) := by
    intro cutoff
    obtain ⟨_, _, hdedup, _⟩ := streamFrom_deduplicated (streamEnv args env hasStore none cutoff)
      args.maxRecords source.failure source.records
    have hfolded : foldedFrom (streamEnv args env hasStore none cutoff) args.maxRecords
        source.records .new = runObservations args.maxRecords source.records := by
      rw [foldedFrom_eq (fun id => Dict.not_mem_empty id)]
      cases args.maxRecords <;> simp [StreamState.new, runObservations]
    have hagg := hdedup.aggregated
    have hqual := hdedup.sampled
    rw [hfolded] at hagg hqual
    rw [assemble_ok_iff, hagg, hqual]
    exact and_congr (buildPoints_ok_iff _ _ _ _) (results_ok_iff _ _ _)
  unfold prepare
  rw [exists_bind_ok]
  constructor
  · rintro ⟨cutoff, hcutoff, hp⟩
    obtain ⟨hratios, hgroups⟩ := (hassemble cutoff).mp hp
    exact ⟨(readCutoff_ok_iff args).mp ⟨cutoff, hcutoff⟩, hgroups, hratios⟩
  · intro h
    obtain ⟨cutoff, hcutoff⟩ := (readCutoff_ok_iff args).mpr h.cutoff
    exact ⟨cutoff, hcutoff, (hassemble cutoff).mpr ⟨h.ratios, h.groups⟩⟩

/-- Without a checkpoint store a run returns exactly when nothing escapes its
unguarded part, whatever the source, the exporter and the random draws do. -/
theorem run_returns_iff {ε σ : Type} (exporter : Option (Exporter ε)) (args : RunArgs)
    (source : Source) (env : Env) (w : World ε σ) :
    (∃ result, (run exporter (none : Option (CheckpointStore σ)) args source env w).1 =
      .ok result) ↔
      NothingEscapes args source.records := by
  rw [← prepare_ok_iff args source env false]
  unfold run
  simp only [loadCheckpoint, Option.isSome_none]
  cases prepare args source env false none with
  | error e => simp
  | ok p => simp [deliver, conclude, commit]

end

/-! ## A single length -/

/-- A configuration that scores every group. -/
def eagerConfig : Config :=
  { Config.default with
    anomaly := { AnomalyConfig.default with minSample := 1, minSample_pos := Nat.le_refl 1 } }

/-- A configuration that scores groups of one: the single length has no others to be compared
with, and the median of an empty list escapes from the run. -/
theorem run_raises_single :
    letI := Runtime.ascii
    ¬ ∃ result, (run (none : Option (Exporter Unit)) (none : Option (CheckpointStore Unit))
        ⟨eagerConfig, none, .finite 10, none⟩
        ⟨[sampleRecord "a" "03:04:05" "03:04:06.5"], none, none⟩ sampleEnv ⟨(), (), []⟩).1 =
          .ok result := by
  let := Runtime.ascii
  rintro ⟨result, h⟩
  have hraised : (run (none : Option (Exporter Unit)) (none : Option (CheckpointStore Unit))
      ⟨eagerConfig, none, .finite 10, none⟩
      ⟨[sampleRecord "a" "03:04:05" "03:04:06.5"], none, none⟩ sampleEnv
      ⟨(), (), []⟩).1.isOk = false := by decide +kernel
  rw [h] at hraised
  cases hraised

end InferenceControlPlane.Sli
