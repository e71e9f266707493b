import InferenceControlPlane.Python.Statistics
import InferenceControlPlane.Sli.Quality

/-!
# The reference score

`robust_zscore` scores a value against a baseline. `score_group` scales the other way
round and keeps absolute values; leaving one out, it summarizes the reference scores of
all positions.
-/
namespace InferenceControlPlane.Sli
open Python

/-- A score of the reference with its sign, which scores each length of a window against all
others. -/
structure AnomalyResult where
  status : QualityStatus
  score : Option ℚ
  isAnomaly : Bool
  deriving DecidableEq

/-- `robust_zscore`: the distance from the median in units of the median deviation, or of the mean
deviation where that is zero. -/
def robustZscore (value : Number) (baseline : List Number) (cfg : AnomalyConfig) :
    Except PyErr AnomalyResult := do
  if baseline.length < cfg.minSample then return ⟨.coldStart, none, false⟩
  let med ← median baseline
  let absDev ← baseline.mapM fun x => do return (← x.sub med).abs
  let mad ← median absDev
  if 0 < mad.value then
    let score ← (← (Number.float madToSigma).mul (← value.sub med)).div mad
    return ⟨.ok, some score.value, breaches cfg |score.value|⟩
  let meanAd ← (← Number.sum absDev).div (.int baseline.length)
  if 0 < meanAd.value then
    let score ← (← value.sub med).div (.float (meanAdToSigma * meanAd.value))
    return ⟨.ok, some score.value, breaches cfg |score.value|⟩
  if value.value = med.value then return ⟨.degenerateConstantBaseline, some 0, false⟩
  return ⟨.degenerateConstantBaseline, none, true⟩

namespace AnomalyResult

/-- The score without its sign, as a window keeps it. -/
def toScore (r : AnomalyResult) : Score := ⟨r.status, r.score.map fun z => |z|, r.isAnomaly⟩

end AnomalyResult

/-! ## One score -/

lemma scaled_scores (cfg : AnomalyConfig) (value med : Number) {mad : Number}
    (h : 0 < mad.value) :
    (do
      let z ← (← value.sub med).div (← mad.div (.float madToSigma))
      return (⟨.ok, some |z.value|, breaches cfg |z.value|⟩ : Score)) =
    (do
      let score ← (← (Number.float madToSigma).mul (← value.sub med)).div mad
      return (⟨.ok, some score.value, breaches cfg |score.value|⟩ : AnomalyResult)).map
        AnomalyResult.toScore := by
  have hsigma : madToSigma ≠ 0 := by decide +kernel
  simp only [map_bind]
  congr 1
  funext difference
  have hscale := Number.div_scaled hsigma difference h.ne'
  simp only [← bind_assoc] at hscale ⊢
  rw [hscale]
  rfl

/-- With enough of a baseline, the scorer of a group and `robust_zscore` agree, and they raise
alike. -/
theorem score_eq_reference (cfg : AnomalyConfig) (value : ℕ) {baseline : List ℕ}
    (hsample : ¬baseline.length < cfg.minSample) :
    score cfg value baseline =
      (robustZscore (.int value) (baseline.map fun n : ℕ => Number.int n) cfg).map
        AnomalyResult.toScore := by
  unfold score robustZscore
  rw [List.length_map, if_neg hsample]
  simp only [map_bind]
  congr 1
  funext med
  congr 1
  funext deviations
  congr 1
  funext mad
  by_cases hmad : 0 < mad.value
  · rw [if_pos hmad, if_pos hmad]
    exact scaled_scores cfg _ med hmad
  · rw [if_neg hmad, if_neg hmad]
    simp only [map_bind]
    congr 1
    funext total
    congr 1
    funext meanAd
    by_cases hmean : 0 < meanAd.value
    · rw [if_pos hmean, if_pos hmean]
      simp only [map_bind]
      rfl
    · rw [if_neg hmean, if_neg hmean]
      have hvalue : (Number.int value).value = (value : ℚ) := Int.cast_natCast value
      rw [hvalue]
      by_cases hconstant : (value : ℚ) = med.value
      · rw [if_pos hconstant, if_pos hconstant]
        exact congrArg (fun z => Except.ok (Score.mk _ (some z) false)) abs_zero.symm
      · rw [if_neg hconstant, if_neg hconstant]
        rfl

/-! ## Windows -/

/-- The reference score of each position against the lengths without it. -/
def references (cfg : AnomalyConfig) (lengths : List ℕ) : Except PyErr (List AnomalyResult) :=
  lengths.zipIdx.mapM fun e =>
    robustZscore (.int e.1) ((lengths.eraseIdx e.2).map fun n : ℕ => Number.int n) cfg

/-- The absolute values of the scores that are not `None`. -/
def absoluteScores (refs : List AnomalyResult) : List ℚ :=
  refs.filterMap fun r => r.score.map fun z => |z|

/-- What a window reports of the reference scores of its positions: how many are anomalies, and
the greatest absolute score. -/
structure Summarizes (refs : List AnomalyResult) (result : GroupResult) : Prop where
  anomalyCount : result.anomalyCount = refs.countP AnomalyResult.isAnomaly
  greatest : ∀ z, result.maxAbsZ = some z →
    z ∈ absoluteScores refs ∧ ∀ z' ∈ absoluteScores refs, z' ≤ z
  none : result.maxAbsZ = none ↔ ∀ r ∈ refs, r.score = none
  status : result.status = .ok ↔ ∃ r ∈ refs, r.status = .ok

lemma leaveOneOut_references (cfg : AnomalyConfig) {lengths : List ℕ}
    (hsample : cfg.minSample < lengths.length) :
    leaveOneOut cfg lengths = (references cfg lengths).map (List.map AnomalyResult.toScore) := by
  have hcall : ∀ e ∈ lengths.zipIdx, score cfg e.1 (lengths.eraseIdx e.2) =
      (robustZscore (.int e.1) ((lengths.eraseIdx e.2).map fun n : ℕ => Number.int n) cfg).map
        AnomalyResult.toScore := by
    intro e he
    apply score_eq_reference
    have hidx : e.2 < lengths.length := (List.mem_zipIdx' he).1
    rw [List.length_eraseIdx_of_lt hidx]
    omega
  rw [leaveOneOut, mapM_congr hcall, references, map_mapM]

lemma summarizes (refs : List AnomalyResult) :
    Summarizes refs (summarize (refs.map AnomalyResult.toScore)) := by
  have habs : (refs.map AnomalyResult.toScore).filterMap Score.absZ = absoluteScores refs :=
    List.filterMap_map
  constructor
  · exact List.countP_map
  · intro z hz
    rw [summarize, habs] at hz
    exact List.max?_eq_some_iff.mp hz
  · rw [summarize, habs, List.max?_eq_none_iff, absoluteScores, List.filterMap_eq_nil_iff]
    simp
  · rw [summarize]
    by_cases hany : (refs.map AnomalyResult.toScore).any (·.status == .ok) = true
    · rw [if_pos hany]
      simpa [AnomalyResult.toScore] using hany
    · rw [if_neg hany]
      simpa [AnomalyResult.toScore] using hany

/-- Up to 2000 lengths, a window reports what the reference says of its positions, each scored
against all others: the count of the anomalies, the greatest absolute score, and the same
exceptions. -/
theorem scoreGroup_reference (cfg : AnomalyConfig) (lengths : List ℕ)
    (hsample : cfg.minSample < lengths.length) (hexact : lengths.length ≤ exactLimit) :
    Paired Eq Summarizes (references cfg lengths) (scoreGroup cfg lengths) := by
  have hcold : ¬lengths.length < cfg.minSample := by omega
  rw [scoreGroup, if_neg hcold, if_pos hexact, leaveOneOut_references cfg hsample]
  cases references cfg lengths with
  | error e => exact .error rfl
  | ok refs => exact .ok (summarizes refs)

/-- The lengths up to 29, a two and a thousand. -/
theorem scoreGroup_reference_sample :
    ∃ refs result, references .default (1000 :: 2 :: List.range 30) = .ok refs ∧
      scoreGroup .default (1000 :: 2 :: List.range 30) = .ok result ∧
      Summarizes refs result ∧ result.anomalyCount = 1 := by
  have hcount : (scoreGroup .default (1000 :: 2 :: List.range 30)).toOption.map
      GroupResult.anomalyCount = some 1 := by decide +kernel
  have hpaired := scoreGroup_reference .default (1000 :: 2 :: List.range 30) (by decide) (by decide)
  rcases hpaired.outcomes with ⟨e, e', -, he', -⟩ | ⟨refs, result, hrefs, hresult, h⟩
  · rw [he'] at hcount
    cases hcount
  · rw [hresult] at hcount
    exact ⟨refs, result, hrefs, hresult, h, Option.some.inj hcount⟩

end InferenceControlPlane.Sli
