import InferenceControlPlane.Python.Statistics
import InferenceControlPlane.Sli.Quality

/-!
# Scoring and the order of arrival

A score does not depend on the order of its baseline. Leaving one out, a window is
scored alike in every order; cross-fitting scores it by the values that stand at even
and at odd positions.
-/
namespace InferenceControlPlane.Sli
open Python

/-! ## One score -/

/-- The deviations from the median, as `score` computes them. -/
def deviationsFrom (med : Number) (baseline : List ℕ) : Except PyErr (List Number) :=
  (baseline.map fun n : ℕ => Number.int n).mapM fun x => do return (← x.sub med).abs

/-- What `score` computes from the median and the deviations; only the multiset of the baseline
matters to both. -/
def scoreFrom (cfg : AnomalyConfig) (value size : ℕ) (med : Number) (deviations : List Number) :
    Except PyErr Score := do
  let mad ← median deviations
  if 0 < mad.value then
    let z ← (← (Number.int value).sub med).div (← mad.div (.float madToSigma))
    return ⟨.ok, some |z.value|, breaches cfg |z.value|⟩
  let meanAd ← (← Number.sum deviations).div (.int size)
  if 0 < meanAd.value then
    let z ← (← (Number.int value).sub med).div (.float (meanAdToSigma * meanAd.value))
    return ⟨.ok, some |z.value|, breaches cfg |z.value|⟩
  if (value : ℚ) = med.value then return ⟨.degenerateConstantBaseline, some 0, false⟩
  return ⟨.degenerateConstantBaseline, none, true⟩

lemma score_eq (cfg : AnomalyConfig) (value : ℕ) (baseline : List ℕ) :
    score cfg value baseline = (do
      let med ← median (baseline.map fun n : ℕ => Number.int n)
      scoreFrom cfg value baseline.length med (← deviationsFrom med baseline)) := rfl

lemma uniform_ints (baseline : List ℕ) :
    Number.Uniform (baseline.map fun n : ℕ => Number.int n) := by
  refine .inl fun x hx => ?_
  obtain ⟨n, -, rfl⟩ := List.mem_map.mp hx
  trivial

lemma deviation_error {med x : Number} {e : PyErr}
    (h : (do return (← x.sub med).abs) = (.error e : Except PyErr Number)) :
    e = .overflowError := by
  rcases bind_eq_error h with hsub | ⟨d, -, h⟩
  · exact Number.sub_error hsub
  · cases h

/-- The deviations are of the kind of the median. -/
lemma deviationsFrom_uniform {med : Number} {baseline : List ℕ} {deviations : List Number}
    (h : deviationsFrom med baseline = .ok deviations) : Number.Uniform deviations := by
  have hcall : ∀ d ∈ deviations, ∃ n : ℕ,
      (do return (← (Number.int n).sub med).abs) = (.ok d : Except PyErr Number) := by
    intro d hd
    obtain ⟨x, hx, hxd⟩ := exists_of_mem_mapM h hd
    obtain ⟨n, -, rfl⟩ := List.mem_map.mp hx
    exact ⟨n, hxd⟩
  cases med with
  | int m =>
    refine .inl fun d hd => ?_
    obtain ⟨n, hn⟩ := hcall d hd
    cases hn
    trivial
  | float q =>
    refine .inr fun d hd => ?_
    obtain ⟨n, hn⟩ := hcall d hd
    obtain ⟨difference, hsub, hn⟩ := bind_eq_ok hn
    obtain ⟨x, -, hsub⟩ := bind_eq_ok hsub
    cases hsub
    cases hn
    trivial

theorem score_perm (cfg : AnomalyConfig) (value : ℕ) {baseline baseline' : List ℕ}
    (hp : baseline.Perm baseline') : score cfg value baseline = score cfg value baseline' := by
  have hmed := median_of_perm (uniform_ints baseline) (hp.map fun n : ℕ => Number.int n)
  rw [score_eq, score_eq, hmed, hp.length_eq]
  cases median (baseline'.map fun n : ℕ => Number.int n) with
  | error e => rfl
  | ok med =>
    have hdev : SameOutcome (deviationsFrom med baseline) (deviationsFrom med baseline') :=
      mapM_perm (hp.map fun n : ℕ => Number.int n) fun _ _ _ h => deviation_error h
    show (deviationsFrom med baseline >>= _) = (deviationsFrom med baseline' >>= _)
    rcases hdev.outcomes with ⟨e, e', he, he', rfl⟩ | ⟨ds, ds', hds, hds', hperm⟩
    · rw [he, he']
    · have huniform := deviationsFrom_uniform hds
      rw [hds, hds']
      show scoreFrom cfg value _ med ds = scoreFrom cfg value _ med ds'
      rw [scoreFrom, scoreFrom, median_of_perm huniform hperm, Number.sum_of_perm huniform hperm]

lemma scoreFrom_error {cfg : AnomalyConfig} {value size : ℕ} {med : Number}
    {deviations : List Number} (hsize : size ≠ 0) (hne : deviations ≠ []) {e : PyErr}
    (h : scoreFrom cfg value size med deviations = .error e) : e = .overflowError := by
  have hsigma : (Number.float madToSigma).value ≠ 0 := by decide +kernel
  have hscale : (0 : ℚ) < meanAdToSigma := by decide +kernel
  rcases bind_eq_error h with h | ⟨mad, -, h⟩
  · exact median_error hne h
  by_cases hmad : 0 < mad.value
  · -- scaled by the median deviation
    rw [if_pos hmad] at h
    rcases bind_eq_error h with h | ⟨difference, -, h⟩
    · exact Number.sub_error h
    rcases bind_eq_error h with h | ⟨unit, hunit, h⟩
    · exact Number.div_error hsigma h
    rcases bind_eq_error h with h | ⟨z, -, h⟩
    · refine Number.div_error ?_ h
      rw [Number.value_div hunit]
      exact div_ne_zero hmad.ne' hsigma
    · cases h
  rw [if_neg hmad] at h
  rcases bind_eq_error h with h | ⟨total, -, h⟩
  · exact Number.sum_error h
  rcases bind_eq_error h with h | ⟨meanAd, -, h⟩
  · exact Number.div_error (by simpa using hsize) h
  by_cases hmean : 0 < meanAd.value
  · -- scaled by the mean deviation
    rw [if_pos hmean] at h
    have hunit : (Number.float (meanAdToSigma * meanAd.value)).value ≠ 0 :=
      (mul_pos hscale hmean).ne'
    rcases bind_eq_error h with h | ⟨difference, -, h⟩
    · exact Number.sub_error h
    rcases bind_eq_error h with h | ⟨z, -, h⟩
    · exact Number.div_error hunit h
    · cases h
  rw [if_neg hmean] at h
  split_ifs at h <;> cases h

/-- Against a nonempty baseline a score can only leave the range of floats. -/
theorem score_error {cfg : AnomalyConfig} {value : ℕ} {baseline : List ℕ} (hne : baseline ≠ [])
    {e : PyErr} (h : score cfg value baseline = .error e) : e = .overflowError := by
  have hlength : baseline.length ≠ 0 := mt List.length_eq_zero_iff.mp hne
  rw [score_eq] at h
  rcases bind_eq_error h with h | ⟨med, -, h⟩
  · exact median_error (by simpa using hne) h
  rcases bind_eq_error h with h | ⟨deviations, hdev, h⟩
  · obtain ⟨x, -, hx⟩ := exists_of_mapM_error h
    exact deviation_error hx
  · refine scoreFrom_error hlength (fun hnil => hlength ?_) h
    have hlen := length_of_mapM hdev
    simpa [hnil] using hlen.symm

/-! ## Windows -/

lemma max?_perm {xs ys : List ℚ} (hp : xs.Perm ys) : xs.max? = ys.max? := by
  induction hp with
  | nil => rfl
  | cons x hp ih => rw [List.max?_cons, List.max?_cons, ih]
  | swap x y xs =>
    simp only [List.max?_cons, Option.elim_some]
    cases xs.max? with
    | none => exact congrArg some (max_comm y x)
    | some z => exact congrArg some (max_left_comm y x z)
  | trans hp hq ih ih' => exact ih.trans ih'

theorem summarize_perm {scored scored' : List Score} (hp : scored.Perm scored') :
    summarize scored = summarize scored' := by
  rw [summarize, summarize, hp.any_eq, hp.countP_eq, max?_perm (hp.filterMap Score.absZ)]

/-- Leaving out a position is removing its value. -/
lemma eraseIdx_perm_erase {lengths : List ℕ} {e : ℕ × ℕ} (he : e ∈ lengths.zipIdx) :
    (lengths.eraseIdx e.2).Perm (lengths.erase e.1) := by
  rw [List.mem_zipIdx_iff_getElem?, List.getElem?_eq_some_iff] at he
  obtain ⟨hi, hv⟩ := he
  have hmem : e.1 ∈ lengths := hv ▸ List.getElem_mem hi
  have hidx := List.getElem_cons_eraseIdx_perm hi
  rw [hv] at hidx
  exact (hidx.trans (List.perm_cons_erase hmem)).cons_inv

lemma leaveOneOut_eq (cfg : AnomalyConfig) (lengths : List ℕ) :
    leaveOneOut cfg lengths = lengths.mapM fun v => score cfg v (lengths.erase v) := by
  have hcall : ∀ e ∈ lengths.zipIdx, score cfg e.1 (lengths.eraseIdx e.2) =
      score cfg e.1 (lengths.erase e.1) :=
    fun e he => score_perm cfg e.1 (eraseIdx_perm_erase he)
  calc leaveOneOut cfg lengths
      = lengths.zipIdx.mapM fun e => score cfg e.1 (lengths.erase e.1) := mapM_congr hcall
    _ = (lengths.zipIdx.map Prod.fst).mapM fun v => score cfg v (lengths.erase v) :=
        by rw [List.mapM_map]; rfl
    _ = _ := by rw [List.zipIdx_map_fst]

/-- In every order the values are scored against the same others, so that the group has the same
anomalies. -/
theorem leaveOneOut_perm (cfg : AnomalyConfig) {lengths lengths' : List ℕ}
    (hp : lengths.Perm lengths') (hlen : 2 ≤ lengths.length) :
    SameOutcome (leaveOneOut cfg lengths) (leaveOneOut cfg lengths') := by
  have hcall : ∀ v ∈ lengths', score cfg v (lengths'.erase v) = score cfg v (lengths.erase v) :=
    fun v _ => score_perm cfg v (hp.symm.erase v)
  rw [leaveOneOut_eq, leaveOneOut_eq, mapM_congr hcall]
  refine mapM_perm hp fun v hv e he => score_error (fun hnil => ?_) he
  have herase := List.length_erase_of_mem hv
  rw [hnil, List.length_nil] at herase
  omega

/-! ## Cross-fitting -/

/-- The values with the parities of their positions. -/
def parities (lengths : List ℕ) (first : ℕ) : List (ℕ × ℕ) :=
  (lengths.zipIdx first).map fun e => (e.1, e.2 % 2)

/-- Both halves together are the window. -/
lemma parities_perm (lengths : List ℕ) {first : ℕ} (h : first % 2 = 0) :
    (parities lengths first).Perm ((evens lengths).map (·, 0) ++ (odds lengths).map (·, 1)) := by
  induction lengths using evens.induct generalizing first with
  | case1 => exact .nil
  | case2 a => simp [parities, evens, odds, h]
  | case3 a b rest ih =>
    have hnext : (first + 1) % 2 = 1 := by omega
    have hrest := ih (show (first + 1 + 1) % 2 = 0 by omega)
    simp only [parities, List.zipIdx_cons, List.map_cons, h, hnext, evens, odds,
      List.cons_append] at hrest ⊢
    exact ((hrest.cons (b, 1)).trans List.perm_middle.symm).cons (a, 0)

/-- Each of two halves scored against the other. -/
def halvesScored (cfg : AnomalyConfig) (left right : List ℕ) : Except PyErr (List Score) :=
  (left.map (·, right) ++ right.map (·, left)).mapM fun e => score cfg e.1 e.2

lemma halvesScored_raises (cfg : AnomalyConfig) {left right : List ℕ}
    (hleft : left ≠ []) (hright : right ≠ []) :
    RaisesOnly .overflowError (fun e : ℕ × List ℕ => score cfg e.1 e.2)
      (left.map (·, right) ++ right.map (·, left)) := by
  intro e he err herr
  apply score_error _ herr
  rcases List.mem_append.mp he with he | he
  · obtain ⟨v, -, rfl⟩ := List.mem_map.mp he
    exact hright
  · obtain ⟨v, -, rfl⟩ := List.mem_map.mp he
    exact hleft

/-- The order within the halves does not matter. -/
theorem halvesScored_perm (cfg : AnomalyConfig) {left left' right right' : List ℕ}
    (hleft : left ≠ []) (hright : right ≠ []) (hl : left.Perm left') (hr : right.Perm right') :
    SameOutcome (halvesScored cfg left right) (halvesScored cfg left' right') := by
  have hbaseline : halvesScored cfg left' right' =
      (left'.map (·, right) ++ right'.map (·, left)).mapM fun e => score cfg e.1 e.2 := by
    simp only [halvesScored, List.mapM_append, List.mapM_map, Function.comp_def,
      score_perm cfg _ hl.symm, score_perm cfg _ hr.symm]
  rw [hbaseline]
  exact mapM_perm ((hl.map _).append (hr.map _)) (halvesScored_raises cfg hleft hright)

/-- Nor does it matter which half is the first, as each is scored against the other. -/
theorem halvesScored_swap (cfg : AnomalyConfig) {left right : List ℕ}
    (hleft : left ≠ []) (hright : right ≠ []) :
    SameOutcome (halvesScored cfg left right) (halvesScored cfg right left) :=
  mapM_perm List.perm_append_comm (halvesScored_raises cfg hleft hright)

/-- Cross-fitting sees the two halves only. -/
theorem crossFit_halves (cfg : AnomalyConfig) {lengths : List ℕ}
    (heven : evens lengths ≠ []) (hodd : odds lengths ≠ []) :
    SameOutcome (halvesScored cfg (evens lengths) (odds lengths)) (crossFit cfg lengths) := by
  let pair : ℕ × ℕ → ℕ × List ℕ :=
    fun e => (e.1, if e.2 = 0 then odds lengths else evens lengths)
  have hpairs : ((evens lengths).map (·, 0) ++ (odds lengths).map (·, 1)).map pair =
      (evens lengths).map (·, odds lengths) ++ (odds lengths).map (·, evens lengths) := by
    simp only [List.map_append, List.map_map]
    rfl
  have hcross : crossFit cfg lengths =
      ((parities lengths 0).map pair).mapM fun e => score cfg e.1 e.2 := by
    rw [parities, List.map_map, List.mapM_map]
    rfl
  rw [hcross]
  apply mapM_perm _ (halvesScored_raises cfg heven hodd)
  rw [← hpairs]
  exact ((parities_perm lengths rfl).map pair).symm

/-- The same halves, each in any order and either one first. -/
def SameHalves (lengths lengths' : List ℕ) : Prop :=
  ((evens lengths).Perm (evens lengths') ∧ (odds lengths).Perm (odds lengths')) ∨
    ((evens lengths).Perm (odds lengths') ∧ (odds lengths).Perm (evens lengths'))

lemma SameHalves.empty_iff {lengths lengths' : List ℕ} (h : SameHalves lengths lengths') :
    (evens lengths = [] ∨ odds lengths = []) ↔ (evens lengths' = [] ∨ odds lengths' = []) := by
  simp only [← List.length_eq_zero_iff]
  rcases h with ⟨heven, hodd⟩ | ⟨heven, hodd⟩
  · rw [heven.length_eq, hodd.length_eq]
  · rw [heven.length_eq, hodd.length_eq]
    exact or_comm

theorem SameHalves.halvesScored {cfg : AnomalyConfig} {lengths lengths' : List ℕ}
    (h : SameHalves lengths lengths') (heven : evens lengths ≠ []) (hodd : odds lengths ≠ []) :
    SameOutcome (halvesScored cfg (evens lengths) (odds lengths))
      (halvesScored cfg (evens lengths') (odds lengths')) := by
  rcases h with ⟨he, ho⟩ | ⟨he, ho⟩
  · exact halvesScored_perm cfg heven hodd he ho
  · exact (halvesScored_swap cfg heven hodd).trans (halvesScored_perm cfg hodd heven ho he)

/-! ## Groups -/

/-- The summary of what the scores came to. -/
def summarized (scored : Except PyErr (List Score)) : Except PyErr GroupResult := do
  return summarize (← scored)

lemma summarized_eq {scored scored' : Except PyErr (List Score)}
    (h : SameOutcome scored scored') : summarized scored = summarized scored' := by
  cases h with
  | error he => rw [he]
  | ok hp => exact congrArg Except.ok (summarize_perm hp)

/-- A large group is scored by its halves: only which values stand at even and which at odd
positions matters. -/
theorem scoreGroup_halves (cfg : AnomalyConfig) {lengths : List ℕ}
    (hcold : ¬lengths.length < cfg.minSample) (hexact : ¬lengths.length ≤ exactLimit)
    (hne : ¬(evens lengths = [] ∨ odds lengths = [])) :
    scoreGroup cfg lengths = summarized (halvesScored cfg (evens lengths) (odds lengths)) := by
  rw [scoreGroup, if_neg hcold, if_neg hexact, if_neg hne]
  have hhalves := crossFit_halves cfg (not_or.mp hne).1 (not_or.mp hne).2
  exact (summarized_eq hhalves).symm

/-- The result does not depend on the order in which the lengths arrived, up to 2000
of them; beyond, only on how that order divides them into halves. -/
theorem scoreGroup_perm (cfg : AnomalyConfig) (hmin : 2 ≤ cfg.minSample)
    {lengths lengths' : List ℕ} (hp : lengths.Perm lengths')
    (hhalves : exactLimit < lengths.length → SameHalves lengths lengths') :
    scoreGroup cfg lengths = scoreGroup cfg lengths' := by
  have hlen := hp.length_eq
  by_cases hcold : lengths.length < cfg.minSample
  · rw [scoreGroup, scoreGroup, if_pos hcold, if_pos (hlen ▸ hcold)]
  have hcold' : ¬lengths'.length < cfg.minSample := hlen ▸ hcold
  by_cases hexact : lengths.length ≤ exactLimit
  · rw [scoreGroup, scoreGroup, if_neg hcold, if_neg hcold', if_pos hexact,
      if_pos (hlen ▸ hexact)]
    exact summarized_eq (leaveOneOut_perm cfg hp (by omega))
  have hexact' : ¬lengths'.length ≤ exactLimit := hlen ▸ hexact
  have hsame := hhalves (not_le.mp hexact)
  by_cases hempty : evens lengths = [] ∨ odds lengths = []
  · rw [scoreGroup, scoreGroup, if_neg hcold, if_neg hcold', if_neg hexact, if_neg hexact',
      if_pos hempty, if_pos (hsame.empty_iff.mp hempty)]
  · have hempty' := mt hsame.empty_iff.mpr hempty
    rw [scoreGroup_halves cfg hcold hexact hempty, scoreGroup_halves cfg hcold' hexact' hempty']
    exact summarized_eq (hsame.halvesScored (not_or.mp hempty).1 (not_or.mp hempty).2)

/-- More than 2000 lengths, whose even and odd positions are rearranged separately. -/
theorem scoreGroup_perm_sample :
    scoreGroup .default (2 :: 1 :: 2 :: List.replicate 1999 1) =
      scoreGroup .default (1 :: 1 :: 2 :: 1 :: 2 :: List.replicate 1997 1) :=
  scoreGroup_perm .default (by decide) (by decide +kernel)
    fun _ => .inl ⟨by decide +kernel, by decide +kernel⟩

/-! ## Two arrivals of the same lengths -/

deriving instance DecidableEq for Score

lemma halvesScored_eq {cfg : AnomalyConfig} {left right : List ℕ} {f g : ℕ → Score}
    (hleft : ∀ v ∈ left, score cfg v right = .ok (f v))
    (hright : ∀ v ∈ right, score cfg v left = .ok (g v)) :
    halvesScored cfg left right = .ok (left.map f ++ right.map g) := by
  rw [halvesScored, List.mapM_append, List.mapM_map, List.mapM_map]
  simp only [Function.comp_def, mapM_eq_ok left hleft, mapM_eq_ok right hright]
  rfl

/-- What a one and a two score against ones only. -/
def constantScore (v : ℕ) : Score :=
  if v = 1 then ⟨.degenerateConstantBaseline, some 0, false⟩
  else ⟨.degenerateConstantBaseline, none, true⟩

/-- What they score against a two and 1000 ones. -/
def mixedScore (v : ℕ) : Score :=
  if v = 1 then ⟨.ok, some 0, false⟩ else ⟨.ok, some (10010000 / 12533), true⟩

lemma score_constant : ∀ v ∈ [1, 2],
    (score .default v (List.replicate 1001 1)).toOption = some (constantScore v) := by
  decide +kernel

lemma score_two_twos : (score .default 1 (2 :: 2 :: List.replicate 999 1)).toOption =
    some ⟨.ok, some 0, false⟩ := by decide +kernel

lemma score_one_two : ∀ v ∈ [1, 2],
    (score .default v (2 :: List.replicate 1000 1)).toOption = some (mixedScore v) := by
  decide +kernel

lemma one_or_two {v n : ℕ} (lengths : List ℕ) (hlengths : ∀ w ∈ lengths, w ∈ [1, 2])
    (hv : v ∈ lengths ++ List.replicate n 1) : v ∈ [1, 2] := by
  rcases List.mem_append.mp hv with hv | hv
  · exact hlengths v hv
  · rw [List.eq_of_mem_replicate hv]
    exact List.mem_cons_self

lemma summarize_eq {scored : List Score} {z : ℚ} (hok : ∃ s ∈ scored, s.status = .ok)
    (hmem : z ∈ scored.filterMap Score.absZ) (hle : ∀ x ∈ scored.filterMap Score.absZ, x ≤ z) :
    summarize scored = ⟨.ok, scored.countP (·.anomaly), some z⟩ := by
  have hany : scored.any (·.status == .ok) = true := by simpa using hok
  rw [summarize, if_pos hany, List.max?_eq_some_iff.mpr ⟨hmem, hle⟩]

/-- Both twos at even positions are compared with ones only. At an even and an odd
position, each is compared with the other's half. -/
theorem halves_matter :
    2 ≤ AnomalyConfig.default.minSample ∧
    (2 :: 1 :: 2 :: List.replicate 1999 1).Perm (2 :: 2 :: List.replicate 2000 1) ∧
    scoreGroup .default (2 :: 1 :: 2 :: List.replicate 1999 1) = .ok ⟨.ok, 2, some 0⟩ ∧
    scoreGroup .default (2 :: 2 :: List.replicate 2000 1) =
      .ok ⟨.ok, 2, some (10010000 / 12533)⟩ := by
  refine ⟨by decide, by decide +kernel, ?_, ?_⟩
  · have heven : evens (2 :: 1 :: 2 :: List.replicate 1999 1) = 2 :: 2 :: List.replicate 999 1 := by
      decide +kernel
    have hodd : odds (2 :: 1 :: 2 :: List.replicate 1999 1) = List.replicate 1001 1 := by
      decide +kernel
    have hleft : ∀ v ∈ 2 :: 2 :: List.replicate 999 1,
        score .default v (List.replicate 1001 1) = .ok (constantScore v) := fun v hv =>
      eq_ok_of_toOption (score_constant v (one_or_two [2, 2] (by decide) hv))
    have hright : ∀ v ∈ List.replicate 1001 1,
        score .default v (2 :: 2 :: List.replicate 999 1) = .ok ⟨.ok, some 0, false⟩ := by
      intro v hv
      rw [List.eq_of_mem_replicate hv]
      exact eq_ok_of_toOption score_two_twos
    rw [scoreGroup_halves _ (by decide +kernel) (by decide +kernel) (by decide +kernel),
      heven, hodd, halvesScored_eq hleft hright]
    apply congrArg Except.ok
    rw [summarize_eq (z := 0) (by decide +kernel) (by decide +kernel) (by decide +kernel)]
    exact congrArg (GroupResult.mk .ok · (some 0)) (by decide +kernel)
  · have heven : evens (2 :: 2 :: List.replicate 2000 1) = 2 :: List.replicate 1000 1 := by
      decide +kernel
    have hodd : odds (2 :: 2 :: List.replicate 2000 1) = 2 :: List.replicate 1000 1 := by
      decide +kernel
    have hscore : ∀ v ∈ 2 :: List.replicate 1000 1,
        score .default v (2 :: List.replicate 1000 1) = .ok (mixedScore v) := fun v hv =>
      eq_ok_of_toOption (score_one_two v (one_or_two [2] (by decide) hv))
    rw [scoreGroup_halves _ (by decide +kernel) (by decide +kernel) (by decide +kernel),
      heven, hodd, halvesScored_eq hscore hscore]
    apply congrArg Except.ok
    rw [summarize_eq (z := 10010000 / 12533) (by decide +kernel) (by decide +kernel)
      (by decide +kernel)]
    exact congrArg (GroupResult.mk .ok · (some (10010000 / 12533))) (by decide +kernel)

end InferenceControlPlane.Sli
