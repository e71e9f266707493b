import InferenceControlPlane.Sli.Reconcile

/-!
# Governed and unique points

Every normaliser lands in the registered vocabulary of its dimension, so every
point the pipeline builds passes the check that the exporters make. Within one
run no two points share a name and a dimension set: sections have different names,
and inside a section the dimensions tell the grouping keys apart.
-/
namespace InferenceControlPlane.Sli
open Python Normalize

/-! ## Normalised values are registered -/

/-- The value is in the registered vocabulary of the dimension. -/
def Registered (dimension value : String) : Prop := value ∈ (vocabularyOf dimension).getD []

instance (dimension value : String) : Decidable (Registered dimension value) :=
  inferInstanceAs (Decidable (value ∈ (vocabularyOf dimension).getD []))

lemma mem_of_lookup {table : List (String × String)} {key value : String}
    (h : table.lookup key = some value) : value ∈ table.map Prod.snd := by
  induction table with
  | nil => cases h
  | cons e es ih =>
    rw [List.lookup_cons] at h
    split at h
    · cases h
      exact List.mem_cons_self
    · exact List.mem_cons_of_mem _ (ih h)

section Normalisers
variable [Runtime]

omit [Runtime] in
/-- A folding table only yields its own values or the fallback. -/
lemma registered_lookup {dimension fallback : String} {table : List (String × String)}
    (htable : ∀ value ∈ table.map Prod.snd, Registered dimension value)
    (hother : Registered dimension fallback) (key : String) :
    Registered dimension ((table.lookup key).getD fallback) := by
  cases h : table.lookup key with
  | none => exact hother
  | some value => exact htable value (mem_of_lookup h)

/-- A canonical map only yields the values it was built from. -/
lemma mem_of_canonical {values : List String} {key value : String}
    (h : (canonical values).get? key = some value) : value ∈ values := by
  rcases Dict.mem_of_get?_update h with h | h
  · obtain ⟨v, hv, heq⟩ := List.mem_map.mp h
    cases heq
    exact hv
  · cases h

lemma registered_canonical {dimension : String} {values : List String}
    (hvalues : ∀ value ∈ values, Registered dimension value) (hother : Registered dimension other)
    (key : String) : Registered dimension ((canonical values).getD key other) := by
  rw [Dict.getD]
  cases h : (canonical values).get? key with
  | none => exact hother
  | some value => exact hvalues value (mem_of_canonical h)

theorem env_registered (obs : Observation) : Registered "env" (env obs) :=
  registered_lookup (by decide) (by decide) _

theorem team_registered (obs : Observation) (cfg : Config) :
    Registered "team" (team obs cfg) := by
  unfold team
  simp only
  split_ifs
  · decide
  · refine registered_canonical (fun value hv => ?_) (by decide) _
    exact (show ∀ v ∈ registeredTeams, Registered "team" v by decide) _ (cfg.teams_registered hv)

theorem route_registered (obs : Observation) (cfg : Config) :
    Registered "route" (route obs cfg) := by
  unfold route
  simp only
  split_ifs
  · refine registered_canonical (fun value hv => ?_) (by decide) _
    exact (show ∀ v ∈ registeredRoutes, Registered "route" v by decide) _
      (cfg.routes_registered hv)
  · decide

theorem modelFamily_registered (providedModel : String) :
    Registered "model_family" (modelFamily providedModel) := by
  unfold modelFamily
  simp only
  split_ifs
  · decide
  · decide
  · decide
  · decide
  · decide
  · cases h : modelRules.find? fun rule => rule.1.isMatch providedModel with
    | none => decide
    | some rule =>
      have hmem : rule.2 ∈ modelRules.map Prod.snd :=
        List.mem_map_of_mem (List.mem_of_find?_eq_some h)
      simp only [modelRules, List.map_cons, List.map_nil, List.mem_cons, List.not_mem_nil,
        or_false] at hmem
      rcases hmem with hr | hr | hr | hr <;> simp only [Option.map_some, Option.getD_some, hr] <;>
        decide

theorem errorCategory_registered (obs : Observation) :
    Registered "error_category" ((errorCategory obs).getD unknown) := by
  have hlookup : ∀ key, Registered "error_category" ((errorTypeMap.lookup key).getD unknown) :=
    registered_lookup (by decide) (by decide)
  unfold errorCategory
  split_ifs
  · cases obs.error with
    | none => exact (by decide : Registered "error_category" unknown)
    | some errorType =>
      simp only
      split_ifs
      · exact (by decide : Registered "error_category" unknown)
      · exact hlookup _
  · exact (by decide : Registered "error_category" unknown)

omit [Runtime] in
theorem providerRegion_registered (obs : Observation) :
    Registered "provider_region" (providerRegion obs) := by
  unfold providerRegion
  cases h : providerMap.find? fun rule => startsWith obs.internalModel rule.1 with
  | none => exact (by decide : Registered "provider_region" other)
  | some rule =>
    exact (show ∀ rule ∈ providerMap, Registered "provider_region" rule.2 by decide) _
      (List.mem_of_find?_eq_some h)

theorem foldedDimensions_registered (obs : Observation) (cfg : Config) :
    ∀ dim ∈ foldedDimensions obs cfg, Registered "dimension" dim := by
  intro dim h
  have hcase : ∀ {c : Prop} [Decidable c] {d : String}, Registered "dimension" d →
      dim ∈ (if c then [d] else []) → Registered "dimension" dim := by
    intro c _ d hd hmem
    split_ifs at hmem
    · rwa [List.mem_singleton.mp hmem]
    · cases hmem
  simp only [foldedDimensions, List.mem_append] at h
  rcases h with (((h | h) | h) | h) | h
  · exact hcase (by decide) h
  · exact hcase (by decide) h
  · exact hcase (by decide) h
  · exact hcase (by decide) h
  · exact hcase (by decide) h

end Normalisers

/-! ## Governed dimensions -/

/-- Allowed keys with registered values. -/
def GovernedDims (allowed : List String) (dims : Dict String String) : Prop :=
  ∀ k v, dims.get? k = some v → k ∈ allowed ∧ Registered k v

theorem governedDims_empty (allowed : List String) : GovernedDims allowed .empty := by
  intro k v h
  cases h

theorem GovernedDims.set {allowed : List String} {dims : Dict String String}
    (h : GovernedDims allowed dims) {key value : String} (hk : key ∈ allowed)
    (hv : Registered key value) : GovernedDims allowed (dims.set key value) := by
  intro k v hget
  rw [Dict.get?_set] at hget
  split_ifs at hget with heq
  · cases hget
    exact heq ▸ ⟨hk, hv⟩
  · exact h k v hget

theorem GovernedDims.mono {allowed allowed' : List String} {dims : Dict String String}
    (h : GovernedDims allowed dims) (hs : allowed ⊆ allowed') : GovernedDims allowed' dims :=
  fun k v hget => ⟨hs (h k v hget).1, (h k v hget).2⟩

lemma attributeKey_of_registered {key value : String} (h : Registered key value) :
    key ∈ allowedAttributeKeys := by
  unfold Registered vocabularyOf at h
  cases hf : registry.find? (·.name == key) with
  | none => simp [hf] at h
  | some d =>
    have hname : (d.name == key) = true :=
      List.find?_some (p := fun d : Dimension => d.name == key) hf
    rw [← beq_iff_eq.mp hname]
    exact List.mem_map_of_mem (List.mem_of_find?_eq_some hf)

/-- The check of one point, against the definition under its name: type, unit, dimensions and
their values. -/
theorem assertPoint_ok {p : MetricPoint} {d : MetricDefinition}
    (hl : metricRegistry.lookup p.name = some d) (ht : p.type = d.type) (hu : p.unit = d.unit)
    (hd : GovernedDims d.allowedDimensions p.dims) : assertPoint p = .ok () := by
  have hkey : ∀ k ∈ p.dims.keys, k ∈ d.allowedDimensions ∧ k ∈ allowedAttributeKeys := by
    intro k hk
    obtain ⟨v, hv⟩ := Dict.mem_iff_get?.mp (Dict.mem_def.mpr hk)
    exact ⟨(hd k v hv).1, attributeKey_of_registered (hd k v hv).2⟩
  have hentry : ∀ e ∈ p.dims.entries, e.2 ∈ (vocabularyOf e.1).getD [] := fun e he =>
    (hd e.1 e.2 (Dict.mem_entries.mp he)).2
  have h1 : (p.dims.keys.any fun k => decide (k ∉ d.allowedDimensions)) = false := by
    rw [List.any_eq_false]
    exact fun k hk => by simpa using (hkey k hk).1
  have h2 : (p.dims.keys.any fun k => decide (k ∉ allowedAttributeKeys)) = false := by
    rw [List.any_eq_false]
    exact fun k hk => by simpa using (hkey k hk).2
  have h3 : (p.dims.entries.any fun e => decide (e.2 ∉ (vocabularyOf e.1).getD [])) = false := by
    rw [List.any_eq_false]
    exact fun e he => by simpa using hentry e he
  unfold assertPoint
  simp only [hl, ht, hu, ne_eq, not_true_eq_false, or_self, if_false, h1, h2, h3,
    Bool.false_eq_true]

section Dims

theorem governed_asDict {pk : PrimaryDims} (hteam : Registered "team" pk.team)
    (hroute : Registered "route" pk.route) (hfamily : Registered "model_family" pk.modelFamily)
    (henv : Registered "env" pk.env) : GovernedDims primaryDimensions pk.asDict := by
  refine GovernedDims.set (GovernedDims.set (GovernedDims.set (GovernedDims.set
    (governedDims_empty _) ?_ hteam) ?_ hroute) ?_ hfamily) ?_ henv <;> simp [primaryDimensions]

theorem governed_costDims {cfg : Config} {key : CostKey} (hteam : Registered "team" key.1)
    (hroute : Registered "route" key.2.1) (hfamily : Registered "model_family" key.2.2.1)
    (hregion : cfg.includeProviderRegion = true → Registered "provider_region" key.2.2.2) :
    GovernedDims costDimensions (Aggregator.costDims cfg key) := by
  have hbase : GovernedDims costDimensions (Dict.ofList [("team", key.1), ("route", key.2.1),
      ("model_family", key.2.2.1)]) := by
    refine GovernedDims.set (GovernedDims.set (GovernedDims.set
      (governedDims_empty _) ?_ hteam) ?_ hroute) ?_ hfamily <;> simp [costDimensions]
  unfold Aggregator.costDims
  simp only
  split_ifs with hr
  · exact hbase.set (by decide) (hregion hr)
  · exact hbase

theorem governed_qualityKey {key : QualityKey} (hroute : Registered "route" key.route)
    (hfamily : ∀ family, key.modelFamily = some family → Registered "model_family" family) :
    GovernedDims qualityDimensions key.asDict := by
  unfold QualityKey.asDict
  cases h : key.modelFamily with
  | none => exact GovernedDims.set (governedDims_empty _) (by simp [qualityDimensions]) hroute
  | some family =>
    exact GovernedDims.set (GovernedDims.set (governedDims_empty _) (by simp [qualityDimensions])
      hroute) (by simp [qualityDimensions]) (hfamily family h)

end Dims

/-! ## Sound sections -/

/-- A group of points: their names, that each passes the check, and that name and
dimensions identify a point. -/
structure Sound (names : List String) (points : List MetricPoint) : Prop where
  named : Named names points
  governed : ∀ p ∈ points, assertPoint p = .ok ()
  distinct : points.Pairwise fun p q => p.name = q.name → p.dims.same q.dims = false

theorem sound_nil (names : List String) : Sound names [] :=
  ⟨named_nil names, by simp, List.Pairwise.nil⟩

theorem sound_singleton {p : MetricPoint} (h : assertPoint p = .ok ()) : Sound [p.name] [p] :=
  ⟨by simp [Named], by simpa using h, List.pairwise_singleton _ _⟩

theorem Sound.mono {names names' : List String} {points : List MetricPoint}
    (h : Sound names points) (hs : names ⊆ names') : Sound names' points :=
  ⟨h.named.mono hs, h.governed, h.distinct⟩

/-- Sections with different names are sound together, so that each section is proved by itself. -/
theorem Sound.append {names names' : List String} {a b : List MetricPoint} (ha : Sound names a)
    (hb : Sound names' b) (hd : ∀ name ∈ names, name ∉ names') :
    Sound (names ++ names') (a ++ b) where
  named := (ha.named.mono (List.subset_append_left _ _)).append
    (hb.named.mono (List.subset_append_right _ _))
  governed p hp := (List.mem_append.mp hp).elim (ha.governed p) (hb.governed p)
  distinct := by
    rw [List.pairwise_append]
    refine ⟨ha.distinct, hb.distinct, fun p hp q hq heq => ?_⟩
    exact absurd (hb.named q hq) (hd q.name (heq ▸ ha.named p hp))

theorem Sound.cons {names : List String} {p : MetricPoint} {points : List MetricPoint}
    (h : Sound names points) (hp : assertPoint p = .ok ()) (hn : p.name ∉ names) :
    Sound (p.name :: names) (p :: points) :=
  (sound_singleton hp).append h (by simpa using hn)

theorem sound_ite {names : List String} {c : Prop} [Decidable c] {a b : List MetricPoint}
    (ha : Sound names a) (hb : Sound names b) : Sound names (if c then a else b) := by
  split_ifs
  · exact ha
  · exact hb

/-- One group of points for each key: the dimensions of a group tell its key. -/
theorem sound_flatMap {α κ : Type} {names : List String} {xs : List α} {k : α → κ}
    {g : α → List MetricPoint} (hkeys : (xs.map k).Nodup) (hg : ∀ x ∈ xs, Sound names (g x))
    (hinj : ∀ x ∈ xs, ∀ y ∈ xs, ∀ p ∈ g x, ∀ q ∈ g y,
      (∀ dim, p.dims.get? dim = q.dims.get? dim) → k x = k y) :
    Sound names (xs.flatMap g) where
  named := named_flatMap fun x hx => (hg x hx).named
  governed p hp := by
    obtain ⟨x, hx, hp⟩ := List.mem_flatMap.mp hp
    exact (hg x hx).governed p hp
  distinct := by
    rw [List.pairwise_flatMap]
    refine ⟨fun x hx => (hg x hx).distinct, ?_⟩
    refine (List.pairwise_map.mp hkeys).imp_of_mem fun {x y} hx hy hne p hp q hq _ => ?_
    rw [Bool.eq_false_iff, Ne, Dict.same_iff]
    exact fun hsame => hne (hinj x hx y hy p hp q hq hsame)

/-- A single point without dimensions. -/
theorem sound_plain {p : MetricPoint} {d : MetricDefinition}
    (hl : metricRegistry.lookup p.name = some d) (ht : p.type = d.type) (hu : p.unit = d.unit)
    (hdims : p.dims = .empty) : Sound [p.name] [p] :=
  sound_singleton (assertPoint_ok hl ht hu (hdims ▸ governedDims_empty _))

theorem sound_countIf {name : String} (n : ℕ)
    (hl : metricRegistry.lookup name = some ⟨.counter, "1", []⟩) :
    Sound [name] (countIf name n) :=
  sound_ite (sound_nil _) (sound_plain (p := counter name n .empty) hl rfl rfl rfl)

/-! ## The workload sections -/

section Workload
variable [Runtime] {cfg : Config}

lemma governed_primaryDims (obs : Observation) :
    GovernedDims primaryDimensions (primaryDims obs cfg).asDict := by
  refine governed_asDict ?_ ?_ ?_ ?_ <;> simp only [primaryDims]
  · exact team_registered obs cfg
  · exact route_registered obs cfg
  · exact modelFamily_registered obs.providedModel
  · exact env_registered obs

omit [Runtime] in
/-- The dimensions of a primary series tell its key. -/
lemma primaryDims_eq {pk pk' : PrimaryDims} {dims dims' : Dict String String}
    (h : ∀ l ∈ primaryLabels pk, dims.get? l.1 = some l.2)
    (h' : ∀ l ∈ primaryLabels pk', dims'.get? l.1 = some l.2)
    (hsame : ∀ k, dims.get? k = dims'.get? k) : pk = pk' := by
  refine (carrying_primaryLabels h).mp ?_
  rw [carrying, List.all_eq_true]
  intro l hl
  rw [hsame, h' l hl, beq_self_eq_true]

omit [Runtime] in
lemma labels_asDict (pk : PrimaryDims) :
    ∀ l ∈ primaryLabels pk, pk.asDict.get? l.1 = some l.2 := by
  simp [primaryLabels, get?_asDict]

omit [Runtime] in
lemma labels_set {pk : PrimaryDims} {key value : String}
    (hk : key ∉ primaryDimensions) :
    ∀ l ∈ primaryLabels pk, (pk.asDict.set key value).get? l.1 = some l.2 := by
  intro l hl
  have hne : key ≠ l.1 := by
    rintro rfl
    simp only [primaryLabels, List.mem_cons, List.not_mem_nil, or_false] at hl
    rcases hl with rfl | rfl | rfl | rfl <;> simp [primaryDimensions] at hk
  rw [Dict.get?_set, if_neg hne, labels_asDict pk l hl]

theorem sound_histogramPoints {name : String} {key : Observation → Option PrimaryDims}
    {f : Observation → HistAcc → HistAcc}
    (hl : metricRegistry.lookup name = some ⟨.histogram, "ms", primaryDimensions⟩)
    (hkey : ∀ obs pk, key obs = some pk → pk = primaryDims obs cfg)
    (observations : List Observation) :
    Sound [name] (Aggregator.histogramPoints name
      (Dict.group key (.new cfg.latencyBucketsMs) f observations)) := by
  rw [Aggregator.histogramPoints, List.map_eq_flatMap]
  refine sound_flatMap (k := Prod.fst) ?_ (fun e he => ?_) ?_
  · exact (Dict.nodup _).sublist (List.filter_sublist.map _)
  · obtain ⟨obs, _, hobs⟩ := Dict.mem_group.mp (Dict.mem_def.mpr
      (List.mem_map_of_mem (List.mem_filter.mp he).1))
    have hok : assertPoint (e.2.toPoint name e.1.asDict) = .ok () :=
      assertPoint_ok hl rfl rfl (hkey obs _ hobs ▸ governed_primaryDims obs)
    exact sound_singleton hok
  · intro e _ e' _ p hp q hq hsame
    rw [List.mem_singleton.mp hp, List.mem_singleton.mp hq] at hsame
    exact primaryDims_eq (labels_asDict _) (labels_asDict _) hsame

theorem sound_countPoints (observations : List Observation) :
    Sound ["gateway.request.count"]
      (Aggregator.countPoints (Aggregator.addAll cfg observations).counts) := by
  rw [Aggregator.addAll_counts]
  have hmem : ∀ e : PrimaryDims × OutcomeCounts, ∀ p ∈
      counter "gateway.request.count" e.2.success (e.1.asDict.set "outcome" "success") ::
        (if e.2.error = 0 then []
        else [counter "gateway.request.count" e.2.error (e.1.asDict.set "outcome" "error")]),
      ∃ n outcome, outcome ∈ outcomes ∧
        p = counter "gateway.request.count" n (e.1.asDict.set "outcome" outcome) := by
    intro e p hp
    rcases List.mem_cons.mp hp with rfl | hp
    · exact ⟨_, "success", by decide, rfl⟩
    · split_ifs at hp
      · cases hp
      · rw [List.mem_singleton.mp hp]
        exact ⟨_, "error", by decide, rfl⟩
  refine sound_flatMap (k := Prod.fst) (Dict.nodup _) (fun e he => ⟨?_, ?_, ?_⟩) ?_
  · intro p hp
    obtain ⟨n, outcome, _, rfl⟩ := hmem e p hp
    exact List.mem_singleton_self _
  · intro p hp
    obtain ⟨n, outcome, hout, rfl⟩ := hmem e p hp
    refine assertPoint_ok (d := ⟨.counter, "1", primaryDimensions ++ ["outcome"]⟩) rfl rfl rfl ?_
    obtain ⟨obs, _, hobs⟩ := Dict.mem_group.mp (Dict.mem_def.mpr (List.mem_map_of_mem he))
    rw [← Option.some.inj hobs]
    exact ((governed_primaryDims obs).mono (List.subset_append_left _ _)).set
      (by simp) ((show ∀ o ∈ outcomes, Registered "outcome" o by decide) _ hout)
  · rw [List.pairwise_cons]
    refine ⟨fun q hq _ => ?_, ?_⟩
    · split_ifs at hq
      · cases hq
      · rw [List.mem_singleton.mp hq, Bool.eq_false_iff, Ne, Dict.same_iff]
        intro hsame
        simpa [counter] using hsame "outcome"
    · split_ifs
      · exact List.Pairwise.nil
      · exact List.pairwise_singleton _ _
  · intro e _ e' _ p hp q hq hsame
    obtain ⟨n, outcome, _, rfl⟩ := hmem e p hp
    obtain ⟨n', outcome', _, rfl⟩ := hmem e' q hq
    exact primaryDims_eq (labels_set (by decide)) (labels_set (by decide)) hsame

theorem sound_errorPoints (observations : List Observation) :
    Sound ["gateway.request.errors"]
      (Aggregator.errorPoints (Aggregator.addAll cfg observations).errcat) := by
  rw [Aggregator.addAll_errcat, Aggregator.errorPoints, List.map_eq_flatMap]
  refine sound_flatMap (k := Prod.fst) (Dict.nodup _) (fun e he => ?_) ?_
  · obtain ⟨obs, _, hobs⟩ := Dict.mem_group.mp (Dict.mem_def.mpr (List.mem_map_of_mem he))
    unfold Aggregator.errorKey at hobs
    split_ifs at hobs
    have hdims : GovernedDims (primaryDimensions ++ ["error_category"])
        (e.1.1.asDict.set "error_category" e.1.2) := by
      rw [← Option.some.inj hobs]
      exact ((governed_primaryDims obs).mono (List.subset_append_left _ _)).set
        (by simp) (errorCategory_registered obs)
    have hok : assertPoint (counter "gateway.request.errors" e.2
        (e.1.1.asDict.set "error_category" e.1.2)) = .ok () := assertPoint_ok rfl rfl rfl hdims
    exact sound_singleton hok
  · intro e _ e' _ p hp q hq hsame
    rw [List.mem_singleton.mp hp, List.mem_singleton.mp hq] at hsame
    have hpk : e.1.1 = e'.1.1 :=
      primaryDims_eq (labels_set (by decide)) (labels_set (by decide)) hsame
    have hcat : e.1.2 = e'.1.2 := by simpa [counter] using hsame "error_category"
    exact Prod.ext hpk hcat

theorem sound_unknownPoints (observations : List Observation) :
    Sound ["gateway.pipeline.unknown_dimension"]
      (Aggregator.unknownPoints (Aggregator.addAll cfg observations).unknown) := by
  rw [Aggregator.addAll_unknown, Aggregator.unknownPoints, List.map_eq_flatMap]
  refine sound_flatMap (k := Prod.fst) ?_ (fun e he => ?_) ?_
  · exact ((List.perm_insertionSort _ _).map _).nodup_iff.mpr (Dict.nodup _)
  · obtain ⟨dim, hdim, heq⟩ := Dict.mem_group.mp (Dict.mem_def.mpr (List.mem_map_of_mem
      ((List.perm_insertionSort _ _).mem_iff.mp he)))
    obtain ⟨obs, _, hfolded⟩ := List.mem_flatMap.mp hdim
    have hdims : GovernedDims ["dimension"] (Dict.ofList [("dimension", e.1)]) := by
      rw [← Option.some.inj heq]
      exact GovernedDims.set (governedDims_empty _) (by simp)
        (foldedDimensions_registered obs cfg dim hfolded)
    have hok : assertPoint (counter "gateway.pipeline.unknown_dimension" e.2
        (Dict.ofList [("dimension", e.1)])) = .ok () := assertPoint_ok rfl rfl rfl hdims
    exact sound_singleton hok
  · intro e _ e' _ p hp q hq hsame
    rw [List.mem_singleton.mp hp, List.mem_singleton.mp hq] at hsame
    simpa [counter, Dict.ofList, Dict.update] using hsame "dimension"

omit [Runtime] in
theorem sound_costSeries {dims : Dict String String} (hd : GovernedDims costDimensions dims)
    (c : CostEntry) (ratio : Option ℚ) : Sound costNames (costSeries dims c ratio) := by
  have hcounter : ∀ name n, metricRegistry.lookup name = some ⟨.counter, "1", costDimensions⟩ →
      assertPoint (counter name n dims) = .ok () := fun name n hl => assertPoint_ok hl rfl rfl hd
  have hif : ∀ name n, metricRegistry.lookup name = some ⟨.counter, "1", costDimensions⟩ →
      Sound [name] (counterIf name n dims) := fun name n hl =>
    sound_ite (sound_nil _) (sound_singleton (hcounter name n hl))
  have hbasic : Sound ["gateway.cost.usd", "gateway.cost.request_count", "gateway.tokens.input",
      "gateway.tokens.output"]
      [⟨"gateway.cost.usd", .counter, "USD", dims, some (.float (roundTo 6 c.usd)), none⟩,
        counter "gateway.cost.request_count" c.count dims,
        counter "gateway.tokens.input" c.input dims,
        counter "gateway.tokens.output" c.output dims] :=
    (((sound_singleton (hcounter "gateway.tokens.output" c.output rfl)).cons
      (hcounter "gateway.tokens.input" c.input rfl) (by simp [counter])).cons
      (hcounter "gateway.cost.request_count" c.count rfl) (by simp [counter])).cons
      (p := ⟨"gateway.cost.usd", .counter, "USD", dims, some (.float (roundTo 6 c.usd)), none⟩)
      (assertPoint_ok (d := ⟨.counter, "USD", costDimensions⟩) rfl rfl rfl hd)
      (by simp [counter])
  have hratio : Sound ["gateway.tokens.completion_ratio"] (ratioPoints dims ratio) := by
    cases ratio with
    | none => exact sound_nil _
    | some r =>
      have hok : assertPoint ⟨"gateway.tokens.completion_ratio", .gauge, "ratio", dims,
          some (.float r), none⟩ = .ok () :=
        assertPoint_ok (d := ⟨.gauge, "ratio", costDimensions⟩) rfl rfl rfl hd
      exact sound_singleton hok
  have hcache : Sound ["gateway.cache.read_tokens", "gateway.cache.hit_count"]
      (cachePoints dims c) :=
    sound_ite (sound_nil _) ((sound_singleton (hcounter "gateway.cache.hit_count" c.cacheHits
      rfl)).cons (hcounter "gateway.cache.read_tokens" c.cacheRead rfl) (by simp [counter]))
  exact (((hbasic.append hratio (by decide)).append hcache (by decide)).append
    (hif "gateway.cost.records_missing" c.missing rfl) (by decide)).append
    (hif "gateway.cost.records_invalid" c.invalid rfl) (by decide)

omit [Runtime] in
lemma dims_costSeries {dims : Dict String String} {c : CostEntry} {ratio : Option ℚ}
    {p : MetricPoint} (hp : p ∈ costSeries dims c ratio) : p.dims = dims := by
  have hif : ∀ {name n}, p ∈ counterIf name n dims → p.dims = dims := by
    intro name n hmem
    unfold counterIf at hmem
    split_ifs at hmem
    · cases hmem
    · rw [List.mem_singleton.mp hmem]
      rfl
  simp only [costSeries, List.mem_append] at hp
  rcases hp with (((hp | hp) | hp) | hp) | hp
  · simp only [List.mem_cons, List.not_mem_nil, or_false] at hp
    rcases hp with rfl | rfl | rfl | rfl <;> rfl
  · cases ratio with
    | none => cases hp
    | some r =>
      rw [List.mem_singleton.mp hp]
  · unfold cachePoints at hp
    split_ifs at hp
    · cases hp
    · simp only [List.mem_cons, List.not_mem_nil, or_false] at hp
      rcases hp with rfl | rfl <;> rfl
  · exact hif hp
  · exact hif hp

/-- Without the region, every cost key carries the same placeholder. -/
lemma costDims_injective {obs obs' : Observation}
    (hsame : ∀ k, (Aggregator.costDims cfg (Aggregator.costKey cfg obs)).get? k =
      (Aggregator.costDims cfg (Aggregator.costKey cfg obs')).get? k) :
    Aggregator.costKey cfg obs = Aggregator.costKey cfg obs' := by
  have hteam := hsame "team"
  have hroute := hsame "route"
  have hfamily := hsame "model_family"
  have hregion := hsame "provider_region"
  simp only [get?_costDims] at hteam hroute hfamily hregion
  unfold Aggregator.costKey at *
  by_cases hr : cfg.includeProviderRegion
  · simp_all
  · simp_all

theorem sound_costPoints {observations : List Observation} {points : List MetricPoint}
    (h : Aggregator.costPoints cfg (Aggregator.addAll cfg observations).cost = .ok points) :
    Sound costNames points := by
  obtain ⟨ratio, _, rfl⟩ := costPoints_ok h
  have hkey : ∀ e ∈ (Aggregator.addAll cfg observations).cost.entries,
      ∃ obs, e.1 = Aggregator.costKey cfg obs := by
    intro e he
    rw [Aggregator.addAll_cost] at he
    obtain ⟨obs, _, hobs⟩ := Dict.mem_group.mp (Dict.mem_def.mpr (List.mem_map_of_mem he))
    exact ⟨obs, (Option.some.inj hobs).symm⟩
  refine sound_flatMap (k := Prod.fst) (Dict.nodup _) (fun e he => ?_) ?_
  · obtain ⟨obs, hobs⟩ := hkey e he
    refine sound_costSeries ?_ _ _
    rw [hobs]
    refine governed_costDims ?_ ?_ ?_ ?_ <;> simp only [Aggregator.costKey, primaryDims]
    · exact team_registered obs cfg
    · exact route_registered obs cfg
    · exact modelFamily_registered obs.providedModel
    · intro hr
      rw [if_pos hr]
      exact providerRegion_registered obs
  · intro e he e' he' p hp q hq hsame
    obtain ⟨obs, hobs⟩ := hkey e he
    obtain ⟨obs', hobs'⟩ := hkey e' he'
    rw [dims_costSeries hp, dims_costSeries hq, hobs, hobs'] at hsame
    rw [hobs, hobs', costDims_injective hsame]

/-- Every window that `build` returns is sound: its points pass the check, and no two of them are
one series. -/
theorem sound_buildPoints {observations : List Observation} {malformed duplicates : ℕ}
    {points : List MetricPoint}
    (h : (Aggregator.addAll cfg observations).buildPoints cfg malformed duplicates = .ok points) :
    Sound buildNames points := by
  obtain ⟨cost, hc, rfl⟩ := buildPoints_ok h
  have hdur : Sound ["gateway.request.duration"] (Aggregator.histogramPoints
      "gateway.request.duration" (Aggregator.addAll cfg observations).dur) := by
    rw [Aggregator.addAll_dur]
    exact sound_histogramPoints rfl (fun obs pk hpk => (Option.some.inj hpk).symm) observations
  have httft : Sound ["gateway.request.ttft"] (Aggregator.histogramPoints
      "gateway.request.ttft" (Aggregator.addAll cfg observations).ttft) := by
    rw [Aggregator.addAll_ttft]
    refine sound_histogramPoints rfl (fun obs pk hpk => ?_) observations
    obtain ⟨_, _, hpk⟩ := Option.map_eq_some_iff.mp hpk
    exact hpk.symm
  refine ((((((((hdur.append httft ?_).append (sound_countPoints observations) ?_).append
    (sound_errorPoints observations) ?_).append (sound_costPoints hc) ?_).append
    (sound_countIf malformed rfl) ?_).append (sound_countIf duplicates rfl) ?_).append
    (sound_unknownPoints observations) ?_)).mono ?_ <;> decide

end Workload

/-! ## The quality sections -/

section Quality
variable [Runtime] {cfg : Config}

/-- The keys that the observations of a window can have. -/
def QualityKeyed (cfg : Config) (keys : List QualityKey) : Prop :=
  ∀ key ∈ keys, ∃ obs, key = baselineKey obs cfg

/-- The quality tables only hold keys of observations. -/
theorem qualityKeyed_add (rng : Rng) (cap : ℕ) {acc : QualityAccumulator}
    (hg : QualityKeyed cfg acc.groups.keys) (he : QualityKeyed cfg acc.emptyCounts.keys)
    (obs : Observation) :
    QualityKeyed cfg (acc.add rng cap cfg obs).groups.keys ∧
      QualityKeyed cfg (acc.add rng cap cfg obs).emptyCounts.keys := by
  have hset : ∀ {ν : Type} (d : Dict QualityKey ν) (v : ν), QualityKeyed cfg d.keys →
      QualityKeyed cfg (d.set (baselineKey obs cfg) v).keys := by
    intro ν d v hd key hkey
    rcases (Dict.mem_set d _ key v).mp hkey with rfl | hkey
    · exact ⟨obs, rfl⟩
    · exact hd key hkey
  unfold QualityAccumulator.add
  simp only
  split_ifs
  · exact ⟨hg, he⟩
  · exact ⟨hg, hset _ _ he⟩
  · exact ⟨hset _ _ hg, he⟩
  · exact ⟨hset _ _ hg, he⟩
  · exact ⟨hset _ _ hg, he⟩

variable (cfg) in
theorem qualityKeyed_foldl (rng : Rng) (cap : ℕ) (observations : List Observation) :
    QualityKeyed cfg
        (observations.foldl (QualityAccumulator.add rng cap cfg) .new).groups.keys ∧
      QualityKeyed cfg
        (observations.foldl (QualityAccumulator.add rng cap cfg) .new).emptyCounts.keys := by
  induction observations using List.reverseRecOn with
  | nil => exact ⟨by simp [QualityKeyed, QualityAccumulator.new, Dict.keys, Dict.empty],
      by simp [QualityKeyed, QualityAccumulator.new, Dict.keys, Dict.empty]⟩
  | append_singleton xs obs ih =>
    rw [List.foldl_append]
    exact qualityKeyed_add rng cap ih.1 ih.2 obs

lemma governed_baselineKey (obs : Observation) :
    GovernedDims qualityDimensions (baselineKey obs cfg).asDict := by
  have hfamily := modelFamily_registered obs.providedModel
  have hroute := route_registered obs cfg
  unfold baselineKey
  generalize modelFamily obs.providedModel = f at hfamily
  generalize route obs cfg = r at hroute
  cases cfg.anomaly.baselineGrouping with
  | routeModel =>
    refine governed_qualityKey hroute fun family h => ?_
    rw [← Option.some.inj h]
    exact hfamily
  | route => exact governed_qualityKey hroute fun family h => nomatch h

omit [Runtime] in
lemma qualityKey_eq {key key' : QualityKey}
    (h : ∀ k, key.asDict.get? k = key'.asDict.get? k) : key = key' := by
  have hroute := h "route"
  have hfamily := h "model_family"
  obtain ⟨route, family⟩ := key
  obtain ⟨route', family'⟩ := key'
  cases family <;> cases family' <;>
    simp_all [QualityKey.asDict, Dict.ofList, Dict.update]

omit [Runtime] in
theorem sound_qualityPointsOf {key : QualityKey} (hd : GovernedDims qualityDimensions key.asDict)
    (result : GroupResult) :
    Sound ["gateway.quality.completion_length_anomalies",
      "gateway.quality.completion_length_max_zscore"] (qualityPointsOf key result) := by
  refine sound_ite (sound_nil _) ?_
  have hcount : assertPoint (counter "gateway.quality.completion_length_anomalies"
      result.anomalyCount key.asDict) = .ok () :=
    assertPoint_ok (d := ⟨.counter, "1", qualityDimensions⟩) rfl rfl rfl hd
  cases result.maxAbsZ with
  | none => exact (sound_singleton hcount).mono (by simp [counter])
  | some z =>
    have hscore : assertPoint ⟨"gateway.quality.completion_length_max_zscore", .gauge, "score",
        key.asDict, some (.float (roundTo 4 z)), none⟩ = .ok () :=
      assertPoint_ok (d := ⟨.gauge, "score", qualityDimensions⟩) rfl rfl rfl hd
    exact (sound_singleton hscore).cons hcount (by simp [counter])

omit [Runtime] in
lemma dims_qualityPointsOf {key : QualityKey} {result : GroupResult} {p : MetricPoint}
    (hp : p ∈ qualityPointsOf key result) : p.dims = key.asDict := by
  unfold qualityPointsOf at hp
  split_ifs at hp
  · cases hp
  · rcases List.mem_cons.mp hp with rfl | hp
    · rfl
    · cases hz : result.maxAbsZ with
      | none => simp [hz] at hp
      | some z =>
        simp only [hz, List.mem_singleton] at hp
        rw [hp]

variable (cfg) in
theorem sound_qualityPoints {results : List (QualityKey × GroupResult)}
    (hnodup : (results.map Prod.fst).Nodup) (hkeys : QualityKeyed cfg (results.map Prod.fst)) :
    Sound ["gateway.quality.completion_length_anomalies",
      "gateway.quality.completion_length_max_zscore"]
      (results.flatMap fun e => qualityPointsOf e.1 e.2) := by
  refine sound_flatMap (k := Prod.fst) hnodup (fun e he => ?_) ?_
  · obtain ⟨obs, hobs⟩ := hkeys e.1 (List.mem_map_of_mem he)
    exact sound_qualityPointsOf (hobs ▸ governed_baselineKey obs) e.2
  · intro e _ e' _ p hp q hq hsame
    rw [dims_qualityPointsOf hp, dims_qualityPointsOf hq] at hsame
    exact qualityKey_eq hsame

theorem sound_emptyPoints {emptyCounts : Dict QualityKey ℕ}
    (hkeys : QualityKeyed cfg emptyCounts.keys) :
    Sound ["gateway.quality.empty_completion_count"] (emptyPoints emptyCounts) := by
  rw [emptyPoints, List.map_eq_flatMap]
  refine sound_flatMap (k := Prod.fst) emptyCounts.nodup (fun e he => ?_) ?_
  · obtain ⟨obs, hobs⟩ := hkeys e.1 (List.mem_map_of_mem he)
    have hok : assertPoint (counter "gateway.quality.empty_completion_count" e.2
        e.1.asDict) = .ok () :=
      assertPoint_ok (d := ⟨.counter, "1", qualityDimensions⟩) rfl rfl rfl
        (hobs ▸ governed_baselineKey obs)
    exact sound_singleton hok
  · intro e _ e' _ p hp q hq hsame
    rw [List.mem_singleton.mp hp, List.mem_singleton.mp hq] at hsame
    exact qualityKey_eq hsame

omit [Runtime] in
/-- The scored groups are the groups, in order. -/
lemma keys_results {acc : QualityAccumulator} {results : List (QualityKey × GroupResult)}
    (h : acc.results cfg = .ok results) : results.map Prod.fst = acc.groups.keys := by
  unfold QualityAccumulator.results at h
  rw [Dict.keys]
  generalize acc.groups.entries = entries at h
  induction entries generalizing results with
  | nil =>
    rw [List.mapM_nil] at h
    cases h
    rfl
  | cons e es ih =>
    rw [List.mapM_cons] at h
    obtain ⟨r, hr, h⟩ := bind_eq_ok h
    obtain ⟨rs, hrs, h⟩ := bind_eq_ok h
    obtain ⟨g, _, hg⟩ := bind_eq_ok hr
    cases h
    cases hg
    rw [List.map_cons, List.map_cons, ih hrs]

end Quality

/-! ## The points of a run -/

def trustNames : List String :=
  ["gateway.pipeline.records_read", "gateway.pipeline.records_processed",
    "gateway.pipeline.cross_run_duplicate_records", "gateway.pipeline.quarantined_records",
    "gateway.pipeline.read_truncated", "gateway.pipeline.records_missing_cost",
    "gateway.pipeline.records_invalid_cost"]

theorem sound_trustPoints (stream : Stream) (stats : AggregationStats) :
    Sound trustNames (trustPoints stream stats) := by
  have hread : Sound ["gateway.pipeline.records_read", "gateway.pipeline.records_processed"]
      [counter "gateway.pipeline.records_read" stream.state.recordsRead .empty,
        counter "gateway.pipeline.records_processed" stream.state.processed .empty] :=
    (sound_plain (p := counter "gateway.pipeline.records_processed" stream.state.processed .empty)
      (d := ⟨.counter, "1", []⟩) rfl rfl rfl rfl).cons
      (p := counter "gateway.pipeline.records_read" stream.state.recordsRead .empty)
      (assertPoint_ok (d := ⟨.counter, "1", []⟩) rfl rfl rfl (governedDims_empty _))
      (by simp [counter])
  have htrunc : Sound ["gateway.pipeline.read_truncated"] (if stream.truncated then
      [gauge "gateway.pipeline.read_truncated" 1 "1"] else []) :=
    sound_ite (sound_plain (p := gauge "gateway.pipeline.read_truncated" 1 "1")
      (d := ⟨.gauge, "1", []⟩) rfl rfl rfl rfl) (sound_nil _)
  exact ((((hread.append (sound_countIf _ rfl) (by decide)).append (sound_countIf _ rfl)
    (by decide)).append htrunc (by decide)).append (sound_countIf _ rfl) (by decide)).append
    (sound_countIf _ rfl) (by decide)

def sourceNames : List String :=
  ["gateway.pipeline.source_requests", "gateway.pipeline.source_retries",
    "gateway.pipeline.source_pages", "gateway.pipeline.source_latency_seconds"]

theorem sound_sourcePoints (stats : Option SourceStats) :
    Sound sourceNames (sourcePoints stats) := by
  cases stats with
  | none => exact sound_nil _
  | some s =>
    have hcount : ∀ name (n : ℤ), metricRegistry.lookup name = some ⟨.counter, "1", []⟩ →
        Sound [name] (if n = 0 then [] else [counter name n .empty]) := fun name n hl =>
      sound_ite (sound_nil _) (sound_plain (p := counter name n .empty) hl rfl rfl rfl)
    have hlatency : Sound ["gateway.pipeline.source_latency_seconds"]
        (if s.latencySeconds = 0 then []
        else [gauge "gateway.pipeline.source_latency_seconds" s.latencySeconds "s"]) :=
      sound_ite (sound_nil _) (sound_plain
        (p := gauge "gateway.pipeline.source_latency_seconds" s.latencySeconds "s")
        (d := ⟨.gauge, "s", []⟩) rfl rfl rfl rfl)
    exact (((hcount _ s.requests rfl).append (hcount _ s.retries rfl) (by decide)).append
      (hcount _ s.pages rfl) (by decide)).append hlatency (by decide)

lemma sound_gauge {name unit : String} (value : ℚ)
    (hl : metricRegistry.lookup name = some ⟨.gauge, unit, []⟩) :
    Sound [name] [gauge name value unit] :=
  sound_plain (p := gauge name value unit) hl rfl rfl rfl

theorem sound_freshnessPoints (raw : Option ℚ) :
    Sound ["gateway.pipeline.clock_skew_seconds", "gateway.pipeline.freshness_seconds"]
      (freshnessPoints raw) := by
  cases raw with
  | none => exact sound_nil _
  | some q =>
    exact (sound_ite (sound_gauge (-q) rfl) (sound_nil _)).append (sound_gauge (max 0 q) rfl)
      (by decide)

theorem sound_healthPoints (stats : AggregationStats) :
    Sound ["gateway.pipeline.export_success", "gateway.pipeline.source_success"]
      (healthPoints stats) :=
  (sound_gauge _ rfl).append (sound_ite (sound_nil _) (sound_gauge 0 rfl)) (by decide)

theorem sound_finalHealth (elapsed : ℚ) (stats : AggregationStats) :
    Sound ["gateway.pipeline.run_duration_seconds", "gateway.pipeline.checkpoint_conflicts"]
      (finalHealth elapsed stats) :=
  (sound_gauge _ rfl).append (sound_ite (sound_plain
    (p := counter "gateway.pipeline.checkpoint_conflicts" 1 .empty) (d := ⟨.counter, "1", []⟩)
    rfl rfl rfl rfl) (sound_nil _)) (by decide)

/-- The names of the points that a run prepares before the main flush. -/
def preparedNames : List String := buildNames ++ sideNames ++ trustNames

/-- The points of every prepared run are sound: those of the window, of the quality groups, and of
the trust section. -/
theorem sound_prepared [Runtime] {args : RunArgs} {source : Source} {env : Env} {hasStore : Bool}
    {checkpoint : Option Checkpoint} {p : Prepared}
    (h : prepare args source env hasStore checkpoint = .ok p) : Sound preparedNames p.points := by
  obtain ⟨cutoff, workload, results, _, hstream, hw, hr, _, points, hpoints, hp⟩ := prepare_ok h
  obtain ⟨read, _, hd, _⟩ := streamFrom_deduplicated (streamEnv args env hasStore checkpoint cutoff)
    args.maxRecords source.failure source.records
  rw [← hstream] at hd
  have hwork : Sound buildNames workload := by
    rw [hd.aggregated] at hw
    exact sound_buildPoints hw
  have hkeys := qualityKeyed_foldl args.cfg env.rng sampleCap (foldedFrom
    (streamEnv args env hasStore checkpoint cutoff) args.maxRecords source.records .new)
  have hqual := hd.sampled
  simp only [streamEnv] at hqual hkeys
  rw [← hqual] at hkeys
  have hquality := sound_qualityPoints args.cfg
    (keys_results hr ▸ p.stream.state.quality.groups.nodup) (keys_results hr ▸ hkeys.1)
  rw [hp, hpoints]
  refine (((((((hwork.append hquality ?_).append (sound_emptyPoints hkeys.2) ?_).append
    (sound_trustPoints _ _) ?_).append (sound_sourcePoints _) ?_).append
    (sound_freshnessPoints _) ?_).append (sound_gauge _ rfl) ?_)).mono ?_ <;> decide

/-- The effect only carries points that the export guard lets through. -/
def Effect.Governed : Effect → Prop
  | .exported points _ => assertAllowed points = .ok ()
  | .heartbeat points _ => assertAllowed points = .ok ()
  | .saved _ _ => True

theorem assertAllowed_ok {points : List MetricPoint} (h : ∀ p ∈ points, assertPoint p = .ok ()) :
    assertAllowed points = .ok () := by
  unfold assertAllowed
  induction points with
  | nil => rfl
  | cons p ps ih =>
    change (assertPoint p >>= fun _ => ps.forM assertPoint) = .ok ()
    rw [h p List.mem_cons_self]
    exact ih fun q hq => h q (List.mem_cons_of_mem _ hq)

/-- Whatever a run does, every export and heartbeat carries governed points only, and
the points of its result are governed and have distinct names and dimension sets. -/
theorem run_points_governed [Runtime] {ε σ : Type} (exporter : Option (Exporter ε))
    (store : Option (CheckpointStore σ)) (args : RunArgs) (source : Source) (env : Env)
    (w : World ε σ) :
    (∃ effects, (run exporter store args source env w).2.effects = w.effects ++ effects ∧
      ∀ effect ∈ effects, effect.Governed) ∧
    ∀ result, (run exporter store args source env w).1 = .ok result →
      assertAllowed result.points = .ok () ∧
      result.points.Pairwise fun p q => p.name = q.name → p.dims.same q.dims = false := by
  have hload := (loadCheckpoint_effects store w).1
  rcases run_cases exporter store args source env w with ⟨e, he⟩ |
    ⟨checkpoint, p, stats, health, final, exported, announced, saved, closed, w', _, hp, hpub, hcon⟩
  · refine ⟨⟨[], ?_, by simp⟩, ?_⟩
    · rw [he, List.append_nil]
      exact hload
    · intro result hresult
      rw [he] at hresult
      cases hresult
  · obtain ⟨s, rfl⟩ := hpub.health_eq
    obtain ⟨elapsed, s', rfl⟩ := hcon.final_eq
    have hpoints := sound_prepared hp
    have hhealth := sound_healthPoints s
    have hfinal := sound_finalHealth elapsed s'
    refine ⟨⟨_, hcon.effects.trans (by rw [hpub.effects, hload, List.append_assoc]), ?_⟩, ?_⟩
    · intro effect heffect
      simp only [List.mem_append, Option.mem_toList, Option.map_eq_some_iff] at heffect
      rcases heffect with (⟨_, _, rfl⟩ | ⟨_, _, rfl⟩) | (⟨_, _, rfl⟩ | ⟨_, _, rfl⟩)
      · exact assertAllowed_ok hpoints.governed
      · exact assertAllowed_ok hhealth.governed
      · trivial
      · exact assertAllowed_ok hfinal.governed
    · intro result hresult
      have hall := (hpoints.append hhealth (by decide)).append hfinal (by decide)
      rw [(hcon.reported result hresult).points]
      exact ⟨assertAllowed_ok hall.governed, hall.distinct⟩

/-- A delivered window of two requests and a malformed record, without a checkpoint. -/
theorem run_points_governed_sample :
    letI := Runtime.ascii
    let out := run (some acceptingExporter) none ⟨.default, none, .finite 10, none⟩
      ⟨[sampleRecord "a" "03:04:05" "03:04:06.5", sampleRecord "b" "03:05:00" "03:06:00", .null],
        none, none⟩ sampleEnv (⟨(), (), []⟩ : World Unit Unit)
    (∃ effects, out.2.effects = [] ++ effects ∧ ∀ effect ∈ effects, effect.Governed) ∧
    ∃ result, out.1 = .ok result ∧ assertAllowed result.points = .ok () ∧
      result.points.Pairwise fun p q => p.name = q.name → p.dims.same q.dims = false := by
  let := Runtime.ascii
  obtain ⟨heffects, hpoints⟩ := run_points_governed (some acceptingExporter) none
    ⟨.default, none, .finite 10, none⟩ ⟨[sampleRecord "a" "03:04:05" "03:04:06.5",
      sampleRecord "b" "03:05:00" "03:06:00", .null], none, none⟩ sampleEnv ⟨(), (), []⟩
  refine ⟨heffects, ?_⟩
  exact (exists_ok_of_isOk (by decide +kernel)).imp fun result h => ⟨h, hpoints result h⟩

end InferenceControlPlane.Sli
