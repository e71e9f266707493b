import InferenceControlPlane.Python.Renaming
import InferenceControlPlane.Relational
import InferenceControlPlane.Sli.Replay

/-!
# Privacy

A run sees a record through its governed projection: times, level, numbers, flags,
and for every label its normalised value and whether it is blank. Ids only enter
equality tests. Two runs over records with equal projections, whose ids differ by an
injective renaming, report the same points, statistics and quality.
-/
namespace InferenceControlPlane.Sli
open Python Normalize

/-! ## The governed projection -/

/-- An injective renaming of ids. The empty text is no id, and stays empty. What a run reports
must not depend on the names of the ids. -/
structure IdRenaming where
  map : String ↪ String
  blank : map "" = ""

lemma IdRenaming.map_eq_empty (ρ : IdRenaming) {id : String} : ρ.map id = "" ↔ id = "" := by
  rw [← ρ.map.injective.eq_iff (a := id), ρ.blank]

/-- What a run learns of the text of a label: the governed value that it is folded into, and
whether it was blank. -/
structure Label where
  value : String
  blank : Bool
  deriving DecidableEq

/-- What a run learns of a record besides its id. A field is `none` where its
conversion raises. -/
structure Projection where
  start : Except ParseError (Option DateTime)
  endTime : Except ParseError (Option DateTime)
  completionStart : Option (Option DateTime)
  level : Option String
  stream : Bool
  inputTokens : Option TokenCount
  outputTokens : Option TokenCount
  totalTokens : Option TokenCount
  cacheReadTokens : Option TokenCount
  cost : Option (Option {q : ℚ // 0 ≤ q} × Bool)
  error : Option (Option String)
  team : Option Label
  route : Option Label
  model : Option Label
  env : Option Label
  internalModel : Option Label
  deriving DecidableEq

section
variable [Runtime]

def labelOf (normalise : String → String) (text : String) : Label :=
  ⟨normalise text, strip text = ""⟩

def teamOf (cfg : Config) (text : String) : String :=
  if strip text = "" then unattributed
  else (canonical cfg.knownTeams).getD (Runtime.lower (strip text)) other

def routeOf (cfg : Config) (text : String) : String :=
  if routeRx.isMatch (strip text) then
    (canonical cfg.knownRoutes).getD (Runtime.lower (strip text)) other
  else other

def envOf (text : String) : String := (envMap.lookup (Runtime.lower text)).getD other

def regionOf (text : String) : String :=
  ((providerMap.find? fun rule => startsWith text rule.1).map Prod.snd).getD other

def projection (cfg : Config) (raw : List (String × Json)) : Projection :=
  let tm := mapping raw "traceMetadata"
  let usage := mapping raw "usageDetails"
  { start := parseBound (field raw "startTime")
    endTime := parseBound (field raw "endTime")
    completionStart := (safeTs (field raw "completionStartTime")).toOption
    level := (toStr ((raw.lookup "level").getD (.str "DEFAULT"))).toOption
    stream := streamOf (field (mapping raw "modelParameters") "stream")
    inputTokens := (intOf [field raw "inputUsage", field usage "input"]).toOption
    outputTokens := (intOf [field raw "outputUsage", field usage "output"]).toOption
    totalTokens := (intOf [field raw "totalUsage", field usage "total"]).toOption
    cacheReadTokens := (intOf [field usage "cache_read_input_tokens"]).toOption
    cost := (costOf (field (mapping raw "costDetails") "total")).toOption
    error := (errorOf (field (mapping raw "metadata") "error")).toOption
    team := (strOrEmpty (field tm "team")).toOption.map fun text =>
      labelOf (teamOf cfg) (strip text)
    route := (strOrEmpty (field raw "traceName")).toOption.map fun text =>
      labelOf (routeOf cfg) (strip text)
    model := (strOrEmpty (field raw "providedModelName")).toOption.map (labelOf modelFamily)
    env := (strOrEmpty (orElse (field tm "env") (field raw "environment"))).toOption.map fun text =>
      labelOf envOf (strip text)
    internalModel := (strOrEmpty (field raw "internalModelId")).toOption.map (labelOf regionOf) }

/-- The projection of a record; a record that is not an object shows nothing. -/
def governed (cfg : Config) : Json → Option Projection
  | .obj raw => some (projection cfg raw)
  | _ => none

/-- The id that a record carries. -/
def idOf : Json → Option String
  | .obj raw => (strOrEmpty (field raw "id")).toOption
  | _ => none

/-- Records that agree on the governed projection, with renamed ids. Whatever else they hold,
prompts and names of users included, may differ. -/
structure Alike (ρ : IdRenaming) (cfg : Config) (raw raw' : Json) : Prop where
  governed : governed cfg raw' = governed cfg raw
  id : idOf raw' = (idOf raw).map ρ.map

/-! ## Parsing -/

/-- Observations that the pipeline cannot tell apart: they agree in everything that it computes
with, up to the renamed id. -/
structure Observation.Alike (ρ : IdRenaming) (cfg : Config) (obs obs' : Observation) : Prop where
  obsId : obs'.obsId = ρ.map obs.obsId
  level : obs'.level = obs.level
  stream : obs'.stream = obs.stream
  start : obs'.start = obs.start
  completionStart : obs'.completionStart = obs.completionStart
  endTime : obs'.endTime = obs.endTime
  inputTokens : obs'.inputTokens = obs.inputTokens
  outputTokens : obs'.outputTokens = obs.outputTokens
  cacheReadTokens : obs'.cacheReadTokens = obs.cacheReadTokens
  costTotal : obs'.costTotal = obs.costTotal
  costInvalid : obs'.costInvalid = obs.costInvalid
  error : obs'.error = obs.error
  team : labelOf (teamOf cfg) obs'.team = labelOf (teamOf cfg) obs.team
  route : labelOf (routeOf cfg) obs'.route = labelOf (routeOf cfg) obs.route
  model : labelOf modelFamily obs'.providedModel = labelOf modelFamily obs.providedModel
  env : labelOf envOf obs'.envRaw = labelOf envOf obs.envRaw
  internalModel : labelOf regionOf obs'.internalModel = labelOf regionOf obs.internalModel

/-- Rejections with the same reason; what escapes is quarantined whatever it is. -/
inductive SameExit : ParseError → ParseError → Prop
  | malformed (reason : MalformedReason) : SameExit (.malformed reason) (.malformed reason)
  | escaped (e e' : PyErr) : SameExit (.escaped e) (.escaped e')

variable {ρ : IdRenaming} {cfg : Config}

omit [Runtime] in
/-- Labels of the same projection are read as texts of the same label. -/
lemma paired_label {ε : Type*} {x x' : Except ε String} {f : String → Label}
    (h : x'.toOption.map f = x.toOption.map f) :
    Paired (fun _ _ => True) (fun text text' => f text' = f text) x x' := by
  cases Paired.of_toOption h.symm with
  | error he => exact .error he
  | ok hr => exact .ok hr.symm

/-- Every field that `parse_observation` reads factors through the projection: two records that
agree on it parse alike. -/
theorem paired_parseFields {raw raw' : List (String × Json)}
    (h : Alike ρ cfg (.obj raw) (.obj raw')) {start endTime : DateTime} (hs : start.IsUtc)
    (he : endTime.IsUtc) (ho : start.instant ≤ endTime.instant) :
    Paired (fun _ _ => True) (Observation.Alike ρ cfg) (parseFields raw start endTime hs he ho)
      (parseFields raw' start endTime hs he ho) := by
  have hp : projection cfg raw' = projection cfg raw := Option.some.inj h.governed
  have hid : (strOrEmpty (field raw' "id")).toOption.map (fun text => text) =
      (strOrEmpty (field raw "id")).toOption.map ρ.map := by
    rw [Option.map_id']
    exact h.id
  refine .bind (.of_toOption_eq (congrArg Projection.cost hp)) ?_
  rintro ⟨costTotal, costInvalid⟩ _ rfl
  refine .bind (.of_toOption_eq (congrArg Projection.error hp)) ?_
  rintro error _ rfl
  refine .bind (.of_toOption hid.symm) ?_
  intro obsId obsId' hobsId
  refine .bind (.of_toOption_eq (congrArg Projection.level hp)) ?_
  rintro level _ rfl
  refine .bind (paired_label (congrArg Projection.team hp)) ?_
  intro team team' hteam
  refine .bind (paired_label (congrArg Projection.route hp)) ?_
  intro route route' hroute
  refine .bind (paired_label (congrArg Projection.model hp)) ?_
  intro model model' hmodel
  refine .bind (paired_label (congrArg Projection.internalModel hp)) ?_
  intro internalModel internalModel' hinternal
  refine .bind (paired_label (congrArg Projection.env hp)) ?_
  intro env env' henv
  refine .bind (.of_toOption_eq (congrArg Projection.completionStart hp)) ?_
  rintro completionStart _ rfl
  refine .bind (.of_toOption_eq (congrArg Projection.inputTokens hp)) ?_
  rintro inputTokens _ rfl
  refine .bind (.of_toOption_eq (congrArg Projection.outputTokens hp)) ?_
  rintro outputTokens _ rfl
  refine .bind (.of_toOption_eq (congrArg Projection.totalTokens hp)) ?_
  rintro totalTokens _ rfl
  refine .bind (.of_toOption_eq (congrArg Projection.cacheReadTokens hp)) ?_
  rintro cacheReadTokens _ rfl
  have hstream : streamOf (field (mapping raw' "modelParameters") "stream") =
      streamOf (field (mapping raw "modelParameters") "stream") := congrArg Projection.stream hp
  exact .ok ⟨hobsId.symm, rfl, hstream, rfl, rfl, rfl, rfl, rfl, rfl, rfl, rfl, rfl, hteam, hroute,
    hmodel, henv, hinternal⟩

omit [Runtime] in
lemma sameExit_rfl (e : ParseError) : SameExit e e := by
  cases e with
  | malformed reason => exact .malformed reason
  | escaped e => exact .escaped e e

/-- Records of the same projection are rejected for the same reason, or quarantined
both, or parsed into observations that are alike. -/
theorem paired_parseObservation {raw raw' : Json} (h : Alike ρ cfg raw raw') :
    Paired SameExit (Observation.Alike ρ cfg) (parseObservation raw) (parseObservation raw') := by
  cases raw with
  | obj fields =>
    cases raw' with
    | obj fields' =>
      have hp : projection cfg fields' = projection cfg fields := Option.some.inj h.governed
      have hstart : parseBound (field fields' "startTime") =
          parseBound (field fields "startTime") := congrArg Projection.start hp
      have hend : parseBound (field fields' "endTime") =
          parseBound (field fields "endTime") := congrArg Projection.endTime hp
      have hbound : ∀ name d, parseBound (field fields' name) = parseBound (field fields name) →
          parseTs (field fields name) = .ok d → parseTs (field fields' name) = .ok d := by
        intro name d heq hd
        rw [← parseBound_eq_ok, heq, parseBound_eq_ok, hd]
      by_cases hex : ∃ start endTime, parseTs (field fields "startTime") = .ok (some start) ∧
          parseTs (field fields "endTime") = .ok (some endTime)
      · obtain ⟨start, endTime, h1, h2⟩ := hex
        rw [parseObservation_bounded h1 h2,
          parseObservation_bounded (hbound _ _ hstart h1) (hbound _ _ hend h2)]
        split_ifs with ho
        · exact .error (.malformed _)
        · exact (paired_parseFields h _ _ _).mapError fun e e' _ => .escaped e e'
      · have hnot : ∀ start endTime, parseTs (field fields "startTime") = .ok (some start) →
            parseTs (field fields "endTime") ≠ .ok (some endTime) :=
          fun start endTime h1 h2 => hex ⟨start, endTime, h1, h2⟩
        have hnot' : ∀ start endTime, parseTs (field fields' "startTime") = .ok (some start) →
            parseTs (field fields' "endTime") ≠ .ok (some endTime) := by
          intro start endTime h1 h2
          rw [← parseBound_eq_ok, hstart, parseBound_eq_ok] at h1
          rw [← parseBound_eq_ok, hend, parseBound_eq_ok] at h2
          exact hnot start endTime h1 h2
        rw [parseObservation_unbounded hnot, parseObservation_unbounded hnot', hstart, hend]
        cases parseBound (field fields "startTime") with
        | error e => exact .error (sameExit_rfl e)
        | ok start =>
          cases parseBound (field fields "endTime") with
          | error e => exact .error (sameExit_rfl e)
          | ok endTime => exact .error (.malformed _)
    | _ => cases h.governed
  | _ =>
    cases raw' with
    | obj fields' => cases h.governed
    | _ => exact .error (.malformed _)

/-! ## Folding -/

lemma team_labelOf (obs : Observation) :
    Normalize.team obs cfg = (labelOf (teamOf cfg) obs.team).value := by
  rw [Normalize.team, labelOf, teamOf]

lemma route_labelOf (obs : Observation) :
    Normalize.route obs cfg = (labelOf (routeOf cfg) obs.route).value := by
  rw [Normalize.route, labelOf, routeOf]

lemma env_labelOf (obs : Observation) :
    Normalize.env obs = (labelOf envOf obs.envRaw).value := by
  rw [Normalize.env, labelOf, envOf]

omit [Runtime] in
lemma providerRegion_labelOf (obs : Observation) :
    providerRegion obs = (labelOf regionOf obs.internalModel).value := by
  rw [providerRegion, labelOf, regionOf]

omit [Runtime] in
lemma strip_ne_of_labelOf {f : String → String} {text text' : String}
    (h : labelOf f text' = labelOf f text) : strip text' ≠ "" ↔ strip text ≠ "" :=
  not_congr (by simpa [labelOf] using congrArg Label.blank h)

namespace Observation.Alike

variable {obs obs' : Observation} (h : obs.Alike ρ cfg obs')
include h

lemma isError_eq : obs'.isError = obs.isError := by
  rw [Observation.isError, Observation.isError, h.level, h.error]

lemma latencyMs_eq : obs'.latencyMs = obs.latencyMs := by
  rw [Observation.latencyMs, Observation.latencyMs, h.endTime, h.start]

lemma ttftMs_eq : obs'.ttftMs = obs.ttftMs := by
  simp only [Observation.ttftMs, h.completionStart, h.isError_eq, h.stream, h.start, h.endTime]

lemma team_eq : Normalize.team obs' cfg = Normalize.team obs cfg := by
  rw [team_labelOf, team_labelOf, h.team]

lemma route_eq : Normalize.route obs' cfg = Normalize.route obs cfg := by
  rw [route_labelOf, route_labelOf, h.route]

lemma modelFamily_eq : modelFamily obs'.providedModel = modelFamily obs.providedModel :=
  congrArg Label.value h.model

lemma env_eq : Normalize.env obs' = Normalize.env obs := by
  rw [env_labelOf, env_labelOf, h.env]

lemma providerRegion_eq : providerRegion obs' = providerRegion obs := by
  rw [providerRegion_labelOf, providerRegion_labelOf, h.internalModel]

lemma primaryDims_eq : primaryDims obs' cfg = primaryDims obs cfg := by
  rw [primaryDims, primaryDims, h.team_eq, h.route_eq, h.modelFamily_eq, h.env_eq]

lemma costKey_eq : Aggregator.costKey cfg obs' = Aggregator.costKey cfg obs := by
  rw [Aggregator.costKey, Aggregator.costKey, h.primaryDims_eq, h.providerRegion_eq]

lemma errorCategory_eq : errorCategory obs' = errorCategory obs := by
  rw [errorCategory, errorCategory, h.isError_eq, h.error]

/-- A fold is reported for the same dimensions. -/
lemma foldedDimensions_eq : foldedDimensions obs' cfg = foldedDimensions obs cfg := by
  simp only [foldedDimensions, strip_ne_of_labelOf h.team, strip_ne_of_labelOf h.route,
    strip_ne_of_labelOf h.model, strip_ne_of_labelOf h.env, strip_ne_of_labelOf h.internalModel,
    h.team_eq, h.route_eq, h.modelFamily_eq, h.env_eq, h.providerRegion_eq]

lemma baselineKey_eq : baselineKey obs' cfg = baselineKey obs cfg := by
  simp only [baselineKey, h.route_eq, h.modelFamily_eq]

lemma addOutcome_eq : Aggregator.addOutcome obs' = Aggregator.addOutcome obs := by
  funext c
  simp only [Aggregator.addOutcome, h.isError_eq]

lemma addCost_eq : Aggregator.addCost obs' = Aggregator.addCost obs := by
  funext entry
  rw [Aggregator.addCost, Aggregator.addCost, Observation.isCacheHit, Observation.isCacheHit,
    h.costInvalid, h.costTotal, h.inputTokens, h.outputTokens, h.cacheReadTokens]

/-- The aggregator takes the same step. -/
theorem aggregated (agg : Aggregator) : agg.add cfg obs' = agg.add cfg obs := by
  simp only [Aggregator.add, h.primaryDims_eq, h.latencyMs_eq, h.ttftMs_eq, h.isError_eq,
    h.errorCategory_eq, h.costKey_eq, h.addCost_eq, h.addOutcome_eq, h.foldedDimensions_eq,
    h.costInvalid, h.costTotal]

/-- The quality accumulator takes the same step. -/
theorem sampled (rng : Rng) (cap : ℕ) (acc : QualityAccumulator) :
    acc.add rng cap cfg obs' = acc.add rng cap cfg obs := by
  rw [QualityAccumulator.add, QualityAccumulator.add, h.isError_eq, h.baselineKey_eq,
    h.outputTokens]

end Observation.Alike

/-! ## The read loop -/

/-- The state of a read over renamed ids. -/
def StreamState.rename (ρ : IdRenaming) (st : StreamState) : StreamState :=
  { st with currentSeen := st.currentSeen.rename ρ.map, seenBatch := st.seenBatch.map ρ.map }

def Stream.rename (ρ : IdRenaming) (stream : Stream) : Stream :=
  { stream with state := stream.state.rename ρ }

structure StreamEnv.Alike (ρ : IdRenaming) (env env' : StreamEnv) : Prop where
  cfg : env'.cfg = env.cfg
  rng : env'.rng = env.rng
  seenCutoff : env'.seenCutoff = env.seenCutoff
  priorSeen : ∀ id, ρ.map id ∈ env'.priorSeen ↔ id ∈ env.priorSeen

section Loop
variable {env env' : StreamEnv} (he : env.Alike ρ env')
include he

lemma fold_rename {obs obs' : Observation} (h : obs.Alike ρ env.cfg obs') (st : StreamState) :
    (st.rename ρ).fold env' obs' = (st.fold env obs).rename ρ := by
  have hcollects : StreamState.collects env' obs' = StreamState.collects env obs := by
    rw [StreamState.collects, StreamState.collects, he.seenCutoff, h.endTime]
  rw [StreamState.fold, StreamState.fold, StreamState.rename, StreamState.rename, he.cfg, he.rng,
    h.aggregated, h.sampled, hcollects, h.obsId, h.endTime, Dict.set_rename]
  split_ifs <;> rfl

/-- One round of the loop over a record and its twin: ids only enter equality tests. -/
theorem step_rename {raw raw' : Json} (h : Alike ρ env.cfg raw raw') (st : StreamState) :
    (st.rename ρ).step env' raw' = (st.step env raw).rename ρ := by
  unfold StreamState.step
  rcases (paired_parseObservation h).outcomes with ⟨e, e', hraw, hraw', hexit⟩ |
    ⟨obs, obs', hraw, hraw', ho⟩
  · rw [hraw, hraw']
    cases hexit with
    | malformed reason => rfl
    | escaped e e' => rfl
  · have hbatch : obs'.obsId ∈ st.seenBatch.map ρ.map ↔ obs.obsId ∈ st.seenBatch := by
      rw [ho.obsId, List.mem_map_of_injective ρ.map.injective]
    have hprior : obs'.obsId ∈ env'.priorSeen ↔ obs.obsId ∈ env.priorSeen := by
      rw [ho.obsId, he.priorSeen]
    have hblank : obs'.obsId = "" ↔ obs.obsId = "" := by rw [ho.obsId, ρ.map_eq_empty]
    simp only [hraw, hraw', StreamState.rename, hblank, hbatch, hprior]
    split_ifs with h1 h2 h3
    · rfl
    · rfl
    · rw [ho.obsId]
      rfl
    · rw [ho.obsId]
      exact fold_rename he ho (st.admitted obs)

/-- The whole read, record by record: the renamed records leave the same state, with the ids
renamed. -/
theorem streamFrom_rename {records records' : List Json}
    (h : List.Forall₂ (Alike ρ env.cfg) records records') (maxRecords : Option ℤ)
    (failure : Option PyErr) (st : StreamState) :
    streamFrom env' maxRecords failure records' (st.rename ρ) =
      (streamFrom env maxRecords failure records st).rename ρ := by
  induction h generalizing st with
  | nil => rfl
  | @cons raw raw' rest rest' hraw hrest ih =>
    have hread : (st.rename ρ).recordsRead = st.recordsRead := rfl
    rw [streamFrom, streamFrom, hread, step_rename he hraw, ih]
    split_ifs <;> rfl

end Loop

/-! ## The committed seen map -/

/-- Checkpoints with one watermark whose seen maps are over renamed ids, in any order of the
entries. -/
structure Checkpoint.Renamed (ρ : IdRenaming) (cp cp' : Checkpoint) : Prop where
  watermark : cp'.watermark = cp.watermark
  seen : (cp.seen.rename ρ.map).same cp'.seen = true

/-- A recorded end can only fail to convert. -/
lemma keepPrior_error {cutoff : DateTime} {oid endIso : String} {e : PyErr}
    (h : keepPrior cutoff oid endIso = .error e) : e = .overflowError := by
  unfold keepPrior at h
  cases hp : parseTs (.str endIso) with
  | ok d =>
    rw [hp] at h
    cases d <;> cases h
  | error e' =>
    rw [hp] at h
    rcases parseTs_error hp with rfl | rfl | rfl <;> cases h
    rfl

lemma keepPrior_rename (cutoff : DateTime) (oid endIso : String) :
    keepPrior cutoff (ρ.map oid) endIso = keepPrior cutoff oid endIso := by
  have hne : (ρ.map oid != "") = (oid != "") := by
    rw [Bool.eq_iff_iff, bne_iff_ne, bne_iff_ne, Ne, ρ.map_eq_empty]
  rw [keepPrior, keepPrior, hne]

/-- The prior entries that are kept do not depend on the ids, nor on the order. -/
lemma keepEntries_rename {prior prior' : Dict String String}
    (h : (prior.rename ρ.map).same prior' = true) (cutoff : DateTime) :
    Paired Eq (fun kept kept' => (kept.map Prod.fst).Nodup ∧
        (kept.map (Prod.map ρ.map id)).Perm kept')
      (keepEntries (fun e => keepPrior cutoff e.1 e.2) prior.entries)
      (keepEntries (fun e => keepPrior cutoff e.1 e.2) prior'.entries) := by
  have hperm : (prior.entries.map (Prod.map ρ.map id)).Perm prior'.entries := List.isPerm_iff.mp h
  cases hk : keepEntries (fun e => keepPrior cutoff e.1 e.2) prior.entries with
  | error e =>
    obtain ⟨a, ha, hraise⟩ := keepEntries_error hk
    cases hk' : keepEntries (fun e => keepPrior cutoff e.1 e.2) prior'.entries with
    | error e' =>
      obtain ⟨a', _, hraise'⟩ := keepEntries_error hk'
      exact .error ((keepPrior_error hraise).trans (keepPrior_error hraise').symm)
    | ok kept' =>
      obtain ⟨keep, hkeep⟩ := (keepEntries_ok hk').1 _ (hperm.mem_iff.mp (List.mem_map_of_mem ha))
      change keepPrior cutoff (ρ.map a.1) a.2 = .ok keep at hkeep
      rw [keepPrior_rename, hraise] at hkeep
      cases hkeep
  | ok kept =>
    obtain ⟨hall, rfl⟩ := keepEntries_ok hk
    cases hk' : keepEntries (fun e => keepPrior cutoff e.1 e.2) prior'.entries with
    | error e' =>
      obtain ⟨a', ha', hraise'⟩ := keepEntries_error hk'
      obtain ⟨a, ha, rfl⟩ := List.mem_map.mp (hperm.mem_iff.mpr ha')
      obtain ⟨keep, hkeep⟩ := hall a ha
      change keepPrior cutoff (ρ.map a.1) a.2 = .error e' at hraise'
      rw [keepPrior_rename, hkeep] at hraise'
      cases hraise'
    | ok kept' =>
      obtain ⟨_, rfl⟩ := keepEntries_ok hk'
      refine .ok ⟨prior.nodup.sublist (List.filter_sublist.map _), ?_⟩
      refine List.Perm.trans ?_ (hperm.filter _)
      rw [List.filter_map]
      refine List.Perm.of_eq (congrArg _ (List.filter_congr fun e _ => ?_))
      exact congrArg (fun x => Except.toOption x == some true)
        (keepPrior_rename cutoff e.1 e.2).symm

/-- Pruning keeps the renamed entries, or raises the same, as it looks at the ends and not at the
ids. -/
theorem pruneSeen_rename {prior prior' : Dict String String}
    (h : (prior.rename ρ.map).same prior' = true) (current : Dict String DateTime)
    (cutoff : DateTime) :
    Paired Eq (fun out out' => (out.rename ρ.map).same out' = true)
      (pruneSeen prior current.entries cutoff)
      (pruneSeen prior' (current.rename ρ.map).entries cutoff) := by
  refine .bind (keepEntries_rename h cutoff) ?_
  rintro kept kept' ⟨hnodup, hkept⟩
  have hfresh : ((current.rename ρ.map).entries.filter fun e =>
        e.1 != "" && cutoff.instant ≤ e.2.instant).map (fun e => (e.1, e.2.isoformat)) =
      ((current.entries.filter fun e => e.1 != "" && cutoff.instant ≤ e.2.instant).map
        fun e => (e.1, e.2.isoformat)).map (Prod.map ρ.map id) := by
    rw [Dict.entries_rename, List.filter_map, List.map_map, List.map_map]
    refine congrArg₂ List.map rfl (List.filter_congr fun e _ => ?_)
    have hne : (ρ.map e.1 != "") = (e.1 != "") := by
      rw [Bool.eq_iff_iff, bne_iff_ne, bne_iff_ne, Ne, ρ.map_eq_empty]
    exact congrArg (· && decide (cutoff.instant ≤ e.2.instant)) hne
  refine .ok ?_
  rw [hfresh, ← Dict.update_rename, Dict.same_iff]
  intro k
  have hold : ((Dict.ofList kept).rename ρ.map).get? k = (Dict.ofList kept').get? k := by
    have hofList : (Dict.ofList kept).rename ρ.map = Dict.ofList (kept.map (Prod.map ρ.map id)) :=
      (Dict.update_rename ρ.map .empty kept).symm
    rw [hofList]
    refine Dict.get?_ofList_perm ?_ hkept k
    rw [Dict.keys_map]
    exact hnodup.map ρ.map.injective
  rw [Dict.get?_update, Dict.get?_update, hold]

/-! ## Assembling the points -/

def Prepared.rename (ρ : IdRenaming) (p : Prepared) : Prepared :=
  { p with stream := p.stream.rename ρ }

omit [Runtime] in
lemma assemble_rename (args : RunArgs) {source source' : Source}
    (h : source'.stats = source.stats) (stream : Stream) :
    Paired Eq (fun p p' => p' = p.rename ρ) (assemble args source stream)
      (assemble args source' (stream.rename ρ)) := by
  refine .bind (.of_eq rfl) ?_
  rintro ⟨workload, built⟩ _ rfl
  refine .bind (.of_eq rfl) ?_
  rintro results _ rfl
  refine .ok ?_
  rw [h]
  rfl

omit [Runtime] in
/-- The seen map that a run starts from, over renamed ids. -/
lemma priorSeen_rename {checkpoint checkpoint' : Option Checkpoint}
    (h : Option.Rel (Checkpoint.Renamed ρ) checkpoint checkpoint') :
    (((checkpoint.map Checkpoint.seen).getD .empty).rename ρ.map).same
      ((checkpoint'.map Checkpoint.seen).getD .empty) = true := by
  cases h with
  | some hcp => exact hcp.seen
  | none => rfl

/-- Everything before the delivery is the same, but for the ids that it keeps. -/
theorem prepare_rename {args : RunArgs} {records records' : List Json}
    {failure : Option PyErr} {stats : Option SourceStats} {rng : Rng} {elapsed elapsed' : ℚ}
    {checkpoint checkpoint' : Option Checkpoint}
    (hrecords : List.Forall₂ (Alike ρ args.cfg) records records')
    (hcp : Option.Rel (Checkpoint.Renamed ρ) checkpoint checkpoint') (hasStore : Bool) :
    Paired Eq (fun p p' => p' = p.rename ρ)
      (prepare args ⟨records, failure, stats⟩ ⟨rng, elapsed⟩ hasStore checkpoint)
      (prepare args ⟨records', failure, stats⟩ ⟨rng, elapsed'⟩ hasStore checkpoint') := by
  refine .bind (.of_eq rfl) ?_
  rintro cutoff _ rfl
  have henv : (streamEnv args ⟨rng, elapsed⟩ hasStore checkpoint cutoff).Alike ρ
      (streamEnv args ⟨rng, elapsed'⟩ hasStore checkpoint' cutoff) := by
    refine ⟨rfl, rfl, rfl, fun id => ?_⟩
    exact (Dict.mem_of_same (priorSeen_rename hcp)).trans Dict.mem_rename
  have hstream := streamFrom_rename henv hrecords args.maxRecords failure .new
  have hnew : StreamState.rename ρ .new = .new := rfl
  rw [hnew] at hstream
  rw [hstream]
  exact assemble_rename args rfl _

/-! ## Delivery -/

section Deliver
variable {α σ : Type} {s s' : σ} {w w' : World α σ}

/-- Two worlds with the same exporter, whose stores are in given states. -/
structure World.Twins (s s' : σ) (w w' : World α σ) : Prop where
  exporter : w'.exporter = w.exporter
  left : w.store = s
  right : w'.store = s'

omit [Runtime] in
lemma flush_twins (h : World.Twins s s' w w') (exporter : Option (Exporter α))
    (points : List MetricPoint) (stats : AggregationStats) :
    (flush exporter points stats w').1 = (flush exporter points stats w).1 ∧
      World.Twins s s' (flush exporter points stats w).2 (flush exporter points stats w').2 := by
  cases exporter with
  | none => exact ⟨rfl, h⟩
  | some x =>
    simp only [flush, World.send, h.exporter]
    split_ifs
    · cases (x.exportPoints w.exporter points).1 with
      | error e => exact ⟨rfl, rfl, h.left, h.right⟩
      | ok _ => exact ⟨rfl, rfl, h.left, h.right⟩
    · exact ⟨rfl, h⟩

omit [Runtime] in
lemma sendHeartbeat_twins (h : World.Twins s s' w w') (exporter : Option (Exporter α))
    (points : List MetricPoint) (stats : AggregationStats) :
    (sendHeartbeat exporter points stats w').1 = (sendHeartbeat exporter points stats w).1 ∧
      World.Twins s s' (sendHeartbeat exporter points stats w).2
        (sendHeartbeat exporter points stats w').2 := by
  unfold sendHeartbeat
  cases exporter.bind Exporter.heartbeat with
  | none => exact ⟨rfl, h⟩
  | some channel =>
    simp only [World.beat, h.exporter]
    cases (channel w.exporter points).1 with
    | error e => exact ⟨rfl, rfl, h.left, h.right⟩
    | ok _ => exact ⟨rfl, rfl, h.left, h.right⟩

variable (ρ) in
omit [Runtime] in
lemma publish_twins (h : World.Twins s s' w w') (exporter : Option (Exporter α)) (p : Prepared) :
    (publish exporter (p.rename ρ) w').1 = (publish exporter p w).1 ∧
      (publish exporter (p.rename ρ) w').2.1 = (publish exporter p w).2.1 ∧
      World.Twins s s' (publish exporter p w).2.2 (publish exporter (p.rename ρ) w').2.2 := by
  obtain ⟨hstats, hflushed⟩ := flush_twins h exporter p.points p.stats
  obtain ⟨hbeat, hbeaten⟩ := sendHeartbeat_twins hflushed exporter
    (healthPoints (flush exporter p.points p.stats w).1) (flush exporter p.points p.stats w).1
  change (sendHeartbeat exporter (healthPoints (flush exporter p.points p.stats w').1)
      (flush exporter p.points p.stats w').1 (flush exporter p.points p.stats w').2).1 = _ ∧
    healthPoints (flush exporter p.points p.stats w').1 = _ ∧
    World.Twins s s' _ (sendHeartbeat exporter
      (healthPoints (flush exporter p.points p.stats w').1)
      (flush exporter p.points p.stats w').1 (flush exporter p.points p.stats w').2).2
  rw [hstats]
  exact ⟨hbeat, rfl, hbeaten⟩

/-- A store in two states that answers the same, up to the ids: loads find renamed checkpoints,
and saves of renamed checkpoints go alike. -/
structure CheckpointStore.Twins (ρ : IdRenaming) (st : CheckpointStore σ) (s s' : σ) : Prop where
  loads : Paired Eq (Option.Rel (Checkpoint.Renamed ρ)) (st.load s).1 (st.load s').1
  saves : ∀ cp cp', Checkpoint.Renamed ρ cp cp' →
    (st.save (st.load s').2 cp').1 = (st.save (st.load s).2 cp).1

/-- Documents over renamed ids. -/
structure StoredCheckpoint.Renamed (ρ : IdRenaming) (doc doc' : StoredCheckpoint) : Prop where
  watermark : doc'.watermark = doc.watermark
  seen : (doc.seen.rename ρ.map).same doc'.seen = true

/-- A load only depends on the document, so two states of a store are twins when
their documents are and their saves end the same. -/
theorem CheckpointStore.twins_of_persisted (st : CheckpointStore σ)
    (h : Paired Eq (Option.Rel (StoredCheckpoint.Renamed ρ)) (st.persisted s) (st.persisted s'))
    (hsaves : ∀ cp cp', (st.save (st.load s').2 cp').1 = (st.save (st.load s).2 cp).1) :
    st.Twins ρ s s' := by
  refine ⟨?_, fun cp cp' _ => hsaves cp cp'⟩
  rw [st.load_reads, st.load_reads]
  revert h
  generalize st.persisted s = held
  generalize st.persisted s' = held'
  intro h
  cases h with
  | error he => exact .error he
  | ok hdoc =>
    cases hdoc with
    | none => exact .ok .none
    | @some doc doc' hdoc =>
      have hread : Paired Eq (Checkpoint.Renamed ρ) doc.read doc'.read := by
        rw [StoredCheckpoint.read, StoredCheckpoint.read, hdoc.watermark]
        cases doc.watermark with
        | none => exact .ok ⟨rfl, hdoc.seen⟩
        | some text =>
          refine .bind (.of_eq rfl) ?_
          rintro watermark _ rfl
          exact .ok ⟨rfl, hdoc.seen⟩
      exact hread.map fun _ _ => .some

/-- A checkpoint file, whatever its filesystem does: the renamed document is written and read as
the other one. -/
theorem fileStore_twins {fault : FileState → Option PyErr} {s s' : FileState}
    (h : Paired Eq (Option.Rel (StoredCheckpoint.Renamed ρ)) s.persisted s'.persisted)
    (hfault : fault s' = fault s) : (fileStore fault).Twins ρ s s' := by
  refine CheckpointStore.twins_of_persisted (fileStore fault) h fun cp cp' => ?_
  simp only [fileStore, hfault]
  cases fault s <;> rfl

omit [Runtime] in
lemma DynamoState.save_answer (state : DynamoState) (cp : Checkpoint) :
    (state.save cp).1 = if state.condition then .ok () else .error .conflict := by
  unfold DynamoState.save
  split_ifs <;> rfl

/-- A DynamoDB item: the conditional write reads the version, not the ids. -/
theorem dynamoStore_twins {s s' : DynamoState}
    (h : Option.Rel (StoredCheckpoint.Renamed ρ) (s.item.map DynamoItem.doc)
      (s'.item.map DynamoItem.doc)) (hversion : versionOf s'.item = versionOf s.item) :
    dynamoStore.Twins ρ s s' := by
  refine CheckpointStore.twins_of_persisted dynamoStore (.ok h) fun cp cp' => ?_
  obtain ⟨item, version⟩ := s
  obtain ⟨item', version'⟩ := s'
  cases item with
  | none =>
    cases item' with
    | none => rfl
    | some item' => cases h
  | some item =>
    cases item' with
    | none => cases h
    | some item' =>
      have hv : item'.version = item.version := hversion
      have hcondition : DynamoState.condition ⟨some item', item'.version⟩ =
          DynamoState.condition ⟨some item, item.version⟩ := by
        simp only [DynamoState.condition, hv]
      change (DynamoState.save ⟨some item', item'.version⟩ cp').1 =
        (DynamoState.save ⟨some item, item.version⟩ cp).1
      rw [DynamoState.save_answer, DynamoState.save_answer, hcondition]

/-- The commit ends the same, and leaves the exporter alone. -/
lemma commit_twins {store : Option (CheckpointStore σ)} {args : RunArgs}
    {checkpoint checkpoint' : Option Checkpoint}
    (hcp : Option.Rel (Checkpoint.Renamed ρ) checkpoint checkpoint')
    (hsaves : ∀ st, store = some st → ∀ cp cp', Checkpoint.Renamed ρ cp cp' →
      (st.save s' cp').1 = (st.save s cp).1)
    (h : World.Twins s s' w w') (currentSeen : Dict String DateTime) (stats : AggregationStats) :
    (commit store args checkpoint' (currentSeen.rename ρ.map) stats w').1 =
        (commit store args checkpoint currentSeen stats w).1 ∧
      (commit store args checkpoint' (currentSeen.rename ρ.map) stats w').2.exporter =
        (commit store args checkpoint currentSeen stats w).2.exporter := by
  unfold commit
  cases store with
  | none => exact ⟨rfl, h.exporter⟩
  | some st =>
    cases hend : args.windowEnd with
    | none => exact ⟨rfl, h.exporter⟩
    | some windowEnd =>
      simp only
      split_ifs
      · have hseen : Paired Eq (fun out out' => (out.rename ρ.map).same out' = true)
            (committedSeen args windowEnd checkpoint currentSeen)
            (committedSeen args windowEnd checkpoint' (currentSeen.rename ρ.map)) := by
          refine .bind (.of_eq rfl) ?_
          rintro cutoff _ rfl
          exact pruneSeen_rename (priorSeen_rename hcp) currentSeen cutoff
        rcases hseen.outcomes with ⟨e, _, hx, hx', rfl⟩ | ⟨out, out', hx, hx', hout⟩
        · rw [hx, hx']
          exact ⟨rfl, h.exporter⟩
        · have hsave := hsaves st rfl ⟨some windowEnd, out⟩ ⟨some windowEnd, out'⟩ ⟨rfl, hout⟩
          simp only [hx, hx', World.save, h.left, h.right, hsave]
          cases (st.save s ⟨some windowEnd, out⟩).1 with
          | ok _ => exact ⟨rfl, h.exporter⟩
          | error e => cases e <;> exact ⟨rfl, h.exporter⟩
      · exact ⟨rfl, h.exporter⟩

/-- The exporter's answer to the final heartbeat is the same for both durations. -/
def DurationBlind (exporter : Option (Exporter α)) (elapsed elapsed' : ℚ) : Prop :=
  ∀ channel, exporter.bind Exporter.heartbeat = some channel → ∀ state stats,
    (channel state (finalHealth elapsed' stats)).1 = (channel state (finalHealth elapsed stats)).1

/-- A point without the wall-clock duration of the run. -/
def MetricPoint.timeless (p : MetricPoint) : MetricPoint :=
  if p.name = "gateway.pipeline.run_duration_seconds" then { p with value := none } else p

/-- The same report, but for the metric that holds the wall-clock duration of the run. -/
structure PipelineResult.Alike (r r' : PipelineResult) : Prop where
  points : r'.points.map MetricPoint.timeless = r.points.map MetricPoint.timeless
  stats : r'.stats = r.stats
  quality : r'.quality = r.quality
  malformedByReason : r'.malformedByReason = r.malformedByReason

omit [Runtime] in
lemma finalHealth_timeless (elapsed elapsed' : ℚ) (stats : AggregationStats) :
    (finalHealth elapsed' stats).map MetricPoint.timeless =
      (finalHealth elapsed stats).map MetricPoint.timeless := rfl

omit [Runtime] in
lemma finalBeat_twins (h : w'.exporter = w.exporter) {exporter : Option (Exporter α)}
    {elapsed elapsed' : ℚ} (hblind : DurationBlind exporter elapsed elapsed')
    (stats : AggregationStats) :
    (sendHeartbeat exporter (finalHealth elapsed' stats) stats w').1 =
      (sendHeartbeat exporter (finalHealth elapsed stats) stats w).1 := by
  unfold sendHeartbeat
  cases hchannel : exporter.bind Exporter.heartbeat with
  | none => rfl
  | some channel =>
    simp only [World.beat, h, hblind channel hchannel]
    cases (channel w.exporter (finalHealth elapsed stats)).1 <;> rfl

/-- The commit and the final heartbeat, after the same points were published. -/
lemma conclude_twins {exporter : Option (Exporter α)} {store : Option (CheckpointStore σ)}
    {args : RunArgs} {rng : Rng} {elapsed elapsed' : ℚ} {checkpoint checkpoint' : Option Checkpoint}
    (hcp : Option.Rel (Checkpoint.Renamed ρ) checkpoint checkpoint')
    (hsaves : ∀ st, store = some st → ∀ cp cp', Checkpoint.Renamed ρ cp cp' →
      (st.save s' cp').1 = (st.save s cp).1)
    (hblind : DurationBlind exporter elapsed elapsed') (h : World.Twins s s' w w') (p : Prepared)
    (stats : AggregationStats) (health : List MetricPoint) :
    Paired Eq PipelineResult.Alike
      (conclude exporter store args ⟨rng, elapsed⟩ checkpoint p stats health w).1
      (conclude exporter store args ⟨rng, elapsed'⟩ checkpoint' (p.rename ρ) stats health
        w').1 := by
  obtain ⟨hresult, hexporter⟩ := commit_twins hcp hsaves h p.stream.state.currentSeen stats
  have hseen : (p.rename ρ).stream.state.currentSeen =
      p.stream.state.currentSeen.rename ρ.map := rfl
  unfold conclude
  rw [hseen]
  revert hresult hexporter
  generalize commit store args checkpoint p.stream.state.currentSeen stats w = committed
  generalize commit store args checkpoint' _ stats w' = committed'
  obtain ⟨result, world⟩ := committed
  obtain ⟨result', world'⟩ := committed'
  rintro rfl hexporter
  cases result' with
  | error e => exact .error rfl
  | ok stats' =>
    refine .ok ⟨?_, finalBeat_twins hexporter hblind stats', rfl, rfl⟩
    change (p.points ++ health ++ finalHealth elapsed' stats').map MetricPoint.timeless =
      (p.points ++ health ++ finalHealth elapsed stats').map MetricPoint.timeless
    simp only [List.map_append, finalHealth_timeless elapsed elapsed']

lemma deliver_twins {exporter : Option (Exporter α)} {store : Option (CheckpointStore σ)}
    {args : RunArgs} {rng : Rng} {elapsed elapsed' : ℚ} {checkpoint checkpoint' : Option Checkpoint}
    (hcp : Option.Rel (Checkpoint.Renamed ρ) checkpoint checkpoint')
    (hsaves : ∀ st, store = some st → ∀ cp cp', Checkpoint.Renamed ρ cp cp' →
      (st.save s' cp').1 = (st.save s cp).1)
    (hblind : DurationBlind exporter elapsed elapsed') (h : World.Twins s s' w w')
    (p : Prepared) :
    Paired Eq PipelineResult.Alike (deliver exporter store args ⟨rng, elapsed⟩ checkpoint p w).1
      (deliver exporter store args ⟨rng, elapsed'⟩ checkpoint' (p.rename ρ) w').1 := by
  obtain ⟨hstats, hhealth, hpublished⟩ := publish_twins ρ h exporter p
  unfold deliver
  revert hstats hhealth hpublished
  generalize publish exporter p w = published
  generalize publish exporter (p.rename ρ) w' = published'
  obtain ⟨stats, health, world⟩ := published
  obtain ⟨stats', health', world'⟩ := published'
  rintro rfl rfl hpublished
  exact conclude_twins hcp hsaves hblind hpublished p _ _

lemma loadCheckpoint_twins {store : Option (CheckpointStore σ)} (x : α)
    (effects effects' : List Effect)
    (hstore : ∀ st, store = some st → st.Twins ρ s s') :
    Paired Eq (Option.Rel (Checkpoint.Renamed ρ)) (loadCheckpoint store ⟨x, s, effects⟩).1
        (loadCheckpoint store ⟨x, s', effects'⟩).1 ∧
      (loadCheckpoint store ⟨x, s', effects'⟩).2.exporter =
        (loadCheckpoint store ⟨x, s, effects⟩).2.exporter ∧
      ∀ st, store = some st → ∀ cp cp', Checkpoint.Renamed ρ cp cp' →
        (st.save (loadCheckpoint store ⟨x, s', effects'⟩).2.store cp').1 =
          (st.save (loadCheckpoint store ⟨x, s, effects⟩).2.store cp).1 := by
  cases store with
  | none => exact ⟨.ok .none, rfl, fun st h => nomatch h⟩
  | some st =>
    refine ⟨(hstore st rfl).loads, rfl, ?_⟩
    intro st' hst cp cp' hcp
    cases hst
    exact (hstore st rfl).saves cp cp' hcp

/-- Two runs over records that agree on the governed projection, with ids and a prior
seen map that differ by an injective renaming, end with the same report. -/
theorem run_noninterference (ρ : IdRenaming) (exporter : Option (Exporter α))
    (store : Option (CheckpointStore σ)) (args : RunArgs) (records records' : List Json)
    (failure : Option PyErr) (stats : Option SourceStats) (rng : Rng) (elapsed elapsed' : ℚ)
    (x : α) (s s' : σ) (effects effects' : List Effect)
    (hrecords : List.Forall₂ (Alike ρ args.cfg) records records')
    (hstore : ∀ st, store = some st → st.Twins ρ s s')
    (hblind : DurationBlind exporter elapsed elapsed') :
    Paired Eq PipelineResult.Alike
      (run exporter store args ⟨records, failure, stats⟩ ⟨rng, elapsed⟩ ⟨x, s, effects⟩).1
      (run exporter store args ⟨records', failure, stats⟩ ⟨rng, elapsed'⟩ ⟨x, s', effects'⟩).1 := by
  obtain ⟨hload, hexporter, hsaves⟩ := loadCheckpoint_twins x effects effects' hstore
  unfold run
  revert hload hexporter hsaves
  generalize loadCheckpoint store ⟨x, s, effects⟩ = loaded
  generalize loadCheckpoint store ⟨x, s', effects'⟩ = loaded'
  obtain ⟨outcome, w⟩ := loaded
  obtain ⟨outcome', w'⟩ := loaded'
  intro hload hexporter hsaves
  cases hload with
  | error he => exact .error he
  | @ok checkpoint checkpoint' hcp =>
    have hprepare : Paired Eq (fun p p' => p' = p.rename ρ)
        (prepare args ⟨records, failure, stats⟩ ⟨rng, elapsed⟩ store.isSome checkpoint)
        (prepare args ⟨records', failure, stats⟩ ⟨rng, elapsed'⟩ store.isSome checkpoint') :=
      prepare_rename hrecords hcp store.isSome
    rcases hprepare.outcomes with ⟨e, e', hx, hx', he⟩ | ⟨p, _, hx, hx', rfl⟩
    · simp only [hx, hx']
      exact .error he
    · simp only [hx, hx']
      exact deliver_twins hcp hsaves hblind ⟨hexporter, rfl, rfl⟩ p

/-- A request of one user, with the text of the prompt. -/
def userRecord (id team prompt : String) : Json :=
  .obj [("id", .str id), ("traceMetadata", .obj [("team", .str team)]), ("input", .str prompt),
    ("startTime", .str "2024-01-02T03:04:05Z"), ("endTime", .str "2024-01-02T03:04:06Z"),
    ("usageDetails", .obj [("input", .int 12), ("output", .int 30)])]

/-- A checkpoint that has seen one id. -/
def seenOnce (id : String) : FileState :=
  .written ⟨none, Dict.ofList [(id, "2024-01-02T03:04:00+00:00")]⟩

def swapIds : IdRenaming := ⟨(Equiv.swap "a" "b").toEmbedding, by decide +kernel⟩

omit [Runtime] in
/-- Two users, of whom one is known to the checkpoint, trade their ids. -/
theorem run_noninterference_sample :
    letI := Runtime.ascii
    let report (known : String) (records : List Json) (elapsed : ℚ) :=
      (run (some acceptingExporter) (some (fileStore fun _ => none))
        ⟨.default, some (sampleTime 4 0), .finite 10, none⟩ ⟨records, none, none⟩
        ⟨fun _ _ => 0, elapsed⟩ ⟨(), seenOnce known, []⟩).1
    (∃ result, report "b" [userRecord "a" "Ada's team" "call 555", userRecord "b" "x" ""] 2 =
      .ok result) ∧
    Paired Eq PipelineResult.Alike
      (report "b" [userRecord "a" "Ada's team" "call 555", userRecord "b" "x" ""] 2)
      (report "a" [userRecord "b" "Bob" "my number is 12", userRecord "a" "y" "hi"] 3) := by
  let := Runtime.ascii
  intro report
  refine ⟨exists_ok_of_isOk (by decide +kernel), ?_⟩
  refine run_noninterference swapIds (some acceptingExporter) (some (fileStore fun _ => none)) _ _ _
    none none _ 2 3 () _ _ [] [] ?_ ?_ ?_
  · exact .cons ⟨by decide +kernel, by decide +kernel⟩
      (.cons ⟨by decide +kernel, by decide +kernel⟩ .nil)
  · intro st hst
    cases hst
    exact fileStore_twins (.ok (.some ⟨rfl, by decide +kernel⟩)) rfl
  · intro channel hchannel state stats
    cases hchannel
    rfl

end Deliver

end
end InferenceControlPlane.Sli
