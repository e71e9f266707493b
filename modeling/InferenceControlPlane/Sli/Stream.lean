import InferenceControlPlane.Sli.Pipeline

/-!
# What one record does

The loop body has six exits. `Verdict` states each of them once, with its guard
and the state it leaves; every invariant of the read loop is a case analysis over
it. The observations that a read folds are listed by `folded`.
-/
namespace InferenceControlPlane.Sli
open Python

namespace StreamState

/-- The state after the record has been counted as read. -/
def counted (st : StreamState) : StreamState := { st with recordsRead := st.recordsRead + 1 }

/-- The state after an id has entered the batch. -/
def admitted (st : StreamState) (obs : Observation) : StreamState :=
  { st.counted with seenBatch := obs.obsId :: st.seenBatch }

section
variable [Runtime]

inductive Verdict (env : StreamEnv) (st : StreamState) (raw : Json) : StreamState → Prop
  | malformed (reason : MalformedReason) (h : parseObservation raw = .error (.malformed reason)) :
      Verdict env st raw (st.counted.reject reason.code)
  | quarantined (e : PyErr) (h : parseObservation raw = .error (.escaped e)) :
      Verdict env st raw
        ({ st.counted with quarantined := st.quarantined + 1 }.reject unexpectedError)
  | blank (obs : Observation) (h : parseObservation raw = .ok obs) (hid : obs.obsId = "") :
      Verdict env st raw (st.counted.reject MalformedReason.missingObservationId.code)
  | duplicate (obs : Observation) (h : parseObservation raw = .ok obs) (hid : obs.obsId ≠ "")
      (hbatch : obs.obsId ∈ st.seenBatch) :
      Verdict env st raw { st.counted with duplicates := st.duplicates + 1 }
  | crossRun (obs : Observation) (h : parseObservation raw = .ok obs) (hid : obs.obsId ≠ "")
      (hbatch : obs.obsId ∉ st.seenBatch) (hprior : obs.obsId ∈ env.priorSeen) :
      Verdict env st raw
        { st.admitted obs with crossRunDuplicates := st.crossRunDuplicates + 1 }
  | folded (obs : Observation) (h : parseObservation raw = .ok obs) (hid : obs.obsId ≠ "")
      (hbatch : obs.obsId ∉ st.seenBatch) (hprior : obs.obsId ∉ env.priorSeen) :
      Verdict env st raw ((st.admitted obs).fold env obs)

theorem verdict (env : StreamEnv) (st : StreamState) (raw : Json) :
    Verdict env st raw (st.step env raw) := by
  unfold step
  cases h : parseObservation raw with
  | error e =>
    cases e with
    | malformed reason => exact .malformed reason h
    | escaped e => exact .quarantined e h
  | ok obs =>
    simp only
    split_ifs with hid hbatch hprior
    · exact .blank obs h hid
    · exact .duplicate obs h hid hbatch
    · exact .crossRun obs h hid hbatch hprior
    · exact .folded obs h hid hbatch hprior

end
end StreamState

section
variable [Runtime]

theorem step_recordsRead (st : StreamState) (env : StreamEnv) (raw : Json) :
    (st.step env raw).recordsRead = st.recordsRead + 1 := by
  have hv := st.verdict env raw
  generalize st.step env raw = st' at hv
  cases hv <;> rfl

/-- The observation that a record adds to the window, if it adds one. -/
def StreamState.contributes (env : StreamEnv) (st : StreamState) (raw : Json) :
    Option Observation :=
  match parseObservation raw with
  | .error _ => none
  | .ok obs =>
    if obs.obsId = "" ∨ obs.obsId ∈ st.seenBatch ∨ obs.obsId ∈ env.priorSeen then none else some obs

/-- The observations that a read folds, in order. -/
def foldedFrom (env : StreamEnv) (maxRecords : Option ℤ) :
    List Json → StreamState → List Observation
  | [], _ => []
  | raw :: rest, st =>
    if atLimit maxRecords st.recordsRead then []
    else (st.contributes env raw).toList ++ foldedFrom env maxRecords rest (st.step env raw)

/-- The induction rule of the read loop. What a step preserves, for the records read
and the observations folded so far, holds at the end of the read; and a read that
was not truncated has read every record. -/
theorem streamFrom_rule {env : StreamEnv} {maxRecords : Option ℤ} {failure : Option PyErr}
    (P : List Json → List Observation → StreamState → Prop) {records : List Json}
    (read : List Json) (folded : List Observation) {st : StreamState} (h0 : P read folded st)
    (hstep : ∀ rs os st, ∀ raw ∈ records, P rs os st →
      P (rs ++ [raw]) (os ++ (st.contributes env raw).toList) (st.step env raw)) :
    ∃ more, more <+: records ∧
      P (read ++ more) (folded ++ foldedFrom env maxRecords records st)
        (streamFrom env maxRecords failure records st).state ∧
      ((streamFrom env maxRecords failure records st).truncated = false → more = records) := by
  induction records generalizing read folded st with
  | nil => exact ⟨[], List.prefix_refl _, by simpa [foldedFrom, streamFrom] using h0, fun _ => rfl⟩
  | cons raw rest ih =>
    by_cases hlimit : atLimit maxRecords st.recordsRead = true
    · refine ⟨[], List.nil_prefix, ?_, ?_⟩
      · simpa [foldedFrom, streamFrom, hlimit] using h0
      · intro h
        simp [streamFrom, hlimit] at h
    · obtain ⟨more, hmore, hP, hall⟩ := ih _ _ (hstep read folded st raw List.mem_cons_self h0)
        (fun rs os st r hr => hstep rs os st r (List.mem_cons_of_mem _ hr))
      refine ⟨raw :: more, List.cons_prefix_cons.mpr ⟨rfl, hmore⟩, ?_, ?_⟩
      · simpa [foldedFrom, streamFrom, hlimit] using hP
      · intro h
        simp only [streamFrom, hlimit] at h
        rw [hall h]

/-- Invariants that ignore what was read: what one record preserves, the read preserves. -/
theorem streamFrom_invariant {env : StreamEnv} {maxRecords : Option ℤ} {failure : Option PyErr}
    {P : StreamState → Prop} {records : List Json} {st : StreamState} (h0 : P st)
    (hstep : ∀ st raw, P st → P (st.step env raw)) :
    P (streamFrom env maxRecords failure records st).state := by
  obtain ⟨_, _, h, _⟩ := streamFrom_rule (fun _ _ st => P st) [] []
    h0 (fun _ _ st raw _ h => hstep st raw h)
  exact h

/-! ## De-duplication and the seen ids of one read -/

/-- What the read loop knows about the ids it has met: the folded observations are read from
records, have distinct ids, none of them known before, and are what the aggregator and the samples
were given. -/
structure Deduplicated (env : StreamEnv) (read : List Json) (folded : List Observation)
    (st : StreamState) : Prop where
  source : ∀ obs ∈ folded, ∃ raw ∈ read, parseObservation raw = .ok obs
  nodup : (folded.map Observation.obsId).Nodup
  fresh : ∀ obs ∈ folded, obs.obsId ≠ "" ∧ obs.obsId ∉ env.priorSeen
  batch : ∀ obs ∈ folded, obs.obsId ∈ st.seenBatch
  covers : ∀ raw ∈ read, ∀ obs, parseObservation raw = .ok obs → obs.obsId ≠ "" →
    obs.obsId ∈ st.seenBatch
  known : ∀ id ∈ st.seenBatch, id ∈ folded.map Observation.obsId ∨ id ∈ env.priorSeen
  collected : ∀ obs ∈ folded, StreamState.collects env obs = true →
    st.currentSeen.get? obs.obsId = some obs.endTime
  recorded : ∀ id endTime, st.currentSeen.get? id = some endTime →
    ∃ obs ∈ folded, obs.obsId = id ∧ obs.endTime = endTime
  aggregated : st.aggregator = folded.foldl (Aggregator.add env.cfg) .new
  sampled : st.quality = folded.foldl (QualityAccumulator.add env.rng sampleCap env.cfg) .new
  processed : st.processed = folded.length

theorem deduplicated_new (env : StreamEnv) : Deduplicated env [] [] .new where
  source := by simp
  nodup := by simp
  fresh := by simp
  batch := by simp
  covers := by simp
  known := by simp [StreamState.new]
  collected := by simp
  recorded := by simp [StreamState.new]
  aggregated := rfl
  sampled := rfl
  processed := rfl

/-- A record that folds nothing changes neither the seen ids nor the aggregator; its
id, if it has one, is in the batch afterwards. -/
lemma Deduplicated.skip {env : StreamEnv} {read : List Json} {folded : List Observation}
    {st st' : StreamState} {raw : Json} (h : Deduplicated env read folded st)
    (hagg : st'.aggregator = st.aggregator) (hqual : st'.quality = st.quality)
    (hproc : st'.processed = st.processed)
    (hseen : st'.currentSeen = st.currentSeen)
    (hgrow : ∀ id ∈ st.seenBatch, id ∈ st'.seenBatch)
    (hknown : ∀ id ∈ st'.seenBatch, id ∈ st.seenBatch ∨ id ∈ env.priorSeen)
    (hcovers : ∀ obs, parseObservation raw = .ok obs → obs.obsId ≠ "" →
      obs.obsId ∈ st'.seenBatch) :
    Deduplicated env (read ++ [raw]) folded st' where
  source obs ho := by
    obtain ⟨r, hr, hp⟩ := h.source obs ho
    exact ⟨r, List.mem_append_left _ hr, hp⟩
  nodup := h.nodup
  fresh := h.fresh
  batch obs ho := hgrow _ (h.batch obs ho)
  covers r hr obs hp hid := by
    rcases List.mem_append.mp hr with hr | hr
    · exact hgrow _ (h.covers r hr obs hp hid)
    · rw [List.mem_singleton.mp hr] at hp
      exact hcovers obs hp hid
  known id hid := (hknown id hid).elim (h.known id) Or.inr
  collected obs ho hc := by rw [hseen]; exact h.collected obs ho hc
  recorded id e he := h.recorded id e (hseen ▸ he)
  aggregated := hagg.trans h.aggregated
  sampled := hqual.trans h.sampled
  processed := hproc.trans h.processed

/-- A folded record extends the window by its observation. -/
lemma Deduplicated.push {env : StreamEnv} {read : List Json} {folded : List Observation}
    {st : StreamState} {raw : Json} {obs : Observation} (h : Deduplicated env read folded st)
    (hparse : parseObservation raw = .ok obs) (hid : obs.obsId ≠ "")
    (hbatch : obs.obsId ∉ st.seenBatch) (hprior : obs.obsId ∉ env.priorSeen) :
    Deduplicated env (read ++ [raw]) (folded ++ [obs]) ((st.admitted obs).fold env obs) where
  source o ho := by
    rcases List.mem_append.mp ho with ho | ho
    · obtain ⟨r, hr, hp⟩ := h.source o ho
      exact ⟨r, List.mem_append_left _ hr, hp⟩
    · rw [List.mem_singleton.mp ho]
      exact ⟨raw, by simp, hparse⟩
  nodup := by
    rw [List.map_append, List.map_singleton, List.nodup_append]
    refine ⟨h.nodup, List.nodup_singleton _, ?_⟩
    intro a ha b hb hab
    obtain ⟨o, ho, rfl⟩ := List.mem_map.mp ha
    rw [List.mem_singleton.mp hb] at hab
    exact hbatch (hab ▸ h.batch o ho)
  fresh o ho := by
    rcases List.mem_append.mp ho with ho | ho
    · exact h.fresh o ho
    · rw [List.mem_singleton.mp ho]
      exact ⟨hid, hprior⟩
  batch o ho := by
    rcases List.mem_append.mp ho with ho | ho
    · exact List.mem_cons_of_mem _ (h.batch o ho)
    · rw [List.mem_singleton.mp ho]
      exact List.mem_cons_self
  covers r hr o hp ho := by
    rcases List.mem_append.mp hr with hr | hr
    · exact List.mem_cons_of_mem _ (h.covers r hr o hp ho)
    · rw [List.mem_singleton.mp hr, hparse] at hp
      cases hp
      exact List.mem_cons_self
  known id hi := by
    rw [List.map_append, List.mem_append]
    rcases List.mem_cons.mp hi with rfl | hi
    · exact Or.inl (Or.inr (by simp))
    · exact (h.known id hi).imp_left Or.inl
  collected o ho hc := by
    have hne : ∀ o ∈ folded, obs.obsId ≠ o.obsId :=
      fun o ho heq => hbatch (heq ▸ h.batch o ho)
    change (if StreamState.collects env obs then st.currentSeen.set obs.obsId obs.endTime
      else st.currentSeen).get? o.obsId = some o.endTime
    rcases List.mem_append.mp ho with ho | ho
    · split_ifs
      · rw [Dict.get?_set, if_neg (hne o ho)]
        exact h.collected o ho hc
      · exact h.collected o ho hc
    · rw [List.mem_singleton.mp ho] at hc ⊢
      rw [if_pos hc, Dict.get?_set, if_pos rfl]
  recorded id e he := by
    change (if StreamState.collects env obs then st.currentSeen.set obs.obsId obs.endTime
      else st.currentSeen).get? id = some e at he
    have hold : st.currentSeen.get? id = some e →
        ∃ o ∈ folded ++ [obs], o.obsId = id ∧ o.endTime = e := by
      intro hs
      obtain ⟨o, ho, hoe⟩ := h.recorded id e hs
      exact ⟨o, List.mem_append_left _ ho, hoe⟩
    split_ifs at he
    · rw [Dict.get?_set] at he
      split_ifs at he with hk
      · exact ⟨obs, by simp, hk, by simpa using he⟩
      · exact hold he
    · exact hold he
  aggregated := by
    rw [List.foldl_append, ← h.aggregated]
    rfl
  sampled := by
    rw [List.foldl_append, ← h.sampled]
    rfl
  processed := by
    rw [List.length_append, ← h.processed]
    rfl

theorem Deduplicated.step {env : StreamEnv} {read : List Json} {folded : List Observation}
    {st : StreamState} (h : Deduplicated env read folded st) (raw : Json) :
    Deduplicated env (read ++ [raw]) (folded ++ (st.contributes env raw).toList)
      (st.step env raw) := by
  have hv := st.verdict env raw
  generalize st.step env raw = st' at hv
  cases hv with
  | malformed reason hp =>
    simp only [StreamState.contributes, hp, Option.toList_none, List.append_nil]
    exact h.skip rfl rfl rfl rfl (fun _ hi => hi) (fun _ hi => Or.inl hi) (by simp [hp])
  | quarantined e hp =>
    simp only [StreamState.contributes, hp, Option.toList_none, List.append_nil]
    exact h.skip rfl rfl rfl rfl (fun _ hi => hi) (fun _ hi => Or.inl hi) (by simp [hp])
  | blank obs hp hid =>
    simp only [StreamState.contributes, hp, hid, true_or, if_true, Option.toList_none,
      List.append_nil]
    refine h.skip rfl rfl rfl rfl (fun _ hi => hi) (fun _ hi => Or.inl hi) ?_
    intro o ho hne
    rw [hp] at ho
    cases ho
    exact absurd hid hne
  | duplicate obs hp hid hbatch =>
    simp only [StreamState.contributes, hp, hbatch, true_or, or_true, if_true,
      Option.toList_none, List.append_nil]
    refine h.skip rfl rfl rfl rfl (fun _ hi => hi) (fun _ hi => Or.inl hi) ?_
    intro o ho _
    rw [hp] at ho
    cases ho
    exact hbatch
  | crossRun obs hp hid hbatch hprior =>
    simp only [StreamState.contributes, hp, hprior, or_true, if_true, Option.toList_none,
      List.append_nil]
    refine h.skip rfl rfl rfl rfl (fun _ hi => List.mem_cons_of_mem _ hi) ?_ ?_
    · intro id hi
      rcases List.mem_cons.mp hi with rfl | hi
      · exact Or.inr hprior
      · exact Or.inl hi
    · intro o ho _
      rw [hp] at ho
      cases ho
      exact List.mem_cons_self
  | folded obs hp hid hbatch hprior =>
    simp only [StreamState.contributes, hp, hid, hbatch, hprior, or_self, if_false,
      Option.toList_some]
    exact h.push hp hid hbatch hprior

/-- The ids of a whole read, from its empty state: which of them were folded, and which were known
or met before. -/
theorem streamFrom_deduplicated (env : StreamEnv) (maxRecords : Option ℤ)
    (failure : Option PyErr) (records : List Json) :
    ∃ read, read <+: records ∧
      Deduplicated env read (foldedFrom env maxRecords records .new)
        (streamFrom env maxRecords failure records .new).state ∧
      ((streamFrom env maxRecords failure records .new).truncated = false → read = records) :=
  streamFrom_rule (Deduplicated env) [] [] (deduplicated_new env)
    (fun _ _ _ raw _ h => h.step raw)

end
end InferenceControlPlane.Sli
