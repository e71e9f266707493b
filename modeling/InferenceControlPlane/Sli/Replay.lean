import InferenceControlPlane.Sli.Commit

/-!
# Protection from replay

After an accepted export of a complete window, the store keeps every exported
observation out of later windows: its id is in the seen map, or it starts before
the point from which the next run reads. A truncated read and a failed first
heartbeat leave the store as it was, so that the window is delivered again.
-/
namespace InferenceControlPlane.Sli
open Python

lemma minute_nonneg (hour : Fin 24) (minute : Fin 60) :
    0 ≤ 738886 * dayMicros + hour.val * hourMicros + minute.val * minuteMicros := by
  simp only [dayMicros, hourMicros, minuteMicros, secondMicros]
  omega

lemma minute_lt_maxWall (hour : Fin 24) (minute : Fin 60) :
    738886 * dayMicros + hour.val * hourMicros + minute.val * minuteMicros < maxWall := by
  simp only [maxWall, maxDays, dayMicros, hourMicros, minuteMicros, secondMicros]
  omega

/-- A full minute of 2 January 2024, in UTC. -/
def sampleTime (hour : Fin 24) (minute : Fin 60) : DateTime where
  wall := 738886 * dayMicros + hour.val * hourMicros + minute.val * minuteMicros
  offset := 0
  wall_nonneg := minute_nonneg hour minute
  wall_lt := minute_lt_maxWall hour minute
  offset_gt := neg_dayMicros_lt_zero
  offset_lt := dayMicros_pos

section
variable [Runtime]

/-- The observations that a run folds, given the state in which it finds the store. -/
def foldedBy {σ : Type} (st : CheckpointStore σ) (args : RunArgs) (source : Source) (env : Env)
    (s : σ) : List Observation :=
  match (st.load s).1, readCutoff args with
  | .ok checkpoint, .ok cutoff =>
    foldedFrom (streamEnv args env true checkpoint cutoff) args.maxRecords source.records .new
  | _, _ => []

/-- The next run over this checkpoint cannot fold the observation again. -/
def Protects (doc : StoredCheckpoint) (overlapMinutes : PyFloat) (obs : Observation) : Prop :=
  obs.obsId ∈ doc.seen ∨ ∃ watermark cutoff, doc.watermark = some watermark.isoformat ∧
    cutoffOf overlapMinutes watermark = .ok cutoff ∧ obs.start.instant < cutoff.instant

/-- The first heartbeat of a run raised. -/
def FirstHeartbeatFailed (trace : List Effect) : Prop :=
  ∃ points e, (heartbeatsOf trace).head? = some (points, some e)

omit [Runtime] in
theorem instant_cutoffOf {overlapMinutes : PyFloat} {delta : ℤ} {d cutoff : DateTime}
    (hdelta : timedeltaMinutes overlapMinutes = .ok delta)
    (h : cutoffOf overlapMinutes d = .ok cutoff) : cutoff.instant = d.instant - delta := by
  simp only [cutoffOf, hdelta] at h
  exact DateTime.instant_sub h

/-! ## The seen map of a commit -/

/-- An observation of the window is kept in the seen map unless it ended before the
cutoff. -/
theorem committedSeen_keeps {args : RunArgs} {env : Env} {checkpoint : Option Checkpoint}
    {windowEnd cutoff : DateTime} {read : List Json} {folded : List Observation}
    {state : StreamState} {seen : Dict String String}
    (hcut : cutoffOf args.overlapMinutes windowEnd = .ok cutoff)
    (hd : Deduplicated (streamEnv args env true checkpoint (some cutoff)) read folded state)
    (hseen : committedSeen args windowEnd checkpoint state.currentSeen = .ok seen)
    {obs : Observation} (ho : obs ∈ folded) :
    obs.obsId ∈ seen ∨ obs.endTime.instant < cutoff.instant := by
  rcases lt_or_ge obs.endTime.instant cutoff.instant with hlt | hge
  · exact Or.inr hlt
  · left
    have hcollect := hd.collected obs ho (by simpa [StreamState.collects, streamEnv] using hge)
    simp only [committedSeen, hcut] at hseen
    exact pruneSeen_current hseen (Dict.mem_entries.mpr hcollect) (hd.fresh obs ho).1 hge

/-- What a commit writes about a folded observation protects it: its id is seen, or it starts
before the overlap of the next window. -/
theorem protects_of_committed {args : RunArgs} {env : Env} {checkpoint : Option Checkpoint}
    {windowEnd cutoff : DateTime} {read : List Json} {folded : List Observation}
    {state : StreamState} {seen : Dict String String}
    (hcut : cutoffOf args.overlapMinutes windowEnd = .ok cutoff)
    (hd : Deduplicated (streamEnv args env true checkpoint (some cutoff)) read folded state)
    (hseen : committedSeen args windowEnd checkpoint state.currentSeen = .ok seen)
    {obs : Observation} (ho : obs ∈ folded) :
    Protects (Checkpoint.mk (some windowEnd) seen).stored args.overlapMinutes obs := by
  rcases committedSeen_keeps hcut hd hseen ho with hin | hlt
  · exact Or.inl hin
  · exact Or.inr ⟨windowEnd, cutoff, rfl, hcut, lt_of_le_of_lt obs.ordered hlt⟩

/-! ## How a returned run leaves the store -/

/-- A run that returned, over a store and a window end: what it read, and what it did
to the store. -/
structure Settled {ε σ : Type} (exporter : Option (Exporter ε)) (st : CheckpointStore σ)
    (args : RunArgs) (source : Source) (env : Env) (windowEnd : DateTime)
    (checkpoint : Option Checkpoint) (cutoff : DateTime) (before after : σ) (stream : Stream)
    (trace : List Effect) : Prop where
  loaded : (st.load before).1 = .ok checkpoint
  cut : cutoffOf args.overlapMinutes windowEnd = .ok cutoff
  stream_eq : stream = streamFrom (streamEnv args env true checkpoint (some cutoff))
    args.maxRecords source.failure source.records .new
  exports : (exportsOf trace).length ≤ 1
  called : exportsOf trace ≠ [] ↔ exporter.isSome = true ∧ stream.error = none
  saves : savesOf trace ≠ [] ↔ stream.error = none ∧ stream.truncated = false ∧
    (∀ call ∈ exportsOf trace, call.2 = none) ∧ ¬ FirstHeartbeatFailed trace
  saved : ∀ cp e, (cp, e) ∈ savesOf trace → ∃ seen, cp = ⟨some windowEnd, seen⟩ ∧
    committedSeen args windowEnd checkpoint stream.state.currentSeen = .ok seen ∧
    e = errorOfResult (st.save (st.load before).2 cp).1 ∧ (e = none ∨ e = some .conflict) ∧
    (e = none → st.persisted after = .ok (some cp.stored))
  unsaved : (∀ cp, (cp, none) ∉ savesOf trace) → st.persisted after = st.persisted before

omit [Runtime] in
/-- The first heartbeat of a trace is the one that follows the main flush. -/
theorem firstHeartbeatFailed_trace {t : Trace}
    (h : t.closed.isSome = true → t.announced.isSome = true) :
    FirstHeartbeatFailed t.effects ↔ ¬ Clean t.announced := by
  obtain ⟨points, health, final, exported, announced, saved, closed⟩ := t
  simp only [FirstHeartbeatFailed, heartbeatsOf_trace]
  cases announced with
  | none =>
    cases closed with
    | none => simp [Clean]
    | some last => simp at h
  | some first => cases first <;> simp [Clean]

theorem run_settled {ε σ : Type} {exporter : Option (Exporter ε)} {st : CheckpointStore σ}
    {args : RunArgs} {source : Source} {env : Env} {w : World ε σ} {r : PipelineResult}
    {windowEnd : DateTime} (hend : args.windowEnd = some windowEnd)
    (h : (run exporter (some st) args source env w).1 = .ok r) :
    ∃ checkpoint cutoff stream trace,
      (run exporter (some st) args source env w).2.effects = w.effects ++ trace ∧
      r.stats.readTruncated = stream.truncated ∧
      Settled exporter st args source env windowEnd checkpoint cutoff w.store
        (run exporter (some st) args source env w).2.store stream trace := by
  obtain ⟨trace', htrace', _, _, hunsaved⟩ := run_trace exporter (some st) args source env w
  rcases run_cases exporter (some st) args source env w with ⟨e, he⟩ |
    ⟨checkpoint, p, stats, health, final, exported, announced, saved, closed, w', hload, hp,
      hpub, hcon⟩
  · rw [he] at h
    cases h
  · obtain ⟨_, _, _, hread, hstream, _⟩ := prepare_ok hp
    rw [readCutoff, hend] at hread
    obtain ⟨cutoff, hcut, hread⟩ := bind_eq_ok hread
    cases hread
    have hrep := hcon.reported r h
    have htrace := (hcon.trace hpub).trans
      (congrArg (· ++ _) (loadCheckpoint_effects (some st) w).1)
    have heq : trace' = (Trace.mk p.points health final exported announced saved closed).effects :=
      List.append_cancel_left (htrace'.symm.trans htrace)
    have hfirst := firstHeartbeatFailed_trace
      (t := Trace.mk p.points health final exported announced saved closed)
      fun hc => hpub.announces.trans (hcon.closes hc)
    have hsource : p.stats.sourceOk = true ↔ p.stream.error = none := by
      rw [(prepared_flags hp).1, Option.isNone_iff_eq_none]
    have hmay := hpub.mayCommit hp
    refine ⟨checkpoint, cutoff, p.stream, _, htrace, ?_, hload, hcut, hstream, ?_, ?_, ?_, ?_, ?_⟩
    · rw [hrep.truncated, hpub.truncated, (prepared_flags hp).2.2.2.1]
    · rw [exportsOf_trace]
      cases exported <;> simp
    · rw [exportsOf_trace, ← hsource]
      have hcalled := hpub.called
      cases exported with
      | none => simpa using hcalled
      | some call => simpa using hcalled
    · rw [savesOf_trace, exportsOf_trace, hfirst, not_not]
      have hclean : (∀ call ∈ (exported.map fun e => (p.points, e)).toList, call.2 = none) ↔
          Clean exported := by
        cases exported with
        | none => simp [Clean]
        | some call => cases call <;> simp [Clean]
      rw [hclean, ← hmay]
      constructor
      · intro hne
        obtain ⟨⟨cp, e⟩, hs⟩ : ∃ s, saved = some s :=
          Option.ne_none_iff_exists'.mp fun hn => hne (by simp [hn])
        exact (hcon.written cp e hs).1
      · intro hcommit
        obtain ⟨s, hs⟩ := Option.isSome_iff_exists.mp
          (hrep.attempted rfl (by rw [hend]; rfl) hcommit)
        simp [hs]
    · intro cp e hmem
      rw [savesOf_trace, Option.mem_toList] at hmem
      obtain ⟨_, st', windowEnd', seen, hst, hend', hseen, hcp, hstore, herr⟩ :=
        hcon.written cp e hmem
      cases hst
      rw [hend] at hend'
      cases hend'
      have hw : w'.store = (st.load w.store).2 := hpub.store
      rw [hw] at hstore herr
      refine ⟨seen, hcp, hseen, herr, hrep.settled cp e hmem, fun hnone => ?_⟩
      rw [hstore, st.save_writes _ _ (ok_of_errorOfResult (herr.symm.trans hnone))]
    · rw [← heq]
      exact hunsaved st rfl

/-- What a run folds that loads a checkpoint and cuts off at its window end. -/
lemma foldedBy_deduplicated {σ : Type} {st : CheckpointStore σ} {args : RunArgs}
    {windowEnd cutoff : DateTime} {checkpoint : Option Checkpoint} {s : σ}
    (hload : (st.load s).1 = .ok checkpoint) (hend : args.windowEnd = some windowEnd)
    (hcut : cutoffOf args.overlapMinutes windowEnd = .ok cutoff) (source : Source) (env : Env) :
    ∃ read, read <+: source.records ∧
      Deduplicated (streamEnv args env true checkpoint (some cutoff)) read
        (foldedBy st args source env s)
        (streamFrom (streamEnv args env true checkpoint (some cutoff)) args.maxRecords
          source.failure source.records .new).state ∧
      ((streamFrom (streamEnv args env true checkpoint (some cutoff)) args.maxRecords
        source.failure source.records .new).truncated = false → read = source.records) := by
  have hcutoff : readCutoff args = .ok (some cutoff) := by
    simp only [readCutoff, hend, hcut]
    rfl
  simp only [foldedBy, hload, hcutoff]
  exact streamFrom_deduplicated _ _ _ _

/-- What the settled run folded. -/
theorem Settled.folded {ε σ : Type} {exporter : Option (Exporter ε)} {st : CheckpointStore σ}
    {args : RunArgs} {source : Source} {env : Env} {windowEnd cutoff : DateTime}
    {checkpoint : Option Checkpoint} {before after : σ} {stream : Stream} {trace : List Effect}
    (h : Settled exporter st args source env windowEnd checkpoint cutoff before after stream trace)
    (hend : args.windowEnd = some windowEnd) :
    ∃ read, read <+: source.records ∧
      Deduplicated (streamEnv args env true checkpoint (some cutoff)) read
        (foldedBy st args source env before) stream.state ∧
      (stream.truncated = false → read = source.records) := by
  rw [h.stream_eq]
  exact foldedBy_deduplicated h.loaded hend h.cut source env

/-! ## Accepted exports -/

/-- A run over a store that no other writer touches, whose main flush was accepted.
If its window was complete and its first heartbeat did not raise, the store protects
every exported observation from replay, whatever the final heartbeat did. Otherwise
the store is as the run found it. -/
theorem export_protected_from_replay {ε σ : Type} (exporter : Option (Exporter ε))
    (st : CheckpointStore σ) (args : RunArgs) (source : Source) (env : Env) (w : World ε σ)
    (windowEnd : DateTime) (r : PipelineResult) (trace : List Effect) (points : List MetricPoint)
    (hend : args.windowEnd = some windowEnd)
    (hwriter : ∀ cp, (st.save (st.load w.store).2 cp).1 ≠ .error .conflict)
    (h : (run exporter (some st) args source env w).1 = .ok r)
    (htrace : (run exporter (some st) args source env w).2.effects = w.effects ++ trace)
    (hexport : exportsOf trace = [(points, none)]) :
    (r.stats.readTruncated = false → ¬ FirstHeartbeatFailed trace →
      ∃ doc, st.persisted (run exporter (some st) args source env w).2.store = .ok (some doc) ∧
        ∀ obs ∈ foldedBy st args source env w.store, Protects doc args.overlapMinutes obs) ∧
    (r.stats.readTruncated = true ∨ FirstHeartbeatFailed trace →
      st.persisted (run exporter (some st) args source env w).2.store = st.persisted w.store) := by
  obtain ⟨checkpoint, cutoff, stream, trace', htrace', htrunc, hset⟩ := run_settled hend h
  have heq : trace' = trace := List.append_cancel_left (htrace'.symm.trans htrace)
  subst heq
  rw [htrunc]
  constructor
  · intro hcomplete hbeat
    have hsource := (hset.called.mp (by simp [hexport])).2
    have hsaves := hset.saves.mpr ⟨hsource, hcomplete, by simp [hexport], hbeat⟩
    obtain ⟨⟨cp, e⟩, hmem⟩ := List.exists_mem_of_ne_nil _ hsaves
    obtain ⟨seen, hcp, hseen, herr, hkind, hstored⟩ := hset.saved cp e hmem
    have hnone : e = none := by
      rcases hkind with hnone | hconflict
      · exact hnone
      · exact absurd (eq_error_of_errorOfResult (herr.symm.trans hconflict)) (hwriter cp)
    refine ⟨cp.stored, hstored hnone, fun obs ho => ?_⟩
    obtain ⟨read, _, hd, _⟩ := hset.folded hend
    rw [hcp]
    exact protects_of_committed hset.cut hd hseen ho
  · intro hskip
    refine hset.unsaved fun cp hmem => ?_
    obtain ⟨_, hcomplete, _, hbeat⟩ := hset.saves.mp (List.ne_nil_of_mem hmem)
    rcases hskip with hcut | hfailed
    · rw [hcomplete] at hcut
      cases hcut
    · exact hbeat hfailed

end

/-- A complete window of one record over a missing checkpoint file; its record ends
before the overlap. -/
theorem export_protected_from_replay_sample :
    letI := Runtime.ascii
    let st := fileStore fun _ => none
    let args : RunArgs := ⟨.default, some (sampleTime 4 0), .finite 10, some 1⟩
    let source : Source := ⟨[sampleRecord "a" "03:04:05" "03:04:06.5"], none, none⟩
    let w : World Unit FileState := ⟨(), .missing, []⟩
    let out := run (some acceptingExporter) (some st) args source sampleEnv w
    ∃ doc, st.persisted out.2.store = .ok (some doc) ∧
      ∀ obs ∈ foldedBy st args source sampleEnv w.store, Protects doc args.overlapMinutes obs := by
  let := Runtime.ascii
  intro st args source w out
  obtain ⟨r, hr, htrunc⟩ : ∃ r, out.1 = .ok r ∧ r.stats.readTruncated = false := by
    obtain ⟨r, hr⟩ := exists_ok_of_isOk (x := out.1) (by decide +kernel)
    have hall : ∀ r, out.1 = .ok r → r.stats.readTruncated = false := by decide +kernel
    exact ⟨r, hr, hall r hr⟩
  have hexports : (exportsOf out.2.effects).map Prod.snd = [none] := by decide +kernel
  obtain ⟨⟨points, e⟩, hcalls, rfl⟩ := List.map_eq_singleton_iff.mp hexports
  refine (export_protected_from_replay _ st args source sampleEnv w _ r out.2.effects points rfl
    (fun cp => by simp [st, fileStore]) hr rfl hcalls).1 htrunc ?_
  rintro ⟨pts, e, hfirst⟩
  have hbeats : (heartbeatsOf out.2.effects).all (·.2.isNone) = true := by decide +kernel
  have hnone := List.all_eq_true.mp hbeats _ (List.mem_of_head? hfirst)
  simp at hnone

/-! ## A truncated window -/

/-- The window from 02:50 to 04:00 resumes from the watermark 03:00 and is cut after
its first record. The record has been exported, but nothing protects it. -/
theorem truncated_export_unprotected :
    letI := Runtime.ascii
    let st := fileStore fun _ => none
    let args : RunArgs := ⟨.default, some (sampleTime 4 0), .finite 10, some 1⟩
    let source : Source :=
      ⟨[sampleRecord "a" "03:04:05" "03:04:06.5", sampleRecord "b" "03:05:00" "03:06:00"],
        none, none⟩
    let w : World Unit FileState := ⟨(), .written ⟨some (sampleTime 3 0).isoformat, .empty⟩, []⟩
    let out := run (some acceptingExporter) (some st) args source sampleEnv w
    (∃ windowStart, cutoffOf args.overlapMinutes (sampleTime 3 0) = .ok windowStart ∧
      ∀ raw ∈ source.records, ∀ obs, parseObservation raw = .ok obs →
        windowStart.instant ≤ obs.start.instant ∧ obs.start.instant ≤ (sampleTime 4 0).instant) ∧
    (∀ cp, (st.save (st.load w.store).2 cp).1 ≠ .error .conflict) ∧
    (∃ r, out.1 = .ok r) ∧ (∃ points, exportsOf out.2.effects = [(points, none)]) ∧
    ∃ doc, st.persisted out.2.store = .ok (some doc) ∧
      ∃ obs ∈ foldedBy st args source sampleEnv w.store,
        ¬ Protects doc args.overlapMinutes obs := by
  let := Runtime.ascii
  intro st args source w out
  have hten : timedeltaMinutes args.overlapMinutes = .ok (10 * minuteMicros) := by decide +kernel
  obtain ⟨windowStart, hstart⟩ : ∃ windowStart,
      cutoffOf args.overlapMinutes (sampleTime 3 0) = .ok windowStart :=
    exists_ok_of_isOk (by decide +kernel)
  refine ⟨⟨windowStart, hstart, ?_⟩, fun cp => by simp [st, fileStore],
    exists_ok_of_isOk (by decide +kernel), ?_, ⟨some (sampleTime 3 0).isoformat, .empty⟩, ?_, ?_⟩
  · rw [instant_cutoffOf hten hstart]
    decide +kernel
  · have hout : (exportsOf out.2.effects).map Prod.snd = [none] := by decide +kernel
    obtain ⟨⟨points, e⟩, hcalls, rfl⟩ := List.map_eq_singleton_iff.mp hout
    exact ⟨points, hcalls⟩
  · exact congrArg FileState.persisted
      (show out.2.store = .written ⟨some (sampleTime 3 0).isoformat, .empty⟩ by decide +kernel)
  · have hfolded : (foldedBy st args source sampleEnv w.store).map (fun obs =>
        (obs.obsId, obs.start.instant)) =
          [("a", (sampleTime 3 0).instant + 245 * secondMicros)] := by
      decide +kernel
    obtain ⟨obs, hobs, heq⟩ := List.map_eq_singleton_iff.mp hfolded
    refine ⟨obs, by simp [hobs], ?_⟩
    rintro (hseen | ⟨watermark, cutoff, hwm, hcut, hlt⟩)
    · simp at hseen
    · have hwm := instant_eq_of_isoformat (e := sampleTime 3 0) rfl (Option.some.inj hwm).symm
      rw [instant_cutoffOf hten hcut, hwm, (Prod.mk.inj heq).2] at hlt
      simp only [minuteMicros, secondMicros] at hlt
      omega

end InferenceControlPlane.Sli
