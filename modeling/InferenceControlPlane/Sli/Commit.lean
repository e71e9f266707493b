import InferenceControlPlane.Sli.Accounting
import InferenceControlPlane.Sli.LangfuseApi

/-!
# What a commit implies

The watermark advances only after complete, acknowledged delivery: a save needs a
source read to its end within the record limit, an accepted main flush and an
undisturbed first heartbeat. Conversely, the store left by a run that exported a
complete window protects every exported observation from being folded again.
-/
namespace InferenceControlPlane.Sli
open Python

section
variable [Runtime]

/-! ## The end of the read -/

/-- A read that was not truncated ended with the source, by its failure if it has one, and within
the limit. -/
theorem streamFrom_end {env : StreamEnv} {maxRecords : Option ℤ} {failure : Option PyErr}
    {records : List Json} {st : StreamState}
    (h : (streamFrom env maxRecords failure records st).truncated = false) :
    (streamFrom env maxRecords failure records st).error = failure.map PyErr.typeName ∧
      ∀ limit, maxRecords = some limit →
        records = [] ∨ (st.recordsRead + records.length : ℤ) ≤ limit := by
  induction records generalizing st with
  | nil => exact ⟨rfl, fun _ _ => Or.inl rfl⟩
  | cons raw rest ih =>
    unfold streamFrom at h ⊢
    by_cases hlimit : atLimit maxRecords st.recordsRead = true
    · simp [hlimit] at h
    · rw [if_neg hlimit] at h ⊢
      obtain ⟨herror, hcount⟩ := ih h
      refine ⟨herror, fun limit hl => Or.inr ?_⟩
      have hbelow : (st.recordsRead : ℤ) < limit := by
        simpa [atLimit, hl] using hlimit
      rcases hcount limit hl with hrest | hrest
      · rw [hrest]
        simp only [List.length_cons, List.length_nil]
        omega
      · rw [step_recordsRead] at hrest
        simp only [List.length_cons]
        omega

/-- A read within the limit is not truncated. -/
theorem streamFrom_untruncated {env : StreamEnv} {maxRecords : Option ℤ}
    {failure : Option PyErr} {records : List Json} {st : StreamState}
    (h : ∀ limit, maxRecords = some limit → (st.recordsRead + records.length : ℤ) ≤ limit) :
    (streamFrom env maxRecords failure records st).truncated = false := by
  induction records generalizing st with
  | nil => rfl
  | cons raw rest ih =>
    have hopen : ¬ atLimit maxRecords st.recordsRead = true := by
      cases hm : maxRecords with
      | none => simp [atLimit]
      | some limit =>
        have hle := h limit hm
        simp only [List.length_cons] at hle
        simp only [atLimit, decide_eq_true_eq]
        omega
    rw [streamFrom, if_neg hopen]
    refine ih fun limit hm => ?_
    have hle := h limit hm
    rw [step_recordsRead]
    simp only [List.length_cons] at hle
    omega

/-- The whole source was read: it did not raise, and held no more records than the
limit allows. -/
def Exhausted (args : RunArgs) (source : Source) : Prop :=
  source.failure = none ∧
    ∀ limit, args.maxRecords = some limit → source.records.length ≤ limit.toNat

/-- The health flags before the main flush. -/
theorem prepared_flags {args : RunArgs} {source : Source} {env : Env} {hasStore : Bool}
    {checkpoint : Option Checkpoint} {p : Prepared}
    (h : prepare args source env hasStore checkpoint = .ok p) :
    p.stats.sourceOk = p.stream.error.isNone ∧ p.stats.exportOk = p.stream.error.isNone ∧
      p.stats.heartbeatOk = true ∧ p.stats.readTruncated = p.stream.truncated ∧
      p.stats.checkpointConflict = false := by
  obtain ⟨_, _, _, _, _, _, _, hstats, _⟩ := prepare_ok h
  rw [hstats]
  exact ⟨rfl, rfl, rfl, rfl, rfl⟩

theorem prepared_exhausted {args : RunArgs} {source : Source} {env : Env} {hasStore : Bool}
    {checkpoint : Option Checkpoint} {p : Prepared}
    (h : prepare args source env hasStore checkpoint = .ok p)
    (herror : p.stream.error = none) (htrunc : p.stream.truncated = false) :
    Exhausted args source := by
  obtain ⟨_, _, _, _, hstream, _⟩ := prepare_ok h
  rw [hstream] at herror htrunc
  obtain ⟨hfail, hcount⟩ := streamFrom_end htrunc
  refine ⟨?_, fun limit hl => ?_⟩
  · rw [herror] at hfail
    exact (Option.map_eq_none_iff.mp hfail.symm)
  · rcases hcount limit hl with hnil | hle
    · simp [hnil]
    · change ((0 : ℕ) + source.records.length : ℤ) ≤ limit at hle
      omega

/-- The guard of the commit, in the terms of the source and the calls made: the source ended by
itself, the limit cut off nothing, and neither the export nor the heartbeat failed. -/
theorem Published.mayCommit {ε σ : Type} {exporter : Option (Exporter ε)} {p : Prepared}
    {w w' : World ε σ} {stats : AggregationStats} {health : List MetricPoint}
    {exported announced : Option (Option PyErr)} {args : RunArgs} {source : Source} {env : Env}
    {hasStore : Bool} {checkpoint : Option Checkpoint}
    (hpub : Published exporter p w stats health w' exported announced)
    (hp : prepare args source env hasStore checkpoint = .ok p) :
    Sli.mayCommit stats = true ↔ p.stream.error = none ∧ p.stream.truncated = false ∧
      Clean exported ∧ Clean announced := by
  obtain ⟨_, hexport, hheart, htrunc, _⟩ := prepared_flags hp
  simp only [Sli.mayCommit, Bool.and_eq_true, Bool.not_eq_true', hpub.export_ok, hpub.heartbeat_ok,
    hpub.truncated, hexport, hheart, htrunc, Option.isNone_iff_eq_none, true_and]
  constructor
  · rintro ⟨⟨⟨h1, h2⟩, h3⟩, h4⟩
    exact ⟨h1, h4, h2, h3⟩
  · rintro ⟨h1, h4, h2, h3⟩
    exact ⟨⟨⟨h1, h2⟩, h3⟩, h4⟩

/-! ## Delivery before commit -/

/-- What a save implies of the run that made it: the source was exhausted, the main
flush returned, and the first heartbeat did not raise. -/
structure DeliveredBefore {ε : Type} (exporter : Option (Exporter ε)) (args : RunArgs)
    (source : Source) (trace : List Effect) : Prop where
  exhausted : Exhausted args source
  exported : ∀ x, exporter = some x → ∃ points, exportsOf trace = [(points, none)]
  announced : ∀ call, (heartbeatsOf trace).head? = some call → call.2 = none

/-- The effects of a run: at most one save, which only follows a complete delivery,
and no other way to change the store. -/
theorem run_trace {ε σ : Type} (exporter : Option (Exporter ε)) (store : Option (CheckpointStore σ))
    (args : RunArgs) (source : Source) (env : Env) (w : World ε σ) :
    ∃ trace, (run exporter store args source env w).2.effects = w.effects ++ trace ∧
      (savesOf trace).length ≤ 1 ∧
      (savesOf trace ≠ [] → DeliveredBefore exporter args source trace) ∧
      ∀ st, store = some st → (∀ cp, (cp, none) ∉ savesOf trace) →
        st.persisted (run exporter store args source env w).2.store = st.persisted w.store := by
  have hload : ∀ st, store = some st →
      st.persisted (loadCheckpoint store w).2.store = st.persisted w.store := by
    rintro st rfl
    exact st.load_keeps w.store
  rcases run_cases exporter store args source env w with ⟨e, he⟩ |
    ⟨checkpoint, p, stats, health, final, exported, announced, saved, closed, w', _, hp, hpub, hcon⟩
  · refine ⟨[], ?_, by simp [savesOf], by simp [savesOf], ?_⟩
    · rw [he, (loadCheckpoint_effects store w).1, List.append_nil]
    · intro st hst _
      rw [he]
      exact hload st hst
  · refine ⟨_, by rw [hcon.trace hpub, (loadCheckpoint_effects store w).1], ?_, ?_, ?_⟩
    · rw [savesOf_trace]
      cases saved <;> simp
    · intro hsave
      rw [savesOf_trace] at hsave
      obtain ⟨⟨cp, e⟩, hs⟩ : ∃ s, saved = some s :=
        Option.ne_none_iff_exists'.mp fun h => hsave (by simp [h])
      obtain ⟨hmay, _⟩ := hcon.written cp e hs
      obtain ⟨herror, htrunc, hexported, hannounced⟩ := (hpub.mayCommit hp).mp hmay
      refine ⟨prepared_exhausted hp herror htrunc, ?_, ?_⟩
      · rintro x rfl
        have hcalled := hpub.called
        rw [(prepared_flags hp).1, herror] at hcalled
        rw [exportsOf_trace]
        cases exported with
        | none => simp at hcalled
        | some call =>
          cases call with
          | none => exact ⟨_, rfl⟩
          | some e => exact absurd rfl (hexported e)
      · intro call hcall
        rw [heartbeatsOf_trace] at hcall
        cases announced with
        | none =>
          -- without a channel there is no final heartbeat either
          cases closed with
          | none => simp at hcall
          | some last => simpa [← hpub.announces] using hcon.closes rfl
        | some first =>
          cases first with
          | none => simp at hcall; exact hcall ▸ rfl
          | some e => exact absurd rfl (hannounced e)
    · intro st hst hnone
      rw [savesOf_trace] at hnone
      cases saved with
      | none =>
        rw [hcon.unwritten rfl, hpub.store]
        exact hload st hst
      | some s =>
        obtain ⟨cp, e⟩ := s
        obtain ⟨_, st', _, _, hst', _, _, _, hstore, herr⟩ := hcon.written cp e rfl
        rw [hst] at hst'
        cases hst'
        cases hsave : (st.save w'.store cp).1 with
        | ok u => simp [herr, hsave, errorOfResult] at hnone
        | error e' =>
          rw [hstore, st.save_keeps _ _ _ hsave, hpub.store]
          exact hload st hst

/-! ## Reads over the API -/

/-- A run over the Langfuse API saves a checkpoint only after a read of its pages that did not
raise, and of which the limit cut off nothing. -/
theorem saved_after_read {ε σ τ : Type} (exporter : Option (Exporter ε))
    (store : Option (CheckpointStore σ)) (args : RunArgs) (src : LangfuseApiTraceSource)
    (http : Http τ) (st : ReadState τ) (env : Env) (w : World ε σ) :
    ∃ trace, (run exporter store args (src.toSource http st) env w).2.effects = w.effects ++ trace ∧
      (savesOf trace ≠ [] → ∃ records, (src.read http st).1 = .ok records ∧
        ∀ limit, args.maxRecords = some limit → records.length ≤ limit.toNat) := by
  obtain ⟨trace, heffects, -, hdelivered, -⟩ :=
    run_trace exporter store args (src.toSource http st) env w
  refine ⟨trace, heffects, fun hsaved => ?_⟩
  obtain ⟨hfailure, hlimit⟩ := (hdelivered hsaved).exhausted
  have hread : (src.iterRecords http st).failure = none := Option.map_eq_none_iff.mp hfailure
  refine ⟨(src.iterRecords http st).records, ?_, fun limit hmax => ?_⟩
  · simp only [LangfuseApiTraceSource.read, hread]
  · have hlength := hlimit limit hmax
    simp only [LangfuseApiTraceSource.toSource, List.length_map] at hlength
    exact hlength

/-! ## Acknowledged posts -/

/-- From `w` to `w'`, each export that returned has a post that the collector answered 2xx. -/
def AcknowledgedSince {σ : Type} (settings : OtlpSettings) (w w' : World (List Post) σ) : Prop :=
  ∃ more trace, w'.exporter = w.exporter ++ more ∧ w'.effects = w.effects ++ trace ∧
    ∀ points, (points, none) ∈ exportsOf trace → ∃ post ∈ more, post.Accepts settings points

omit [Runtime] in
/-- One more effect, with the posts that it took. -/
lemma AcknowledgedSince.extend {σ : Type} {settings : OtlpSettings}
    {w w' w'' : World (List Post) σ} (h : AcknowledgedSince settings w w') (sent : List Post)
    (effect : Effect) (hposts : w''.exporter = w'.exporter ++ sent)
    (heffects : w''.effects = w'.effects ++ [effect])
    (haccepts : ∀ points, effect.export? = some (points, none) →
      ∃ post ∈ sent, post.Accepts settings points) : AcknowledgedSince settings w w'' := by
  obtain ⟨more, trace, hmore, htrace, hack⟩ := h
  refine ⟨more ++ sent, trace ++ [effect], ?_, ?_, fun points hpoints => ?_⟩
  · rw [hposts, hmore, List.append_assoc]
  · rw [heffects, htrace, List.append_assoc]
  · rw [exportsOf_append, List.mem_append] at hpoints
    rcases hpoints with hbefore | hnow
    · obtain ⟨post, hpost, haccepted⟩ := hack points hbefore
      exact ⟨post, List.mem_append_left _ hpost, haccepted⟩
    · obtain ⟨now, hmem, hexport⟩ := List.mem_filterMap.mp hnow
      obtain rfl := List.mem_singleton.mp hmem
      obtain ⟨post, hpost, haccepted⟩ := haccepts points hexport
      exact ⟨post, List.mem_append_right _ hpost, haccepted⟩

/-- An export that returned has been answered 2xx, for every post the exporter makes
during a run. -/
theorem run_acknowledged {σ : Type} (settings : OtlpSettings) (transport : Transport)
    (store : Option (CheckpointStore σ)) (args : RunArgs) (source : Source) (env : Env)
    (w : World (List Post) σ) :
    AcknowledgedSince settings w
      (run (some (otlpHttpExporter settings transport)) store args source env w).2 := by
  refine run_invariant (I := AcknowledgedSince settings w)
    ⟨[], [], by simp, by simp, by simp [exportsOf]⟩ ?_ ?_ ?_ ?_
  · exact fun st _ w' h => h
  · intro x hx w' points h
    cases hx
    obtain ⟨sent, hsent, hok⟩ := otlpExport_spec settings transport w'.exporter points
    refine h.extend sent (.exported points
      (errorOfResult (otlpExport settings transport w'.exporter points).1)) hsent rfl ?_
    intro pts hpts
    cases hres : (otlpExport settings transport w'.exporter points).1 with
    | error e => simp [hres, errorOfResult, Effect.export?] at hpts
    | ok u =>
      simp only [hres, errorOfResult, Effect.export?, Option.some.injEq, Prod.mk.injEq,
        and_true] at hpts
      exact hpts ▸ hok hres
  · intro channel hc w' points h
    cases hc
    obtain ⟨sent, hsent, -⟩ := otlpExport_spec settings transport w'.exporter points
    refine h.extend sent (.heartbeat points
      (errorOfResult (otlpExport settings transport w'.exporter points).1)) hsent rfl ?_
    intro pts hpts
    cases hpts
  · intro st _ w' cp h
    refine h.extend [] (.saved cp (w'.save st cp).1) (List.append_nil _).symm (save_effects ..) ?_
    intro pts hpts
    cases hpts

/-! ## The exit status -/

/-- Resolving the window start only reads. -/
theorem resolveStart_effects {ε σ : Type} (store : Option (CheckpointStore σ)) (args : CliArgs)
    (windowEnd : DateTime) (w : World ε σ) :
    (resolveStart store args windowEnd w).2.effects = w.effects := by
  unfold resolveStart
  cases nominalStart args windowEnd with
  | error e => rfl
  | ok nominal =>
    have hload := (loadCheckpoint_effects store w).1
    simp only
    generalize loadCheckpoint store w = loaded at hload
    obtain ⟨result, w₁⟩ := loaded
    cases result <;> exact hload

/-- A run over a store that reports itself healthy has committed its window: the store holds its
window end as the watermark. -/
theorem run_committed {ε σ : Type} {exporter : Option (Exporter ε)} {st : CheckpointStore σ}
    {args : RunArgs} {source : Source} {env : Env} {w : World ε σ} {r : PipelineResult}
    {windowEnd : DateTime} (hend : args.windowEnd = some windowEnd)
    (h : (run exporter (some st) args source env w).1 = .ok r) (hexit : exitCode r.stats = 0) :
    ∃ trace seen, (run exporter (some st) args source env w).2.effects = w.effects ++ trace ∧
      savesOf trace = [(⟨some windowEnd, seen⟩, none)] ∧
      st.persisted (run exporter (some st) args source env w).2.store =
        .ok (some (Checkpoint.mk (some windowEnd) seen).stored) := by
  rcases run_cases exporter (some st) args source env w with ⟨e, he⟩ |
    ⟨checkpoint, p, stats, health, final, exported, announced, saved, closed, w', _, hp, hpub, hcon⟩
  · rw [he] at h
    cases h
  · have hrep := hcon.reported r h
    simp only [exitCode, ite_eq_left_iff, Bool.and_eq_true, Bool.not_eq_true', one_ne_zero,
      imp_false, not_not] at hexit
    obtain ⟨⟨⟨hexport, hheart⟩, htrunc⟩, hconflict⟩ := hexit
    have hmay : mayCommit stats = true := by
      simp only [mayCommit, ← hrep.export_ok, hexport, (hrep.heartbeat_ok.mp hheart).1,
        ← hrep.truncated, htrunc]
      rfl
    obtain ⟨⟨cp, e⟩, hs⟩ := Option.isSome_iff_exists.mp
      (hrep.attempted rfl (by rw [hend]; rfl) hmay)
    have he := hrep.conflict hconflict cp e hs
    subst he
    obtain ⟨_, st', windowEnd', seen, hst, hend', _, hcp, hstore, herr⟩ := hcon.written cp none hs
    cases hst
    rw [hend] at hend'
    cases hend'
    subst hcp
    have hsaved : (st.save w'.store ⟨some windowEnd, seen⟩).1 = .ok () :=
      ok_of_errorOfResult herr.symm
    refine ⟨_, seen, by rw [hcon.trace hpub, (loadCheckpoint_effects (some st) w).1], ?_, ?_⟩
    · rw [savesOf_trace, hs]
      rfl
    · rw [hstore, st.save_writes _ _ hsaved]

theorem main_trace {ε σ : Type} {deployment : Deployment ε} {store : Option (CheckpointStore σ)}
    {args : CliArgs} {env : Env} {w : World ε σ} {code : ℕ}
    (h : (main deployment store args env w).1 = .ok code) :
    ∃ trace, (main deployment store args env w).2.effects = w.effects ++ trace := by
  obtain ⟨windowEnd, windowStart, _, _, _, _, hout, _⟩ := main_ok h
  obtain ⟨trace, htrace, _⟩ := run_trace (some (deployment.exporterOf windowStart windowEnd)) store
    (args.runArgs windowEnd) (deployment.sourceOf windowStart windowEnd) env
    (resolveStart store args windowEnd w).2
  exact ⟨trace, by rw [hout, htrace, resolveStart_effects]⟩

/-- Exit status 0 over a store means that the window has been committed, which is what a scheduler
relies on. -/
theorem main_committed {ε σ : Type} {deployment : Deployment ε} {st : CheckpointStore σ}
    {args : CliArgs} {env : Env} {w : World ε σ}
    (h : (main deployment (some st) args env w).1 = .ok 0) :
    ∃ windowEnd trace seen, args.windowEnd.resolve = .ok windowEnd ∧
      (main deployment (some st) args env w).2.effects = w.effects ++ trace ∧
      savesOf trace = [(⟨some windowEnd, seen⟩, none)] ∧
      st.persisted (main deployment (some st) args env w).2.store =
        .ok (some (Checkpoint.mk (some windowEnd) seen).stored) := by
  obtain ⟨windowEnd, windowStart, result, hend, _, hrun, hout, hcode⟩ := main_ok h
  obtain ⟨trace, seen, htrace, hsaves, hstore⟩ :=
    run_committed (show (args.runArgs windowEnd).windowEnd = some windowEnd from rfl) hrun
      hcode.symm
  rw [resolveStart_effects] at htrace
  rw [hout]
  exact ⟨windowEnd, trace, seen, hend, htrace, hsaves, hstore⟩

/-- The watermark advances only after complete, acknowledged delivery. A run saves
at most once, only after an exhausted source, an accepted main flush and an
undisturbed first heartbeat, and without an accepted save the store is unchanged.
Over OTLP the collector has then answered 2xx to a document of all flushed points,
and exit status 0 of the command line means that the window has been committed. -/
theorem watermark_advances_after_delivery :
    (∀ (ε σ : Type) (exporter : Option (Exporter ε)) (store : Option (CheckpointStore σ))
      (args : RunArgs) (source : Source) (env : Env) (w : World ε σ),
      ∃ trace, (run exporter store args source env w).2.effects = w.effects ++ trace ∧
        (savesOf trace).length ≤ 1 ∧
        (savesOf trace ≠ [] → DeliveredBefore exporter args source trace) ∧
        ∀ st, store = some st → (∀ cp, (cp, none) ∉ savesOf trace) →
          st.persisted (run exporter store args source env w).2.store = st.persisted w.store) ∧
    (∀ (σ : Type) (settings : OtlpSettings) (transport : Transport)
      (store : Option (CheckpointStore σ)) (args : RunArgs) (source : Source) (env : Env)
      (w : World (List Post) σ),
      ∃ more trace, (run (some (otlpHttpExporter settings transport)) store args source env
          w).2.exporter = w.exporter ++ more ∧
        (run (some (otlpHttpExporter settings transport)) store args source env w).2.effects =
          w.effects ++ trace ∧
        (savesOf trace ≠ [] → ∃ points, exportsOf trace = [(points, none)] ∧
          ∃ post ∈ more, post.Accepts settings points)) ∧
    ∀ (ε σ : Type) (deployment : Deployment ε) (st : CheckpointStore σ) (args : CliArgs)
      (env : Env) (w : World ε σ), (main deployment (some st) args env w).1 = .ok 0 →
      ∃ windowEnd trace seen, args.windowEnd.resolve = .ok windowEnd ∧
        (main deployment (some st) args env w).2.effects = w.effects ++ trace ∧
        savesOf trace = [(⟨some windowEnd, seen⟩, none)] ∧
        st.persisted (main deployment (some st) args env w).2.store =
          .ok (some (Checkpoint.mk (some windowEnd) seen).stored) := by
  refine ⟨fun ε σ exporter store args source env w => run_trace exporter store args source env w,
    ?_, fun ε σ deployment st args env w h => main_committed h⟩
  intro σ settings transport store args source env w
  obtain ⟨more, trace, hmore, htrace, hack⟩ :=
    run_acknowledged settings transport store args source env w
  obtain ⟨trace', htrace', _, hdelivered, _⟩ :=
    run_trace (some (otlpHttpExporter settings transport)) store args source env w
  have heq : trace' = trace := List.append_cancel_left (htrace'.symm.trans htrace)
  subst heq
  refine ⟨more, trace', hmore, htrace, fun hsaves => ?_⟩
  obtain ⟨points, hpoints⟩ := (hdelivered hsaves).exported _ rfl
  exact ⟨points, hpoints, hack points (by simp [hpoints])⟩

end
end InferenceControlPlane.Sli
