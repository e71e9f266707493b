import InferenceControlPlane.Sli.Stream
import InferenceControlPlane.Sli.Cli

/-!
# Delivery before commit

Each stage after the read is specified once: what it may add to the effect log and
which health flags it may change. From these follow that a run saves at most once,
and only after the whole window has been read, exported and announced.
-/
namespace InferenceControlPlane.Sli
open Python

/-! ## Reading the effect log -/

namespace Effect

def export? : Effect → Option (List MetricPoint × Option PyErr)
  | exported points error => some (points, error)
  | _ => none

def heartbeat? : Effect → Option (List MetricPoint × Option PyErr)
  | heartbeat points error => some (points, error)
  | _ => none

def save? : Effect → Option (Checkpoint × Option SaveError)
  | saved cp error => some (cp, error)
  | _ => none

end Effect

def exportsOf (effects : List Effect) : List (List MetricPoint × Option PyErr) :=
  effects.filterMap Effect.export?

def heartbeatsOf (effects : List Effect) : List (List MetricPoint × Option PyErr) :=
  effects.filterMap Effect.heartbeat?

def savesOf (effects : List Effect) : List (Checkpoint × Option SaveError) :=
  effects.filterMap Effect.save?

@[simp] theorem exportsOf_append (a b : List Effect) :
    exportsOf (a ++ b) = exportsOf a ++ exportsOf b := List.filterMap_append

@[simp] theorem savesOf_append (a b : List Effect) : savesOf (a ++ b) = savesOf a ++ savesOf b :=
  List.filterMap_append

/-! ## Health flags -/

/-- Later stages change the health flags of the statistics and nothing else. -/
def HealthUpdate (s t : AggregationStats) : Prop :=
  ∃ exportOk heartbeatOk exportError checkpointConflict,
    t = { s with exportOk, heartbeatOk, exportError, checkpointConflict }

theorem HealthUpdate.refl (s : AggregationStats) : HealthUpdate s s :=
  ⟨s.exportOk, s.heartbeatOk, s.exportError, s.checkpointConflict, rfl⟩

theorem HealthUpdate.trans {s t u : AggregationStats} (h : HealthUpdate s t)
    (h' : HealthUpdate t u) : HealthUpdate s u := by
  obtain ⟨a, b, c, d, rfl⟩ := h
  obtain ⟨a', b', c', d', rfl⟩ := h'
  exact ⟨a', b', c', d', rfl⟩

section Stages
variable {ε σ : Type}

/-! ## One specification per stage -/

/-- The main flush: absent, skipped after a source failure, accepted or refused. -/
inductive Flushed (exporter : Option (Exporter ε)) (points : List MetricPoint)
    (stats : AggregationStats) (w : World ε σ) : AggregationStats × World ε σ → Prop
  | absent (h : exporter = none) : Flushed exporter points stats w (stats, w)
  | skipped (h : stats.sourceOk = false) : Flushed exporter points stats w (stats, w)
  | accepted (x : Exporter ε) (h : exporter = some x) (hs : stats.sourceOk = true)
      (hx : (x.exportPoints w.exporter points).1 = .ok ()) :
      Flushed exporter points stats w (stats, (w.send x points).2)
  | refused (x : Exporter ε) (h : exporter = some x) (hs : stats.sourceOk = true) (e : PyErr)
      (hx : (x.exportPoints w.exporter points).1 = .error e) :
      Flushed exporter points stats w
        ({ stats with exportOk := false, exportError := some e.typeName }, (w.send x points).2)

theorem flushed (exporter : Option (Exporter ε)) (points : List MetricPoint)
    (stats : AggregationStats) (w : World ε σ) :
    Flushed exporter points stats w (flush exporter points stats w) := by
  unfold flush
  cases exporter with
  | none => exact .absent rfl
  | some x =>
    simp only
    split_ifs with hs
    · cases hx : (x.exportPoints w.exporter points).1 with
      | ok u =>
        have h1 : (w.send x points).1 = none := by simp [World.send, hx, errorOfResult]
        have h2 : w.send x points = (none, (w.send x points).2) := by rw [← h1]
        rw [h2]
        exact .accepted x rfl hs hx
      | error e =>
        have h1 : (w.send x points).1 = some e := by simp [World.send, hx, errorOfResult]
        have h2 : w.send x points = (some e, (w.send x points).2) := by rw [← h1]
        rw [h2]
        exact .refused x rfl hs e hx
    · exact .skipped (by simpa using hs)

/-- A heartbeat: no channel, delivered or failed. -/
inductive Beaten (exporter : Option (Exporter ε)) (points : List MetricPoint)
    (stats : AggregationStats) (w : World ε σ) : AggregationStats × World ε σ → Prop
  | silent (h : exporter.bind Exporter.heartbeat = none) :
      Beaten exporter points stats w (stats, w)
  | delivered (channel : ε → List MetricPoint → Except PyErr Unit × ε)
      (h : exporter.bind Exporter.heartbeat = some channel)
      (hx : (w.beat channel points).1 = none) :
      Beaten exporter points stats w (stats, (w.beat channel points).2)
  | failed (channel : ε → List MetricPoint → Except PyErr Unit × ε)
      (h : exporter.bind Exporter.heartbeat = some channel) (e : PyErr)
      (hx : (w.beat channel points).1 = some e) :
      Beaten exporter points stats w
        ({ stats with heartbeatOk := false, exportError := stats.exportError.or (some e.typeName) },
          (w.beat channel points).2)

theorem beaten (exporter : Option (Exporter ε)) (points : List MetricPoint)
    (stats : AggregationStats) (w : World ε σ) :
    Beaten exporter points stats w (sendHeartbeat exporter points stats w) := by
  unfold sendHeartbeat
  cases hc : exporter.bind Exporter.heartbeat with
  | none => exact .silent hc
  | some channel =>
    simp only
    cases he : (w.beat channel points).1 with
    | none =>
      have hb : w.beat channel points = (none, (w.beat channel points).2) := by rw [← he]
      rw [hb]
      exact .delivered channel hc he
    | some e =>
      have hb : w.beat channel points = (some e, (w.beat channel points).2) := by rw [← he]
      rw [hb]
      exact .failed channel hc e he

theorem beat_effects (w : World ε σ) (channel : ε → List MetricPoint → Except PyErr Unit × ε)
    (points : List MetricPoint) : (w.beat channel points).2.effects =
      w.effects ++ [.heartbeat points (w.beat channel points).1] := rfl

theorem save_effects [Runtime] (w : World ε σ) (st : CheckpointStore σ) (cp : Checkpoint) :
    (w.save st cp).2.effects = w.effects ++ [.saved cp (w.save st cp).1] := rfl

/-- The commit: skipped by its guard, aborted by an exception, saved, or refused by
a concurrent writer. -/
inductive Committed [Runtime] (store : Option (CheckpointStore σ)) (args : RunArgs)
    (checkpoint : Option Checkpoint) (currentSeen : Dict String DateTime)
    (stats : AggregationStats) (w : World ε σ) : Except PyErr AggregationStats × World ε σ → Prop
  | skipped (h : store = none ∨ args.windowEnd = none ∨ mayCommit stats = false) :
      Committed store args checkpoint currentSeen stats w (.ok stats, w)
  | aborted (e : PyErr) : Committed store args checkpoint currentSeen stats w (.error e, w)
  | saved (st : CheckpointStore σ) (hst : store = some st) (windowEnd : DateTime)
      (hend : args.windowEnd = some windowEnd) (hmay : mayCommit stats = true)
      (seen : Dict String String)
      (hseen : committedSeen args windowEnd checkpoint currentSeen = .ok seen)
      (h : (w.save st ⟨some windowEnd, seen⟩).1 = none) :
      Committed store args checkpoint currentSeen stats w
        (.ok stats, (w.save st ⟨some windowEnd, seen⟩).2)
  | refused (st : CheckpointStore σ) (hst : store = some st) (windowEnd : DateTime)
      (hend : args.windowEnd = some windowEnd) (hmay : mayCommit stats = true)
      (seen : Dict String String)
      (hseen : committedSeen args windowEnd checkpoint currentSeen = .ok seen) (e : SaveError)
      (h : (w.save st ⟨some windowEnd, seen⟩).1 = some e)
      (result : Except PyErr AggregationStats)
      (hresult : (e = .conflict ∧ result = .ok { stats with checkpointConflict := true }) ∨
        ∃ e, result = .error e) :
      Committed store args checkpoint currentSeen stats w
        (result, (w.save st ⟨some windowEnd, seen⟩).2)

theorem committed [Runtime] (store : Option (CheckpointStore σ)) (args : RunArgs)
    (checkpoint : Option Checkpoint) (currentSeen : Dict String DateTime)
    (stats : AggregationStats) (w : World ε σ) :
    Committed store args checkpoint currentSeen stats w
      (commit store args checkpoint currentSeen stats w) := by
  unfold commit
  cases store with
  | none => exact .skipped (Or.inl rfl)
  | some st =>
    cases hend : args.windowEnd with
    | none => exact .skipped (Or.inr (Or.inl hend))
    | some windowEnd =>
      simp only
      split_ifs with hmay
      · cases hseen : committedSeen args windowEnd checkpoint currentSeen with
        | error e => exact .aborted e
        | ok seen =>
          simp only
          cases he : (w.save st ⟨some windowEnd, seen⟩).1 with
          | none =>
            have hs : w.save st ⟨some windowEnd, seen⟩ =
              (none, (w.save st ⟨some windowEnd, seen⟩).2) := by rw [← he]
            rw [hs]
            exact .saved st rfl windowEnd hend hmay seen hseen he
          | some e =>
            have hs : w.save st ⟨some windowEnd, seen⟩ =
              (some e, (w.save st ⟨some windowEnd, seen⟩).2) := by rw [← he]
            rw [hs]
            cases e with
            | conflict =>
              exact .refused st rfl windowEnd hend hmay seen hseen .conflict he _
                (Or.inl ⟨rfl, rfl⟩)
            | failed e =>
              exact .refused st rfl windowEnd hend hmay seen hseen (.failed e) he _
                (Or.inr ⟨e, rfl⟩)
      · exact .skipped (Or.inr (Or.inr (by simpa using hmay)))

/-! ## The trace of a run -/

/-- What a run did to the exporter and the store, in order. An entry is `none` where
the call was not made, and holds the call's error otherwise. -/
structure Trace where
  points : List MetricPoint
  health : List MetricPoint
  final : List MetricPoint
  exported : Option (Option PyErr)
  announced : Option (Option PyErr)
  saved : Option (Checkpoint × Option SaveError)
  closed : Option (Option PyErr)

def Trace.effects (t : Trace) : List Effect :=
  (t.exported.map (.exported t.points)).toList ++ ((t.announced.map (.heartbeat t.health)).toList ++
    ((t.saved.map fun s => .saved s.1 s.2).toList ++ (t.closed.map (.heartbeat t.final)).toList))

/-- The call was not made, or it returned. -/
def Clean (call : Option (Option PyErr)) : Prop := ∀ e, call ≠ some (some e)

instance (call : Option (Option PyErr)) : Decidable (Clean call) :=
  match call with
  | none => isTrue (by simp [Clean])
  | some none => isTrue (by simp [Clean])
  | some (some e) => isFalse fun h => h e rfl

theorem exportsOf_trace (t : Trace) :
    exportsOf t.effects = (t.exported.map fun e => (t.points, e)).toList := by
  obtain ⟨p, h, f, e, a, s, c⟩ := t
  cases e <;> cases a <;> cases s <;> cases c <;> rfl

theorem savesOf_trace (t : Trace) : savesOf t.effects = t.saved.toList := by
  obtain ⟨p, h, f, e, a, s, c⟩ := t
  cases e <;> cases a <;> cases s <;> cases c <;> rfl

theorem heartbeatsOf_trace (t : Trace) : heartbeatsOf t.effects =
    (t.announced.map fun e => (t.health, e)).toList ++
      (t.closed.map fun e => (t.final, e)).toList := by
  obtain ⟨p, h, f, e, a, s, c⟩ := t
  cases e <;> cases a <;> cases s <;> cases c <;> rfl

/-- The outcome of `publish`, in the terms of the trace: the export is attempted for a usable
window only, the heartbeat is announced either way, and the store is not touched. -/
structure Published (exporter : Option (Exporter ε)) (p : Prepared) (w : World ε σ)
    (stats : AggregationStats) (health : List MetricPoint) (w' : World ε σ)
    (exported announced : Option (Option PyErr)) : Prop where
  effects : w'.effects = w.effects ++ ((exported.map (Effect.exported p.points)).toList ++
    (announced.map (Effect.heartbeat health)).toList)
  store : w'.store = w.store
  update : HealthUpdate p.stats stats
  health_eq : ∃ s, health = healthPoints s
  called : exported.isSome = (exporter.isSome && p.stats.sourceOk)
  announces : announced.isSome = (exporter.bind Exporter.heartbeat).isSome
  export_ok : stats.exportOk = true ↔ p.stats.exportOk = true ∧ Clean exported
  heartbeat_ok : stats.heartbeatOk = true ↔ p.stats.heartbeatOk = true ∧ Clean announced
  truncated : stats.readTruncated = p.stats.readTruncated
  conflict : stats.checkpointConflict = p.stats.checkpointConflict

theorem published (exporter : Option (Exporter ε)) (p : Prepared) (w : World ε σ) :
    ∃ exported announced, Published exporter p w (publish exporter p w).1
      (publish exporter p w).2.1 (publish exporter p w).2.2 exported announced := by
  -- the main flush
  obtain ⟨exported, he, hs, hu, hc, hok, hh⟩ : ∃ exported : Option (Option PyErr),
      (flush exporter p.points p.stats w).2.effects =
        w.effects ++ (exported.map (Effect.exported p.points)).toList ∧
      (flush exporter p.points p.stats w).2.store = w.store ∧
      (∃ exportOk exportError, (flush exporter p.points p.stats w).1 =
        { p.stats with exportOk, exportError }) ∧
      exported.isSome = (exporter.isSome && p.stats.sourceOk) ∧
      ((flush exporter p.points p.stats w).1.exportOk = true ↔
        p.stats.exportOk = true ∧ Clean exported) ∧
      (flush exporter p.points p.stats w).1.heartbeatOk = p.stats.heartbeatOk := by
    have hf := flushed exporter p.points p.stats w
    generalize flush exporter p.points p.stats w = out at hf
    cases hf with
    | absent h => exact ⟨none, by simp, rfl, ⟨_, _, rfl⟩, by simp [h], by simp [Clean], rfl⟩
    | skipped h => exact ⟨none, by simp, rfl, ⟨_, _, rfl⟩, by simp [h], by simp [Clean], rfl⟩
    | accepted x h hs hx =>
      exact ⟨some none, by simp [World.send, hx, errorOfResult], rfl, ⟨_, _, rfl⟩,
        by simp [h, hs], by simp [Clean], rfl⟩
    | refused x h hs e hx =>
      exact ⟨some (some e), by simp [World.send, hx, errorOfResult], rfl,
        ⟨_, _, rfl⟩, by simp [h, hs], by simp [Clean], rfl⟩
  -- the health heartbeat
  obtain ⟨exportOk, exportError, hu⟩ := hu
  have hb := beaten exporter (healthPoints (flush exporter p.points p.stats w).1)
    (flush exporter p.points p.stats w).1 (flush exporter p.points p.stats w).2
  have hpub : publish exporter p w =
      ((sendHeartbeat exporter (healthPoints (flush exporter p.points p.stats w).1)
          (flush exporter p.points p.stats w).1 (flush exporter p.points p.stats w).2).1,
        healthPoints (flush exporter p.points p.stats w).1,
        (sendHeartbeat exporter (healthPoints (flush exporter p.points p.stats w).1)
          (flush exporter p.points p.stats w).1 (flush exporter p.points p.stats w).2).2) := rfl
  rw [hpub]
  generalize flush exporter p.points p.stats w = mid at *
  generalize sendHeartbeat exporter (healthPoints mid.1) mid.1 mid.2 = out at *
  cases hb with
  | silent h =>
    exact ⟨exported, none, by simpa using he, hs, ⟨_, _, _, _, hu⟩, ⟨_, rfl⟩, hc, by simp [h], hok,
      by simp [hh, Clean], by rw [hu], by rw [hu]⟩
  | delivered channel h hx =>
    exact ⟨exported, some none, by simp [beat_effects, hx, he], hs, ⟨_, _, _, _, hu⟩, ⟨_, rfl⟩, hc,
      by simp [h], hok, by simp [hh, Clean], by rw [hu], by rw [hu]⟩
  | failed channel h e hx =>
    exact ⟨exported, some (some e), by simp [beat_effects, hx, he], hs,
      ⟨_, _, _, _, by rw [hu]⟩, ⟨_, rfl⟩, hc, by simp [h], hok, by simp [Clean],
      by rw [hu], by rw [hu]⟩

/-- What a returned result reports about the commit and the final heartbeat. -/
structure Reported [Runtime] (store : Option (CheckpointStore σ)) (args : RunArgs) (p : Prepared)
    (stats : AggregationStats) (health final : List MetricPoint)
    (saved : Option (Checkpoint × Option SaveError)) (closed : Option (Option PyErr))
    (r : PipelineResult) : Prop where
  attempted : store.isSome = true → args.windowEnd.isSome = true → mayCommit stats = true →
    saved.isSome = true
  points : r.points = p.points ++ health ++ final
  update : HealthUpdate stats r.stats
  quality : r.quality = p.quality
  reasons : r.malformedByReason = p.stream.state.malformedByReason
  export_ok : r.stats.exportOk = stats.exportOk
  heartbeat_ok : r.stats.heartbeatOk = true ↔ stats.heartbeatOk = true ∧ Clean closed
  truncated : r.stats.readTruncated = stats.readTruncated
  conflict : r.stats.checkpointConflict = false → ∀ cp e, saved = some (cp, e) → e = none
  settled : ∀ cp e, saved = some (cp, e) → e = none ∨ e = some .conflict

/-- The outcome of `conclude`, in the terms of the trace: the checkpoint is saved, or not, and the
last heartbeat closes the run. -/
structure Concluded [Runtime] (exporter : Option (Exporter ε))
    (store : Option (CheckpointStore σ)) (args : RunArgs)
    (checkpoint : Option Checkpoint) (p : Prepared) (stats : AggregationStats)
    (health final : List MetricPoint) (w : World ε σ)
    (saved : Option (Checkpoint × Option SaveError)) (closed : Option (Option PyErr))
    (out : Except PyErr PipelineResult × World ε σ) : Prop where
  effects : out.2.effects = w.effects ++ ((saved.map fun s => Effect.saved s.1 s.2).toList ++
    (closed.map (Effect.heartbeat final)).toList)
  closes : closed.isSome = true → (exporter.bind Exporter.heartbeat).isSome = true
  final_eq : ∃ elapsed s, final = finalHealth elapsed s
  written : ∀ cp e, saved = some (cp, e) → mayCommit stats = true ∧
    ∃ st windowEnd seen, store = some st ∧ args.windowEnd = some windowEnd ∧
      committedSeen args windowEnd checkpoint p.stream.state.currentSeen = .ok seen ∧
      cp = ⟨some windowEnd, seen⟩ ∧ out.2.store = (st.save w.store cp).2 ∧
      e = errorOfResult (st.save w.store cp).1
  unwritten : saved = none → out.2.store = w.store
  reported : ∀ r, out.1 = .ok r → Reported store args p stats health final saved closed r

theorem concluded [Runtime] (exporter : Option (Exporter ε)) (store : Option (CheckpointStore σ))
    (args : RunArgs) (env : Env) (checkpoint : Option Checkpoint) (p : Prepared)
    (stats : AggregationStats) (health : List MetricPoint) (w : World ε σ) :
    ∃ final saved closed, Concluded exporter store args checkpoint p stats health final w
      saved closed
      (conclude exporter store args env checkpoint p stats health w) := by
  -- the commit
  obtain ⟨saved, he, hwr, hun, hat, hcf⟩ : ∃ saved : Option (Checkpoint × Option SaveError),
      (commit store args checkpoint p.stream.state.currentSeen stats w).2.effects =
        w.effects ++ (saved.map fun s => Effect.saved s.1 s.2).toList ∧
      (∀ cp e, saved = some (cp, e) → mayCommit stats = true ∧
        ∃ st windowEnd seen, store = some st ∧ args.windowEnd = some windowEnd ∧
          committedSeen args windowEnd checkpoint p.stream.state.currentSeen = .ok seen ∧
          cp = ⟨some windowEnd, seen⟩ ∧
          (commit store args checkpoint p.stream.state.currentSeen stats w).2.store =
            (st.save w.store cp).2 ∧
          e = errorOfResult (st.save w.store cp).1) ∧
      (saved = none →
        (commit store args checkpoint p.stream.state.currentSeen stats w).2.store = w.store) ∧
      (∀ s, (commit store args checkpoint p.stream.state.currentSeen stats w).1 = .ok s →
        store.isSome = true → args.windowEnd.isSome = true → mayCommit stats = true →
        saved.isSome = true) ∧
      (∀ s, (commit store args checkpoint p.stream.state.currentSeen stats w).1 = .ok s →
        (∃ conflict, s = { stats with checkpointConflict := conflict }) ∧
        (s.checkpointConflict = false → ∀ cp e, saved = some (cp, e) → e = none) ∧
        ∀ cp e, saved = some (cp, e) → e = none ∨ e = some .conflict) := by
    have hc := committed store args checkpoint p.stream.state.currentSeen stats w
    generalize commit store args checkpoint p.stream.state.currentSeen stats w = out at hc
    cases hc with
    | skipped h =>
      refine ⟨none, by simp, by simp, fun _ => rfl, ?_, ?_⟩
      · intro s _ h1 h2 h3
        rcases h with h | h | h <;> simp [h] at h1 h2 h3
      · rintro s hs
        cases hs
        exact ⟨⟨_, rfl⟩, by simp, by simp⟩
    | aborted e => exact ⟨none, by simp, by simp, fun _ => rfl, by simp, by simp⟩
    | saved st hst windowEnd hend hmay seen hseen h =>
      refine ⟨some (⟨some windowEnd, seen⟩, none), by simp [save_effects, h], ?_, by simp,
        by simp, ?_⟩
      · rintro cp e heq
        cases heq
        exact ⟨hmay, st, windowEnd, seen, hst, hend, hseen, rfl, rfl, h.symm⟩
      · rintro s hs
        cases hs
        refine ⟨⟨_, rfl⟩, fun _ cp e heq => ?_, fun cp e heq => Or.inl ?_⟩ <;>
          · cases heq
            rfl
    | refused st hst windowEnd hend hmay seen hseen e h result hresult =>
      refine ⟨some (⟨some windowEnd, seen⟩, some e), by simp [save_effects, h], ?_, by simp,
        by simp, ?_⟩
      · rintro cp e' heq
        cases heq
        exact ⟨hmay, st, windowEnd, seen, hst, hend, hseen, rfl, rfl, h.symm⟩
      · rintro s hs
        rcases hresult with ⟨rfl, rfl⟩ | ⟨e', rfl⟩
        · cases hs
          refine ⟨⟨_, rfl⟩, by simp, fun cp e heq => Or.inr ?_⟩
          cases heq
          rfl
        · cases hs
  unfold conclude
  generalize commit store args checkpoint p.stream.state.currentSeen stats w = mid at *
  obtain ⟨result, w'⟩ := mid
  cases result with
  | error e =>
    exact ⟨finalHealth env.elapsed stats, saved, none, by simpa using he, by simp, ⟨_, _, rfl⟩,
      hwr, hun, by simp⟩
  | ok s =>
    obtain ⟨⟨conflict, hs⟩, hcf, hset⟩ := hcf s rfl
    have hat := hat s rfl
    have hup : HealthUpdate stats s := ⟨_, _, _, conflict, hs⟩
    have hflags : s.exportOk = stats.exportOk ∧ s.heartbeatOk = stats.heartbeatOk ∧
        s.readTruncated = stats.readTruncated := by
      rw [hs]
      exact ⟨rfl, rfl, rfl⟩
    -- the final heartbeat
    have hb := beaten exporter (finalHealth env.elapsed s) s w'
    simp only at he hwr hun ⊢
    refine ⟨finalHealth env.elapsed s, saved, ?_⟩
    generalize sendHeartbeat exporter (finalHealth env.elapsed s) s w' = out at hb
    cases hb with
    | silent h =>
      refine ⟨none, by simpa using he, by simp, ⟨_, _, rfl⟩, hwr, hun, ?_⟩
      rintro r ⟨⟩
      exact ⟨hat, rfl, hup, rfl, rfl, hflags.1, by simp [Clean, hflags.2.1], hflags.2.2, hcf, hset⟩
    | delivered channel h hx =>
      refine ⟨some none, by simp [beat_effects, hx, he], by simp [h], ⟨_, _, rfl⟩, hwr, hun, ?_⟩
      rintro r ⟨⟩
      exact ⟨hat, rfl, hup, rfl, rfl, hflags.1, by simp [Clean, hflags.2.1], hflags.2.2, hcf, hset⟩
    | failed channel h e hx =>
      refine ⟨some (some e), by simp [beat_effects, hx, he], by simp [h], ⟨_, _, rfl⟩, hwr, hun,
        ?_⟩
      rintro r ⟨⟩
      exact ⟨hat, rfl, hup.trans ⟨_, _, _, _, rfl⟩, rfl, rfl, hflags.1, by simp [Clean],
        hflags.2.2, hcf, hset⟩

/-! ## Whole runs -/

theorem loadCheckpoint_effects [Runtime] (store : Option (CheckpointStore σ)) (w : World ε σ) :
    (loadCheckpoint store w).2.effects = w.effects ∧
      (loadCheckpoint store w).2.exporter = w.exporter := by
  cases store <;> exact ⟨rfl, rfl⟩

/-- A run either stops before it delivers anything, or goes through all stages. -/
theorem run_cases [Runtime] (exporter : Option (Exporter ε)) (store : Option (CheckpointStore σ))
    (args : RunArgs) (source : Source) (env : Env) (w : World ε σ) :
    (∃ e, run exporter store args source env w = (.error e, (loadCheckpoint store w).2)) ∨
    ∃ checkpoint p stats health final exported announced saved closed w',
      (loadCheckpoint store w).1 = .ok checkpoint ∧
      prepare args source env store.isSome checkpoint = .ok p ∧
      Published exporter p (loadCheckpoint store w).2 stats health w' exported announced ∧
      Concluded exporter store args checkpoint p stats health final w' saved closed
        (run exporter store args source env w) := by
  unfold run
  cases hl : loadCheckpoint store w with
  | mk result w₁ =>
    cases result with
    | error e => exact Or.inl ⟨e, rfl⟩
    | ok checkpoint =>
      simp only
      cases hp : prepare args source env store.isSome checkpoint with
      | error e => exact Or.inl ⟨e, rfl⟩
      | ok p =>
        obtain ⟨exported, announced, hpub⟩ := published exporter p w₁
        obtain ⟨final, saved, closed, hcon⟩ := concluded exporter store args env checkpoint p
          (publish exporter p w₁).1 (publish exporter p w₁).2.1 (publish exporter p w₁).2.2
        exact Or.inr ⟨checkpoint, p, _, _, final, exported, announced, saved, closed, _, rfl, hp,
          hpub, hcon⟩

/-- The trace of a run that delivered: the export, the heartbeat, the save and the last heartbeat,
as far as they were made. -/
theorem Concluded.trace [Runtime] {exporter : Option (Exporter ε)}
    {store : Option (CheckpointStore σ)} {args : RunArgs} {checkpoint : Option Checkpoint}
    {p : Prepared} {stats : AggregationStats} {health final : List MetricPoint}
    {w w' : World ε σ} {exported announced closed : Option (Option PyErr)}
    {saved : Option (Checkpoint × Option SaveError)} {out : Except PyErr PipelineResult × World ε σ}
    (hcon : Concluded exporter store args checkpoint p stats health final w' saved closed out)
    (hpub : Published exporter p w stats health w' exported announced) :
    out.2.effects = w.effects ++
      (Trace.mk p.points health final exported announced saved closed).effects := by
  rw [hcon.effects, hpub.effects, Trace.effects]
  simp only [List.append_assoc]

/-- Every invariant of the exporter's and the store's calls is an invariant of the
run. -/
theorem run_invariant [Runtime] {exporter : Option (Exporter ε)}
    {store : Option (CheckpointStore σ)} {args : RunArgs} {source : Source} {env : Env}
    {w : World ε σ} {I : World ε σ → Prop} (h0 : I w)
    (hload : ∀ st, store = some st → ∀ w, I w → I { w with store := (st.load w.store).2 })
    (hsend : ∀ x, exporter = some x → ∀ w points, I w → I (w.send x points).2)
    (hbeat : ∀ channel, exporter.bind Exporter.heartbeat = some channel →
      ∀ w points, I w → I (w.beat channel points).2)
    (hsave : ∀ st, store = some st → ∀ w cp, I w → I (w.save st cp).2) :
    I (run exporter store args source env w).2 := by
  have hflush : ∀ points stats w, I w → I (flush exporter points stats w).2 := by
    intro points stats w h
    have hf := flushed exporter points stats w
    generalize flush exporter points stats w = out at hf
    cases hf with
    | absent _ => exact h
    | skipped _ => exact h
    | accepted x hx _ _ => exact hsend x hx w points h
    | refused x hx _ _ _ => exact hsend x hx w points h
  have hheart : ∀ points stats w, I w → I (sendHeartbeat exporter points stats w).2 := by
    intro points stats w h
    have hb := beaten exporter points stats w
    generalize sendHeartbeat exporter points stats w = out at hb
    cases hb with
    | silent _ => exact h
    | delivered channel hc _ => exact hbeat channel hc w points h
    | failed channel hc _ _ => exact hbeat channel hc w points h
  have hcommit : ∀ checkpoint seen stats w, I w →
      I (commit store args checkpoint seen stats w).2 := by
    intro checkpoint seen stats w h
    have hc := committed store args checkpoint seen stats w
    generalize commit store args checkpoint seen stats w = out at hc
    cases hc with
    | skipped _ => exact h
    | aborted _ => exact h
    | saved st hst _ _ _ _ _ _ => exact hsave st hst w _ h
    | refused st hst _ _ _ _ _ _ _ _ _ => exact hsave st hst w _ h
  have hinit : I (loadCheckpoint store w).2 := by
    cases store with
    | none => exact h0
    | some st => exact hload st rfl w h0
  unfold run
  generalize loadCheckpoint store w = loaded at hinit
  obtain ⟨result, w₁⟩ := loaded
  cases result with
  | error e => exact hinit
  | ok checkpoint =>
    simp only
    cases prepare args source env store.isSome checkpoint with
    | error e => exact hinit
    | ok p =>
      have hpub : I (publish exporter p w₁).2.2 := hheart _ _ _ (hflush _ _ _ hinit)
      have hmid := hcommit checkpoint p.stream.state.currentSeen (publish exporter p w₁).1 _ hpub
      change I (conclude exporter store args env checkpoint p (publish exporter p w₁).1
        (publish exporter p w₁).2.1 (publish exporter p w₁).2.2).2
      unfold conclude
      generalize commit store args checkpoint p.stream.state.currentSeen (publish exporter p w₁).1
        (publish exporter p w₁).2.2 = out at hmid
      obtain ⟨result, w₂⟩ := out
      cases result with
      | error e => exact hmid
      | ok s => exact hheart _ _ _ hmid

/-- What has been computed when the run reaches the exporter: the read, the points, and the
statistics that go with them. -/
theorem prepare_ok [Runtime] {args : RunArgs} {source : Source} {env : Env} {hasStore : Bool}
    {checkpoint : Option Checkpoint} {p : Prepared}
    (h : prepare args source env hasStore checkpoint = .ok p) :
    ∃ cutoff workload results,
      readCutoff args = .ok cutoff ∧
      p.stream = streamFrom (streamEnv args env hasStore checkpoint cutoff) args.maxRecords
        source.failure source.records .new ∧
      p.stream.state.aggregator.buildPoints args.cfg p.stream.state.malformed
        p.stream.state.duplicates = .ok workload ∧
      p.stream.state.quality.results args.cfg = .ok results ∧
      p.stats = preparedStats args p.stream (p.stream.state.aggregator.buildStats
        p.stream.state.malformed p.stream.state.duplicates) ∧
      ∃ points, points = workload ++ results.flatMap (fun e => qualityPointsOf e.1 e.2) ++
          emptyPoints p.stream.state.quality.emptyCounts ++ trustPoints p.stream p.stats ++
          sourcePoints source.stats ++
          freshnessPoints (rawFreshness args.windowEnd p.stream.state.maxEnd) ∧
        p.points =
          points ++ [gauge "gateway.pipeline.series_emitted" (seriesEmitted points) "1"] := by
  unfold prepare at h
  obtain ⟨cutoff, hc, h⟩ := bind_eq_ok h
  unfold assemble at h
  obtain ⟨⟨workload, built⟩, hb, h⟩ := bind_eq_ok h
  obtain ⟨results, hr, h⟩ := bind_eq_ok h
  obtain ⟨points, hpts, hb⟩ := bind_eq_ok hb
  cases hb
  cases h
  exact ⟨cutoff, workload, results, hc, rfl, hpts, hr, rfl, _, rfl, rfl⟩

end Stages
end InferenceControlPlane.Sli
