import InferenceControlPlane.Sli.Pipeline

/-!
# The command line

`main` fixes the window end, resumes from the committed watermark less the overlap,
builds the source and the exporter for that window, and runs the pipeline. Its
arguments carry the checks of the parser.
-/
namespace InferenceControlPlane.Sli
open Python

/-- The end of the window: `--window-end`, or the clock less the grace period, for records that
arrive late. -/
inductive WindowEnd where
  | explicit (d : DateTime)
  | clock (now : DateTime) (graceMinutes : PyFloat)

def WindowEnd.resolve : WindowEnd → Except PyErr DateTime
  | explicit d => .ok d
  | clock now graceMinutes => do now.sub (← timedeltaMinutes graceMinutes)

structure CliArgs where
  windowEnd : WindowEnd
  windowMinutes : ℤ
  overlapMinutes : PyFloat
  maxRecords : ℤ
  window_pos : 0 < windowMinutes
  overlap_nonneg : overlapMinutes.lt (.finite 0) = false
  limit_pos : 0 < maxRecords

/-- What `main` builds once the window is chosen: the source that reads it and the exporter whose
documents carry its times. -/
structure Deployment (ε : Type) where
  sourceOf : (windowStart windowEnd : DateTime) → Source
  exporterOf : (windowStart windowEnd : DateTime) → Exporter ε

def exitCode (stats : AggregationStats) : ℕ :=
  if stats.exportOk && stats.heartbeatOk && !stats.readTruncated && !stats.checkpointConflict then 0
  else 1

def CliArgs.runArgs (args : CliArgs) (windowEnd : DateTime) : RunArgs :=
  ⟨.default, some windowEnd, args.overlapMinutes, some args.maxRecords⟩

section Main
variable [Runtime] {ε σ : Type}

omit [Runtime] in
/-- The window start without a checkpoint. -/
def nominalStart (args : CliArgs) (windowEnd : DateTime) : Except PyErr DateTime := do
  windowEnd.sub (← timedeltaMinutes (.finite args.windowMinutes))

omit [Runtime] in
/-- The window start once the checkpoint is known. -/
def resumeStart (args : CliArgs) (nominal : DateTime) (resume : Option Checkpoint) :
    Except PyErr DateTime :=
  match resume.bind Checkpoint.watermark with
  | none => .ok nominal
  | some watermark => do watermark.sub (← timedeltaMinutes args.overlapMinutes)

/-- `window_start`, with the first load of the checkpoint: the window begins at the stored
watermark where there is one. -/
def resolveStart (store : Option (CheckpointStore σ)) (args : CliArgs) (windowEnd : DateTime)
    (w : World ε σ) : Except PyErr DateTime × World ε σ :=
  match nominalStart args windowEnd with
  | .error e => (.error e, w)
  | .ok nominal =>
    match loadCheckpoint store w with
    | (.error e, w) => (.error e, w)
    | (.ok resume, w) => (resumeStart args nominal resume, w)

/-- `main`: the window is chosen from the stored watermark, the pipeline runs over it, and the
exit status says whether it was delivered and committed. -/
def main (deployment : Deployment ε) (store : Option (CheckpointStore σ)) (args : CliArgs)
    (env : Env) (w : World ε σ) : Except PyErr ℕ × World ε σ :=
  match args.windowEnd.resolve with
  | .error e => (.error e, w)
  | .ok windowEnd =>
    match resolveStart store args windowEnd w with
    | (.error e, w) => (.error e, w)
    | (.ok windowStart, w) =>
      match run (some (deployment.exporterOf windowStart windowEnd)) store
          (args.runArgs windowEnd) (deployment.sourceOf windowStart windowEnd) env w with
      | (.error e, w) => (.error e, w)
      | (.ok result, w) => (.ok (exitCode result.stats), w)

/-- A returned `main` went through all its stages: window end, window start, the run, and the exit
status. -/
theorem main_ok {deployment : Deployment ε} {store : Option (CheckpointStore σ)} {args : CliArgs}
    {env : Env} {w : World ε σ} {code : ℕ} (h : (main deployment store args env w).1 = .ok code) :
    ∃ windowEnd windowStart result, args.windowEnd.resolve = .ok windowEnd ∧
      (resolveStart store args windowEnd w).1 = .ok windowStart ∧
      (run (some (deployment.exporterOf windowStart windowEnd)) store (args.runArgs windowEnd)
        (deployment.sourceOf windowStart windowEnd) env
        (resolveStart store args windowEnd w).2).1 = .ok result ∧
      (main deployment store args env w).2 =
        (run (some (deployment.exporterOf windowStart windowEnd)) store (args.runArgs windowEnd)
          (deployment.sourceOf windowStart windowEnd) env
          (resolveStart store args windowEnd w).2).2 ∧
      code = exitCode result.stats := by
  unfold main at h ⊢
  cases hend : args.windowEnd.resolve with
  | error e => simp [hend] at h
  | ok windowEnd =>
    simp only [hend] at h ⊢
    obtain ⟨start, w₁, hstart⟩ : ∃ start w₁,
        resolveStart store args windowEnd w = (start, w₁) := ⟨_, _, rfl⟩
    rw [hstart] at h ⊢
    cases start with
    | error e => simp at h
    | ok windowStart =>
      simp only at h ⊢
      obtain ⟨result, w₂, hrun⟩ : ∃ result w₂, run
          (some (deployment.exporterOf windowStart windowEnd)) store (args.runArgs windowEnd)
          (deployment.sourceOf windowStart windowEnd) env w₁ = (result, w₂) := ⟨_, _, rfl⟩
      rw [hrun] at h ⊢
      cases result with
      | error e => simp at h
      | ok result =>
        refine ⟨windowEnd, windowStart, result, rfl, by rw [hstart], ?_, ?_, ?_⟩
        · rw [hstart, hrun]
        · rw [hstart, hrun]
        · exact (Except.ok.inj h).symm

/-- A resolved window start: the checkpoint has been loaded, and its watermark less
the overlap is the start. -/
theorem resolveStart_ok {st : CheckpointStore σ} {args : CliArgs} {windowEnd windowStart : DateTime}
    {w : World ε σ} (h : (resolveStart (some st) args windowEnd w).1 = .ok windowStart) :
    ∃ nominal resume, (st.load w.store).1 = .ok resume ∧
      resumeStart args nominal resume = .ok windowStart ∧
      (resolveStart (some st) args windowEnd w).2 = { w with store := (st.load w.store).2 } := by
  unfold resolveStart at h ⊢
  cases hn : nominalStart args windowEnd with
  | error e => simp [hn] at h
  | ok nominal =>
    simp only [hn, loadCheckpoint] at h ⊢
    cases hl : (st.load w.store).1 with
    | error e => simp [hl] at h
    | ok resume =>
      simp only [hl] at h ⊢
      exact ⟨nominal, resume, rfl, h, trivial⟩

end Main
end InferenceControlPlane.Sli
