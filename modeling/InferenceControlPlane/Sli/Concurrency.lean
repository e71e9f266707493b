import InferenceControlPlane.Runs
import InferenceControlPlane.Sli.Histories
import Mathlib.Logic.Function.Basic

/-!
# Workers that share one checkpoint item

Any number of command line workers interleave over one DynamoDB item. A worker takes
its steps in the order of `main`: it fixes the window end from the clock, loads the
item to choose the window start, loads it again inside the run, reads and exports,
and saves conditionally. One worker alone is `main` on its store.
-/
namespace InferenceControlPlane.Sli
open Python

/-- A worker's deployment and arguments; its window end is read off the clock. -/
structure Job (ε : Type) where
  deployment : Deployment ε
  args : CliArgs
  graceMinutes : PyFloat
  env : Env

def Job.argsAt {ε : Type} (job : Job ε) (now : DateTime) : CliArgs :=
  { job.args with windowEnd := .clock now job.graceMinutes }

/-- The window that `main` has chosen, and the item it found when it chose it. -/
structure Resumed where
  windowEnd : DateTime
  windowStart : DateTime
  found : Option DynamoItem

/-- How far a worker has come. The items that its loads have found are kept. -/
inductive Phase where
  | new
  | ended (windowEnd : DateTime)
  | resumed (r : Resumed)
  | loaded (r : Resumed) (read : Option DynamoItem) (checkpoint : Option Checkpoint)
  | published (r : Resumed) (read : Option DynamoItem) (checkpoint : Option Checkpoint)
      (p : Prepared) (stats : AggregationStats) (health : List MetricPoint)
  | returned (result : Except PyErr PipelineResult)

section
variable [Runtime] {ε : Type}

/-- The next step of a worker. -/
def Job.advance (job : Job ε) (now : DateTime) (phase : Phase) (w : World ε DynamoState) :
    Phase × World ε DynamoState :=
  match phase with
  | .new =>
    match (job.argsAt now).windowEnd.resolve with
    | .error e => (.returned (.error e), w)
    | .ok windowEnd => (.ended windowEnd, w)
  | .ended windowEnd =>
    match resolveStart (some dynamoStore) job.args windowEnd w with
    | (.error e, w') => (.returned (.error e), w')
    | (.ok windowStart, w') => (.resumed ⟨windowEnd, windowStart, w.store.item⟩, w')
  | .resumed r =>
    match loadCheckpoint (some dynamoStore) w with
    | (.error e, w') => (.returned (.error e), w')
    | (.ok checkpoint, w') => (.loaded r w.store.item checkpoint, w')
  | .loaded r read checkpoint =>
    match prepare (job.args.runArgs r.windowEnd)
        (job.deployment.sourceOf r.windowStart r.windowEnd) job.env true checkpoint with
    | .error e => (.returned (.error e), w)
    | .ok p =>
      let (stats, health, w') :=
        publish (some (job.deployment.exporterOf r.windowStart r.windowEnd)) p w
      (.published r read checkpoint p stats health, w')
  | .published r _ checkpoint p stats health =>
    let (result, w') := conclude (some (job.deployment.exporterOf r.windowStart r.windowEnd))
      (some dynamoStore) (job.args.runArgs r.windowEnd) job.env checkpoint p stats health w
    (.returned result, w')
  | .returned result => (.returned result, w)

/-- What the process of a worker reports once it has returned. -/
def Phase.exit : Phase → Option (Except PyErr ℕ)
  | .returned result => some (result.map fun r => exitCode r.stats)
  | _ => none

/-- Five steps of a worker that nobody interrupts are a call of `main`: the worker is the same
program, cut at its calls to the store. -/
theorem advance_alone (job : Job ε) (now : DateTime) (w : World ε DynamoState) :
    let step := fun out : Phase × World ε DynamoState => job.advance now out.1 out.2
    let out := step^[5] (.new, w)
    out.1.exit = some (main job.deployment (some dynamoStore) (job.argsAt now) job.env w).1 ∧
      out.2 = (main job.deployment (some dynamoStore) (job.argsAt now) job.env w).2 := by
  simp only [Function.iterate_succ, Function.iterate_zero, Function.comp_apply, id_eq, main]
  cases hend : (job.argsAt now).windowEnd.resolve with
  | error e => simp [Job.advance, hend, Phase.exit, Except.map]
  | ok windowEnd =>
    have hargs : resolveStart (some dynamoStore) (job.argsAt now) windowEnd w =
        resolveStart (some dynamoStore) job.args windowEnd w := rfl
    obtain ⟨start, w₁, hstart⟩ : ∃ start w₁,
        resolveStart (some dynamoStore) job.args windowEnd w = (start, w₁) := ⟨_, _, rfl⟩
    simp only [Job.advance, hend, hargs, hstart]
    cases start with
    | error e => simp [Phase.exit, Except.map]
    | ok windowStart =>
      simp only [run]
      obtain ⟨checkpoint, w₂, hload⟩ : ∃ checkpoint w₂,
          loadCheckpoint (some dynamoStore) w₁ = (checkpoint, w₂) := ⟨_, _, rfl⟩
      simp only [hload]
      cases checkpoint with
      | error e => simp [Phase.exit, Except.map]
      | ok checkpoint =>
        have hrun : (job.argsAt now).runArgs windowEnd = job.args.runArgs windowEnd := rfl
        simp only [hrun, Option.isSome_some]
        cases prepare (job.args.runArgs windowEnd)
            (job.deployment.sourceOf windowStart windowEnd) job.env true checkpoint with
        | error e => simp [Phase.exit, Except.map]
        | ok p =>
          simp only [deliver]
          generalize publish (some (job.deployment.exporterOf windowStart windowEnd)) p w₂ = pub
          obtain ⟨stats, health, w₃⟩ := pub
          simp only
          generalize conclude (some (job.deployment.exporterOf windowStart windowEnd))
            (some dynamoStore) (job.args.runArgs windowEnd) job.env checkpoint p stats
              health w₃ = out
          obtain ⟨result, w₄⟩ := out
          cases result <;> simp [Phase.exit, Except.map]

/-! ## One step over the shared item -/

/-- The item is the one that was found, or it has been replaced by a later version. -/
def Since (found item : Option DynamoItem) : Prop :=
  found = item ∨ versionOf found < versionOf item

omit [Runtime] in
theorem Since.refl (item : Option DynamoItem) : Since item item := Or.inl rfl

omit [Runtime] in
theorem Since.trans {a b c : Option DynamoItem} (h : Since a b) (h' : Since b c) : Since a c := by
  rcases h with rfl | h
  · exact h'
  · rcases h' with rfl | h'
    · exact Or.inr h
    · exact Or.inr (h.trans h')

omit [Runtime] in
/-- A conditional write that goes through finds the item that was read: versions only grow, so an
equal one is the same item. -/
theorem Since.of_condition {read : Option DynamoItem} {w : DynamoState} (h : Since read w.item)
    (hv : w.version = versionOf read) (hc : w.condition = true) :
    read = w.item ∧ ∀ cp, versionOf w.item < versionOf (some ⟨w.version + 1, cp⟩) := by
  obtain ⟨item, version⟩ := w
  simp only at h hv ⊢
  have hitem : versionOf item = version := by
    cases item with
    | none => simpa [DynamoState.condition, versionOf] using (beq_iff_eq.mp hc).symm
    | some it =>
      simp only [DynamoState.condition, Bool.and_eq_true, beq_iff_eq] at hc
      simpa [versionOf] using hc.2
  rcases h with h | h
  · exact ⟨h, fun cp => by simp [versionOf, ← hitem]⟩
  · omega

/-- What a step does to the item: nothing, or one conditional save of the window end. -/
inductive Advanced (phase : Phase) (w w' : World ε DynamoState) (trace : List Effect) : Prop
  | unsaved (hsaves : savesOf trace = []) (hitem : w'.store.item = w.store.item)
  | refused (r : Resumed) (read : Option DynamoItem) (checkpoint : Option Checkpoint)
      (p : Prepared) (stats : AggregationStats) (health : List MetricPoint)
      (hphase : phase = .published r read checkpoint p stats health) (cp : Checkpoint)
      (hsaves : savesOf trace = [(cp, some .conflict)]) (hitem : w'.store.item = w.store.item)
  | saved (r : Resumed) (read : Option DynamoItem) (checkpoint : Option Checkpoint)
      (p : Prepared) (stats : AggregationStats) (health : List MetricPoint)
      (hphase : phase = .published r read checkpoint p stats health)
      (hmay : mayCommit stats = true) (hcond : w.store.condition = true) (cp : Checkpoint)
      (hwm : cp.watermark = some r.windowEnd) (hsaves : savesOf trace = [(cp, none)])
      (hitem : w'.store.item = some ⟨w.store.version + 1, cp.stored⟩)

theorem advanced (job : Job ε) (now : DateTime) (phase : Phase) (w : World ε DynamoState) :
    ∃ trace, (job.advance now phase w).2.effects = w.effects ++ trace ∧
      Advanced phase w (job.advance now phase w).2 trace := by
  have hnil : savesOf [] = [] := rfl
  have hload : ∀ s : DynamoState, s.load.2.item = s.item := by
    rintro ⟨item, version⟩
    cases item <;> rfl
  cases phase with
  | new =>
    refine ⟨[], ?_, .unsaved hnil ?_⟩ <;>
      · simp only [Job.advance]
        cases (job.argsAt now).windowEnd.resolve <;> simp
  | ended windowEnd =>
    have heffects := resolveStart_effects (some dynamoStore) job.args windowEnd w
    have hitem : (resolveStart (some dynamoStore) job.args windowEnd w).2.store.item =
        w.store.item := by
      unfold resolveStart
      cases nominalStart job.args windowEnd with
      | error e => rfl
      | ok nominal =>
        simp only [loadCheckpoint]
        cases (dynamoStore.load w.store).1 <;> exact hload w.store
    refine ⟨[], ?_, .unsaved hnil ?_⟩ <;>
      · simp only [Job.advance]
        generalize resolveStart (some dynamoStore) job.args windowEnd w = out at heffects hitem
        obtain ⟨start, w₁⟩ := out
        cases start <;> simpa
  | resumed r =>
    have heffects := (loadCheckpoint_effects (some dynamoStore) w).1
    have hitem : (loadCheckpoint (some dynamoStore) w).2.store.item = w.store.item := hload w.store
    refine ⟨[], ?_, .unsaved hnil ?_⟩ <;>
      · simp only [Job.advance]
        generalize loadCheckpoint (some dynamoStore) w = out at heffects hitem
        obtain ⟨checkpoint, w₁⟩ := out
        cases checkpoint <;> simpa
  | loaded r read checkpoint =>
    simp only [Job.advance]
    cases prepare (job.args.runArgs r.windowEnd)
        (job.deployment.sourceOf r.windowStart r.windowEnd) job.env true checkpoint with
    | error e => exact ⟨[], by simp, .unsaved hnil rfl⟩
    | ok p =>
      obtain ⟨exported, announced, hpub⟩ := published
        (some (job.deployment.exporterOf r.windowStart r.windowEnd)) p w
      refine ⟨_, hpub.effects, .unsaved ?_ (congrArg DynamoState.item hpub.store)⟩
      cases exported <;> cases announced <;> rfl
  | published r read checkpoint p stats health =>
    obtain ⟨final, saved, closed, hcon⟩ := concluded
      (some (job.deployment.exporterOf r.windowStart r.windowEnd)) (some dynamoStore)
      (job.args.runArgs r.windowEnd) job.env checkpoint p stats health w
    refine ⟨_, hcon.effects, ?_⟩
    have hsaves : ∀ s : Option (Checkpoint × Option SaveError), savesOf
        ((s.map fun s => Effect.saved s.1 s.2).toList ++
          (closed.map (Effect.heartbeat final)).toList) = s.toList := by
      intro s
      cases s <;> cases closed <;> rfl
    cases saved with
    | none => exact .unsaved (hsaves none) (congrArg DynamoState.item (hcon.unwritten rfl))
    | some s =>
      obtain ⟨cp, e⟩ := s
      obtain ⟨hmay, st, windowEnd, seen, hst, hend, _, hcp, hstore, herr⟩ := hcon.written cp e rfl
      cases hst
      cases hend
      have hitem := congrArg DynamoState.item hstore
      by_cases hcond : w.store.condition = true
      · have hnone : e = none := by simp [herr, dynamoStore, DynamoState.save, hcond, errorOfResult]
        subst hnone
        refine .saved r read checkpoint p stats health rfl hmay hcond cp (by rw [hcp]) (hsaves _) ?_
        rw [Job.advance, hitem]
        simp [dynamoStore, DynamoState.save, hcond]
      · have hconflict : e = some .conflict := by
          simp [herr, dynamoStore, DynamoState.save, hcond, errorOfResult]
        subst hconflict
        refine .refused r read checkpoint p stats health rfl cp (hsaves _) ?_
        rw [Job.advance, hitem]
        simp [dynamoStore, DynamoState.save, hcond]
  | returned result => exact ⟨[], by simp [Job.advance], .unsaved hnil rfl⟩

/-! ## Interleavings -/

/-- A worker's phase, and what its process holds. -/
structure Worker (ε : Type) where
  phase : Phase
  exporter : ε
  version : ℕ
  effects : List Effect

structure Cluster (ε : Type) where
  item : Option DynamoItem
  clock : DateTime
  workers : ℕ → Worker ε

/-- The world as a worker sees it. -/
def Cluster.view (c : Cluster ε) (i : ℕ) : World ε DynamoState :=
  ⟨(c.workers i).exporter, ⟨c.item, (c.workers i).version⟩, (c.workers i).effects⟩

/-- A worker takes its next step. -/
def Cluster.advance (jobs : ℕ → Job ε) (c : Cluster ε) (i : ℕ) (now : DateTime) : Cluster ε :=
  let (phase, w) := (jobs i).advance now (c.workers i).phase (c.view i)
  ⟨w.store.item, now,
    Function.update c.workers i ⟨phase, w.exporter, w.store.version, w.effects⟩⟩

/-- The watermark that a load would return. -/
def Cluster.watermark (c : Cluster ε) : Option DateTime :=
  match readStored (.ok (c.item.map DynamoItem.doc)) with
  | .ok checkpoint => checkpoint.bind Checkpoint.watermark
  | .error _ => none

/-- The worker is about to commit a window that it chose from a replaced item. -/
def Cluster.Replaced (c : Cluster ε) (i : ℕ) : Prop :=
  match (c.workers i).phase with
  | .published r _ _ _ _ _ => c.item ≠ r.found
  | _ => False

instance (c : Cluster ε) (i : ℕ) : Decidable (c.Replaced i) := by
  unfold Cluster.Replaced
  split <;> infer_instance

/-- The saves of one step, and whether its worker's window is outdated. -/
structure Event where
  worker : ℕ
  now : DateTime
  saves : List (Checkpoint × Option SaveError)
  replaced : Bool

/-- One worker steps, at a UTC clock that never goes back. -/
structure Interleaving (jobs : ℕ → Job ε) (c : Cluster ε) (e : Event) (c' : Cluster ε) : Prop where
  clock : c.clock.instant ≤ e.now.instant
  utc : e.now.IsUtc
  next : c' = c.advance jobs e.worker e.now
  saves : e.saves = savesOf
    ((c'.workers e.worker).effects.drop (c.workers e.worker).effects.length)
  replaced : e.replaced = true ↔ c.Replaced e.worker

/-- The watermarks of the successful saves, in order. -/
def committedWatermarks (events : List Event) : List DateTime :=
  events.flatMap fun e => e.saves.filterMap fun s => if s.2 = none then s.1.watermark else none

/-- If the worker is about to save and its version is current, both of its loads found
the same version, with a watermark no later than its window end. -/
def Cluster.Ordered (c : Cluster ε) (i : ℕ) : Prop :=
  match (c.workers i).phase with
  | .published r read checkpoint _ stats _ =>
    mayCommit stats = true → (c.view i).store.condition = true →
      versionOf read = versionOf r.found ∧
        ∀ watermark ∈ checkpoint.bind Checkpoint.watermark, watermark.instant ≤ r.windowEnd.instant
  | _ => True

instance (c : Cluster ε) (i : ℕ) : Decidable (c.Ordered i) := by
  unfold Cluster.Ordered
  split <;> infer_instance

def OrderedStep (jobs : ℕ → Job ε) (c : Cluster ε) (e : Event) (c' : Cluster ε) : Prop :=
  Interleaving jobs c e c' ∧ c.Ordered e.worker

/-- When a worker enters its run, nobody has committed since `main` chose the window, and
what was committed before does not go beyond the end of the window. Nothing is said of
what the worker then reads, exports or saves, nor of what others commit meanwhile. -/
def Cluster.Undisturbed (c : Cluster ε) (i : ℕ) : Prop :=
  match (c.workers i).phase with
  | .resumed r => c.item = r.found ∧
    ∀ watermark ∈ c.watermark, watermark.instant ≤ r.windowEnd.instant
  | _ => True

instance (c : Cluster ε) (i : ℕ) : Decidable (c.Undisturbed i) := by
  unfold Cluster.Undisturbed
  split <;> infer_instance

/-- A step of an interleaving in which every run is entered undisturbed. -/
def UndisturbedStep (jobs : ℕ → Job ε) (c : Cluster ε) (e : Event) (c' : Cluster ε) : Prop :=
  Interleaving jobs c e c' ∧ c.Undisturbed e.worker

/-- Every worker is yet to start. -/
def Cluster.Initial (c : Cluster ε) : Prop := ∀ i, (c.workers i).phase = .new

/-- What a worker's phase says about the shared item. -/
def Phase.Sound (item : Option DynamoItem) (version : ℕ) : Phase → Prop
  | .new => True
  | .ended windowEnd => windowEnd.IsUtc
  | .resumed r => r.windowEnd.IsUtc ∧ Since r.found item
  | .loaded r read checkpoint => r.windowEnd.IsUtc ∧ Since r.found read ∧ Since read item ∧
    version = versionOf read ∧ readStored (.ok (read.map DynamoItem.doc)) = .ok checkpoint
  | .published r read checkpoint _ _ _ => r.windowEnd.IsUtc ∧ Since r.found read ∧
    Since read item ∧ version = versionOf read ∧
    readStored (.ok (read.map DynamoItem.doc)) = .ok checkpoint
  | .returned _ => True

/-- A later version of the item leaves a phase sound. -/
lemma Phase.Sound.mono {item item' : Option DynamoItem} {version : ℕ} {phase : Phase}
    (h : phase.Sound item version) (hs : Since item item') : phase.Sound item' version := by
  cases phase with
  | new => trivial
  | ended windowEnd => exact h
  | resumed r => exact ⟨h.1, h.2.trans hs⟩
  | loaded r read checkpoint => exact ⟨h.1, h.2.1, h.2.2.1.trans hs, h.2.2.2⟩
  | published r read checkpoint p stats health => exact ⟨h.1, h.2.1, h.2.2.1.trans hs, h.2.2.2⟩
  | returned result => trivial

/-- The worker that steps stays sound. -/
lemma advance_sound (job : Job ε) {now : DateTime} (hutc : now.IsUtc) {phase : Phase}
    {w : World ε DynamoState} (h : phase.Sound w.store.item w.store.version) :
    (job.advance now phase w).1.Sound (job.advance now phase w).2.store.item
      (job.advance now phase w).2.store.version := by
  cases phase with
  | new =>
    simp only [Job.advance]
    cases hend : (job.argsAt now).windowEnd.resolve with
    | error e => trivial
    | ok windowEnd =>
      obtain ⟨delta, _, hsub⟩ := bind_eq_ok hend
      exact DateTime.isUtc_sub hutc hsub
  | ended windowEnd =>
    simp only [Job.advance]
    obtain ⟨start, w₁, hstart⟩ : ∃ start w₁,
        resolveStart (some dynamoStore) job.args windowEnd w = (start, w₁) := ⟨_, _, rfl⟩
    simp only [hstart]
    cases start with
    | error e => trivial
    | ok windowStart =>
      obtain ⟨_, _, _, _, hworld⟩ := resolveStart_ok (congrArg Prod.fst hstart)
      rw [hstart] at hworld
      subst hworld
      exact ⟨h, Or.inl (congrArg DynamoState.item (load_versionOf w.store).1).symm⟩
  | resumed r =>
    simp only [Job.advance]
    obtain ⟨result, w₁, hload⟩ : ∃ result w₁,
        loadCheckpoint (some dynamoStore) w = (result, w₁) := ⟨_, _, rfl⟩
    obtain ⟨hstate, hread⟩ := load_versionOf w.store
    have hresult : w.store.load.1 = result := congrArg Prod.fst hload
    have hstore : w₁.store = w.store.load.2 := (congrArg (fun out => out.2.store) hload).symm
    simp only [hload]
    cases result with
    | error e => trivial
    | ok checkpoint =>
      rw [hstate] at hstore
      rw [hread] at hresult
      simp only [hstore]
      exact ⟨h.1, h.2, .refl _, rfl, hresult⟩
  | loaded r read checkpoint =>
    simp only [Job.advance]
    cases prepare (job.args.runArgs r.windowEnd)
        (job.deployment.sourceOf r.windowStart r.windowEnd) job.env true checkpoint with
    | error e => trivial
    | ok p =>
      obtain ⟨exported, announced, hpub⟩ := published
        (some (job.deployment.exporterOf r.windowStart r.windowEnd)) p w
      simp only [hpub.store]
      exact h
  | published r read checkpoint p stats health => trivial
  | returned result => trivial

/-! ## Safety -/

/-- What holds after any ordered interleaving. -/
structure Cluster.Safe (first : Option DateTime) (events : List Event) (c : Cluster ε) : Prop where
  workers : ∀ i, (c.workers i).phase.Sound c.item (c.workers i).version
  ordered : (first.toList ++ committedWatermarks events).Pairwise
    fun a b => a.instant ≤ b.instant
  latest : ∀ d ∈ first.toList ++ committedWatermarks events,
    ∃ watermark, c.watermark = some watermark ∧ d.instant ≤ watermark.instant
  conflicts : ∀ e ∈ events, e.replaced = true → ∀ s ∈ e.saves, s.2 = some .conflict

lemma Cluster.safe_initial {c : Cluster ε} (h : c.Initial) : c.Safe c.watermark [] where
  workers i := by
    rw [h i]
    trivial
  ordered := by
    cases c.watermark <;> simp [committedWatermarks]
  latest d hd := by
    refine ⟨d, ?_, le_rfl⟩
    simpa [committedWatermarks] using hd
  conflicts := by simp

/-- One step of a worker of the cluster. -/
lemma Interleaving.advanced {jobs : ℕ → Job ε} {c c' : Cluster ε} {e : Event}
    (h : Interleaving jobs c e c') :
    ∃ w', c' = ⟨w'.store.item, e.now, Function.update c.workers e.worker
        ⟨((jobs e.worker).advance e.now (c.workers e.worker).phase (c.view e.worker)).1,
          w'.exporter,
          w'.store.version, w'.effects⟩⟩ ∧
      w' = ((jobs e.worker).advance e.now (c.workers e.worker).phase (c.view e.worker)).2 ∧
      ∃ trace, e.saves = savesOf trace ∧
        Advanced (c.workers e.worker).phase (c.view e.worker) w' trace := by
  obtain ⟨trace, heffects, hadv⟩ := Sli.advanced (jobs e.worker) e.now
    (c.workers e.worker).phase (c.view e.worker)
  refine ⟨_, h.next, rfl, trace, ?_, hadv⟩
  rw [h.saves, h.next]
  simp only [Cluster.advance, Function.update_self, heffects]
  rw [show (c.view e.worker).effects = (c.workers e.worker).effects from rfl, List.drop_left]

omit [Runtime] in
lemma committedWatermarks_append (events : List Event) (e : Event) :
    committedWatermarks (events ++ [e]) = committedWatermarks events ++
      e.saves.filterMap fun s => if s.2 = none then s.1.watermark else none := by
  simp [committedWatermarks]

/-- A step that leaves the item alone commits nothing. -/
lemma Cluster.Safe.still {first : Option DateTime} {events : List Event} {c c' : Cluster ε}
    {e : Event} (h : c.Safe first events) (hitem : c'.item = c.item)
    (hworkers : ∀ i, (c'.workers i).phase.Sound c'.item (c'.workers i).version)
    (hsaves : ∀ s ∈ e.saves, s.2 = some .conflict) : c'.Safe first (events ++ [e]) := by
  have hnone : (e.saves.filterMap fun s => if s.2 = none then s.1.watermark else none) = [] := by
    rw [List.filterMap_eq_nil_iff]
    intro s hs
    rw [hsaves s hs]
    rfl
  have hwm : c'.watermark = c.watermark := by rw [Cluster.watermark, hitem]; rfl
  refine ⟨hworkers, ?_, ?_, ?_⟩
  · rw [committedWatermarks_append, hnone, List.append_nil]
    exact h.ordered
  · rw [committedWatermarks_append, hnone, List.append_nil, hwm]
    exact h.latest
  · intro e' he'
    rcases List.mem_append.mp he' with he' | he'
    · exact h.conflicts e' he'
    · rw [List.mem_singleton.mp he']
      exact fun _ => hsaves

theorem Cluster.Safe.step {jobs : ℕ → Job ε} {first : Option DateTime} {events : List Event}
    {c c' : Cluster ε} {e : Event} (h : c.Safe first events) (hs : OrderedStep jobs c e c') :
    c'.Safe first (events ++ [e]) := by
  obtain ⟨hstep, hord⟩ := hs
  obtain ⟨w', hc', hw', trace, hsaves, hadv⟩ := hstep.advanced
  have hown := advance_sound (jobs e.worker) hstep.utc (w := c.view e.worker) (h.workers e.worker)
  rw [← hw'] at hown
  have hworkers : Since c.item w'.store.item →
      ∀ i, (c'.workers i).phase.Sound c'.item (c'.workers i).version := by
    intro hsince i
    rw [hc']
    by_cases hi : i = e.worker
    · subst hi
      simpa only [Function.update_self] using hown
    · simpa only [Function.update_of_ne hi] using (h.workers i).mono hsince
  cases hadv with
  | unsaved hnil hitem =>
    refine h.still (by rw [hc']; exact hitem) (hworkers (hitem ▸ .refl _)) ?_
    simp [hsaves, hnil]
  | refused r read checkpoint p stats health hphase cp hone hitem =>
    refine h.still (by rw [hc']; exact hitem) (hworkers (hitem ▸ .refl _)) ?_
    simp [hsaves, hone]
  | saved r read checkpoint p stats health hphase hmay hcond cp hwm hone hitem =>
    have hsound := h.workers e.worker
    rw [hphase] at hsound
    obtain ⟨hutc, hfound, hread, hversion, hloaded⟩ := hsound
    -- the write went through, so the item is the one that the run loaded
    obtain ⟨rfl, hgrow⟩ := Since.of_condition (w := (c.view e.worker).store) hread hversion hcond
    simp only [Cluster.Ordered, hphase] at hord
    obtain ⟨hsame, hle⟩ := hord hmay hcond
    have hold : c.watermark = checkpoint.bind Checkpoint.watermark := by
      rw [Cluster.watermark, show c.item = (c.view e.worker).store.item from rfl, hloaded]
    have hnew : c'.watermark = some r.windowEnd := by
      have hread' : readStored (.ok (some cp.stored)) = .ok (some cp) := by
        apply readStored_of_utc
        intro d hd
        rw [hwm, Option.some.injEq] at hd
        exact hd ▸ hutc
      rw [hc', Cluster.watermark, hitem]
      simp only [Option.map_some, hread']
      exact hwm
    have hcommitted : committedWatermarks (events ++ [e]) =
        committedWatermarks events ++ [r.windowEnd] := by
      rw [committedWatermarks_append, hsaves, hone]
      simp [hwm]
    have hbelow : ∀ d ∈ first.toList ++ committedWatermarks events,
        d.instant ≤ r.windowEnd.instant := by
      intro d hd
      obtain ⟨watermark, hw, hd⟩ := h.latest d hd
      exact hd.trans (hle watermark (hold ▸ hw))
    refine ⟨hworkers (Or.inr ?_), ?_, ?_, ?_⟩
    · rw [hitem]
      exact hgrow _
    · rw [hcommitted, ← List.append_assoc, List.pairwise_append]
      refine ⟨h.ordered, List.pairwise_singleton _ _, fun a ha b hb => ?_⟩
      rw [List.mem_singleton.mp hb]
      exact hbelow a ha
    · rw [hcommitted, hnew, ← List.append_assoc]
      intro d hd
      refine ⟨_, rfl, ?_⟩
      rcases List.mem_append.mp hd with hd | hd
      · exact hbelow d hd
      · rw [List.mem_singleton.mp hd]
    · intro e' he' hreplaced
      rcases List.mem_append.mp he' with he' | he'
      · exact h.conflicts e' he' hreplaced
      · -- the window was chosen from the item that is still there
        rw [List.mem_singleton.mp he'] at hreplaced
        have hrep := hstep.replaced.mp hreplaced
        simp only [Cluster.Replaced, hphase] at hrep
        rcases hfound with heq | hlt
        · exact absurd heq.symm hrep
        · omega

/-! ## Undisturbed runs -/

/-- What a worker that entered its run undisturbed has loaded: the item that its window was
chosen from, with a watermark no later than the end of the window. -/
def Phase.Agreed : Phase → Prop
  | .loaded r read checkpoint => read = r.found ∧
    ∀ watermark ∈ checkpoint.bind Checkpoint.watermark, watermark.instant ≤ r.windowEnd.instant
  | .published r read checkpoint _ _ _ => read = r.found ∧
    ∀ watermark ∈ checkpoint.bind Checkpoint.watermark, watermark.instant ≤ r.windowEnd.instant
  | _ => True

/-- Only the second load of a worker can make it disagree. -/
lemma advance_agreed (job : Job ε) {now : DateTime} {phase : Phase} {w : World ε DynamoState}
    (h : phase.Agreed)
    (hload : ∀ r, phase = .resumed r → w.store.item = r.found ∧ ∀ checkpoint,
      readStored (.ok (w.store.item.map DynamoItem.doc)) = .ok checkpoint →
        ∀ watermark ∈ checkpoint.bind Checkpoint.watermark,
          watermark.instant ≤ r.windowEnd.instant) :
    (job.advance now phase w).1.Agreed := by
  cases phase with
  | new =>
    simp only [Job.advance]
    cases (job.argsAt now).windowEnd.resolve <;> trivial
  | ended windowEnd =>
    simp only [Job.advance]
    obtain ⟨start, w₁, hstart⟩ : ∃ start w₁,
        resolveStart (some dynamoStore) job.args windowEnd w = (start, w₁) := ⟨_, _, rfl⟩
    simp only [hstart]
    cases start <;> trivial
  | resumed r =>
    simp only [Job.advance]
    obtain ⟨hfound, hbefore⟩ := hload r rfl
    obtain ⟨result, w₁, hresult⟩ : ∃ result w₁,
        loadCheckpoint (some dynamoStore) w = (result, w₁) := ⟨_, _, rfl⟩
    have hread : w.store.load.1 = result := congrArg Prod.fst hresult
    rw [(load_versionOf w.store).2] at hread
    simp only [hresult]
    cases result with
    | error e => trivial
    | ok checkpoint => exact ⟨hfound, hbefore checkpoint hread⟩
  | loaded r read checkpoint =>
    simp only [Job.advance]
    cases prepare (job.args.runArgs r.windowEnd)
        (job.deployment.sourceOf r.windowStart r.windowEnd) job.env true checkpoint with
    | error e => trivial
    | ok p =>
      obtain ⟨stats, health, w₁, hpub⟩ : ∃ stats health w₁,
          publish (some (job.deployment.exporterOf r.windowStart r.windowEnd)) p w =
            (stats, health, w₁) := ⟨_, _, _, rfl⟩
      simp only [hpub]
      exact h
  | published r read checkpoint p stats health => trivial
  | returned result => trivial

/-- Every worker keeps what it has agreed on, whatever the others do. -/
lemma UndisturbedStep.agreed {jobs : ℕ → Job ε} {c c' : Cluster ε} {e : Event}
    (h : UndisturbedStep jobs c e c') (hagreed : ∀ i, (c.workers i).phase.Agreed) (i : ℕ) :
    (c'.workers i).phase.Agreed := by
  obtain ⟨hstep, hcalm⟩ := h
  rw [hstep.next]
  by_cases hi : i = e.worker
  · subst hi
    simp only [Cluster.advance, Function.update_self]
    apply advance_agreed _ (hagreed _)
    intro r hphase
    rw [Cluster.Undisturbed, hphase] at hcalm
    refine ⟨hcalm.1, fun checkpoint hread => ?_⟩
    have hwatermark : c.watermark = checkpoint.bind Checkpoint.watermark := by
      rw [Cluster.watermark, show c.item = (c.view e.worker).store.item from rfl, hread]
    exact hwatermark ▸ hcalm.2
  · simp only [Cluster.advance, Function.update_of_ne hi]
    exact hagreed i

omit [Runtime] in
/-- A worker that has agreed is ordered: a save of it that goes through is of the version
that its window was chosen from. -/
lemma ordered_of_agreed {c : Cluster ε} {i : ℕ} (h : (c.workers i).phase.Agreed) :
    c.Ordered i := by
  unfold Cluster.Ordered
  cases hphase : (c.workers i).phase with
  | published r read checkpoint p stats health =>
    rw [hphase] at h
    exact fun _ _ => ⟨congrArg versionOf h.1, h.2⟩
  | _ => trivial

/-- Interleavings whose runs are entered undisturbed are ordered: at each save, the conditional
write leaves only the window that was agreed on. -/
theorem ordered_of_undisturbed {jobs : ℕ → Job ε} {c₀ c : Cluster ε} {events : List Event}
    (hinit : c₀.Initial) (hrun : Run (UndisturbedStep jobs) c₀ events c) :
    Run (OrderedStep jobs) c₀ events c ∧ ∀ i, (c.workers i).phase.Agreed := by
  induction hrun with
  | nil =>
    refine ⟨.nil, fun i => ?_⟩
    rw [hinit i]
    trivial
  | snoc _ hstep ih =>
    exact ⟨ih.1.snoc ⟨hstep.1, ordered_of_agreed (ih.2 _)⟩, hstep.agreed ih.2⟩

/-- However any number of workers interleave, as long as every worker enters its run with
the item that its window was chosen from and with a window end that no committed watermark
exceeds: the watermarks of successful saves never go back, starting from the watermark that
was there at first, and a worker whose window was chosen from an item that has since been
replaced gets a conflict for every save. Other workers may commit between any other steps;
that what a run loaded is still there when it saves is what the conditional write sees to. -/
theorem committed_watermarks_monotone (jobs : ℕ → Job ε) (c₀ c : Cluster ε) (events : List Event)
    (hinit : c₀.Initial) (hrun : Run (UndisturbedStep jobs) c₀ events c) :
    (c₀.watermark.toList ++ committedWatermarks events).Pairwise
        (fun a b => a.instant ≤ b.instant) ∧
      ∀ e ∈ events, e.replaced = true → ∀ s ∈ e.saves, s.2 = some .conflict := by
  have hsafe := (ordered_of_undisturbed hinit hrun).1.invariant
    (P := fun events c => Cluster.Safe c₀.watermark events c)
    (Cluster.safe_initial hinit) fun _ _ _ _ h hs => h.step hs
  exact ⟨hsafe.ordered, hsafe.conflicts⟩

/-! ## Schedules -/

/-- The event of one step. -/
def Cluster.event (jobs : ℕ → Job ε) (c : Cluster ε) (i : ℕ) (now : DateTime) : Event where
  worker := i
  now := now
  saves := savesOf (((c.advance jobs i now).workers i).effects.drop (c.workers i).effects.length)
  replaced := decide (c.Replaced i)

/-- The events and the final state of a schedule of steps. -/
def Cluster.play (jobs : ℕ → Job ε) : List (ℕ × DateTime) → Cluster ε → List Event × Cluster ε
  | [], c => ([], c)
  | (i, now) :: rest, c =>
    let out := Cluster.play jobs rest (c.advance jobs i now)
    (c.event jobs i now :: out.1, out.2)

/-- The schedule follows a clock, and its steps satisfy the condition. -/
def Cluster.Plays (jobs : ℕ → Job ε) (P : Cluster ε → ℕ → Prop) :
    List (ℕ × DateTime) → Cluster ε → Prop
  | [], _ => True
  | (i, now) :: rest, c => c.clock.instant ≤ now.instant ∧ now.IsUtc ∧ P c i ∧
    Cluster.Plays jobs P rest (c.advance jobs i now)

def Cluster.decidablePlays (jobs : ℕ → Job ε) (P : Cluster ε → ℕ → Prop)
    [∀ c i, Decidable (P c i)] (schedule : List (ℕ × DateTime)) (c : Cluster ε) :
    Decidable (Cluster.Plays jobs P schedule c) :=
  match schedule with
  | [] => isTrue trivial
  | (i, now) :: rest =>
    have := Cluster.decidablePlays jobs P rest (c.advance jobs i now)
    inferInstanceAs (Decidable (_ ∧ _ ∧ _ ∧ _))

instance (jobs : ℕ → Job ε) (P : Cluster ε → ℕ → Prop) [∀ c i, Decidable (P c i)]
    (schedule : List (ℕ × DateTime)) (c : Cluster ε) :
    Decidable (Cluster.Plays jobs P schedule c) := Cluster.decidablePlays jobs P schedule c

theorem Cluster.run_play (jobs : ℕ → Job ε) {P : Cluster ε → ℕ → Prop}
    (schedule : List (ℕ × DateTime)) {c₀ c : Cluster ε} {events : List Event}
    (hrun : Run (fun c e c' => Interleaving jobs c e c' ∧ P c e.worker) c₀ events c)
    (h : Cluster.Plays jobs P schedule c) :
    Run (fun c e c' => Interleaving jobs c e c' ∧ P c e.worker) c₀
      (events ++ (Cluster.play jobs schedule c).1) (Cluster.play jobs schedule c).2 := by
  induction schedule generalizing events c with
  | nil => simpa [Cluster.play] using hrun
  | cons step rest ih =>
    obtain ⟨i, now⟩ := step
    obtain ⟨hclock, hutc, hP, hrest⟩ := h
    have hstep : Interleaving jobs c (c.event jobs i now) (c.advance jobs i now) :=
      ⟨hclock, hutc, rfl, rfl, decide_eq_true_iff⟩
    simpa [Cluster.play] using ih (hrun.snoc ⟨hstep, hP⟩) hrest

end

/-- Workers that read an empty window of an hour, five minutes behind the clock. -/
def sampleJobs : ℕ → Job Unit := fun _ => {
  deployment := ⟨fun _ _ => ⟨[], none, none⟩, fun _ _ => acceptingExporter⟩
  args := ⟨.clock (sampleTime 0 0) (.finite 5), 60, .finite 10, 100, by decide, by decide,
    by decide⟩
  graceMinutes := .finite 5
  env := sampleEnv }

/-- No item, and workers yet to start. -/
def sampleCluster : Cluster Unit := ⟨none, sampleTime 10 0, fun _ => ⟨.new, (), 0, []⟩⟩

/-- The second worker commits while the first one, which entered its run before, exports. The
first worker's save is refused, and a third worker goes on from the commit of the second. -/
theorem committed_watermarks_monotone_sample :
    letI := Runtime.ascii
    let schedule := List.replicate 3 (0, sampleTime 10 5) ++
      List.replicate 5 (1, sampleTime 10 10) ++ List.replicate 2 (0, sampleTime 10 10) ++
      List.replicate 5 (2, sampleTime 10 15)
    let events := (Cluster.play sampleJobs schedule sampleCluster).1
    committedWatermarks events = [sampleTime 10 5, sampleTime 10 10] ∧
      (events.any fun e => e.replaced && !e.saves.isEmpty) = true ∧
      (committedWatermarks events).Pairwise (fun a b => a.instant ≤ b.instant) ∧
      ∀ e ∈ events, e.replaced = true → ∀ s ∈ e.saves, s.2 = some .conflict := by
  let := Runtime.ascii
  intro schedule events
  have hrun := Cluster.run_play sampleJobs schedule (P := Cluster.Undisturbed) (c := sampleCluster)
    .nil (by decide +kernel +revert)
  exact ⟨by decide +kernel, by decide +kernel,
    committed_watermarks_monotone sampleJobs sampleCluster _ _ (fun _ => rfl) hrun⟩

/-- The first worker fixes its window end and loads the missing item. The second worker
then commits a later window. The first worker's run loads that item, so its save goes
through: the watermark goes back from 10:05 to 10:00, for a window that was chosen
from the replaced state. -/
theorem watermark_moves_back :
    letI := Runtime.ascii
    let schedule := List.replicate 2 (0, sampleTime 10 5) ++
      List.replicate 5 (1, sampleTime 10 10) ++ List.replicate 3 (0, sampleTime 10 10)
    let events := (Cluster.play sampleJobs schedule sampleCluster).1
    (sampleCluster.Initial ∧ ∃ c, Run (Interleaving sampleJobs) sampleCluster events c) ∧
      committedWatermarks events = [sampleTime 10 5, sampleTime 10 0] ∧
      ¬ (committedWatermarks events).Pairwise (fun a b => a.instant ≤ b.instant) ∧
      ∃ e ∈ events, e.replaced = true ∧ ∃ s ∈ e.saves, s.2 = none := by
  let := Runtime.ascii
  intro schedule events
  have hback : committedWatermarks events = [sampleTime 10 5, sampleTime 10 0] := by
    decide +kernel
  refine ⟨⟨fun _ => rfl, ?_⟩, hback, ?_, ?_⟩
  · have hrun := Cluster.run_play sampleJobs schedule (P := fun _ _ => True) (c := sampleCluster)
      .nil (by decide +kernel)
    rw [List.nil_append] at hrun
    exact ⟨_, hrun.mono fun _ _ _ h => h.1⟩
  · rw [hback]
    decide +kernel
  · have hany : events.any (fun e => e.replaced && e.saves.any (·.2.isNone)) = true := by
      decide +kernel
    obtain ⟨e, he, hcheck⟩ := List.any_eq_true.mp hany
    obtain ⟨hrep, hsave⟩ := Bool.and_eq_true_iff.mp hcheck
    obtain ⟨s, hs, hnone⟩ := List.any_eq_true.mp hsave
    exact ⟨e, he, hrep, s, hs, Option.isNone_iff_eq_none.mp hnone⟩

end InferenceControlPlane.Sli
