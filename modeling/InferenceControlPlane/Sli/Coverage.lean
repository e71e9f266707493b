import InferenceControlPlane.Sli.Concurrency
import InferenceControlPlane.Sli.Horizon

/-!
# What any number of workers deliver

The workers of a cluster stop wherever they do: a process that is killed takes no further
step, and every run is a new worker. Whatever they interleave, a window is committed only
when every observation that its source yielded has been delivered by an accepted export of
some worker. Where the commits are ordered, the committed windows leave no gap.
-/
namespace InferenceControlPlane.Sli
open Python

section
variable [Runtime] {ε : Type}

/-- The observations that the next step of a worker folds. -/
def Job.folds (job : Job ε) : Phase → List Observation
  | .loaded r _ checkpoint =>
    match readCutoff (job.args.runArgs r.windowEnd) with
    | .error _ => []
    | .ok cutoff =>
      foldedFrom (streamEnv (job.args.runArgs r.windowEnd) job.env true checkpoint cutoff)
        (some job.args.maxRecords) (job.deployment.sourceOf r.windowStart r.windowEnd).records .new
  | _ => []

omit [Runtime] in
/-- The window that a worker is about to conclude. -/
def Phase.window : Phase → Option (DateTime × DateTime)
  | .published r _ _ _ _ _ => some (r.windowStart, r.windowEnd)
  | _ => none

/-- The effects of a worker in its next step. -/
def Cluster.trace (jobs : ℕ → Job ε) (c : Cluster ε) (i : ℕ) (now : DateTime) : List Effect :=
  ((c.advance jobs i now).workers i).effects.drop (c.workers i).effects.length

/-- A step, with the observations that an accepted export delivered and the window that
its worker concludes. -/
structure Turn where
  event : Event
  delivered : List Observation
  window : Option (DateTime × DateTime)

structure TakesTurn (jobs : ℕ → Job ε) (c : Cluster ε) (turn : Turn) (c' : Cluster ε) : Prop where
  step : Interleaving jobs c turn.event c'
  delivered : turn.delivered =
    if (exportsOf (c.trace jobs turn.event.worker turn.event.now)).any (·.2.isNone)
    then (jobs turn.event.worker).folds (c.workers turn.event.worker).phase else []
  window : turn.window = (c.workers turn.event.worker).phase.window

/-- The ids of all observations delivered. -/
def deliveredIds (turns : List Turn) : List String :=
  turns.flatMap fun turn => turn.delivered.map Observation.obsId

/-- A step whose save succeeded. -/
def Turn.commits (turn : Turn) : Bool := turn.event.saves.any (·.2.isNone)

/-- The windows of the successful saves, in order. -/
def committedWindows (turns : List Turn) : List (DateTime × DateTime) :=
  (turns.filter Turn.commits).filterMap Turn.window

/-- The window's source yields the observation. -/
def Job.Yields (job : Job ε) (window : DateTime × DateTime) (obs : Observation) : Prop :=
  obs ∈ (job.deployment.sourceOf window.1 window.2).observations

/-! ## What one step does -/

/-- The watermark that a load of an item would return. -/
def watermarkOf (item : Option DynamoItem) : Option DateTime :=
  match readStored (.ok (item.map DynamoItem.doc)) with
  | .ok checkpoint => checkpoint.bind Checkpoint.watermark
  | .error _ => none

/-- The seen map of an item. -/
def seenOf (item : Option DynamoItem) : Dict String String :=
  (item.map fun it => it.doc.seen).getD .empty

/-- What a load reads as seen is the seen map of the item. -/
lemma seenOf_readStored {item : Option DynamoItem} {checkpoint : Option Checkpoint}
    (h : readStored (.ok (item.map DynamoItem.doc)) = .ok checkpoint) :
    (checkpoint.map Checkpoint.seen).getD .empty = seenOf item := by
  cases item with
  | none =>
    cases h
    rfl
  | some it => exact seen_of_readStored h

/-- The read loop of a run over a loaded checkpoint. -/
lemma Job.folds_deduplicated {job : Job ε} {r : Resumed} (read : Option DynamoItem)
    {checkpoint : Option Checkpoint} {p : Prepared}
    (hp : prepare (job.args.runArgs r.windowEnd)
      (job.deployment.sourceOf r.windowStart r.windowEnd) job.env true checkpoint = .ok p) :
    ∃ env records, env.priorSeen = (checkpoint.map Checkpoint.seen).getD .empty ∧
      Deduplicated env records (job.folds (.loaded r read checkpoint)) p.stream.state ∧
      (p.stream.truncated = false →
        records = (job.deployment.sourceOf r.windowStart r.windowEnd).records) := by
  obtain ⟨cutoff, _, _, hcutoff, hstream, _⟩ := prepare_ok hp
  obtain ⟨records, -, hdedup, hall⟩ := streamFrom_deduplicated
    (streamEnv (job.args.runArgs r.windowEnd) job.env true checkpoint cutoff)
    (some job.args.maxRecords) (job.deployment.sourceOf r.windowStart r.windowEnd).failure
    (job.deployment.sourceOf r.windowStart r.windowEnd).records
  refine ⟨streamEnv (job.args.runArgs r.windowEnd) job.env true checkpoint cutoff, records, rfl,
    ?_, ?_⟩
  · rw [hstream, Job.folds, hcutoff]
    exact hdedup
  · rw [hstream]
    exact hall

/-- What a worker may commit once it has published. -/
structure Ready (job : Job ε) (r : Resumed) (checkpoint : Option Checkpoint) (p : Prepared)
    (ids : List String) : Prop where
  yielded : ∀ obs, job.Yields (r.windowStart, r.windowEnd) obs → obs.obsId ≠ "" →
    obs.obsId ∈ ids
  seen : ∀ seen, committedSeen (job.args.runArgs r.windowEnd) r.windowEnd checkpoint
    p.stream.state.currentSeen = .ok seen → ∀ id ∈ seen, id ∈ ids

/-- A complete read whose observations are delivered, over a seen map of delivered ids. -/
lemma ready_of_folds {job : Job ε} {r : Resumed} (read : Option DynamoItem)
    {checkpoint : Option Checkpoint} {p : Prepared} {ids : List String}
    (hp : prepare (job.args.runArgs r.windowEnd)
      (job.deployment.sourceOf r.windowStart r.windowEnd) job.env true checkpoint = .ok p)
    (hcomplete : p.stream.truncated = false)
    (hprior : ∀ id ∈ (checkpoint.map Checkpoint.seen).getD .empty, id ∈ ids)
    (hfolds : ∀ obs ∈ job.folds (.loaded r read checkpoint), obs.obsId ∈ ids) :
    Ready job r checkpoint p ids := by
  obtain ⟨env, records, henv, hdedup, hall⟩ := Job.folds_deduplicated read hp
  have hknown : ∀ id ∈ p.stream.state.seenBatch, id ∈ ids := by
    intro id hid
    rcases hdedup.known id hid with hfolded | hold
    · obtain ⟨obs, hobs, rfl⟩ := List.mem_map.mp hfolded
      exact hfolds obs hobs
    · exact hprior id (henv ▸ hold)
  constructor
  · intro obs hobs hid
    obtain ⟨raw, hraw, hparse⟩ := mem_observations.mp hobs
    exact hknown _ (hdedup.covers raw (hall hcomplete ▸ hraw) obs hparse hid)
  · intro seen hseen id hid
    obtain ⟨cutoff, -, hprune⟩ := bind_eq_ok hseen
    obtain ⟨endIso, hget⟩ := Dict.mem_iff_get?.mp hid
    rcases pruneSeen_get? hprune hget with ⟨endTime, hcurrent, -⟩ | ⟨hold, -⟩
    · obtain ⟨obs, hobs, rfl, -⟩ := hdedup.recorded id endTime (Dict.mem_entries.mp hcurrent)
      exact hfolds obs hobs
    · exact hprior id (Dict.mem_iff_get?.mpr ⟨endIso, hold⟩)

/-- The step in which a worker publishes: it saves nothing, and it is ready to commit only
if its export was accepted. -/
lemma advance_loaded (job : Job ε) (now : DateTime) (r : Resumed) (read : Option DynamoItem)
    (checkpoint : Option Checkpoint) (w : World ε DynamoState) {ids : List String}
    (hprior : ∀ id ∈ seenOf read, id ∈ ids)
    (hread : readStored (.ok (read.map DynamoItem.doc)) = .ok checkpoint) :
    ∃ trace, (job.advance now (.loaded r read checkpoint) w).2.effects = w.effects ++ trace ∧
      savesOf trace = [] ∧
      (job.advance now (.loaded r read checkpoint) w).2.store = w.store ∧
      ∀ r' read' checkpoint' p stats health,
        (job.advance now (.loaded r read checkpoint) w).1 =
          .published r' read' checkpoint' p stats health → mayCommit stats = true →
        Ready job r' checkpoint' p (ids ++ if (exportsOf trace).any (·.2.isNone)
          then (job.folds (.loaded r read checkpoint)).map Observation.obsId else []) := by
  simp only [Job.advance]
  cases hp : prepare (job.args.runArgs r.windowEnd)
      (job.deployment.sourceOf r.windowStart r.windowEnd) job.env true checkpoint with
  | error e =>
    refine ⟨[], by simp, rfl, rfl, ?_⟩
    intro _ _ _ _ _ _ hphase
    cases hphase
  | ok p =>
    obtain ⟨exported, announced, hpub⟩ := published
      (some (job.deployment.exporterOf r.windowStart r.windowEnd)) p w
    refine ⟨_, hpub.effects, ?_, hpub.store, ?_⟩
    · cases exported <;> cases announced <;> rfl
    intro _ _ _ _ _ _ hphase hmay
    cases hphase
    obtain ⟨hsource, hcomplete, hexported, -⟩ := (hpub.mayCommit hp).mp hmay
    -- the main flush was made, and it was accepted
    have hcalled := hpub.called
    rw [(prepared_flags hp).1, hsource] at hcalled
    have haccepted : exported = some none := by
      cases exported with
      | none => cases hcalled
      | some call =>
        cases call with
        | none => rfl
        | some e => exact absurd rfl (hexported e)
    subst haccepted
    have hany : (exportsOf (((some none).map (Effect.exported p.points)).toList ++
        (announced.map (Effect.heartbeat
          (publish (some (job.deployment.exporterOf r.windowStart r.windowEnd)) p
            w).2.1)).toList)).any
        (·.2.isNone) = true := by
      cases announced <;> rfl
    rw [hany, if_pos rfl]
    refine ready_of_folds read hp hcomplete ?_ ?_
    · intro id hid
      rw [seenOf_readStored hread] at hid
      exact List.mem_append_left _ (hprior id hid)
    · intro obs hobs
      exact List.mem_append_right _ (List.mem_map_of_mem hobs)

/-- The step in which a worker concludes: it exports nothing, and if its save succeeds the
item holds the window end with the seen map of the commit. -/
lemma advance_published (job : Job ε) (now : DateTime) (r : Resumed) (read : Option DynamoItem)
    (checkpoint : Option Checkpoint) (p : Prepared) (stats : AggregationStats)
    (health : List MetricPoint) (w : World ε DynamoState) :
    ∃ trace, (job.advance now (.published r read checkpoint p stats health) w).2.effects =
        w.effects ++ trace ∧ exportsOf trace = [] ∧
      (((savesOf trace).any (·.2.isNone) = false ∧
          (job.advance now (.published r read checkpoint p stats health) w).2.store.item =
            w.store.item) ∨
        ∃ seen, (savesOf trace).any (·.2.isNone) = true ∧ mayCommit stats = true ∧
          w.store.condition = true ∧
          committedSeen (job.args.runArgs r.windowEnd) r.windowEnd checkpoint
            p.stream.state.currentSeen = .ok seen ∧
          (job.advance now (.published r read checkpoint p stats health) w).2.store.item =
            some ⟨w.store.version + 1, (Checkpoint.mk (some r.windowEnd) seen).stored⟩) := by
  obtain ⟨final, saved, closed, hcon⟩ := concluded
    (some (job.deployment.exporterOf r.windowStart r.windowEnd)) (some dynamoStore)
    (job.args.runArgs r.windowEnd) job.env checkpoint p stats health w
  refine ⟨_, hcon.effects, ?_, ?_⟩
  · cases saved <;> cases closed <;> rfl
  have hsaves : ∀ s : Option (Checkpoint × Option SaveError), savesOf
      ((s.map fun s => Effect.saved s.1 s.2).toList ++
        (closed.map (Effect.heartbeat final)).toList) = s.toList := by
    intro s
    cases s <;> cases closed <;> rfl
  rw [hsaves]
  cases saved with
  | none => exact Or.inl ⟨rfl, congrArg DynamoState.item (hcon.unwritten rfl)⟩
  | some s =>
    obtain ⟨cp, e⟩ := s
    obtain ⟨hmay, st, windowEnd, seen, hst, hend, hseen, hcp, hstore, herr⟩ := hcon.written cp e rfl
    cases hst
    cases hend
    have hitem := congrArg DynamoState.item hstore
    by_cases hcond : w.store.condition = true
    · right
      have hnone : e = none := by simp [herr, dynamoStore, DynamoState.save, hcond, errorOfResult]
      refine ⟨seen, by rw [hnone]; rfl, hmay, hcond, hseen, ?_⟩
      rw [Job.advance, hitem, hcp]
      simp [dynamoStore, DynamoState.save, hcond]
    · left
      have hconflict : e = some .conflict := by
        simp [herr, dynamoStore, DynamoState.save, hcond, errorOfResult]
      refine ⟨by rw [hconflict]; rfl, ?_⟩
      rw [Job.advance, hitem]
      simp [dynamoStore, DynamoState.save, hcond]

/-! ## Invariants of a cluster -/

/-- What the phase of a worker says about the ids that have been delivered. -/
def Phase.Accounts (job : Job ε) (ids : List String) : Phase → Prop
  | .loaded _ read _ => ∀ id ∈ seenOf read, id ∈ ids
  | .published r _ checkpoint p stats _ => mayCommit stats = true → Ready job r checkpoint p ids
  | _ => True

/-- More deliveries leave it true. -/
lemma Phase.Accounts.mono {job : Job ε} {ids ids' : List String} {phase : Phase}
    (h : phase.Accounts job ids) (hids : ∀ id ∈ ids, id ∈ ids') : phase.Accounts job ids' := by
  cases phase with
  | loaded r read checkpoint => exact fun id hid => hids id (h id hid)
  | published r read checkpoint p stats health =>
    intro hmay
    obtain ⟨hyielded, hseen⟩ := h hmay
    exact ⟨fun obs hobs hid => hids _ (hyielded obs hobs hid),
      fun seen heq id hid => hids id (hseen seen heq id hid)⟩
  | new => trivial
  | ended windowEnd => trivial
  | resumed r => trivial
  | returned result => trivial

/-- The item and the workers account for what has been delivered. -/
structure Cluster.Accounted (jobs : ℕ → Job ε) (turns : List Turn) (c : Cluster ε) : Prop where
  sound : ∀ i, (c.workers i).phase.Sound c.item (c.workers i).version
  seen : ∀ id ∈ seenOf c.item, id ∈ deliveredIds turns
  phases : ∀ i, (c.workers i).phase.Accounts (jobs i) (deliveredIds turns)

/-- One turn, for the worker that takes it. -/
structure Turned (jobs : ℕ → Job ε) (turns : List Turn) (c : Cluster ε) (turn : Turn)
    (w' : World ε DynamoState) (phase' : Phase) : Prop where
  accounts : phase'.Accounts (jobs turn.event.worker) (deliveredIds (turns ++ [turn]))
  item : (turn.commits = false ∧ w'.store.item = c.item) ∨
    ∃ r read checkpoint p stats health seen,
      (c.workers turn.event.worker).phase = .published r read checkpoint p stats health ∧
      turn.commits = true ∧ mayCommit stats = true ∧
      (c.view turn.event.worker).store.condition = true ∧
      committedSeen ((jobs turn.event.worker).args.runArgs r.windowEnd) r.windowEnd checkpoint
        p.stream.state.currentSeen = .ok seen ∧
      w'.store.item = some ⟨(c.view turn.event.worker).store.version + 1,
        (Checkpoint.mk (some r.windowEnd) seen).stored⟩

omit [Runtime] in
lemma deliveredIds_concat (turns : List Turn) (turn : Turn) :
    deliveredIds (turns ++ [turn]) =
      deliveredIds turns ++ turn.delivered.map Observation.obsId := by
  simp [deliveredIds]

section Step
variable {jobs : ℕ → Job ε} {turns : List Turn} {turn : Turn} {c c' : Cluster ε}

lemma Cluster.trace_eq {i : ℕ} {now : DateTime} {trace : List Effect}
    (h : ((jobs i).advance now (c.workers i).phase (c.view i)).2.effects =
      (c.view i).effects ++ trace) : c.trace jobs i now = trace := by
  have hadvance : ((c.advance jobs i now).workers i).effects =
      ((jobs i).advance now (c.workers i).phase (c.view i)).2.effects := by
    simp only [Cluster.advance, Function.update_self]
  rw [Cluster.trace, hadvance, h]
  exact List.drop_left

lemma TakesTurn.commits (hs : TakesTurn jobs c turn c') :
    turn.commits =
      (savesOf (c.trace jobs turn.event.worker turn.event.now)).any (·.2.isNone) := by
  rw [Turn.commits, hs.step.saves, hs.step.next]
  rfl

/-- A step that neither publishes nor concludes touches nothing shared. -/
lemma turned_of_quiet (hs : TakesTurn jobs c turn c')
    (hphase : ∀ r read checkpoint p stats health,
      (c.workers turn.event.worker).phase ≠ .published r read checkpoint p stats health)
    {phase' : Phase} (haccounts : phase'.Accounts (jobs turn.event.worker) (deliveredIds turns)) :
    Turned jobs turns c turn ((jobs turn.event.worker).advance turn.event.now
      (c.workers turn.event.worker).phase (c.view turn.event.worker)).2 phase' where
  accounts := by
    refine haccounts.mono fun id hid => ?_
    rw [deliveredIds_concat]
    exact List.mem_append_left _ hid
  item := by
    obtain ⟨trace, heffects, hadv⟩ := Sli.advanced (jobs turn.event.worker) turn.event.now
      (c.workers turn.event.worker).phase (c.view turn.event.worker)
    cases hadv with
    | unsaved hsaves hitem =>
      refine Or.inl ⟨?_, hitem⟩
      rw [hs.commits, Cluster.trace_eq heffects, hsaves]
      rfl
    | refused r read checkpoint p stats health heq => exact absurd heq (hphase _ _ _ _ _ _)
    | saved r read checkpoint p stats health heq => exact absurd heq (hphase _ _ _ _ _ _)

/-- What every turn of a worker does to its phase, to the item, and to what has been delivered. -/
theorem turned (h : c.Accounted jobs turns) (hs : TakesTurn jobs c turn c') :
    Turned jobs turns c turn
      ((jobs turn.event.worker).advance turn.event.now
        (c.workers turn.event.worker).phase (c.view turn.event.worker)).2
      ((jobs turn.event.worker).advance turn.event.now
        (c.workers turn.event.worker).phase (c.view turn.event.worker)).1 := by
  have hsound := h.sound turn.event.worker
  have hphases := h.phases turn.event.worker
  cases hphase : (c.workers turn.event.worker).phase with
  | new =>
    rw [← hphase]
    refine turned_of_quiet hs (by rw [hphase]; simp) ?_
    rw [hphase]
    simp only [Job.advance]
    cases ((jobs turn.event.worker).argsAt turn.event.now).windowEnd.resolve <;> trivial
  | ended windowEnd =>
    rw [← hphase]
    refine turned_of_quiet hs (by rw [hphase]; simp) ?_
    rw [hphase]
    simp only [Job.advance]
    generalize resolveStart (some dynamoStore) (jobs turn.event.worker).args windowEnd
      (c.view turn.event.worker) = out
    obtain ⟨start, w₁⟩ := out
    cases start <;> trivial
  | resumed r =>
    rw [← hphase]
    refine turned_of_quiet hs (by rw [hphase]; simp) ?_
    rw [hphase]
    simp only [Job.advance]
    generalize loadCheckpoint (some dynamoStore) (c.view turn.event.worker) = out
    obtain ⟨checkpoint, w₁⟩ := out
    cases checkpoint with
    | error e => trivial
    | ok checkpoint => exact h.seen
  | returned result =>
    rw [← hphase]
    refine turned_of_quiet hs (by rw [hphase]; simp) ?_
    rw [hphase]
    trivial
  | loaded r read checkpoint =>
    rw [hphase] at hsound hphases
    obtain ⟨trace, heffects, hsaves, hstore, hready⟩ := advance_loaded (jobs turn.event.worker)
      turn.event.now r read checkpoint (c.view turn.event.worker) hphases hsound.2.2.2.2
    rw [← hphase] at heffects
    have htrace := Cluster.trace_eq heffects
    have hids : deliveredIds (turns ++ [turn]) = deliveredIds turns ++
        if (exportsOf trace).any (·.2.isNone)
        then ((jobs turn.event.worker).folds (.loaded r read checkpoint)).map Observation.obsId
        else [] := by
      rw [deliveredIds_concat, hs.delivered, htrace, hphase]
      split_ifs <;> rfl
    constructor
    · rw [hids]
      cases hnext : ((jobs turn.event.worker).advance turn.event.now (.loaded r read checkpoint)
          (c.view turn.event.worker)).1 with
      | published r' read' checkpoint' p stats health =>
        exact hready r' read' checkpoint' p stats health hnext
      | loaded r' read' checkpoint' =>
        -- this phase is never the next one
        exfalso
        simp only [Job.advance] at hnext
        split at hnext <;> cases hnext
      | new => trivial
      | ended windowEnd => trivial
      | resumed r' => trivial
      | returned result => trivial
    · refine Or.inl ⟨?_, congrArg DynamoState.item hstore⟩
      rw [hs.commits, htrace, hsaves]
      rfl
  | published r read checkpoint p stats health =>
    obtain ⟨trace, heffects, -, hitem⟩ := advance_published (jobs turn.event.worker)
      turn.event.now r read checkpoint p stats health (c.view turn.event.worker)
    rw [← hphase] at heffects
    have hcommits : turn.commits = (savesOf trace).any (·.2.isNone) := by
      rw [hs.commits, Cluster.trace_eq heffects]
    refine ⟨trivial, ?_⟩
    rw [hcommits, hphase]
    rcases hitem with hkept | ⟨seen, hsaved, hmay, hcond, hseen, hitem⟩
    · exact Or.inl hkept
    · exact Or.inr ⟨r, read, checkpoint, p, stats, health, seen, rfl, hsaved, hmay, hcond, hseen,
        hitem⟩

/-- The item that a turn replaces is the one that the run of its worker loaded. -/
lemma Cluster.Accounted.found (h : c.Accounted jobs turns) {i : ℕ} {r : Resumed}
    {read : Option DynamoItem} {checkpoint : Option Checkpoint} {p : Prepared}
    {stats : AggregationStats} {health : List MetricPoint}
    (hphase : (c.workers i).phase = .published r read checkpoint p stats health)
    (hcond : (c.view i).store.condition = true) :
    r.windowEnd.IsUtc ∧ Since r.found c.item ∧ read = c.item ∧
      ∀ doc, versionOf c.item < versionOf (some ⟨(c.view i).store.version + 1, doc⟩) := by
  have hsound := h.sound i
  rw [hphase] at hsound
  obtain ⟨hutc, hfound, hread, hversion, -⟩ := hsound
  obtain ⟨hsame, hgrow⟩ := Since.of_condition (w := (c.view i).store) hread hversion hcond
  rw [hsame] at hfound
  exact ⟨hutc, hfound, hsame, hgrow⟩

/-- Every turn keeps the accounts: whatever a checkpoint says was seen has been delivered
before. -/
theorem Cluster.Accounted.step (h : c.Accounted jobs turns) (hs : TakesTurn jobs c turn c') :
    c'.Accounted jobs (turns ++ [turn]) := by
  have hturn := turned h hs
  have hown := advance_sound (jobs turn.event.worker) hs.step.utc (w := c.view turn.event.worker)
    (h.sound turn.event.worker)
  have hnext := hs.step.next
  rw [Cluster.advance] at hnext
  generalize (jobs turn.event.worker).advance turn.event.now
    (c.workers turn.event.worker).phase (c.view turn.event.worker) = out at hturn hown hnext
  obtain ⟨phase', w'⟩ := out
  have hgrow : ∀ id ∈ deliveredIds turns, id ∈ deliveredIds (turns ++ [turn]) := by
    intro id hid
    rw [deliveredIds_concat]
    exact List.mem_append_left _ hid
  have hsince : Since c.item w'.store.item := by
    rcases hturn.item with ⟨-, hitem⟩ | ⟨r, read, checkpoint, p, stats, health, seen, hphase, -, -,
      hcond, -, hitem⟩
    · rw [hitem]
      exact .refl _
    · rw [hitem]
      exact Or.inr ((h.found hphase hcond).2.2.2 _)
  subst hnext
  refine ⟨fun i => ?_, ?_, fun i => ?_⟩
  · by_cases hi : i = turn.event.worker
    · subst hi
      simpa only [Function.update_self] using hown
    · simpa only [Function.update_of_ne hi] using (h.sound i).mono hsince
  · rcases hturn.item with ⟨-, hitem⟩ | ⟨r, read, checkpoint, p, stats, health, seen, hphase, -,
      hmay, -, hseen, hitem⟩
    · intro id hid
      have hold : id ∈ seenOf w'.store.item := hid
      rw [hitem] at hold
      exact hgrow id (h.seen id hold)
    · intro id hid
      have hnew : id ∈ seenOf w'.store.item := hid
      rw [hitem] at hnew
      have hready := h.phases turn.event.worker
      rw [hphase] at hready
      exact hgrow id ((hready hmay).seen seen hseen id hnew)
  · by_cases hi : i = turn.event.worker
    · subst hi
      simpa only [Function.update_self] using hturn.accounts
    · simpa only [Function.update_of_ne hi] using (h.phases i).mono hgrow

end Step

lemma accounted_initial {jobs : ℕ → Job ε} {c : Cluster ε} (hinit : c.Initial)
    (hempty : c.item = none) : c.Accounted jobs [] where
  sound i := by
    rw [hinit i]
    trivial
  seen id hid := by
    rw [hempty] at hid
    exact absurd hid List.not_mem_nil
  phases i := by
    rw [hinit i]
    trivial

lemma accounted_run {jobs : ℕ → Job ε} {c₀ c : Cluster ε} {turns : List Turn}
    (hinit : c₀.Initial) (hempty : c₀.item = none) (hrun : Run (TakesTurn jobs) c₀ turns c) :
    c.Accounted jobs turns :=
  hrun.invariant (P := fun turns c => Cluster.Accounted jobs turns c)
    (accounted_initial hinit hempty) fun _ _ _ _ h hs => h.step hs

/-- Whatever the workers interleave and wherever they stop, a window is committed only once
every observation that its source yielded has been delivered. -/
theorem committed_window_delivered (jobs : ℕ → Job ε) (c₀ c : Cluster ε) (turns : List Turn)
    (hinit : c₀.Initial) (hempty : c₀.item = none) (hrun : Run (TakesTurn jobs) c₀ turns c)
    (earlier later : List Turn) (turn : Turn) (hturns : turns = earlier ++ turn :: later)
    (hcommits : turn.commits = true) :
    ∃ window, turn.window = some window ∧
      ∀ obs, (jobs turn.event.worker).Yields window obs → obs.obsId ≠ "" →
        obs.obsId ∈ deliveredIds earlier := by
  subst hturns
  obtain ⟨c₁, c₂, hearlier, hs⟩ := hrun.step_of_append
  have h := accounted_run hinit hempty hearlier
  rcases (turned h hs).item with ⟨hnone, -⟩ | ⟨r, read, checkpoint, p, stats, health, seen, hphase,
    -, hmay, -⟩
  · rw [hcommits] at hnone
    cases hnone
  · have hready := h.phases turn.event.worker
    rw [hphase] at hready
    refine ⟨(r.windowStart, r.windowEnd), ?_, (hready hmay).yielded⟩
    rw [hs.window, hphase]
    rfl

/-! ## No gaps -/

omit [Runtime] in
lemma timedeltaMinutes_nonneg {overlapMinutes : PyFloat} {delta : ℤ}
    (h : overlapMinutes.lt (.finite 0) = false)
    (hdelta : timedeltaMinutes overlapMinutes = .ok delta) : 0 ≤ delta := by
  cases overlapMinutes with
  | finite q =>
    have hq : 0 ≤ q := by simpa [PyFloat.lt] using h
    have hspan : delta = roundHalfEven (q * minuteMicros) := by
      simp only [timedeltaMinutes] at hdelta
      split_ifs at hdelta
      exact (Except.ok.inj hdelta).symm
    have hnonneg : 0 ≤ q * (minuteMicros : ℚ) := by
      apply mul_nonneg hq
      norm_num [minuteMicros, secondMicros]
    have hround := abs_le.mp (abs_roundHalfEven_sub_le (q * minuteMicros))
    have hlow : (-1 : ℚ) < (roundHalfEven (q * minuteMicros) : ℚ) := by linarith [hround.1]
    have hint : (-1 : ℤ) < roundHalfEven (q * minuteMicros) := by exact_mod_cast hlow
    omega
  | inf => cases hdelta
  | negInf => cases hdelta
  | nan => cases hdelta

/-- A resumed window starts no later than the watermark of the item it resumes from. -/
def Phase.Starts : Phase → Prop
  | .resumed r => ∀ watermark, watermarkOf r.found = some watermark →
    r.windowStart.instant ≤ watermark.instant
  | .loaded r _ _ => ∀ watermark, watermarkOf r.found = some watermark →
    r.windowStart.instant ≤ watermark.instant
  | .published r _ _ _ _ _ => ∀ watermark, watermarkOf r.found = some watermark →
    r.windowStart.instant ≤ watermark.instant
  | _ => True

lemma resolveStart_le {args : CliArgs} {windowEnd windowStart : DateTime}
    {w : World ε DynamoState}
    (h : (resolveStart (some dynamoStore) args windowEnd w).1 = .ok windowStart)
    {watermark : DateTime} (hwatermark : watermarkOf w.store.item = some watermark) :
    windowStart.instant ≤ watermark.instant := by
  obtain ⟨nominal, resume, hload, hresume, -⟩ := resolveStart_ok h
  have hread : readStored (.ok (w.store.item.map DynamoItem.doc)) = .ok resume :=
    (load_versionOf w.store).2.symm.trans hload
  rw [watermarkOf, hread] at hwatermark
  simp only at hwatermark
  rw [resumeStart, hwatermark] at hresume
  obtain ⟨delta, hdelta, hsub⟩ := bind_eq_ok hresume
  rw [DateTime.instant_sub hsub]
  have hnonneg := timedeltaMinutes_nonneg args.overlap_nonneg hdelta
  omega

/-- A step of a worker keeps how its window resumes. -/
lemma advance_starts (job : Job ε) (now : DateTime) {phase : Phase} (w : World ε DynamoState)
    (h : phase.Starts) : (job.advance now phase w).1.Starts := by
  cases phase with
  | new =>
    simp only [Job.advance]
    cases (job.argsAt now).windowEnd.resolve <;> trivial
  | ended windowEnd =>
    simp only [Job.advance]
    obtain ⟨start, w₁, hstart⟩ : ∃ start w₁,
        resolveStart (some dynamoStore) job.args windowEnd w = (start, w₁) := ⟨_, _, rfl⟩
    simp only [hstart]
    cases start with
    | error e => trivial
    | ok windowStart =>
      intro watermark hwatermark
      exact resolveStart_le (congrArg Prod.fst hstart) hwatermark
  | resumed r =>
    simp only [Job.advance]
    generalize loadCheckpoint (some dynamoStore) w = out
    obtain ⟨checkpoint, w₁⟩ := out
    cases checkpoint with
    | error e => trivial
    | ok checkpoint => exact h
  | loaded r read checkpoint =>
    simp only [Job.advance]
    cases prepare (job.args.runArgs r.windowEnd)
        (job.deployment.sourceOf r.windowStart r.windowEnd) job.env true checkpoint with
    | error e => trivial
    | ok p => exact h
  | published r read checkpoint p stats health => trivial
  | returned result => trivial

/-- Every observation of the recorded ones that starts between the first committed window
and the watermark has been delivered. -/
structure Cluster.Covered (jobs : ℕ → Job ε) (recorded : Set Observation) (turns : List Turn)
    (c : Cluster ε) : Prop where
  accounted : c.Accounted jobs turns
  starts : ∀ i, (c.workers i).phase.Starts
  empty : c.item = none → committedWindows turns = []
  covered : c.item ≠ none → ∃ watermark first, watermarkOf c.item = some watermark ∧
    (committedWindows turns).head? = some first ∧
    ∀ obs ∈ recorded, obs.obsId ≠ "" → first.1.instant ≤ obs.start.instant →
      obs.start.instant ≤ watermark.instant → obs.obsId ∈ deliveredIds turns

/-- A source that yields every recorded observation that starts in its window. -/
def Job.Complete (job : Job ε) (recorded : Set Observation) : Prop :=
  ∀ window : DateTime × DateTime, ∀ obs ∈ recorded,
    window.1.instant ≤ obs.start.instant → obs.start.instant ≤ window.2.instant →
      job.Yields window obs

section Step
variable {jobs : ℕ → Job ε} {recorded : Set Observation} {turns : List Turn} {turn : Turn}
  {c c' : Cluster ε}

omit [Runtime] in
lemma committedWindows_concat (turns : List Turn) (turn : Turn) :
    committedWindows (turns ++ [turn]) =
      committedWindows turns ++ if turn.commits then turn.window.toList else [] := by
  rw [committedWindows, List.filter_append, List.filterMap_append]
  cases hcommits : turn.commits with
  | false => simp [committedWindows, hcommits]
  | true =>
    cases hwindow : turn.window <;> simp [committedWindows, hcommits, hwindow]

/-- A turn that commits nothing leaves what is covered. -/
lemma Cluster.Covered.still (h : c.Covered jobs recorded turns)
    (haccounted : c'.Accounted jobs (turns ++ [turn]))
    (hstarts : ∀ i, (c'.workers i).phase.Starts) (hcommits : turn.commits = false)
    (hitem : c'.item = c.item) : c'.Covered jobs recorded (turns ++ [turn]) := by
  have hwindows : committedWindows (turns ++ [turn]) = committedWindows turns := by
    rw [committedWindows_concat, hcommits]
    exact List.append_nil _
  refine ⟨haccounted, hstarts, ?_, ?_⟩
  · rw [hitem, hwindows]
    exact h.empty
  · rw [hitem, hwindows]
    intro hitem
    obtain ⟨watermark, first, hwatermark, hfirst, hcovered⟩ := h.covered hitem
    refine ⟨watermark, first, hwatermark, hfirst, fun obs hobs hid hlow hhigh => ?_⟩
    rw [deliveredIds_concat]
    exact List.mem_append_left _ (hcovered obs hobs hid hlow hhigh)

/-- A commit over the item from which the window was chosen extends what is covered. -/
lemma Cluster.Covered.extend (h : c.Covered jobs recorded turns)
    (haccounted : c'.Accounted jobs (turns ++ [turn]))
    (hstarts : ∀ i, (c'.workers i).phase.Starts) {r : Resumed} {version : ℕ}
    {seen : Dict String String} (hcommits : turn.commits = true)
    (hwindow : turn.window = some (r.windowStart, r.windowEnd)) (hutc : r.windowEnd.IsUtc)
    (hresumed : ∀ watermark, watermarkOf c.item = some watermark →
      r.windowStart.instant ≤ watermark.instant)
    (hdelivered : ∀ obs ∈ recorded, r.windowStart.instant ≤ obs.start.instant →
      obs.start.instant ≤ r.windowEnd.instant → obs.obsId ≠ "" →
        obs.obsId ∈ deliveredIds turns)
    (hitem : c'.item = some ⟨version, (Checkpoint.mk (some r.windowEnd) seen).stored⟩) :
    c'.Covered jobs recorded (turns ++ [turn]) := by
  have hwindows : committedWindows (turns ++ [turn]) =
      committedWindows turns ++ [(r.windowStart, r.windowEnd)] := by
    rw [committedWindows_concat, hcommits, hwindow]
    rfl
  have hwatermark : watermarkOf c'.item = some r.windowEnd := by
    have hread : readStored (.ok (some (Checkpoint.mk (some r.windowEnd) seen).stored)) =
        .ok (some ⟨some r.windowEnd, seen⟩) := by
      apply readStored_of_utc
      intro d hd
      exact Option.some.inj hd ▸ hutc
    rw [watermarkOf, hitem]
    simp only [Option.map_some, hread]
    rfl
  have hgrow : ∀ id ∈ deliveredIds turns, id ∈ deliveredIds (turns ++ [turn]) := by
    intro id hid
    rw [deliveredIds_concat]
    exact List.mem_append_left _ hid
  have hpresent : c'.item ≠ none := by simp [hitem]
  refine ⟨haccounted, hstarts, fun hnone => absurd hnone hpresent, fun _ => ?_⟩
  by_cases hempty : c.item = none
  · -- the first commit: its window is all that is covered
    refine ⟨r.windowEnd, (r.windowStart, r.windowEnd), hwatermark, ?_, ?_⟩
    · rw [hwindows, h.empty hempty]
      rfl
    · intro obs hobs hid hlow hhigh
      exact hgrow _ (hdelivered obs hobs hlow hhigh hid)
  · obtain ⟨watermark, first, hold, hfirst, hcovered⟩ := h.covered hempty
    refine ⟨r.windowEnd, first, hwatermark, ?_, ?_⟩
    · rw [hwindows, List.head?_append, hfirst]
      rfl
    · intro obs hobs hid hlow hhigh
      apply hgrow
      rcases le_total obs.start.instant watermark.instant with hle | hge
      · exact hcovered obs hobs hid hlow hle
      · -- the new window reaches back to the old watermark
        exact hdelivered obs hobs ((hresumed watermark hold).trans hge) hhigh hid

/-- Every turn whose commit is ordered keeps the coverage: the new window joins the covered ones
without a gap. -/
theorem Cluster.Covered.step (hcomplete : ∀ i, (jobs i).Complete recorded)
    (h : c.Covered jobs recorded turns) (hs : TakesTurn jobs c turn c')
    (hordered : c.Ordered turn.event.worker) : c'.Covered jobs recorded (turns ++ [turn]) := by
  have haccounted := h.accounted.step hs
  have hturn := turned h.accounted hs
  have hown := advance_starts (jobs turn.event.worker) turn.event.now
    (c.view turn.event.worker) (h.starts turn.event.worker)
  have hnext := hs.step.next
  rw [Cluster.advance] at hnext
  generalize (jobs turn.event.worker).advance turn.event.now
    (c.workers turn.event.worker).phase (c.view turn.event.worker) = out at hturn hown hnext
  obtain ⟨phase', w'⟩ := out
  have hstarts : ∀ i, (c'.workers i).phase.Starts := by
    intro i
    subst hnext
    by_cases hi : i = turn.event.worker
    · subst hi
      simpa only [Function.update_self] using hown
    · simpa only [Function.update_of_ne hi] using h.starts i
  have hitem' : c'.item = w'.store.item := by rw [hnext]
  rcases hturn.item with ⟨hcommits, hitem⟩ | ⟨r, read, checkpoint, p, stats, health, seen, hphase,
    hcommits, hmay, hcond, -, hitem⟩
  · exact h.still haccounted hstarts hcommits (hitem'.trans hitem)
  · obtain ⟨hutc, hfound, hread, -⟩ := h.accounted.found hphase hcond
    rw [Cluster.Ordered, hphase] at hordered
    have hversion := (hordered hmay hcond).1
    rw [hread] at hversion
    have hsame : r.found = c.item := by
      rcases hfound with heq | hlt
      · exact heq
      · omega
    have hresumed := h.starts turn.event.worker
    have hready := h.accounted.phases turn.event.worker
    rw [hphase] at hresumed hready
    rw [Phase.Starts, hsame] at hresumed
    refine h.extend haccounted hstarts hcommits ?_ hutc hresumed ?_ (hitem'.trans hitem)
    · rw [hs.window, hphase]
      rfl
    · intro obs hobs hlow hhigh hid
      exact (hready hmay).yielded obs (hcomplete _ (r.windowStart, r.windowEnd) obs hobs hlow hhigh)
        hid

end Step

/-- In every interleaving whose commits are ordered, whatever the workers are stopped in and
whatever fails, each recorded observation that starts between the first committed window and
the watermark has been delivered. -/
theorem nothing_skipped (jobs : ℕ → Job ε) (recorded : Set Observation)
    (hcomplete : ∀ i, (jobs i).Complete recorded) (c₀ c : Cluster ε) (turns : List Turn)
    (hinit : c₀.Initial) (hempty : c₀.item = none)
    (hrun : Run (fun c turn c' => TakesTurn jobs c turn c' ∧ c.Ordered turn.event.worker)
      c₀ turns c) (watermark : DateTime) (hwatermark : c.watermark = some watermark) :
    ∃ first, (committedWindows turns).head? = some first ∧
      ∀ obs ∈ recorded, obs.obsId ≠ "" → first.1.instant ≤ obs.start.instant →
        obs.start.instant ≤ watermark.instant → obs.obsId ∈ deliveredIds turns := by
  have hcovered := hrun.invariant (P := fun turns c => Cluster.Covered jobs recorded turns c)
    ⟨accounted_initial hinit hempty, fun i => by rw [hinit i]; trivial, fun _ => rfl,
      fun hitem => absurd hempty hitem⟩
    fun _ _ _ _ h hs => h.step hcomplete hs.1 hs.2
  have hitem : c.item ≠ none := by
    intro hnone
    rw [Cluster.watermark, hnone] at hwatermark
    cases hwatermark
  obtain ⟨watermark', first, hwatermark', hfirst, hall⟩ := hcovered.covered hitem
  have heq : watermark' = watermark := Option.some.inj (hwatermark'.symm.trans hwatermark)
  exact ⟨first, hfirst, heq ▸ hall⟩

/-! ## Schedules -/

/-- The turn of one step. -/
def Cluster.turn (jobs : ℕ → Job ε) (c : Cluster ε) (i : ℕ) (now : DateTime) : Turn where
  event := c.event jobs i now
  delivered := if (exportsOf (c.trace jobs i now)).any (·.2.isNone)
    then (jobs i).folds (c.workers i).phase else []
  window := (c.workers i).phase.window

/-- The turns of a schedule of steps. -/
def Cluster.turns (jobs : ℕ → Job ε) : List (ℕ × DateTime) → Cluster ε → List Turn
  | [], _ => []
  | (i, now) :: rest, c => c.turn jobs i now :: Cluster.turns jobs rest (c.advance jobs i now)

lemma Cluster.run_turns (jobs : ℕ → Job ε) {P : Cluster ε → ℕ → Prop}
    (schedule : List (ℕ × DateTime)) {c₀ c : Cluster ε} {earlier : List Turn}
    (hrun : Run (fun c turn c' => TakesTurn jobs c turn c' ∧ P c turn.event.worker) c₀ earlier c)
    (h : Cluster.Plays jobs P schedule c) :
    Run (fun c turn c' => TakesTurn jobs c turn c' ∧ P c turn.event.worker) c₀
      (earlier ++ Cluster.turns jobs schedule c) (Cluster.play jobs schedule c).2 := by
  induction schedule generalizing earlier c with
  | nil => simpa [Cluster.turns, Cluster.play] using hrun
  | cons step rest ih =>
    obtain ⟨i, now⟩ := step
    obtain ⟨hclock, hutc, hP, hrest⟩ := h
    have hstep : TakesTurn jobs c (c.turn jobs i now) (c.advance jobs i now) :=
      ⟨⟨hclock, hutc, rfl, rfl, decide_eq_true_iff⟩, rfl, rfl⟩
    simpa [Cluster.turns, Cluster.play] using ih (hrun.snoc ⟨hstep, hP⟩) hrest

end

/-- Workers whose source holds one record, and yields it for the windows that cover it. -/
def recordJobs [Runtime] (raw : Json) : ℕ → Job Unit := fun i =>
  { sampleJobs i with
    deployment := {
      sourceOf := fun windowStart windowEnd =>
        ⟨if (parseObservation raw).toOption.any fun obs =>
            windowStart.instant ≤ obs.start.instant ∧ obs.start.instant ≤ windowEnd.instant
          then [raw] else [], none, none⟩
      exporterOf := fun _ _ => acceptingExporter } }

lemma complete_recordJobs [Runtime] (raw : Json) (i : ℕ) :
    (recordJobs raw i).Complete {obs | parseObservation raw = .ok obs} := by
  rintro window obs hobs hlow hhigh
  refine mem_observations.mpr ⟨raw, ?_, hobs⟩
  have hcovers : (parseObservation raw).toOption.any (fun obs =>
      window.1.instant ≤ obs.start.instant ∧ obs.start.instant ≤ window.2.instant) = true := by
    rw [show parseObservation raw = .ok obs from hobs]
    simp [Except.toOption, hlow, hhigh]
  show raw ∈ if _ then [raw] else []
  rw [if_pos hcovers]
  exact List.mem_singleton_self raw

lemma sampleRecord_parsed :
    letI := Runtime.ascii
    ∃ obs, parseObservation (sampleRecord "a" "09:30:00" "09:30:01") = .ok obs ∧
      obs.obsId = "a" ∧ obs.obsId ≠ "" ∧ (sampleTime 9 0).instant ≤ obs.start.instant ∧
        obs.start.instant ≤ (sampleTime 10 0).instant := by
  let ascii := Runtime.ascii
  obtain ⟨obs, hobs⟩ := exists_ok_of_isOk
    (x := parseObservation (sampleRecord "a" "09:30:00" "09:30:01")) (by decide +kernel)
  have hfields : ∀ obs, parseObservation (sampleRecord "a" "09:30:00" "09:30:01") = .ok obs →
      obs.obsId = "a" ∧ obs.obsId ≠ "" ∧ (sampleTime 9 0).instant ≤ obs.start.instant ∧
        obs.start.instant ≤ (sampleTime 10 0).instant := by decide +kernel
  exact ⟨obs, hobs, hfields obs hobs⟩

/-- One worker commits the hour up to 10:00, with the one record in it. -/
theorem nothing_skipped_sample :
    letI := Runtime.ascii
    let raw := sampleRecord "a" "09:30:00" "09:30:01"
    let schedule := List.replicate 5 (0, sampleTime 10 5)
    (Cluster.play (recordJobs raw) schedule sampleCluster).2.watermark = some (sampleTime 10 0) ∧
      "a" ∈ deliveredIds (Cluster.turns (recordJobs raw) schedule sampleCluster) := by
  let ascii := Runtime.ascii
  intro raw schedule
  have hwatermark : (Cluster.play (recordJobs raw) schedule sampleCluster).2.watermark =
      some (sampleTime 10 0) := by decide +kernel
  refine ⟨hwatermark, ?_⟩
  have hrun := Cluster.run_turns (recordJobs raw) schedule (P := Cluster.Ordered)
    (c := sampleCluster) .nil (by decide +kernel)
  obtain ⟨first, hfirst, hall⟩ := nothing_skipped (recordJobs raw) _ (complete_recordJobs raw)
    sampleCluster _ _ (fun _ => rfl) rfl hrun _ hwatermark
  have hwindows : committedWindows (Cluster.turns (recordJobs raw) schedule sampleCluster) =
      [(sampleTime 9 0, sampleTime 10 0)] := by decide +kernel
  rw [List.nil_append, hwindows] at hfirst
  cases hfirst
  obtain ⟨obs, hobs, hid, hne, hlow, hhigh⟩ := sampleRecord_parsed
  rw [← hid]
  exact hall obs hobs hne hlow hhigh

/-- The fifth step of the worker commits what its fourth has delivered. -/
theorem committed_window_delivered_sample :
    letI := Runtime.ascii
    let raw := sampleRecord "a" "09:30:00" "09:30:01"
    let earlier := Cluster.turns (recordJobs raw) (List.replicate 4 (0, sampleTime 10 5))
      sampleCluster
    let last := (Cluster.play (recordJobs raw) (List.replicate 4 (0, sampleTime 10 5))
      sampleCluster).2.turn (recordJobs raw) 0 (sampleTime 10 5)
    last.commits = true ∧ "a" ∈ deliveredIds earlier := by
  let ascii := Runtime.ascii
  intro raw earlier last
  have hcommits : last.commits = true := by decide +kernel
  refine ⟨hcommits, ?_⟩
  have hrun := Cluster.run_turns (recordJobs raw) (List.replicate 5 (0, sampleTime 10 5))
    (P := fun _ _ => True) (c := sampleCluster) .nil (by decide +kernel)
  have hturns : Cluster.turns (recordJobs raw) (List.replicate 5 (0, sampleTime 10 5))
      sampleCluster = earlier ++ [last] := rfl
  rw [List.nil_append, hturns] at hrun
  obtain ⟨window, hwindow, hall⟩ := committed_window_delivered (recordJobs raw) sampleCluster _ _
    (fun _ => rfl) rfl (hrun.mono fun _ _ _ h => h.1) earlier [] last rfl hcommits
  have hlast : last.window = some (sampleTime 9 0, sampleTime 10 0) := by decide +kernel
  rw [hlast] at hwindow
  cases hwindow
  obtain ⟨obs, hobs, hid, hne, hlow, hhigh⟩ := sampleRecord_parsed
  rw [← hid]
  exact hall obs (complete_recordJobs raw 0 _ obs hobs hlow hhigh) hne

end InferenceControlPlane.Sli
