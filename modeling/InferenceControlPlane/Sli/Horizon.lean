import InferenceControlPlane.Pruning
import InferenceControlPlane.Sli.Replay
import Mathlib.Data.List.Dedup

/-!
# The seen map of a history

Runs of one writer follow one another over a store. A run that commits prunes the seen map
that it loaded together with the ends that it collected; the other runs leave the store
alone. The stored map stands for a memory that is pruned in rounds, one for each commit,
and so holds the ids of the whole history that one overlap horizon still covers.
-/
namespace InferenceControlPlane.Sli
open Python Pruning

/-- A run over the store with everything it is given, and the state in which it finds the
store. -/
structure Pass (ε σ : Type) where
  exporter : Option (Exporter ε)
  exporterState : ε
  args : RunArgs
  source : Source
  env : Env
  found : σ

section
variable [Runtime] {ε σ : Type} (st : CheckpointStore σ)

namespace Pass

def outcome (p : Pass ε σ) : Except PyErr PipelineResult × World ε σ :=
  run p.exporter (some st) p.args p.source p.env ⟨p.exporterState, p.found, []⟩

/-- The store after the run. -/
def left (p : Pass ε σ) : σ := (p.outcome st).2.store

/-- The run saved a checkpoint. -/
def commits (p : Pass ε σ) : Bool :=
  (savesOf (p.outcome st).2.effects).any fun call => call.2.isNone

def folded (p : Pass ε σ) : List Observation := foldedBy st p.args p.source p.env p.found

def ids (p : Pass ε σ) : List String := (p.folded st).map Observation.obsId

/-- The point up to which a commit of the run prunes. -/
def CutsAt (p : Pass ε σ) (cutoff : DateTime) : Prop :=
  ∃ windowEnd, p.args.windowEnd = some windowEnd ∧
    cutoffOf p.args.overlapMinutes windowEnd = .ok cutoff

end Pass

variable {st}

/-! ## One run -/

/-- What a commit wrote, and from what: the checkpoint that the run had loaded, the records that
it had read, and the cutoff of its window. -/
structure CommittedFrom (st : CheckpointStore σ) (p : Pass ε σ) (checkpoint : Option Checkpoint)
    (windowEnd cutoff : DateTime) (read : List Json) (state : StreamState)
    (seen : Dict String String) : Prop where
  loaded : readStored (st.persisted p.found) = .ok checkpoint
  windowEnd_eq : p.args.windowEnd = some windowEnd
  cut : cutoffOf p.args.overlapMinutes windowEnd = .ok cutoff
  deduplicated : Deduplicated (streamEnv p.args p.env true checkpoint (some cutoff)) read
    (p.folded st) state
  pruned : committedSeen p.args windowEnd checkpoint state.currentSeen = .ok seen
  written : st.persisted (p.left st) = .ok (some (Checkpoint.mk (some windowEnd) seen).stored)

theorem Pass.committed {p : Pass ε σ} (h : p.commits st = true) :
    ∃ checkpoint windowEnd cutoff read state seen,
      CommittedFrom st p checkpoint windowEnd cutoff read state seen := by
  obtain ⟨⟨cp, e⟩, hsave, he⟩ := List.any_eq_true.mp h
  obtain rfl : e = none := Option.isNone_iff_eq_none.mp he
  rcases run_cases p.exporter (some st) p.args p.source p.env ⟨p.exporterState, p.found, []⟩ with
    ⟨e, hrun⟩ | ⟨checkpoint, q, stats, health, final, exported, announced, saved, closed, w', hload,
      hq, hpub, hcon⟩
  · have heffects : (p.outcome st).2.effects = [] := congrArg (fun out => out.2.effects) hrun
    rw [heffects] at hsave
    cases hsave
  · have heffects : (p.outcome st).2.effects =
        (Trace.mk q.points health final exported announced saved closed).effects :=
      hcon.trace hpub
    rw [heffects, savesOf_trace, Option.mem_toList] at hsave
    obtain ⟨-, st', windowEnd, seen, hst, hend, hseen, rfl, hstore, herr⟩ :=
      hcon.written cp none hsave
    cases hst
    obtain ⟨cutoff?, -, -, hread, hstream, -⟩ := prepare_ok hq
    rw [readCutoff, hend] at hread
    obtain ⟨cutoff, hcut, hread⟩ := bind_eq_ok hread
    cases hread
    obtain ⟨read, -, hded, -⟩ := foldedBy_deduplicated hload hend hcut p.source p.env
    rw [hstream] at hseen
    have hsaved : (st.save w'.store ⟨some windowEnd, seen⟩).1 = .ok () :=
      ok_of_errorOfResult herr.symm
    refine ⟨checkpoint, windowEnd, cutoff, read, _, seen, ?_, hend, hcut, hded, hseen, ?_⟩
    · rw [← st.load_reads]
      exact hload
    · rw [Pass.left]
      exact (congrArg st.persisted hstore).trans (st.save_writes _ _ hsaved)

/-- A run that commits nothing leaves the store alone. -/
lemma Pass.uncommitted {p : Pass ε σ} (h : p.commits st = false) :
    st.persisted (p.left st) = st.persisted p.found := by
  obtain ⟨trace, htrace, -, -, hunsaved⟩ := run_trace p.exporter (some st) p.args p.source p.env
    ⟨p.exporterState, p.found, []⟩
  apply hunsaved st rfl
  intro cp hmem
  have heffects : (p.outcome st).2.effects = trace := htrace
  have hcommit : p.commits st = true := by
    rw [Pass.commits, heffects]
    exact List.any_eq_true.mpr ⟨(cp, none), hmem, rfl⟩
  rw [h] at hcommit
  cases hcommit

/-! ## One commit -/

/-- The map holds ends in UTC under their ids. -/
def Records (stop : String → DateTime) (seen : Dict String String) : Prop :=
  ∀ id endIso, seen.get? id = some endIso →
    id ≠ "" ∧ (stop id).IsUtc ∧ endIso = (stop id).isoformat

/-- A commit keeps of the loaded and of the folded ids those that end at the cutoff or
later, and records their ends. -/
theorem CommittedFrom.seen {p : Pass ε σ} {checkpoint : Option Checkpoint}
    {windowEnd cutoff : DateTime} {read : List Json} {state : StreamState}
    {seen : Dict String String} {stop : String → DateTime}
    (h : CommittedFrom st p checkpoint windowEnd cutoff read state seen)
    (hprior : Records stop ((checkpoint.map Checkpoint.seen).getD .empty))
    (hstop : ∀ obs ∈ p.folded st, obs.endTime = stop obs.obsId) :
    Records stop seen ∧ ∀ id, id ∈ seen ↔
      (id ∈ (checkpoint.map Checkpoint.seen).getD .empty ∨ id ∈ p.ids st) ∧
        cutoff.instant ≤ (stop id).instant := by
  have hprune := h.pruned
  simp only [committedSeen, h.cut] at hprune
  have hget : ∀ id endIso, seen.get? id = some endIso →
      (id ∈ (checkpoint.map Checkpoint.seen).getD .empty ∨ id ∈ p.ids st) ∧
        cutoff.instant ≤ (stop id).instant ∧
          id ≠ "" ∧ (stop id).IsUtc ∧ endIso = (stop id).isoformat := by
    intro id endIso hseen
    rcases pruneSeen_get? hprune hseen with ⟨endTime, hmem, hle, rfl⟩ | ⟨hold, hkeep⟩
    · obtain ⟨obs, ho, rfl, rfl⟩ := h.deduplicated.recorded _ _ (Dict.mem_entries.mp hmem)
      have hend := hstop obs ho
      have hutc := obs.end_utc
      rw [hend] at hle hutc ⊢
      exact ⟨Or.inr (List.mem_map_of_mem ho), hle, (h.deduplicated.fresh obs ho).1, hutc, rfl⟩
    · obtain ⟨hid, hutc, rfl⟩ := hprior id endIso hold
      exact ⟨Or.inl (Dict.mem_of_get? hold), (keepPrior_isoformat hid hutc).mp hkeep, hid,
        hutc, rfl⟩
  refine ⟨fun id endIso hseen => (hget id endIso hseen).2.2, fun id => ⟨?_, ?_⟩⟩
  · intro hid
    obtain ⟨endIso, hseen⟩ := Dict.mem_iff_get?.mp hid
    obtain ⟨hmem, hle, -⟩ := hget id endIso hseen
    exact ⟨hmem, hle⟩
  · rintro ⟨hold | hnew, hle⟩
    · obtain ⟨endIso, hseen⟩ := Dict.mem_iff_get?.mp hold
      obtain ⟨hid, hutc, rfl⟩ := hprior id endIso hseen
      exact pruneSeen_prior hprune hseen ((keepPrior_isoformat hid hutc).mpr hle)
    · obtain ⟨obs, ho, rfl⟩ := List.mem_map.mp hnew
      have hend := hstop obs ho
      rw [← hend] at hle
      have hcollect := h.deduplicated.collected obs ho
        (by simpa [StreamState.collects, streamEnv] using hle)
      exact pruneSeen_current hprune (Dict.mem_entries.mpr hcollect)
        (h.deduplicated.fresh obs ho).1 hle

/-! ## Histories -/

/-- A run of the history: it finds what the last one left, its overlap is the fixed one, and
each id that it folds has its own end. -/
structure Follows (st : CheckpointStore σ) (overlapMinutes : PyFloat) (stop : String → DateTime)
    (s : σ) (p : Pass ε σ) (s' : σ) : Prop where
  finds : st.persisted p.found = st.persisted s
  leaves : s' = p.left st
  overlap : p.args.overlapMinutes = overlapMinutes
  ends : ∀ obs ∈ p.folded st, obs.endTime = stop obs.obsId

/-- The window of the second run ends no earlier than that of the first. -/
def Pass.NoLater (a b : Pass ε σ) : Prop :=
  ∀ d e, a.args.windowEnd = some d → b.args.windowEnd = some e → d.instant ≤ e.instant

/-- The document that a memory of pruned rounds stands for after its last one: its seen map holds
the kept ids, with the ends of their observations. -/
structure Represents (overlapMinutes : PyFloat) (stop : String → DateTime)
    (rounds : List (Round String ℤ)) (kept : Set String) (windowEnd cutoff : DateTime)
    (doc : StoredCheckpoint) : Prop where
  watermark : doc.watermark = some windowEnd.isoformat
  cut : cutoffOf overlapMinutes windowEnd = .ok cutoff
  latest : ∀ r ∈ rounds, r.cutoff ≤ cutoff.instant
  pruned : prune (fun id => (stop id).instant) cutoff.instant kept = kept
  kept : ∀ id, id ∈ kept ↔ id ∈ doc.seen
  records : Records stop doc.seen

/-- The ids that the committed runs of a history folded. -/
def committedIds (st : CheckpointStore σ) (passes : List (Pass ε σ)) : List String :=
  (passes.filter (Pass.commits st)).flatMap (Pass.ids st)

/-- The window end of the last commit. -/
def lastEnd (st : CheckpointStore σ) (passes : List (Pass ε σ)) : Option DateTime :=
  (passes.filter (Pass.commits st)).getLast?.bind fun p => p.args.windowEnd

/-- The store after a history of passes, and the memory after the rounds of their commits: the
simulation between seen maps and pruned batches. -/
structure Retains (st : CheckpointStore σ) (overlapMinutes : PyFloat) (stop : String → DateTime)
    (passes : List (Pass ε σ)) (s : σ) (rounds : List (Round String ℤ)) (kept : Set String) :
    Prop where
  batches : allItems rounds = {id | id ∈ committedIds st passes}
  cutoffs : ∀ r ∈ rounds, ∃ p ∈ passes, ∃ cutoff, p.CutsAt cutoff ∧ r.cutoff = cutoff.instant
  overlap : ∀ p ∈ passes, p.args.overlapMinutes = overlapMinutes
  store : (st.persisted s = .ok none ∧ (∀ p ∈ passes, p.commits st = false) ∧ kept = ∅) ∨
    ∃ doc windowEnd cutoff, st.persisted s = .ok (some doc) ∧
      lastEnd st passes = some windowEnd ∧
        Represents overlapMinutes stop rounds kept windowEnd cutoff doc

lemma committedIds_concat (passes : List (Pass ε σ)) (p : Pass ε σ) :
    committedIds st (passes ++ [p]) =
      committedIds st passes ++ if p.commits st then p.ids st else [] := by
  rw [committedIds, List.filter_append, List.flatMap_append, List.filter_singleton]
  cases p.commits st
  · rfl
  · simp [committedIds]

lemma lastEnd_concat (passes : List (Pass ε σ)) (p : Pass ε σ) :
    lastEnd st (passes ++ [p]) =
      if p.commits st then p.args.windowEnd else lastEnd st passes := by
  rw [lastEnd, List.filter_append, List.filter_singleton]
  cases p.commits st
  · rw [cond_false, List.append_nil]
    rfl
  · rw [cond_true, List.getLast?_concat]
    rfl

/-- A history without a commit has no last one. -/
lemma lastEnd_eq_none {passes : List (Pass ε σ)} (h : ∀ p ∈ passes, p.commits st = false) :
    lastEnd st passes = none := by
  rw [lastEnd, List.filter_eq_nil_iff.mpr fun p hp => by simp [h p hp]]
  rfl

lemma seen_of_readStored {doc : StoredCheckpoint} {checkpoint : Option Checkpoint}
    (h : readStored (.ok (some doc)) = .ok checkpoint) :
    (checkpoint.map Checkpoint.seen).getD .empty = doc.seen := by
  cases hread : doc.read with
  | error e =>
    rw [readStored, hread] at h
    cases h
  | ok cp =>
    rw [readStored, hread] at h
    cases h
    rw [StoredCheckpoint.read] at hread
    split at hread
    · cases hread
      rfl
    · obtain ⟨watermark, -, hcp⟩ := bind_eq_ok hread
      cases hcp
      rfl

section
variable {overlapMinutes : PyFloat} {stop : String → DateTime} {passes : List (Pass ε σ)}
  {p : Pass ε σ} {s s' : σ} {rounds : List (Round String ℤ)} {kept : Set String}

/-- A run that loads the store loads the memory. -/
lemma Retains.loaded (h : Retains st overlapMinutes stop passes s rounds kept)
    {checkpoint : Option Checkpoint} (hload : readStored (st.persisted s) = .ok checkpoint) :
    Records stop ((checkpoint.map Checkpoint.seen).getD .empty) ∧
      ∀ id, id ∈ (checkpoint.map Checkpoint.seen).getD .empty ↔ id ∈ kept := by
  rcases h.store with ⟨hnone, -, rfl⟩ | ⟨doc, windowEnd, cutoff, hdoc, -, hrep⟩
  · rw [hnone] at hload
    cases hload
    exact ⟨by simp [Records], by simp⟩
  · rw [hdoc] at hload
    rw [seen_of_readStored hload]
    exact ⟨hrep.records, fun id => (hrep.kept id).symm⟩

/-- A run that commits nothing is no round. -/
lemma Retains.skip (h : Retains st overlapMinutes stop passes s rounds kept)
    (hp : Follows st overlapMinutes stop s p s') (hcommit : p.commits st = false) :
    Retains st overlapMinutes stop (passes ++ [p]) s' rounds kept where
  batches := by
    rw [h.batches, committedIds_concat, hcommit]
    simp
  cutoffs r hr := by
    obtain ⟨q, hq, hcut⟩ := h.cutoffs r hr
    exact ⟨q, List.mem_append_left _ hq, hcut⟩
  overlap q hq := by
    rcases List.mem_append.mp hq with hq | hq
    · exact h.overlap q hq
    · rw [List.mem_singleton.mp hq]
      exact hp.overlap
  store := by
    have hstore : st.persisted s' = st.persisted s := by
      rw [hp.leaves, Pass.uncommitted hcommit, hp.finds]
    rw [hstore, lastEnd_concat, if_neg (by simp [hcommit])]
    rcases h.store with ⟨hnone, hquiet, hkept⟩ | hstored
    · refine Or.inl ⟨hnone, ?_, hkept⟩
      rw [List.forall_mem_append, List.forall_mem_singleton]
      exact ⟨hquiet, hcommit⟩
    · exact Or.inr hstored

/-- A commit is a round of pruning. -/
lemma Retains.prune (h : Retains st overlapMinutes stop passes s rounds kept)
    (hp : Follows st overlapMinutes stop s p s') (hcommit : p.commits st = true)
    (hsorted : ∀ q ∈ passes, q.NoLater p) :
    ∃ r kept', Pruning.Step (fun id => (stop id).instant) kept r kept' ∧
      Retains st overlapMinutes stop (passes ++ [p]) s' (rounds ++ [r]) kept' := by
  obtain ⟨checkpoint, windowEnd, cutoff, read, state, seen, hc⟩ := Pass.committed hcommit
  have hload := hc.loaded
  rw [hp.finds] at hload
  obtain ⟨hrecords, hprior⟩ := h.loaded hload
  obtain ⟨hseen, hmem⟩ := hc.seen hrecords hp.ends
  have hcut := hc.cut
  rw [hp.overlap] at hcut
  have hstep : Pruning.Step (fun id => (stop id).instant) kept
      ⟨cutoff.instant, {id | id ∈ p.ids st}⟩ {id | id ∈ seen} := by
    ext id
    change id ∈ seen ↔ _
    rw [hmem id, hprior id]
    rfl
  have hlast : lastEnd st (passes ++ [p]) = some windowEnd := by
    rw [lastEnd_concat, if_pos hcommit, hc.windowEnd_eq]
  refine ⟨_, _, hstep, ?_, ?_, ?_, Or.inr ⟨_, windowEnd, cutoff, hp.leaves ▸ hc.written, hlast, rfl,
    hcut, ?_, hstep.pruned, fun id => Iff.rfl, hseen⟩⟩
  · rw [allItems_concat, h.batches, committedIds_concat, hcommit, if_pos rfl]
    ext id
    simp
  · intro r hr
    rcases List.mem_append.mp hr with hr | hr
    · obtain ⟨q, hq, hcuts⟩ := h.cutoffs r hr
      exact ⟨q, List.mem_append_left _ hq, hcuts⟩
    · rw [List.mem_singleton.mp hr]
      exact ⟨p, by simp, cutoff, ⟨windowEnd, hc.windowEnd_eq, hc.cut⟩, rfl⟩
  · rw [List.forall_mem_append, List.forall_mem_singleton]
    exact ⟨h.overlap, hp.overlap⟩
  · -- the overlap is fixed, so that the cutoffs grow with the window ends
    obtain ⟨delta, hdelta, -⟩ := bind_eq_ok hcut
    rw [List.forall_mem_append, List.forall_mem_singleton]
    refine ⟨fun r hr => ?_, le_rfl⟩
    obtain ⟨q, hq, earlier, ⟨end', hend', hcut'⟩, hr'⟩ := h.cutoffs r hr
    rw [h.overlap q hq] at hcut'
    have hle := hsorted q hq end' windowEnd hend' hc.windowEnd_eq
    rw [hr', instant_cutoffOf hdelta hcut', instant_cutoffOf hdelta hcut]
    omega

end

/-- The seen map is the overlap horizon. Over a history of runs of one writer from an empty
store, with a fixed overlap, window ends that do not decrease, and one end for each id,
nothing is stored before the first commit. After it the stored map holds the ids that
committed runs folded and that end no earlier than the stored watermark less the overlap,
each with its end, and nothing else. -/
theorem seen_is_overlap_horizon (st : CheckpointStore σ) (overlapMinutes : PyFloat)
    (stop : String → DateTime) (s s' : σ) (passes : List (Pass ε σ))
    (hempty : st.persisted s = .ok none)
    (hrun : Run (Follows st overlapMinutes stop) s passes s')
    (hsorted : passes.Pairwise Pass.NoLater) :
    ((∀ p ∈ passes, p.commits st = false) → st.persisted s' = .ok none) ∧
    ((∃ p ∈ passes, p.commits st = true) → ∃ doc windowEnd cutoff,
      st.persisted s' = .ok (some doc) ∧ doc.watermark = some windowEnd.isoformat ∧
      lastEnd st passes = some windowEnd ∧ cutoffOf overlapMinutes windowEnd = .ok cutoff ∧
      (∀ id endIso, doc.seen.get? id = some endIso ↔ (id ∈ committedIds st passes ∧
        cutoff.instant ≤ (stop id).instant) ∧ endIso = (stop id).isoformat) ∧
      doc.seen.keys.Perm ((committedIds st passes).filter fun id =>
        cutoff.instant ≤ (stop id).instant).dedup) := by
  obtain ⟨rounds, kept, hrounds, h⟩ : ∃ rounds kept,
      Run (Pruning.Step fun id => (stop id).instant) ∅ rounds kept ∧
        Retains st overlapMinutes stop passes s' rounds kept :=
    Run.simulation (R := Retains st overlapMinutes stop)
      (fun labels a h => (List.pairwise_append.mp h).1) hrun hsorted
      ⟨by simp [allItems, committedIds], by simp, by simp, Or.inl ⟨hempty, by simp, rfl⟩⟩ (by
        intro passes s p s' rounds kept hadm h hp
        cases hcommit : p.commits st with
        | false => exact Or.inl (h.skip hp hcommit)
        | true =>
          have hlater := fun q hq =>
            (List.pairwise_append.mp hadm).2.2 q hq p (List.mem_singleton_self p)
          exact Or.inr (h.prune hp hcommit hlater))
  rcases h.store with ⟨hnone, hquiet, -⟩ | ⟨doc, windowEnd, cutoff, hdoc, hlast, hrep⟩
  · refine ⟨fun _ => hnone, ?_⟩
    intro hloud
    obtain ⟨p, hp, hcommit⟩ := hloud
    rw [hquiet p hp] at hcommit
    cases hcommit
  · refine ⟨fun hquiet => ?_, fun _ => ?_⟩
    · rw [lastEnd_eq_none hquiet] at hlast
      cases hlast
    · -- one pruning of the whole history
      have hmem : ∀ id, id ∈ doc.seen ↔
          id ∈ committedIds st passes ∧ cutoff.instant ≤ (stop id).instant := by
        intro id
        rw [← hrep.kept, ← hrep.pruned, prune_kept hrounds hrep.latest, h.batches]
        rfl
      refine ⟨doc, windowEnd, cutoff, hdoc, hrep.watermark, hlast, hrep.cut,
        fun id endIso => ?_, ?_⟩
      · rw [← hmem]
        constructor
        · exact fun hget => ⟨Dict.mem_of_get? hget, (hrep.records id endIso hget).2.2⟩
        · rintro ⟨hid, rfl⟩
          obtain ⟨endIso, hget⟩ := Dict.mem_iff_get?.mp hid
          rwa [← (hrep.records id endIso hget).2.2]
      · refine (List.perm_ext_iff_of_nodup doc.seen.nodup (List.nodup_dedup _)).mpr fun id => ?_
        rw [List.mem_dedup, List.mem_filter, decide_eq_true_eq]
        exact hmem id

end

/-- Two runs ten minutes apart. The second commit forgets what ended before 04:00. -/
theorem seen_is_overlap_horizon_sample :
    letI := Runtime.ascii
    let st := fileStore fun _ => none
    let pass : List Json → DateTime → FileState → Pass Unit FileState :=
      fun records windowEnd found => ⟨some acceptingExporter, (),
        ⟨.default, some windowEnd, .finite 10, none⟩, ⟨records, none, none⟩, sampleEnv, found⟩
    let first := pass [sampleRecord "a" "03:51:00" "03:55:00",
      sampleRecord "b" "03:52:00" "04:02:00"]
      (sampleTime 4 0) .missing
    let second := pass [sampleRecord "c" "04:01:00" "04:05:00"] (sampleTime 4 10) (first.left st)
    committedIds st [first, second] = ["a", "b", "c"] ∧
      ∃ doc, st.persisted (second.left st) = .ok (some doc) ∧
        doc.seen.keys.Perm ["b", "c"] := by
  let := Runtime.ascii
  intro st pass first second
  let stop : String → DateTime := fun id =>
    if id = "a" then sampleTime 3 55 else if id = "b" then sampleTime 4 2 else sampleTime 4 5
  have hids : committedIds st [first, second] = ["a", "b", "c"] := by decide +kernel
  have hfirst : Follows st (.finite 10) stop .missing first (first.left st) :=
    ⟨rfl, rfl, rfl, by decide +kernel⟩
  have hsecond : Follows st (.finite 10) stop (first.left st) second (second.left st) :=
    ⟨rfl, rfl, rfl, by decide +kernel⟩
  have hsorted : [first, second].Pairwise Pass.NoLater := by
    rw [List.pairwise_pair]
    intro d e hd he
    cases hd
    cases he
    decide +kernel
  obtain ⟨doc, windowEnd, cutoff, hdoc, hwatermark, hlast, hcut, -, hkeys⟩ :=
    (seen_is_overlap_horizon st (.finite 10) stop .missing _ [first, second] rfl
      ((Run.nil.snoc hfirst).snoc hsecond) hsorted).2 ⟨first, by simp, by decide +kernel⟩
  have hend : lastEnd st [first, second] = some (sampleTime 4 10) := by decide +kernel
  rw [hend, Option.some.injEq] at hlast
  subst hlast
  have hcutoff : cutoffOf (.finite 10) (sampleTime 4 10) = .ok (sampleTime 4 0) := by decide +kernel
  rw [hcutoff, Except.ok.injEq] at hcut
  subst hcut
  have hcovered : ((["a", "b", "c"].filter fun id =>
      decide ((sampleTime 4 0).instant ≤ (stop id).instant)).dedup) =
        ["b", "c"] := by decide +kernel
  rw [hids, hcovered] at hkeys
  exact ⟨hids, doc, hdoc, hkeys⟩

end InferenceControlPlane.Sli
