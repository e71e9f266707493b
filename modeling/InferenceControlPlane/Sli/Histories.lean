import InferenceControlPlane.Overlap
import InferenceControlPlane.Sli.Replay

/-!
# Histories of one worker

One worker runs the command line again and again over one checkpoint store. Its runs
may fail in the source or in the main export, and the windows overlap. The runs
refine the windows of an overlap memory: the horizon is the watermark less the
overlap, and the kept items are the seen ids.
-/
namespace InferenceControlPlane.Sli
open Python

structure Invocation (ε : Type) where
  deployment : Deployment ε
  args : CliArgs
  env : Env

/-- What one invocation read, folded and delivered: the window it chose, the observations that the
source yielded and those that were folded, and whether their export was accepted. -/
structure Window where
  windowStart : DateTime
  windowEnd : DateTime
  yielded : List Observation
  folded : List Observation
  exported : Bool
  committed : Bool

namespace Window

/-- The ids by which the observations of a window are counted. -/
def ids (observations : List Observation) : List String :=
  (observations.map Observation.obsId).filter (· != "")

/-- The window as one of an overlap memory. -/
def overlap (win : Window) : Overlap.Window String :=
  ⟨ids win.yielded, win.folded.map Observation.obsId⟩

end Window

/-- The ids folded into exported windows, once for every time. -/
def exportedIds (windows : List Window) : List String :=
  (windows.filter Window.exported).flatMap fun win => win.folded.map Observation.obsId

section
variable [Runtime]

def Source.observations (source : Source) : List Observation :=
  source.records.filterMap fun raw => (parseObservation raw).toOption

theorem mem_observations {source : Source} {obs : Observation} :
    obs ∈ source.observations ↔ ∃ raw ∈ source.records, parseObservation raw = .ok obs := by
  simp only [Source.observations, List.mem_filterMap]
  refine exists_congr fun raw => and_congr_right fun _ => ?_
  cases parseObservation raw <;> simp [Except.toOption]

/-- One invocation that returned, untruncated, with no failing heartbeat and no other
writer. Its source yields records that start within the window, and each id keeps its
start and its end. -/
structure Executed {ε σ : Type} (st : CheckpointStore σ) (overlapMinutes : PyFloat)
    (start stop : String → DateTime) (inv : Invocation ε) (trace : List Effect)
    (w : World ε σ) (win : Window) (w' : World ε σ) : Prop where
  returned : ∃ code, (main inv.deployment (some st) inv.args inv.env w).1 = .ok code
  after : w' = (main inv.deployment (some st) inv.args inv.env w).2
  effects : w'.effects = w.effects ++ trace
  overlap_eq : inv.args.overlapMinutes = overlapMinutes
  end_eq : inv.args.windowEnd.resolve = .ok win.windowEnd
  start_eq : (resolveStart (some st) inv.args win.windowEnd w).1 = .ok win.windowStart
  yielded_eq : win.yielded =
    (inv.deployment.sourceOf win.windowStart win.windowEnd).observations
  folded_eq : win.folded = foldedBy st (inv.args.runArgs win.windowEnd)
    (inv.deployment.sourceOf win.windowStart win.windowEnd) inv.env
    (resolveStart (some st) inv.args win.windowEnd w).2.store
  exported_iff : win.exported = true ↔ ∃ points, (points, none) ∈ exportsOf trace
  committed_iff : win.committed = true ↔ ∃ cp, (cp, none) ∈ savesOf trace
  untruncated : (inv.deployment.sourceOf win.windowStart win.windowEnd).records.length ≤
    inv.args.maxRecords
  heartbeats : ∀ call ∈ heartbeatsOf trace, call.2 = none
  unopposed : ∀ cp, (cp, some .conflict) ∉ savesOf trace
  inside : ∀ obs ∈ win.yielded, win.windowStart.instant ≤ obs.start.instant ∧
    obs.start.instant ≤ win.windowEnd.instant
  spans : ∀ obs ∈ win.yielded, obs.obsId ≠ "" →
    obs.start = start obs.obsId ∧ obs.endTime = stop obs.obsId

/-- A step of the history. -/
def Step {ε σ : Type} (st : CheckpointStore σ) (overlapMinutes : PyFloat)
    (start stop : String → DateTime) (w : World ε σ) (win : Window) (w' : World ε σ) : Prop :=
  ∃ (inv : Invocation ε) (trace : List Effect),
    Executed st overlapMinutes start stop inv trace w win w'

/-! ## One invocation -/

/-- The store that an invocation finds and leaves: what it folded, and the checkpoint
it wrote if it exported its window. -/
structure Folded {σ : Type} (st : CheckpointStore σ) (overlapMinutes : PyFloat) (win : Window)
    (checkpoint : Option Checkpoint) (cutoff : DateTime) (before after : σ) : Prop where
  loaded : readStored (st.persisted before) = .ok checkpoint
  resumed : ∀ watermark, checkpoint.bind Checkpoint.watermark = some watermark →
    cutoffOf overlapMinutes watermark = .ok win.windowStart
  cut : cutoffOf overlapMinutes win.windowEnd = .ok cutoff
  source : ∀ obs ∈ win.folded, obs ∈ win.yielded
  nodup : (win.folded.map Observation.obsId).Nodup
  fresh : ∀ obs ∈ win.folded,
    obs.obsId ≠ "" ∧ obs.obsId ∉ (checkpoint.map Checkpoint.seen).getD .empty
  settled : ∀ obs ∈ win.yielded, obs.obsId ≠ "" → obs.obsId ∈ win.folded.map Observation.obsId ∨
    obs.obsId ∈ (checkpoint.map Checkpoint.seen).getD .empty
  committed : win.committed = win.exported
  written : win.exported = true → ∃ seen currentSeen,
    st.persisted after = .ok (some (Checkpoint.mk (some win.windowEnd) seen).stored) ∧
    pruneSeen ((checkpoint.map Checkpoint.seen).getD .empty) currentSeen cutoff = .ok seen ∧
    (∀ obs ∈ win.folded, obs.obsId ∈ seen ∨ obs.endTime.instant < cutoff.instant) ∧
    ∀ e ∈ currentSeen, ∃ obs ∈ win.folded, obs.obsId = e.1 ∧ obs.endTime = e.2
  kept : win.exported = false → st.persisted after = st.persisted before

theorem Executed.folded {ε σ : Type} {st : CheckpointStore σ} {overlapMinutes : PyFloat}
    {start stop : String → DateTime} {inv : Invocation ε} {trace : List Effect}
    {w w' : World ε σ} {win : Window}
    (h : Executed st overlapMinutes start stop inv trace w win w') :
    ∃ checkpoint cutoff,
      Folded st overlapMinutes win checkpoint cutoff w.store w'.store := by
  obtain ⟨code, hcode⟩ := h.returned
  obtain ⟨windowEnd, windowStart, result, hend, hstart, hrun, hout, _⟩ := main_ok hcode
  cases Except.ok.inj (hend.symm.trans h.end_eq)
  cases Except.ok.inj (hstart.symm.trans h.start_eq)
  obtain ⟨nominal, resume, hload, hresume, hworld⟩ := resolveStart_ok hstart
  have hfolded_eq := h.folded_eq
  have hafter := h.after.trans hout
  have heffects := h.effects
  rw [hworld] at hrun hout hafter hfolded_eq
  rw [hafter] at heffects ⊢
  obtain ⟨checkpoint, cutoff, stream, trace', htrace', _, hset⟩ := run_settled rfl hrun
  have heq : trace' = trace := List.append_cancel_left (htrace'.symm.trans heffects)
  subst heq
  -- both loads read the same document
  have hread : readStored (st.persisted w.store) = .ok checkpoint := by
    rw [← st.load_keeps w.store, ← st.load_reads]
    exact hset.loaded
  have hsame : resume = checkpoint := by
    rw [st.load_reads, hread] at hload
    exact (Except.ok.inj hload).symm
  subst hsame
  have hcomplete : stream.truncated = false := by
    rw [hset.stream_eq]
    refine streamFrom_untruncated fun limit hlimit => ?_
    cases hlimit
    have hle := h.untruncated
    simp only [StreamState.new]
    omega
  obtain ⟨read, _, hd, hall⟩ := hset.folded rfl
  rw [← hfolded_eq] at hd
  have hall := hall hcomplete
  have hbeats : ¬ FirstHeartbeatFailed trace' := by
    rintro ⟨points, e, hfirst⟩
    exact absurd (h.heartbeats _ (List.mem_of_head? hfirst)) (by simp)
  -- an accepted export is committed, and nothing else is
  have hcommit : (∃ points, (points, none) ∈ exportsOf trace') ↔
      ∃ cp, (cp, none) ∈ savesOf trace' := by
    constructor
    · rintro ⟨points, hmem⟩
      have hsource := (hset.called.mp (List.ne_nil_of_mem hmem)).2
      have hclean : ∀ call ∈ exportsOf trace', call.2 = none := by
        have hone := hset.exports
        cases hx : exportsOf trace' with
        | nil => simp
        | cons call rest =>
          rw [hx] at hmem hone
          have hrest : rest = [] := by simpa using hone
          subst hrest
          rw [List.mem_singleton] at hmem
          simp [← hmem]
      obtain ⟨⟨cp, e⟩, hsave⟩ := List.exists_mem_of_ne_nil _
        (hset.saves.mpr ⟨hsource, hcomplete, hclean, hbeats⟩)
      obtain ⟨_, _, _, _, hkind, _⟩ := hset.saved cp e hsave
      rcases hkind with rfl | rfl
      · exact ⟨cp, hsave⟩
      · exact absurd hsave (h.unopposed cp)
    · rintro ⟨cp, hsave⟩
      obtain ⟨hsource, _, hclean, _⟩ := hset.saves.mp (List.ne_nil_of_mem hsave)
      obtain ⟨⟨points, e⟩, hmem⟩ := List.exists_mem_of_ne_nil _ (hset.called.mpr ⟨rfl, hsource⟩)
      cases hclean _ hmem
      exact ⟨points, hmem⟩
  refine ⟨resume, cutoff, hread, ?_, ?_, ?_, hd.nodup, hd.fresh, ?_, ?_, ?_, ?_⟩
  · intro watermark hwm
    rw [resumeStart, hwm] at hresume
    rw [← h.overlap_eq]
    exact hresume
  · rw [← h.overlap_eq]
    exact hset.cut
  · intro obs ho
    obtain ⟨raw, hraw, hparse⟩ := hd.source obs ho
    rw [h.yielded_eq]
    exact mem_observations.mpr ⟨raw, hall ▸ hraw, hparse⟩
  · intro obs ho hid
    rw [h.yielded_eq] at ho
    obtain ⟨raw, hraw, hparse⟩ := mem_observations.mp ho
    exact hd.known _ (hd.covers raw (hall.symm ▸ hraw) obs hparse hid)
  · rw [Bool.eq_iff_iff, h.committed_iff, h.exported_iff, hcommit]
  · intro hexport
    obtain ⟨cp, hsave⟩ := hcommit.mp (h.exported_iff.mp hexport)
    obtain ⟨seen, hcp, hseen, _, _, hstored⟩ := hset.saved cp none hsave
    rw [hcp] at hstored
    have hprune := hseen
    simp only [committedSeen, hset.cut] at hprune
    refine ⟨seen, _, hstored rfl, hprune, fun obs ho => committedSeen_keeps hset.cut hd hseen ho,
      ?_⟩
    rintro ⟨id, endTime⟩ he
    exact hd.recorded id endTime (Dict.mem_entries.mp he)
  · intro hexport
    refine (hset.unsaved fun cp hsave => ?_).trans (st.load_keeps w.store)
    rw [h.exported_iff.mpr (hcommit.mpr ⟨cp, hsave⟩)] at hexport
    cases hexport

/-! ## Refinement -/

/-- The document that an overlap memory stands for: the watermark is the end of a window of the
history, and the seen map holds what the memory keeps. -/
structure Stands (overlapMinutes : PyFloat) (stop : String → DateTime) (windows : List Window)
    (doc : StoredCheckpoint) (m : Overlap.Memory String ℤ) : Prop where
  horizon : ∃ win ∈ windows, doc.watermark = some win.windowEnd.isoformat ∧
    ∃ cutoff, cutoffOf overlapMinutes win.windowEnd = .ok cutoff ∧ m.horizon = some cutoff.instant
  kept : ∀ id, id ∈ m.kept ↔ id ∈ doc.seen
  ends : ∀ id endIso, doc.seen.get? id = some endIso →
    id ≠ "" ∧ (stop id).IsUtc ∧ endIso = (stop id).isoformat

/-- The store after a history of invocations, the windows that were accepted in it, and the
overlap memory that they lead to: the simulation by which exactly-once is proved. -/
structure Refines {ε σ : Type} (st : CheckpointStore σ) (overlapMinutes : PyFloat)
    (stop : String → DateTime) (windows : List Window) (w : World ε σ)
    (accepted : List (Overlap.Window String)) (m : Overlap.Memory String ℤ) : Prop where
  accepted_eq : accepted = (windows.filter Window.exported).map Window.overlap
  committed : ∀ win ∈ windows, win.committed = win.exported
  store : (st.persisted w.store = .ok none ∧ m = .new) ∨
    ∃ doc, st.persisted w.store = .ok (some doc) ∧ Stands overlapMinutes stop windows doc m

/-- The checkpoint that a memory's document is read as. -/
lemma Stands.read {overlapMinutes : PyFloat} {stop : String → DateTime} {windows : List Window}
    {doc : StoredCheckpoint} {m : Overlap.Memory String ℤ} {checkpoint : Option Checkpoint}
    (hs : Stands overlapMinutes stop windows doc m)
    (h : readStored (.ok (some doc)) = .ok checkpoint) :
    ∃ watermark, checkpoint = some ⟨some watermark, doc.seen⟩ ∧
      ∀ windowStart, cutoffOf overlapMinutes watermark = .ok windowStart →
        m.horizon = some windowStart.instant := by
  obtain ⟨win, _, hwm, cutoff, hcut, hhorizon⟩ := hs.horizon
  simp only [readStored, StoredCheckpoint.read, hwm, parseTs_isoformat] at h
  split_ifs at h
  · cases hutc : win.windowEnd.toUtc with
    | error e =>
      rw [hutc] at h
      cases h
    | ok watermark =>
      rw [hutc] at h
      cases h
      refine ⟨watermark, rfl, fun windowStart hstart => ?_⟩
      obtain ⟨delta, hdelta, _⟩ := bind_eq_ok hcut
      rw [hhorizon, instant_cutoffOf hdelta hcut, instant_cutoffOf hdelta hstart,
        (DateTime.toUtc_spec hutc).1]
  · cases h

/-- What an invocation that resumes from a checkpoint knows of the history: the ids that the
memory keeps, and the ends that it has for them. -/
structure Prior (stop : String → DateTime) (win : Window) (cutoff : DateTime)
    (prior : Dict String String) (m : Overlap.Memory String ℤ) : Prop where
  kept : ∀ id, id ∈ m.kept ↔ id ∈ prior
  ends : ∀ id endIso, prior.get? id = some endIso →
    id ≠ "" ∧ (stop id).IsUtc ∧ endIso = (stop id).isoformat
  horizon : ∀ h, m.horizon = some h → h = win.windowStart.instant ∧ h ≤ cutoff.instant

section
variable {ε σ : Type} {st : CheckpointStore σ} {overlapMinutes : PyFloat}
  {start stop : String → DateTime} {w w' : World ε σ} {win : Window}
  {checkpoint : Option Checkpoint} {cutoff : DateTime} {windows : List Window}
  {accepted : List (Overlap.Window String)} {m : Overlap.Memory String ℤ}

lemma Folded.prior (hf : Folded st overlapMinutes win checkpoint cutoff w.store w'.store)
    (hr : Refines st overlapMinutes stop windows w accepted m)
    (hsorted : ∀ earlier ∈ windows, earlier.windowEnd.instant ≤ win.windowEnd.instant) :
    Prior stop win cutoff ((checkpoint.map Checkpoint.seen).getD .empty) m := by
  have hread := hf.loaded
  rcases hr.store with ⟨hnone, rfl⟩ | ⟨doc, hdoc, hs⟩
  · rw [hnone] at hread
    cases hread
    exact ⟨by simp [Overlap.Memory.new], by simp, by simp [Overlap.Memory.new]⟩
  · rw [hdoc] at hread
    obtain ⟨watermark, rfl, hstart⟩ := hs.read hread
    refine ⟨hs.kept, hs.ends, fun h hh => ?_⟩
    obtain ⟨earlier, hmem, _, cutoff', hcut', hhorizon⟩ := hs.horizon
    obtain ⟨delta, hdelta, _⟩ := bind_eq_ok hcut'
    have hle := hsorted earlier hmem
    rw [hstart _ (hf.resumed watermark rfl), Option.some.injEq] at hh
    rw [hstart _ (hf.resumed watermark rfl), Option.some.injEq, instant_cutoffOf hdelta hcut']
      at hhorizon
    rw [instant_cutoffOf hdelta hf.cut]
    omega

/-- An exported window is a window of the overlap memory: what the checkpoint remembers and
forgets is what the memory does. -/
theorem Folded.accept (hf : Folded st overlapMinutes win checkpoint cutoff w.store w'.store)
    (hinside : ∀ obs ∈ win.yielded, win.windowStart.instant ≤ obs.start.instant)
    (hspans : ∀ obs ∈ win.yielded, obs.obsId ≠ "" →
      obs.start = start obs.obsId ∧ obs.endTime = stop obs.obsId)
    (hr : Refines st overlapMinutes stop windows w accepted m)
    (hsorted : ∀ earlier ∈ windows, earlier.windowEnd.instant ≤ win.windowEnd.instant)
    (hexport : win.exported = true) :
    ∃ m', Overlap.Accept (fun id => (start id).instant) (fun id => (stop id).instant) m
        win.overlap m' ∧
      Refines st overlapMinutes stop (windows ++ [win]) w' (accepted ++ [win.overlap]) m' := by
  obtain ⟨seen, currentSeen, hstored, hprune, hkeeps, hcurrent⟩ := hf.written hexport
  have hprior := hf.prior hr hsorted
  have hspan : ∀ obs ∈ win.folded, obs.start = start obs.obsId ∧ obs.endTime = stop obs.obsId :=
    fun obs ho => hspans obs (hf.source obs ho) (hf.fresh obs ho).1
  refine ⟨⟨some cutoff.instant, {id | id ∈ seen}, m.counted ++ win.folded.map Observation.obsId⟩,
    ⟨hf.nodup, ?_, ?_, ?_, ?_, ?_, ?_, ?_, rfl⟩, ?_, ?_,
      Or.inr ⟨_, hstored, ?_, fun _ => Iff.rfl, ?_⟩⟩
  · intro id hid hk
    obtain ⟨obs, ho, rfl⟩ := List.mem_map.mp hid
    exact (hf.fresh obs ho).2 ((hprior.kept _).mp hk)
  · intro id hid
    obtain ⟨obs, ho, rfl⟩ := List.mem_map.mp hid
    obtain ⟨h1, h2⟩ := hspan obs ho
    simpa only [← h1, ← h2] using obs.ordered
  · intro h hh id hid
    obtain ⟨obs, ho, rfl⟩ := List.mem_map.mp hid
    simp only [(hprior.horizon h hh).1, ← (hspan obs ho).1]
    exact hinside obs (hf.source obs ho)
  · intro id hid
    obtain ⟨hmem, hne⟩ := List.mem_filter.mp hid
    obtain ⟨obs, ho, rfl⟩ := List.mem_map.mp hmem
    rw [hprior.kept]
    exact (hf.settled obs ho (by simpa using hne)).symm
  · exact fun h hh => ⟨_, rfl, (hprior.horizon h hh).2⟩
  · rintro id (hk | hid)
    · -- a prior id is kept unless it ended before the new cutoff
      obtain ⟨endIso, hend⟩ := Dict.mem_iff_get?.mp ((hprior.kept id).mp hk)
      obtain ⟨hne, hutc, rfl⟩ := hprior.ends id endIso hend
      rcases lt_or_ge (stop id).instant cutoff.instant with hlt | hge
      · exact Or.inr ⟨_, rfl, hlt⟩
      · exact Or.inl (pruneSeen_prior hprune hend ((keepPrior_isoformat hne hutc).mpr hge))
    · obtain ⟨obs, ho, rfl⟩ := List.mem_map.mp hid
      refine (hkeeps obs ho).imp_right fun hlt => ⟨_, rfl, ?_⟩
      simpa only [← (hspan obs ho).2] using hlt
  · intro id hid
    obtain ⟨endIso, hend⟩ := Dict.mem_iff_get?.mp hid
    rcases pruneSeen_get? hprune hend with ⟨endTime, hmem, -, -⟩ | ⟨hold, -⟩
    · obtain ⟨obs, ho, hobs, _⟩ := hcurrent _ hmem
      exact Or.inr (List.mem_map.mpr ⟨obs, ho, hobs⟩)
    · exact Or.inl ((hprior.kept id).mpr (Dict.mem_of_get? hold))
  · rw [hr.accepted_eq, List.filter_append, List.map_append, List.filter_singleton, hexport]
    rfl
  · intro v hv
    rcases List.mem_append.mp hv with hv | hv
    · exact hr.committed v hv
    · rw [List.mem_singleton.mp hv]
      exact hf.committed
  · exact ⟨win, by simp, rfl, cutoff, hf.cut, rfl⟩
  · intro id endIso hend
    rcases pruneSeen_get? hprune hend with ⟨endTime, hmem, -, rfl⟩ | ⟨hold, -⟩
    · obtain ⟨obs, ho, rfl, rfl⟩ := hcurrent _ hmem
      rw [← (hspan obs ho).2]
      exact ⟨(hf.fresh obs ho).1, obs.end_utc, rfl⟩
    · exact hprior.ends id endIso hold

/-- A window that was not exported leaves the memory alone, so that its records are still to be
exported. -/
theorem Folded.skip (hf : Folded st overlapMinutes win checkpoint cutoff w.store w'.store)
    (hr : Refines st overlapMinutes stop windows w accepted m) (hexport : win.exported = false) :
    Refines st overlapMinutes stop (windows ++ [win]) w' accepted m where
  accepted_eq := by
    rw [hr.accepted_eq, List.filter_append, List.filter_singleton, hexport]
    simp
  committed v hv := by
    rcases List.mem_append.mp hv with hv | hv
    · exact hr.committed v hv
    · rw [List.mem_singleton.mp hv]
      exact hf.committed
  store := by
    rw [hf.kept hexport]
    refine hr.store.imp_right fun ⟨doc, hdoc, hs⟩ => ⟨doc, hdoc, ?_, hs.kept, hs.ends⟩
    obtain ⟨earlier, hmem, hrest⟩ := hs.horizon
    exact ⟨earlier, List.mem_append_left _ hmem, hrest⟩

end

/-! ## Exactly once -/

/-- Over every history of one worker that starts from an empty store, with
non-decreasing window ends, an observation id is folded into exported windows at most
once, and exactly once if a committed run yielded it. -/
theorem observation_exported_once {ε σ : Type} (st : CheckpointStore σ) (overlapMinutes : PyFloat)
    (start stop : String → DateTime) (w w' : World ε σ) (windows : List Window)
    (hempty : st.persisted w.store = .ok none)
    (hrun : Run (Step st overlapMinutes start stop) w windows w')
    (hsorted : windows.Pairwise fun a b => a.windowEnd.instant ≤ b.windowEnd.instant)
    (id : String) :
    (exportedIds windows).count id ≤ 1 ∧
      ((∃ win ∈ windows, win.committed = true ∧ id ∈ Window.ids win.yielded) →
        (exportedIds windows).count id = 1) := by
  have hearlier : ∀ (labels : List Window) (a : Window),
      (labels ++ [a]).Pairwise (fun a b => a.windowEnd.instant ≤ b.windowEnd.instant) →
      labels.Pairwise fun a b => a.windowEnd.instant ≤ b.windowEnd.instant :=
    fun labels a h => (List.pairwise_append.mp h).1
  obtain ⟨accepted, m, hmatched, hr⟩ : ∃ accepted m, Run
      (Overlap.Accept (fun id => (start id).instant) fun id => (stop id).instant) .new accepted m ∧
      Refines st overlapMinutes stop windows w' accepted m := Run.simulation
    (R := Refines st overlapMinutes stop) hearlier hrun hsorted
    (⟨rfl, by simp, Or.inl ⟨hempty, rfl⟩⟩ : Refines st overlapMinutes stop [] w [] .new) (by
      rintro windows w win w' accepted m hadm hr ⟨inv, trace, hexec⟩
      obtain ⟨checkpoint, cutoff, hf⟩ := hexec.folded
      cases hexport : win.exported with
      | false => exact Or.inl (hf.skip hr hexport)
      | true =>
        have hends := fun earlier hmem =>
          (List.pairwise_append.mp hadm).2.2 earlier hmem win (List.mem_singleton_self win)
        obtain ⟨m', haccept, hr'⟩ := hf.accept (fun obs ho => (hexec.inside obs ho).1) hexec.spans
          hr hends hexport
        exact Or.inr ⟨_, m', haccept, hr'⟩)
  have honce := Overlap.counted_once hmatched id
  have hids : accepted.flatMap Overlap.Window.batch = exportedIds windows := by
    rw [hr.accepted_eq, List.flatMap_map]
    rfl
  rw [hids] at honce
  refine ⟨honce.1, fun ⟨win, hwin, hcommit, hid⟩ => honce.2 ⟨win.overlap, ?_, hid⟩⟩
  rw [hr.accepted_eq]
  exact List.mem_map.mpr ⟨win, List.mem_filter.mpr
    ⟨hwin, (hr.committed win hwin).symm.trans hcommit⟩, rfl⟩

/-! ## A history of two runs -/

/-- The window of an invocation that delivers everything. -/
def Invocation.window {ε σ : Type} (inv : Invocation ε) (st : CheckpointStore σ) (w : World ε σ)
    (windowStart windowEnd : DateTime) : Window where
  windowStart := windowStart
  windowEnd := windowEnd
  yielded := (inv.deployment.sourceOf windowStart windowEnd).observations
  folded := foldedBy st (inv.args.runArgs windowEnd)
    (inv.deployment.sourceOf windowStart windowEnd) inv.env
    (resolveStart (some st) inv.args windowEnd w).2.store
  exported := true
  committed := true

/-- An invocation that delivered everything is a step. -/
lemma step_of_clean {ε σ : Type} {st : CheckpointStore σ} {start stop : String → DateTime}
    {w w' : World ε σ} (inv : Invocation ε) {windowStart windowEnd : DateTime} {trace : List Effect}
    (hmain : w' = (main inv.deployment (some st) inv.args inv.env w).2)
    (htrace : trace = w'.effects.drop w.effects.length)
    (hok : (main inv.deployment (some st) inv.args inv.env w).1.isOk = true)
    (hend : inv.args.windowEnd.resolve = .ok windowEnd)
    (hstart : (resolveStart (some st) inv.args windowEnd w).1 = .ok windowStart)
    (hexports : (exportsOf trace).map Prod.snd = [none])
    (hsaves : (savesOf trace).map Prod.snd = [none])
    (hbeats : (heartbeatsOf trace).all (·.2.isNone) = true)
    (hlimit : (inv.deployment.sourceOf windowStart windowEnd).records.length ≤ inv.args.maxRecords)
    (hinside : ∀ obs ∈ (inv.deployment.sourceOf windowStart windowEnd).observations,
      windowStart.instant ≤ obs.start.instant ∧ obs.start.instant ≤ windowEnd.instant)
    (hspans : ∀ obs ∈ (inv.deployment.sourceOf windowStart windowEnd).observations,
      obs.obsId ≠ "" → obs.start = start obs.obsId ∧ obs.endTime = stop obs.obsId) :
    Step st inv.args.overlapMinutes start stop w (inv.window st w windowStart windowEnd) w' := by
  obtain ⟨code, hcode⟩ := exists_ok_of_isOk hok
  obtain ⟨more, hmore⟩ := main_trace hcode
  obtain ⟨⟨points, e⟩, hpoints, rfl⟩ := List.map_eq_singleton_iff.mp hexports
  obtain ⟨⟨cp, e⟩, hcp, rfl⟩ := List.map_eq_singleton_iff.mp hsaves
  refine ⟨inv, trace, ⟨code, hcode⟩, hmain, ?_, rfl, hend, hstart, rfl, rfl, ?_, ?_, hlimit, ?_, ?_,
    hinside, hspans⟩
  · rw [htrace, hmain, hmore, List.drop_left]
  · exact ⟨fun _ => ⟨points, by simp [hpoints]⟩, fun _ => rfl⟩
  · exact ⟨fun _ => ⟨cp, by simp [hcp]⟩, fun _ => rfl⟩
  · intro call hcall
    simpa using List.all_eq_true.mp hbeats call hcall
  · simp [hcp]

end

/-- The overlap of the second window yields the record of the first again. -/
theorem observation_exported_once_sample :
    letI := Runtime.ascii
    let a := sampleRecord "a" "03:52:00" "03:55:00"
    let b := sampleRecord "b" "04:10:00" "04:20:00"
    let deployment : Deployment Unit := ⟨fun _ windowEnd =>
      ⟨if windowEnd = sampleTime 4 0 then [a] else [b, a], none, none⟩,
        fun _ _ => acceptingExporter⟩
    let invocation : DateTime → Invocation Unit := fun windowEnd => ⟨deployment,
      ⟨.explicit windowEnd, 60, .finite 10, 100, by decide, by decide, by decide⟩, sampleEnv⟩
    let st := fileStore fun _ => none
    let w : World Unit FileState := ⟨(), .missing, []⟩
    let w₁ := (main deployment (some st) (invocation (sampleTime 4 0)).args sampleEnv w).2
    let windows := [(invocation (sampleTime 4 0)).window st w (sampleTime 3 0) (sampleTime 4 0),
      (invocation (sampleTime 5 0)).window st w₁ (sampleTime 3 50) (sampleTime 5 0)]
    (exportedIds windows).count "a" = 1 := by
  let := Runtime.ascii
  intro a b deployment invocation st w w₁ windows
  let start : String → DateTime := fun id => if id = "a" then sampleTime 3 52 else sampleTime 4 10
  let stop : String → DateTime := fun id => if id = "a" then sampleTime 3 55 else sampleTime 4 20
  have h1 : Step st (.finite 10) start stop w
      ((invocation (sampleTime 4 0)).window st w (sampleTime 3 0) (sampleTime 4 0)) w₁ :=
    step_of_clean (invocation (sampleTime 4 0)) rfl rfl (by decide +kernel) rfl
      (by decide +kernel) (by decide +kernel) (by decide +kernel) (by decide +kernel)
      (by decide +kernel) (by decide +kernel) (by decide +kernel)
  have h2 : Step st (.finite 10) start stop w₁
      ((invocation (sampleTime 5 0)).window st w₁ (sampleTime 3 50) (sampleTime 5 0))
      (main deployment (some st) (invocation (sampleTime 5 0)).args sampleEnv w₁).2 :=
    step_of_clean (invocation (sampleTime 5 0)) rfl rfl (by decide +kernel) rfl
      (by decide +kernel) (by decide +kernel) (by decide +kernel) (by decide +kernel)
      (by decide +kernel) (by decide +kernel) (by decide +kernel)
  refine (observation_exported_once st (.finite 10) start stop w _ windows rfl
    ((Run.nil.snoc h1).snoc h2) ?_ "a").2 ⟨_, List.mem_cons_self, rfl, ?_⟩
  · simp only [windows, List.pairwise_cons, List.mem_singleton, forall_eq]
    exact ⟨by decide +kernel, by simp, List.Pairwise.nil⟩
  · decide +kernel

end InferenceControlPlane.Sli
