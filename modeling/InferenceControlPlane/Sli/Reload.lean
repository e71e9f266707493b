import InferenceControlPlane.Sli.Replay

/-!
# Loading what was saved

A store writes the watermark by `isoformat`, and loads it by the strict timestamp
reader. The reader refuses an offset with seconds and cannot hold every instant in UTC,
so a saved checkpoint loads back exactly when the window end has neither defect.
-/
namespace InferenceControlPlane.Sli
open Python

/-- The offset is a whole number of minutes, and the instant has a datetime in UTC. -/
def Reloadable (d : DateTime) : Prop :=
  d.offset % minuteMicros = 0 ∧ 0 ≤ d.instant ∧ d.instant < maxWall

instance (d : DateTime) : Decidable (Reloadable d) :=
  inferInstanceAs (Decidable (_ ∧ _ ∧ _))

theorem reloadable_of_isUtc {d : DateTime} (h : d.IsUtc) : Reloadable d := by
  have hinstant := DateTime.instant_of_isUtc h
  refine ⟨?_, hinstant ▸ d.wall_nonneg, hinstant ▸ d.wall_lt⟩
  rw [h]
  rfl

/-- The default window end is in UTC. -/
theorem reloadable_of_clock {now windowEnd : DateTime} {graceMinutes : PyFloat} (hnow : now.IsUtc)
    (h : (WindowEnd.clock now graceMinutes).resolve = .ok windowEnd) : Reloadable windowEnd := by
  obtain ⟨delta, -, hsub⟩ := bind_eq_ok h
  exact reloadable_of_isUtc (DateTime.isUtc_sub hnow hsub)

section
variable [Runtime]

/-- A printed timestamp is read back as the same instant exactly when it is reloadable. -/
theorem parseTs_isoformat_iff (d : DateTime) :
    (∃ u, parseTs (.str d.isoformat) = .ok (some u) ∧ u.instant = d.instant) ↔ Reloadable d := by
  rw [parseTs_isoformat]
  constructor
  · intro h
    obtain ⟨u, hread, -⟩ := h
    split_ifs at hread with hoffset
    refine ⟨hoffset, ?_⟩
    by_contra hrange
    have hutc : d.toUtc = .error .overflowError := dif_neg hrange
    rw [hutc] at hread
    cases hread
  · intro h
    obtain ⟨hoffset, hrange⟩ := h
    obtain ⟨u, hu, hinstant⟩ := DateTime.exists_utc hrange.1 hrange.2
    have hutc : d.toUtc = .ok u := DateTime.toUtc_eq_ok.mpr ⟨hu, hinstant⟩
    rw [if_pos hoffset, hutc]
    exact ⟨u, rfl, hinstant⟩

/-- What a load returns after the save of a checkpoint: the same watermark instant and
the same seen map. -/
def LoadsBack {σ : Type} (store : CheckpointStore σ) (state : σ) (cp : Checkpoint) : Prop :=
  ∃ loaded, (store.load (store.save state cp).2).1 = .ok (some loaded) ∧
    loaded.watermark.map DateTime.instant = cp.watermark.map DateTime.instant ∧
    loaded.seen = cp.seen

/-- The round trip through any store that accepted the checkpoint: it succeeds exactly where the
text of the watermark reads back. -/
theorem loadsBack_iff {σ : Type} (store : CheckpointStore σ) {state : σ} {windowEnd : DateTime}
    {seen : Dict String String} (h : (store.save state ⟨some windowEnd, seen⟩).1 = .ok ()) :
    LoadsBack store state ⟨some windowEnd, seen⟩ ↔ Reloadable windowEnd := by
  rw [← parseTs_isoformat_iff, LoadsBack, store.load_reads, store.save_writes _ _ h]
  rw [readStored_stored]
  constructor
  · intro hback
    obtain ⟨loaded, hloaded, hwatermark, -⟩ := hback
    cases hts : parseTs (.str windowEnd.isoformat) with
    | error e =>
      rw [hts] at hloaded
      cases hloaded
    | ok watermark =>
      rw [hts] at hloaded
      cases hloaded
      obtain ⟨u, rfl, hu⟩ := Option.map_eq_some_iff.mp hwatermark
      exact ⟨u, rfl, hu⟩
  · intro hts
    obtain ⟨u, hu, hinstant⟩ := hts
    refine ⟨⟨some u, seen⟩, by rw [hu]; rfl, ?_, rfl⟩
    simp only [Option.map_some, hinstant]

/-- Through the file and through the table alike, a saved checkpoint loads back with the
same watermark instant and the same seen map exactly when the window end is reloadable;
the default window end always is. -/
theorem checkpoint_loads_back_iff (windowEnd : DateTime) (seen : Dict String String) :
    (∀ fault state, ((fileStore fault).save state ⟨some windowEnd, seen⟩).1 = .ok () →
      (LoadsBack (fileStore fault) state ⟨some windowEnd, seen⟩ ↔ Reloadable windowEnd)) ∧
    (∀ state, (dynamoStore.save state ⟨some windowEnd, seen⟩).1 = .ok () →
      (LoadsBack dynamoStore state ⟨some windowEnd, seen⟩ ↔ Reloadable windowEnd)) ∧
    ∀ now graceMinutes, now.IsUtc →
      (WindowEnd.clock now graceMinutes).resolve = .ok windowEnd → Reloadable windowEnd :=
  ⟨fun fault _ h => loadsBack_iff (fileStore fault) h, fun _ h => loadsBack_iff dynamoStore h,
    fun _ _ hnow h => reloadable_of_clock hnow h⟩

end

/-- A window end in UTC loads back from the file and from the table. -/
theorem checkpoint_loads_back_sample :
    letI := Runtime.ascii
    let cp : Checkpoint := ⟨some (sampleTime 4 0), Dict.ofList [("a", "2024-01-02T03:55:00+00:00")]⟩
    LoadsBack (fileStore fun _ => none) .missing cp ∧ LoadsBack dynamoStore ⟨none, 0⟩ cp ∧
      Reloadable (sampleTime 4 0) := by
  let := Runtime.ascii
  obtain ⟨hfile, htable, hclock⟩ := checkpoint_loads_back_iff (sampleTime 4 0)
    (Dict.ofList [("a", "2024-01-02T03:55:00+00:00")])
  have hend := hclock (sampleTime 4 10) (.finite 10) rfl (by decide +kernel)
  exact ⟨(hfile (fun _ => none) .missing rfl).mpr hend, (htable ⟨none, 0⟩ rfl).mpr hend, hend⟩

/-! ## An offset with seconds -/

lemma oddOffset_gt : -dayMicros < 19815 * secondMicros := by decide

lemma oddOffset_lt : 19815 * secondMicros < dayMicros := by decide

lemma oddWall_nonneg : 0 ≤ 738886 * dayMicros + 4 * hourMicros := by decide

lemma oddWall_lt : 738886 * dayMicros + 4 * hourMicros < maxWall := by decide

/-- `2024-01-02T04:00:00+05:30:15`. -/
def oddTime : DateTime where
  wall := 738886 * dayMicros + 4 * hourMicros
  offset := 19815 * secondMicros
  wall_nonneg := oddWall_nonneg
  wall_lt := oddWall_lt
  offset_gt := oddOffset_gt
  offset_lt := oddOffset_lt

/-- A watermark with seconds in its offset: both stores accept the checkpoint, and no later load
reads it, because the format of the parser has no such offsets. -/
theorem odd_checkpoint_lost :
    letI := Runtime.ascii
    let cp : Checkpoint := ⟨some oddTime, .empty⟩
    oddTime.isoformat = "2024-01-02T04:00:00+05:30:15" ∧
      ((fileStore fun _ => none).save .missing cp).1 = .ok () ∧
      ¬LoadsBack (fileStore fun _ => none) .missing cp ∧
      (dynamoStore.save ⟨none, 0⟩ cp).1 = .ok () ∧ ¬LoadsBack dynamoStore ⟨none, 0⟩ cp := by
  let := Runtime.ascii
  have hend : ¬Reloadable oddTime := by decide
  exact ⟨by decide +kernel, rfl, fun h => hend ((loadsBack_iff _ rfl).mp h), rfl,
    fun h => hend ((loadsBack_iff _ rfl).mp h)⟩

end InferenceControlPlane.Sli
