import InferenceControlPlane.Runs
import Mathlib.Data.List.Nodup
import Mathlib.Data.Set.Basic
import Mathlib.Order.Defs.LinearOrder

/-!
# Counting once over overlapping windows

Items occupy intervals of a linear order and are read in windows that overlap. A
memory keeps the items that may be read again, and forgets an item once it stops
before the horizon, the point from which the next window reads. An item that has
been counted is then never counted again, although only the kept items are known.
-/
namespace InferenceControlPlane.Overlap

/-- What survives from one window to the next, and the items counted so far. There
is no horizon before the first window. -/
structure Memory (ι τ : Type*) where
  horizon : Option τ
  kept : Set ι
  counted : List ι

/-- The items that a window offers, and those that it counts, which are the offered ones that the
memory does not know. -/
structure Window (ι : Type*) where
  offered : List ι
  batch : List ι

variable {ι τ : Type*} [LinearOrder τ]

def Memory.new : Memory ι τ := ⟨none, ∅, []⟩

/-- The item stops before the horizon of the memory. -/
def Memory.Past (stop : ι → τ) (m : Memory ι τ) (i : ι) : Prop :=
  ∃ h, m.horizon = some h ∧ stop i < h

/-- A memory takes in one window. -/
structure Accept (start stop : ι → τ) (m : Memory ι τ) (w : Window ι) (m' : Memory ι τ) :
    Prop where
  nodup : w.batch.Nodup
  fresh : ∀ i ∈ w.batch, i ∉ m.kept
  ordered : ∀ i ∈ w.batch, start i ≤ stop i
  inside : ∀ h, m.horizon = some h → ∀ i ∈ w.batch, h ≤ start i
  settled : ∀ i ∈ w.offered, i ∈ m.kept ∨ i ∈ w.batch
  advances : ∀ h, m.horizon = some h → ∃ h', m'.horizon = some h' ∧ h ≤ h'
  keeps : ∀ i, i ∈ m.kept ∨ i ∈ w.batch → i ∈ m'.kept ∨ m'.Past stop i
  only : ∀ i ∈ m'.kept, i ∈ m.kept ∨ i ∈ w.batch
  counts : m'.counted = m.counted ++ w.batch

/-- Each counted item is either kept or past the horizon, where no later window offers it, and
nothing but counted items is kept. -/
structure Memory.Sound (stop : ι → τ) (m : Memory ι τ) : Prop where
  nodup : m.counted.Nodup
  kept : ∀ i ∈ m.kept, i ∈ m.counted
  remembered : ∀ i ∈ m.counted, i ∈ m.kept ∨ m.Past stop i

section
variable {start stop : ι → τ} {m m' : Memory ι τ} {w : Window ι}

theorem sound_new : (Memory.new : Memory ι τ).Sound stop where
  nodup := List.nodup_nil
  kept := by simp [Memory.new]
  remembered := by simp [Memory.new]

/-- A counted item is not counted again: it is kept, or it starts too early. -/
theorem Accept.disjoint (ha : Accept start stop m w m') (hm : m.Sound stop) {i : ι}
    (hi : i ∈ w.batch) : i ∉ m.counted := by
  intro hc
  rcases hm.remembered i hc with hk | ⟨h, hh, hlt⟩
  · exact ha.fresh i hi hk
  · exact absurd (lt_of_lt_of_le hlt (ha.inside h hh i hi)) (ha.ordered i hi).not_gt

theorem Accept.past (ha : Accept start stop m w m') {i : ι} (h : m.Past stop i) :
    m'.Past stop i := by
  obtain ⟨t, ht, hlt⟩ := h
  obtain ⟨t', ht', hle⟩ := ha.advances t ht
  exact ⟨t', ht', lt_of_lt_of_le hlt hle⟩

theorem Accept.sound (ha : Accept start stop m w m') (hm : m.Sound stop) : m'.Sound stop where
  nodup := by
    rw [ha.counts, List.nodup_append']
    exact ⟨hm.nodup, ha.nodup, fun i hc hi => ha.disjoint hm hi hc⟩
  kept i hi := by
    rw [ha.counts, List.mem_append]
    exact (ha.only i hi).imp_left (hm.kept i)
  remembered i hi := by
    rw [ha.counts, List.mem_append] at hi
    rcases hi with hi | hi
    · rcases hm.remembered i hi with hk | hp
      · exact ha.keeps i (Or.inl hk)
      · exact Or.inr (ha.past hp)
    · exact ha.keeps i (Or.inr hi)

/-- What is known after any number of windows. -/
structure Counted (stop : ι → τ) (windows : List (Window ι)) (m : Memory ι τ) : Prop where
  sound : m.Sound stop
  counted_eq : m.counted = windows.flatMap Window.batch
  offered : ∀ w ∈ windows, ∀ i ∈ w.offered, i ∈ m.counted

theorem run_counted {windows : List (Window ι)}
    (hrun : Run (Accept start stop) .new windows m) : Counted stop windows m := by
  refine hrun.invariant (P := Counted stop) ⟨sound_new, rfl, by simp⟩ ?_
  intro windows m w m' h ha
  refine ⟨ha.sound h.sound, ?_, ?_⟩
  · rw [ha.counts, h.counted_eq, List.flatMap_append, List.flatMap_singleton]
  · intro v hv i hi
    rw [ha.counts, List.mem_append]
    rcases List.mem_append.mp hv with hv | hv
    · exact Or.inl (h.offered v hv i hi)
    · rw [List.mem_singleton.mp hv] at hi
      exact (ha.settled i hi).imp_left (h.sound.kept i)

/-- Over every sequence of windows an item is counted at most once, and exactly once
if some window offered it. -/
theorem counted_once [DecidableEq ι] {windows : List (Window ι)}
    (hrun : Run (Accept start stop) .new windows m) (i : ι) :
    (windows.flatMap Window.batch).count i ≤ 1 ∧
      ((∃ w ∈ windows, i ∈ w.offered) → (windows.flatMap Window.batch).count i = 1) := by
  have h := run_counted hrun
  rw [← h.counted_eq]
  refine ⟨List.nodup_iff_count_le_one.mp h.sound.nodup i, fun ⟨w, hw, hi⟩ => ?_⟩
  exact List.count_eq_one_of_mem h.sound.nodup (h.offered w hw i hi)

end
end InferenceControlPlane.Overlap
