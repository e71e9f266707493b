import InferenceControlPlane.Runs
import Mathlib.Data.Set.Basic
import Mathlib.Order.Defs.LinearOrder

/-!
# Pruning at growing cutoffs

Items stop at points of an order. In each round a memory takes in a batch and forgets
what stops before the cutoff of the round. As long as the cutoffs grow, the memory is
what one pruning of all batches would have left.
-/
namespace InferenceControlPlane.Pruning

/-- A batch of items, and the cutoff from which items are kept when the batch has been taken
in. -/
structure Round (ι τ : Type*) where
  cutoff : τ
  batch : Set ι

variable {ι τ : Type*} [LinearOrder τ]

/-- The items that stop at the cutoff or later. -/
def prune (stop : ι → τ) (cutoff : τ) (items : Set ι) : Set ι := {i | i ∈ items ∧ cutoff ≤ stop i}

/-- One round of a memory. -/
def Step (stop : ι → τ) (kept : Set ι) (r : Round ι τ) (kept' : Set ι) : Prop :=
  kept' = prune stop r.cutoff (kept ∪ r.batch)

/-- The items of all batches. -/
def allItems (rounds : List (Round ι τ)) : Set ι := {i | ∃ r ∈ rounds, i ∈ r.batch}

section
variable {stop : ι → τ} {kept : Set ι} {rounds : List (Round ι τ)} {r : Round ι τ}

theorem prune_union (cutoff : τ) (s t : Set ι) :
    prune stop cutoff (s ∪ t) = prune stop cutoff s ∪ prune stop cutoff t := by
  ext i
  exact or_and_right

/-- A later pruning does what an earlier one would have done. -/
theorem prune_prune {earlier later : τ} (h : earlier ≤ later) (s : Set ι) :
    prune stop later (prune stop earlier s) = prune stop later s := by
  ext i
  constructor
  · exact fun ⟨⟨hi, _⟩, hlater⟩ => ⟨hi, hlater⟩
  · exact fun ⟨hi, hlater⟩ => ⟨⟨hi, h.trans hlater⟩, hlater⟩

omit [LinearOrder τ] in
theorem allItems_concat : allItems (rounds ++ [r]) = allItems rounds ∪ r.batch := by
  ext i
  simp [allItems, or_and_right, exists_or]

/-- From the last cutoff on, repeated pruning has lost nothing. -/
theorem prune_kept (hrun : Run (Step stop) ∅ rounds kept) {cutoff : τ}
    (h : ∀ r ∈ rounds, r.cutoff ≤ cutoff) :
    prune stop cutoff kept = prune stop cutoff (allItems rounds) := by
  induction hrun with
  | nil => simp [allItems, prune]
  | @snoc rounds kept kept' r hbefore hstep ih =>
    have hr := h r (by simp)
    have hrounds := ih fun r' hr' => h r' (List.mem_append_left _ hr')
    rw [hstep, prune_prune hr, prune_union, hrounds, ← prune_union, allItems_concat]

theorem Step.pruned {kept' : Set ι} (h : Step stop kept r kept') :
    prune stop r.cutoff kept' = kept' := by
  rw [h, prune_prune le_rfl]

end
end InferenceControlPlane.Pruning
