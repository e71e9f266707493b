import Mathlib.Algebra.BigOperators.Group.List.Basic
import Mathlib.Algebra.Order.Monoid.Defs
import Mathlib.Order.Lattice

/-!
# Mergeable distributions

A histogram with numbered buckets, an overflow, running sum and count, and the
extreme values. Distributions merge bucket by bucket and form a commutative monoid,
so the summary of a list is the sum of the summaries of its values: it neither
depends on the order of the values nor on how they are split into parts.
-/
namespace InferenceControlPlane

/-- `bucket i` counts the values in the `i`-th bucket; the extremes of an empty
distribution do not exist. -/
@[ext] structure Distribution (α : Type*) where
  bucket : ℕ → ℕ
  overflow : ℕ
  sum : α
  count : ℕ
  least : Option α
  greatest : Option α

namespace Distribution
variable {α : Type*} [LinearOrder α] [AddCommMonoid α]

def empty : Distribution α := ⟨fun _ => 0, 0, 0, 0, none, none⟩

/-- One value, in its bucket or in the overflow. -/
def single (place : Option ℕ) (v : α) : Distribution α where
  bucket i := if place = some i then 1 else 0
  overflow := if place = none then 1 else 0
  sum := v
  count := 1
  least := some v
  greatest := some v

/-- Bucket-wise sum, with the combined extremes. -/
def merge (d e : Distribution α) : Distribution α where
  bucket i := d.bucket i + e.bucket i
  overflow := d.overflow + e.overflow
  sum := d.sum + e.sum
  count := d.count + e.count
  least := Option.merge min d.least e.least
  greatest := Option.merge max d.greatest e.greatest

instance : Add (Distribution α) := ⟨merge⟩
instance : Zero (Distribution α) := ⟨empty⟩

theorem merge_comm (d e : Distribution α) : d.merge e = e.merge d := by
  refine Distribution.ext ?_ (Nat.add_comm _ _) (add_comm _ _) (Nat.add_comm _ _)
    ((Option.commutative_merge min).comm d.least e.least)
    ((Option.commutative_merge max).comm d.greatest e.greatest)
  exact funext fun i => Nat.add_comm _ _

theorem merge_assoc (d e f : Distribution α) : (d.merge e).merge f = d.merge (e.merge f) := by
  refine Distribution.ext ?_ (Nat.add_assoc _ _ _) (add_assoc _ _ _) (Nat.add_assoc _ _ _)
    ((Option.associative_merge min).assoc d.least e.least f.least)
    ((Option.associative_merge max).assoc d.greatest e.greatest f.greatest)
  exact funext fun i => Nat.add_assoc _ _ _

theorem empty_merge (d : Distribution α) : empty.merge d = d := by
  refine Distribution.ext ?_ (Nat.zero_add _) (zero_add _) (Nat.zero_add _)
    Option.merge_none_left Option.merge_none_left
  exact funext fun i => Nat.zero_add _

instance : AddCommMonoid (Distribution α) where
  add_assoc := merge_assoc
  zero_add := empty_merge
  add_zero d := (merge_comm d empty).trans (empty_merge d)
  add_comm := merge_comm
  nsmul := nsmulRec

end Distribution
end InferenceControlPlane
