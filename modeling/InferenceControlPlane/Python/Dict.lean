import Mathlib.Data.List.Induction
import Mathlib.Data.List.Nodup
import Mathlib.Algebra.BigOperators.Group.List.Basic
import Mathlib.Tactic.Abel
import Mathlib.Tactic.Common

/-!
# Insertion-ordered dictionaries

A Python `dict` keeps one entry per key, in the order in which the keys were
first assigned. Assigning to a present key replaces its value in place. The
duplicate-free invariant is a field, so lookups never depend on entry order.
-/
namespace InferenceControlPlane.Python

structure Dict (κ ν : Type*) where
  entries : List (κ × ν)
  nodup : (entries.map Prod.fst).Nodup
  deriving DecidableEq

/-- `entries[k] = v` on the underlying list. -/
def insertEntry {κ ν : Type*} [DecidableEq κ] (k : κ) (v : ν) : List (κ × ν) → List (κ × ν)
  | [] => [(k, v)]
  | e :: es => if e.1 = k then (k, v) :: es else e :: insertEntry k v es

def lookupEntry {κ ν : Type*} [DecidableEq κ] (k : κ) : List (κ × ν) → Option ν
  | [] => none
  | e :: es => if e.1 = k then some e.2 else lookupEntry k es

section Entries
variable {κ ν : Type*} [DecidableEq κ]

theorem keys_insertEntry (k : κ) (v : ν) (es : List (κ × ν)) :
    (insertEntry k v es).map Prod.fst =
      if k ∈ es.map Prod.fst then es.map Prod.fst else es.map Prod.fst ++ [k] := by
  induction es with
  | nil => simp [insertEntry]
  | cons e es ih =>
    by_cases he : e.1 = k
    · simp [insertEntry, he]
    · simp only [insertEntry, if_neg he, List.map_cons, ih, List.mem_cons, Ne.symm he, false_or]
      split_ifs <;> simp

/-- A new key is added at the end. -/
theorem insertEntry_of_notMem {k : κ} (v : ν) {es : List (κ × ν)} (h : k ∉ es.map Prod.fst) :
    insertEntry k v es = es ++ [(k, v)] := by
  induction es with
  | nil => rfl
  | cons e es ih =>
    rw [List.map_cons, List.mem_cons, not_or] at h
    rw [insertEntry, if_neg (Ne.symm h.1), ih h.2, List.cons_append]

theorem lookupEntry_insertEntry (k j : κ) (v : ν) (es : List (κ × ν)) :
    lookupEntry j (insertEntry k v es) = if k = j then some v else lookupEntry j es := by
  induction es with
  | nil => simp [insertEntry, lookupEntry]
  | cons e es ih =>
    by_cases he : e.1 = k
    · by_cases hj : k = j <;> simp [insertEntry, lookupEntry, he, hj]
    · by_cases hj : e.1 = j
      · have hkj : k ≠ j := fun h => he (hj.trans h.symm)
        rw [insertEntry, if_neg he]
        simp [lookupEntry, hj, hkj]
      · simp [insertEntry, lookupEntry, he, hj, ih]

theorem lookupEntry_eq_some {k : κ} {v : ν} {es : List (κ × ν)}
    (h : lookupEntry k es = some v) : (k, v) ∈ es := by
  induction es with
  | nil => simp [lookupEntry] at h
  | cons e es ih =>
    by_cases he : e.1 = k
    · simp only [lookupEntry, if_pos he, Option.some.injEq] at h
      rw [← he, ← h]
      exact List.mem_cons_self
    · simp only [lookupEntry, if_neg he] at h
      exact List.mem_cons_of_mem _ (ih h)

theorem lookupEntry_of_mem {k : κ} {v : ν} {es : List (κ × ν)}
    (hn : (es.map Prod.fst).Nodup) (h : (k, v) ∈ es) : lookupEntry k es = some v := by
  induction es with
  | nil => cases h
  | cons e es ih =>
    simp only [List.map_cons, List.nodup_cons] at hn
    rcases List.mem_cons.mp h with rfl | hm
    · simp [lookupEntry]
    · have hne : e.1 ≠ k := fun he => hn.1 (he ▸ List.mem_map.mpr ⟨_, hm, rfl⟩)
      simp [lookupEntry, hne, ih hn.2 hm]

theorem lookupEntry_eq_none {k : κ} {es : List (κ × ν)} :
    lookupEntry k es = none ↔ k ∉ es.map Prod.fst := by
  induction es with
  | nil => simp [lookupEntry]
  | cons e es ih =>
    by_cases he : e.1 = k
    · simp [lookupEntry, he]
    · simp only [lookupEntry, if_neg he, ih, List.map_cons, List.mem_cons, Ne.symm he, false_or]

end Entries

namespace Dict

variable {κ ν μ : Type*}

def empty : Dict κ ν := ⟨[], List.nodup_nil⟩

def keys (d : Dict κ ν) : List κ := d.entries.map Prod.fst

instance : Membership κ (Dict κ ν) := ⟨fun d k => k ∈ d.keys⟩

theorem mem_def {d : Dict κ ν} {k : κ} : k ∈ d ↔ k ∈ d.keys := Iff.rfl

instance [DecidableEq κ] (d : Dict κ ν) (k : κ) : Decidable (k ∈ d) :=
  inferInstanceAs (Decidable (k ∈ d.keys))

variable [DecidableEq κ]

/-- `d.get(k)`. -/
def get? (d : Dict κ ν) (k : κ) : Option ν := lookupEntry k d.entries

/-- `d.get(k, dflt)`. -/
def getD (d : Dict κ ν) (k : κ) (dflt : ν) : ν := (d.get? k).getD dflt

/-- `d[k] = v`. -/
def set (d : Dict κ ν) (k : κ) (v : ν) : Dict κ ν where
  entries := insertEntry k v d.entries
  nodup := by
    rw [keys_insertEntry]
    split_ifs with h
    · exact d.nodup
    · exact List.nodup_append.mpr ⟨d.nodup, List.nodup_singleton k, by
        intro a ha b hb hab
        rw [List.mem_singleton] at hb
        exact h (hb ▸ hab ▸ ha)⟩

/-- `d[k] = f(d[k])` on a `defaultdict` whose factory returns `dflt`. -/
def modify (d : Dict κ ν) (k : κ) (dflt : ν) (f : ν → ν) : Dict κ ν :=
  d.set k (f (d.getD k dflt))

/-- Assign every pair of a list, in order. -/
def update (d : Dict κ ν) (es : List (κ × ν)) : Dict κ ν :=
  es.foldl (fun d e => d.set e.1 e.2) d

def ofList (es : List (κ × ν)) : Dict κ ν := empty.update es

@[simp] theorem get?_empty (k : κ) : (empty : Dict κ ν).get? k = none := rfl

@[simp] theorem get?_set (d : Dict κ ν) (k j : κ) (v : ν) :
    (d.set k v).get? j = if k = j then some v else d.get? j :=
  lookupEntry_insertEntry k j v d.entries

theorem keys_set (d : Dict κ ν) (k : κ) (v : ν) :
    (d.set k v).keys = if k ∈ d then d.keys else d.keys ++ [k] :=
  keys_insertEntry k v d.entries

omit [DecidableEq κ] in
@[simp] theorem not_mem_empty (k : κ) : k ∉ (empty : Dict κ ν) := by
  simp [mem_def, keys, empty]

@[simp] theorem mem_set (d : Dict κ ν) (k j : κ) (v : ν) :
    j ∈ d.set k v ↔ j = k ∨ j ∈ d := by
  rw [mem_def, keys_set]
  split_ifs with h
  · constructor
    · exact Or.inr
    · rintro (rfl | hj)
      · exact h
      · exact hj
  · simp [mem_def, or_comm]

theorem get?_eq_none {d : Dict κ ν} {k : κ} : d.get? k = none ↔ k ∉ d :=
  lookupEntry_eq_none

theorem mem_entries {d : Dict κ ν} {k : κ} {v : ν} : (k, v) ∈ d.entries ↔ d.get? k = some v :=
  ⟨lookupEntry_of_mem d.nodup, lookupEntry_eq_some⟩

theorem mem_iff_get? {d : Dict κ ν} {k : κ} : k ∈ d ↔ ∃ v, d.get? k = some v := by
  rw [← Option.ne_none_iff_exists', Ne, get?_eq_none, not_not]

theorem mem_of_get? {d : Dict κ ν} {k : κ} {v : ν} (h : d.get? k = some v) : k ∈ d :=
  mem_iff_get?.mpr ⟨v, h⟩

/-- Reading back an updated dictionary: the last pair for a key wins, and a key
without a pair keeps its old value. -/
theorem get?_update (d : Dict κ ν) (es : List (κ × ν)) (k : κ) :
    (d.update es).get? k = (lookupEntry k es.reverse).or (d.get? k) := by
  induction es using List.reverseRecOn with
  | nil => simp [update, lookupEntry]
  | append_singleton es e ih =>
    simp only [update, List.foldl_append, List.foldl_cons, List.foldl_nil, get?_set,
      List.reverse_append, List.reverse_cons, List.reverse_nil, List.nil_append,
      List.cons_append, lookupEntry] at ih ⊢
    split_ifs
    · rfl
    · exact ih

theorem mem_of_get?_update {d : Dict κ ν} {es : List (κ × ν)} {k : κ} {v : ν}
    (h : (d.update es).get? k = some v) : (k, v) ∈ es ∨ d.get? k = some v := by
  rw [get?_update, Option.or_eq_some_iff] at h
  rcases h with h | ⟨_, h⟩
  · exact Or.inl (List.mem_reverse.mp (lookupEntry_eq_some h))
  · exact Or.inr h

@[simp] theorem mem_update (d : Dict κ ν) (es : List (κ × ν)) (k : κ) :
    k ∈ d.update es ↔ k ∈ es.map Prod.fst ∨ k ∈ d := by
  induction es using List.reverseRecOn with
  | nil => simp [update]
  | append_singleton es e ih =>
    simp only [update, List.foldl_append, List.foldl_cons, List.foldl_nil, mem_set,
      List.map_append, List.map_cons, List.map_nil, List.mem_append, List.mem_singleton] at ih ⊢
    rw [ih]
    tauto

/-- Assigning distinct keys to an empty dictionary lists them in order: the dictionary is the list
of its assignments. -/
theorem entries_ofList {es : List (κ × ν)} (h : (es.map Prod.fst).Nodup) :
    (ofList es).entries = es := by
  induction es using List.reverseRecOn with
  | nil => rfl
  | append_singleton es e ih =>
    rw [List.map_append, List.map_singleton] at h
    have hsplit := List.nodup_append.mp h
    have hnew : e.1 ∉ es.map Prod.fst := fun hmem => hsplit.2.2 _ hmem _ (by simp) rfl
    have hset : ∀ d : Dict κ ν, d.entries = es → (d.set e.1 e.2).entries = es ++ [e] := by
      intro d hd
      exact (congrArg (insertEntry e.1 e.2) hd).trans (insertEntry_of_notMem e.2 hnew)
    rw [ofList, update, List.foldl_append]
    exact hset _ (ih hsplit.1)

theorem getD_set (d : Dict κ ν) (k j : κ) (v dflt : ν) :
    (d.set k v).getD j dflt = if k = j then v else d.getD j dflt := by
  simp only [getD, get?_set]
  split_ifs <;> rfl

@[simp] theorem mem_modify (d : Dict κ ν) (k j : κ) (dflt : ν) (f : ν → ν) :
    j ∈ d.modify k dflt f ↔ j = k ∨ j ∈ d := mem_set d k j _

theorem getD_modify (d : Dict κ ν) (k j : κ) (dflt : ν) (f : ν → ν) :
    (d.modify k dflt f).getD j dflt = if k = j then f (d.getD k dflt) else d.getD j dflt := by
  rw [modify, getD_set]

/-- Sum of a weight over the entries that satisfy `p`, for counters kept per key. -/
def weightWhere [AddCommMonoid μ] (p : κ → Bool) (w : ν → μ) (d : Dict κ ν) : μ :=
  ((d.entries.filter fun e => p e.1).map fun e => w e.2).sum

omit [DecidableEq κ] in
@[simp] theorem weightWhere_empty [AddCommMonoid μ] (p : κ → Bool) (w : ν → μ) :
    (empty : Dict κ ν).weightWhere p w = 0 := by simp [weightWhere, empty]

/-- Replacing the value of a key changes the weight by that key's contribution. -/
theorem weightWhere_set [AddCommMonoid μ] (p : κ → Bool) (w : ν → μ) (d : Dict κ ν)
    (k : κ) (v : ν) :
    (d.set k v).weightWhere p w + (if p k then ((d.get? k).map w).getD 0 else 0) =
      d.weightWhere p w + (if p k then w v else 0) := by
  have key : ∀ es : List (κ × ν), (es.map Prod.fst).Nodup →
      (((insertEntry k v es).filter fun e => p e.1).map fun e => w e.2).sum +
          (if p k then ((lookupEntry k es).map w).getD 0 else 0) =
        ((es.filter fun e => p e.1).map fun e => w e.2).sum + (if p k then w v else 0) := by
    intro es
    induction es with
    | nil => intro _; by_cases hp : p k <;> simp [insertEntry, lookupEntry, hp]
    | cons e es ih =>
      intro hn
      simp only [List.map_cons, List.nodup_cons] at hn
      by_cases he : e.1 = k
      · subst he
        by_cases hp : p e.1
        · simp only [insertEntry, lookupEntry, if_true, List.filter_cons, hp, List.map_cons,
            List.sum_cons, Option.map_some, Option.getD_some]
          abel
        · simp [insertEntry, hp]
      · have hh := ih hn.2
        simp only [insertEntry, lookupEntry, if_neg he, List.filter_cons]
        by_cases hpe : p e.1
        · simp only [hpe, if_true, List.map_cons, List.sum_cons, add_assoc, hh]
        · simpa only [hpe, if_false, Bool.false_eq_true] using hh
  exact key d.entries d.nodup

/-- Changing the value of a key by an amount changes every weight that includes the key by it. -/
theorem weightWhere_modify [AddCommMonoid μ] (p : κ → Bool) {w : ν → μ} {f : ν → ν} {dflt : ν}
    {x : μ} (h : ∀ v, w (f v) = w v + x) (hdflt : w dflt = 0) (d : Dict κ ν) (k : κ) :
    (d.modify k dflt f).weightWhere p w = d.weightWhere p w + if p k then x else 0 := by
  have key : ∀ es : List (κ × ν),
      (((insertEntry k (f ((lookupEntry k es).getD dflt)) es).filter fun e => p e.1).map
        fun e => w e.2).sum =
          ((es.filter fun e => p e.1).map fun e => w e.2).sum + if p k then x else 0 := by
    intro es
    induction es with
    | nil => by_cases hp : p k <;> simp [insertEntry, lookupEntry, hp, h, hdflt]
    | cons e es ih =>
      by_cases he : e.1 = k
      · subst he
        by_cases hp : p e.1
        · simp only [insertEntry, lookupEntry, if_true, List.filter_cons, hp, List.map_cons,
            List.sum_cons, Option.getD_some, h]
          exact add_right_comm _ _ _
        · simp [insertEntry, lookupEntry, hp]
      · by_cases hp : p e.1
        · simp only [insertEntry, lookupEntry, if_neg he, List.filter_cons, hp, if_true,
            List.map_cons, List.sum_cons, ih]
          exact (add_assoc _ _ _).symm
        · simp only [insertEntry, lookupEntry, if_neg he, List.filter_cons, hp, if_false, ih,
            Bool.false_eq_true]
  exact key d.entries

/-- Counting one more under a key adds one to every weight that includes the key. -/
theorem weightWhere_count (p : κ → Bool) (d : Dict κ ℕ) (k : κ) :
    (d.modify k 0 (· + 1)).weightWhere p id = d.weightWhere p id + if p k then 1 else 0 := by
  apply weightWhere_modify
  · exact fun _ => rfl
  · rfl

end Dict
end InferenceControlPlane.Python
