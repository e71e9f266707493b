import InferenceControlPlane.Python.Dict

/-!
# Grouped folds

A list is folded into one accumulator per key. The accumulator of a key is the
fold over the elements of that key, and a weight that every element moves by a
fixed amount sums to the contributions of the elements, whatever the grouping.
-/
namespace InferenceControlPlane.Python.Dict

variable {α κ ν μ : Type*} [DecidableEq κ]

/-- Fold each element into the entry of its key; elements without a key are skipped. -/
def group (key : α → Option κ) (dflt : ν) (f : α → ν → ν) (xs : List α) : Dict κ ν :=
  xs.foldl (fun d x => match key x with
    | none => d
    | some k => d.modify k dflt (f x)) empty

/-- The elements of one key. -/
def withKey (key : α → Option κ) (k : κ) (xs : List α) : List α :=
  xs.filter fun x => key x = some k

@[simp] theorem group_nil (key : α → Option κ) (dflt : ν) (f : α → ν → ν) :
    group key dflt f [] = empty := rfl

theorem group_concat (key : α → Option κ) (dflt : ν) (f : α → ν → ν) (xs : List α) (x : α) :
    group key dflt f (xs ++ [x]) = match key x with
      | none => group key dflt f xs
      | some k => (group key dflt f xs).modify k dflt (f x) := by
  rw [group, List.foldl_append]
  rfl

theorem withKey_append (key : α → Option κ) (k : κ) (xs ys : List α) :
    withKey key k (xs ++ ys) = withKey key k xs ++ withKey key k ys :=
  List.filter_append _ _

theorem withKey_perm (key : α → Option κ) (k : κ) {xs ys : List α} (h : xs.Perm ys) :
    (withKey key k xs).Perm (withKey key k ys) := h.filter _

theorem getD_group (key : α → Option κ) (dflt : ν) (f : α → ν → ν) (xs : List α) (k : κ) :
    (group key dflt f xs).getD k dflt = (withKey key k xs).foldl (fun v x => f x v) dflt := by
  induction xs using List.reverseRecOn with
  | nil => rfl
  | append_singleton xs x ih =>
    rw [group_concat, withKey_append, List.foldl_append, ← ih]
    cases hx : key x with
    | none => simp [withKey, hx]
    | some j =>
      simp only [withKey, List.filter_cons, hx, Option.some.injEq, getD_modify, decide_eq_true_eq]
      by_cases hj : j = k
      · simp [hj]
      · simp [hj]

theorem mem_group {key : α → Option κ} {dflt : ν} {f : α → ν → ν} {xs : List α} {k : κ} :
    k ∈ group key dflt f xs ↔ ∃ x ∈ xs, key x = some k := by
  induction xs using List.reverseRecOn with
  | nil => simp
  | append_singleton xs x ih =>
    rw [group_concat]
    cases hx : key x with
    | none => simp [ih, hx]
    | some j =>
      simp only [mem_modify, ih, List.mem_append, List.mem_singleton]
      constructor
      · rintro (rfl | ⟨y, hy, hk⟩)
        · exact ⟨x, Or.inr rfl, hx⟩
        · exact ⟨y, Or.inl hy, hk⟩
      · rintro ⟨y, hy | rfl, hk⟩
        · exact Or.inr ⟨y, hy, hk⟩
        · exact Or.inl (Option.some.inj (hk.symm.trans hx))

/-- A grouping has at most as many entries as there are keys for its elements, which bounds the
series that it stands for. -/
theorem length_group_le {key : α → Option κ} {dflt : ν} {f : α → ν → ν} {xs : List α}
    {ks : List κ} (h : ∀ x ∈ xs, ∀ k, key x = some k → k ∈ ks) :
    (group key dflt f xs).entries.length ≤ ks.length := by
  have hsub : (group key dflt f xs).keys ⊆ ks := by
    intro k hk
    obtain ⟨x, hx, hkey⟩ := mem_group.mp (mem_def.mpr hk)
    exact h x hx k hkey
  have hlength := (List.subperm_of_subset (group key dflt f xs).nodup hsub).length_le
  rwa [List.length_map] at hlength

/-- The entry of a key is the fold over its elements, if it has any: a table of accumulators is
read one key at a time. -/
theorem get?_group (key : α → Option κ) (dflt : ν) (f : α → ν → ν) (xs : List α) (k : κ) :
    (group key dflt f xs).get? k = if withKey key k xs = [] then none
      else some ((withKey key k xs).foldl (fun v x => f x v) dflt) := by
  have hmem : k ∈ group key dflt f xs ↔ withKey key k xs ≠ [] := by
    rw [mem_group, withKey, Ne, List.filter_eq_nil_iff]
    push Not
    simp
  split_ifs with h
  · rw [get?_eq_none, hmem, not_not, h]
  · obtain ⟨v, hv⟩ := mem_iff_get?.mp (hmem.mpr h)
    rw [hv, ← getD_group, getD, hv, Option.getD_some]

/-- A commutative fold does not depend on the order of the elements, and neither does the table of
its groups. -/
theorem get?_group_perm (key : α → Option κ) (dflt : ν) (f : α → ν → ν)
    (hf : ∀ x y v, f x (f y v) = f y (f x v)) {xs ys : List α} (h : xs.Perm ys) (k : κ) :
    (group key dflt f xs).get? k = (group key dflt f ys).get? k := by
  have hk := withKey_perm key k h
  have hnil : withKey key k xs = [] ↔ withKey key k ys = [] := by
    rw [← List.length_eq_zero_iff, hk.length_eq, List.length_eq_zero_iff]
  have hfold := hk.foldl_eq' (f := fun v x => f x v) (fun x _ y _ v => hf y x v) dflt
  simp only [get?_group, hnil, hfold]

omit [DecidableEq κ] in
theorem sum_map_filter [AddCommMonoid μ] (p : α → Bool) (f : α → μ) (xs : List α) :
    ((xs.filter p).map f).sum = (xs.map fun x => if p x then f x else 0).sum := by
  induction xs with
  | nil => rfl
  | cons x xs ih => by_cases h : p x <;> simp [h, ih]

omit [DecidableEq κ] in
theorem weightWhere_eq_sum [AddCommMonoid μ] (p : κ → Bool) (w : ν → μ) (d : Dict κ ν) :
    d.weightWhere p w = (d.entries.map fun e => if p e.1 then w e.2 else 0).sum :=
  sum_map_filter (fun e : κ × ν => p e.1) (fun e : κ × ν => w e.2) d.entries

/-- The sum over the elements of one key. -/
theorem sum_withKey [AddCommMonoid μ] (key : α → Option κ) (k : κ) (f : α → μ) (xs : List α) :
    ((withKey key k xs).map f).sum = (xs.map fun x => if key x = some k then f x else 0).sum := by
  rw [withKey, sum_map_filter]
  simp

/-- A weight that each element moves by its contribution: the sum over a table is the sum over the
elements that made it. -/
theorem weightWhere_group [AddCancelCommMonoid μ] (key : α → Option κ) (dflt : ν)
    (f : α → ν → ν) (p : κ → Bool) (w : ν → μ) (δ : α → μ) (h0 : w dflt = 0)
    (hf : ∀ x v, w (f x v) = w v + δ x) (xs : List α) :
    (group key dflt f xs).weightWhere p w =
      (xs.map fun x => if (key x).any p then δ x else 0).sum := by
  induction xs using List.reverseRecOn with
  | nil => simp
  | append_singleton xs x ih =>
    rw [group_concat, List.map_append, List.sum_append, ← ih]
    cases hx : key x with
    | none => simp [hx]
    | some k =>
      have hset := weightWhere_set p w (group key dflt f xs) k
        (f x ((group key dflt f xs).getD k dflt))
      have hold : (((group key dflt f xs).get? k).map w).getD 0 =
          w ((group key dflt f xs).getD k dflt) := by
        cases hg : (group key dflt f xs).get? k <;> simp [getD, hg, h0]
      rw [hold, hf] at hset
      simp only [modify, List.map_cons, List.map_nil, List.sum_cons, List.sum_nil, add_zero, hx,
        Option.any_some]
      split_ifs at hset ⊢
      · refine add_right_cancel (b := w ((group key dflt f xs).getD k dflt)) ?_
        rw [hset]
        abel
      · simpa using hset

/-! ## Dictionaries as sets of entries -/

/-- `d == e`: the same keys with equal values, in any order. -/
def same [DecidableEq ν] (d e : Dict κ ν) : Bool := d.entries.isPerm e.entries

omit [DecidableEq κ] in
theorem entries_nodup (d : Dict κ ν) : d.entries.Nodup := d.nodup.of_map _

theorem entries_perm {d e : Dict κ ν} (h : ∀ k, d.get? k = e.get? k) :
    d.entries.Perm e.entries := by
  rw [List.perm_ext_iff_of_nodup d.entries_nodup e.entries_nodup]
  rintro ⟨k, v⟩
  rw [mem_entries, mem_entries, h k]

theorem get?_eq_of_perm {d e : Dict κ ν} (h : d.entries.Perm e.entries) (k : κ) :
    d.get? k = e.get? k := by
  refine Option.ext fun v => ?_
  rw [← mem_entries, ← mem_entries, h.mem_iff]

theorem same_iff [DecidableEq ν] {d e : Dict κ ν} :
    d.same e = true ↔ ∀ k, d.get? k = e.get? k := by
  rw [same, List.isPerm_iff]
  exact ⟨get?_eq_of_perm, entries_perm⟩

/-- A weight over a single key. -/
theorem weightWhere_key [AddCommMonoid μ] (d : Dict κ ν) (k : κ) (p : κ → Bool) (w : ν → μ)
    (hp : ∀ j ∈ d, p j = true ↔ j = k) :
    d.weightWhere p w = ((d.get? k).map w).getD 0 := by
  have hmem : ∀ e ∈ d.entries, p e.1 = true ↔ e.1 = k := fun e he =>
    hp e.1 (mem_def.mpr (List.mem_map_of_mem he))
  rw [weightWhere]
  cases hk : d.get? k with
  | none =>
    have hnil : d.entries.filter (fun e => p e.1) = [] := by
      rw [List.filter_eq_nil_iff]
      intro e he hpe
      have hget := mem_entries.mp (show (e.1, e.2) ∈ d.entries from he)
      rw [(hmem e he).mp hpe, hk] at hget
      cases hget
    rw [hnil]
    rfl
  | some v =>
    have hperm : (d.entries.filter fun e => p e.1).Perm [(k, v)] := by
      rw [List.perm_ext_iff_of_nodup (d.entries_nodup.filter _) (List.nodup_singleton _)]
      rintro ⟨j, u⟩
      rw [List.mem_filter, List.mem_singleton]
      constructor
      · rintro ⟨hu, hj⟩
        have hjk : j = k := (hmem _ hu).mp hj
        rw [mem_entries, hjk, hk] at hu
        rw [hjk, Option.some.inj hu]
      · intro h
        cases h
        have hv := mem_entries.mpr hk
        exact ⟨hv, (hmem _ hv).mpr rfl⟩
    rw [List.perm_singleton.mp hperm]
    simp

end InferenceControlPlane.Python.Dict
