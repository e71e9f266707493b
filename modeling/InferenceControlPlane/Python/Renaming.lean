import InferenceControlPlane.Python.Grouping
import Mathlib.Logic.Embedding.Basic

/-!
# Renamed keys

An injection renames the keys of a dictionary and leaves its values and its order
alone. Reading and assigning commute with a renaming, so a program that only
compares keys cannot tell a dictionary from a renamed one.
-/
namespace InferenceControlPlane.Python

variable {κ κ' ν : Type*} [DecidableEq κ] [DecidableEq κ']

lemma insertEntry_map (ρ : κ ↪ κ') (k : κ) (v : ν) (es : List (κ × ν)) :
    insertEntry (ρ k) v (es.map (Prod.map ρ id)) = (insertEntry k v es).map (Prod.map ρ id) := by
  induction es with
  | nil => rfl
  | cons e es ih =>
    simp only [List.map_cons, insertEntry, Prod.map_fst, ρ.injective.eq_iff, ih]
    split_ifs <;> rfl

namespace Dict

omit [DecidableEq κ] [DecidableEq κ'] in
theorem ext_entries {d e : Dict κ ν} (h : d.entries = e.entries) : d = e := by
  cases d
  cases e
  cases h
  rfl

omit [DecidableEq κ] [DecidableEq κ'] in
lemma keys_map (ρ : κ ↪ κ') (es : List (κ × ν)) :
    (es.map (Prod.map ρ id)).map Prod.fst = (es.map Prod.fst).map ρ := by
  rw [List.map_map, List.map_map]
  rfl

def rename (ρ : κ ↪ κ') (d : Dict κ ν) : Dict κ' ν where
  entries := d.entries.map (Prod.map ρ id)
  nodup := by
    rw [keys_map]
    exact d.nodup.map ρ.injective

omit [DecidableEq κ] [DecidableEq κ'] in
@[simp] theorem entries_rename (ρ : κ ↪ κ') (d : Dict κ ν) :
    (d.rename ρ).entries = d.entries.map (Prod.map ρ id) := rfl

omit [DecidableEq κ] [DecidableEq κ'] in
@[simp] theorem rename_empty (ρ : κ ↪ κ') : (empty : Dict κ ν).rename ρ = empty := rfl

omit [DecidableEq κ] [DecidableEq κ'] in
@[simp] theorem mem_rename {ρ : κ ↪ κ'} {d : Dict κ ν} {k : κ} : ρ k ∈ d.rename ρ ↔ k ∈ d := by
  rw [mem_def, keys, entries_rename, keys_map, List.mem_map_of_injective ρ.injective]
  rfl

theorem set_rename (ρ : κ ↪ κ') (d : Dict κ ν) (k : κ) (v : ν) :
    (d.rename ρ).set (ρ k) v = (d.set k v).rename ρ :=
  ext_entries (insertEntry_map ρ k v d.entries)

theorem update_rename (ρ : κ ↪ κ') (d : Dict κ ν) (es : List (κ × ν)) :
    (d.rename ρ).update (es.map (Prod.map ρ id)) = (d.update es).rename ρ := by
  induction es generalizing d with
  | nil => rfl
  | cons e es ih =>
    have hset := set_rename ρ d e.1 e.2
    change ((d.rename ρ).set (ρ e.1) e.2).update _ = _
    rw [hset, ih]
    rfl

/-! ## Dictionaries that are equal in any order -/

omit [DecidableEq κ'] in
theorem mem_of_same [DecidableEq ν] {d e : Dict κ ν} (h : d.same e = true) {k : κ} :
    k ∈ e ↔ k ∈ d := by
  rw [mem_iff_get?, mem_iff_get?, same_iff.mp h k]

omit [DecidableEq κ'] in
/-- The last value of a key is its only value where no key repeats. -/
theorem get?_ofList {es : List (κ × ν)} (hn : (es.map Prod.fst).Nodup) {k : κ} {v : ν} :
    (ofList es).get? k = some v ↔ (k, v) ∈ es := by
  have hrev : (es.reverse.map Prod.fst).Nodup := by
    rw [List.map_reverse]
    exact List.nodup_reverse.mpr hn
  rw [ofList, get?_update, get?_empty, Option.or_none, ← List.mem_reverse]
  exact ⟨lookupEntry_eq_some, lookupEntry_of_mem hrev⟩

omit [DecidableEq κ'] in
theorem get?_ofList_perm {es es' : List (κ × ν)} (hn : (es.map Prod.fst).Nodup)
    (h : es.Perm es') (k : κ) : (ofList es).get? k = (ofList es').get? k := by
  refine Option.ext fun v => ?_
  rw [get?_ofList hn, get?_ofList ((h.map Prod.fst).nodup_iff.mp hn), h.mem_iff]

end Dict
end InferenceControlPlane.Python
