import InferenceControlPlane.Python.Grouping
import InferenceControlPlane.Sli.Quality

/-!
# The reservoir

Whatever the random draws are, a bucket holds the lengths of distinct positions of the
stream, as many as the cap allows. Until a group exceeds the cap, the buckets are the
grouped lengths of the whole stream.
-/
namespace InferenceControlPlane.Sli
open Python Normalize

/-! ## Slots drawn from a stream -/

section
variable {α β : Type*} {f : α → Option β} {stream : List α} {slots : List β}

/-- The slots hold what pairwise distinct positions of the stream have. -/
def DrawnFrom (f : α → Option β) (stream : List α) (slots : List β) : Prop :=
  ∃ positions : List ℕ, positions.Nodup ∧
    positions.map (fun i => stream[i]?.bind f) = slots.map some

lemma drawnFrom_nil (f : α → Option β) (stream : List α) : DrawnFrom f stream [] :=
  ⟨[], List.nodup_nil, rfl⟩

/-- The positions stay where they are when the stream goes on. -/
lemma DrawnFrom.positions (h : DrawnFrom f stream slots) (x : α) :
    ∃ positions : List ℕ, positions.Nodup ∧ stream.length ∉ positions ∧
      positions.map (fun i => (stream ++ [x])[i]?.bind f) = slots.map some := by
  obtain ⟨positions, hnodup, hslots⟩ := h
  have hlt : ∀ i ∈ positions, i < stream.length := by
    intro i hi
    by_contra hge
    have hmem := List.mem_map_of_mem (f := fun i => stream[i]?.bind f) hi
    rw [hslots, List.getElem?_eq_none (not_lt.mp hge)] at hmem
    obtain ⟨y, -, hy⟩ := List.mem_map.mp hmem
    cases hy
  refine ⟨positions, hnodup, fun hmem => absurd (hlt _ hmem) (lt_irrefl _), ?_⟩
  rw [← hslots]
  apply List.map_congr_left
  intro i hi
  rw [List.getElem?_append_left (hlt i hi)]

theorem DrawnFrom.keep (h : DrawnFrom f stream slots) (x : α) :
    DrawnFrom f (stream ++ [x]) slots := by
  obtain ⟨positions, hnodup, -, hslots⟩ := h.positions x
  exact ⟨positions, hnodup, hslots⟩

theorem DrawnFrom.append (h : DrawnFrom f stream slots) {x : α} {y : β} (hx : f x = some y) :
    DrawnFrom f (stream ++ [x]) (slots ++ [y]) := by
  obtain ⟨positions, hnodup, hfresh, hslots⟩ := h.positions x
  refine ⟨positions ++ [stream.length], ?_, ?_⟩
  · exact (List.nodup_append_comm.mp (List.nodup_cons.mpr ⟨hfresh, hnodup⟩))
  · rw [List.map_append, List.map_append, hslots]
    simp [hx]

theorem DrawnFrom.replace (h : DrawnFrom f stream slots) {x : α} {y : β} (hx : f x = some y)
    (j : ℕ) : DrawnFrom f (stream ++ [x]) (slots.set j y) := by
  obtain ⟨positions, hnodup, hfresh, hslots⟩ := h.positions x
  refine ⟨positions.set j stream.length, hnodup.set hfresh, ?_⟩
  rw [List.map_set, List.map_set, hslots]
  simp [hx]

end

/-! ## Groups of a stream -/

section
variable [Runtime]

/-- The group of an observation that is sampled. -/
def eligibleKey (cfg : Config) (obs : Observation) : Option QualityKey :=
  if obs.isError = true ∨ obs.outputTokens.val = 0 then none else some (baselineKey obs cfg)

/-- The group of a successful observation without output. -/
def emptyKey (cfg : Config) (obs : Observation) : Option QualityKey :=
  if obs.isError = false ∧ obs.outputTokens.val = 0 then some (baselineKey obs cfg) else none

/-- `group_completion_lengths`: the unbounded grouping that the reservoir samples from. -/
def groupCompletionLengths (observations : List Observation) (cfg : Config) :
    Dict QualityKey (List TokenCount) :=
  observations.foldl (fun groups obs =>
    if obs.isError = true ∨ obs.outputTokens.val = 0 then groups
    else groups.modify (baselineKey obs cfg) [] (· ++ [obs.outputTokens])) .empty

/-- The length that an observation contributes to a group. -/
def lengthIn (cfg : Config) (key : QualityKey) (obs : Observation) : Option TokenCount :=
  if eligibleKey cfg obs = some key then some obs.outputTokens else none

/-- The accumulator after a stream. -/
def sampledFrom (rng : Rng) (cap : ℕ) (cfg : Config) (observations : List Observation) :
    QualityAccumulator :=
  observations.foldl (QualityAccumulator.add rng cap cfg) .new

/-- What a bounded sample of a stream must be: for each group as many lengths as the cap allows,
each at a position of the stream of its own, and counters of everything that went by. -/
structure FaithfulSample (cap : ℕ) (cfg : Config) (observations : List Observation)
    (acc : QualityAccumulator) : Prop where
  length : ∀ key, (acc.groups.getD key []).length =
    min (Dict.withKey (eligibleKey cfg) key observations).length cap
  drawn : ∀ key, DrawnFrom (lengthIn cfg key) observations (acc.groups.getD key [])
  counted : observations.length = observations.countP Observation.isError +
    (acc.emptyCounts.entries.map Prod.snd).sum + (acc.seen.entries.map Prod.snd).sum
  exact : (∀ key, (Dict.withKey (eligibleKey cfg) key observations).length ≤ cap) →
    acc.groups = groupCompletionLengths observations cfg

variable {rng : Rng} {cap : ℕ} {cfg : Config}

lemma sampledFrom_snoc (observations : List Observation) (obs : Observation) :
    sampledFrom rng cap cfg (observations ++ [obs]) =
      (sampledFrom rng cap cfg observations).add rng cap cfg obs := by
  rw [sampledFrom, List.foldl_append]
  rfl

theorem groupCompletionLengths_eq (observations : List Observation) :
    groupCompletionLengths observations cfg =
      Dict.group (eligibleKey cfg) [] (fun obs lengths => lengths ++ [obs.outputTokens])
        observations := by
  induction observations using List.reverseRecOn with
  | nil => rfl
  | append_singleton observations obs ih =>
    rw [Dict.group_concat, ← ih, groupCompletionLengths, List.foldl_append]
    by_cases hskip : obs.isError = true ∨ obs.outputTokens.val = 0
    · simp only [eligibleKey, if_pos hskip, List.foldl_cons, List.foldl_nil]
      rfl
    · simp only [eligibleKey, if_neg hskip, List.foldl_cons, List.foldl_nil]
      rfl

/-! ## One observation -/

/-- What an observation does to the samples: nothing, one more length, or one length in the place
of another. -/
theorem add_cases (acc : QualityAccumulator) (obs : Observation) :
    (eligibleKey cfg obs = none ∧ (acc.add rng cap cfg obs).groups = acc.groups ∧
      (acc.add rng cap cfg obs).seen = acc.seen) ∨
    ∃ key slots, eligibleKey cfg obs = some key ∧
      (acc.add rng cap cfg obs).groups = acc.groups.set key slots ∧
      (acc.add rng cap cfg obs).seen = acc.seen.modify key 0 (· + 1) ∧
      ((acc.groups.getD key []).length < cap ∧
          slots = acc.groups.getD key [] ++ [obs.outputTokens] ∨
        cap ≤ (acc.groups.getD key []).length ∧
          (slots = acc.groups.getD key [] ∨
            ∃ j, slots = (acc.groups.getD key []).set j obs.outputTokens)) := by
  rw [QualityAccumulator.add, eligibleKey]
  by_cases herror : obs.isError = true
  · exact Or.inl ⟨if_pos (Or.inl herror), by simp [herror], by simp [herror]⟩
  rw [if_neg herror]
  by_cases hzero : obs.outputTokens.val = 0
  · exact Or.inl ⟨if_pos (Or.inr hzero), by simp [hzero], by simp [hzero]⟩
  right
  rw [if_neg (not_or.mpr ⟨herror, hzero⟩)]
  simp only [if_neg hzero]
  by_cases hroom : (acc.groups.getD (baselineKey obs cfg) []).length < cap
  · simp only [if_pos hroom]
    exact ⟨_, _, rfl, rfl, rfl, Or.inl ⟨hroom, rfl⟩⟩
  simp only [if_neg hroom]
  refine ⟨_, _, rfl, rfl, rfl, Or.inr ⟨not_lt.mp hroom, ?_⟩⟩
  split_ifs
  · exact Or.inr ⟨_, rfl⟩
  · exact Or.inl rfl

theorem add_emptyCounts (acc : QualityAccumulator) (obs : Observation) :
    (acc.add rng cap cfg obs).emptyCounts =
      (emptyKey cfg obs).elim acc.emptyCounts fun key => acc.emptyCounts.modify key 0 (· + 1) := by
  rw [QualityAccumulator.add, emptyKey]
  by_cases herror : obs.isError = true
  · simp [herror]
  rw [if_neg herror]
  by_cases hzero : obs.outputTokens.val = 0
  · simp [herror, hzero]
  have hempty : ¬(obs.isError = false ∧ obs.outputTokens.val = 0) := fun h => hzero h.2
  rw [if_neg hempty, Option.elim_none]
  simp only [if_neg hzero]
  by_cases hroom : (acc.groups.getD (baselineKey obs cfg) []).length < cap
  · simp only [if_pos hroom]
  · simp only [if_neg hroom]

/-- Every observation is an error, empty or sampled. -/
lemma counted_once (cfg : Config) (obs : Observation) :
    1 = (if obs.isError = true then 1 else 0) + (if (emptyKey cfg obs).isSome then 1 else 0) +
      if (eligibleKey cfg obs).isSome then 1 else 0 := by
  rw [emptyKey, eligibleKey]
  cases herror : obs.isError with
  | true => simp
  | false => by_cases hzero : obs.outputTokens.val = 0 <;> simp [hzero]

/-! ## Streams -/

theorem seen_eq (observations : List Observation) :
    (sampledFrom rng cap cfg observations).seen =
      Dict.group (eligibleKey cfg) 0 (fun _ n => n + 1) observations := by
  induction observations using List.reverseRecOn with
  | nil => rfl
  | append_singleton observations obs ih =>
    rw [sampledFrom_snoc, Dict.group_concat, ← ih]
    rcases add_cases (sampledFrom rng cap cfg observations) obs with
      ⟨hkey, -, hseen⟩ | ⟨key, slots, hkey, -, hseen, -⟩
    · rw [hseen, hkey]
    · rw [hseen, hkey]

theorem emptyCounts_eq (observations : List Observation) :
    (sampledFrom rng cap cfg observations).emptyCounts =
      Dict.group (emptyKey cfg) 0 (fun _ n => n + 1) observations := by
  induction observations using List.reverseRecOn with
  | nil => rfl
  | append_singleton observations obs ih =>
    rw [sampledFrom_snoc, Dict.group_concat, ← ih, add_emptyCounts]
    cases emptyKey cfg obs with
    | none => rfl
    | some key => rfl

omit [Runtime] in
/-- The counts of a grouping sum to the elements that have a key. -/
lemma sum_counts {α κ : Type*} [DecidableEq κ] (key : α → Option κ) (xs : List α) :
    ((Dict.group key 0 (fun _ n => n + 1) xs).entries.map Prod.snd).sum =
      xs.countP fun x => (key x).isSome := by
  have hweight := Dict.weightWhere_group key 0 (fun _ n => n + 1) (fun _ => true) id
    (fun _ => 1) rfl (fun _ _ => rfl) xs
  rw [Dict.weightWhere_eq_sum] at hweight
  simp only [if_true] at hweight
  refine hweight.trans ?_
  clear hweight
  induction xs with
  | nil => rfl
  | cons x xs ih =>
    rw [List.map_cons, List.sum_cons, ih, List.countP_cons]
    cases key x with
    | none => simp
    | some k => simp [add_comm]

theorem observations_counted (observations : List Observation) :
    observations.length = observations.countP Observation.isError +
      ((sampledFrom rng cap cfg observations).emptyCounts.entries.map Prod.snd).sum +
      ((sampledFrom rng cap cfg observations).seen.entries.map Prod.snd).sum := by
  rw [seen_eq, emptyCounts_eq, sum_counts, sum_counts]
  induction observations with
  | nil => rfl
  | cons obs observations ih =>
    have honce := counted_once cfg obs
    simp only [List.length_cons, List.countP_cons]
    omega

/-- The bucket of a group is full, or holds its whole stream: the cap is the only reason to forget
a length. -/
theorem length_bucket (rng : Rng) (cap : ℕ) (cfg : Config) (observations : List Observation)
    (key : QualityKey) :
    ((sampledFrom rng cap cfg observations).groups.getD key []).length =
      min (Dict.withKey (eligibleKey cfg) key observations).length cap := by
  induction observations using List.reverseRecOn with
  | nil => simp [sampledFrom, QualityAccumulator.new, Dict.withKey, Dict.getD]
  | append_singleton observations obs ih =>
    rw [sampledFrom_snoc, Dict.withKey_append, List.length_append]
    rcases add_cases (sampledFrom rng cap cfg observations) obs with
      ⟨hkey, hgroups, -⟩ | ⟨drawnKey, slots, hkey, hgroups, -, hslots⟩
    · rw [hgroups, ih]
      simp [Dict.withKey, hkey]
    rw [hgroups, Dict.getD_set]
    by_cases hsame : drawnKey = key
    · subst hsame
      have hone : (Dict.withKey (eligibleKey cfg) drawnKey [obs]).length = 1 := by
        simp [Dict.withKey, hkey]
      rw [if_pos rfl, hone]
      rcases hslots with ⟨hroom, rfl⟩ | ⟨hfull, rfl | ⟨j, rfl⟩⟩
      · rw [List.length_append, List.length_singleton]
        omega
      · omega
      · rw [List.length_set]
        omega
    · rw [if_neg hsame, ih]
      simp [Dict.withKey, hkey, hsame]

theorem drawnFrom_bucket (observations : List Observation) (key : QualityKey) :
    DrawnFrom (lengthIn cfg key) observations
      ((sampledFrom rng cap cfg observations).groups.getD key []) := by
  induction observations using List.reverseRecOn with
  | nil => exact drawnFrom_nil _ _
  | append_singleton observations obs ih =>
    rw [sampledFrom_snoc]
    rcases add_cases (sampledFrom rng cap cfg observations) obs with
      ⟨-, hgroups, -⟩ | ⟨drawnKey, slots, hkey, hgroups, -, hslots⟩
    · rw [hgroups]
      exact ih.keep obs
    rw [hgroups, Dict.getD_set]
    by_cases hsame : drawnKey = key
    · subst hsame
      have hlength : lengthIn cfg drawnKey obs = some obs.outputTokens := if_pos hkey
      rw [if_pos rfl]
      rcases hslots with ⟨-, rfl⟩ | ⟨-, rfl | ⟨j, rfl⟩⟩
      · exact ih.append hlength
      · exact ih.keep obs
      · exact ih.replace hlength j
    · rw [if_neg hsame]
      exact ih.keep obs

/-- Below the cap nothing is replaced. -/
theorem groups_eq (observations : List Observation)
    (hcap : ∀ key, (Dict.withKey (eligibleKey cfg) key observations).length ≤ cap) :
    (sampledFrom rng cap cfg observations).groups = groupCompletionLengths observations cfg := by
  rw [groupCompletionLengths_eq]
  induction observations using List.reverseRecOn with
  | nil => rfl
  | append_singleton observations obs ih =>
    simp only [Dict.withKey_append, List.length_append] at hcap
    have hbefore := ih fun key => (Nat.le_add_right _ _).trans (hcap key)
    rw [sampledFrom_snoc, Dict.group_concat, ← hbefore]
    rcases add_cases (sampledFrom rng cap cfg observations) obs with
      ⟨hkey, hgroups, -⟩ | ⟨key, slots, hkey, hgroups, -, hslots⟩
    · rw [hgroups, hkey]
    rw [hgroups, hkey]
    rcases hslots with ⟨-, rfl⟩ | ⟨hfull, -⟩
    · rfl
    · have hone : (Dict.withKey (eligibleKey cfg) key [obs]).length = 1 := by
        simp [Dict.withKey, hkey]
      have hlength := length_bucket rng cap cfg observations key
      have hle := hcap key
      omega

/-- Whatever the random draws are, the accumulator of every stream is a faithful bounded sample of
it, and below the cap it is the whole grouping. -/
theorem sampledFrom_faithful (rng : Rng) (cap : ℕ) (cfg : Config)
    (observations : List Observation) :
    FaithfulSample cap cfg observations (sampledFrom rng cap cfg observations) where
  length := length_bucket rng cap cfg observations
  drawn := drawnFrom_bucket observations
  counted := observations_counted observations
  exact := groups_eq observations

end
end InferenceControlPlane.Sli
