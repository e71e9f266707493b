import InferenceControlPlane.Inclusion
import InferenceControlPlane.Gateway.Authentication

/-!
# Seeding the default key

Every replica of the gateway seeds the key of its settings when it starts, and never fails
over it. Replicas interleave with each other and with the validations of requests. A key that
is there is left as it is, so that a key that was deactivated stays so, whoever starts.
-/
namespace InferenceControlPlane.Gateway
open Python Program

/-! ## A seeding -/

/-- The settings that a seeding reads: the default key of a replica and the limit that its row
gets. -/
structure SeedSettings where
  defaultApiKey : String
  defaultRateLimitPerMinute : ℕ
  defaultRateLimit_pos : 1 ≤ defaultRateLimitPerMinute

/-- The calls of a seeding; an insertion ends with its commit. -/
inductive SeedOp where
  | select (keyHash : String)
  | insert (row : APIKey)

@[reducible] def SeedOp.Reply : SeedOp → Type
  | select _ => Except PyErr (Option APIKey)
  | insert _ => Except PyErr Unit

abbrev SeedCoroutine (α : Type) : Type := Program SeedOp SeedOp.Reply α

/-- How a seeding ends: in silence when the row is there, with its information when it was
inserted, or with its warning when a call failed. -/
inductive SeedOutcome where
  | existing
  | seeded
  | skipped (e : PyErr)

section
variable [Digests]

/-- The row that a seeding adds; `role` has its default. -/
def SeedSettings.row (settings : SeedSettings) : APIKey where
  keyHash := hashApiKey settings.defaultApiKey
  tenantId := "default-tenant"
  rateLimitPerMinute := settings.defaultRateLimitPerMinute
  role := "tenant"
  isActive := true

/-- `seed_default_api_key`: at start, a replica looks for the row of its default key, and inserts
it when there is none. Whatever fails is a warning, and the replica serves without it. -/
def seedDefaultApiKey (settings : SeedSettings) : SeedCoroutine SeedOutcome := do
  match ← perform (SeedOp.select (hashApiKey settings.defaultApiKey)) with
  | .error e => return .skipped e
  | .ok (some _) => return .existing
  | .ok none =>
    match ← perform (SeedOp.insert settings.row) with
    | .error e => return .skipped e
    | .ok () => return .seeded

end

/-! ## The table -/

namespace KeyTable

lemma find_eq_none {table : KeyTable} {keyHash : String} :
    table.find keyHash = none ↔ keyHash ∉ table.rows.map APIKey.keyHash := by
  simp only [find, List.find?_eq_none, decide_eq_true_eq, List.mem_map, not_exists, not_and]

lemma unique_insert {table : KeyTable} {row : APIKey} (h : table.find row.keyHash = none) :
    ((table.rows ++ [row]).map APIKey.keyHash).Nodup := by
  rw [List.map_append, List.map_singleton]
  exact table.unique.append (List.nodup_singleton _) (by simpa using find_eq_none.mp h)

/-- The table with a row whose key it does not have; the column is unique, so a second row for a
key is refused. -/
def insert (table : KeyTable) (row : APIKey) (h : table.find row.keyHash = none) : KeyTable :=
  ⟨table.rows ++ [row], unique_insert h⟩

lemma find_insert (table : KeyTable) (row : APIKey) (h : table.find row.keyHash = none)
    (keyHash : String) : (table.insert row h).find keyHash =
      if row.keyHash = keyHash then some row else table.find keyHash := by
  simp only [find, insert, List.find?_append, List.find?_singleton, decide_eq_true_eq]
  split_ifs with heq
  · subst heq
    simp only [find] at h
    rw [h, Option.none_or]
  · exact Option.or_none

end KeyTable

/-- What may be answered, and what is then in the table. A commit that raises may have been
made; of a key that is there, it cannot be. -/
def SeedAnswers (s : AuthState) : (op : SeedOp) → op.Reply → AuthState → Prop
  | .select keyHash, reply, s' =>
    s' = s ∧ ((∃ e, reply = .error e) ∨ reply = .ok (s.table.find keyHash))
  | .insert row, reply, s' => (s' = s ∧ ∃ e, reply = .error e) ∨
    ∃ h : s.table.find row.keyHash = none, s' = { s with table := s.table.insert row h }

/-! ## Replicas and requests -/

/-- The calls to the database and to Redis, of validations and of seedings. -/
inductive KeyOp where
  | auth (op : AuthOp)
  | seed (op : SeedOp)

@[reducible] def KeyOp.Reply : KeyOp → Type
  | auth op => op.Reply
  | seed op => op.Reply

def validations : Inclusion AuthOp AuthOp.Reply KeyOp KeyOp.Reply where
  toOp := .auth
  reply _ r := r

def seedings : Inclusion SeedOp SeedOp.Reply KeyOp KeyOp.Reply where
  toOp := .seed
  reply _ r := r

/-- How the validation of a request or the seeding of a replica ends; both run against the same
table. -/
inductive KeyOutcome where
  | validated (result : Except EndpointError LoadedContext)
  | started (outcome : SeedOutcome)

abbrev KeyCoroutine : Type := Program KeyOp KeyOp.Reply KeyOutcome

def KeyAnswers (s : AuthState) : (op : KeyOp) → op.Reply → AuthState → Prop
  | .auth op, reply, s' => s.Answers op reply s'
  | .seed op, reply, s' => SeedAnswers s op reply s'

section
variable [Runtime] [Digests] {ι κ : Type}

def validating (settings : AuthSettings) (hasRedis : Bool) (apiKey : String) : KeyCoroutine := do
  return .validated (← (validateApiKey apiKey settings hasRedis).within validations)

omit [Runtime] in
def seeding (settings : SeedSettings) : KeyCoroutine := do
  return .started (← (seedDefaultApiKey settings).within seedings)

/-- The requests and the replicas that share one table and one Redis: the key of each request, and
the settings by which each replica seeds. -/
structure Deployment (ι κ : Type) where
  authSettings : AuthSettings
  hasRedis : Bool
  apiKeys : ι → String
  replicas : κ → SeedSettings

def Deployment.member (deployment : Deployment ι κ) : ι ⊕ κ → KeyCoroutine
  | .inl i => validating deployment.authSettings deployment.hasRedis (deployment.apiKeys i)
  | .inr k => seeding (deployment.replicas k)

/-! ## What happens to the table -/

omit [Runtime] [Digests] in
/-- Only insertions change the table. -/
lemma KeyAnswers.table {s s' : AuthState} {op : KeyOp} {reply : op.Reply}
    (h : KeyAnswers s op reply s') : s'.table = s.table ∨
      ∃ row, ∃ hnone : s.table.find row.keyHash = none,
        op = .seed (.insert row) ∧ s'.table = s.table.insert row hnone := by
  cases op with
  | auth op =>
    refine .inl ?_
    cases op with
    | get key => exact congrArg AuthState.table h.1
    | select keyHash => exact congrArg AuthState.table h.1
    | set key value ex =>
      rcases h with rfl | ⟨-, rfl⟩
      · rfl
      · rfl
  | seed op =>
    cases op with
    | select keyHash => exact .inl (congrArg AuthState.table h.1)
    | insert row =>
      rcases h with ⟨hsame, -⟩ | ⟨hnone, hinserted⟩
      · exact .inl (congrArg AuthState.table hsame)
      · exact .inr ⟨row, hnone, rfl, congrArg AuthState.table hinserted⟩

omit [Runtime] [Digests] in
/-- What is in the table stays as it is. -/
lemma KeyAnswers.find {s s' : AuthState} {op : KeyOp} {reply : op.Reply}
    (h : KeyAnswers s op reply s') {keyHash : String} {row : APIKey}
    (hrow : s.table.find keyHash = some row) : s'.table.find keyHash = some row := by
  rcases h.table with hsame | ⟨inserted, hnone, -, htable⟩
  · rw [hsame, hrow]
  · rw [htable, KeyTable.find_insert, hrow, if_neg]
    rintro rfl
    rw [hnone] at hrow
    cases hrow

omit [Runtime] in
/-- A replica inserts the row of its own settings; nothing else is inserted. -/
def Deployment.Inserts (deployment : Deployment ι κ) (m : ι ⊕ κ) (op : KeyOp) : Prop :=
  ∀ row, op = .seed (.insert row) → ∃ k, m = .inr k ∧ row = (deployment.replicas k).row

lemma member_inserts (deployment : Deployment ι κ) (m : ι ⊕ κ) :
    (deployment.member m).Always (deployment.Inserts m) := by
  cases m with
  | inl i =>
    refine (always_within (fun op row h => ?_) _).bind fun _ => always_done _ _
    cases h
  | inr k =>
    have hops : ((seedDefaultApiKey (deployment.replicas k)).within seedings).Always
        (deployment.Inserts (.inr k)) := by
      apply Always.within
      refine ⟨fun row h => (by cases h), fun selected => ?_⟩
      cases selected with
      | error e => exact always_done _ _
      | ok found =>
        cases found with
        | some row => exact always_done _ _
        | none =>
          refine ⟨fun row h => ⟨k, rfl, ?_⟩, fun inserted => ?_⟩
          · cases h
            rfl
          · cases inserted <;> exact always_done _ _
    exact hops.bind fun _ => always_done _ _

/-! ## Every interleaving of replicas and requests -/

section History
variable [DecidableEq ι] [DecidableEq κ] {deployment : Deployment ι κ}
  {drift : AuthState → AuthState → Prop}
  {init pool pool' : Pool (ι ⊕ κ) KeyOp KeyOp.Reply KeyOutcome AuthState}
  {act : Act (ι ⊕ κ) KeyOp KeyOp.Reply} {acts : List (Act (ι ⊕ κ) KeyOp KeyOp.Reply)}

omit [Runtime] [Digests] [DecidableEq ι] [DecidableEq κ] in
def SeedOutcome.ofCommit : Except PyErr Unit → SeedOutcome
  | .error e => .skipped e
  | .ok () => .seeded

omit [Runtime] [DecidableEq ι] [DecidableEq κ] in
/-- Where a seeding stands. One that ended without a warning has left its key in the table. -/
inductive SeedPhase (settings : SeedSettings) (table : KeyTable) : KeyCoroutine → Prop
  | selecting : SeedPhase settings table (seeding settings)
  | inserting (next : Except PyErr Unit → KeyCoroutine)
      (h : ∀ reply, next reply = .done (.started (.ofCommit reply))) :
      SeedPhase settings table (.call (.seed (.insert settings.row)) next)
  | ended {outcome : SeedOutcome} (h : (∀ e, outcome ≠ .skipped e) →
      (table.find settings.row.keyHash).isSome) :
        SeedPhase settings table (.done (.started outcome))

/-- The invariant of a deployment whose rows only replicas change: the rows that were there stay
as they were, every other row is the default row of a replica, and each replica stands in one of
the phases of its seeding. -/
structure Seeded (deployment : Deployment ι κ)
    (init pool : Pool (ι ⊕ κ) KeyOp KeyOp.Reply KeyOutcome AuthState) : Prop where
  inserts : ∀ m, (pool.members m).Always (deployment.Inserts m)
  phase : ∀ k, SeedPhase (deployment.replicas k) pool.shared.table (pool.members (.inr k))
  table : ∀ keyHash, pool.shared.table.find keyHash = init.shared.table.find keyHash ∨
    init.shared.table.find keyHash = none ∧ ∃ k, (deployment.replicas k).row.keyHash = keyHash ∧
      pool.shared.table.find keyHash = some (deployment.replicas k).row

omit [Runtime] in
lemma SeedPhase.mono {settings : SeedSettings} {table table' : KeyTable} {p : KeyCoroutine}
    (h : SeedPhase settings table p)
    (hkept : ∀ keyHash row, table.find keyHash = some row → table'.find keyHash = some row) :
    SeedPhase settings table' p := by
  cases h with
  | selecting => exact .selecting
  | inserting next h => exact .inserting next h
  | ended h =>
    refine .ended fun houtcome => ?_
    obtain ⟨row, hrow⟩ := Option.isSome_iff_exists.mp (h houtcome)
    rw [hkept _ _ hrow]
    rfl

omit [Runtime] in
/-- What a seeding's own call leads to. -/
lemma SeedPhase.step {settings : SeedSettings} {s s' : AuthState} {op : KeyOp}
    {next : op.Reply → KeyCoroutine} {reply : op.Reply}
    (h : SeedPhase settings s.table (.call op next)) (hanswer : KeyAnswers s op reply s') :
    SeedPhase settings s'.table (next reply) := by
  generalize hp : (call op next : KeyCoroutine) = p at h
  cases h with
  | selecting =>
    cases hp
    obtain ⟨rfl, hreply⟩ := hanswer
    cases reply with
    | error e => exact .ended fun houtcome => absurd rfl (houtcome e)
    | ok found =>
      cases found with
      | none => exact .inserting _ fun reply => by cases reply <;> rfl
      | some row =>
        refine .ended fun _ => ?_
        rcases hreply with ⟨e, herror⟩ | hfound
        · cases herror
        · have hsome : s'.table.find settings.row.keyHash = some row := (Except.ok.inj hfound).symm
          rw [hsome]
          rfl
  | inserting next h =>
    cases hp
    rw [h]
    cases reply with
    | error e => exact .ended fun houtcome => absurd rfl (houtcome e)
    | ok _ =>
      refine .ended fun _ => ?_
      rcases hanswer with ⟨-, e, herror⟩ | ⟨hnone, rfl⟩
      · cases herror
      · rw [KeyTable.find_insert, if_pos rfl]
        rfl
  | ended h => cases hp

omit [Runtime] in
theorem seeded_step (hdrift : ∀ s s', drift s s' → s'.table = s.table)
    (h : Seeded deployment init pool) (hstep : Pool.Step KeyAnswers drift pool act pool') :
    Seeded deployment init pool' := by
  have hinserts := hstep.always h.inserts
  cases hstep with
  | drifted hdrifted =>
    have hsame := hdrift _ _ hdrifted
    refine ⟨hinserts, fun k => ?_, fun keyHash => ?_⟩
    · rw [hsame]
      exact h.phase k
    · rw [hsame]
      exact h.table keyHash
  | @called m op next r s hmember hanswer =>
    refine ⟨hinserts, fun k => ?_, fun keyHash => ?_⟩
    · by_cases hm : m = .inr k
      · subst hm
        have hphase := h.phase k
        rw [hmember] at hphase
        simpa using hphase.step hanswer
      · have hkept := (h.phase k).mono fun _ _ hrow => hanswer.find hrow
        simpa [Function.update_of_ne (Ne.symm hm)] using hkept
    · rcases hanswer.table with hsame | ⟨row, hnone, rfl, hinserted⟩
      · rw [hsame]
        exact h.table keyHash
      · have hown := h.inserts m
        rw [hmember] at hown
        obtain ⟨k, -, rfl⟩ := hown.1 row rfl
        rw [hinserted, KeyTable.find_insert]
        split_ifs with heq
        · subst heq
          rcases h.table (deployment.replicas k).row.keyHash with hinit | ⟨hinit, -, -⟩
          · exact .inr ⟨hinit.symm.trans hnone, k, rfl, rfl⟩
          · exact .inr ⟨hinit, k, rfl, rfl⟩
        · exact h.table keyHash

/-- However replicas and requests interleave and whatever fails: a key that was there has its
row unchanged, and a key that was not is at most one replica's own, with that replica's row.
A replica that ended without a warning has its key in the table. -/
theorem replicas_seed_once (hdrift : ∀ s s', drift s s' → s'.table = s.table)
    (hinit : ∀ m, init.members m = deployment.member m)
    (hrun : Run (Pool.Step KeyAnswers drift) init acts pool) :
    (∀ keyHash, pool.shared.table.find keyHash = init.shared.table.find keyHash ∨
      init.shared.table.find keyHash = none ∧ ∃ k, (deployment.replicas k).row.keyHash = keyHash ∧
        pool.shared.table.find keyHash = some (deployment.replicas k).row) ∧
      ∀ k outcome, pool.members (.inr k) = .done (.started outcome) →
        (∀ e, outcome ≠ .skipped e) →
          (pool.shared.table.find (deployment.replicas k).row.keyHash).isSome := by
  have hstart : Seeded deployment init init := by
    refine ⟨fun m => ?_, fun k => ?_, fun keyHash => .inl rfl⟩
    · rw [hinit m]
      exact member_inserts deployment m
    · rw [hinit (.inr k)]
      exact .selecting
  have hseeded : Seeded deployment init pool :=
    hrun.invariant hstart fun _ _ _ _ h hstep => seeded_step hdrift h hstep
  refine ⟨hseeded.table, fun k outcome hdone houtcome => ?_⟩
  have hphase := hseeded.phase k
  rw [hdone] at hphase
  cases hphase with
  | ended h => exact h houtcome

end History

/-! ## Revocation -/

omit [Runtime] [Digests] in
/-- The calls of a deployment that are calls of validations. -/
def seeValidation : View AuthOp AuthOp.Reply KeyOp KeyOp.Reply
  | .auth op => some ⟨op, id⟩
  | .seed _ => none

omit [Runtime] [Digests] in
lemma validations_seenBy : validations.SeenBy seeValidation := fun _ => rfl

omit [Runtime] [Digests] in
/-- The history of a deployment as its validations see it. -/
def keyHistory {m : Type} (labels : List (ℚ≥0 × Act m KeyOp KeyOp.Reply)) : AuthHistory m :=
  labels.map (Prod.map id (Pool.seenAct seeValidation))

omit [Runtime] [Digests] in
/-- Where a validation stands when its request has been validated. -/
def EndsAs (validation : AuthCoroutine (Except EndpointError LoadedContext))
    (outcome : KeyOutcome) :
    Prop :=
  ∀ result, outcome = .validated result → validation = done result

omit [Runtime] [Digests] in
/-- The key of a request; replicas have none. -/
def Deployment.apiKey (deployment : Deployment ι κ) : ι ⊕ κ → String :=
  Sum.elim deployment.apiKeys fun _ => ""

lemma member_hosts (deployment : Deployment ι κ) (m : ι ⊕ κ) :
    (deployment.member m).Hosts seeValidation (fun _ _ => True) EndsAs
      (validateApiKey (deployment.apiKey m) deployment.authSettings deployment.hasRedis) := by
  cases m with
  | inl i =>
    apply hosts_within validations_seenBy
    intro result
    refine .done fun result' h => ?_
    cases h
    rfl
  | inr k =>
    have hseeds : ∀ op, seeValidation (seedings.toOp op) = none ∧ True := fun _ => ⟨rfl, trivial⟩
    apply Always.hosts
    · exact (always_within hseeds _).bind fun _ => always_done _ _
    · refine (ensures_true _).bind fun _ outcome _ result h => ?_
      cases h

omit [Runtime] [Digests] in
lemma keyAnswers_views {drift : AuthState → AuthState → Prop}
    (hdrift : ∀ s s', drift s s' → s.Drifts s') :
    Pool.Views seeValidation id KeyAnswers drift AuthState.Answers AuthState.Drifts where
  own := by
    intro s op reply s' own hanswer hsee
    cases op with
    | auth op =>
      cases hsee
      exact hanswer
    | seed op => cases hsee
  other := by
    intro s op reply s' hanswer hsee
    cases op with
    | auth op => cases hsee
    | seed op =>
      cases op with
      | select keyHash =>
        obtain rfl := hanswer.1
        exact ⟨le_rfl, fun _ => .inl rfl⟩
      | insert row =>
        rcases hanswer with ⟨rfl, -⟩ | ⟨-, rfl⟩
        · exact ⟨le_rfl, fun _ => .inl rfl⟩
        · exact ⟨le_rfl, fun _ => .inl rfl⟩
  drift := fun h => hdrift _ _ h

omit [Runtime] [Digests] in
/-- The row of the key is there, and inactive: a seeding must find it and leave it as it is. -/
def Revoked (keyHash : String) (s : AuthState) : Prop :=
  ∃ row, s.table.find keyHash = some row ∧ row.isActive = false

omit [Runtime] [Digests] in
/-- What happens by itself after a revocation: rows change in any way that leaves it so. -/
def DriftsRevoked (keyHash : String) (s s' : AuthState) : Prop :=
  s.Drifts s' ∧ (Revoked keyHash s → Revoked keyHash s')

section Revocation
variable [DecidableEq ι] [DecidableEq κ] {deployment : Deployment ι κ} {keyHash : String}
  {init mid pool : Pool (ι ⊕ κ) KeyOp KeyOp.Reply KeyOutcome AuthState}
  {earlier later : List (ℚ≥0 × Act (ι ⊕ κ) KeyOp KeyOp.Reply)}

omit [Runtime] [Digests] in
lemma revoked_of_run (hlater : Run (Pool.Stamped AuthState.clock
      (Pool.Step KeyAnswers (DriftsRevoked keyHash))) mid later pool)
    (hrevoked : Revoked keyHash mid.shared) : Revoked keyHash pool.shared := by
  refine hlater.invariant (P := fun _ pool => Revoked keyHash pool.shared) hrevoked ?_
  intro _ pool₁ label pool₂ hrevoked hstep
  obtain ⟨time, act⟩ := label
  obtain ⟨-, hstep⟩ := hstep
  cases hstep with
  | drifted h => exact h.2 hrevoked
  | called hmember hanswer =>
    obtain ⟨row, hrow, hinactive⟩ := hrevoked
    exact ⟨row, hanswer.find hrow, hinactive⟩

omit [Runtime] [Digests] in
/-- After a revocation, no validation finds the key active. -/
lemma not_selected_of_run (hlater : Run (Pool.Stamped AuthState.clock
      (Pool.Step KeyAnswers (DriftsRevoked keyHash))) mid later pool)
    (hrevoked : Revoked keyHash mid.shared) {time : ℚ≥0} {m : ι ⊕ κ} {row : APIKey}
    (hselect : (time, .called m ⟨.select keyHash, .ok (some row)⟩) ∈ keyHistory later) :
    row.isActive = false := by
  obtain ⟨⟨stamp, act⟩, hlabel, hseen⟩ := List.mem_map.mp hselect
  obtain ⟨before, after, rfl⟩ := List.append_of_mem hlabel
  obtain ⟨pool₁, pool₂, hbefore, -, hstep⟩ := hlater.step_of_append
  obtain ⟨active, hactive, hinactive⟩ := revoked_of_run hbefore hrevoked
  cases hstep with
  | drifted h => cases hseen
  | @called m' op next reply s hmember hanswer =>
    cases op with
    | seed op => cases hseen
    | auth op =>
      cases hseen
      rcases hanswer.2 with ⟨e, herror⟩ | hfound
      · cases herror
      · have hsame : some row = pool₁.shared.table.find keyHash := Except.ok.inj hfound
        rw [hactive] at hsame
        cases hsame
        exact hinactive

/-- Once the row of a key is inactive, and whichever replicas start then: a request is let in
with the key only by a row that was selected before, by the request itself or by one whose
finding it read from the cache less than the lifetime of an entry after it was written. -/
theorem revocation_kept (hinit : ∀ m, init.members m = deployment.member m)
    (hempty : ∀ apiKeyHash, init.shared.entries (authCacheKey apiKeyHash) = none)
    (hearlier : Run (Pool.Stamped AuthState.clock (Pool.Step KeyAnswers AuthState.Drifts)) init
      earlier mid)
    (hrevoked : Revoked keyHash mid.shared)
    (hlater : Run (Pool.Stamped AuthState.clock (Pool.Step KeyAnswers (DriftsRevoked keyHash))) mid
      later pool) {i : ι} {context : LoadedContext}
    (hdemo : deployment.apiKeys i ≠ "public-demo-key")
    (hkey : hashApiKey (deployment.apiKeys i) = keyHash)
    (hdone : pool.members (.inl i) = .done (.validated (.ok context))) :
    ∃ (row : APIKey) (j : ι ⊕ κ), row.keyHash = keyHash ∧ context = row.context.loaded ∧
      SelectedBy (keyHistory earlier) j row ∧ (j = .inl i ∨ ∃ written read stored found,
        (written, .called j ⟨.set (authCacheKey keyHash) (.json row.payload)
          deployment.authSettings.authCacheTtlSeconds, stored⟩) ∈ keyHistory (earlier ++ later) ∧
        (read, .called (.inl i) ⟨.get (authCacheKey keyHash), found⟩) ∈
          keyHistory (earlier ++ later) ∧
        written ≤ read ∧ read < written + deployment.authSettings.authCacheTtlSeconds) := by
  let apiKeys : ι ⊕ κ → String := deployment.apiKey
  let init' : Pool (ι ⊕ κ) AuthOp AuthOp.Reply (Except EndpointError LoadedContext) AuthState :=
    ⟨init.shared, fun m => validateApiKey (apiKeys m) deployment.authSettings deployment.hasRedis⟩
  have hseen : Pool.SeenAs seeValidation (fun _ _ _ => True) (fun _ => EndsAs) id init init' :=
    ⟨rfl, fun m => hinit m ▸ member_hosts deployment m⟩
  have hwhole := hearlier.append (hlater.mono fun _ _ _ h => ⟨h.1, h.2.mono_drift fun _ _ h => h.1⟩)
  obtain ⟨pool', hrun', hseen'⟩ := Pool.run_seen (keyAnswers_views fun _ _ h => h) hwhole hseen
  have htracked : Tracked deployment.authSettings apiKeys (keyHistory (earlier ++ later)) pool' :=
    hrun'.invariant (tracked_start ⟨fun _ => rfl, hempty⟩)
      fun _ _ _ _ h hstep => tracked_step h hstep
  have hphase := htracked.phase (.inl i) hdemo
  rw [hseen'.at_end hdone (.ok context) rfl] at hphase
  -- an active row was selected before the revocation
  have hselected : ∀ {labels j} {row : APIKey}, labels ⊆ keyHistory (earlier ++ later) →
      row.keyHash = keyHash → SelectedBy labels j row → SelectedBy (keyHistory earlier) j row := by
    intro labels j row hsub hhash hselected
    obtain ⟨hactive, time, hselect⟩ := hselected.mono hsub
    rw [keyHistory, List.map_append, List.mem_append] at hselect
    rcases hselect with hbefore | hafter
    · exact ⟨hactive, time, hbefore⟩
    · subst hhash
      have hinactive := not_selected_of_run hlater hrevoked hafter
      rw [hactive] at hinactive
      cases hinactive
  cases hphase with
  | ended hjustified =>
    obtain ⟨row, hhash, hcontext, hown | hcached⟩ := hjustified.granted context rfl
    · have hrow : row.keyHash = keyHash := hhash.trans hkey
      exact ⟨row, .inl i, hrow, hcontext, hselected (List.Subset.refl _) hrow hown, .inl rfl⟩
    · have hrow : row.keyHash = keyHash := hhash.trans hkey
      obtain ⟨before, read, found, written, hread, ⟨j, stored, hown, hset⟩, hle, hlt⟩ := hcached
      have hsub : before ⊆ keyHistory (earlier ++ later) := fun label h =>
        hread.subset (List.mem_append_left _ h)
      refine ⟨row, j, hrow, hcontext, hselected hsub hrow hown,
        .inr ⟨written, read, stored, found, ?_, ?_, hle, hlt⟩⟩
      · exact hrow ▸ hsub hset
      · exact hrow ▸ hread.subset (List.mem_append_right _ List.mem_cons_self)

end Revocation
end

/-! ## Two replicas, and a revoked key -/

def AuthState.withTable (s : AuthState) (table : KeyTable) : AuthState := { s with table := table }

/-- A database and a Redis that never fail but on a second row for a key. -/
def keyWorld : World KeyOp KeyOp.Reply AuthState
  | .auth op, s => authWorld op s
  | .seed (.select keyHash), s => (.ok (s.table.find keyHash), s)
  | .seed (.insert row), s =>
    if h : s.table.find row.keyHash = none then (.ok (), s.withTable (s.table.insert row h))
    else (.error (.raised "IntegrityError"), s)

lemma keyWorld_answers (op : KeyOp) (s : AuthState) :
    KeyAnswers s op (keyWorld op s).1 (keyWorld op s).2 := by
  cases op with
  | auth op => exact authWorld_answers op s
  | seed op =>
    cases op with
    | select keyHash => exact ⟨rfl, .inr rfl⟩
    | insert row =>
      simp only [keyWorld]
      split_ifs with h
      · exact .inr ⟨h, rfl⟩
      · exact .inl ⟨rfl, _, rfl⟩

/-- The settings of a replica that seeds "dev-inference-key". -/
def devSeed : SeedSettings := ⟨"dev-inference-key", 120, by decide⟩

/-- Two replicas, and no requests. -/
def twoReplicas : Deployment Empty Bool := ⟨.default, true, Empty.elim, fun _ => devSeed⟩

def noKeys : AuthState := ⟨0, ⟨[], List.nodup_nil⟩, fun _ => none⟩

/-- The second replica finds the row of the first. -/
theorem replicas_seed_once_sample :
    letI := Runtime.ascii
    letI := Digests.listed devKeyDigest
    ∃ pool : Pool (Empty ⊕ Bool) KeyOp KeyOp.Reply KeyOutcome AuthState,
      pool.members (.inr true) = .done (.started .existing) ∧
        (pool.shared.table.find devSeed.row.keyHash).isSome := by
  let ascii := Runtime.ascii
  let digests := Digests.listed devKeyDigest
  let init : Pool (Empty ⊕ Bool) KeyOp KeyOp.Reply KeyOutcome AuthState :=
    ⟨noKeys, twoReplicas.member⟩
  have hworld : ∀ op (s : AuthState), True →
      KeyAnswers s op (keyWorld op s).1 (keyWorld op s).2 ∧ True :=
    fun op s _ => ⟨keyWorld_answers op s, trivial⟩
  have hfirst := Pool.run_alone keyWorld hworld
    (Run.nil : Run (Pool.Step KeyAnswers fun _ _ => False) init [] init) trivial (.inr false) _ rfl
  have hsecond := Pool.run_alone keyWorld hworld hfirst trivial (.inr true) (seeding devSeed) rfl
  have hseeded := replicas_seed_once (fun _ _ h => h.elim) (fun _ => rfl) hsecond
  have hdone : ∀ outcome, outcome = .existing → ∀ e, outcome ≠ SeedOutcome.skipped e := by
    intro outcome h e
    rw [h]
    exact SeedOutcome.noConfusion
  exact ⟨_, rfl, hseeded.2 true .existing rfl (hdone _ rfl)⟩

/-- Two requests with the key "dev-inference-key". -/
def devRequests : Deployment Bool Empty :=
  ⟨.default, true, fun _ => "dev-inference-key", Empty.elim⟩

/-- The table with the key deactivated. -/
def revokedTable : KeyTable := ⟨[{ devKey with isActive := false }], List.nodup_singleton _⟩

lemma revoked_withTable (s : AuthState) : Revoked devKey.keyHash (s.withTable revokedTable) :=
  ⟨_, rfl, rfl⟩

/-- A request that follows the revocation is let in from the cache. -/
theorem revocation_kept_sample :
    letI := Runtime.ascii
    letI := Digests.listed devKeyDigest
    ∃ (earlier : List (ℚ≥0 × Act (Bool ⊕ Empty) KeyOp KeyOp.Reply)) (row : APIKey)
      (j : Bool ⊕ Empty), row.keyHash = devKey.keyHash ∧ SelectedBy (keyHistory earlier) j row := by
  let ascii := Runtime.ascii
  let digests := Digests.listed devKeyDigest
  let init : Pool (Bool ⊕ Empty) KeyOp KeyOp.Reply KeyOutcome AuthState :=
    ⟨devState, devRequests.member⟩
  let validation := validateApiKey "dev-inference-key" .default true
  let request := validating .default true "dev-inference-key"
  have hworld : ∀ op (s : AuthState), True →
      KeyAnswers s op (keyWorld op s).1 (keyWorld op s).2 ∧ True :=
    fun op s _ => ⟨keyWorld_answers op s, trivial⟩
  have hfirst := Pool.run_alone keyWorld hworld
    (Run.nil : Run (Pool.Step KeyAnswers AuthState.Drifts) init [] init) trivial (.inl false)
    request rfl
  have hwritten : request.final keyWorld devState =
      devState.put (authCacheKey devKey.keyHash) (.json devKey.payload) 600 := rfl
  -- the key is deactivated
  let served := request.final keyWorld devState
  let mid : Pool (Bool ⊕ Empty) KeyOp KeyOp.Reply KeyOutcome AuthState :=
    ⟨served.withTable revokedTable, Function.update init.members (.inl false)
      (.done (request.result keyWorld devState))⟩
  have hearlier := hfirst.snoc (Pool.Step.drifted (s := served.withTable revokedTable)
    ⟨le_rfl, fun _ => .inl rfl⟩)
  obtain ⟨earlier, -, hearlier⟩ := Pool.run_stamped AuthState.clock hearlier
  have hsecond := Pool.run_alone keyWorld hworld
    (Run.nil : Run (Pool.Step KeyAnswers (DriftsRevoked devKey.keyHash)) mid [] mid) trivial
    (.inl true) request rfl
  obtain ⟨later, -, hlater⟩ := Pool.run_stamped AuthState.clock hsecond
  have hlive : (served.withTable revokedTable).live (authCacheKey devKey.keyHash) =
      some (.json devKey.payload) := by
    have hput := AuthState.live_put devState (authCacheKey devKey.keyHash) (.json devKey.payload)
      (show 0 < 600 by decide)
    exact hput
  have hresult : request.result keyWorld (served.withTable revokedTable) =
      .validated (.ok devKey.context.loaded) := by
    have hlooking : validation = lookingUp devKey.keyHash .default :=
      validateApiKey_eq (by decide) .default true
    have hload := ofReply_payload (rfl : devKey.isActive = true)
    show (validation.within validations >>= fun r => (done (.validated r) : KeyCoroutine)).result
      keyWorld _ = _
    rw [hlooking, lookingUp, within_call, call_bind, result_call]
    simp only [validations, keyWorld, authWorld, hlive, afterGet, hload]
    rfl
  have hdone : Function.update mid.members (.inl true)
      (.done (request.result keyWorld mid.shared)) (.inl true) =
        .done (.validated (.ok devKey.context.loaded)) := by
    rw [Function.update_self]
    exact congrArg done hresult
  obtain ⟨row, j, hhash, -, hselected, -⟩ := revocation_kept (i := true)
    (fun _ => rfl) (fun _ => rfl) hearlier (revoked_withTable _) hlater (by decide)
    rfl hdone
  exact ⟨earlier, row, j, hhash, hselected⟩

end InferenceControlPlane.Gateway
