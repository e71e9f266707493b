import InferenceControlPlane.Gateway.CacheKeys
import InferenceControlPlane.Gateway.Ledger

/-!
# Whose answer the cache gives

Requests of any tenants and users interleave on one Redis. An entry was put there by a
request with the same key, so a hit answers the request's own question whenever no two
of the requests are confused.
-/
namespace InferenceControlPlane.Gateway
open Python Program

/-! ## Redis as a store of texts -/

abbrev Store : Type := String → Option Text

/-- What Redis may answer, and what it then holds. A call that raises may have had its
effect. The rate limiter's counters live in the same store. -/
def StoreAnswers (s : Store) : (op : Op) → Op.Reply op → Store → Prop
  | .get key, reply, s' => s' = s ∧ ((∃ e, reply = .error e) ∨ reply = .ok (s key))
  | .set key value _, reply, s' => s' = Function.update s key (some value) ∨
      ((∃ e, reply = .error e) ∧ s' = s)
  | .incrTtl key, _, s' => ∀ key', key' ≠ key → s' key' = s key'
  | .expire key _, _, s' => ∀ key', key' ≠ key → s' key' = s key'
  | _, _, s' => s' = s

def isCacheKey (key : String) : Prop := ∃ digest, key = "cache:inference:" ++ digest

/-- Between two calls, entries expire or are evicted, and other keys may change; an entry never
turns into another one. -/
def Drifts (s s' : Store) : Prop := ∀ key, isCacheKey key → s' key = s key ∨ s' key = none

lemma rate_ne_cacheKey {key : String} (hrate : ∃ rest, key = "rate:" ++ rest) :
    ¬ isCacheKey key := by
  rintro ⟨digest, hcache⟩
  obtain ⟨rest, rfl⟩ := hrate
  have hhead := congrArg (fun text => text.toList.head?) hcache
  simp at hhead

/-! ## The calls of a request -/

section
variable [Runtime] [Digests]

/-- The calls of the endpoint: those of the handler, then entries under the request's
key and rows. -/
def Op.Serves (key : String) (op : Op) : Prop :=
  op.Handles key ∨ (∃ row, op = .persist row) ∨
    ∃ (entry : CachedResponse) (ttl : ℕ), op = .set key (.json entry.payload) ttl

/-- A task of a request with this key: what it writes to the cache is an answer that was generated
for that key. -/
def Task.Keeps (settings : Settings) (payload : GenerateRequest) : Task → Prop
  | .persistRequestLog _ => True
  | .setCachedResponse prompt model _ _ => prompt = redactPii payload.prompt ∧
      model = cacheModelKey (chooseModel payload settings)

lemma serve_keeps (hasRedis : Bool) (settings : Settings) (payload : GenerateRequest)
    (auth : AuthContext) (started : ℚ) (requestId : String) :
    (serve hasRedis settings payload auth started requestId).Ensures fun _ result =>
      ∀ answer, result = .ok answer → ∀ task ∈ answer.2, task.Keeps settings payload := by
  refine serve_rule (enforceRateLimits_ensures _ _ _ _) (getCachedResponse_always _ _ _).ensures
    (completeFor_always _ _).ensures ?_ ?_ ?_ ?_
  · rintro _ _ - _ ⟨⟩
  · rintro _ _ cached - - finished now _ _ _ ⟨⟩ task htask
    obtain rfl := List.mem_singleton.mp htask
    trivial
  · rintro _ _ _ _ - - - _ ⟨⟩
  · rintro _ _ _ modelUsed text - - - finished now _ _ _ _ ⟨⟩ task htask
    rcases List.mem_cons.mp htask with rfl | htask
    · exact ⟨rfl, rfl⟩
    · obtain rfl := List.mem_singleton.mp htask
      trivial

theorem handleGenerateRequest_keeps (hasRedis : Bool) (settings : Settings)
    (payload : GenerateRequest) (auth : AuthContext) :
    (handleGenerateRequest hasRedis settings payload auth).Ensures fun _ handled =>
      ∀ response, handled.1 = .ok response → ∀ task ∈ handled.2, task.Keeps settings payload := by
  refine handleGenerateRequest_rule (serve_keeps _ _ _ _) ?_ ?_
  · exact fun _ _ _ response tasks hserved _ _ => hserved (response, tasks) rfl
  · rintro _ _ _ _ - finished _ _ ⟨⟩

omit [Runtime] in
lemma setCachedResponse_serves (hasRedis : Bool) (prompt model : String) (entry : CachedResponse)
    (ttlSeconds : ℕ) : (setCachedResponse hasRedis prompt model entry ttlSeconds).Always
      (Op.Serves (cacheKey prompt model)) := by
  cases hasRedis with
  | false => exact always_done _ _
  | true => exact ⟨.inr (.inr ⟨entry, ttlSeconds, rfl⟩), fun _ => trivial⟩

lemma runTasks_serves (hasRedis : Bool) (settings : Settings) (payload : GenerateRequest)
    {tasks : List Task} (htasks : ∀ task ∈ tasks, task.Keeps settings payload) :
    (runTasks hasRedis tasks).Always (Op.Serves (requestKey settings payload)) := by
  induction tasks with
  | nil => exact always_done _ _
  | cons task tasks ih =>
    obtain ⟨htask, hrest⟩ := List.forall_mem_cons.mp htasks
    refine Always.bind ?_ fun _ => ih hrest
    cases task with
    | persistRequestLog log => exact ⟨.inr (.inl ⟨log.row, rfl⟩), fun _ => trivial⟩
    | setCachedResponse prompt model entry ttlSeconds =>
      obtain ⟨rfl, rfl⟩ := htask
      exact setCachedResponse_serves _ _ _ _ _

theorem generate_serves (hasRedis : Bool) (settings : Settings) (payload : GenerateRequest)
    (auth : AuthContext) : (generate hasRedis settings payload auth).Always
      (Op.Serves (requestKey settings payload)) := by
  unfold generate
  refine ((handleGenerateRequest_handles _ _ _ _).mono fun _ => .inl).bind_of_ensures ?_
  refine (handleGenerateRequest_keeps _ _ _ _).mono fun _ handled hkeeps => ?_
  obtain ⟨outcome, tasks⟩ := handled
  cases outcome with
  | error e => exact always_done _ _
  | ok response =>
    exact (runTasks_serves _ _ _ (hkeeps response rfl)).bind fun _ => always_done _ _

/-! ## Provenance -/

omit [Runtime] [Digests] in
/-- A call of a request changes cache entries only by setting them. -/
lemma entry_after {key key' : String} {op : Op} {reply : Op.Reply op} {s s' : Store} {value : Text}
    (hserves : op.Serves key) (h : StoreAnswers s op reply s') (hkey : isCacheKey key')
    (hvalue : s' key' = some value) : s key' = some value ∨ ∃ ttl, op = .set key' value ttl := by
  have hsame : s' = s → s key' = some value := fun heq => heq ▸ hvalue
  have hrate : ∀ counter, (∃ rest, counter = "rate:" ++ rest) →
      (∀ key'', key'' ≠ counter → s' key'' = s key'') → s key' = some value := by
    intro counter hcounter hothers
    rw [← hothers key' fun heq => rate_ne_cacheKey hcounter (heq ▸ hkey)]
    exact hvalue
  cases op with
  | get => exact .inl (hsame h.1)
  | set setKey setValue ttl =>
    rcases h with rfl | ⟨-, rfl⟩
    · by_cases heq : key' = setKey
      · subst heq
        rw [Function.update_self] at hvalue
        cases hvalue
        exact .inr ⟨ttl, rfl⟩
      · rw [Function.update_of_ne heq] at hvalue
        exact .inl hvalue
    · exact .inl hvalue
  | incrTtl counter =>
    rcases hserves with hhandles | ⟨row, hrow⟩ | ⟨entry, ttl, hset⟩
    · exact .inl (hrate counter hhandles h)
    · cases hrow
    · cases hset
  | expire counter seconds =>
    rcases hserves with hhandles | ⟨row, hrow⟩ | ⟨entry, ttl, hset⟩
    · exact .inl (hrate counter hhandles h)
    · cases hrow
    · cases hset
  | _ => exact .inl (hsame h)

variable {ι : Type} [DecidableEq ι]

/-- A pool of requests before they start, each at its endpoint, on a store without entries of the
cache. Every entry that is read later was written by one of them. -/
structure Requested (settings : Settings) (requests : ι → GenerateRequest × AuthContext)
    (pool : Pool ι Op Op.Reply (Except HttpException GenerateResponse) Store) : Prop where
  members : ∀ i, pool.members i = generate true settings (requests i).1 (requests i).2
  empty : ∀ key, isCacheKey key → pool.shared key = none

/-- What holds of every run: who set an entry, under which key, and which entries there
are. -/
structure Traced (settings : Settings) (requests : ι → GenerateRequest × AuthContext)
    (acts : List (Act ι Op Op.Reply))
    (pool : Pool ι Op Op.Reply (Except HttpException GenerateResponse) Store) : Prop where
  members : ∀ i, (pool.members i).Always (Op.Serves (requestKey settings (requests i).1))
  written : ∀ i key value ttl reply, .called i ⟨.set key value ttl, reply⟩ ∈ acts →
    key = requestKey settings (requests i).1 ∧ ∃ entry : CachedResponse, value = .json entry.payload
  stored : ∀ key value, isCacheKey key → pool.shared key = some value →
    ∃ i ttl reply, .called i ⟨.set key value ttl, reply⟩ ∈ acts

omit [DecidableEq ι] in
lemma traced_start {settings : Settings} {requests : ι → GenerateRequest × AuthContext}
    {pool : Pool ι Op Op.Reply (Except HttpException GenerateResponse) Store}
    (h : Requested settings requests pool) : Traced settings requests [] pool := by
  refine ⟨?_, by simp, ?_⟩
  · intro i
    rw [h.members i]
    exact generate_serves _ _ _ _
  · intro key value hkey hvalue
    rw [h.empty key hkey] at hvalue
    cases hvalue

theorem traced_step {settings : Settings} {requests : ι → GenerateRequest × AuthContext}
    {acts : List (Act ι Op Op.Reply)}
    {pool pool' : Pool ι Op Op.Reply (Except HttpException GenerateResponse) Store}
    {act : Act ι Op Op.Reply} (h : Traced settings requests acts pool)
    (hstep : Pool.Step StoreAnswers Drifts pool act pool') :
    Traced settings requests (acts ++ [act]) pool' := by
  have hmembers := hstep.always h.members
  cases hstep with
  | drifted hdrift =>
    refine ⟨hmembers, ?_, ?_⟩
    · intro i key value ttl reply hact
      exact h.written i key value ttl reply (by simpa using hact)
    · intro key value hkey hvalue
      rcases hdrift key hkey with hsame | hgone
      · obtain ⟨i, ttl, reply, hact⟩ := h.stored key value hkey (hsame ▸ hvalue)
        exact ⟨i, ttl, reply, List.mem_append_left _ hact⟩
      · exact absurd (hgone.symm.trans hvalue) (by simp)
  | @called i op next reply s hmember hanswer =>
    have hserves : op.Serves (requestKey settings (requests i).1) := by
      have hi := h.members i
      rw [hmember] at hi
      exact hi.1
    refine ⟨hmembers, ?_, ?_⟩
    · intro j key value ttl stored hact
      rcases List.mem_append.mp hact with hact | hact
      · exact h.written j key value ttl stored hact
      · cases List.mem_singleton.mp hact
        rcases hserves with hhandles | ⟨row, hrow⟩ | ⟨entry, ttl, hset⟩
        · cases hhandles
        · cases hrow
        · cases hset
          exact ⟨rfl, entry, rfl⟩
    · intro key value hkey hvalue
      rcases entry_after hserves hanswer hkey hvalue with hbefore | ⟨ttl, rfl⟩
      · obtain ⟨j, ttl, stored, hact⟩ := h.stored key value hkey hbefore
        exact ⟨j, ttl, stored, List.mem_append_left _ hact⟩
      · exact ⟨i, ttl, reply, List.mem_append_right _ List.mem_cons_self⟩

theorem traced_run {settings : Settings} {requests : ι → GenerateRequest × AuthContext}
    {init pool : Pool ι Op Op.Reply (Except HttpException GenerateResponse) Store}
    {acts : List (Act ι Op Op.Reply)} (hinit : Requested settings requests init)
    (hrun : Run (Pool.Step StoreAnswers Drifts) init acts pool) :
    Traced settings requests acts pool :=
  hrun.invariant (traced_start hinit) fun _ _ _ _ h hstep => traced_step h hstep

/-! ## Soundness -/

/-- Whenever a request is answered from the cache, a request of the same question has set
the entry, and no request of another question has set any under that key. -/
def CacheSound (question : ι → Question) (acts : List (Act ι Op Op.Reply)) : Prop :=
  ∀ before after i key reply entry, acts = before ++ .called i ⟨.get key, reply⟩ :: after →
    cachedOf reply = some entry →
      (∃ j ttl stored, .called j ⟨.set key (.json entry.payload) ttl, stored⟩ ∈ before ∧
        question j = question i) ∧
      ∀ j value ttl stored, .called j ⟨.set key value ttl, stored⟩ ∈ before →
        question j = question i

omit [Digests] in
lemma cachedOf_eq_some {found : Option Text} {entry : CachedResponse}
    (h : cachedOf (.ok found) = some entry) :
    ∃ payload, found = some (.json payload) ∧ CachedResponse.ofPayload payload = .ok entry := by
  unfold cachedOf at h
  split at h
  · rename_i payload heq
    cases heq
    cases hentry : CachedResponse.ofPayload payload with
    | error e => simp [hentry, Except.toOption] at h
    | ok read =>
      simp only [hentry, Except.toOption, Option.some.injEq] at h
      exact ⟨payload, rfl, h ▸ hentry⟩
  · cases h

omit [DecidableEq ι] in
lemma question_eq_of_key {settings : Settings} {requests : ι → GenerateRequest × AuthContext}
    (hsha : Set.InjOn Digests.sha256 (Set.range fun i => (questionOf settings (requests i).1).text))
    (hdistinct : ∀ i j, ¬ Question.Confused (questionOf settings (requests i).1)
      (questionOf settings (requests j).1)) {i j : ι}
    (hkey : requestKey settings (requests i).1 = requestKey settings (requests j).1) :
    questionOf settings (requests i).1 = questionOf settings (requests j).1 := by
  have hdigest : Digests.sha256 (questionOf settings (requests i).1).text =
      Digests.sha256 (questionOf settings (requests j).1).text := by
    have htexts := congrArg String.toList hkey
    simp only [requestKey, toList_cacheKey, List.append_cancel_left_eq] at htexts
    exact String.toList_inj.mp htexts
  have htext := hsha ⟨i, rfl⟩ ⟨j, rfl⟩ hdigest
  by_contra hne
  rcases (Question.text_eq_iff (questionOf_routed _ _) (questionOf_routed _ _)).mp ⟨htext, hne⟩
    with hconfused | hconfused
  · exact hdistinct i j hconfused
  · exact hdistinct j i hconfused

/-- In every interleaving of requests on one Redis, with entries that expire and calls that fail,
an answer from the cache is the completion of a request with the same model key and the same
redacted prompt, provided that no two of the requests are confused by the colon in their cache
keys. -/
theorem cache_sound (settings : Settings) (requests : ι → GenerateRequest × AuthContext)
    (init pool : Pool ι Op Op.Reply (Except HttpException GenerateResponse) Store)
    (acts : List (Act ι Op Op.Reply)) (hinit : Requested settings requests init)
    (hrun : Run (Pool.Step StoreAnswers Drifts) init acts pool)
    (hsha : Set.InjOn Digests.sha256 (Set.range fun i => (questionOf settings (requests i).1).text))
    (hdistinct : ∀ i j, ¬ Question.Confused (questionOf settings (requests i).1)
      (questionOf settings (requests j).1)) :
    CacheSound (fun i => questionOf settings (requests i).1) acts := by
  rintro before after i key reply entry rfl hhit
  obtain ⟨pool₁, pool₂, hbefore, hstep⟩ := hrun.step_of_append
  have h := traced_run hinit hbefore
  cases hstep with
  | @called _ _ next _ s hmember hanswer =>
    have hkey : key = requestKey settings (requests i).1 := by
      have hi := h.members i
      rw [hmember] at hi
      rcases hi.1 with hhandles | ⟨row, hrow⟩ | ⟨entry, ttl, hset⟩
      · exact hhandles
      · cases hrow
      · cases hset
    have hsame : ∀ j value ttl stored, .called j ⟨.set key value ttl, stored⟩ ∈ before →
        questionOf settings (requests j).1 = questionOf settings (requests i).1 := by
      intro j value ttl stored hact
      have hkey' := (h.written j key value ttl stored hact).1
      exact question_eq_of_key hsha hdistinct (hkey'.symm.trans hkey)
    refine ⟨?_, hsame⟩
    obtain ⟨-, ⟨e, rfl⟩ | rfl⟩ := hanswer
    · cases hhit
    · obtain ⟨payload, hvalue, hpayload⟩ := cachedOf_eq_some hhit
      obtain ⟨j, ttl, stored, hact⟩ := h.stored key _ ⟨_, hkey⟩ hvalue
      obtain ⟨-, written, hwritten⟩ := h.written j key _ ttl stored hact
      cases hwritten
      rw [CachedResponse.ofPayload_payload] at hpayload
      cases hpayload
      exact ⟨j, ttl, stored, hact, hsame j _ ttl stored hact⟩

/-! ## Two requests, one after the other -/

/-- A Redis that never fails, and idle surroundings. -/
def storeWorld : World Op Op.Reply Store
  | .get key, s => (.ok (s key), s)
  | .set key value _, s => (.ok (), Function.update s key (some value))
  | op, s => (op.idle, s)

omit [Runtime] [Digests] in
lemma storeWorld_answers (op : Op) (s : Store) :
    StoreAnswers s op (storeWorld op s).1 (storeWorld op s).2 := by
  cases op with
  | get => exact ⟨rfl, .inr rfl⟩
  | set => exact .inl rfl
  | incrTtl => exact fun _ _ => rfl
  | expire => exact fun _ _ => rfl
  | _ => rfl

/-- Two requests before they start, on an empty store. -/
def twoRequests (requests : Bool → GenerateRequest × AuthContext) :
    Pool Bool Op Op.Reply (Except HttpException GenerateResponse) Store :=
  ⟨fun _ => none, fun i => generate true .default (requests i).1 (requests i).2⟩

/-- The calls of the first request, then those of the second. -/
def inTurn (requests : Bool → GenerateRequest × AuthContext) : List (Act Bool Op Op.Reply) :=
  let first := generate true .default (requests false).1 (requests false).2
  let second := generate true .default (requests true).1 (requests true).2
  (first.trace storeWorld fun _ => none).map (.called false) ++
    (second.trace storeWorld (first.final storeWorld fun _ => none)).map (.called true)

lemma run_inTurn (requests : Bool → GenerateRequest × AuthContext) :
    ∃ pool, Run (Pool.Step StoreAnswers Drifts) (twoRequests requests) (inTurn requests) pool := by
  have hworld : ∀ op s, True → StoreAnswers s op (storeWorld op s).1 (storeWorld op s).2 ∧ True :=
    fun op s _ => ⟨storeWorld_answers op s, trivial⟩
  have hfirst := Pool.run_alone storeWorld hworld
    (Run.nil : Run (Pool.Step StoreAnswers Drifts) (twoRequests requests) [] _) trivial false _ rfl
  have hsecond := Pool.run_alone storeWorld hworld hfirst trivial true
    (generate true .default (requests true).1 (requests true).2) (by simp [twoRequests])
  exact ⟨_, hsecond⟩

end

/-- A request with a model override. -/
def GenerateRequest.overriding (prompt userId model : String)
    (hprompt : 1 ≤ prompt.length ∧ prompt.length ≤ 20000)
    (huser : 1 ≤ userId.length ∧ userId.length ≤ 128) (hmodel : model.length ≤ 128) :
    GenerateRequest :=
  { GenerateRequest.plain prompt userId hprompt huser with
    modelOverride := some model
    modelOverride_length := by simpa using hmodel }

/-- "a:b" for the model "m", then "b" for the model "m:a". -/
def shiftedRequests : Bool → GenerateRequest × AuthContext
  | false => (.overriding "a:b" "u" "m" (by decide) (by decide) (by decide),
      ⟨"acme", "key-1", 120, "user"⟩)
  | true => (.overriding "b" "v" "m:a" (by decide) (by decide) (by decide),
      ⟨"globex", "key-2", 120, "user"⟩)

/-- The digest of the one text that both hash. -/
def shiftedDigest : List (String × String) :=
  [("m:a:b", "0c6bb2fe24e186af0ba3c31e904f3ac1903cd6da482c522b6c42b87eb715492a")]

/-- The colon of one prompt stands where the other request's model key ends: the second request is
answered with the completion of the first one's prompt, on another model. -/
theorem shifted_prompt_answered :
    letI := Runtime.ascii
    letI := Digests.listed shiftedDigest
    Requested .default shiftedRequests (twoRequests shiftedRequests) ∧
      (∃ pool, Run (Pool.Step StoreAnswers Drifts) (twoRequests shiftedRequests)
        (inTurn shiftedRequests) pool) ∧
      Set.InjOn Digests.sha256
        (Set.range fun i => (questionOf .default (shiftedRequests i).1).text) ∧
      ¬ CacheSound (fun i => questionOf .default (shiftedRequests i).1)
        (inTurn shiftedRequests) := by
  let ascii := Runtime.ascii
  let digests := Digests.listed shiftedDigest
  refine ⟨⟨fun _ => rfl, fun _ _ => rfl⟩, run_inTurn _, ?_, fun hsound => ?_⟩
  · rintro _ ⟨i, rfl⟩ _ ⟨j, rfl⟩ -
    cases i <;> cases j <;> decide +kernel
  · have hhit := hsound ((inTurn shiftedRequests).take 25) ((inTurn shiftedRequests).drop 26) true
      _ _ _ rfl rfl
    have hsame := hhit.2 false _ _ _ (List.mem_of_getElem? (i := 15) rfl)
    revert hsame
    decide +kernel

/-- One question of two users in two tenants. -/
def sharedRequests : Bool → GenerateRequest × AuthContext
  | false => (.plain "hello" "u" (by decide) (by decide), ⟨"acme", "key-1", 120, "user"⟩)
  | true => (.plain "hello" "v" (by decide) (by decide), ⟨"globex", "key-2", 120, "user"⟩)

theorem cache_sound_sample :
    letI := Runtime.ascii
    letI := Digests.listed helloDigest
    (∃ entry, .called true ⟨.get (requestKey .default (sharedRequests true).1),
        .ok (some (.json (CachedResponse.payload entry)))⟩ ∈ inTurn sharedRequests) ∧
      CacheSound (fun i => questionOf .default (sharedRequests i).1) (inTurn sharedRequests) := by
  let ascii := Runtime.ascii
  let digests := Digests.listed helloDigest
  have hquestion : ∀ i, questionOf .default (sharedRequests i).1 =
      questionOf .default (sharedRequests false).1 := by
    intro i
    cases i <;> decide +kernel
  obtain ⟨pool, hrun⟩ := run_inTurn sharedRequests
  refine ⟨⟨_, List.mem_of_getElem? (i := 25) rfl⟩, cache_sound .default sharedRequests _ pool _
    ⟨fun _ => rfl, fun _ _ => rfl⟩ hrun ?_ fun i j hconfused => ?_⟩
  · rintro _ ⟨i, rfl⟩ _ ⟨j, rfl⟩ -
    exact congrArg Question.text ((hquestion i).trans (hquestion j).symm)
  · exact hconfused.ne ((hquestion i).trans (hquestion j).symm)

end InferenceControlPlane.Gateway
