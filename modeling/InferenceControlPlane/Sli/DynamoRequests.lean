import InferenceControlPlane.Runs
import InferenceControlPlane.Sli.DynamoItems
import InferenceControlPlane.Sli.VersionChain

/-!
# Lost answers and late requests

Any number of processes save to the items of any number of jobs. A request may fail before
it reaches the table, its answer may be lost, copies of it that the client has sent again or
has given up may still arrive, at any time after, and a load may be answered with what the
table held some time ago. The versions of an item count its writes all the same, and what a
store writes replaces only what it knew of.
-/
namespace InferenceControlPlane.Sli
open Python DynamoDbCheckpointStore

/-- A request with the process that sent it and the store as it was. -/
structure Sent (ι : Type) where
  process : ι
  origin : DynamoDbCheckpointStore
  cp : Checkpoint
  request : PutItem

/-- What happens to the tables and the processes. A load is answered as of the first `asOf`
happenings; a request that is posted is one that the client still waits for. -/
inductive Happening (ι : Type) where
  | started (i : ι) (table jobId : String)
  | loaded (i : ι) (key : String × String) (asOf : ℕ) (result : Except PyErr (Option LoadedItem))
  | unloaded (i : ι) (e : PyErr)
  | posted (sent : Sent ι)
  | saved (sent : Sent ι) (lost : Option ClientError) (applied : Bool)
      (result : Except SaveError Unit)
  | unsent (i : ι) (cp : Checkpoint) (e : PyErr)
  | arrived (sent : Sent ι) (applied : Bool)

/-- The tables as they are and as they were before each happening, the store of each process,
and the copies of requests that are under way. -/
structure Cloud (ι : Type) where
  tables : Tables
  past : List Tables
  stores : ι → DynamoDbCheckpointStore
  inFlight : List (Sent ι)

section
variable {ι : Type} [DecidableEq ι]

namespace Cloud

/-- No items, and stores that have not loaded. -/
def fresh (config : ι → String × String) : Cloud ι :=
  ⟨fun _ => none, [], fun i => ⟨(config i).1, (config i).2, 0⟩, []⟩

def put (c : Cloud ι) (i : ι) (store : DynamoDbCheckpointStore) : Cloud ι :=
  { c with stores := Function.update c.stores i store }

@[simp] lemma put_self (c : Cloud ι) (i : ι) (store : DynamoDbCheckpointStore) :
    (c.put i store).stores i = store := Function.update_self ..

lemma put_of_ne {i j : ι} (h : j ≠ i) (c : Cloud ι) (store : DynamoDbCheckpointStore) :
    (c.put i store).stores j = c.stores j := Function.update_of_ne h ..

/-- The store of a process once `put_item` has returned or raised; a process whose answer is lost
keeps the version that it knew. -/
def conclude (c : Cloud ι) (i : ι) (answer : Except PutError Unit) : Cloud ι :=
  c.put i ((c.stores i).conclude answer).2

/-- Copies of a request that the client leaves under way. -/
def leave (c : Cloud ι) (late : ℕ) (sent : Sent ι) : Cloud ι :=
  { c with inFlight := c.inFlight ++ List.replicate late sent }

/-- A request reaches its table. -/
def reach (c : Cloud ι) (request : PutItem) : Cloud ι :=
  { c with tables := request.write c.tables }

/-- What a happening makes of the tables, the stores and the requests. A read of DynamoDB that
does not ask for consistency may miss the latest writes: a load sees the item as some moment
before it held it. While a client waits for an answer it may send its request again, so that
copies of it arrive before the one that is answered. -/
inductive Change [Runtime] : Cloud ι → Happening ι → Cloud ι → Prop
  | start (c : Cloud ι) (i : ι) (table jobId : String) :
      Change c (.started i table jobId) (c.put i ⟨table, jobId, 0⟩)
  | load (c : Cloud ι) (i : ι) {asOf : ℕ} {tables : Tables}
      (h : (c.past ++ [c.tables])[asOf]? = some tables) :
      Change c (.loaded i (c.stores i).key asOf ((c.stores i).load (tables (c.stores i).key)).1)
        (c.put i ((c.stores i).load (tables (c.stores i).key)).2)
  | loadFailed (c : Cloud ι) (i : ι) (e : PyErr) : Change c (.unloaded i e) c
  | send (c : Cloud ι) (i : ι) (cp : Checkpoint) (request : PutItem) (copies : ℕ)
      (h : (c.stores i).request cp = .ok request) :
      Change c (.posted ⟨i, c.stores i, cp, request⟩) (c.leave copies ⟨i, c.stores i, cp, request⟩)
  | save (c : Cloud ι) (i : ι) (cp : Checkpoint) (request : PutItem) (late : ℕ)
      (h : (c.stores i).request cp = .ok request) :
      Change c (.saved ⟨i, c.stores i, cp, request⟩ none (request.holds (c.tables request.key))
          ((c.stores i).conclude (answerOf request c.tables)).1)
        (((c.conclude i (answerOf request c.tables)).reach request).leave late
          ⟨i, c.stores i, cp, request⟩)
  | saveFailed (c : Cloud ι) (i : ι) (cp : Checkpoint) (request : PutItem) (late : ℕ)
      (error : ClientError) (h : (c.stores i).request cp = .ok request) :
      Change c (.saved ⟨i, c.stores i, cp, request⟩ (some error) false
          ((c.stores i).conclude (.error error.translate)).1)
        ((c.conclude i (.error error.translate)).leave late ⟨i, c.stores i, cp, request⟩)
  | saveRaised (c : Cloud ι) (i : ι) (cp : Checkpoint) (e : PyErr)
      (h : (c.stores i).request cp = .error e) : Change c (.unsent i cp e) c
  | arrive (c : Cloud ι) (sent : Sent ι) (before after : List (Sent ι))
      (h : c.inFlight = before ++ sent :: after) :
      Change c (.arrived sent (sent.request.holds (c.tables sent.request.key)))
        { c.reach sent.request with inFlight := before ++ after }

/-- The past of a cloud with the tables that were there before. -/
def elapsed (c before : Cloud ι) : Cloud ι := { c with past := before.past ++ [before.tables] }

/-- A happening, and the tables before it remembered. -/
inductive Step [Runtime] : Cloud ι → Happening ι → Cloud ι → Prop
  | of {c c' : Cloud ι} {e : Happening ι} (h : Change c e c') : Step c e (c'.elapsed c)

end Cloud

/-! ## What a history says -/

namespace Happening

/-- The request that replaced an item. -/
def write? : Happening ι → Option (Sent ι)
  | saved sent _ true _ => some sent
  | arrived sent true => some sent
  | _ => none

/-- The request that a process has sent. -/
def sends? : Happening ι → Option (Sent ι)
  | posted sent => some sent
  | saved sent _ _ _ => some sent
  | _ => none

def starts (i : ι) : Happening ι → Bool
  | started j _ _ => j = i
  | _ => false

end Happening

/-- The requests that replaced an item, in their order. -/
def writesTo (key : String × String) (events : List (Happening ι)) : List (Sent ι) :=
  events.filterMap fun e => e.write?.filter fun sent => sent.request.key = key

/-- The number of writes that process `i` learns of when something happens after the earlier
events: those that its load was shown, or all of them when a save of its own is acknowledged. -/
def Happening.learns? (i : ι) (earlier : List (Happening ι)) : Happening ι → Option ℕ
  | .loaded j key asOf _ => if j = i then some (writesTo key (earlier.take asOf)).length else none
  | .saved sent lost applied (.ok u) => if sent.process = i then
      some (writesTo sent.origin.key (earlier ++ [.saved sent lost applied (.ok u)])).length
    else none
  | _ => none

/-- The number of writes that a process knows of, over a history whose latest event comes
first: those that it has learnt of last, none after a start. -/
def knownBack (i : ι) : List (Happening ι) → ℕ
  | [] => 0
  | e :: earlier =>
    if e.starts i then 0 else (e.learns? i earlier.reverse).getD (knownBack i earlier)

def known (i : ι) (events : List (Happening ι)) : ℕ := knownBack i events.reverse

/-- What a load shows of the given writes to the item: nothing if there are none, else the
checkpoint of the latest one, if its watermark is in UTC as those of the pipeline are. -/
def Shows (writes : List (Sent ι)) (result : Except PyErr (Option LoadedItem)) : Prop :=
  (writes = [] → result = .ok none) ∧
  ∀ sent, writes.getLast? = some sent → (∀ d, sent.cp.watermark = some d → d.IsUtc) →
    ∃ loaded, result = .ok (some loaded) ∧ loaded.Is sent.cp

/-- What holds of every history of saves and loads on the tables, whatever is lost, resent or
late: the conclusions are about the writes that took effect, the answered saves, and the answered
loads. -/
structure Serialized (events : List (Happening ι)) : Prop where
  /-- However often a request is sent, of all that were sent from one version of an item
  at most one takes effect, and the versions count up. -/
  versions : ∀ key, (writesTo key events).map (fun sent => sent.origin.version) =
    (List.range (writesTo key events).length).map fun n : ℕ => (n : ℤ)
  /-- What takes effect was sent by a save, from the writes that its process knew of. -/
  sources : ∀ key, ∀ sent ∈ writesTo key events, ∃ earlier e later,
    events = earlier ++ e :: later ∧ e.sends? = some sent ∧ sent.origin.key = key ∧
      sent.origin.version = known sent.process earlier
  /-- A save that is answered succeeds exactly when its process knows of every write. -/
  answered : ∀ earlier sent applied result later,
    events = earlier ++ .saved sent none applied result :: later →
      (applied = true ↔ known sent.process earlier = (writesTo sent.origin.key earlier).length) ∧
        result = if applied then .ok () else .error .conflict
  /-- A load shows the latest write of some moment before it. -/
  loaded : ∀ earlier i key asOf result later,
    events = earlier ++ .loaded i key asOf result :: later → asOf ≤ earlier.length ∧
      Shows (writesTo key (earlier.take asOf)) result

/-! ## What one step preserves -/

omit [DecidableEq ι] in
lemma writesTo_snoc (key : String × String) (events : List (Happening ι)) (e : Happening ι) :
    writesTo key (events ++ [e]) =
      writesTo key events ++ (e.write?.filter fun sent => sent.request.key = key).toList := by
  rw [writesTo, List.filterMap_append]
  rfl

lemma known_snoc (i : ι) (events : List (Happening ι)) (e : Happening ι) :
    known i (events ++ [e]) =
      if e.starts i then 0 else (e.learns? i events).getD (known i events) := by
  rw [known, List.reverse_append, List.reverse_singleton, List.singleton_append, knownBack,
    List.reverse_reverse]
  rfl

omit [DecidableEq ι] in
lemma writesTo_quiet {e : Happening ι} (h : e.write? = none) (key : String × String)
    (events : List (Happening ι)) : writesTo key (events ++ [e]) = writesTo key events := by
  rw [writesTo_snoc, h]
  exact List.append_nil _

omit [DecidableEq ι] in
lemma length_writesTo_le (key : String × String) (events : List (Happening ι))
    (e : Happening ι) : (writesTo key events).length ≤ (writesTo key (events ++ [e])).length := by
  rw [writesTo_snoc, List.length_append]
  omega

omit [DecidableEq ι] in
lemma length_writesTo_take_le (key : String × String) (events : List (Happening ι)) (n : ℕ) :
    (writesTo key (events.take n)).length ≤ (writesTo key events).length :=
  ((List.take_sublist n events).filterMap _).length_le

lemma known_loaded (i : ι) (key : String × String) (asOf : ℕ)
    (result : Except PyErr (Option LoadedItem)) (events : List (Happening ι)) :
    known i (events ++ [.loaded i key asOf result]) =
      (writesTo key (events.take asOf)).length := by
  rw [known_snoc]
  simp [Happening.starts, Happening.learns?]

variable [Runtime]

/-- A request as a save sent it: from a store object that knew of so many writes, for the next
version, and only if the table still holds the one it knows. -/
structure Made (events : List (Happening ι)) (sent : Sent ι) (n : ℕ) : Prop where
  version : sent.origin.version = n
  sends : Sends sent.origin n sent.cp sent.request
  behind : n ≤ (writesTo sent.origin.key events).length
  sent : ∃ earlier e later, events = earlier ++ e :: later ∧ e.sends? = some sent ∧
    n = known sent.process earlier

lemma Made.snoc {events : List (Happening ι)} {sent : Sent ι} {n : ℕ} (h : Made events sent n)
    (e : Happening ι) : Made (events ++ [e]) sent n := by
  obtain ⟨earlier, origin, later, hevents, hsent, hknown⟩ := h.sent
  refine ⟨h.version, h.sends, h.behind.trans (length_writesTo_le _ _ _), earlier, origin,
    later ++ [e], ?_, hsent, hknown⟩
  rw [hevents, List.append_assoc, List.cons_append]

/-- The item that a write leaves. -/
def Sent.itemAfter (sent : Sent ι) : DynamoItem :=
  ⟨sent.origin.version.toNat + 1, sent.cp.stored⟩

/-- The item after the given writes. -/
def itemOfWrites (writes : List (Sent ι)) : Option DynamoItem :=
  writes.getLast?.map Sent.itemAfter

/-- The tables hold what a history has written: under each key the item of the latest write, and
versions that count the writes. -/
structure Ledger (events : List (Happening ι)) (tables : Tables) : Prop where
  tables : ∀ key, tables key = (itemOfWrites (writesTo key events)).map (encode key.2)
  versions : ∀ key, (writesTo key events).map (fun sent => sent.origin.version) =
    (List.range (writesTo key events).length).map fun n : ℕ => (n : ℤ)
  made : ∀ key, ∀ sent ∈ writesTo key events, ∃ n, Made events sent n

omit [DecidableEq ι] [Runtime] in
lemma present_itemOfWrites (writes : List (Sent ι)) (it : DynamoItem)
    (h : itemOfWrites writes = some it) : it.version ≠ 0 := by
  obtain ⟨sent, -, rfl⟩ := Option.map_eq_some_iff.mp h
  exact Nat.succ_ne_zero _

omit [DecidableEq ι] [Runtime] in
/-- The version of an item counts its writes. -/
lemma versionOf_itemOfWrites {writes : List (Sent ι)}
    (h : writes.map (fun sent => sent.origin.version) =
      (List.range writes.length).map fun n : ℕ => (n : ℤ)) :
    versionOf (itemOfWrites writes) = writes.length := by
  rcases List.eq_nil_or_concat writes with rfl | ⟨earlier, sent, rfl⟩
  · rfl
  · rw [List.concat_eq_append] at h ⊢
    rw [List.length_append, List.length_singleton, List.range_succ, List.map_append,
      List.map_append] at h
    obtain ⟨-, hlast⟩ := List.append_inj' h rfl
    have hversion : sent.origin.version = earlier.length := by simpa using hlast
    simp [itemOfWrites, versionOf, Sent.itemAfter, hversion]

section Step
variable {events : List (Happening ι)} {tables : Tables} {e : Happening ι} {sent : Sent ι}
  {n : ℕ}

/-- A request takes effect exactly when its store knew of every write to the item. -/
lemma Ledger.holds (h : Ledger events tables) (hsends : Sends sent.origin n sent.cp sent.request) :
    sent.request.holds (tables sent.request.key) = true ↔
      n = (writesTo sent.origin.key events).length := by
  rw [hsends.key, h.tables, ← versionOf_itemOfWrites (h.versions sent.origin.key)]
  exact (Bool.eq_iff_iff.mp (hsends.holds _)).trans (condition_iff (present_itemOfWrites _))

lemma Ledger.quiet (h : Ledger events tables) (he : e.write? = none) :
    Ledger (events ++ [e]) tables where
  tables key := by rw [writesTo_quiet he, h.tables]
  versions key := by rw [writesTo_quiet he, h.versions]
  made key sent hsent := by
    rw [writesTo_quiet he] at hsent
    exact (h.made key sent hsent).imp fun n hn => hn.snoc e

/-- A request that reaches its table is written down if it takes effect. -/
lemma Ledger.reach (h : Ledger events tables) (hmade : Made (events ++ [e]) sent n)
    (he : e.write? = if sent.request.holds (tables sent.request.key) then some sent else none) :
    Ledger (events ++ [e]) (sent.request.write tables) := by
  by_cases hholds : sent.request.holds (tables sent.request.key) = true
  · rw [if_pos hholds] at he
    have hn := (h.holds hmade.sends).mp hholds
    have hkey := hmade.sends.key
    have hsame : ∀ key, key ≠ sent.origin.key →
        writesTo key (events ++ [e]) = writesTo key events := by
      intro key hne
      have hfilter : (some sent).filter (fun sent => sent.request.key = key) = none := by
        simp [Option.filter, hkey, Ne.symm hne]
      rw [writesTo_snoc, he, hfilter]
      exact List.append_nil _
    have hnew : writesTo sent.origin.key (events ++ [e]) =
        writesTo sent.origin.key events ++ [sent] := by
      have hfilter : (some sent).filter (fun sent' => sent'.request.key = sent.origin.key) =
          some sent := by
        simp [Option.filter, hkey]
      rw [writesTo_snoc, he, hfilter]
      rfl
    refine ⟨fun key => ?_, fun key => ?_, fun key sent' hsent' => ?_⟩
    · rw [PutItem.write, if_pos hholds, hkey]
      by_cases heq : key = sent.origin.key
      · have hitem : sent.itemAfter = ⟨n + 1, sent.cp.stored⟩ := by
          rw [Sent.itemAfter, hmade.version, Int.toNat_natCast]
        subst heq
        rw [Function.update_self, hnew, hmade.sends.item, itemOfWrites, List.getLast?_concat,
          Option.map_some, Option.map_some, hitem]
        rfl
      · rw [Function.update_of_ne heq, hsame key heq, h.tables]
    · by_cases heq : key = sent.origin.key
      · subst heq
        rw [hnew, List.map_append, List.length_append, List.length_singleton, List.range_succ,
          List.map_append, h.versions, ← hn]
        exact congrArg _ (congrArg (· :: []) hmade.version)
      · rw [hsame key heq, h.versions]
    · by_cases heq : key = sent.origin.key
      · subst heq
        rw [hnew] at hsent'
        rcases List.mem_append.mp hsent' with hold | hlast
        · exact (h.made _ sent' hold).imp fun n hn => hn.snoc e
        · rw [List.mem_singleton.mp hlast]
          exact ⟨n, hmade⟩
      · rw [hsame key heq] at hsent'
        exact (h.made key sent' hsent').imp fun n hn => hn.snoc e
  · rw [if_neg hholds] at he
    rw [PutItem.write, if_neg hholds]
    exact h.quiet he

end Step

/-- The invariant of histories: the tables, and each earlier state of them, are what the writes
until then come to, and what a process knows of an item are the first of its writes. -/
structure Accounts (events : List (Happening ι)) (c : Cloud ι) : Prop where
  ledger : Ledger events c.tables
  length_past : c.past.length = events.length
  past : ∀ k tables, c.past[k]? = some tables → Ledger (events.take k) tables
  flying : ∀ sent ∈ c.inFlight, ∃ n, Made events sent n
  held : ∀ i, (c.stores i).version = known i events
  behind : ∀ i, known i events ≤ (writesTo (c.stores i).key events).length

lemma accounts_fresh (config : ι → String × String) : Accounts [] (Cloud.fresh config) where
  ledger := {
    tables := fun _ => rfl
    versions := fun _ => rfl
    made := fun _ _ hsent => absurd hsent List.not_mem_nil }
  length_past := rfl
  past _ _ h := by cases h
  flying _ hsent := absurd hsent List.not_mem_nil
  held _ := rfl
  behind _ := Nat.zero_le _

section Step
variable {events : List (Happening ι)} {c c' : Cloud ι} {e : Happening ι}

/-- The tables at any moment hold what the history up to then has written. -/
lemma Accounts.ledgerAt (h : Accounts events c) {k : ℕ} {tables : Tables}
    (hk : (c.past ++ [c.tables])[k]? = some tables) :
    k ≤ events.length ∧ Ledger (events.take k) tables := by
  rw [← h.length_past]
  by_cases hlt : k < c.past.length
  · rw [List.getElem?_append_left hlt] at hk
    exact ⟨hlt.le, h.past k tables hk⟩
  · rw [List.getElem?_append_right (not_lt.mp hlt), List.getElem?_singleton] at hk
    split_ifs at hk with hzero
    obtain rfl : k = c.past.length := by omega
    obtain rfl := Option.some.inj hk
    rw [h.length_past, List.take_length]
    exact ⟨le_rfl, h.ledger⟩

/-- A step that concerns one process at most leaves what the others know. -/
lemma Accounts.step (h : Accounts events c) (hledger : Ledger (events ++ [e]) c'.tables)
    (hflying : ∀ sent ∈ c'.inFlight, sent ∈ c.inFlight ∨ ∃ n, Made (events ++ [e]) sent n)
    (hstores : ∀ i, (c'.stores i = c.stores i ∧ e.starts i = false ∧ e.learns? i events = none) ∨
      (c'.stores i).version = known i (events ++ [e]) ∧
        known i (events ++ [e]) ≤ (writesTo (c'.stores i).key (events ++ [e])).length) :
    Accounts (events ++ [e]) (c'.elapsed c) where
  ledger := hledger
  length_past := by
    rw [Cloud.elapsed, List.length_append, List.length_append, h.length_past]
    rfl
  past k tables hk := by
    obtain ⟨hle, hthen⟩ := h.ledgerAt hk
    rw [List.take_append_of_le_length hle]
    exact hthen
  flying sent hsent := by
    rcases hflying sent hsent with hold | hnew
    · exact (h.flying sent hold).imp fun n hn => hn.snoc e
    · exact hnew
  held i := by
    show (c'.stores i).version = _
    rcases hstores i with ⟨hstore, hstarts, hlearns⟩ | ⟨hversion, -⟩
    · rw [hstore, h.held, known_snoc, hstarts, hlearns]
      rfl
    · exact hversion
  behind i := by
    show _ ≤ (writesTo (c'.stores i).key _).length
    rcases hstores i with ⟨hstore, hstarts, hlearns⟩ | ⟨-, hbehind⟩
    · rw [hstore, known_snoc, hstarts, hlearns]
      exact (h.behind i).trans (length_writesTo_le _ _ _)
    · exact hbehind

/-- A request as a store sends it now. -/
lemma Accounts.made (h : Accounts events c) {i : ι} {cp : Checkpoint} {request : PutItem}
    (hrequest : (c.stores i).request cp = .ok request)
    (he : e.sends? = some ⟨i, c.stores i, cp, request⟩) :
    Made (events ++ [e]) ⟨i, c.stores i, cp, request⟩ (known i events) where
  version := h.held i
  sends := sends_of_request (h.held i) hrequest
  behind := (h.behind i).trans (length_writesTo_le _ _ _)
  sent := ⟨events, e, [], rfl, he, rfl⟩

/-- Copies of a request that was made are under way beside those that were. -/
lemma Made.leave {sent : Sent ι} {n : ℕ} (h : Made events sent n) (c : Cloud ι) (late : ℕ) :
    ∀ sent' ∈ (c.leave late sent).inFlight,
      sent' ∈ c.inFlight ∨ ∃ n, Made events sent' n := by
  intro sent' hsent
  rcases List.mem_append.mp hsent with hold | hnew
  · exact Or.inl hold
  · rw [(List.mem_replicate.mp hnew).2]
    exact Or.inr ⟨n, h⟩

/-- What a store learns when it loads: the number of the writes to its item. -/
lemma Ledger.load {tables : Tables} (h : Ledger events tables) (hint : ReadsNaturals)
    (store : DynamoDbCheckpointStore) :
    (store.load (tables store.key)).2 =
      { store with version := (writesTo store.key events).length } ∧
    Shows (writesTo store.key events) (store.load (tables store.key)).1 := by
  have hversions := h.versions store.key
  rw [h.tables]
  generalize hwrites : writesTo store.key events = writes at hversions ⊢
  rcases List.eq_nil_or_concat writes with rfl | ⟨earlier, sent, rfl⟩
  · refine ⟨rfl, fun _ => rfl, ?_⟩
    intro sent hsent
    cases hsent
  · rw [List.concat_eq_append] at hwrites hversions ⊢
    have hmem : sent ∈ writesTo store.key events := by
      rw [hwrites]
      exact List.mem_append_right _ List.mem_cons_self
    obtain ⟨n, hmade⟩ := h.made _ sent hmem
    have hitem : itemOfWrites (earlier ++ [sent]) = some ⟨n + 1, sent.cp.stored⟩ := by
      rw [itemOfWrites, List.getLast?_concat, Option.map_some, Sent.itemAfter, hmade.version,
        Int.toNat_natCast]
    have hlength := versionOf_itemOfWrites hversions
    rw [hitem] at hlength
    obtain ⟨text, htext⟩ := hmade.sends.writable
    rw [hitem, Option.map_some]
    have hload : store.load (some (encode store.jobId ⟨n + 1, sent.cp.stored⟩)) =
        _ := load_encode hint store htext
    rw [show store.key.2 = store.jobId from rfl, hload, ← hlength]
    refine ⟨rfl, fun hnil => by simp at hnil, ?_⟩
    intro last hlast hutc
    rw [List.getLast?_concat] at hlast
    cases hlast
    obtain ⟨loaded, hdecode, his⟩ := decode_itemOf hutc store.jobId
      (toString ((n + 1 : ℕ) : ℤ))
    refine ⟨loaded, ?_, his⟩
    rw [show DynamoDbCheckpointStore.decode (encode store.jobId ⟨n + 1, sent.cp.stored⟩) =
      .ok loaded from hdecode]
    rfl

/-- A save that the service answers. -/
lemma Accounts.save (h : Accounts events c) {i : ι} {cp : Checkpoint} {request : PutItem}
    (hrequest : (c.stores i).request cp = .ok request) :
    (request.holds (c.tables request.key) = true ↔
      known i events = (writesTo (c.stores i).key events).length) ∧
    ((c.stores i).conclude (answerOf request c.tables)).1 =
      if request.holds (c.tables request.key) then .ok () else .error .conflict := by
  have hmade : Made (events ++ [.posted ⟨i, c.stores i, cp, request⟩])
      ⟨i, c.stores i, cp, request⟩ (known i events) := h.made hrequest rfl
  refine ⟨h.ledger.holds hmade.sends, ?_⟩
  rw [answerOf]
  cases request.holds (c.tables request.key) <;> rfl

/-- A save that succeeds is the latest write that its process knows of. -/
lemma Accounts.succeeded (h : Accounts events c) {i : ι} {cp : Checkpoint} {request : PutItem}
    (hrequest : (c.stores i).request cp = .ok request)
    (he : e = .saved ⟨i, c.stores i, cp, request⟩ none true (.ok ()))
    (hn : known i events = (writesTo (c.stores i).key events).length) :
    (c.stores i).version + 1 = known i (events ++ [e]) ∧
      known i (events ++ [e]) = (writesTo (c.stores i).key (events ++ [e])).length := by
  have hkey := (sends_of_request (h.held i) hrequest).key
  have hfilter : (some (Sent.mk i (c.stores i) cp request)).filter
      (fun sent => sent.request.key = (c.stores i).key) = some ⟨i, c.stores i, cp, request⟩ := by
    simp [Option.filter, hkey]
  have hlength : (writesTo (c.stores i).key (events ++ [e])).length =
      (writesTo (c.stores i).key events).length + 1 := by
    rw [writesTo_snoc, he]
    simp only [Happening.write?, hfilter]
    rw [List.length_append]
    rfl
  have hknown : known i (events ++ [e]) = (writesTo (c.stores i).key (events ++ [e])).length := by
    rw [known_snoc, he]
    simp [Happening.starts, Happening.learns?]
  refine ⟨?_, hknown⟩
  rw [hknown, hlength, h.held, hn]
  rfl

/-- A save that the service answers. -/
lemma Accounts.answered (h : Accounts events c) {i : ι} {cp : Checkpoint} {request : PutItem}
    (hrequest : (c.stores i).request cp = .ok request) {late : ℕ}
    (he : e = .saved ⟨i, c.stores i, cp, request⟩ none (request.holds (c.tables request.key))
      ((c.stores i).conclude (answerOf request c.tables)).1)
    (hc : c' = ((c.conclude i (answerOf request c.tables)).reach request).leave late
      ⟨i, c.stores i, cp, request⟩) : Accounts (events ++ [e]) (c'.elapsed c) := by
  obtain ⟨hholds, hresult⟩ := h.save hrequest
  have hmade : Made (events ++ [e]) ⟨i, c.stores i, cp, request⟩ (known i events) := by
    apply h.made hrequest
    rw [he]
    rfl
  have hledger : Ledger (events ++ [e]) (request.write c.tables) := by
    refine h.ledger.reach hmade ?_
    rw [he]
    cases request.holds (c.tables request.key) <;> rfl
  subst hc
  refine h.step hledger (hmade.leave c late) fun j => ?_
  by_cases hj : j = i
  · subst hj
    have hstore : (((c.conclude j (answerOf request c.tables)).reach request).leave late
        ⟨j, c.stores j, cp, request⟩).stores j =
          ((c.stores j).conclude (answerOf request c.tables)).2 := Function.update_self ..
    rw [hresult] at he
    rw [hstore, answerOf]
    cases happlied : request.holds (c.tables request.key) with
    | false =>
      -- a refused store keeps the version that it held
      rw [happlied] at he
      exact Or.inl ⟨rfl, by rw [he]; rfl, by rw [he]; rfl⟩
    | true =>
      rw [happlied] at he
      obtain ⟨hversion, hknown⟩ := h.succeeded hrequest he (hholds.mp happlied)
      exact Or.inr ⟨hversion, hknown.le⟩
  · refine Or.inl ⟨Function.update_of_ne hj .., by rw [he]; rfl, ?_⟩
    rw [he]
    simp only [Happening.learns?]
    cases ((c.stores i).conclude (answerOf request c.tables)).1 with
    | error e => rfl
    | ok u => exact if_neg (Ne.symm hj)

/-- A save whose answer is lost. -/
lemma Accounts.lost (h : Accounts events c) {i : ι} {cp : Checkpoint} {request : PutItem}
    (hrequest : (c.stores i).request cp = .ok request) {late : ℕ} (error : ClientError)
    (he : e = .saved ⟨i, c.stores i, cp, request⟩ (some error) false
      ((c.stores i).conclude (.error error.translate)).1)
    (hc : c' = (c.conclude i (.error error.translate)).leave late
      ⟨i, c.stores i, cp, request⟩) : Accounts (events ++ [e]) (c'.elapsed c) := by
  have hmade : Made (events ++ [e]) ⟨i, c.stores i, cp, request⟩ (known i events) := by
    apply h.made hrequest
    rw [he]
    rfl
  have hkept : ((c.stores i).conclude (.error error.translate)).2 = c.stores i := by
    cases error.translate <;> rfl
  subst hc
  refine h.step (h.ledger.quiet (by rw [he]; rfl)) (hmade.leave c late) fun j =>
    Or.inl ⟨?_, by rw [he]; rfl, ?_⟩
  · show Function.update c.stores i ((c.stores i).conclude (.error error.translate)).2 j = _
    rw [hkept, Function.update_eq_self]
  · rw [he]
    simp only [Happening.learns?]
    cases error.translate <;> rfl

/-- A happening that writes nothing and concerns no process. -/
lemma Accounts.quiet (h : Accounts events c) (hwrite : e.write? = none)
    (hstarts : ∀ i, e.starts i = false) (hlearns : ∀ i, e.learns? i events = none)
    (htables : c'.tables = c.tables) (hstores : c'.stores = c.stores)
    (hflying : ∀ sent ∈ c'.inFlight, sent ∈ c.inFlight ∨ ∃ n, Made (events ++ [e]) sent n) :
    Accounts (events ++ [e]) (c'.elapsed c) :=
  h.step (htables ▸ h.ledger.quiet hwrite) hflying fun i =>
    Or.inl ⟨congrFun hstores i, hstarts i, hlearns i⟩

/-- What every step preserves: the tables hold the writes of the history, and no process knows of
more than there are. -/
theorem accounts_step (hint : ReadsNaturals) (h : Accounts events c) (hstep : Cloud.Step c e c') :
    Accounts (events ++ [e]) c' := by
  cases hstep with
  | of hchange =>
  cases hchange with
  | start i table jobId =>
    refine h.step (h.ledger.quiet rfl) (fun _ hsent => Or.inl hsent) fun j => ?_
    by_cases hj : j = i
    · subst hj
      have hknown : known j (events ++ [.started j table jobId]) = 0 := by
        rw [known_snoc]
        simp [Happening.starts]
      rw [hknown, Cloud.put_self]
      exact Or.inr ⟨rfl, Nat.zero_le _⟩
    · exact Or.inl ⟨Cloud.put_of_ne hj .., decide_eq_false (Ne.symm hj), rfl⟩
  | load i hk =>
    obtain ⟨-, hledger⟩ := h.ledgerAt hk
    obtain ⟨hstore, -⟩ := hledger.load hint (c.stores i)
    refine h.step (h.ledger.quiet rfl) (fun _ hsent => Or.inl hsent) fun j => ?_
    rw [hstore]
    by_cases hj : j = i
    · subst hj
      rw [known_loaded, Cloud.put_self]
      exact Or.inr ⟨rfl, (length_writesTo_take_le _ _ _).trans (length_writesTo_le _ _ _)⟩
    · exact Or.inl ⟨Cloud.put_of_ne hj .., rfl, if_neg (Ne.symm hj)⟩
  | loadFailed i e =>
    exact h.quiet rfl (fun _ => rfl) (fun _ => rfl) rfl rfl fun _ hsent => Or.inl hsent
  | send i cp request copies hrequest =>
    have hmade : Made (events ++ [.posted ⟨i, c.stores i, cp, request⟩])
        ⟨i, c.stores i, cp, request⟩ (known i events) := h.made hrequest rfl
    exact h.quiet rfl (fun _ => rfl) (fun _ => rfl) rfl rfl (hmade.leave c copies)
  | save i cp request late hrequest => exact h.answered hrequest rfl rfl
  | saveFailed i cp request late error hrequest => exact h.lost hrequest error rfl rfl
  | saveRaised i cp e hrequest =>
    exact h.quiet rfl (fun _ => rfl) (fun _ => rfl) rfl rfl fun _ hsent => Or.inl hsent
  | arrive sent before after hflight =>
    obtain ⟨n, hmade⟩ := h.flying sent (by rw [hflight]; exact List.mem_append_cons_self)
    refine h.step ?_ ?_ fun j => Or.inl ⟨rfl, rfl, rfl⟩
    · refine h.ledger.reach (hmade.snoc _) ?_
      cases sent.request.holds (c.tables sent.request.key) <;> rfl
    · intro sent' hsent'
      refine Or.inl ?_
      rw [hflight]
      rcases List.mem_append.mp hsent' with hold | hold
      · exact List.mem_append_left _ hold
      · exact List.mem_append_right _ (List.mem_cons_of_mem _ hold)

end Step

lemma accounts_run (hint : ReadsNaturals) {config : ι → String × String}
    {events : List (Happening ι)} {c : Cloud ι}
    (hrun : Run Cloud.Step (Cloud.fresh config) events c) : Accounts events c :=
  hrun.invariant (accounts_fresh config) fun _ _ _ _ h hstep => accounts_step hint h hstep

/-- Saves and loads of any number of processes, on tables that are empty at first, with
answers that are lost, loads that miss the latest writes, and requests that arrive late or more
than once. -/
theorem saves_serialized (hint : ReadsNaturals) (config : ι → String × String)
    (events : List (Happening ι)) (c : Cloud ι)
    (hrun : Run Cloud.Step (Cloud.fresh config) events c) : Serialized events where
  versions := (accounts_run hint hrun).ledger.versions
  sources key sent hsent := by
    obtain ⟨n, hmade⟩ := (accounts_run hint hrun).ledger.made key sent hsent
    obtain ⟨earlier, e, later, hevents, hsends, hn⟩ := hmade.sent
    refine ⟨earlier, e, later, hevents, hsends, ?_, by rw [hmade.version, hn]⟩
    obtain ⟨e, -, hwrite⟩ := List.mem_filterMap.mp hsent
    have hkey := (Option.filter_eq_some_iff.mp hwrite).2
    rw [← hmade.sends.key]
    exact of_decide_eq_true hkey
  answered earlier sent applied result later hevents := by
    subst hevents
    obtain ⟨c₁, c₂, hearlier, hstep⟩ := hrun.step_of_append
    have h := accounts_run hint hearlier
    cases hstep with
    | of hchange =>
    cases hchange with
    | save i cp request late hrequest => exact h.save hrequest
  loaded earlier i key asOf result later hevents := by
    subst hevents
    obtain ⟨c₁, c₂, hearlier, hstep⟩ := hrun.step_of_append
    cases hstep with
    | of hchange =>
    cases hchange with
    | load i hk =>
      obtain ⟨hle, hledger⟩ := (accounts_run hint hearlier).ledgerAt hk
      exact ⟨hle, (hledger.load hint (c₁.stores i)).2⟩

end

/-- The ASCII part of an interpreter that converts decimal texts. -/
@[reducible] def decimalRuntime : Runtime :=
  { Runtime.ascii with
    intOfText := fun text =>
      if text = "" then none else (numberOf text.toList).map fun n => (n : ℤ) }

lemma readsNaturals_decimal : letI := decimalRuntime; ReadsNaturals := by
  let decimal := decimalRuntime
  intro n text htext
  have hdigits : text.toList = Nat.toDigits 10 n := by
    rw [toStr_natCast htext]
    exact toList_toString_natCast n
  have hne : text ≠ "" := by
    intro hempty
    rw [hempty] at hdigits
    exact (JsonText.digits_toDigits n).1 hdigits.symm
  have hnumber : numberOf text.toList = some n := by
    rw [hdigits, numberOf_eq_some]
    exact ⟨(JsonText.digits_toDigits n).2, (JsonText.numeral_toDigits n).symm⟩
  show (if text = "" then none else (numberOf text.toList).map fun n => (n : ℤ)) = some (n : ℤ)
  rw [if_neg hne, hnumber]
  rfl

/-- A request is sent twice: the first copy is applied but its answer lost, and the second one
refused, so that the save conflicts with itself. A load of another process that misses the write
finds nothing. -/
theorem saves_serialized_sample :
    letI := decimalRuntime
    ∃ (sent : Sent Bool) (c : Cloud Bool),
      Run Cloud.Step (.fresh fun _ => ("checkpoints", "gateway-sli"))
        [.posted sent, .arrived sent true, .saved sent none false (.error .conflict),
          .loaded true ("checkpoints", "gateway-sli") 1 (.ok none)] c ∧
      Serialized [.posted sent, .arrived sent true, .saved sent none false (.error .conflict),
        .loaded true ("checkpoints", "gateway-sli") 1 (.ok none)] := by
  let decimal := decimalRuntime
  let config : Bool → String × String := fun _ => ("checkpoints", "gateway-sli")
  let store : DynamoDbCheckpointStore := ⟨"checkpoints", "gateway-sli", 0⟩
  let cp : Checkpoint := ⟨none, .empty⟩
  obtain ⟨request, hrequest⟩ := request_of_fresh store cp rfl
  have hsends := sends_of_request (n := 0) rfl hrequest
  have hfirst : request.holds none = true := hsends.holds none
  have hsecond : request.holds (some request.item) = false := by
    rw [hsends.item]
    exact hsends.holds (some ⟨1, cp.stored⟩)
  let sent : Sent Bool := ⟨false, store, cp, request⟩
  let c₀ : Cloud Bool := .fresh config
  let c₁ : Cloud Bool := (c₀.leave 1 sent).elapsed c₀
  have hpost : Cloud.Step c₀ (.posted sent) c₁ := .of (.send c₀ false cp request 1 hrequest)
  have harrive := Cloud.Change.arrive c₁ sent [] [] rfl
  rw [show sent.request.holds (c₁.tables sent.request.key) = true from hfirst] at harrive
  let c₂ : Cloud Bool := Cloud.elapsed { c₁.reach request with inFlight := [] } c₁
  have hwritten : c₂.tables request.key = some request.item := by
    show request.write (fun _ => none) request.key = _
    rw [PutItem.write, if_pos hfirst, Function.update_self]
  have hrefused : request.holds (c₂.tables request.key) = false := by rw [hwritten, hsecond]
  have hsave := Cloud.Change.save c₂ false cp request 0 hrequest
  rw [hrefused, answerOf, hrefused] at hsave
  have hbefore := ((Run.nil.snoc hpost).snoc (.of harrive)).snoc (.of hsave)
  have hrun := hbefore.snoc (.of (.load _ true (show (_ : List Tables)[1]? = some _ from rfl)))
  exact ⟨sent, _, hrun, saves_serialized readsNaturals_decimal config _ _ hrun⟩

end InferenceControlPlane.Sli
